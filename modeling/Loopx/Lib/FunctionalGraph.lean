/- GID: Loopx/Lib/FunctionalGraph
   generality: G
   source: none
   digest: Graphs with at most one edge out of each node: their cycles and what leads to them. -/

import Mathlib.Data.List.Rotate
import Mathlib.Logic.Relation

set_option autoImplicit false
set_option relaxedAutoImplicit false

namespace Loopx.Lib.FunctionalGraph

open Relation (ReflTransGen)

variable {α : Type} {next : α → Option α}

/-- The edge out of a node. -/
def Step (next : α → Option α) (a b : α) : Prop := next a = some b

/-- The nodes of a cycle, each once and in the order of its edges. -/
structure IsCycle (next : α → Option α) (members : List α) : Prop where
  nonempty : 0 < members.length
  nodup : members.Nodup
  steps : ∀ i (_ : i < members.length),
    next members[i] = members[(i + 1) % members.length]?

/-- Following the edges from a node enters the cycle. -/
def LeadsTo (next : α → Option α) (a : α) (members : List α) : Prop :=
  ∃ m ∈ members, ReflTransGen (Step next) a m

theorem step_rightUnique : Relator.RightUnique (Step next) := by
  intro a b c hb hc
  exact Option.some.inj (hb.symm.trans hc)

namespace IsCycle

variable {members : List α}

theorem exists_next (h : IsCycle next members) {m : α} (mem : m ∈ members) :
    ∃ m' ∈ members, next m = some m' := by
  obtain ⟨i, inside, rfl⟩ := List.mem_iff_getElem.mp mem
  have step := h.steps i inside
  rw [List.getElem?_eq_getElem (Nat.mod_lt _ h.nonempty)] at step
  exact ⟨_, List.getElem_mem _, step⟩

theorem mem_of_step (h : IsCycle next members) {m m' : α} (mem : m ∈ members)
    (step : Step next m m') : m' ∈ members := by
  obtain ⟨other, there, same⟩ := h.exists_next mem
  rw [step_rightUnique step same]
  exact there

theorem mem_of_reaches (h : IsCycle next members) {m m' : α} (mem : m ∈ members)
    (reaches : ReflTransGen (Step next) m m') : m' ∈ members := by
  induction reaches with
  | refl => exact mem
  | tail _ step ih => exact h.mem_of_step ih step

theorem rotate (h : IsCycle next members) (n : Nat) : IsCycle next (members.rotate n) where
  nonempty := by
    rw [List.length_rotate]
    exact h.nonempty
  nodup := List.nodup_rotate.mpr h.nodup
  steps i inside := by
    rw [List.length_rotate] at inside
    have here := h.steps ((i + n) % members.length) (Nat.mod_lt _ h.nonempty)
    rw [List.getElem_rotate, here, List.length_rotate,
      List.getElem?_rotate (Nat.mod_lt _ h.nonempty), Nat.mod_add_mod, Nat.mod_add_mod]
    congr 2
    omega

/-- Two cycles from one node walk the same nodes as far as both go. -/
private theorem getElem_eq {other : List α} (h : IsCycle next members)
    (h' : IsCycle next other) (head : members[0]? = other[0]?) {k : Nat}
    (inside : k < members.length) (inside' : k < other.length) : members[k]? = other[k]? := by
  induction k with
  | zero => exact head
  | succ k ih =>
    have same := ih (by omega) (by omega)
    rw [List.getElem?_eq_getElem (by omega), List.getElem?_eq_getElem (by omega)] at same
    have left := h.steps k (by omega)
    have right := h'.steps k (by omega)
    rw [Nat.mod_eq_of_lt inside, Option.some.inj same] at left
    rw [Nat.mod_eq_of_lt inside'] at right
    exact left.symm.trans right

private theorem length_le {other : List α} (h : IsCycle next members)
    (h' : IsCycle next other) (head : members[0]? = other[0]?) :
    other.length ≤ members.length := by
  by_contra longer
  have positive := h.nonempty
  have last := h.steps (members.length - 1) (by omega)
  have last' := h'.steps (members.length - 1) (by omega)
  have same := h.getElem_eq h' head (k := members.length - 1) (by omega) (by omega)
  have here : members.length - 1 + 1 = members.length := by omega
  rw [List.getElem?_eq_getElem (by omega), List.getElem?_eq_getElem (by omega)] at same
  rw [here, Nat.mod_self, Option.some.inj same, head] at last
  rw [here, Nat.mod_eq_of_lt (by omega), last] at last'
  have index := (List.getElem?_inj (by omega) h'.nodup).mp last'
  omega

theorem eq_of_head {other : List α} (h : IsCycle next members) (h' : IsCycle next other)
    (head : members[0]? = other[0]?) : members = other := by
  have length := Nat.le_antisymm (h'.length_le h head.symm) (h.length_le h' head)
  refine List.ext_getElem? fun k => ?_
  by_cases inside : k < members.length
  · exact h.getElem_eq h' head inside (length ▸ inside)
  · rw [List.getElem?_eq_none (by omega), List.getElem?_eq_none (by omega)]

/-- Two cycles that share a node are one cycle. -/
theorem isRotated_of_mem {other : List α} (h : IsCycle next members)
    (h' : IsCycle next other) {m : α} (mem : m ∈ members) (mem' : m ∈ other) :
    members ~r other := by
  obtain ⟨i, inside, here⟩ := List.mem_iff_getElem.mp mem
  obtain ⟨j, inside', there⟩ := List.mem_iff_getElem.mp mem'
  have same : members.rotate i = other.rotate j := by
    refine (h.rotate i).eq_of_head (h'.rotate j) ?_
    rw [List.getElem?_rotate h.nonempty, List.getElem?_rotate h'.nonempty, Nat.zero_add,
      Nat.zero_add, Nat.mod_eq_of_lt inside, Nat.mod_eq_of_lt inside',
      List.getElem?_eq_getElem inside, List.getElem?_eq_getElem inside', here, there]
  exact (List.IsRotated.forall members i).symm.trans
    (same ▸ List.IsRotated.forall other j)

/-- A node leads to a cycle exactly when the node behind its edge does. -/
theorem leadsTo_step (h : IsCycle next members) {a b : α} (step : Step next a b) :
    LeadsTo next a members ↔ LeadsTo next b members := by
  constructor
  · rintro ⟨m, mem, reaches⟩
    rcases ReflTransGen.cases_head reaches with rfl | ⟨c, first, rest⟩
    · exact ⟨b, h.mem_of_step mem step, .refl⟩
    · rw [step_rightUnique step first]
      exact ⟨m, mem, rest⟩
  · rintro ⟨m, mem, reaches⟩
    exact ⟨m, mem, .head step reaches⟩

theorem leadsTo_reaches (h : IsCycle next members) {a b : α}
    (reaches : ReflTransGen (Step next) a b) :
    LeadsTo next a members ↔ LeadsTo next b members := by
  induction reaches with
  | refl => exact Iff.rfl
  | tail _ step ih => exact ih.trans (h.leadsTo_step step)

/-- A node leads to at most one cycle. -/
theorem isRotated_of_leadsTo {other : List α} (h : IsCycle next members)
    (h' : IsCycle next other) {a : α} (leads : LeadsTo next a members)
    (leads' : LeadsTo next a other) : members ~r other := by
  obtain ⟨m, mem, reaches⟩ := leads
  obtain ⟨m', mem', reaches'⟩ := leads'
  rcases ReflTransGen.total_of_right_unique step_rightUnique reaches reaches' with forth | back
  · exact h.isRotated_of_mem h' (h.mem_of_reaches mem forth) mem'
  · exact h.isRotated_of_mem h' mem (h'.mem_of_reaches mem' back)

theorem not_leadsTo_of_none (h : IsCycle next members) {a : α} (none : next a = none) :
    ¬LeadsTo next a members := by
  rintro ⟨m, mem, reaches⟩
  rcases ReflTransGen.cases_head reaches with rfl | ⟨c, first, _⟩
  · obtain ⟨m', _, step⟩ := h.exists_next mem
    rw [none] at step
    cases step
  · rw [Step, none] at first
    cases first

end IsCycle

/-- A walk that comes back to one of its own nodes has walked a cycle from there on. -/
theorem isCycle_drop {path : List α} {i : Nat} {last : α} (chain : path.IsChain (Step next))
    (nodup : path.Nodup) (inside : i < path.length) (isLast : path.getLast? = some last)
    (back : next last = path[i]?) : IsCycle next (path.drop i) where
  nonempty := by
    rw [List.length_drop]
    omega
  nodup := nodup.sublist (List.drop_sublist i path)
  steps k here := by
    rw [List.length_drop] at here
    rw [List.getElem_drop, List.length_drop, List.getElem?_drop]
    rcases Nat.lt_or_ge (k + 1) (path.length - i) with earlier | final
    · have step := List.isChain_iff_getElem.mp chain (i + k) (by omega)
      rw [Nat.mod_eq_of_lt earlier, ← Nat.add_assoc, List.getElem?_eq_getElem (by omega)]
      exact step
    · have wrap : k + 1 = path.length - i := by omega
      have index : path.length - 1 = i + k := by omega
      rw [List.getLast?_eq_getElem?, index, List.getElem?_eq_getElem (by omega)] at isLast
      rw [Option.some.inj isLast, wrap, Nat.mod_self, Nat.add_zero]
      exact back

end Loopx.Lib.FunctionalGraph
