/- GID: Loopx/Lib/BreadthFirst
   generality: G
   source: none
   digest: Breadth-first search with a bound on the nodes, and the enumeration it cuts short. -/

import Mathlib.Data.List.Nodup
import Mathlib.Data.List.Perm.Subperm
import Mathlib.Data.List.TakeDrop
import Mathlib.Tactic.Common

set_option autoImplicit false
set_option relaxedAutoImplicit false

namespace Loopx.Lib.BreadthFirst

variable {α : Type} [DecidableEq α] {limit : Nat}

/-- The nodes in the order of their admission: the start and at most `limit` others. -/
structure Queue (α : Type) (limit : Nat) where
  nodes : List α
  room : nodes.length ≤ limit + 1

/-- Admit a node that is new, while there is room. -/
def push (queue : Queue α limit) (a : α) : Queue α limit :=
  if stop : a ∈ queue.nodes ∨ limit < queue.nodes.length then queue
  else
    { nodes := queue.nodes ++ [a]
      room := by
        rw [List.length_append, List.length_singleton]
        omega }

/-- Expand the nodes from the cursor on, those admitted on the way included. -/
def visitFrom (targets : α → List α) (cursor : Nat) (queue : Queue α limit) : Queue α limit :=
  if here : cursor < queue.nodes.length then
    visitFrom targets (cursor + 1) ((targets queue.nodes[cursor]).foldl push queue)
  else queue
termination_by limit + 1 - cursor
decreasing_by
  have := queue.room
  omega

def search (limit : Nat) (targets : α → List α) (start : α) : Queue α limit :=
  visitFrom targets 0 ⟨[start], by rw [List.length_singleton]; omega⟩

/-! ## What the search enumerates -/

/-- A path of a given length from the start. -/
inductive Walk (targets : α → List α) (start : α) : Nat → α → Prop
  | refl : Walk targets start 0 start
  | step {n : Nat} {a b : α} : Walk targets start n a → b ∈ targets a →
      Walk targets start (n + 1) b

/-- No path to the second node is shorter than every path to the first. -/
def Nearer (targets : α → List α) (start a b : α) : Prop :=
  ∀ n, Walk targets start n b → ∃ m ≤ n, Walk targets start m a

/-- Every node that can be reached, once and the nearest first. -/
structure Enumerates (targets : α → List α) (start : α) (whole : List α) : Prop where
  nodup : whole.Nodup
  mem_iff : ∀ b, b ∈ whole ↔ ∃ n, Walk targets start n b
  ordered : whole.Pairwise (Nearer targets start)

/-- The search with the nodes before the cursor expanded. -/
structure Visiting (limit : Nat) (targets : α → List α) (start : α) (cursor : Nat)
    (nodes : List α) : Prop where
  nodup : nodes.Nodup
  starts : nodes.head? = some start
  reached : ∀ a ∈ nodes, ∃ n, Walk targets start n a
  ordered : nodes.Pairwise (Nearer targets start)
  near : ∀ current, nodes[cursor]? = some current → ∀ a ∈ nodes, ∀ n,
    Walk targets start n current → ∃ m ≤ n + 1, Walk targets start m a
  closed : ∀ a ∈ nodes.take cursor, ∀ b ∈ targets a, b ∈ nodes ∨ limit < nodes.length

variable {targets : α → List α} {start : α} {cursor : Nat} {nodes : List α}

omit [DecidableEq α] in
theorem visiting_start (limit : Nat) (targets : α → List α) (start : α) :
    Visiting limit targets start 0 [start] where
  nodup := List.nodup_singleton _
  starts := rfl
  reached a mem := ⟨0, List.mem_singleton.mp mem ▸ .refl⟩
  ordered := List.pairwise_singleton _ _
  near current here a mem n _ := ⟨0, Nat.zero_le _, List.mem_singleton.mp mem ▸ .refl⟩
  closed a mem := by cases mem

omit [DecidableEq α] in
/-- What has not been expanded is not nearer than the node at the cursor. -/
theorem Visiting.unexpanded (h : Visiting limit targets start cursor nodes)
    (room : nodes.length ≤ limit) {current : α} (here : nodes[cursor]? = some current) {k : Nat}
    {a : α} (walk : Walk targets start k a) (fresh : a ∉ nodes.take cursor) :
    ∃ m ≤ k, Walk targets start m current := by
  obtain ⟨inside, isCurrent⟩ := List.getElem?_eq_some_iff.mp here
  -- the nodes from the cursor on are not nearer than the one at the cursor
  have later : ∀ {k : Nat} {a : α}, a ∈ nodes → a ∉ nodes.take cursor → Walk targets start k a →
      ∃ m ≤ k, Walk targets start m current := by
    intro k a mem fresh walk
    rw [← List.take_append_drop cursor nodes] at mem
    have rest := (List.mem_append.mp mem).resolve_left fresh
    rw [List.drop_eq_getElem_cons inside, isCurrent] at rest
    rcases List.mem_cons.mp rest with rfl | rest
    · exact ⟨k, Nat.le_refl _, walk⟩
    · have sorted := h.ordered.sublist (List.drop_sublist cursor nodes)
      rw [List.drop_eq_getElem_cons inside, isCurrent] at sorted
      exact List.rel_of_pairwise_cons sorted rest k walk
  induction walk with
  | refl => exact later (List.mem_of_mem_head? (Option.mem_def.mpr h.starts)) fresh .refl
  | step walk edge ih =>
    next n a b =>
    by_cases expanded : a ∈ nodes.take cursor
    · rcases h.closed a expanded b edge with mem | full
      · exact later mem fresh (.step walk edge)
      · omega
    · obtain ⟨m, le, reaches⟩ := ih expanded
      exact ⟨m, by omega, reaches⟩

theorem Visiting.pushed {queue : Queue α limit}
    (h : Visiting limit targets start cursor queue.nodes) {current b : α}
    (here : queue.nodes[cursor]? = some current) (edge : b ∈ targets current) :
    Visiting limit targets start cursor (push queue b).nodes ∧
      (push queue b).nodes[cursor]? = some current ∧
      (b ∈ (push queue b).nodes ∨ limit < (push queue b).nodes.length) := by
  unfold push
  split
  · next stop => exact ⟨h, here, stop⟩
  · next go =>
    obtain ⟨fresh, room⟩ := not_or.mp go
    obtain ⟨inside, _⟩ := List.getElem?_eq_some_iff.mp here
    have taken : (queue.nodes ++ [b]).take cursor = queue.nodes.take cursor :=
      List.take_append_of_le_length (Nat.le_of_lt inside)
    have kept : (queue.nodes ++ [b])[cursor]? = some current := by
      rw [List.getElem?_append_left inside, here]
    have currentWalk : ∃ n, Walk targets start n current :=
      h.reached current (List.mem_of_getElem? here)
    -- a path to the new node is longer than one to the node at the cursor
    have beyond : ∀ n, Walk targets start n b → ∃ k, k + 1 ≤ n ∧ Walk targets start k current := by
      intro n walk
      cases walk with
      | refl => exact absurd (List.mem_of_mem_head? (Option.mem_def.mpr h.starts)) fresh
      | step walk into =>
        next k a =>
        by_cases expanded : a ∈ queue.nodes.take cursor
        · rcases h.closed a expanded b into with mem | full
          · exact absurd mem fresh
          · exact absurd full room
        · obtain ⟨m, le, reaches⟩ := h.unexpanded (by omega) here walk expanded
          exact ⟨m, by omega, reaches⟩
    refine ⟨⟨?_, ?_, ?_, ?_, ?_, ?_⟩, kept, .inl (List.mem_append_right _ List.mem_cons_self)⟩
    · refine List.nodup_append.mpr ⟨h.nodup, List.nodup_singleton _, fun a mem c here' => ?_⟩
      rw [List.mem_singleton.mp here']
      rintro rfl
      exact fresh mem
    · rw [List.head?_append, h.starts]
      rfl
    · intro a mem
      rcases List.mem_append.mp mem with old | new
      · exact h.reached a old
      · obtain ⟨n, walk⟩ := currentWalk
        rw [List.mem_singleton.mp new]
        exact ⟨n + 1, .step walk edge⟩
    · refine List.pairwise_append.mpr ⟨h.ordered, List.pairwise_singleton _ _, ?_⟩
      intro a mem c new n walk
      rw [List.mem_singleton.mp new] at walk
      obtain ⟨k, shorter, reaches⟩ := beyond n walk
      obtain ⟨m, le, walk'⟩ := h.near current here a mem k reaches
      exact ⟨m, by omega, walk'⟩
    · intro current' here' a mem n walk
      obtain rfl := Option.some.inj (kept.symm.trans here')
      rcases List.mem_append.mp mem with old | new
      · exact h.near current here a old n walk
      · rw [List.mem_singleton.mp new]
        exact ⟨n + 1, Nat.le_refl _, .step walk edge⟩
    · intro a mem c into
      rw [taken] at mem
      rcases h.closed a mem c into with old | full
      · exact .inl (List.mem_append_left _ old)
      · exact absurd full room

private theorem mem_push {queue : Queue α limit} {a b : α} (mem : a ∈ queue.nodes) :
    a ∈ (push queue b).nodes := by
  unfold push
  split
  · exact mem
  · exact List.mem_append_left _ mem

private theorem length_push (queue : Queue α limit) (b : α) :
    queue.nodes.length ≤ (push queue b).nodes.length := by
  unfold push
  split
  · exact Nat.le_refl _
  · rw [List.length_append]
    omega

private theorem settled_foldl (bs : List α) {queue : Queue α limit} {a : α}
    (settled : a ∈ queue.nodes ∨ limit < queue.nodes.length) :
    a ∈ (bs.foldl push queue).nodes ∨ limit < (bs.foldl push queue).nodes.length := by
  induction bs generalizing queue with
  | nil => exact settled
  | cons b bs ih =>
    refine ih ?_
    rcases settled with mem | full
    · exact .inl (mem_push mem)
    · have := length_push queue b
      exact .inr (by omega)

private theorem visiting_foldl (bs : List α) {queue : Queue α limit} {current : α}
    (h : Visiting limit targets start cursor queue.nodes)
    (here : queue.nodes[cursor]? = some current) (edges : ∀ b ∈ bs, b ∈ targets current) :
    Visiting limit targets start cursor (bs.foldl push queue).nodes ∧
      (bs.foldl push queue).nodes[cursor]? = some current ∧
      ∀ b ∈ bs, b ∈ (bs.foldl push queue).nodes ∨
        limit < (bs.foldl push queue).nodes.length := by
  induction bs generalizing queue with
  | nil => exact ⟨h, here, fun b mem => absurd mem List.not_mem_nil⟩
  | cons b bs ih =>
    obtain ⟨pushed, here', settled⟩ := h.pushed here (edges b List.mem_cons_self)
    obtain ⟨whole, there, each⟩ := ih pushed here' fun c mem => edges c (List.mem_cons_of_mem _ mem)
    refine ⟨whole, there, fun c mem => ?_⟩
    rcases List.mem_cons.mp mem with rfl | later
    · exact settled_foldl bs settled
    · exact each c later

theorem Visiting.expand {queue : Queue α limit} {current : α}
    (h : Visiting limit targets start cursor queue.nodes)
    (here : queue.nodes[cursor]? = some current) :
    Visiting limit targets start (cursor + 1) ((targets current).foldl push queue).nodes := by
  obtain ⟨whole, there, each⟩ := visiting_foldl (targets current) h here fun _ mem => mem
  obtain ⟨inside, isCurrent⟩ := List.getElem?_eq_some_iff.mp there
  refine ⟨whole.nodup, whole.starts, whole.reached, whole.ordered, ?_, ?_⟩
  · intro next isNext a mem n walk
    obtain ⟨inside', isNext'⟩ := List.getElem?_eq_some_iff.mp isNext
    have nearer := List.pairwise_iff_getElem.mp whole.ordered cursor (cursor + 1) inside inside'
      (Nat.lt_succ_self _)
    rw [isCurrent, isNext'] at nearer
    obtain ⟨m, le, walk'⟩ := nearer n walk
    obtain ⟨m', le', walk''⟩ := whole.near current there a mem m walk'
    exact ⟨m', by omega, walk''⟩
  · intro a mem b into
    rw [List.take_add_one, there] at mem
    rcases List.mem_append.mp mem with old | new
    · exact whole.closed a old b into
    · obtain rfl : a = current := by simpa using new
      exact each b into

theorem visiting_visitFrom (queue : Queue α limit)
    (h : Visiting limit targets start cursor queue.nodes) :
    ∃ cursor', (visitFrom targets cursor queue).nodes.length ≤ cursor' ∧
      Visiting limit targets start cursor' (visitFrom targets cursor queue).nodes := by
  induction cursor, queue using visitFrom.induct targets with
  | case1 cursor queue here ih =>
    rw [visitFrom, dif_pos here]
    exact ih (h.expand (List.getElem?_eq_getElem here))
  | case2 cursor queue past =>
    rw [visitFrom, dif_neg past]
    exact ⟨cursor, Nat.le_of_not_lt past, h⟩

/-- The search is over: every target of a node has been admitted, or there was no room. -/
theorem visiting_search (limit : Nat) (targets : α → List α) (start : α) :
    ∃ cursor, (search limit targets start).nodes.length ≤ cursor ∧
      Visiting limit targets start cursor (search limit targets start).nodes :=
  visiting_visitFrom _ (visiting_start limit targets start)

/-- With room for every node, the search enumerates all that can be reached. -/
theorem enumerates_search {all : List α} (contains : start ∈ all)
    (within : ∀ a ∈ all, ∀ b ∈ targets a, b ∈ all) (enough : all.length ≤ limit) :
    Enumerates targets start (search limit targets start).nodes := by
  obtain ⟨cursor, past, h⟩ := visiting_search limit targets start
  have inside : ∀ n a, Walk targets start n a → a ∈ all := by
    intro n a walk
    induction walk with
    | refl => exact contains
    | step walk edge ih => exact within _ ih _ edge
  have small : (search limit targets start).nodes.length ≤ limit := by
    refine Nat.le_trans (List.subperm_of_subset h.nodup fun a mem => ?_).length_le enough
    obtain ⟨n, walk⟩ := h.reached a mem
    exact inside n a walk
  refine ⟨h.nodup, fun b => ⟨h.reached b, fun reaches => ?_⟩, h.ordered⟩
  obtain ⟨n, walk⟩ := reaches
  induction walk with
  | refl => exact List.mem_of_mem_head? (Option.mem_def.mpr h.starts)
  | step walk edge ih =>
    rcases h.closed _ (by rwa [List.take_of_length_le past]) _ edge with mem | full
    · exact mem
    · omega

/-! ## A smaller bound -/

private theorem take_push {larger : Nat} (le : limit ≤ larger) {small : Queue α limit}
    {large : Queue α larger} (same : small.nodes = large.nodes.take (limit + 1)) (b : α) :
    (push small b).nodes = (push large b).nodes.take (limit + 1) := by
  unfold push
  by_cases room : large.nodes.length ≤ limit
  · have whole : small.nodes = large.nodes := by
      rw [same, List.take_of_length_le (by omega)]
    have plenty : ¬larger < large.nodes.length := by omega
    have plenty' : ¬limit < large.nodes.length := by omega
    simp only [whole, plenty, plenty', or_false]
    split
    · rw [whole, List.take_of_length_le (by omega)]
    · rw [List.take_of_length_le]
      rw [List.length_append, List.length_singleton]
      omega
  · have full : limit < small.nodes.length := by
      rw [same, List.length_take]
      omega
    rw [dif_pos (.inr full), same]
    split
    · rfl
    · rw [List.take_append_of_le_length (by omega)]

private theorem take_foldl {larger : Nat} (le : limit ≤ larger) (bs : List α)
    {small : Queue α limit} {large : Queue α larger}
    (same : small.nodes = large.nodes.take (limit + 1)) :
    (bs.foldl push small).nodes = (bs.foldl push large).nodes.take (limit + 1) := by
  induction bs generalizing small large with
  | nil => exact same
  | cons b bs ih => exact ih (take_push le same b)

theorem prefix_foldl_push (bs : List α) (queue : Queue α limit) :
    queue.nodes <+: (bs.foldl push queue).nodes := by
  induction bs generalizing queue with
  | nil => exact List.prefix_refl _
  | cons b bs ih =>
    refine List.IsPrefix.trans ?_ (ih (push queue b))
    unfold push
    split
    · exact List.prefix_refl _
    · exact List.prefix_append _ _

private theorem take_visitFrom_full (large : Queue α limit) (size cursor : Nat)
    (full : size ≤ large.nodes.length) :
    (visitFrom targets cursor large).nodes.take size = large.nodes.take size := by
  induction cursor, large using visitFrom.induct targets with
  | case1 cursor queue here ih =>
    have longer := prefix_foldl_push (targets queue.nodes[cursor]) queue
    rw [visitFrom, dif_pos here, ih (Nat.le_trans full longer.length_le)]
    obtain ⟨rest, whole⟩ := longer
    rw [← whole, List.take_append_of_le_length full]
  | case2 cursor queue past => rw [visitFrom, dif_neg past]

private theorem take_visitFrom {larger : Nat} (le : limit ≤ larger) (small : Queue α limit)
    (large : Queue α larger) (same : small.nodes = large.nodes.take (limit + 1)) :
    (visitFrom targets cursor small).nodes =
      (visitFrom targets cursor large).nodes.take (limit + 1) := by
  induction cursor, small using visitFrom.induct targets generalizing large with
  | case1 cursor small here ih =>
    have inside : cursor < large.nodes.length := by
      rw [same, List.length_take] at here
      omega
    have current : small.nodes[cursor] = large.nodes[cursor] := by
      simp only [same, List.getElem_take]
    rw [visitFrom, dif_pos here]
    conv_rhs => rw [visitFrom, dif_pos inside]
    refine ih _ ?_
    rw [current]
    exact take_foldl le _ same
  | case2 cursor small past =>
    rw [visitFrom, dif_neg past]
    by_cases room : large.nodes.length ≤ limit
    · have whole : small.nodes = large.nodes := by
        rw [same, List.take_of_length_le (by omega)]
      rw [visitFrom, dif_neg (by rwa [← whole]), same]
    · rw [same, take_visitFrom_full large (limit + 1) cursor (by omega)]

/-- A bounded search is the beginning of the whole enumeration. -/
theorem search_take {larger : Nat} (le : limit ≤ larger) (targets : α → List α) (start : α) :
    (search limit targets start).nodes =
      (search larger targets start).nodes.take (limit + 1) :=
  take_visitFrom le _ _ (by rw [List.take_of_length_le]; rw [List.length_singleton]; omega)

theorem exists_enumeration {all : List α} (contains : start ∈ all)
    (within : ∀ a ∈ all, ∀ b ∈ targets a, b ∈ all) (limit : Nat) :
    ∃ whole, Enumerates targets start whole ∧
      (search limit targets start).nodes = whole.take (limit + 1) :=
  ⟨_, enumerates_search contains within (Nat.le_add_left all.length limit),
    search_take (Nat.le_add_right _ _) targets start⟩

end Loopx.Lib.BreadthFirst
