/- GID: Loopx/Todos/CompletionDependency
   generality: I
   source: loopx/control_plane/todos/completion_dependency.ts
   digest: The cycles of the unfinished completion dependencies, and the evidence for each. -/

import Loopx.Lib.FunctionalGraph
import Loopx.Lib.KeyedList
import Loopx.Lib.Utf16
import Mathlib.Data.List.Chain
import Mathlib.Data.List.GetD

set_option autoImplicit false
set_option relaxedAutoImplicit false

namespace Loopx.Todos

open Loopx.Lib.FunctionalGraph
open Loopx.Lib.KeyedList
open Loopx.Lib.Utf16 (before before_iff unitKey unitKey_injective)
open Relation (ReflTransGen)

structure CompletionDependencyCycle where
  todoIds : List String
  size : Nat
deriving DecidableEq, Repr

/-- What has been decided so far, in the order of the decisions. -/
abbrev Resolved := List (String × Option CompletionDependencyCycle)

/-- The walk of the inner loop: its path, and where it stopped. -/
def walk (edges : List (String × String)) (resolved : Resolved) (path : List String) :
    Option String → List String × Option String
  | none => (path, none)
  | some current =>
    if (resolved.lookup current).isSome ∨ current ∈ path then (path, some current)
    else walk edges resolved (path ++ [current]) (edges.lookup current)
  -- a Todo of the map leaves the keys still ahead; any other ends the walk
termination_by current =>
  2 * ((keys edges).filter fun id => id ∉ path).length + if current.isSome then 1 else 0
decreasing_by
  rename_i continues
  have fresh : current ∉ path := fun visited => continues (.inr visited)
  have shrinks : ((keys edges).filter fun id => id ∉ path ++ [current]).Sublist
      ((keys edges).filter fun id => id ∉ path) := by
    refine List.monotone_filter_right _ fun id ahead => ?_
    simp only [List.mem_append, not_or, decide_eq_true_eq] at ahead ⊢
    exact ahead.1
  cases there : edges.lookup current with
  | none =>
    have := shrinks.length_le
    simp only [Option.isSome_none, Option.isSome_some, if_true, Bool.false_eq_true, if_false]
    omega
  | some target =>
    have ahead : current ∈ (keys edges).filter fun id => id ∉ path := by
      refine List.mem_filter.mpr ⟨lookup_isSome.mp (by rw [there]; rfl), ?_⟩
      exact decide_eq_true fresh
    have fewer : ((keys edges).filter fun id => id ∉ path ++ [current]).length <
        ((keys edges).filter fun id => id ∉ path).length := by
      refine lt_of_le_of_ne shrinks.length_le fun same => ?_
      rw [← shrinks.eq_of_length same] at ahead
      simp at ahead
    simp only [Option.isSome_some, if_true]
    omega

/-- The place of the least member, as the fold over the members finds it. -/
def leastIndex (members : List String) : Nat :=
  members.zipIdx.foldl
    (fun best (id, index) => if before id (members.getD best "") then index else best) 0

def cycleEvidence (members : List String) : CompletionDependencyCycle :=
  let first := leastIndex members
  { todoIds := (List.range (min 8 members.length)).map fun index =>
      members.getD ((first + index) % members.length) ""
    size := members.length }

/-- What the path of a walk is decided to be, from where the walk stopped. -/
def cycleAt (resolved : Resolved) (path : List String) :
    Option String → Option CompletionDependencyCycle
  | none => none
  | some current =>
    if current ∈ path then some (cycleEvidence (path.drop (path.idxOf current)))
    else (resolved.lookup current).join

def resolveStart (edges : List (String × String)) (resolved : Resolved) (start : String) :
    Resolved :=
  if (resolved.lookup start).isSome then resolved
  else
    let stop := walk edges resolved [] (some start)
    let cycle := cycleAt resolved stop.1 stop.2
    stop.1.foldl (fun resolved id => setKey resolved id cycle) resolved

def completionDependencyCycles (edges : List (String × String)) : Resolved :=
  (keys edges).foldl (resolveStart edges) []

/-! ## The evidence of a cycle -/

/-- The nodes of a cycle from its least one on. -/
def fromLeast (members : List String) : List String := members.rotate (leastIndex members)

private theorem leastIndex_fold (members : List String) (rest : List String) (start best : Nat)
    (ahead : members.drop start = rest) (inside : best < members.length)
    (least : ∀ j < start, unitKey (members.getD best "") ≤ unitKey (members.getD j "")) :
    let index := (rest.zipIdx start).foldl
      (fun best (id, index) => if before id (members.getD best "") then index else best) best
    index < members.length ∧
      ∀ j < members.length, unitKey (members.getD index "") ≤ unitKey (members.getD j "") := by
  induction rest generalizing start best with
  | nil =>
    have past := List.drop_eq_nil_iff.mp ahead
    exact ⟨inside, fun j within => least j (by omega)⟩
  | cons id rest ih =>
    have within : start < members.length := by
      by_contra beyond
      rw [List.drop_eq_nil_iff.mpr (by omega)] at ahead
      cases ahead
    have here : members.getD start "" = id := by
      rw [List.drop_eq_getElem_cons within] at ahead
      rw [List.getD_eq_getElem _ _ within]
      exact (List.cons.inj ahead).1
    have behind : members.drop (start + 1) = rest := by
      rw [List.drop_eq_getElem_cons within] at ahead
      exact (List.cons.inj ahead).2
    rw [List.zipIdx_cons, List.foldl_cons]
    by_cases less : before id (members.getD best "") = true
    · simp only [less, if_true]
      refine ih (start + 1) start behind within fun j earlier => ?_
      rw [before_iff, ← here] at less
      rcases Nat.lt_succ_iff_lt_or_eq.mp earlier with old | rfl
      · exact le_trans less.le (least j old)
      · exact le_rfl
    · simp only [less]
      refine ih (start + 1) best behind inside fun j earlier => ?_
      rw [before_iff, ← here, not_lt] at less
      rcases Nat.lt_succ_iff_lt_or_eq.mp earlier with old | rfl
      · exact least j old
      · exact less

theorem leastIndex_spec {members : List String} (nonempty : 0 < members.length) :
    leastIndex members < members.length ∧
      ∀ j < members.length,
        unitKey (members.getD (leastIndex members) "") ≤ unitKey (members.getD j "") :=
  leastIndex_fold members members 0 0 (List.drop_zero) nonempty
    (fun _ earlier => absurd earlier (Nat.not_lt_zero _))

theorem length_fromLeast (members : List String) :
    (fromLeast members).length = members.length := List.length_rotate _ _

/-- The first node of the cycle comes before no other. -/
theorem exists_head_fromLeast {members : List String} (nonempty : 0 < members.length) :
    ∃ head ∈ members, (fromLeast members)[0]? = some head ∧
      ∀ id ∈ members, unitKey head ≤ unitKey id := by
  obtain ⟨inside, least⟩ := leastIndex_spec nonempty
  refine ⟨members[leastIndex members], List.getElem_mem _, ?_, fun id mem => ?_⟩
  · rw [fromLeast, List.getElem?_rotate nonempty, Nat.zero_add, Nat.mod_eq_of_lt inside,
      List.getElem?_eq_getElem inside]
  · obtain ⟨j, within, rfl⟩ := List.mem_iff_getElem.mp mem
    have below := least j within
    rw [List.getD_eq_getElem _ _ inside, List.getD_eq_getElem _ _ within] at below
    exact below

theorem cycleEvidence_todoIds (members : List String) :
    (cycleEvidence members).todoIds = (fromLeast members).take 8 := by
  refine List.ext_getElem ?_ fun index left right => ?_
  · simp only [cycleEvidence, List.length_map, List.length_range, List.length_take,
      length_fromLeast]
  · rw [List.length_take, length_fromLeast] at right
    have positive : 0 < members.length := by omega
    simp only [cycleEvidence, List.getElem_map, List.getElem_range, List.getElem_take,
      fromLeast, List.getElem_rotate]
    rw [List.getD_eq_getElem _ _ (Nat.mod_lt _ positive)]
    simp only [Nat.add_comm]

@[simp] theorem cycleEvidence_size (members : List String) :
    (cycleEvidence members).size = members.length := rfl

section
variable {next : String → Option String} {members other : List String}

theorem fromLeast_isCycle (h : IsCycle next members) : IsCycle next (fromLeast members) :=
  h.rotate _

/-- The evidence does not depend on where the walk entered the cycle. -/
theorem fromLeast_eq (h : IsCycle next members) (h' : IsCycle next other)
    (rotated : members ~r other) : fromLeast members = fromLeast other := by
  refine (fromLeast_isCycle h).eq_of_head (fromLeast_isCycle h') ?_
  obtain ⟨head, mem, here, least⟩ := exists_head_fromLeast h.nonempty
  obtain ⟨head', mem', here', least'⟩ := exists_head_fromLeast h'.nonempty
  have same : head = head' := unitKey_injective
    (le_antisymm (least head' (rotated.mem_iff.mpr mem'))
      (least' head (rotated.mem_iff.mp mem)))
  rw [here, here', same]

theorem cycleEvidence_eq (h : IsCycle next members) (h' : IsCycle next other)
    (rotated : members ~r other) : cycleEvidence members = cycleEvidence other := by
  have ids := cycleEvidence_todoIds members
  rw [fromLeast_eq h h' rotated, ← cycleEvidence_todoIds other] at ids
  have size : (cycleEvidence members).size = (cycleEvidence other).size :=
    rotated.perm.length_eq
  cases left : cycleEvidence members
  cases right : cycleEvidence other
  rw [left, right] at ids size
  exact congrArg₂ _ ids size

end

/-! ## The walks -/

section
variable {edges : List (String × String)} {resolved : Resolved}

/-- What a Todo waits for. -/
def dependency (edges : List (String × String)) (id : String) : Option String := edges.lookup id

/-- A path of dependencies, none twice, and the Todo that its last one depends on. -/
structure Walked (edges : List (String × String)) (path : List String)
    (current : Option String) : Prop where
  chain : path.IsChain (Step (dependency edges))
  nodup : path.Nodup
  last : ∀ id ∈ path.getLast?, dependency edges id = current

theorem Walked.step {path : List String} {current : String}
    (walked : Walked edges path (some current)) (fresh : current ∉ path) :
    Walked edges (path ++ [current]) (edges.lookup current) where
  chain := by
    refine List.isChain_append.mpr ⟨walked.chain, .singleton _, fun id last next here => ?_⟩
    obtain rfl : current = next := by simpa using here
    exact walked.last id last
  nodup := List.nodup_append.mpr ⟨walked.nodup, List.nodup_singleton _, fun id mem next here => by
    rw [List.mem_singleton.mp here]
    rintro rfl
    exact fresh mem⟩
  last id last := by
    rw [List.getLast?_concat] at last
    rw [Option.some.inj last]
    rfl

/-- A walk stops at the end of a chain, at a decided Todo or on its own path. -/
theorem walk_spec (path : List String) (current : Option String)
    (walked : Walked edges path current) :
    let stop := walk edges resolved path current
    Walked edges stop.1 stop.2 ∧ path ⊆ stop.1 ∧
      ∀ id, stop.2 = some id → (resolved.lookup id).isSome ∨ id ∈ stop.1 := by
  induction path, current using walk.induct edges resolved with
  | case1 path =>
    rw [walk]
    exact ⟨walked, List.Subset.refl _, fun id here => by cases here⟩
  | case2 path current stops =>
    rw [walk, if_pos stops]
    refine ⟨walked, List.Subset.refl _, fun id here => ?_⟩
    obtain rfl : current = id := Option.some.inj here
    exact stops
  | case3 path current continues ih =>
    rw [walk, if_neg continues]
    obtain ⟨whole, extends_, stopped⟩ := ih (walked.step fun visited => continues (.inr visited))
    exact ⟨whole, fun id mem => extends_ (List.mem_append_left _ mem), stopped⟩

theorem start_mem_walk {start : String} (undecided : (resolved.lookup start).isSome = false) :
    start ∈ (walk edges resolved [] (some start)).1 := by
  have continues : ¬((resolved.lookup start).isSome ∨ start ∈ ([] : List String)) := by
    simp [undecided]
  have walked : Walked edges [] (some start) :=
    ⟨.nil, List.nodup_nil, fun id last => by cases last⟩
  rw [walk, if_neg continues]
  exact (walk_spec _ _ (walked.step (by simp))).2.1 (by simp)

/-! ## What is decided -/

/-- The decision is about the cycle that a Todo leads to, if there is one. -/
def Decides (edges : List (String × String)) (id : String) :
    Option CompletionDependencyCycle → Prop
  | none => ∀ members, IsCycle (dependency edges) members → ¬LeadsTo (dependency edges) id members
  | some cycle => ∃ members, IsCycle (dependency edges) members ∧
      LeadsTo (dependency edges) id members ∧ cycle = cycleEvidence members

def Sound (edges : List (String × String)) (resolved : Resolved) : Prop :=
  ∀ id decision, resolved.lookup id = some decision → Decides edges id decision

theorem Decides.of_reaches {id target : String} {decision : Option CompletionDependencyCycle}
    (reaches : ReflTransGen (Step (dependency edges)) id target)
    (decides : Decides edges target decision) : Decides edges id decision := by
  cases decision with
  | none => exact fun members h leads => decides members h ((h.leadsTo_reaches reaches).mp leads)
  | some cycle =>
    obtain ⟨members, h, leads, evidence⟩ := decides
    exact ⟨members, h, (h.leadsTo_reaches reaches).mpr leads, evidence⟩

/-- Every Todo of a path reaches the last one. -/
private theorem Walked.reaches_last {path : List String} {current : Option String}
    (walked : Walked edges path current) {id : String} (mem : id ∈ path) :
    ∃ last ∈ path.getLast?, ReflTransGen (Step (dependency edges)) id last := by
  have nonempty : path ≠ [] := List.ne_nil_of_mem mem
  refine ⟨path.getLast nonempty, List.getLast?_eq_some_getLast nonempty, ?_⟩
  exact List.IsChain.backwards_induction (fun id => ReflTransGen (Step (dependency edges)) id
    (path.getLast nonempty)) path walked.chain (fun _ _ step reaches => .head step reaches)
    (fun _ => .refl) id mem

theorem Walked.decides {path : List String} {current : Option String}
    (sound : Sound edges resolved) (walked : Walked edges path current)
    (stopped : ∀ id, current = some id → (resolved.lookup id).isSome ∨ id ∈ path)
    {id : String} (mem : id ∈ path) : Decides edges id (cycleAt resolved path current) := by
  obtain ⟨last, isLast, reaches⟩ := walked.reaches_last mem
  have next := walked.last last isLast
  refine Decides.of_reaches reaches ?_
  cases current with
  | none => exact fun members h => h.not_leadsTo_of_none next
  | some current =>
    refine Decides.of_reaches (.single next) ?_
    rw [cycleAt]
    split
    · next visited =>
      -- the path has come back to one of its own Todos
      have inside := List.idxOf_lt_length_of_mem visited
      have back : dependency edges last = path[path.idxOf current]? := by
        rw [List.getElem?_eq_getElem inside, List.getElem_idxOf]
        exact next
      refine ⟨_, isCycle_drop walked.chain walked.nodup inside isLast back, ?_, rfl⟩
      refine ⟨current, ?_, .refl⟩
      rw [List.drop_eq_getElem_cons inside, List.getElem_idxOf]
      exact List.mem_cons_self
    · next fresh =>
      obtain ⟨decision, decided⟩ := Option.isSome_iff_exists.mp
        ((stopped current rfl).resolve_right fresh)
      rw [decided]
      exact sound current decision decided

private theorem lookup_foldl_setKey (path : List String) (resolved : Resolved)
    (cycle : Option CompletionDependencyCycle) (id : String) :
    (path.foldl (fun resolved id => setKey resolved id cycle) resolved).lookup id =
      if id ∈ path then some cycle else resolved.lookup id := by
  induction path generalizing resolved with
  | nil => simp
  | cons head path ih =>
    rw [List.foldl_cons, ih, lookup_setKey]
    by_cases inside : id ∈ path
    · simp [inside]
    · by_cases same : id = head <;> simp [inside, same]

theorem resolveStart_sound (sound : Sound edges resolved) (start : String) :
    Sound edges (resolveStart edges resolved start) := by
  unfold resolveStart
  split
  · exact sound
  · intro id decision decided
    rw [lookup_foldl_setKey] at decided
    obtain ⟨walked, _, stopped⟩ := @walk_spec edges resolved [] (some start)
      ⟨.nil, List.nodup_nil, fun id last => by cases last⟩
    split at decided
    · next mem =>
      rw [← Option.some.inj decided]
      exact walked.decides sound stopped mem
    · exact sound id decision decided

theorem resolveStart_keeps {start id : String}
    (decided : (resolved.lookup id).isSome ∨ id = start) :
    ((resolveStart edges resolved start).lookup id).isSome := by
  unfold resolveStart
  by_cases before : (resolved.lookup start).isSome
  · rw [if_pos before]
    rcases decided with decided | rfl
    · exact decided
    · exact before
  · rw [if_neg before, lookup_foldl_setKey]
    split
    · rfl
    · next outside =>
      rcases decided with decided | rfl
      · exact decided
      · exact absurd (start_mem_walk (Bool.eq_false_iff.mpr before)) outside

private theorem resolveStarts (starts : List String) (sound : Sound edges resolved) :
    Sound edges (starts.foldl (resolveStart edges) resolved) ∧
      ∀ id, (resolved.lookup id).isSome ∨ id ∈ starts →
        ((starts.foldl (resolveStart edges) resolved).lookup id).isSome := by
  induction starts generalizing resolved with
  | nil =>
    refine ⟨sound, fun id decided => ?_⟩
    simpa using decided
  | cons start starts ih =>
    obtain ⟨sound', keeps⟩ := ih (resolveStart_sound sound start)
    refine ⟨sound', fun id decided => keeps id ?_⟩
    rcases decided with decided | mem
    · exact .inl (resolveStart_keeps (.inl decided))
    · rcases List.mem_cons.mp mem with rfl | later
      · exact .inl (resolveStart_keeps (.inr rfl))
      · exact .inr later

theorem completionDependencyCycles_sound : Sound edges (completionDependencyCycles edges) :=
  (resolveStarts (keys edges) fun _ _ decided => by cases decided).1

theorem completionDependencyCycles_decided {id : String} (mem : id ∈ keys edges) :
    ((completionDependencyCycles edges).lookup id).isSome :=
  (resolveStarts (keys edges) fun _ _ decided => by cases decided).2 id (.inr mem)

/-! ## The cycle of a Todo -/

/-- A list that starts with its least member. -/
def StartsLeast (members : List String) : Prop :=
  ∀ head ∈ members.head?, ∀ id ∈ members, unitKey head ≤ unitKey id

/-- The cycle that the evidence gives a Todo, with the nodes that the evidence shows. -/
def Shows (edges : List (String × String)) (id : String) (cycle : CompletionDependencyCycle) :
    Prop :=
  ∃ members, IsCycle (dependency edges) members ∧ LeadsTo (dependency edges) id members ∧
    StartsLeast members ∧ cycle = ⟨members.take 8, members.length⟩

private theorem startsLeast_fromLeast {members : List String}
    (nonempty : 0 < members.length) : StartsLeast (fromLeast members) := by
  intro head isHead id mem
  obtain ⟨first, _, here, least⟩ := exists_head_fromLeast nonempty
  rw [List.head?_eq_getElem?, here] at isHead
  obtain rfl := Option.some.inj isHead
  exact least id (List.mem_rotate.mp mem)

private theorem startsLeast_unique {next : String → Option String} {members other : List String}
    (h : IsCycle next members) (h' : IsCycle next other) (rotated : members ~r other)
    (least : StartsLeast members) (least' : StartsLeast other) : members = other := by
  refine h.eq_of_head h' ?_
  have positive := h.nonempty
  have positive' := h'.nonempty
  rw [List.getElem?_eq_getElem positive, List.getElem?_eq_getElem positive']
  have first := least members[0] (by rw [List.head?_eq_getElem?]; simp [positive])
  have first' := least' other[0] (by rw [List.head?_eq_getElem?]; simp [positive'])
  rw [unitKey_injective (le_antisymm
    (first other[0] (rotated.mem_iff.mpr (List.getElem_mem _)))
    (first' members[0] (rotated.mem_iff.mp (List.getElem_mem _))))]

theorem shows_cycleEvidence {members : List String} {id : String}
    (h : IsCycle (dependency edges) members) (leads : LeadsTo (dependency edges) id members) :
    Shows edges id (cycleEvidence members) := by
  refine ⟨fromLeast members, fromLeast_isCycle h, ?_, startsLeast_fromLeast h.nonempty, ?_⟩
  · obtain ⟨m, mem, reaches⟩ := leads
    exact ⟨m, List.mem_rotate.mpr mem, reaches⟩
  · rw [length_fromLeast, ← cycleEvidence_todoIds]
    rfl

theorem Shows.unique {id : String} {cycle other : CompletionDependencyCycle}
    (left : Shows edges id cycle) (right : Shows edges id other) : cycle = other := by
  obtain ⟨members, h, leads, least, rfl⟩ := left
  obtain ⟨members', h', leads', least', rfl⟩ := right
  rw [startsLeast_unique h h' (h.isRotated_of_leadsTo h' leads leads') least least']

/-- What is decided about a Todo is the cycle it leads to. -/
theorem completionDependencyCycles_iff {id : String} {cycle : CompletionDependencyCycle} :
    ((completionDependencyCycles edges).lookup id).join = some cycle ↔ Shows edges id cycle := by
  constructor
  · intro decided
    have found := Option.join_eq_some_iff.mp decided
    obtain ⟨members, h, leads, rfl⟩ := completionDependencyCycles_sound id _ found
    exact shows_cycleEvidence h leads
  · intro shown
    obtain ⟨members, h, leads, least, evidence⟩ := shown
    have isKey : id ∈ keys edges := by
      refine lookup_isSome.mp (Option.isSome_iff_ne_none.mpr fun dangling => ?_)
      exact h.not_leadsTo_of_none dangling leads
    obtain ⟨decision, found⟩ :=
      Option.isSome_iff_exists.mp (completionDependencyCycles_decided isKey)
    have sound := completionDependencyCycles_sound id _ found
    cases decision with
    | none => exact absurd leads (sound members h)
    | some decided =>
      obtain ⟨members', h', leads', rfl⟩ := sound
      rw [found, (shows_cycleEvidence h' leads').unique ⟨members, h, leads, least, evidence⟩]
      rfl

/-- The evidence of a long cycle leaves out a node. -/
theorem cycleEvidence_omits {next : String → Option String} {members other : List String}
    (h : IsCycle next members) (long : 8 < members.length) :
    ∃ id ∈ members, id ∉ (cycleEvidence other).todoIds := by
  by_contra all
  push Not at all
  have within := (List.subperm_of_subset h.nodup all).length_le
  rw [cycleEvidence_todoIds, List.length_take] at within
  omega

end

/-- Nine Todos, each waiting for the next and the last for the first. -/
def nineTodos : List String :=
  ["todo_step1", "todo_step2", "todo_step3", "todo_step4", "todo_step5", "todo_step6",
    "todo_step7", "todo_step8", "todo_step9"]

def nineWaits : List (String × String) := nineTodos.zip (nineTodos.rotate 1)

theorem isCycle_nineTodos : IsCycle (dependency nineWaits) nineTodos where
  nonempty := by decide
  nodup := by decide
  steps i inside := by
    have each : ∀ i : Fin 9, dependency nineWaits (nineTodos.get i) =
        nineTodos[(i.val + 1) % 9]? := by decide
    exact each ⟨i, inside⟩

end Loopx.Todos
