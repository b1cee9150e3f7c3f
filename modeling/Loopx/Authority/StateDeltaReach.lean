/- GID: Loopx/Authority/StateDeltaReach
   generality: I
   source: loopx/control_plane/coordination/authority_state_log.ts
   digest: A delta reaches exactly the places where its two projections differ, each once. -/

import Loopx.Authority.StateLogRoundTrip

set_option autoImplicit false
set_option relaxedAutoImplicit false

namespace Loopx.Authority

open Loopx.Lib.KeyedList
open Loopx.Json (Canonical)

/-- The value at a path of keys. -/
def valueAt : Json → AuthorityStatePath → Option Json
  | value, [] => some value
  | .object fields, key :: rest =>
    match fields.lookup key with
    | some child => valueAt child rest
    | none => none
  | _, _ :: _ => none

/-- Some operation stands at the path or below it. -/
def Reaches (operations : List AuthorityStateOperation) (path : AuthorityStatePath) : Prop :=
  ∃ operation ∈ operations, path <+: operation.path

/-- Neither operation stands at or below the place of the other. -/
def PlacesApart (first second : AuthorityStateOperation) : Prop :=
  ¬first.path <+: second.path ∧ ¬second.path <+: first.path

theorem diffAuthorityState_self (value : Json) (path : AuthorityStatePath) :
    diffAuthorityState value value path = [] := by
  have same : canonicalBytesEqual value value = true := decide_eq_true rfl
  cases value <;> simp only [diffAuthorityState, same, if_true]

/-- Canonical values without a difference are equal. -/
theorem diffAuthorityState_eq_nil {previous next : Json} (hp : Canonical previous)
    (hn : Canonical next) : diffAuthorityState previous next [] = [] ↔ previous = next := by
  constructor
  · intro none
    have rebuilt := applyHereAll_diffAuthorityState previous next hp hn
    rw [none] at rebuilt
    exact Except.ok.inj rebuilt
  · rintro rfl
    exact diffAuthorityState_self previous []

/-- The operations for one key stand at that key or below it. -/
theorem path_of_mem_diffKey {previous next : List (String × Json)} {key : String}
    {operation : AuthorityStateOperation} (mem : operation ∈ diffKey previous next [] key) :
    ∃ rest, operation.path = key :: rest := by
  unfold diffKey at mem
  cases hn : next.lookup key with
  | none =>
    obtain rfl : operation = .remove [key] := by simpa [hn] using mem
    exact ⟨[], rfl⟩
  | some value =>
    cases hp : previous.lookup key with
    | none =>
      obtain rfl : operation = .set [key] value := by simpa [hn, hp] using mem
      exact ⟨[], rfl⟩
    | some child =>
      simp only [hn, hp, List.nil_append] at mem
      rw [diffAuthorityState_under, List.mem_map] at mem
      obtain ⟨below, -, rfl⟩ := mem
      exact ⟨below.path, AuthorityStateOperation.path_under [key] below⟩

/-- The operations of two objects are those of their keys. -/
theorem mem_diffAuthorityState_object {previous next : List (String × Json)}
    (hp : Canonical (.object previous)) (hn : Canonical (.object next))
    {operation : AuthorityStateOperation} :
    operation ∈ diffAuthorityState (.object previous) (.object next) [] ↔
      ∃ key, (key ∈ keys previous ∨ key ∈ keys next) ∧
        operation ∈ diffKey previous next [] key := by
  rw [diffAuthorityState_object]
  by_cases equal : canonicalBytesEqual (.object previous) (.object next) = true
  · obtain rfl : previous = next := Json.object.inj ((canonicalBytesEqual_iff hp hn).1 equal)
    rw [if_pos equal]
    constructor
    · intro mem
      cases mem
    · rintro ⟨key, inside, mem⟩
      obtain ⟨child, found⟩ := Option.isSome_iff_exists.1 (lookup_isSome.2 (or_self_iff.1 inside))
      simp only [diffKey, found] at mem
      rw [diffAuthorityState_self] at mem
      cases mem
  · rw [if_neg equal, List.mem_flatMap]
    simp only [mem_unionKeys]

/-- At one key the delta of two objects reaches what the operations for the key reach. -/
theorem reaches_key {previous next : List (String × Json)} (hp : Canonical (.object previous))
    (hn : Canonical (.object next)) {key : String} (inside : key ∈ keys previous ∨ key ∈ keys next)
    (rest : AuthorityStatePath) :
    Reaches (diffAuthorityState (.object previous) (.object next) []) (key :: rest) ↔
      Reaches (diffKey previous next [] key) (key :: rest) := by
  constructor
  · rintro ⟨operation, mem, below⟩
    obtain ⟨other, -, mem⟩ := (mem_diffAuthorityState_object hp hn).1 mem
    obtain ⟨rest', path⟩ := path_of_mem_diffKey mem
    rw [path] at below
    obtain rfl : key = other := (List.cons_prefix_cons.1 below).1
    exact ⟨operation, mem, by rwa [path]⟩
  · rintro ⟨operation, mem, below⟩
    exact ⟨operation, (mem_diffAuthorityState_object hp hn).2 ⟨key, inside, mem⟩, below⟩

/-- A key is reached exactly where its two values differ. -/
private theorem reaches_singleton {previous next : List (String × Json)}
    (hp : Canonical (.object previous)) (hn : Canonical (.object next)) (key : String) :
    Reaches (diffAuthorityState (.object previous) (.object next) []) [key] ↔
      previous.lookup key ≠ next.lookup key := by
  have absent : ¬(key ∈ keys previous ∨ key ∈ keys next) →
      previous.lookup key = none ∧ next.lookup key = none := fun outside =>
    ⟨lookup_eq_none.2 fun mem => outside (.inl mem), lookup_eq_none.2 fun mem =>
      outside (.inr mem)⟩
  by_cases inside : key ∈ keys previous ∨ key ∈ keys next
  · rw [reaches_key hp hn inside]
    have some_of : Reaches (diffKey previous next [] key) [key] ↔
        diffKey previous next [] key ≠ [] := by
      constructor
      · rintro ⟨operation, mem, -⟩
        exact List.ne_nil_of_mem mem
      · intro nonempty
        obtain ⟨operation, rest, eq⟩ := List.exists_cons_of_ne_nil nonempty
        have mem : operation ∈ diffKey previous next [] key := by simp [eq]
        obtain ⟨tail, path⟩ := path_of_mem_diffKey mem
        exact ⟨operation, mem, by simp [path]⟩
    rw [some_of]
    unfold diffKey
    cases found' : next.lookup key with
    | none =>
      have stored : previous.lookup key ≠ none := fun none =>
        inside.elim (lookup_eq_none.1 none) (lookup_eq_none.1 found')
      simpa using stored
    | some value =>
      cases found : previous.lookup key with
      | none => simp
      | some child =>
        have same := diffAuthorityState_eq_nil (hp.lookup found) (hn.lookup found')
        simp only [List.nil_append]
        rw [diffAuthorityState_under, ne_eq, List.map_eq_nil_iff, same, ne_eq, Option.some.injEq]
  · obtain ⟨nowhere, nowhere'⟩ := absent inside
    constructor
    · rintro ⟨operation, mem, below⟩
      obtain ⟨other, inside', mem⟩ := (mem_diffAuthorityState_object hp hn).1 mem
      obtain ⟨rest, path⟩ := path_of_mem_diffKey mem
      rw [path] at below
      obtain rfl : key = other := (List.cons_prefix_cons.1 below).1
      exact absurd inside' inside
    · intro differ
      exact absurd (nowhere.trans nowhere'.symm) differ

/-- Below a key of both objects the delta reaches what the delta of the two values reaches. -/
private theorem reaches_below {previous next : List (String × Json)}
    (hp : Canonical (.object previous)) (hn : Canonical (.object next)) {key : String}
    {child value : Json} (found : previous.lookup key = some child)
    (found' : next.lookup key = some value) (rest : AuthorityStatePath) :
    Reaches (diffAuthorityState (.object previous) (.object next) []) (key :: rest) ↔
      Reaches (diffAuthorityState child value []) rest := by
  have inside : key ∈ keys previous := lookup_isSome.1 (by rw [found]; rfl)
  rw [reaches_key hp hn (.inl inside)]
  have here : diffKey previous next [] key =
      (diffAuthorityState child value []).map (AuthorityStateOperation.under [key]) := by
    unfold diffKey
    rw [found, found', ← diffAuthorityState_under]
    rfl
  rw [here]
  constructor
  · rintro ⟨operation, mem, below⟩
    obtain ⟨moved, mem', rfl⟩ := List.mem_map.1 mem
    rw [AuthorityStateOperation.path_under] at below
    exact ⟨moved, mem', (List.cons_prefix_cons.1 below).2⟩
  · rintro ⟨operation, mem, below⟩
    refine ⟨operation.under [key], List.mem_map_of_mem mem, ?_⟩
    rw [AuthorityStateOperation.path_under]
    exact List.cons_prefix_cons.2 ⟨rfl, below⟩

/-- Within two objects at one path, a key is reached exactly where its values differ. -/
theorem reaches_iff_differ {path : AuthorityStatePath} {previous next : Json}
    (hp : Canonical previous) (hn : Canonical next) {fields fields' : List (String × Json)}
    (at_ : valueAt previous path = some (.object fields))
    (at' : valueAt next path = some (.object fields')) (key : String) :
    Reaches (diffAuthorityState previous next []) (path ++ [key]) ↔
      fields.lookup key ≠ fields'.lookup key := by
  induction path generalizing previous next with
  | nil =>
    obtain rfl : previous = .object fields := by simpa [valueAt] using at_
    obtain rfl : next = .object fields' := by simpa [valueAt] using at'
    exact reaches_singleton hp hn key
  | cons k path ih =>
    cases previous with
    | object entries =>
      cases next with
      | object entries' =>
        unfold valueAt at at_ at'
        cases found : entries.lookup k with
        | none => simp [found] at at_
        | some child =>
          cases found' : entries'.lookup k with
          | none => simp [found'] at at'
          | some value =>
            simp only [found] at at_
            simp only [found'] at at'
            rw [List.cons_append, reaches_below hp hn found found']
            exact ih (hp.lookup found) (hn.lookup found') at_ at'
      | _ => simp [valueAt] at at'
    | _ => simp [valueAt] at at_

private theorem placesApart_under (key : String) {first second : AuthorityStateOperation}
    (apart : PlacesApart first second) : PlacesApart (first.under [key]) (second.under [key]) := by
  unfold PlacesApart
  rw [AuthorityStateOperation.path_under, AuthorityStateOperation.path_under]
  exact ⟨fun below => apart.1 (List.cons_prefix_cons.1 below).2,
    fun below => apart.2 (List.cons_prefix_cons.1 below).2⟩

/-- No place is named by two operations of a delta, nor a place below it. -/
theorem pairwise_placesApart (previous next : Json) :
    (diffAuthorityState previous next []).Pairwise PlacesApart := by
  induction previous generalizing next with
  | object previous ih =>
    cases next with
    | object next =>
      rw [diffAuthorityState_object]
      split
      · exact List.Pairwise.nil
      · refine List.pairwise_flatMap.2 ⟨fun key _ => ?_, ?_⟩
        · unfold diffKey
          cases found' : next.lookup key with
          | none => exact List.pairwise_singleton _ _
          | some value =>
            cases found : previous.lookup key with
            | none => exact List.pairwise_singleton _ _
            | some child =>
              simp only [List.nil_append]
              rw [diffAuthorityState_under]
              exact (ih (key, child) (mem_of_lookup found) value).map _ fun _ _ apart =>
                placesApart_under key apart
        · refine (nodup_unionKeys _ _).imp ?_
          intro key other different first mem second mem'
          obtain ⟨rest, path⟩ := path_of_mem_diffKey mem
          obtain ⟨rest', path'⟩ := path_of_mem_diffKey mem'
          unfold PlacesApart
          rw [path, path']
          exact ⟨fun below => different (List.cons_prefix_cons.1 below).1,
            fun below => different (List.cons_prefix_cons.1 below).1.symm⟩
    | _ =>
      unfold diffAuthorityState
      split
      · exact List.Pairwise.nil
      · exact List.pairwise_singleton _ _
  | array previous ih =>
    unfold diffAuthorityState
    split
    · exact List.Pairwise.nil
    · cases next with
      | array next =>
        simp only [arraySpliceOperations]
        split
        · exact List.Pairwise.nil
        · exact List.pairwise_singleton _ _
      | _ => exact List.pairwise_singleton _ _
  | _ =>
    unfold diffAuthorityState
    split
    · exact List.Pairwise.nil
    · exact List.pairwise_singleton _ _

/-- Two projections that differ at one key. -/
def openProjection : Projection :=
  ⟨.object [("todos", .object [])], rfl, by simp [Json.canonical_object], by simp⟩

def filledProjection : Projection :=
  ⟨.object [("todos", .object [("a", .null)])], rfl, by simp [Json.canonical_object], by
    simp [Json.Fits, Json.FitsFields]⟩

/-- The delta of two projections is empty only where they are equal; its operations stand at
places apart from one another; and within objects that both projections hold at one path, it
reaches exactly the keys whose values differ. -/
theorem authorityStateDelta_exact (previous next : Projection) :
    ((authorityStateDelta previous.value next.value).operations = [] ↔
        previous.value = next.value) ∧
      (authorityStateDelta previous.value next.value).operations.Pairwise PlacesApart ∧
      ∀ path fields fields' key, valueAt previous.value path = some (.object fields) →
        valueAt next.value path = some (.object fields') →
        (Reaches (authorityStateDelta previous.value next.value).operations (path ++ [key]) ↔
          fields.lookup key ≠ fields'.lookup key) := by
  refine ⟨?_, pairwise_placesApart previous.value next.value, ?_⟩
  · exact diffAuthorityState_eq_nil previous.canonical next.canonical
  · intro path fields fields' key at_ at'
    exact reaches_iff_differ previous.canonical next.canonical at_ at' key

theorem authorityStateDelta_exact_key :
    Reaches (authorityStateDelta openProjection.value filledProjection.value).operations
      ["todos", "a"] :=
  ((authorityStateDelta_exact openProjection filledProjection).2.2 ["todos"] [] [("a", .null)] "a"
    rfl rfl).2 (by decide)

end Loopx.Authority
