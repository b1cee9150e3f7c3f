/- GID: Loopx/Authority/StateLogRoundTrip
   generality: I
   source: loopx/control_plane/coordination/authority_state_log.ts
   digest: A delta between canonical projections decodes unchanged and rebuilds its target. -/

import Loopx.Authority.StateLog

set_option autoImplicit false
set_option relaxedAutoImplicit false

namespace Loopx.Authority

open Loopx.Lib.KeyedList
open Loopx.Json (JsNumber Protocol OwnKeyLt canonicalAuthorityJson canonicalAuthorityBytes
  canonicalEntries sortKeys Canonical canonical_object canonical_object_ext canonical_array
  pairwise_canonicalEntries lookup_canonicalEntries canonicalEntries_of_pairwise
  mem_of_mem_canonicalEntries canonicalAuthorityBytes_canonical)

/-- One authority projection: a canonical object within the runtime's array limit. -/
structure Projection where
  value : Json
  isObject : Json.isAuthorityJsonObject value = true
  canonical : Canonical value
  fits : value.Fits

theorem Projection.canonicalObject (p : Projection) : CanonicalObject p.value :=
  ⟨p.isObject, p.canonical⟩

theorem Projection.exists_fields (p : Projection) : ∃ fields, p.value = .object fields := by
  have h := p.isObject
  cases hv : p.value <;> simp_all [Json.isAuthorityJsonObject]

theorem canonicalBytesEqual_iff {v w : Json} (hv : Canonical v) (hw : Canonical w) :
    canonicalBytesEqual v w = true ↔ v = w := by
  rw [canonicalBytesEqual, decide_eq_true_iff, canonicalAuthorityBytes_canonical hv hw]

/-- Apply one operation at a path that may also name the value itself. -/
def applyHere (operation : AuthorityStateOperation) (value : Json) :
    AuthorityStatePath → Protocol Json
  | [] =>
    match operation, value with
    | .set _ replacement, _ => .ok replacement
    | .splice _ index removed inserted, .array target =>
      if index + removed > target.length then .error "authority state delta splice is out of range"
      else .ok (.array (target.take index ++ (inserted ++ target.drop (index + removed))))
    | _, _ => .error "authority state delta path leaves the previous state"
  | path => applyAuthorityStateOperation operation value path

def applyHereAll : List AuthorityStateOperation → Json → Protocol Json
  | [], value => .ok value
  | operation :: rest, value =>
    match applyHere operation value operation.path with
    | .ok value => applyHereAll rest value
    | .error message => .error message

theorem applyHereAll_append {first second : List AuthorityStateOperation} {u v : Json}
    (h : applyHereAll first u = .ok v) :
    applyHereAll (first ++ second) u = applyHereAll second v := by
  induction first generalizing u with
  | nil =>
    obtain rfl : u = v := by simpa [applyHereAll] using h
    rfl
  | cons operation first ih =>
    simp only [List.cons_append, applyHereAll] at h ⊢
    cases hop : applyHere operation u operation.path with
    | error message => simp [hop] at h
    | ok w =>
      simp only [hop] at h ⊢
      exact ih h

/-- Move an operation below a path. -/
def AuthorityStateOperation.under (ahead : AuthorityStatePath) :
    AuthorityStateOperation → AuthorityStateOperation
  | .set path value => .set (ahead ++ path) value
  | .remove path => .remove (ahead ++ path)
  | .splice path index removed inserted => .splice (ahead ++ path) index removed inserted

@[simp] theorem AuthorityStateOperation.path_under (ahead : AuthorityStatePath)
    (operation : AuthorityStateOperation) :
    (operation.under ahead).path = ahead ++ operation.path := by
  cases operation <;> rfl

private theorem applyAuthorityStateOperation_under (ahead : AuthorityStatePath)
    (operation : AuthorityStateOperation) (value : Json) (path : AuthorityStatePath) :
    applyAuthorityStateOperation (operation.under ahead) value path =
      applyAuthorityStateOperation operation value path := by
  induction path generalizing value with
  | nil => cases value <;> simp [applyAuthorityStateOperation]
  | cons key rest ih =>
    cases value with
    | object fields =>
      cases rest with
      | nil => cases operation <;> rfl
      | cons next rest => simp only [applyAuthorityStateOperation, ih]
    | _ => simp [applyAuthorityStateOperation]

private theorem sorted_of_canonical {fields : List (String × Json)}
    (h : Canonical (.object fields)) : (keys fields).Pairwise OwnKeyLt :=
  ((canonical_object fields).mp h).1

theorem canonical_setKey {fields : List (String × Json)} (h : Canonical (.object fields))
    (key : String) {value : Json} (hv : Canonical value) :
    Canonical (.object (canonicalEntries (setKey fields key value))) := by
  rw [canonical_object]
  refine ⟨pairwise_canonicalEntries _, ?_⟩
  intro f hf
  have nodup := nodup_keys_setKey h.nodup key value
  have hl := lookup_of_mem nodup (k := f.1) (v := f.2) (mem_of_mem_canonicalEntries hf)
  rw [lookup_setKey] at hl
  split at hl
  · exact Option.some.inj hl ▸ hv
  · exact h.lookup hl

theorem canonical_eraseKey {fields : List (String × Json)} (h : Canonical (.object fields))
    (key : String) : Canonical (.object (canonicalEntries (eraseKey fields key))) := by
  rw [canonical_object]
  refine ⟨pairwise_canonicalEntries _, ?_⟩
  intro f hf
  have hf := List.mem_of_mem_filter (mem_of_mem_canonicalEntries hf)
  exact ((canonical_object fields).mp h).2 f hf

theorem lookup_canonical_setKey {fields : List (String × Json)} (h : Canonical (.object fields))
    (key k : String) (value : Json) :
    (canonicalEntries (setKey fields key value)).lookup k =
      if k = key then some value else fields.lookup k := by
  rw [lookup_canonicalEntries (nodup_keys_setKey h.nodup key value), lookup_setKey]

theorem lookup_canonical_eraseKey {fields : List (String × Json)}
    (h : Canonical (.object fields)) (key k : String) :
    (canonicalEntries (eraseKey fields key)).lookup k =
      if k = key then none else fields.lookup k := by
  rw [lookup_canonicalEntries (nodup_keys_eraseKey h.nodup key), lookup_eraseKey]

/-- A step below one key only replaces the value at that key. -/
private theorem applyHere_under {operation : AuthorityStateOperation}
    {fields : List (String × Json)} {key : String} {child child' : Json}
    (present : fields.lookup key = some child)
    (h : applyHere operation child operation.path = .ok child') :
    applyHere (operation.under [key]) (.object fields) (operation.under [key]).path =
      .ok (.object (canonicalEntries (setKey fields key child'))) := by
  rw [AuthorityStateOperation.path_under, List.singleton_append]
  rw [applyHere, applyAuthorityStateOperation_under]
  · cases hp : operation.path with
    | nil =>
      rw [hp] at h
      cases operation with
      | set path value =>
        obtain rfl : value = child' := by simpa [applyHere] using h
        simp [applyAuthorityStateOperation]
      | remove path => cases child <;> simp [applyHere] at h
      | splice path index removed inserted =>
        cases child with
        | array target =>
          simp only [applyHere] at h
          split at h
          · simp at h
          · rename_i hrange
            obtain rfl := Except.ok.inj h
            simp [applyAuthorityStateOperation, present, hrange]
        | _ => simp [applyHere] at h
    | cons next rest =>
      rw [hp, applyHere] at h
      · simp only [applyAuthorityStateOperation, present, h]
        rfl
      · simp
  · simp

/-- A run below one key only replaces the value at that key. -/
private theorem applyHereAll_under {operations : List AuthorityStateOperation}
    {fields : List (String × Json)} {key : String} {child child' : Json}
    (canonical : Canonical (.object fields)) (present : fields.lookup key = some child)
    (h : applyHereAll operations child = .ok child') :
    applyHereAll (operations.map (AuthorityStateOperation.under [key])) (.object fields) =
      .ok (.object (canonicalEntries (setKey fields key child'))) := by
  suffices general : ∀ (entries : List (String × Json)), (keys entries).Pairwise OwnKeyLt →
      (∀ k, k ≠ key → entries.lookup k = fields.lookup k) → entries.lookup key = some child →
      applyHereAll (operations.map (AuthorityStateOperation.under [key])) (.object entries) =
        .ok (.object (canonicalEntries (setKey fields key child'))) from
    general fields (sorted_of_canonical canonical) (fun _ _ => rfl) present
  clear present
  induction operations generalizing child with
  | nil =>
    intro entries sorted frame present
    obtain rfl : child = child' := by simpa [applyHereAll] using h
    simp only [List.map_nil, applyHereAll]
    congr 2
    refine eq_of_pairwise_lookup sorted (pairwise_canonicalEntries _) ?_
    intro k
    rw [lookup_canonical_setKey canonical]
    split
    · rename_i hk
      rw [hk, present]
    · rename_i hk
      exact frame k hk
  | cons operation operations ih =>
    intro entries sorted frame present
    simp only [applyHereAll] at h
    cases hop : applyHere operation child operation.path with
    | error message => simp [hop] at h
    | ok middle =>
      simp only [hop] at h
      rw [List.map_cons, applyHereAll, applyHere_under present hop]
      have nodup := nodup_keys_setKey (nodup_keys_of_pairwise sorted) key middle
      refine ih h _ (pairwise_canonicalEntries _) ?_ ?_
      · intro k hk
        rw [lookup_canonicalEntries nodup, lookup_setKey, if_neg hk, frame k hk]
      · rw [lookup_canonicalEntries nodup, lookup_setKey, if_pos rfl]

private theorem lookup_diffFields (fields : List (String × Json)) (key : String) :
    (diffFields fields).lookup key = (fields.lookup key).map diffAuthorityState := by
  induction fields with
  | nil => simp [diffFields]
  | cons f fields ih =>
    rcases f with ⟨k, v⟩
    rw [diffFields, lookup_cons_ite, lookup_cons_ite, ih]
    split <;> rfl

/-- The operations the differ emits for one key of two objects. -/
def diffKey (previous next : List (String × Json)) (path : AuthorityStatePath) (key : String) :
    List AuthorityStateOperation :=
  match next.lookup key, previous.lookup key with
  | none, _ => [.remove (path ++ [key])]
  | some value, none => [.set (path ++ [key]) value]
  | some value, some child => diffAuthorityState child value (path ++ [key])

theorem diffAuthorityState_object (previous next : List (String × Json))
    (path : AuthorityStatePath) :
    diffAuthorityState (.object previous) (.object next) path =
      if canonicalBytesEqual (.object previous) (.object next) then []
      else (unionKeys (keys previous) (keys next)).flatMap (diffKey previous next path) := by
  rw [diffAuthorityState]
  congr 1
  simp only
  congr 1
  funext key
  rw [lookup_diffFields, diffKey]
  cases next.lookup key <;> cases previous.lookup key <;> rfl

private theorem arraySpliceOperations_under (previous next : List Json)
    (path : AuthorityStatePath) :
    arraySpliceOperations previous next path =
      (arraySpliceOperations previous next []).map (AuthorityStateOperation.under path) := by
  simp only [arraySpliceOperations]
  split <;> simp [AuthorityStateOperation.under]

private theorem under_append (a b : AuthorityStatePath) (operation : AuthorityStateOperation) :
    operation.under (a ++ b) = (operation.under b).under a := by
  cases operation <;> simp [AuthorityStateOperation.under]

/-- The path only prefixes the operations. -/
theorem diffAuthorityState_under (previous next : Json) (path : AuthorityStatePath) :
    diffAuthorityState previous next path =
      (diffAuthorityState previous next []).map (AuthorityStateOperation.under path) := by
  have scalar : ∀ (previous next : Json),
      (if canonicalBytesEqual previous next then [] else [AuthorityStateOperation.set path next]) =
        (if canonicalBytesEqual previous next then [] else
          [AuthorityStateOperation.set [] next]).map (AuthorityStateOperation.under path) := by
    intro previous next
    split <;> simp [AuthorityStateOperation.under]
  induction previous generalizing next path with
  | null => simpa only [diffAuthorityState] using scalar .null next
  | bool b => simpa only [diffAuthorityState] using scalar (.bool b) next
  | number n => simpa only [diffAuthorityState] using scalar (.number n) next
  | string s => simpa only [diffAuthorityState] using scalar (.string s) next
  | array previous ih =>
    cases next with
    | array next =>
      simp only [diffAuthorityState]
      split
      · rfl
      · exact arraySpliceOperations_under previous next path
    | _ => simpa only [diffAuthorityState] using scalar (.array previous) _
  | object previous ih =>
    cases next with
    | object next =>
      rw [diffAuthorityState_object, diffAuthorityState_object]
      split
      · rfl
      rw [List.map_flatMap]
      congr 1
      funext key
      simp only [diffKey, List.nil_append]
      cases hn : next.lookup key with
      | none => simp [AuthorityStateOperation.under]
      | some value =>
        cases hp : previous.lookup key with
        | none => simp [AuthorityStateOperation.under]
        | some child =>
          have hmem := mem_of_lookup hp
          simp only
          rw [ih (key, child) hmem value (path ++ [key]), ih (key, child) hmem value [key]]
          · simp only [List.map_map]
            congr 1
            funext operation
            exact under_append path [key] operation
          · intro previous next
            split <;> simp [AuthorityStateOperation.under]
          · intro previous next
            split <;> simp [AuthorityStateOperation.under]
    | _ => simpa only [diffAuthorityState] using scalar (.object previous) _

private theorem commonPrefix_le (shared : Nat) (left right : List ByteArray) :
    commonPrefix shared left right ≤ shared := by
  induction shared generalizing left right with
  | zero => simp [commonPrefix]
  | succ shared ih =>
    cases left with
    | nil => simp [commonPrefix]
    | cons a left =>
      cases right with
      | nil => simp [commonPrefix]
      | cons b right =>
        simp only [commonPrefix]
        split
        · have := ih left right
          omega
        · omega

private theorem take_commonPrefix (shared : Nat) (left right : List ByteArray) :
    left.take (commonPrefix shared left right) = right.take (commonPrefix shared left right) := by
  induction shared generalizing left right with
  | zero => simp [commonPrefix]
  | succ shared ih =>
    cases left with
    | nil => simp [commonPrefix]
    | cons a left =>
      cases right with
      | nil => simp [commonPrefix]
      | cons b right =>
        simp only [commonPrefix]
        split
        · rename_i hab
          simp [hab, ih left right]
        · simp

private theorem map_bytes_injective {xs ys : List Json} (hx : ∀ v ∈ xs, Canonical v)
    (hy : ∀ v ∈ ys, Canonical v)
    (h : xs.map canonicalAuthorityBytes = ys.map canonicalAuthorityBytes) : xs = ys := by
  induction xs generalizing ys with
  | nil =>
    cases ys with
    | nil => rfl
    | cons y ys => simp at h
  | cons x xs ih =>
    cases ys with
    | nil => simp at h
    | cons y ys =>
      simp only [List.map_cons, List.cons.injEq] at h
      rw [(canonicalAuthorityBytes_canonical (hx x (by simp)) (hy y (by simp))).mp h.1,
        ih (fun v hv => hx v (by simp [hv])) (fun v hv => hy v (by simp [hv])) h.2]

/-- What the splice of two canonical arrays names: the differing middle between an equal head of
length `ahead` and an equal tail of length `suffix`. -/
private theorem arraySplice_spec {previous next : List Json} (hp : ∀ v ∈ previous, Canonical v)
    (hn : ∀ v ∈ next, Canonical v) (path : AuthorityStatePath) :
    ∃ ahead suffix, ahead + suffix ≤ previous.length ∧ ahead + suffix ≤ next.length ∧
      previous.take ahead = next.take ahead ∧
      previous.drop (previous.length - suffix) = next.drop (next.length - suffix) ∧
      arraySpliceOperations previous next path =
        if previous.length - ahead - suffix = 0 ∧
          ((next.take (next.length - suffix)).drop ahead).length = 0 then []
        else [.splice path ahead (previous.length - ahead - suffix)
          ((next.take (next.length - suffix)).drop ahead)] := by
  let previousBytes := previous.map canonicalAuthorityBytes
  let nextBytes := next.map canonicalAuthorityBytes
  let shared := min previous.length next.length
  let ahead := commonPrefix shared previousBytes nextBytes
  let suffix := commonPrefix (shared - ahead) previousBytes.reverse nextBytes.reverse
  have hahead : ahead ≤ shared := commonPrefix_le _ _ _
  have hsuffix : suffix ≤ shared - ahead := commonPrefix_le _ _ _
  have hshared : shared ≤ previous.length ∧ shared ≤ next.length :=
    ⟨Nat.min_le_left _ _, Nat.min_le_right _ _⟩
  refine ⟨ahead, suffix, by omega, by omega, ?_, ?_, ?_⟩
  · have h := take_commonPrefix shared previousBytes nextBytes
    simp only [previousBytes, nextBytes, ← List.map_take] at h
    exact map_bytes_injective (fun v hv => hp v (List.mem_of_mem_take hv))
      (fun v hv => hn v (List.mem_of_mem_take hv)) h
  · have h := take_commonPrefix (shared - ahead) previousBytes.reverse nextBytes.reverse
    rw [List.take_reverse, List.take_reverse, List.reverse_inj] at h
    simp only [previousBytes, nextBytes, List.length_map, ← List.map_drop] at h
    exact map_bytes_injective (fun v hv => hp v (List.mem_of_mem_drop hv))
      (fun v hv => hn v (List.mem_of_mem_drop hv)) h
  · simp only [arraySpliceOperations, List.length_map]
    rfl

private theorem splice_rebuilds {previous next : List Json} {ahead suffix : Nat}
    (bound : ahead + suffix ≤ previous.length) (bound' : ahead + suffix ≤ next.length)
    (head : previous.take ahead = next.take ahead)
    (tail : previous.drop (previous.length - suffix) = next.drop (next.length - suffix)) :
    previous.take ahead ++ ((next.take (next.length - suffix)).drop ahead ++
      previous.drop (ahead + (previous.length - ahead - suffix))) = next := by
  have hend : ahead + (previous.length - ahead - suffix) = previous.length - suffix := by omega
  have htake : next.take ahead = (next.take (next.length - suffix)).take ahead := by
    rw [List.take_take, Nat.min_eq_left (by omega)]
  rw [hend, head, tail, ← List.append_assoc, htake, List.take_append_drop, List.take_append_drop]

private theorem applyHereAll_arraySplice {previous next : List Json}
    (hp : ∀ v ∈ previous, Canonical v) (hn : ∀ v ∈ next, Canonical v) :
    applyHereAll (arraySpliceOperations previous next []) (.array previous) =
      .ok (.array next) := by
  obtain ⟨ahead, suffix, bound, bound', head, tail, hops⟩ := arraySplice_spec hp hn []
  have rebuilt := splice_rebuilds bound bound' head tail
  rw [hops]
  split
  · rename_i hnone
    rw [List.length_eq_zero_iff] at hnone
    rw [hnone.1, hnone.2, List.nil_append, Nat.add_zero, List.take_append_drop] at rebuilt
    rw [applyHereAll, rebuilt]
  · have hrange : ¬ ahead + (previous.length - ahead - suffix) > previous.length := by omega
    simp only [applyHereAll, AuthorityStateOperation.path, applyHere, hrange, if_false, rebuilt]

theorem mem_unionKeys {previous next : List String} {key : String} :
    key ∈ unionKeys previous next ↔ key ∈ previous ∨ key ∈ next := by
  simp [unionKeys, sortKeys]

theorem nodup_unionKeys (previous next : List String) : (unionKeys previous next).Nodup :=
  (List.perm_insertionSort _ _).nodup_iff.mpr (List.nodup_dedup _)

/-- The value-level correctness of the differ. -/
private def DiffRebuilds (previous : Json) : Prop :=
  ∀ next, Canonical previous → Canonical next →
    applyHereAll (diffAuthorityState previous next []) previous = .ok next

/-- The operations of one key bring that key to its target and touch no other. -/
private theorem applyHereAll_diffKey {previous next entries : List (String × Json)} {key : String}
    (each : ∀ f ∈ previous, DiffRebuilds f.2) (hp : Canonical (.object previous))
    (hn : Canonical (.object next)) (he : Canonical (.object entries))
    (named : key ∈ keys previous ∨ key ∈ keys next)
    (same : entries.lookup key = previous.lookup key) :
    ∃ entries', Canonical (.object entries') ∧
      applyHereAll (diffKey previous next [] key) (.object entries) = .ok (.object entries') ∧
      ∀ k, entries'.lookup k = if k = key then next.lookup key else entries.lookup k := by
  simp only [diffKey, List.nil_append]
  cases hnext : next.lookup key with
  | none =>
    have present : (entries.lookup key).isSome := by
      rw [same, lookup_isSome]
      rcases named with h | h
      · exact h
      · exact absurd (lookup_isSome.mpr h) (by simp [hnext])
    refine ⟨canonicalEntries (eraseKey entries key), canonical_eraseKey he key, ?_, ?_⟩
    · simp [applyHereAll, applyHere, AuthorityStateOperation.path, applyAuthorityStateOperation,
        Option.isSome_iff_ne_none.mp present]
    · exact fun k => lookup_canonical_eraseKey he key k
  | some value =>
    have hvalue := hn.lookup hnext
    cases hprev : previous.lookup key with
    | none =>
      refine ⟨canonicalEntries (setKey entries key value), canonical_setKey he key hvalue, ?_, ?_⟩
      · simp [applyHereAll, applyHere, AuthorityStateOperation.path, applyAuthorityStateOperation]
      · exact fun k => lookup_canonical_setKey he key k value
    | some child =>
      have hmem := mem_of_lookup hprev
      have hchild := hp.lookup hprev
      have hrun := each (key, child) hmem value hchild hvalue
      refine ⟨canonicalEntries (setKey entries key value), canonical_setKey he key hvalue, ?_, ?_⟩
      · simp only
        rw [diffAuthorityState_under]
        exact applyHereAll_under he (same.trans hprev) hrun
      · exact fun k => lookup_canonical_setKey he key k value

private theorem applyHereAll_diffKeys {previous next : List (String × Json)} (ks : List String)
    (each : ∀ f ∈ previous, DiffRebuilds f.2) (hp : Canonical (.object previous))
    (hn : Canonical (.object next)) (nodup : ks.Nodup)
    (named : ∀ k ∈ ks, k ∈ keys previous ∨ k ∈ keys next) :
    ∀ entries, Canonical (.object entries) →
      (∀ k ∈ ks, entries.lookup k = previous.lookup k) →
      ∃ entries', Canonical (.object entries') ∧
        applyHereAll (ks.flatMap (diffKey previous next [])) (.object entries) =
          .ok (.object entries') ∧
        ∀ k, entries'.lookup k = if k ∈ ks then next.lookup k else entries.lookup k := by
  -- the keys already handled read as in `next`, the others as before
  induction ks with
  | nil =>
    intro entries he _
    exact ⟨entries, he, rfl, by simp⟩
  | cons key ks ih =>
    intro entries he same
    obtain ⟨fresh, nodup⟩ := List.nodup_cons.mp nodup
    obtain ⟨middle, hm, hrun, hlookup⟩ := applyHereAll_diffKey each hp hn he
      (named key (by simp)) (same key (by simp))
    have same' : ∀ k ∈ ks, middle.lookup k = previous.lookup k := by
      intro k hk
      have hne : k ≠ key := fun h => fresh (h ▸ hk)
      rw [hlookup, if_neg hne, same k (by simp [hk])]
    obtain ⟨entries', he', hrun', hlookup'⟩ := ih nodup (fun k hk => named k (by simp [hk]))
      middle hm same'
    refine ⟨entries', he', ?_, ?_⟩
    · rw [List.flatMap_cons, applyHereAll_append hrun, hrun']
    · intro k
      rw [hlookup', hlookup]
      by_cases hk : k = key
      · subst hk
        simp [fresh]
      · simp [hk]

theorem applyHereAll_diffAuthorityState (previous : Json) : DiffRebuilds previous := by
  have scalar : ∀ {previous next : Json}, Canonical previous → Canonical next →
      applyHereAll (if canonicalBytesEqual previous next then []
        else [AuthorityStateOperation.set [] next]) previous = .ok next := by
    intro previous next hp hn
    split
    · rename_i h
      rw [(canonicalBytesEqual_iff hp hn).mp h]
      rfl
    · rfl
  induction previous with
  | null => exact fun next hp hn => by simpa only [diffAuthorityState] using scalar hp hn
  | bool b => exact fun next hp hn => by simpa only [diffAuthorityState] using scalar hp hn
  | number n => exact fun next hp hn => by simpa only [diffAuthorityState] using scalar hp hn
  | string s => exact fun next hp hn => by simpa only [diffAuthorityState] using scalar hp hn
  | array previous ih =>
    intro next hp hn
    cases next with
    | array next =>
      simp only [diffAuthorityState]
      split
      · rename_i h
        rw [(canonicalBytesEqual_iff hp hn).mp h]
        rfl
      · exact applyHereAll_arraySplice ((canonical_array _).mp hp) ((canonical_array _).mp hn)
    | _ => simpa only [diffAuthorityState] using scalar hp hn
  | object previous ih =>
    intro next hp hn
    cases next with
    | object next =>
      rw [diffAuthorityState_object]
      split
      · rename_i h
        rw [(canonicalBytesEqual_iff hp hn).mp h]
        rfl
      · obtain ⟨entries, he, hrun, hlookup⟩ := applyHereAll_diffKeys
          (unionKeys (keys previous) (keys next)) ih hp hn (nodup_unionKeys _ _)
          (fun k hk => mem_unionKeys.1 hk) previous hp (fun _ _ => rfl)
        rw [hrun]
        congr 2
        refine canonical_object_ext he hn ?_
        intro k
        rw [hlookup]
        split
        · rfl
        · rename_i hk
          rw [mem_unionKeys, not_or] at hk
          rw [lookup_eq_none.mpr hk.1, lookup_eq_none.mpr hk.2]
    | _ => simpa only [diffAuthorityState] using scalar hp hn

/-- What the boundary decoder asks of an operation besides its path. -/
def AuthorityStateOperation.CleanPayload : AuthorityStateOperation → Prop
  | .set _ value => Canonical value
  | .remove _ => True
  | .splice _ index removed inserted => index ≤ JsNumber.maxSafeInteger ∧
      removed ≤ JsNumber.maxSafeInteger ∧ ∀ v ∈ inserted, Canonical v

private theorem cleanPayload_under (ahead : AuthorityStatePath)
    (operation : AuthorityStateOperation) :
    (operation.under ahead).CleanPayload ↔ operation.CleanPayload := by
  cases operation <;> rfl

private theorem cleanPayload_arraySplice {previous next : List Json}
    (hp : ∀ v ∈ previous, Canonical v) (hn : ∀ v ∈ next, Canonical v)
    (bound : previous.length ≤ Json.maxArrayLength) :
    ∀ operation ∈ arraySpliceOperations previous next [], operation.CleanPayload := by
  obtain ⟨ahead, suffix, hsum, -, -, -, hops⟩ := arraySplice_spec hp hn []
  have safe : Json.maxArrayLength ≤ JsNumber.maxSafeInteger := by decide
  intro operation hmem
  rw [hops] at hmem
  split at hmem
  · simp at hmem
  · obtain rfl := List.mem_singleton.mp hmem
    refine ⟨by omega, by omega, ?_⟩
    intro v hv
    exact hn v (List.mem_of_mem_take (List.mem_of_mem_drop hv))

/-- Every operation of a diff carries canonical values and safe bounds. -/
theorem cleanPayload_diffAuthorityState (previous next : Json) (hp : Canonical previous)
    (hfits : previous.Fits) (hn : Canonical next) :
    ∀ operation ∈ diffAuthorityState previous next [], operation.CleanPayload := by
  have scalar : ∀ {previous next : Json}, Canonical next →
      ∀ operation ∈ (if canonicalBytesEqual previous next then []
        else [AuthorityStateOperation.set [] next]), operation.CleanPayload := by
    intro previous next hn operation hmem
    split at hmem
    · simp at hmem
    · obtain rfl := List.mem_singleton.mp hmem
      exact hn
  induction previous generalizing next with
  | null => simpa only [diffAuthorityState] using scalar hn
  | bool b => simpa only [diffAuthorityState] using scalar hn
  | number n => simpa only [diffAuthorityState] using scalar hn
  | string s => simpa only [diffAuthorityState] using scalar hn
  | array previous ih =>
    cases next with
    | array next =>
      simp only [diffAuthorityState]
      split
      · simp
      · exact cleanPayload_arraySplice ((canonical_array _).mp hp) ((canonical_array _).mp hn)
          ((Json.fits_array _).mp hfits).1
    | _ => simpa only [diffAuthorityState] using scalar hn
  | object previous ih =>
    cases next with
    | object next =>
      rw [diffAuthorityState_object]
      split
      · simp
      intro operation hmem
      obtain ⟨key, -, hkey⟩ := List.mem_flatMap.mp hmem
      simp only [diffKey, List.nil_append] at hkey
      cases hnext : next.lookup key with
      | none =>
        simp only [hnext, List.mem_singleton] at hkey
        exact hkey ▸ trivial
      | some value =>
        cases hprev : previous.lookup key with
        | none =>
          simp only [hnext, hprev, List.mem_singleton] at hkey
          exact hkey ▸ hn.lookup hnext
        | some child =>
          simp only [hnext, hprev] at hkey
          rw [diffAuthorityState_under] at hkey
          obtain ⟨inner, hinner, rfl⟩ := List.mem_map.mp hkey
          rw [cleanPayload_under]
          exact ih (key, child) (mem_of_lookup hprev) value (hp.lookup hprev)
            ((Json.fits_object _).mp hfits (key, child) (mem_of_lookup hprev))
            (hn.lookup hnext) inner hinner
    | _ => simpa only [diffAuthorityState] using scalar hn

/-- Between two objects every operation names at least one key. -/
private theorem path_ne_nil_of_mem_diff {previous next : List (String × Json)}
    {operation : AuthorityStateOperation}
    (hmem : operation ∈ diffAuthorityState (.object previous) (.object next) []) :
    operation.path ≠ [] := by
  rw [diffAuthorityState_object] at hmem
  split at hmem
  · simp at hmem
  obtain ⟨key, -, hkey⟩ := List.mem_flatMap.mp hmem
  simp only [diffKey, List.nil_append] at hkey
  cases hnext : next.lookup key with
  | none =>
    simp only [hnext, List.mem_singleton] at hkey
    simp [hkey, AuthorityStateOperation.path]
  | some value =>
    cases hprev : previous.lookup key with
    | none =>
      simp only [hnext, hprev, List.mem_singleton] at hkey
      simp [hkey, AuthorityStateOperation.path]
    | some child =>
      simp only [hnext, hprev] at hkey
      rw [diffAuthorityState_under] at hkey
      obtain ⟨inner, -, rfl⟩ := List.mem_map.mp hkey
      simp

/-- An operation the boundary decoder reads back as it was written. -/
def AuthorityStateOperation.Clean (operation : AuthorityStateOperation) : Prop :=
  operation.path ≠ [] ∧ operation.CleanPayload

theorem clean_of_mem_authorityStateDelta (previous next : Projection) :
    ∀ operation ∈ (authorityStateDelta previous.value next.value).operations,
      operation.Clean := by
  obtain ⟨fields, hfields⟩ := previous.exists_fields
  obtain ⟨fields', hfields'⟩ := next.exists_fields
  intro operation hmem
  refine ⟨?_, cleanPayload_diffAuthorityState _ _ previous.canonical previous.fits next.canonical
    operation hmem⟩
  rw [authorityStateDelta, hfields, hfields'] at hmem
  exact path_ne_nil_of_mem_diff hmem

private theorem decodePathSegments_strings (label : String) (path : AuthorityStatePath) :
    decodePathSegments label (path.map .string) = .ok path := by
  induction path with
  | nil => rfl
  | cons segment path ih => simp [decodePathSegments, ih, bind, Except.bind]

private theorem decodeAuthorityStatePath_strings (label : String) {path : AuthorityStatePath}
    (h : path ≠ []) :
    decodeAuthorityStatePath (some (.array (path.map .string))) label = .ok path := by
  cases path with
  | nil => exact absurd rfl h
  | cons segment path => exact decodePathSegments_strings label (segment :: path)

private theorem spliceBound?_ofNat {n : Nat} (h : n ≤ JsNumber.maxSafeInteger) :
    spliceBound? (some (.number (.ofNat n))) = some n := by
  simp [spliceBound?, JsNumber.safeInteger?_ofNat h]

private theorem map_canonical {items : List Json} (h : ∀ v ∈ items, Canonical v) :
    items.map canonicalAuthorityJson = items := by
  rw [List.map_congr_left h, List.map_id']

theorem decodeAuthorityStateOperation_toJson {operation : AuthorityStateOperation}
    (clean : operation.Clean) (index : Nat) :
    decodeAuthorityStateOperation operation.toJson index = .ok operation := by
  obtain ⟨hpath, hpayload⟩ := clean
  have hdecode := fun label => decodeAuthorityStatePath_strings label hpath
  cases operation with
  | set path value =>
    simp only [AuthorityStateOperation.path] at hdecode
    have hvalue : canonicalAuthorityJson value = value := hpayload
    simp [decodeAuthorityStateOperation, AuthorityStateOperation.toJson, List.lookup_cons,
      hdecode, requireExactKeys, hasExactAuthorityKeys, keys,
      hvalue, bind, Except.bind]
  | remove path =>
    simp only [AuthorityStateOperation.path] at hdecode
    simp [decodeAuthorityStateOperation, AuthorityStateOperation.toJson, List.lookup_cons,
      hdecode, requireExactKeys, hasExactAuthorityKeys, keys,
      bind, Except.bind]
  | splice path start removed inserted =>
    simp only [AuthorityStateOperation.path] at hdecode
    obtain ⟨hstart, hremoved, hinserted⟩ := hpayload
    simp [decodeAuthorityStateOperation, AuthorityStateOperation.toJson, List.lookup_cons,
      hdecode, requireExactKeys, hasExactAuthorityKeys, keys,
      spliceBound?_ofNat hstart, spliceBound?_ofNat hremoved, map_canonical hinserted, bind,
      Except.bind]

private theorem decodeOperations_toJson {operations : List AuthorityStateOperation}
    (clean : ∀ operation ∈ operations, operation.Clean) (index : Nat) :
    decodeOperations index (operations.map AuthorityStateOperation.toJson) = .ok operations := by
  induction operations generalizing index with
  | nil => rfl
  | cons operation operations ih =>
    simp [decodeOperations, decodeAuthorityStateOperation_toJson (clean operation (by simp)),
      ih (fun o ho => clean o (by simp [ho])), bind, Except.bind]

/-- A delta of clean operations passes the boundary decoder unchanged. -/
theorem decodeAuthorityStateDelta_toJson {delta : AuthorityStateDelta}
    (clean : ∀ operation ∈ delta.operations, operation.Clean) :
    decodeAuthorityStateDelta delta.toJson = .ok delta := by
  simp [decodeAuthorityStateDelta, AuthorityStateDelta.toJson, List.lookup_cons, requireExactKeys,
    hasExactAuthorityKeys, keys, decodeOperations_toJson clean, bind, Except.bind]

private theorem applyOperations_eq_applyHereAll {operations : List AuthorityStateOperation}
    (named : ∀ operation ∈ operations, operation.path ≠ []) (state : Json) :
    applyOperations operations state = applyHereAll operations state := by
  induction operations generalizing state with
  | nil => rfl
  | cons operation operations ih =>
    have here : applyHere operation state operation.path =
        applyAuthorityStateOperation operation state operation.path := by
      cases hpath : operation.path with
      | nil => exact absurd hpath (named operation (by simp))
      | cons key rest => rfl
    simp only [applyOperations, applyHereAll, here, bind, Except.bind]
    cases applyAuthorityStateOperation operation state operation.path with
    | error message => rfl
    | ok state => exact ih (fun o ho => named o (by simp [ho])) state

/-- Replaying the delta's operations on `previous` reaches `next`. -/
theorem applyOperations_authorityStateDelta (previous next : Projection) :
    applyOperations (authorityStateDelta previous.value next.value).operations previous.value =
      .ok next.value := by
  rw [applyOperations_eq_applyHereAll
    (fun o ho => (clean_of_mem_authorityStateDelta previous next o ho).1)]
  exact applyHereAll_diffAuthorityState _ _ previous.canonical next.canonical

private theorem decodePathSegments_canonical (label : String) (segments : List Json) :
    decodePathSegments label (segments.map canonicalAuthorityJson) =
      decodePathSegments label segments := by
  induction segments with
  | nil => rfl
  | cons segment segments ih =>
    cases segment <;> simp [decodePathSegments, canonicalAuthorityJson, ih]

private theorem decodeAuthorityStatePath_canonical (value : Option Json) (label : String) :
    decodeAuthorityStatePath (value.map canonicalAuthorityJson) label =
      decodeAuthorityStatePath value label := by
  rcases value with _ | v
  · rfl
  · cases v with
    | array segments =>
      have h := decodePathSegments_canonical label segments
      cases segments with
      | nil => simp [decodeAuthorityStatePath, canonicalAuthorityJson]
      | cons segment segments =>
        simpa [decodeAuthorityStatePath, canonicalAuthorityJson] using h
    | _ => simp [decodeAuthorityStatePath, canonicalAuthorityJson]

private theorem spliceBound?_canonical (value : Option Json) :
    spliceBound? (value.map canonicalAuthorityJson) = spliceBound? value := by
  rcases value with _ | v
  · rfl
  · cases v <;> simp [spliceBound?, canonicalAuthorityJson]

private theorem requireExactKeys_canonical {fields : List (String × Json)}
    (nodup : (keys fields).Nodup) (expected : List String) (label : String) :
    requireExactKeys (canonicalEntries (fields.map (fun f =>
      (f.1, canonicalAuthorityJson f.2)))) expected label =
        requireExactKeys fields expected label := by
  rw [requireExactKeys, requireExactKeys, hasExactAuthorityKeys_canonical nodup]

private theorem canonicalAuthorityJson_idem (v : Json) :
    canonicalAuthorityJson (canonicalAuthorityJson v) = canonicalAuthorityJson v :=
  Json.canonical_canonicalAuthorityJson v

private theorem decodeAuthorityStateOperation_canonical {value : Json}
    (ordered : value.OwnOrdered) (index : Nat) :
    decodeAuthorityStateOperation (canonicalAuthorityJson value) index =
      decodeAuthorityStateOperation value index := by
  cases value with
  | object fields =>
    have nodup := ordered.nodup
    simp only [decodeAuthorityStateOperation, Json.canonicalAuthorityJson_object,
      Json.lookup_canonicalFields nodup, decodeAuthorityStatePath_canonical,
      spliceBound?_canonical, requireExactKeys_canonical nodup]
    have hvalue : canonicalAuthorityJson
        (((fields.lookup "value").map canonicalAuthorityJson).getD .null) =
          canonicalAuthorityJson ((fields.lookup "value").getD .null) := by
      cases fields.lookup "value" with
      | none => rfl
      | some v => exact canonicalAuthorityJson_idem v
    rw [hvalue]
    cases hop : fields.lookup "op" with
    | none => rfl
    | some op =>
      cases op with
      | string op =>
        simp only [Option.map_some, canonicalAuthorityJson]
        cases hinsert : fields.lookup "insert" with
        | none => rfl
        | some insert =>
          cases insert with
          | array insert =>
            simp only [Option.map_some, Json.canonicalAuthorityJson_array]
            cases spliceBound? (fields.lookup "index") <;>
              cases spliceBound? (fields.lookup "remove") <;>
              simp only [List.map_map, Function.comp_def, canonicalAuthorityJson_idem]
          | _ => simp [canonicalAuthorityJson]
      | _ => simp [canonicalAuthorityJson]
  | _ => simp [decodeAuthorityStateOperation, canonicalAuthorityJson]

private theorem decodeOperations_canonical {operations : List Json}
    (ordered : ∀ v ∈ operations, v.OwnOrdered) (index : Nat) :
    decodeOperations index (operations.map canonicalAuthorityJson) =
      decodeOperations index operations := by
  induction operations generalizing index with
  | nil => rfl
  | cons operation operations ih =>
    rw [List.map_cons, decodeOperations, decodeOperations,
      decodeAuthorityStateOperation_canonical (ordered operation (by simp)),
      ih (fun v hv => ordered v (by simp [hv]))]

/-- The boundary decoder does not see the key order of what it reads. -/
theorem decodeAuthorityStateDelta_canonical {value : Json} (ordered : value.OwnOrdered) :
    decodeAuthorityStateDelta (canonicalAuthorityJson value) =
      decodeAuthorityStateDelta value := by
  cases value with
  | object fields =>
    have nodup := ordered.nodup
    simp only [decodeAuthorityStateDelta, Json.canonicalAuthorityJson_object,
      Json.lookup_canonicalFields nodup, requireExactKeys_canonical nodup]
    have hschema : (fields.lookup "schema_version").map canonicalAuthorityJson =
        some (.string AUTHORITY_STATE_DELTA_SCHEMA) ↔
          fields.lookup "schema_version" = some (.string AUTHORITY_STATE_DELTA_SCHEMA) := by
      rcases fields.lookup "schema_version" with _ | v
      · simp
      · cases v <;> simp [canonicalAuthorityJson]
    cases hops : fields.lookup "operations" with
    | none => rfl
    | some operations =>
      cases operations with
      | array operations =>
        have each := (Json.ownOrdered_array operations).mp (ordered.lookup hops)
        simp only [Option.map_some, Json.canonicalAuthorityJson_array, hschema,
          decodeOperations_canonical each]
      | _ => simp [canonicalAuthorityJson]
  | _ => simp [decodeAuthorityStateDelta, canonicalAuthorityJson]

private theorem ownOrdered_operation {operation : AuthorityStateOperation}
    (clean : operation.CleanPayload) : operation.toJson.OwnOrdered := by
  have strings : ∀ path : AuthorityStatePath, ∀ v ∈ path.map Json.string, v.OwnOrdered := by
    intro path v hv
    obtain ⟨segment, -, rfl⟩ := List.mem_map.mp hv
    trivial
  cases operation with
  | set path value =>
    refine Json.ownOrdered_literal ["op", "path", "value"] rfl (by decide) (by decide) ?_
    simp only [List.forall_mem_cons, Json.ownOrdered_array]
    exact ⟨trivial, strings path, Canonical.ownOrdered clean, by simp⟩
  | remove path =>
    refine Json.ownOrdered_literal ["op", "path"] rfl (by decide) (by decide) ?_
    simp only [List.forall_mem_cons, Json.ownOrdered_array]
    exact ⟨trivial, strings path, by simp⟩
  | splice path start removed inserted =>
    refine Json.ownOrdered_literal ["op", "path", "index", "remove", "insert"] rfl (by decide)
      (by decide) ?_
    simp only [List.forall_mem_cons, Json.ownOrdered_array]
    exact ⟨trivial, strings path, trivial, trivial,
      fun v hv => (clean.2.2 v hv).ownOrdered, by simp⟩

/-- A clean delta is a value the runtime could hold: keys distinct and in own-property order. -/
theorem ownOrdered_delta {delta : AuthorityStateDelta}
    (clean : ∀ operation ∈ delta.operations, operation.Clean) : delta.toJson.OwnOrdered := by
  refine Json.ownOrdered_literal ["schema_version", "operations"] rfl (by decide) (by decide) ?_
  simp only [List.forall_mem_cons, Json.ownOrdered_array]
  refine ⟨trivial, ?_, by simp⟩
  intro v hv
  obtain ⟨operation, hmem, rfl⟩ := List.mem_map.mp hv
  exact ownOrdered_operation (clean operation hmem).2

theorem create_of_canonical {state : Json} (h : CanonicalObject state) :
    AuthorityStateReplay.create state = .ok ⟨state⟩ := by
  rw [AuthorityStateReplay.create, canonicalAuthorityObject_of_canonical h]
  rfl

theorem applyAuthorityStateDelta_authorityStateDelta (previous next : Projection) :
    applyAuthorityStateDelta previous.value
      (authorityStateDelta previous.value next.value).toJson = .ok next.value := by
  have decoded := decodeAuthorityStateDelta_toJson (clean_of_mem_authorityStateDelta previous next)
  simp only [applyAuthorityStateDelta, create_of_canonical previous.canonicalObject,
    AuthorityStateReplay.apply, decoded, bind, Except.bind]
  rw [applyOperations_authorityStateDelta]
  rfl

theorem authorityStateDeltaReconstructs_authorityStateDelta (previous next : Projection) :
    authorityStateDeltaReconstructs previous.value
      (authorityStateDelta previous.value next.value).toJson next.value = true := by
  rw [authorityStateDeltaReconstructs, applyAuthorityStateDelta_authorityStateDelta]
  exact (canonicalBytesEqual_iff next.canonical next.canonical).mpr rfl

/-- What a writer stores for `next` after `previous` is accepted by the boundary decoder, rebuilds
`next` exactly, and reads back from its canonical text as the same operations. -/
theorem authorityStateDelta_roundTrip (previous next : Projection) :
    let delta := authorityStateDelta previous.value next.value
    decodeAuthorityStateDelta delta.toJson = .ok delta ∧
      applyAuthorityStateDelta previous.value delta.toJson = .ok next.value ∧
      authorityStateDeltaReconstructs previous.value delta.toJson next.value = true ∧
      (Json.parse (Json.stringify (canonicalAuthorityJson delta.toJson))).map
        decodeAuthorityStateDelta = some (.ok delta) := by
  intro delta
  have clean := clean_of_mem_authorityStateDelta previous next
  have decoded : decodeAuthorityStateDelta delta.toJson = .ok delta :=
    decodeAuthorityStateDelta_toJson clean
  refine ⟨decoded, applyAuthorityStateDelta_authorityStateDelta previous next,
    authorityStateDeltaReconstructs_authorityStateDelta previous next, ?_⟩
  rw [Json.parse_stringify _ (Json.canonical_canonicalAuthorityJson _).ownOrdered,
    Option.map_some, decodeAuthorityStateDelta_canonical (ownOrdered_delta clean), decoded]

end Loopx.Authority
