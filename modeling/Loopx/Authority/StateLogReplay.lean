/- GID: Loopx/Authority/StateLogReplay
   generality: I
   source: loopx/control_plane/coordination/authority_state_log.ts
   digest: Whatever delta the boundary decoder accepted, replay decodes it again unchanged. -/

import Loopx.Authority.StateLogRoundTrip

set_option autoImplicit false
set_option relaxedAutoImplicit false

namespace Loopx.Authority

open Loopx.Lib.KeyedList
open Loopx.Lib.Fallible (ok_bind bind_eq_ok)
open Loopx.Json (JsNumber Protocol canonicalAuthorityJson Canonical canonical_array
  canonical_canonicalAuthorityJson)

/-- A delta that the boundary decoder reads back as it was written. -/
def AuthorityStateDelta.Clean (delta : AuthorityStateDelta) : Prop :=
  ∀ operation ∈ delta.operations, operation.Clean

private theorem spliceBound?_le {value : Option Json} {n : Nat} (h : spliceBound? value = some n) :
    n ≤ JsNumber.maxSafeInteger := by
  simp only [spliceBound?] at h
  split at h
  · split at h
    · rename_i i hi
      simp only [JsNumber.safeInteger?] at hi
      split at hi
      · split at hi
        · rename_i hbound
          obtain rfl := Option.some.inj hi
          split at h
          · obtain rfl := Option.some.inj h
            omega
          · simp at h
        · simp at hi
      · simp at hi
    · simp at h
  · simp at h

private theorem path_ne_nil_of_ok {value : Option Json} {label : String}
    {path : AuthorityStatePath} (h : decodeAuthorityStatePath value label = .ok path) :
    path ≠ [] := by
  simp only [decodeAuthorityStatePath] at h
  split at h
  · rename_i segment rest
    cases segment with
    | string text =>
      obtain ⟨tail, -, h⟩ := bind_eq_ok.mp h
      obtain rfl := Except.ok.inj h
      simp
    | _ => simp [decodePathSegments] at h
  · simp at h

private theorem clean_of_decodeOperation {value : Json} {index : Nat}
    {operation : AuthorityStateOperation}
    (h : decodeAuthorityStateOperation value index = .ok operation) : operation.Clean := by
  cases value with
  | object fields =>
    simp only [decodeAuthorityStateOperation] at h
    split at h
    · obtain ⟨path, hpath, h⟩ := bind_eq_ok.mp h
      have nonempty := path_ne_nil_of_ok hpath
      split at h
      · obtain ⟨-, -, h⟩ := bind_eq_ok.mp h
        obtain rfl := Except.ok.inj h
        exact ⟨nonempty, canonical_canonicalAuthorityJson _⟩
      · split at h
        · obtain ⟨-, -, h⟩ := bind_eq_ok.mp h
          obtain rfl := Except.ok.inj h
          exact ⟨nonempty, trivial⟩
        · split at h
          · obtain ⟨-, -, h⟩ := bind_eq_ok.mp h
            split at h
            · rename_i start removed inserted hstart hremoved hinserted
              obtain rfl := Except.ok.inj h
              refine ⟨nonempty, spliceBound?_le hstart, spliceBound?_le hremoved, ?_⟩
              intro v hv
              obtain ⟨w, -, rfl⟩ := List.mem_map.mp hv
              exact canonical_canonicalAuthorityJson w
            · simp at h
          · simp at h
    · simp at h
  | _ => simp [decodeAuthorityStateOperation] at h

private theorem clean_of_decodeOperations {values : List Json} {index : Nat}
    {operations : List AuthorityStateOperation}
    (h : decodeOperations index values = .ok operations) :
    ∀ operation ∈ operations, operation.Clean := by
  induction values generalizing index operations with
  | nil =>
    obtain rfl := Except.ok.inj h
    simp
  | cons value values ih =>
    obtain ⟨first, hfirst, h⟩ := bind_eq_ok.mp h
    obtain ⟨rest, hrest, h⟩ := bind_eq_ok.mp h
    obtain rfl := Except.ok.inj h
    intro operation hmem
    rcases List.mem_cons.mp hmem with rfl | hmem
    · exact clean_of_decodeOperation hfirst
    · exact ih hrest operation hmem

/-- What the decoder accepts is clean: named paths, canonical values, safe bounds. -/
theorem clean_of_decodeAuthorityStateDelta {value : Json} {delta : AuthorityStateDelta}
    (h : decodeAuthorityStateDelta value = .ok delta) : delta.Clean := by
  cases value with
  | object fields =>
    simp only [decodeAuthorityStateDelta] at h
    split at h
    · split at h
      · obtain ⟨-, -, h⟩ := bind_eq_ok.mp h
        obtain ⟨operations, hoperations, h⟩ := bind_eq_ok.mp h
        obtain rfl := Except.ok.inj h
        exact clean_of_decodeOperations hoperations
      · simp at h
    · simp at h
  | _ => simp [decodeAuthorityStateDelta] at h

private theorem canonicalObject_step {operation : AuthorityStateOperation}
    (clean : operation.CleanPayload) {value result : Json} {path : AuthorityStatePath}
    (hvalue : Canonical value) (h : applyAuthorityStateOperation operation value path = .ok result) :
    CanonicalObject result := by
  induction path generalizing value result with
  | nil => cases value <;> simp [applyAuthorityStateOperation] at h
  | cons key rest ih =>
    cases value with
    | object container =>
      cases rest with
      | cons next rest =>
        simp only [applyAuthorityStateOperation] at h
        split at h
        · simp at h
        · rename_i child hchild
          obtain ⟨child', hrun, h⟩ := bind_eq_ok.mp h
          obtain rfl := Except.ok.inj h
          exact ⟨rfl, canonical_setKey hvalue key (ih (hvalue.lookup hchild) hrun).2⟩
      | nil =>
        cases operation with
        | set path replacement =>
          simp only [applyAuthorityStateOperation] at h
          obtain rfl := Except.ok.inj h
          exact ⟨rfl, canonical_setKey hvalue key clean⟩
        | remove path =>
          simp only [applyAuthorityStateOperation] at h
          split at h
          · simp at h
          · obtain rfl := Except.ok.inj h
            exact ⟨rfl, canonical_eraseKey hvalue key⟩
        | splice path start removed inserted =>
          simp only [applyAuthorityStateOperation] at h
          split at h
          · simp at h
          · rename_i target htarget
            split at h
            · simp at h
            · obtain rfl := Except.ok.inj h
              refine ⟨rfl, canonical_setKey hvalue key ?_⟩
              have each := (canonical_array target).mp (hvalue.lookup htarget)
              rw [canonical_array]
              intro v hv
              rcases List.mem_append.mp hv with hv | hv
              · exact each v (List.mem_of_mem_take hv)
              · rcases List.mem_append.mp hv with hv | hv
                · exact clean.2.2 v hv
                · exact each v (List.mem_of_mem_drop hv)
          · simp at h
    | _ => simp [applyAuthorityStateOperation] at h

/-- Replay keeps the owned state a canonical object. -/
theorem canonicalObject_applyOperations {operations : List AuthorityStateOperation}
    (clean : ∀ operation ∈ operations, operation.Clean) {state result : Json}
    (hstate : CanonicalObject state) (h : applyOperations operations state = .ok result) :
    CanonicalObject result := by
  induction operations generalizing state with
  | nil =>
    obtain rfl := Except.ok.inj h
    exact hstate
  | cons operation operations ih =>
    obtain ⟨middle, hmiddle, h⟩ := bind_eq_ok.mp h
    exact ih (fun o ho => clean o (by simp [ho]))
      (canonicalObject_step (clean operation (by simp)).2 hstate.2 hmiddle) h

theorem apply_of_clean {delta : AuthorityStateDelta} (clean : delta.Clean) (state : Json) :
    AuthorityStateReplay.apply ⟨state⟩ delta.toJson =
      (applyOperations delta.operations state >>= fun state => .ok ⟨state⟩) := by
  rw [AuthorityStateReplay.apply, decodeAuthorityStateDelta_toJson clean, ok_bind]

/-- On a canonical state a clean delta is nothing but its operations. -/
theorem applyAuthorityStateDelta_of_clean {delta : AuthorityStateDelta} (clean : delta.Clean)
    {state : Json} (h : CanonicalObject state) :
    applyAuthorityStateDelta state delta.toJson = applyOperations delta.operations state := by
  rw [applyAuthorityStateDelta, create_of_canonical h, ok_bind, apply_of_clean clean]
  cases applyOperations delta.operations state <;> rfl

end Loopx.Authority
