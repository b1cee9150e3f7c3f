/- GID: Loopx/Todos/ValidationHistory
   generality: I
   source: loopx/control_plane/todos/completion_validation_revision.ts
   digest: Every run of validation revisions leaves a chain that its own reader accepts. -/

import Loopx.Todos.ValidationRevision

set_option autoImplicit false
set_option relaxedAutoImplicit false

namespace Loopx.Todos.Validation

open Loopx.Lib.KeyedList
open Loopx.Lib.RecordUpdate (merge lookup_merge lookup_merge_of_not_mem nodup_keys_merge
  lookup_filter_key)
open Loopx.Lib.Fallible (bind_eq_ok ok_bind throwWhen throwWhen_eq_ok throwWhen_of_not)
open Loopx.Json (JsNumber Protocol canonicalAuthorityJson canonicalEntries fromEntries
  maxArrayLength)
open Loopx.Authority (Sha256 canonicalAuthoritySha256 isBareSha256 IsStoreId
  requireAuthorityStoreId requireAuthorityStoreId_eq_ok)
open Loopx.Goals (authorityFields authorityFields_eq_ok lookup_of_authorityFields)
open Loopx.Lease (HostText)

variable {host : HostText}

theorem digest_eq_ok {value : Option Json} {label s : String} :
    digest value label = .ok s ↔ value = some (.string s) ∧ isBareSha256 s = true := by
  rcases value with _ | value
  · simp [digest]
  · cases value with
    | string t =>
      simp only [digest, Option.some.injEq, Json.string.injEq]
      split
      · rename_i bare
        constructor
        · intro h
          obtain rfl := Except.ok.inj h
          exact ⟨rfl, bare⟩
        · rintro ⟨rfl, -⟩
          rfl
      · rename_i bare
        simp only [reduceCtorEq, false_iff, not_and]
        rintro rfl
        exact bare
    | _ => simp [digest]

/-! ## Markers of absent authority -/

/-- Two records that agree on the four fields up to canonical form are bound alike. -/
private theorem Unbound.congr {left right : Fields}
    (agree : ∀ key ∈ "completion_validation_sha256" :: UNBOUND_FIELDS,
      (left.lookup key).map canonicalAuthorityJson = right.lookup key)
    (h : Unbound left) : Unbound right := by
  refine ⟨?_, ?_, ?_, ?_⟩
  · rw [← agree _ (by simp), h.digest, Option.map_none]
  · rw [← agree _ (by simp [UNBOUND_FIELDS])]
    rcases h.required with none | default
    · simp [none]
    · simp [default, canonicalAuthorityJson]
  · rw [← agree _ (by simp [UNBOUND_FIELDS])]
    rcases h.revision with none | default
    · simp [none]
    · simp [default, canonicalAuthorityJson]
  · rw [← agree _ (by simp [UNBOUND_FIELDS])]
    rcases h.history with none | default
    · simp [none]
    · simp [default, canonicalAuthorityJson]

/-- Markers that were kept: only the three fields, all at their defaults. -/
structure KeptMarkers (authority : Fields) : Prop where
  unique : (keys authority).Nodup
  only : ∀ key ∈ keys authority, key ∈ UNBOUND_FIELDS
  unbound : Unbound authority

theorem unboundValidationAuthority_eq_ok {todo authority : Fields} (unique : (keys todo).Nodup)
    (h : unboundValidationAuthority todo = .ok authority) :
    Unbound todo ∧ KeptMarkers authority := by
  obtain ⟨_, hbound, h⟩ := bind_eq_ok.mp h
  have unbound : Unbound todo := not_not.mp (throwWhen_eq_ok.mp hbound)
  obtain rfl := Except.ok.inj h
  have kept : (keys (todo.filter fun field => field.1 ∈ UNBOUND_FIELDS)).Nodup :=
    unique.sublist (List.filter_sublist.map Prod.fst)
  have reads (key : String) :
      (fromEntries (todo.filter fun field => field.1 ∈ UNBOUND_FIELDS)).lookup key =
        if key ∈ UNBOUND_FIELDS then todo.lookup key else none := by
    rw [Json.lookup_fromEntries kept]
    simpa using lookup_filter_key todo (fun key => decide (key ∈ UNBOUND_FIELDS)) key
  refine ⟨unbound, Json.nodup_keys_fromEntries _, ?_, ?_⟩
  · intro key hkey
    by_contra other
    have absent := reads key
    rw [if_neg other] at absent
    exact lookup_eq_none.mp absent hkey
  · refine ⟨?_, ?_, ?_, ?_⟩
    · rw [reads, if_neg (by decide)]
    · rw [reads, if_pos (by decide)]
      exact unbound.required
    · rw [reads, if_pos (by decide)]
      exact unbound.revision
    · rw [reads, if_pos (by decide)]
      exact unbound.history

theorem KeptMarkers.canonical {authority : Fields} (h : KeptMarkers authority) :
    KeptMarkers (canonicalEntries (authority.map fun f => (f.1, canonicalAuthorityJson f.2))) := by
  have perm := Json.perm_keys_canonicalFields h.unique
  refine ⟨perm.nodup_iff.mpr h.unique, fun key hkey => h.only key (perm.mem_iff.mp hkey), ?_⟩
  exact h.unbound.congr fun key _ => (Json.lookup_canonicalFields h.unique key).symm

/-! ## What the reader has checked -/

theorem le_of_positiveRevision {value : Option Json} {n : Nat}
    (h : positiveRevision value = some n) : n ≤ JsNumber.maxSafeInteger := by
  unfold positiveRevision at h
  split at h
  · split at h
    · rename_i i hi
      split at h
      · obtain rfl := Option.some.inj h
        unfold JsNumber.safeInteger? at hi
        split at hi
        · split at hi
          · obtain rfl := Option.some.inj hi
            omega
          · cases hi
        · cases hi
      · cases h
    · cases h
  · cases h

theorem positiveRevision_succ {n : Nat} (h : n + 1 ≤ JsNumber.maxSafeInteger) :
    positiveRevision (some (.number (JsNumber.ofNat (n + 1)))) = some (n + 1) := by
  simp only [positiveRevision, JsNumber.safeInteger?_ofNat h]
  rw [if_pos (by omega), Int.toNat_natCast]

theorem currentRevision_ofNat {n : Nat} (h : n ≤ JsNumber.maxSafeInteger) :
    currentRevision (some (.number (JsNumber.ofNat n))) = .ok n := by
  simp only [currentRevision, JsNumber.safeInteger?_ofNat h]
  rw [if_pos (Int.natCast_nonneg n), Int.toNat_natCast]

theorem presentText_string {s : String} (h : s ≠ "") : presentText (some (.string s)) = some s := by
  simp [presentText, h]

theorem presentText_ne_empty {value : Option Json} {s : String} (h : presentText value = some s) :
    s ≠ "" := by
  unfold presentText at h
  split at h
  · split at h
    · cases h
    · rename_i present
      obtain rfl := Option.some.inj h
      exact present
  · cases h

namespace RevisionOrigin

/-- A first binding stands first and keeps its markers; a replaced digest is a digest. -/
def Kept (index : Nat) : RevisionOrigin → Prop
  | .firstBinding authority => index = 0 ∧ KeptMarkers authority
  | .replacement previous => isBareSha256 previous = true

def canonical : RevisionOrigin → RevisionOrigin
  | .firstBinding authority =>
    .firstBinding (canonicalEntries (authority.map fun f => (f.1, canonicalAuthorityJson f.2)))
  | .replacement previous => .replacement previous

@[simp] theorem previousDeclarationSha256_canonical (origin : RevisionOrigin) :
    origin.canonical.previousDeclarationSha256 = origin.previousDeclarationSha256 := by
  cases origin <;> rfl

@[simp] theorem isFirstBinding_canonical (origin : RevisionOrigin) :
    origin.canonical.isFirstBinding = origin.isFirstBinding := by
  cases origin <;> rfl

theorem Kept.canonical {index : Nat} {origin : RevisionOrigin} (h : origin.Kept index) :
    origin.canonical.Kept index := by
  cases origin with
  | firstBinding authority => exact ⟨h.1, h.2.canonical⟩
  | replacement previous => exact h

end RevisionOrigin

namespace RevisionReceipt

/-- What the reader has checked of the entry at one place. -/
structure Normal (host : HostText) (index : Nat) (receipt : RevisionReceipt) : Prop where
  revision : receipt.revision = index + 1
  counted : index + 1 ≤ JsNumber.maxSafeInteger
  operationId : IsStoreId receipt.operationId
  declaration : isBareSha256 receipt.declarationSha256 = true
  actor : ∀ label, normalizeTodoAgent host (some (.string receipt.actorAgentId)) label =
    .ok receipt.actorAgentId
  revisedAt : receipt.revisedAt ≠ ""
  origin : receipt.origin.Kept index

/-- The entry with its kept markers in canonical order. -/
def canonical (receipt : RevisionReceipt) : RevisionReceipt :=
  { receipt with origin := receipt.origin.canonical }

@[simp] theorem declarationSha256_canonical (receipt : RevisionReceipt) :
    receipt.canonical.declarationSha256 = receipt.declarationSha256 := rfl

@[simp] theorem previousDeclarationSha256_canonical (receipt : RevisionReceipt) :
    receipt.canonical.previousDeclarationSha256 = receipt.previousDeclarationSha256 :=
  receipt.origin.previousDeclarationSha256_canonical

theorem Normal.canonical {index : Nat} {receipt : RevisionReceipt}
    (h : receipt.Normal host index) : receipt.canonical.Normal host index :=
  { h with origin := h.origin.canonical }

theorem nodup_keys_fields (receipt : RevisionReceipt) : (keys receipt.fields).Nodup := by
  rcases receipt with ⟨origin, _, _, _, _, _⟩
  cases origin <;> simp [fields, keys, RevisionOrigin.authorityField]

end RevisionReceipt

private theorem optionalAuthority_kept {receipt : Fields} {authority : Option Fields}
    (h : optionalAuthority receipt = .ok authority) :
    isFirstBinding receipt = authority.isSome ∧ ∀ a ∈ authority, KeptMarkers a := by
  unfold optionalAuthority at h
  split at h
  · rename_i first
    obtain ⟨a, ha, h⟩ := bind_eq_ok.mp h
    obtain rfl := Except.ok.inj h
    obtain ⟨fields, hfields, ha⟩ := bind_eq_ok.mp ha
    obtain ⟨_, honly, ha⟩ := bind_eq_ok.mp ha
    obtain ⟨_, hunbound, ha⟩ := bind_eq_ok.mp ha
    obtain rfl := Except.ok.inj ha
    have unique : (keys fields).Nodup := by
      obtain ⟨raw, _, rfl⟩ := authorityFields_eq_ok.mp hfields
      exact Json.nodup_keys_fromEntries _
    obtain ⟨unbound, _⟩ := unboundValidationAuthority_eq_ok unique hunbound
    refine ⟨first, fun b hb => ?_⟩
    obtain rfl := Option.some.inj hb
    exact ⟨unique, not_not.mp (throwWhen_eq_ok.mp honly), unbound⟩
  · rename_i later
    obtain rfl := Except.ok.inj h
    exact ⟨by simpa using later, by simp⟩

private theorem receiptOrigin_kept {receipt : Fields} {authority : Option Fields} {index : Nat}
    {origin : RevisionOrigin} (markers : ∀ a ∈ authority, index = 0 ∧ KeptMarkers a)
    (h : receiptOrigin receipt authority = .ok origin) : origin.Kept index := by
  cases authority with
  | some a =>
    obtain rfl := Except.ok.inj h
    exact markers a rfl
  | none =>
    obtain ⟨previous, hprevious, h⟩ := bind_eq_ok.mp h
    obtain rfl := Except.ok.inj h
    exact (digest_eq_ok.1 hprevious).2

theorem normal_of_readReceipt (lower : LowerCase host) {index : Nat} {entry : Json}
    {receipt : RevisionReceipt} (h : readReceipt host index entry = .ok receipt) :
    receipt.Normal host index := by
  obtain ⟨fields, _, h⟩ := bind_eq_ok.mp h
  obtain ⟨_, hshape, h⟩ := bind_eq_ok.mp h
  obtain ⟨authority, hauthority, h⟩ := bind_eq_ok.mp h
  obtain ⟨operationId, hoperation, h⟩ := bind_eq_ok.mp h
  obtain ⟨origin, horigin, h⟩ := bind_eq_ok.mp h
  obtain ⟨declaration, hdeclaration, h⟩ := bind_eq_ok.mp h
  obtain ⟨actor, hactor, h⟩ := bind_eq_ok.mp h
  obtain rfl := Except.ok.inj h
  obtain ⟨_, _, first, revision, dated⟩ := not_not.mp (throwWhen_eq_ok.mp hshape)
  obtain ⟨binding, markers⟩ := optionalAuthority_kept hauthority
  obtain ⟨date, hdate⟩ := Option.ne_none_iff_exists'.mp dated
  refine ⟨rfl, le_of_positiveRevision revision, (requireAuthorityStoreId_eq_ok.mp hoperation).2,
    (digest_eq_ok.1 hdeclaration).2, normalizeTodoAgent_idem lower hactor, ?_, ?_⟩
  · rw [hdate]
    exact presentText_ne_empty hdate
  · refine receiptOrigin_kept (fun a ha => ⟨?_, markers a ha⟩) horigin
    rw [Option.mem_def.mp ha] at binding
    exact (first binding).1

/-! ## Reading a written entry back -/

private theorem reads_written {receipt : RevisionReceipt} {name : String} {fields : Fields}
    (h : authorityFields (some receipt.toJson) name = .ok fields) (key : String) :
    fields.lookup key = (receipt.fields.lookup key).map canonicalAuthorityJson :=
  lookup_of_authorityFields h receipt.nodup_keys_fields key

private theorem authorityFields_toJson (receipt : RevisionReceipt) (name : String) :
    ∃ fields, authorityFields (some receipt.toJson) name = .ok fields ∧
      ∀ key ∈ keys fields, key ∈ keys receipt.fields := by
  refine ⟨_, authorityFields_eq_ok.mpr ⟨receipt.fields, rfl, rfl⟩, fun key hkey => ?_⟩
  exact (Json.perm_keys_canonicalFields receipt.nodup_keys_fields).mem_iff.mp hkey

private theorem keys_fields (receipt : RevisionReceipt) :
    keys receipt.fields = receiptFields receipt.origin.isFirstBinding := by
  rcases receipt with ⟨origin, _, _, _, _, _⟩
  cases origin <;> rfl

private theorem isFirstBinding_written {receipt : RevisionReceipt} {fields : Fields}
    (reads : ∀ key, fields.lookup key = (receipt.fields.lookup key).map canonicalAuthorityJson) :
    isFirstBinding fields = receipt.origin.isFirstBinding := by
  rw [isFirstBinding, reads]
  rcases receipt with ⟨origin, _, _, _, _, _⟩
  cases origin with
  | firstBinding authority =>
    simp [RevisionReceipt.fields, RevisionOrigin.schemaVersion, canonicalAuthorityJson,
      RevisionOrigin.isFirstBinding]
  | replacement previous =>
    simp [RevisionReceipt.fields, RevisionOrigin.schemaVersion, canonicalAuthorityJson,
      RevisionOrigin.isFirstBinding, COMPLETION_VALIDATION_BINDING_RECEIPT_SCHEMA,
      COMPLETION_VALIDATION_REVISION_RECEIPT_SCHEMA]

private theorem canonicalReceipt_written {receipt : RevisionReceipt} {index : Nat}
    (normal : receipt.Normal host index) {fields : Fields}
    (within : ∀ key ∈ keys fields, key ∈ keys receipt.fields)
    (reads : ∀ key, fields.lookup key = (receipt.fields.lookup key).map canonicalAuthorityJson) :
    CanonicalReceipt index fields := by
  have binding := isFirstBinding_written reads
  refine ⟨?_, ?_, ?_, ?_, ?_⟩
  · rw [binding, ← keys_fields]
    exact within
  · rw [binding, reads]
    intro later
    rcases receipt with ⟨origin, _, _, _, _, _⟩
    cases origin with
    | firstBinding authority => cases later
    | replacement previous =>
      simp [RevisionReceipt.fields, RevisionOrigin.schemaVersion, canonicalAuthorityJson]
  · rw [binding, reads]
    intro first
    have origin := normal.origin
    rcases receipt with ⟨origin', _, _, _, _, _⟩
    cases origin' with
    | firstBinding authority =>
      refine ⟨origin.1, ?_⟩
      simp [RevisionReceipt.fields, RevisionReceipt.previousDeclarationSha256,
        RevisionOrigin.previousDeclarationSha256, optionalDigest, canonicalAuthorityJson,
        List.lookup_cons]
    | replacement previous => cases first
  · rw [reads]
    have counted := positiveRevision_succ normal.counted
    simpa [RevisionReceipt.fields, canonicalAuthorityJson, List.lookup_cons, normal.revision]
      using counted
  · rw [reads]
    have dated := presentText_string normal.revisedAt
    simp [RevisionReceipt.fields, canonicalAuthorityJson, List.lookup_cons, dated]

private theorem optionalAuthority_written {receipt : RevisionReceipt} {index : Nat}
    (normal : receipt.Normal host index) {fields : Fields}
    (reads : ∀ key, fields.lookup key = (receipt.fields.lookup key).map canonicalAuthorityJson) :
    ∃ authority, optionalAuthority fields = .ok authority ∧
      receiptOrigin fields authority = .ok receipt.origin.canonical := by
  have binding := isFirstBinding_written reads
  have kept := normal.origin
  rcases receipt with ⟨origin, _, _, _, _, _⟩
  cases origin with
  | firstBinding authority =>
    have markers : KeptMarkers authority := kept.2
    have stored : fields.lookup "previous_validation_authority" = some (.object
        (canonicalEntries (authority.map fun f => (f.1, canonicalAuthorityJson f.2)))) := by
      rw [reads]
      simp [RevisionReceipt.fields, RevisionOrigin.authorityField, canonicalAuthorityJson,
        List.lookup_cons]
    have fieldsRead : authorityFields (fields.lookup "previous_validation_authority")
        "previous validation authority" =
          .ok (canonicalEntries (authority.map fun f => (f.1, canonicalAuthorityJson f.2))) := by
      have same := Goals.authorityFields_canonical (some (.object authority))
        "previous validation authority"
      rw [Option.map_some, Json.canonicalAuthorityJson_object] at same
      rw [stored, same]
      exact authorityFields_eq_ok.mpr ⟨authority, rfl, rfl⟩
    have again := markers.canonical
    refine ⟨some (canonicalEntries (authority.map fun f => (f.1, canonicalAuthorityJson f.2))),
      ?_, rfl⟩
    rw [optionalAuthority, binding]
    simp only [RevisionOrigin.isFirstBinding, if_true, previousAuthority, fieldsRead, ok_bind,
      throwWhen_of_not (not_not.mpr again.only), unboundValidationAuthority,
      throwWhen_of_not (not_not.mpr again.unbound)]
  | replacement previous =>
    refine ⟨none, ?_, ?_⟩
    · rw [optionalAuthority, binding]
      rfl
    · have stored : fields.lookup "previous_declaration_sha256" = some (.string previous) := by
        rw [reads]
        simp [RevisionReceipt.fields, RevisionReceipt.previousDeclarationSha256,
          RevisionOrigin.previousDeclarationSha256, optionalDigest, canonicalAuthorityJson,
          List.lookup_cons]
      simp only [receiptOrigin, stored, digest_eq_ok.2 ⟨rfl, kept⟩, ok_bind]
      rfl

/-- A normal entry reads back as itself. -/
theorem readReceipt_toJson {receipt : RevisionReceipt} {index : Nat}
    (normal : receipt.Normal host index) :
    readReceipt host index receipt.toJson = .ok receipt.canonical := by
  obtain ⟨fields, hfields, within⟩ := authorityFields_toJson receipt
    ("completion validation revision history[" ++ index.repr ++ "]")
  have reads := reads_written hfields
  have shape := canonicalReceipt_written normal within reads
  obtain ⟨authority, hauthority, horigin⟩ := optionalAuthority_written normal reads
  have operation : fields.lookup "operation_id" = some (.string receipt.operationId) := by
    rw [reads]
    simp [RevisionReceipt.fields, canonicalAuthorityJson, List.lookup_cons]
  have declaration : fields.lookup "declaration_sha256" =
      some (.string receipt.declarationSha256) := by
    rw [reads]
    simp [RevisionReceipt.fields, canonicalAuthorityJson, List.lookup_cons]
  have actor : fields.lookup "actor_agent_id" = some (.string receipt.actorAgentId) := by
    rw [reads]
    simp [RevisionReceipt.fields, canonicalAuthorityJson, List.lookup_cons]
  have dated : presentText (fields.lookup "revised_at") = some receipt.revisedAt := by
    rw [reads]
    simpa [RevisionReceipt.fields, canonicalAuthorityJson, List.lookup_cons]
      using presentText_string normal.revisedAt
  simp only [readReceipt, hfields, ok_bind, throwWhen_of_not (not_not.mpr shape), hauthority,
    operation, requireAuthorityStoreId_eq_ok.mpr ⟨rfl, normal.operationId⟩, horigin, declaration,
    digest_eq_ok.2 ⟨rfl, normal.declaration⟩, actor, normal.actor, dated, Option.getD_some,
    RevisionReceipt.canonical, normal.revision]

/-- The entries of a history, each normal at its place. -/
def NormalFrom (host : HostText) : Nat → List RevisionReceipt → Prop
  | _, [] => True
  | index, receipt :: history => receipt.Normal host index ∧ NormalFrom host (index + 1) history

theorem normalFrom_append {index : Nat} {history later : List RevisionReceipt} :
    NormalFrom host index (history ++ later) ↔
      NormalFrom host index history ∧ NormalFrom host (index + history.length) later := by
  induction history generalizing index with
  | nil => simp [NormalFrom]
  | cons receipt history ih =>
    have place : index + 1 + history.length = index + (history.length + 1) := by omega
    simp only [List.cons_append, NormalFrom, ih, List.length_cons, and_assoc, place]

theorem NormalFrom.canonical {index : Nat} {history : List RevisionReceipt}
    (h : NormalFrom host index history) :
    NormalFrom host index (history.map RevisionReceipt.canonical) := by
  induction history generalizing index with
  | nil => trivial
  | cons receipt history ih => exact ⟨h.1.canonical, ih h.2⟩

theorem NormalFrom.get {index : Nat} {history : List RevisionReceipt}
    (h : NormalFrom host index history) {place : Nat} {receipt : RevisionReceipt}
    (at_place : history[place]? = some receipt) : receipt.Normal host (index + place) := by
  induction history generalizing index place with
  | nil => simp at at_place
  | cons first history ih =>
    cases place with
    | zero =>
      obtain rfl : first = receipt := by simpa using at_place
      exact h.1
    | succ place =>
      have rest := ih h.2 at_place
      rwa [Nat.add_assoc, Nat.add_comm 1 place] at rest

theorem normalFrom_of_readReceipts (lower : LowerCase host) {index : Nat} {entries : List Json}
    {history : List RevisionReceipt} (h : readReceipts host index entries = .ok history) :
    NormalFrom host index history ∧ entries.length = history.length := by
  induction entries generalizing index history with
  | nil =>
    obtain rfl := Except.ok.inj h
    exact ⟨trivial, rfl⟩
  | cons entry entries ih =>
    obtain ⟨receipt, hreceipt, h⟩ := bind_eq_ok.mp h
    obtain ⟨rest, hrest, h⟩ := bind_eq_ok.mp h
    obtain rfl := Except.ok.inj h
    obtain ⟨normal, length⟩ := ih hrest
    exact ⟨⟨normal_of_readReceipt lower hreceipt, normal⟩, by simp [length]⟩

theorem readReceipts_toJson {index : Nat} {history : List RevisionReceipt}
    (normal : NormalFrom host index history) :
    readReceipts host index (history.map RevisionReceipt.toJson) =
      .ok (history.map RevisionReceipt.canonical) := by
  induction history generalizing index with
  | nil => rfl
  | cons receipt history ih =>
    simp only [List.map_cons, readReceipts, readReceipt_toJson normal.1, ok_bind, ih normal.2]

/-! ## One accepted plan -/

/-- What an accepted history is. -/
theorem history_eq_ok (lower : LowerCase host) {value : Option Json} {prior : Nat}
    {current : Option String} {history : List RevisionReceipt}
    (h : completionValidationRevisionHistory host value prior current = .ok history) :
    NormalFrom host 0 history ∧ history.length = prior ∧ EndsIn history current ∧
      (value = none ∧ history = [] ∨
        ∃ entries, value = some (.array entries) ∧ entries.length = history.length) := by
  unfold completionValidationRevisionHistory at h
  split at h
  · rename_i entries
    obtain ⟨read, hread, h⟩ := bind_eq_ok.mp h
    obtain ⟨_, hmatch, h⟩ := bind_eq_ok.mp h
    obtain rfl := Except.ok.inj h
    obtain ⟨normal, length⟩ := normalFrom_of_readReceipts lower hread
    obtain ⟨count, ends⟩ := not_not.mp (throwWhen_eq_ok.mp hmatch)
    exact ⟨normal, count, ends, .inr ⟨entries, rfl, length⟩⟩
  · cases h
  · split at h
    · rename_i zero
      obtain rfl := Except.ok.inj h
      exact ⟨trivial, zero.symm, ⟨by simp, by simp⟩, .inl ⟨rfl, rfl⟩⟩
    · cases h

/-- A written history that ends in the current declaration reads back. -/
theorem history_toJson {history : List RevisionReceipt} {current : Option String}
    (normal : NormalFrom host 0 history) (ends : EndsIn history current) :
    completionValidationRevisionHistory host
      (some (.array (history.map RevisionReceipt.toJson))) history.length current =
        .ok (history.map RevisionReceipt.canonical) := by
  have endsCanonical : EndsIn (history.map RevisionReceipt.canonical) current := by
    refine ⟨?_, ?_⟩
    · rw [List.isChain_map]
      simpa using ends.1
    · intro last hlast
      rw [List.getLast?_map] at hlast
      obtain ⟨receipt, hreceipt, rfl⟩ := Option.map_eq_some_iff.mp hlast
      exact ends.2 receipt hreceipt
  simp only [completionValidationRevisionHistory, readReceipts_toJson normal, ok_bind]
  rw [throwWhen_of_not (not_not.mpr ⟨by simp, endsCanonical⟩), ok_bind]

/-- Everything an accepted plan says. -/
structure Planned (host : HostText) (sha : Sha256) (todo : Fields) (request : RevisionRequest)
    (plan : RevisionPlan) : Prop where
  schema : request.revision.schemaVersion = .binding ↔
    request.revision.expectedDeclarationSha256 = none
  origin : currentOrigin todo request.revision.schemaVersion = .ok plan.receipt.origin
  expected : plan.receipt.previousDeclarationSha256 = request.revision.expectedDeclarationSha256
  next : plan.receipt.declarationSha256 =
    canonicalAuthoritySha256 sha request.revision.declaration
  changed : plan.receipt.previousDeclarationSha256 ≠ some plan.receipt.declarationSha256
  actor : requireActor host request.actorAgentId = .ok plan.receipt.actorAgentId
  prior : currentRevision (todo.lookup "completion_validation_revision") = .ok plan.history.length
  history : completionValidationRevisionHistory host
    (todo.lookup "completion_validation_revision_history") plan.history.length
      plan.receipt.previousDeclarationSha256 = .ok plan.history
  revision : plan.receipt.revision = plan.history.length + 1
  operationId : IsStoreId plan.receipt.operationId
  revisedAt : plan.receipt.revisedAt = request.revisedAt
  fits : plan.history.length + 1 ≤ maxArrayLength

theorem plan_eq_ok (lower : LowerCase host) {sha : Sha256} {todo : Fields}
    {request : RevisionRequest} {plan : RevisionPlan}
    (h : planCompletionValidationRevision host sha todo request = .ok plan) :
    Planned host sha todo request plan := by
  obtain ⟨_, _, h⟩ := bind_eq_ok.mp h
  obtain ⟨_, hschema, h⟩ := bind_eq_ok.mp h
  obtain ⟨origin, horigin, h⟩ := bind_eq_ok.mp h
  obtain ⟨_, hexpected, h⟩ := bind_eq_ok.mp h
  obtain ⟨_, hchanged, h⟩ := bind_eq_ok.mp h
  obtain ⟨actor, hactor, h⟩ := bind_eq_ok.mp h
  obtain ⟨prior, hprior, h⟩ := bind_eq_ok.mp h
  obtain ⟨history, hhistory, h⟩ := bind_eq_ok.mp h
  obtain ⟨operationId, hoperation, h⟩ := bind_eq_ok.mp h
  obtain ⟨_, hfits, h⟩ := bind_eq_ok.mp h
  obtain rfl := Except.ok.inj h
  obtain ⟨_, rfl, _⟩ := history_eq_ok lower hhistory
  exact
    { schema := not_not.mp (throwWhen_eq_ok.mp hschema)
      origin := horigin
      expected := not_not.mp (throwWhen_eq_ok.mp hexpected)
      next := rfl
      changed := Ne.symm (throwWhen_eq_ok.mp hchanged)
      actor := hactor
      prior := hprior
      history := hhistory
      revision := rfl
      operationId := (requireAuthorityStoreId_eq_ok.mp hoperation).2
      revisedAt := rfl
      fits := not_lt.mp (throwWhen_eq_ok.mp hfits) }

private theorem currentOrigin_kept {todo : Fields} (unique : (keys todo).Nodup)
    {schema : RevisionSchema} {origin : RevisionOrigin} {prior : Nat}
    (h : currentOrigin todo schema = .ok origin)
    (count : currentRevision (todo.lookup "completion_validation_revision") = .ok prior) :
    origin.Kept prior := by
  cases schema with
  | binding =>
    obtain ⟨authority, hauthority, h⟩ := bind_eq_ok.mp h
    obtain rfl := Except.ok.inj h
    obtain ⟨unbound, kept⟩ := unboundValidationAuthority_eq_ok unique hauthority
    refine ⟨?_, kept⟩
    rcases unbound.revision with absent | zero
    · rw [absent] at count
      exact (Except.ok.inj count).symm
    · rw [zero, currentRevision_ofNat (Nat.zero_le _)] at count
      exact (Except.ok.inj count).symm
  | revision =>
    obtain ⟨_, _, h⟩ := bind_eq_ok.mp h
    obtain ⟨previous, hprevious, h⟩ := bind_eq_ok.mp h
    obtain rfl := Except.ok.inj h
    exact (digest_eq_ok.1 hprevious).2

/-- An accepted plan's receipt is normal behind the history it continues. -/
theorem Planned.normal (lower : LowerCase host) {sha : Sha256} {todo : Fields}
    {request : RevisionRequest} {plan : RevisionPlan} (unique : (keys todo).Nodup)
    (dated : request.revisedAt ≠ "") (h : Planned host sha todo request plan) :
    NormalFrom host 0 (plan.history ++ [plan.receipt]) := by
  obtain ⟨normal, _⟩ := history_eq_ok lower h.history
  have actor : ∀ label, normalizeTodoAgent host (some (.string plan.receipt.actorAgentId)) label =
      .ok plan.receipt.actorAgentId := by
    have normalized := h.actor
    unfold requireActor at normalized
    split at normalized
    · cases normalized
    · exact normalizeTodoAgent_idem lower normalized
  have limit : maxArrayLength ≤ JsNumber.maxSafeInteger := by decide
  rw [normalFrom_append, Nat.zero_add]
  refine ⟨normal, ?_, trivial⟩
  exact
    { revision := h.revision
      counted := h.fits.trans limit
      operationId := h.operationId
      declaration := by
        rw [h.next]
        exact sha.bare _
      actor := actor
      revisedAt := by
        rw [h.revisedAt]
        exact dated
      origin := currentOrigin_kept unique h.origin h.prior }

/-- The extended history ends in the digest that the plan stores. -/
theorem Planned.endsIn (lower : LowerCase host) {sha : Sha256} {todo : Fields}
    {request : RevisionRequest} {plan : RevisionPlan} (h : Planned host sha todo request plan) :
    EndsIn (plan.history ++ [plan.receipt]) (some plan.receipt.declarationSha256) := by
  obtain ⟨_, _, ⟨linked, last⟩, _⟩ := history_eq_ok lower h.history
  refine ⟨linked.append (List.isChain_singleton _) ?_, by simp⟩
  intro earlier hearlier later hlater
  obtain rfl : plan.receipt = later := by simpa using hlater
  exact (last earlier hearlier).symm

theorem nodup_keys_updates (plan : RevisionPlan) : (keys plan.updates).Nodup := by
  simp [RevisionPlan.updates, keys]

/-! ## Runs -/

/-- `completion_validation_sha256`, where there is one. -/
def currentDigest (todo : Fields) : Option String :=
  match todo.lookup "completion_validation_sha256" with
  | some (.string s) => some s
  | _ => none

def storedHistory (todo : Fields) : List Json :=
  match todo.lookup "completion_validation_revision_history" with
  | some (.array entries) => entries
  | _ => []

/-- A declaration that has not been revised: it may lack both revision markers or either. -/
structure Unrevised (todo : Fields) : Prop where
  required : todo.lookup "completion_validation_required" = some (.bool true)
  digest : ∃ s, todo.lookup "completion_validation_sha256" = some (.string s) ∧
    isBareSha256 s = true
  revision : todo.lookup "completion_validation_revision" = none ∨
    todo.lookup "completion_validation_revision" = some (.number (JsNumber.ofNat 0))
  history : todo.lookup "completion_validation_revision_history" = none ∨
    todo.lookup "completion_validation_revision_history" = some (.array [])

/-- The history of a Todo: its count, its reading, and how its entries hang together. -/
structure UnbrokenChain (host : HostText) (todo : Fields) (history : List RevisionReceipt) :
    Prop where
  count : currentRevision (todo.lookup "completion_validation_revision") = .ok history.length
  stored : (storedHistory todo).length = history.length
  accepted : completionValidationRevisionHistory host
    (todo.lookup "completion_validation_revision_history") history.length (currentDigest todo) =
      .ok history
  linked : history.IsChain fun earlier later =>
    later.previousDeclarationSha256 = some earlier.declarationSha256 ∧
      later.declarationSha256 ≠ earlier.declarationSha256
  changed : ∀ receipt ∈ history,
    receipt.previousDeclarationSha256 ≠ some receipt.declarationSha256
  firstBinding : ∀ place receipt, history[place]? = some receipt →
    receipt.origin.isFirstBinding = true → place = 0

private theorem unbrokenChain_nil {todo : Fields}
    (revision : todo.lookup "completion_validation_revision" = none ∨
      todo.lookup "completion_validation_revision" = some (.number (JsNumber.ofNat 0)))
    (history : todo.lookup "completion_validation_revision_history" = none ∨
      todo.lookup "completion_validation_revision_history" = some (.array [])) :
    UnbrokenChain host todo [] where
  count := by
    rcases revision with absent | zero
    · rw [absent]
      rfl
    · rw [zero, currentRevision_ofNat (Nat.zero_le _)]
      rfl
  stored := by
    rcases history with absent | empty
    · rw [storedHistory, absent]
      rfl
    · rw [storedHistory, empty]
      rfl
  accepted := by
    rcases history with absent | empty
    · rw [absent]
      rfl
    · rw [empty]
      exact @history_toJson host [] _ trivial ⟨by simp, by simp⟩
  linked := List.isChain_nil
  changed := by simp
  firstBinding := by simp

theorem unbrokenChain_start {todo : Fields} (start : Unbound todo ∨ Unrevised todo) :
    UnbrokenChain host todo [] := by
  rcases start with unbound | unrevised
  · exact unbrokenChain_nil unbound.revision unbound.history
  · exact unbrokenChain_nil unrevised.revision unrevised.history

private theorem currentDigest_of_origin {todo : Fields} {schema : RevisionSchema}
    {origin : RevisionOrigin} (h : currentOrigin todo schema = .ok origin) :
    origin.previousDeclarationSha256 = currentDigest todo := by
  cases schema with
  | binding =>
    obtain ⟨authority, hauthority, h⟩ := bind_eq_ok.mp h
    obtain rfl := Except.ok.inj h
    obtain ⟨_, hunbound, _⟩ := bind_eq_ok.mp hauthority
    have unbound : Unbound todo := not_not.mp (throwWhen_eq_ok.mp hunbound)
    rw [currentDigest, unbound.digest]
    rfl
  | revision =>
    obtain ⟨_, _, h⟩ := bind_eq_ok.mp h
    obtain ⟨previous, hprevious, h⟩ := bind_eq_ok.mp h
    obtain rfl := Except.ok.inj h
    rw [currentDigest, (digest_eq_ok.1 hprevious).1]
    rfl

/-- A plan over a chain has read that chain. -/
theorem Planned.reads_chain {sha : Sha256} {todo : Fields} {request : RevisionRequest}
    {plan : RevisionPlan} {history : List RevisionReceipt}
    (h : Planned host sha todo request plan) (chain : UnbrokenChain host todo history) :
    plan.history = history := by
  have count : plan.history.length = history.length :=
    Except.ok.inj (h.prior.symm.trans chain.count)
  have read := h.history
  rw [count, RevisionReceipt.previousDeclarationSha256, currentDigest_of_origin h.origin,
    chain.accepted] at read
  exact (Except.ok.inj read).symm

/-- One accepted revision extends the chain by its receipt. -/
theorem Planned.extends_chain (lower : LowerCase host) {sha : Sha256} {todo : Fields}
    {request : RevisionRequest} {plan : RevisionPlan} {history : List RevisionReceipt}
    (h : Planned host sha todo request plan) (unique : (keys todo).Nodup)
    (dated : request.revisedAt ≠ "") (chain : UnbrokenChain host todo history) :
    UnbrokenChain host (merge todo plan.updates)
      ((history ++ [plan.receipt]).map RevisionReceipt.canonical) := by
  obtain rfl := h.reads_chain chain
  have reads := lookup_merge (nodup_keys_updates plan) todo
  have revision : (merge todo plan.updates).lookup "completion_validation_revision" =
      some (.number (JsNumber.ofNat (plan.history.length + 1))) := by
    rw [reads]
    simp [RevisionPlan.updates, List.lookup_cons, h.revision]
  have current : currentDigest (merge todo plan.updates) =
      some plan.receipt.declarationSha256 := by
    rw [currentDigest, reads]
    simp [RevisionPlan.updates, List.lookup_cons]
  have stored : (merge todo plan.updates).lookup "completion_validation_revision_history" =
      some (.array ((plan.history ++ [plan.receipt]).map RevisionReceipt.toJson)) := by
    rw [reads]
    simp [RevisionPlan.updates, List.lookup_cons]
  have normal := h.normal lower unique dated
  have counted : plan.history.length + 1 ≤ JsNumber.maxSafeInteger :=
    h.fits.trans (by decide)
  have ends := h.endsIn lower
  have changed : ∀ receipt ∈ plan.history ++ [plan.receipt],
      receipt.previousDeclarationSha256 ≠ some receipt.declarationSha256 := by
    intro receipt hreceipt
    rcases List.mem_append.mp hreceipt with earlier | last
    · exact chain.changed receipt earlier
    · obtain rfl : receipt = plan.receipt := by simpa using last
      exact h.changed
  constructor
  · rw [revision, currentRevision_ofNat counted]
    simp
  · rw [storedHistory, stored]
    simp
  · rw [stored, current, List.length_map]
    exact history_toJson normal ends
  · rw [List.isChain_map]
    refine ends.1.imp_of_mem_imp fun earlier later hlater hearlier link => ?_
    simp only [RevisionReceipt.previousDeclarationSha256_canonical,
      RevisionReceipt.declarationSha256_canonical]
    exact ⟨link, fun same => changed later hearlier (link.trans (congrArg some same.symm))⟩
  · intro receipt hreceipt
    obtain ⟨original, horiginal, rfl⟩ := List.mem_map.mp hreceipt
    simpa using changed original horiginal
  · intro place receipt hplace first
    have kept := (normal.canonical.get hplace).origin
    rcases receipt with ⟨origin, _, _, _, _, _⟩
    cases origin with
    | firstBinding authority => simpa using kept.1
    | replacement previous => cases first

/-- Every run of revisions, accepted or refused, leaves a chain. -/
theorem unbrokenChain_run (lower : LowerCase host) (sha : Sha256) {todo : Fields}
    {history : List RevisionReceipt} (unique : (keys todo).Nodup)
    (chain : UnbrokenChain host todo history) (requests : List RevisionRequest)
    (dated : ∀ request ∈ requests, request.revisedAt ≠ "") :
    ∃ history, UnbrokenChain host (requests.foldl (revise host sha) todo) history := by
  induction requests generalizing todo history with
  | nil => exact ⟨history, chain⟩
  | cons request requests ih =>
    have rest := fun r hr => dated r (List.mem_cons_of_mem request hr)
    rw [List.foldl_cons]
    unfold revise
    split
    · rename_i plan hplan
      have planned := plan_eq_ok lower hplan
      exact ih (nodup_keys_merge unique plan.updates)
        (planned.extends_chain lower unique (dated request (by simp)) chain) rest
    · exact ih unique chain rest

/-- Once a revision is merged, another one that expects the same declaration is refused. -/
theorem Planned.refuses_concurrent (lower : LowerCase host) {sha : Sha256} {todo : Fields}
    {first second : RevisionRequest} {plan : RevisionPlan}
    (h : Planned host sha todo first plan)
    (same : second.revision.expectedDeclarationSha256 = first.revision.expectedDeclarationSha256) :
    ∃ reason, planCompletionValidationRevision host sha (merge todo plan.updates) second =
      .error reason := by
  have bound : (merge todo plan.updates).lookup "completion_validation_sha256" =
      some (.string plan.receipt.declarationSha256) := by
    rw [lookup_merge (nodup_keys_updates plan)]
    simp [RevisionPlan.updates, List.lookup_cons]
  cases hsecond : planCompletionValidationRevision host sha (merge todo plan.updates) second with
  | error reason => exact ⟨reason, rfl⟩
  | ok other =>
    have planned := plan_eq_ok lower hsecond
    have found := currentDigest_of_origin planned.origin
    rw [currentDigest, bound] at found
    have expected := planned.expected.trans (same.trans h.expected.symm)
    exact absurd (expected.symm.trans found) h.changed

/-- The revision history of a Todo is an unbroken chain after every run of requests, and of two
revisions planned from one declaration only one can be merged. -/
theorem revisionHistory_unbroken (lower : LowerCase host) (sha : Sha256) {todo : Fields}
    (unique : (keys todo).Nodup) (start : Unbound todo ∨ Unrevised todo)
    (requests : List RevisionRequest)
    (dated : ∀ request ∈ requests, request.revisedAt ≠ "") :
    (∃ history, UnbrokenChain host (requests.foldl (revise host sha) todo) history) ∧
    ∀ first second plan,
      planCompletionValidationRevision host sha (requests.foldl (revise host sha) todo) first =
        .ok plan →
      second.revision.expectedDeclarationSha256 = first.revision.expectedDeclarationSha256 →
      ∃ reason, planCompletionValidationRevision host sha
        (merge (requests.foldl (revise host sha) todo) plan.updates) second = .error reason :=
  ⟨unbrokenChain_run lower sha unique (unbrokenChain_start start) requests dated,
    fun _ _ _ planned same => (plan_eq_ok lower planned).refuses_concurrent lower same⟩

/-- An open Todo without a declaration. -/
def openTodo : Fields :=
  [("todo_id", .string "todo_target"), ("status", .string "open"), ("done", .bool false),
    ("archive_state", .string "active"), ("completion_validation_required", .bool false)]

def bindRequest (operationId argument : String) : RevisionRequest where
  revision :=
    { schemaVersion := .binding
      expectedDeclarationSha256 := none
      declaration := .object [("validation_command_argv", .array [.string argument])] }
  actorAgentId := some "Agent A"
  operationId := operationId
  revisedAt := "2026-09-27T00:00:00Z"

theorem revisionHistory_unbroken_bind :
    (∃ history, UnbrokenChain asciiResume.toHostText
      ([bindRequest "bind" "false", bindRequest "again" "true"].foldl
        (revise asciiResume.toHostText Sha256.node) openTodo) history) ∧
    ∀ first second plan,
      planCompletionValidationRevision asciiResume.toHostText Sha256.node
        ([bindRequest "bind" "false", bindRequest "again" "true"].foldl
          (revise asciiResume.toHostText Sha256.node) openTodo) first = .ok plan →
      second.revision.expectedDeclarationSha256 = first.revision.expectedDeclarationSha256 →
      ∃ reason, planCompletionValidationRevision asciiResume.toHostText Sha256.node
        (merge ([bindRequest "bind" "false", bindRequest "again" "true"].foldl
          (revise asciiResume.toHostText Sha256.node) openTodo) plan.updates) second =
            .error reason :=
  revisionHistory_unbroken lowerCase_asciiResume Sha256.node (by decide) (.inl (by decide)) _
    (by decide)

/-- The first of two first bindings is merged. -/
example : currentRevision ((revise asciiResume.toHostText Sha256.node openTodo
    (bindRequest "bind" "false")).lookup "completion_validation_revision") = .ok 1 := by
  decide +kernel

end Loopx.Todos.Validation
