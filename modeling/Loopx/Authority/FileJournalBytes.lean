/- GID: Loopx/Authority/FileJournalBytes
   generality: I
   source: loopx/control_plane/coordination/file_authority_journal.ts
   digest: The published bytes of a journal and what reading them back yields. -/

import Loopx.Authority.FileJournalRoundTrip

set_option autoImplicit false
set_option relaxedAutoImplicit false

namespace Loopx.Authority

open Loopx.Lib.KeyedList
open Loopx.Lib.Fallible (ok_bind bind_eq_ok)
open Loopx.Json (Protocol OwnOrdered canonicalAuthorityJson canonicalAuthorityBytes Canonical
  canonicalEntries ownOrdered_literal)

/-- `FileAuthorityJournal.decode(JSON.parse(raw.toString("utf8")))`. The bytes of this store are
always UTF-8; others count as unreadable text. -/
def decodeBytes (raw : ByteArray) (goal identity : String) (revisionFor : JournalRevision) :
    Protocol FileAuthorityJournal :=
  match (String.fromUTF8? raw).bind Json.parse with
  | none => .error "file authority store JSON is invalid"
  | some value => FileAuthorityJournal.decode value goal identity revisionFor

section KeyOrder

variable {revisionFor : JournalRevision}

private theorem string_canonical_iff {value : Option Json} {s : String} :
    value.map canonicalAuthorityJson = some (.string s) ↔ value = some (.string s) := by
  rcases value with _ | v
  · simp
  · cases v <;> simp [canonicalAuthorityJson]

private theorem storedState_canonical {value : Option Json} (ordered : ∀ v ∈ value, OwnOrdered v)
    (cursor : Nat) :
    storedState (value.map canonicalAuthorityJson) cursor = storedState value cursor := by
  rcases value with _ | v
  · rfl
  · have hv := ordered v rfl
    cases v with
    | object fields =>
      have nodup := hv.nodup
      simp only [Option.map_some, Json.canonicalAuthorityJson_object, storedState,
        Json.lookup_canonicalFields nodup, hasExactAuthorityKeys_canonical nodup,
        canonicalAuthorityObject_canonical, ne_eq, string_canonical_iff]
      have hdelta : decodeAuthorityStateDelta
          (((fields.lookup "delta").map canonicalAuthorityJson).getD .null) =
            decodeAuthorityStateDelta ((fields.lookup "delta").getD .null) := by
        cases hl : fields.lookup "delta" with
        | none => rfl
        | some d => exact decodeAuthorityStateDelta_canonical (hv.lookup hl)
      rw [hdelta]
    | _ => simp [storedState, canonicalAuthorityJson]

/-- The wire decoder reads fields by name and canonicalizes what it keeps. -/
private theorem decodeAuthorityTransaction_congr {fields fields' : List (String × Json)}
    (sameKeys : (keys fields).Perm (keys fields'))
    (sameValues : ∀ k, fields.lookup k = (fields'.lookup k).map canonicalAuthorityJson) :
    decodeAuthorityTransaction (.object fields) = decodeAuthorityTransaction (.object fields') := by
  have hkeys : ∀ expected, hasExactAuthorityKeys fields expected =
      hasExactAuthorityKeys fields' expected := by
    intro expected
    rw [hasExactAuthorityKeys, hasExactAuthorityKeys, Json.sortKeys_eq_iff.mpr sameKeys]
  simp only [decodeAuthorityTransaction, hkeys, sameValues, requireAuthorityStoreId_canonical,
    canonicalAuthorityObjectList_canonical, canonicalAuthorityObject_canonical]

private theorem keys_eraseKey (fields : List (String × Json)) (key : String) :
    keys (eraseKey fields key) = (keys fields).filter (fun k => k ≠ key) := by
  simp only [keys, eraseKey, List.filter_map]
  rfl

private theorem perm_keys_setKey {fields fields' : List (String × Json)} (key : String)
    (value value' : Json) (perm : (keys fields).Perm (keys fields')) (nodup : (keys fields).Nodup) :
    (keys (setKey fields key value)).Perm (keys (setKey fields' key value')) := by
  have nodup' : (keys fields').Nodup := perm.nodup_iff.mp nodup
  refine (List.perm_ext_iff_of_nodup (nodup_keys_setKey nodup key value)
    (nodup_keys_setKey nodup' key value')).mpr ?_
  intro k
  rw [mem_keys_setKey, mem_keys_setKey, perm.mem_iff]

private theorem decodeRow_canonical {raw : Json} (ordered : OwnOrdered raw) (index : Nat)
    (s : DecodeState) :
    decodeRow revisionFor index (canonicalAuthorityJson raw) s =
      decodeRow revisionFor index raw s := by
  cases raw with
  | object fields =>
    have nodup := ordered.nodup
    have hstate := storedState_canonical (show ∀ v ∈ fields.lookup "state", OwnOrdered v from
      fun v hv => ordered.lookup hv) (index + 1)
    rw [← Json.lookup_canonicalFields nodup] at hstate
    have perm := Json.perm_keys_canonicalFields nodup
    have nodup' := perm.nodup_iff.mpr nodup
    have hwire : decodeAuthorityTransaction (.object (setKey (eraseKey (canonicalEntries
        (fields.map (fun f => (f.1, canonicalAuthorityJson f.2)))) "state") "projection"
          (.object []))) =
        decodeAuthorityTransaction (.object (setKey (eraseKey fields "state") "projection"
          (.object []))) := by
      refine decodeAuthorityTransaction_congr ?_ ?_
      · refine perm_keys_setKey _ _ _ ?_ (nodup_keys_eraseKey nodup' _)
        rw [keys_eraseKey, keys_eraseKey]
        exact perm.filter _
      · intro k
        rw [lookup_setKey, lookup_setKey, lookup_eraseKey, lookup_eraseKey,
          Json.lookup_canonicalFields nodup]
        split
        · rfl
        · split
          · rfl
          · rfl
    simp only [Json.canonicalAuthorityJson_object, decodeRow,
      hasExactAuthorityKeys_canonical nodup, hstate, hwire]
  | _ => simp [decodeRow, canonicalAuthorityJson]

variable (revisionFor) in
private theorem decodeRows_canonical {raws : List Json} (ordered : ∀ raw ∈ raws, OwnOrdered raw)
    (index : Nat) (s : DecodeState) :
    decodeRows revisionFor index (raws.map canonicalAuthorityJson) s =
      decodeRows revisionFor index raws s := by
  induction raws generalizing index s with
  | nil => rfl
  | cons raw raws ih =>
    rw [List.map_cons, decodeRows, decodeRows, decodeRow_canonical (ordered raw (by simp))]
    congr 1
    funext s
    exact ih (fun r hr => ordered r (by simp [hr])) (index + 1) s

variable (revisionFor) in
private theorem decodeCommitted_canonical {committed : Option Json}
    (ordered : ∀ v ∈ committed, OwnOrdered v) (goal identity cursor revision : String)
    (head : Json) :
    FileAuthorityJournal.decodeCommitted revisionFor goal identity cursor revision head
        (committed.map canonicalAuthorityJson) =
      FileAuthorityJournal.decodeCommitted revisionFor goal identity cursor revision head
        committed := by
  rcases committed with _ | v
  · rfl
  · cases v with
    | array raws =>
      have each := (Json.ownOrdered_array raws).mp (ordered _ rfl)
      cases raws with
      | nil => simp [canonicalAuthorityJson]
      | cons raw raws =>
        have hrows := decodeRows_canonical revisionFor each 0
          ⟨[], [], none, none, none⟩
        rw [List.map_cons] at hrows
        rw [Option.map_some, Json.canonicalAuthorityJson_array, List.map_cons,
          FileAuthorityJournal.decodeCommitted, FileAuthorityJournal.decodeCommitted, hrows,
          List.length_cons, List.length_map, List.length_cons]
    | _ => simp [FileAuthorityJournal.decodeCommitted, canonicalAuthorityJson]

/-- Decoding does not see the key order of the document. -/
theorem FileAuthorityJournal.decode_canonical {value : Json} (ordered : OwnOrdered value)
    (goal identity : String) :
    FileAuthorityJournal.decode (canonicalAuthorityJson value) goal identity revisionFor =
      FileAuthorityJournal.decode value goal identity revisionFor := by
  cases value with
  | object fields =>
    have nodup := ordered.nodup
    have hcommitted := fun cursor revision head => decodeCommitted_canonical
      revisionFor (show ∀ v ∈ fields.lookup "committed", OwnOrdered v from
        fun v hv => ordered.lookup hv) goal identity cursor revision head
    simp only [Json.canonicalAuthorityJson_object, FileAuthorityJournal.decode,
      hasExactAuthorityKeys_canonical nodup, Json.lookup_canonicalFields nodup, ne_eq,
      string_canonical_iff, requireAuthorityStoreId_canonical, canonicalAuthorityObject_canonical,
      hcommitted]
  | _ => simp [FileAuthorityJournal.decode, canonicalAuthorityJson]

end KeyOrder

section Published

variable {revisionFor : JournalRevision}

private theorem ownOrdered_objects {items : List Json} (h : ∀ v ∈ items, CanonicalObject v) :
    OwnOrdered (.array items) :=
  (Json.ownOrdered_array items).mpr (fun v hv => (h v hv).2.ownOrdered)

private theorem ownOrdered_row {index : Nat} {previous : Option Json}
    {previousRevision : Option String} {entry : JournalEntry}
    (follows : entry.Follows revisionFor index previous previousRevision) :
    OwnOrdered entry.row.toJson := by
  have hstate : OwnOrdered entry.state.toJson := by
    have stands := follows.state
    cases hs : entry.state with
    | checkpoint stored =>
      rw [hs] at stands
      obtain ⟨-, rfl⟩ := stands
      refine ownOrdered_literal ["kind", "projection"] rfl (by decide) (by decide) ?_
      simp only [List.forall_mem_cons]
      exact ⟨trivial, follows.lawful.projection.2.ownOrdered, by simp⟩
    | delta change =>
      rw [hs] at stands
      refine ownOrdered_literal ["kind", "delta"] rfl (by decide) (by decide) ?_
      simp only [List.forall_mem_cons]
      exact ⟨trivial, ownOrdered_delta stands.2.1, by simp⟩
  refine ownOrdered_literal ROW_KEYS rfl (by decide) (by decide) ?_
  simp only [StoredCommit.fields, List.forall_mem_cons]
  exact ⟨trivial, trivial, trivial, ownOrdered_objects follows.lawful.events,
    ownOrdered_objects follows.lawful.receipts, hstate, by simp⟩

private theorem ownOrdered_rows {index : Nat} {previous : Option Json}
    {previousRevision : Option String} {entries : List JournalEntry}
    (lineage : Lineage revisionFor index previous previousRevision entries) :
    ∀ entry ∈ entries, OwnOrdered entry.row.toJson := by
  induction entries generalizing index previous previousRevision with
  | nil => simp
  | cons entry entries ih =>
    intro e he
    rcases List.mem_cons.mp he with rfl | he
    · exact ownOrdered_row lineage.1
    · exact ih lineage.2 e he

private theorem ownOrdered_toDocument {journal : FileAuthorityJournal}
    {entries : List JournalEntry} (h : journal.Verified revisionFor entries) :
    OwnOrdered journal.toDocument := by
  obtain ⟨init, last, -, follows, -, -, hhead⟩ := h.exists_last
  refine ownOrdered_literal HEADER_KEYS rfl (by decide) (by decide) ?_
  simp only [List.forall_mem_cons, Json.ownOrdered_array]
  refine ⟨trivial, trivial, trivial, trivial, trivial, ?_, ?_, by simp⟩
  · rw [hhead]
    exact follows.lawful.projection.2.ownOrdered
  · intro v hv
    rw [h.rows, List.map_map] at hv
    obtain ⟨entry, hentry, rfl⟩ := List.mem_map.mp hv
    exact ownOrdered_rows h.lineage entry hentry

/-- `canonicalAuthorityBytes(document.toDocument())`. -/
def FileAuthorityJournal.bytes (journal : FileAuthorityJournal) : ByteArray :=
  canonicalAuthorityBytes journal.toDocument

/-- What a verified journal publishes, every reader of its goal and store reads back. -/
theorem FileAuthorityJournal.decodeBytes_bytes {journal : FileAuthorityJournal}
    {entries : List JournalEntry} (h : journal.Verified revisionFor entries) :
    decodeBytes journal.bytes journal.goalId journal.storeIdentity revisionFor = .ok journal := by
  rw [decodeBytes, bytes, Json.parse_canonicalAuthorityBytes]
  exact (decode_canonical (ownOrdered_toDocument h) _ _).trans (decode_toDocument h)

end Published

end Loopx.Authority
