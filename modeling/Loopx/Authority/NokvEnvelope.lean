/- GID: Loopx/Authority/NokvEnvelope
   generality: I
   source: loopx/control_plane/coordination/nokv_authority_store.ts
   digest: What a decoded NoKV envelope proves, and that published envelopes read back unchanged. -/

import Loopx.Authority.NokvStore
import Loopx.Authority.StoreLog

set_option autoImplicit false
set_option relaxedAutoImplicit false

namespace Loopx.Authority

open Loopx.Lib.KeyedList
open Loopx.Lib.Fallible (ok_bind bind_eq_ok)
open Loopx.Json (JsNumber Protocol canonicalAuthorityJson canonicalAuthorityBytes)

/-- The parts of a transaction are held in canonical form. -/
structure AuthorityStoreCommittedTransaction.Plain (entry : AuthorityStoreCommittedTransaction) :
    Prop where
  events : ∀ v ∈ entry.events, CanonicalObject v
  projection : CanonicalObject entry.projection
  receipts : ∀ v ∈ entry.receipts, CanonicalObject v

/-- An envelope whose generation, cursor and journal are in step. -/
structure NokvAuthorityStoreDocument.Lawful (store : NokvAuthorityStore)
    (document : NokvAuthorityStoreDocument) : Prop where
  tenant : document.tenantId = store.tenantId
  goal : document.goalId = store.goalId
  entries : ∀ entry ∈ document.committed, entry.Plain
  generation : document.storageGeneration = document.committed.length
  cursor : document.cursor = document.committed.length.repr
  contiguous : Contiguous document.committed
  unique : (document.committed.map (fun entry => entry.operationId)).Nodup
  revision : document.committed.getLast?.map (fun entry => entry.providerRevision) =
    some document.providerRevision
  head : CanonicalObject document.head

section Entries

private theorem canonical_array {items : List Json} (h : ∀ v ∈ items, CanonicalObject v) :
    canonicalAuthorityJson (.array items) = .array items := by
  rw [Json.canonicalAuthorityJson_array]
  congr 1
  conv_rhs => rw [← List.map_id items]
  exact List.map_congr_left (fun v hv => (h v hv).2)

private theorem nodup_transactionKeys (entry : AuthorityStoreCommittedTransaction) :
    (keys [("cursor", Json.string entry.cursor), ("operation_id", .string entry.operationId),
      ("events", .array entry.events), ("projection", entry.projection),
      ("receipts", .array entry.receipts),
      ("provider_revision", .string entry.providerRevision)]).Nodup := by
  simp [keys]

/-- A transaction is determined by its canonical bytes. -/
theorem transaction_eq_of_bytes {a b : AuthorityStoreCommittedTransaction} (ha : a.Plain)
    (hb : b.Plain) (same : canonicalAuthorityBytes a.toJson = canonicalAuthorityBytes b.toJson) :
    a = b := by
  rw [Json.canonicalAuthorityBytes_eq_iff] at same
  have each := Json.lookup_of_canonical_eq (nodup_transactionKeys a) (nodup_transactionKeys b) same
  have hcursor : a.cursor = b.cursor := by
    simpa [lookup_cons_ite, canonicalAuthorityJson] using each "cursor"
  have hoperation : a.operationId = b.operationId := by
    simpa [lookup_cons_ite, canonicalAuthorityJson] using each "operation_id"
  have hrevision : a.providerRevision = b.providerRevision := by
    simpa [lookup_cons_ite, canonicalAuthorityJson] using each "provider_revision"
  have hevents : a.events = b.events := by
    simpa [lookup_cons_ite, canonical_array ha.events, canonical_array hb.events]
      using each "events"
  have hreceipts : a.receipts = b.receipts := by
    simpa [lookup_cons_ite, canonical_array ha.receipts, canonical_array hb.receipts]
      using each "receipts"
  have hprojection : a.projection = b.projection := by
    have h := each "projection"
    simp only [lookup_cons_ite] at h
    simpa [show canonicalAuthorityJson a.projection = a.projection from ha.projection.2,
      show canonicalAuthorityJson b.projection = b.projection from hb.projection.2] using h
  obtain ⟨⟨cursor, revision, operation, events, receipts⟩, projection⟩ := a
  simp only at hcursor hoperation hrevision hevents hreceipts hprojection
  subst hcursor hoperation hrevision hevents hreceipts hprojection
  rfl

theorem plain_of_decode {value : Json} {entry : AuthorityStoreCommittedTransaction}
    (h : decodeAuthorityTransaction value = .ok entry) : entry.Plain := by
  cases value with
  | object fields =>
    simp only [decodeAuthorityTransaction] at h
    split at h
    · obtain ⟨cursor, -, h⟩ := bind_eq_ok.mp h
      obtain ⟨-, -, h⟩ := bind_eq_ok.mp h
      obtain ⟨revision, -, h⟩ := bind_eq_ok.mp h
      obtain ⟨operation, -, h⟩ := bind_eq_ok.mp h
      obtain ⟨events, hevents, h⟩ := bind_eq_ok.mp h
      obtain ⟨projection, hprojection, h⟩ := bind_eq_ok.mp h
      obtain ⟨receipts, hreceipts, h⟩ := bind_eq_ok.mp h
      obtain rfl := Except.ok.inj h
      exact ⟨canonicalObjects_of_ok hevents, canonicalObject_of_ok hprojection,
        canonicalObjects_of_ok hreceipts⟩
    · simp at h
  | _ => simp [decodeAuthorityTransaction] at h

/-- An entry that reads back at all reads back as it was. -/
private theorem decode_toJson {entry read : AuthorityStoreCommittedTransaction} (plain : entry.Plain)
    (h : decodeAuthorityTransaction (canonicalAuthorityJson entry.toJson) = .ok read) :
    read = entry := by
  have nodup := nodup_transactionKeys entry
  rw [AuthorityStoreCommittedTransaction.toJson, Json.canonicalAuthorityJson_object] at h
  simp only [decodeAuthorityTransaction, Json.lookup_canonicalFields nodup,
    requireAuthorityStoreId_canonical, canonicalAuthorityObjectList_canonical,
    canonicalAuthorityObject_canonical] at h
  simp only [lookup_cons_ite, String.reduceEq, if_true, if_false,
    canonicalAuthorityObjectList_of_canonical plain.events,
    canonicalAuthorityObjectList_of_canonical plain.receipts,
    canonicalAuthorityObject_of_canonical plain.projection, ok_bind] at h
  split at h
  · obtain ⟨cursor, hcursor, h⟩ := bind_eq_ok.mp h
    obtain ⟨-, -, h⟩ := bind_eq_ok.mp h
    obtain ⟨revision, hrevision, h⟩ := bind_eq_ok.mp h
    obtain ⟨operation, hoperation, h⟩ := bind_eq_ok.mp h
    obtain rfl := Except.ok.inj h
    have h1 := (requireAuthorityStoreId_eq_ok.mp hcursor).1
    have h2 := (requireAuthorityStoreId_eq_ok.mp hrevision).1
    have h3 := (requireAuthorityStoreId_eq_ok.mp hoperation).1
    simp only [Option.some.injEq, Json.string.injEq] at h1 h2 h3
    subst h1 h2 h3
    rfl
  · simp at h

theorem plain_of_decodeTransactions {values : List Json}
    {entries : List AuthorityStoreCommittedTransaction}
    (h : decodeTransactions values = .ok entries) :
    entries.length = values.length ∧ ∀ entry ∈ entries, entry.Plain := by
  induction values generalizing entries with
  | nil =>
    obtain rfl := Except.ok.inj h
    simp
  | cons value values ih =>
    obtain ⟨entry, hentry, h⟩ := bind_eq_ok.mp h
    obtain ⟨rest, hrest, h⟩ := bind_eq_ok.mp h
    obtain rfl := Except.ok.inj h
    obtain ⟨hlength, hplain⟩ := ih hrest
    refine ⟨by simp [hlength], ?_⟩
    intro e he
    rcases List.mem_cons.mp he with rfl | he
    · exact plain_of_decode hentry
    · exact hplain e he

private theorem decodeTransactions_toJson {entries read : List AuthorityStoreCommittedTransaction}
    (plain : ∀ entry ∈ entries, entry.Plain)
    (h : decodeTransactions ((entries.map AuthorityStoreCommittedTransaction.toJson).map
      canonicalAuthorityJson) = .ok read) : read = entries := by
  induction entries generalizing read with
  | nil => exact (Except.ok.inj h).symm
  | cons entry entries ih =>
    obtain ⟨first, hfirst, h⟩ := bind_eq_ok.mp h
    obtain ⟨rest, hrest, h⟩ := bind_eq_ok.mp h
    obtain rfl := Except.ok.inj h
    rw [decode_toJson (plain entry (by simp)) hfirst, ih (fun e he => plain e (by simp [he])) hrest]

/-- What the lineage loop proves: cursors without a gap, operations once. -/
private theorem checkLineage_ok {label : String} {revisionFor : JournalRevision} {index : Nat}
    {previous final : Option String} {operations : List String}
    {entries : List AuthorityStoreCommittedTransaction}
    (h : checkLineage label revisionFor index previous operations entries = .ok final) :
    (∀ position (hp : position < entries.length),
      entries[position].cursor = (index + position + 1).repr) ∧
      (entries.map (fun entry => entry.operationId)).Nodup ∧
      ∀ entry ∈ entries, entry.operationId ∉ operations := by
  induction entries generalizing index previous operations with
  | nil => simp
  | cons entry entries ih =>
    obtain ⟨cursor, hcursor, h⟩ := bind_eq_ok.mp h
    split at h
    · simp at h
    rename_i hindex
    split at h
    · simp at h
    rename_i hfresh
    split at h
    · simp at h
    obtain ⟨hcursors, hnodup, hothers⟩ := ih h
    obtain ⟨-, htext⟩ := eq_repr_of_parseAuthorityCursor hcursor
    rw [not_not.mp hindex] at htext
    refine ⟨?_, ?_, ?_⟩
    · intro position hp
      cases position with
      | zero => exact htext
      | succ position =>
        have hrest := hcursors position (by simpa using hp)
        simp only [List.getElem_cons_succ]
        rw [hrest]
        congr 1
        omega
    · rw [List.map_cons, List.nodup_cons]
      refine ⟨?_, hnodup⟩
      intro hmem
      obtain ⟨other, hother, heq⟩ := List.mem_map.mp hmem
      exact hothers other hother (by simp [heq])
    · intro other hother
      rcases List.mem_cons.mp hother with rfl | hother
      · exact hfresh
      · exact fun hmem => hothers other hother (List.mem_cons_of_mem _ hmem)

end Entries

section Documents

variable {sha : Sha256} {store : NokvAuthorityStore}

private theorem decodeRetained_ok {fields : List (String × Json)} {label : String}
    {revisionFor : JournalRevision} {journal : RetainedAuthorityJournal}
    (h : decodeRetainedAuthorityJournal fields label revisionFor = .ok journal) :
    ∃ values, fields.lookup "committed" = some (.array values) ∧
      decodeTransactions values = .ok journal.committed ∧
      fields.lookup "provider_revision" = some (.string journal.providerRevision) ∧
      fields.lookup "cursor" = some (.string journal.cursor) ∧
      canonicalAuthorityObject (fields.lookup "head") (label ++ " head") = .ok journal.head ∧
      journal.cursor = journal.committed.length.repr ∧ Contiguous journal.committed ∧
      (journal.committed.map (fun entry => entry.operationId)).Nodup ∧
      journal.committed.getLast?.map (fun entry => entry.providerRevision) =
        some journal.providerRevision := by
  obtain ⟨revision, hrevision, h⟩ := bind_eq_ok.mp h
  obtain ⟨cursor, hcursor, h⟩ := bind_eq_ok.mp h
  obtain ⟨head, hhead, h⟩ := bind_eq_ok.mp h
  split at h
  · rename_i values hvalues
    obtain ⟨committed, hcommitted, h⟩ := bind_eq_ok.mp h
    split at h
    · simp at h
    rename_i last hlast
    obtain ⟨position, hposition, h⟩ := bind_eq_ok.mp h
    split at h
    · simp at h
    rename_i hlength
    obtain ⟨final, hlineage, h⟩ := bind_eq_ok.mp h
    split at h
    · simp at h
    rename_i hsame
    simp only [not_or, not_not] at hsame
    obtain rfl := Except.ok.inj h
    obtain ⟨hcursors, hnodup, -⟩ := checkLineage_ok hlineage
    obtain ⟨-, htext⟩ := eq_repr_of_parseAuthorityCursor hposition
    rw [not_not.mp hlength] at htext
    refine ⟨values, hvalues, hcommitted, (requireAuthorityStoreId_eq_ok.mp hrevision).1,
      (requireAuthorityStoreId_eq_ok.mp hcursor).1, hhead, htext, ?_, hnodup, ?_⟩
    · intro position hp
      simpa using hcursors position hp
    · simp [hlast, hsame.2.1]
  · simp at h

/-- What an accepted envelope says of itself, and that it is lawful. -/
theorem lawful_of_decodeDocument {identity : String} {generation : Nat} {value : Json}
    {document : NokvAuthorityStoreDocument}
    (h : decodeDocument sha store identity generation value = .ok document) :
    document.Lawful store ∧ document.storeIdentity = identity ∧
      document.storageGeneration = generation ∧
      ∃ fields, value = .object fields ∧
        fields.lookup "store_identity" = some (.string identity) ∧
        decodeRetainedAuthorityJournal fields "NoKV authority store"
          (fun previous transaction => providerRevision sha store identity
            (cursorNumber transaction.cursor) previous transaction) =
          .ok document.toRetainedAuthorityJournal := by
  cases value with
  | object fields =>
    simp only [decodeDocument] at h
    split at h
    · simp at h
    split at h
    · simp at h
    split at h
    · simp at h
    split at h
    · simp at h
    rename_i hidentity
    obtain ⟨stored, -, h⟩ := bind_eq_ok.mp h
    split at h
    · simp at h
    rename_i hgeneration
    split at h
    · rename_i values hvalues
      split at h
      · simp at h
      rename_i hlength
      obtain ⟨journal, hjournal, h⟩ := bind_eq_ok.mp h
      obtain rfl := Except.ok.inj h
      obtain ⟨values', hvalues', hdecode, -, -, hhead, hcursor, hcontiguous, hnodup, hlast⟩ :=
        decodeRetained_ok hjournal
      obtain rfl : values = values' := by simpa [hvalues] using hvalues'
      obtain ⟨hcount, hplain⟩ := plain_of_decodeTransactions hdecode
      refine ⟨⟨rfl, rfl, hplain, ?_, hcursor, hcontiguous, hnodup, hlast,
        canonicalObject_of_ok hhead⟩, rfl, not_not.mp hgeneration, fields, rfl,
        not_not.mp hidentity, hjournal⟩
      rw [hcount]
      exact not_not.mp hlength
    · simp at h
  | _ => simp [decodeDocument] at h

/-- What a loaded envelope proves, and that the bytes held it. -/
theorem loaded_of_decodeEnvelope {identity identity' : String} {blob : Option NokvBlob}
    {generation : Nat} {document : NokvAuthorityStoreDocument}
    (h : decodeEnvelope sha store identity blob = .loaded identity' generation document) :
    identity' = identity ∧ ∃ stored value, blob = some stored ∧ stored.generation = generation ∧
      (String.fromUTF8? stored.bytes).bind Json.parse = some value ∧
      decodeDocument sha store identity generation value = .ok document := by
  rcases blob with _ | stored
  · simp [decodeEnvelope] at h
  · simp only [decodeEnvelope] at h
    split at h
    · simp at h
    split at h
    · simp at h
    rename_i raw hraw
    split at h
    · simp at h
    rename_i value hvalue
    split at h
    · simp at h
    rename_i read hread
    simp only [EnvelopeReadResult.loaded.injEq] at h
    obtain ⟨rfl, rfl, rfl⟩ := h
    exact ⟨rfl, stored, value, rfl, rfl, by simp [hraw, hvalue], hread⟩

theorem lawful_of_decodeEnvelope {identity identity' : String} {blob : Option NokvBlob}
    {generation : Nat} {document : NokvAuthorityStoreDocument}
    (h : decodeEnvelope sha store identity blob = .loaded identity' generation document) :
    identity' = identity ∧ document.Lawful store ∧ document.storeIdentity = identity ∧
      document.storageGeneration = generation ∧ blob.map NokvBlob.generation = some generation := by
  obtain ⟨hsame, stored, value, rfl, hgeneration, -, hdecode⟩ := loaded_of_decodeEnvelope h
  obtain ⟨hlawful, hidentity, hstorage, -⟩ := lawful_of_decodeDocument hdecode
  exact ⟨hsame, hlawful, hidentity, hstorage, by simp [hgeneration]⟩

/-- Bytes of a foreign envelope never load. -/
theorem not_loaded_of_isForeign {identity identity' : String} {blob : NokvBlob}
    {generation : Nat} {document : NokvAuthorityStoreDocument}
    (foreign : isForeign identity blob = true) :
    decodeEnvelope sha store identity (some blob) ≠ .loaded identity' generation document := by
  intro h
  obtain ⟨-, stored, value, hstored, -, hparse, hdecode⟩ := loaded_of_decodeEnvelope h
  obtain rfl := Option.some.inj hstored
  obtain ⟨-, -, -, fields, rfl, hidentity, -⟩ := lawful_of_decodeDocument hdecode
  simp [isForeign, hparse, hidentity] at foreign

private theorem nodup_documentKeys (document : NokvAuthorityStoreDocument) :
    (keys [("schema_version", Json.string NOKV_AUTHORITY_STORE_SCHEMA),
      ("tenant_id", .string document.tenantId), ("goal_id", .string document.goalId),
      ("store_identity", .string document.storeIdentity),
      ("storage_generation", .number (JsNumber.ofNat document.storageGeneration)),
      ("provider_revision", .string document.providerRevision),
      ("cursor", .string document.cursor), ("head", document.head),
      ("committed", .array (document.committed.map
        AuthorityStoreCommittedTransaction.toJson))]).Nodup := by
  simp [keys]

/-- The journal and the identity determine a lawful envelope. -/
private theorem document_ext {a b : NokvAuthorityStoreDocument} (ha : a.Lawful store)
    (hb : b.Lawful store) (revision : a.providerRevision = b.providerRevision)
    (cursor : a.cursor = b.cursor) (head : a.head = b.head) (committed : a.committed = b.committed)
    (identity : a.storeIdentity = b.storeIdentity) : a = b := by
  have tenant : a.tenantId = b.tenantId := ha.tenant.trans hb.tenant.symm
  have goal : a.goalId = b.goalId := ha.goal.trans hb.goal.symm
  have generation : a.storageGeneration = b.storageGeneration := by
    rw [ha.generation, hb.generation, committed]
  obtain ⟨⟨_, _, _, _⟩, _, _, _, _⟩ := a
  obtain ⟨⟨_, _, _, _⟩, _, _, _, _⟩ := b
  simp only at revision cursor head committed identity tenant goal generation
  subst revision cursor head committed identity tenant goal generation
  rfl

/-- What the journal's decoder meets in published bytes. -/
private theorem parse_bytes (document : NokvAuthorityStoreDocument) :
    ∃ fields, (String.fromUTF8? document.bytes).bind Json.parse = some (.object fields) ∧
      fields.lookup "store_identity" = some (.string document.storeIdentity) ∧
      fields.lookup "provider_revision" = some (.string document.providerRevision) ∧
      fields.lookup "cursor" = some (.string document.cursor) ∧
      fields.lookup "head" = some (canonicalAuthorityJson document.head) ∧
      fields.lookup "committed" = some (.array ((document.committed.map
        AuthorityStoreCommittedTransaction.toJson).map canonicalAuthorityJson)) := by
  have nodup := nodup_documentKeys document
  have hparse : (String.fromUTF8? document.bytes).bind Json.parse =
      some (canonicalAuthorityJson document.toJson) := Json.parse_canonicalAuthorityBytes _
  rw [NokvAuthorityStoreDocument.toJson, Json.canonicalAuthorityJson_object] at hparse
  refine ⟨_, hparse, ?_⟩
  simp only [Json.lookup_canonicalFields nodup, lookup_cons_ite, String.reduceEq, if_true,
    if_false, Option.map_some, Json.canonicalAuthorityJson_array]
  simp only [canonicalAuthorityJson, and_self]

/-- An envelope that loads at all loads as it was published. -/
theorem document_of_decodeEnvelope {identity identity' : String} {generation generation' : Nat}
    {document read : NokvAuthorityStoreDocument} (lawful : document.Lawful store)
    (h : decodeEnvelope sha store identity (some ⟨generation, document.bytes⟩) =
      .loaded identity' generation' read) :
    read = document := by
  obtain ⟨-, stored, value, hstored, -, hparse, hdecode⟩ := loaded_of_decodeEnvelope h
  obtain rfl := Option.some.inj hstored
  obtain ⟨hlawful, hidentity, -, fields, rfl, hown, hjournal⟩ := lawful_of_decodeDocument hdecode
  obtain ⟨fields', hparse', hown', hrevision', hcursor', hhead', hvalues'⟩ := parse_bytes document
  obtain rfl : fields = fields' := by
    dsimp only at hparse
    rw [hparse'] at hparse
    exact (Json.object.inj (Option.some.inj hparse)).symm
  obtain ⟨values, hvalues, htransactions, hrevision, hcursor, hhead, -⟩ :=
    decodeRetained_ok hjournal
  rw [hvalues', Option.some.injEq, Json.array.injEq] at hvalues
  rw [hrevision', Option.some.injEq, Json.string.injEq] at hrevision
  rw [hcursor', Option.some.injEq, Json.string.injEq] at hcursor
  rw [hown', Option.some.injEq, Json.string.injEq] at hown
  rw [hhead', show canonicalAuthorityJson document.head = document.head from lawful.head.2,
    canonicalAuthorityObject_of_canonical lawful.head, Except.ok.injEq] at hhead
  rw [← hvalues] at htransactions
  exact document_ext hlawful lawful hrevision.symm hcursor.symm hhead.symm
    (decodeTransactions_toJson lawful.entries htransactions) (hidentity.trans hown.symm)

end Documents

section Identities

theorem boundIncarnation_storeIdentityOf (workbench incarnation : String) :
    boundIncarnation (storeIdentityOf workbench incarnation) workbench = incarnation := by
  have hsplit : (storeIdentityOf workbench incarnation).toList =
      ("nokv:" ++ workbench ++ ":").toList ++ incarnation.toList := by
    rw [storeIdentityOf, String.toList_append]
  rw [boundIncarnation, hsplit, ← String.length_toList, List.drop_left, String.ofList_toList]

theorem storeIdentityOf_injective {workbench a b : String}
    (h : storeIdentityOf workbench a = storeIdentityOf workbench b) : a = b := by
  rw [← boundIncarnation_storeIdentityOf workbench a, h, boundIncarnation_storeIdentityOf]

end Identities

end Loopx.Authority
