/- GID: Loopx/Authority/FileStoreReads
   generality: I
   source: loopx/control_plane/coordination/file_authority_store.ts
   digest: Every read of a File store answers from the one journal it holds. -/

import Loopx.Authority.FileJournalIntegrity
import Loopx.Authority.FileStoreInvariant

set_option autoImplicit false
set_option relaxedAutoImplicit false

namespace Loopx.Authority

open Loopx.Lib
open Loopx.Lib.KeyedList
open Loopx.Lib.CasLog (Distinct)
open Loopx.Lib.Fallible (ok_bind bind_eq_ok)
open Loopx.Json (JsNumber Protocol)
open FileStore (journalOf)

section Lineage

variable {revisionFor : JournalRevision} {entries : List JournalEntry}

theorem contiguous_of_lineage (h : Lineage revisionFor 0 none none entries) :
    Contiguous (journalOf entries) := by
  intro position hposition
  have hlength : position < entries.length := by simpa [journalOf] using hposition
  have hsplit : entries = entries.take position ++ entries[position] :: entries.drop (position + 1) :=
    by rw [← List.drop_eq_getElem_cons hlength, List.take_append_drop]
  rw [hsplit] at h
  have follows := (lineage_append.mp h).2.1
  have hcursor := follows.cursor
  rw [List.length_take, Nat.min_eq_left (Nat.le_of_lt hlength), Nat.zero_add] at hcursor
  simpa [journalOf] using hcursor

/-- Every revision is the digest token of its own cursor. -/
theorem revision_of_lineage (h : Lineage revisionFor 0 none none entries) {entry : JournalEntry}
    (hmem : entry ∈ entries) :
    ∃ previous, entry.providerRevision =
      revisionFor previous (transactionForRevision entry.transaction) := by
  obtain ⟨first, second, rfl⟩ := List.append_of_mem hmem
  exact ⟨_, (lineage_append.mp h).2.1.revision⟩

theorem revision_ne_empty_of_lineage {sha : Sha256} {goal identity : String}
    (h : Lineage (fileAuthorityRevision sha goal identity) 0 none none entries)
    {a : AuthorityStoreCommittedTransaction} (ha : a ∈ journalOf entries) :
    a.providerRevision ≠ "" := by
  obtain ⟨entry, hentry, rfl⟩ := List.mem_map.mp ha
  obtain ⟨previous, hrevision⟩ := revision_of_lineage h hentry
  have hid := storeIds_fileAuthorityRevision sha goal identity previous
    (transactionForRevision entry.transaction)
  rw [← hrevision] at hid
  exact hid.2

/-- A revision token names one entry of its journal. -/
theorem revision_inj_of_lineage {sha : Sha256} {goal identity : String}
    (h : Lineage (fileAuthorityRevision sha goal identity) 0 none none entries)
    {a b : AuthorityStoreCommittedTransaction} (ha : a ∈ journalOf entries)
    (hb : b ∈ journalOf entries) (same : a.providerRevision = b.providerRevision) : a = b := by
  obtain ⟨entry, hentry, rfl⟩ := List.mem_map.mp ha
  obtain ⟨entry', hentry', rfl⟩ := List.mem_map.mp hb
  obtain ⟨previous, hrevision⟩ := revision_of_lineage h hentry
  obtain ⟨previous', hrevision'⟩ := revision_of_lineage h hentry'
  obtain ⟨hcursor, -⟩ := fileAuthorityRevision_inj (hrevision.symm.trans (same.trans hrevision'))
  exact contiguous_cursor_inj (contiguous_of_lineage h) ha hb hcursor

end Lineage

section History

variable {sha : Sha256} {goal : String} {s : FileState} {entries : List JournalEntry}

theorem FileState.Sound.lineage (h : s.Sound sha goal entries) :
    ∃ identity, (∀ known ∈ s.identity, identity = known) ∧
      Lineage (fileAuthorityRevision sha goal identity) 0 none none entries ∧
      (entries.map (fun entry => entry.operationId)).Nodup := by
  cases hdocument : s.document with
  | none =>
    rw [h.missing hdocument]
    exact ⟨s.identity.getD "", by intro known hknown; simp [show s.identity = some known from hknown],
      trivial, by simp⟩
  | some raw =>
    obtain ⟨identity, journal, hidentity, -, -, hholds⟩ := h.present raw hdocument
    exact ⟨identity, fun known hknown => Option.some.inj (hidentity.symm.trans hknown),
      hholds.2.2.1.lineage, hholds.2.2.1.distinct⟩

theorem FileState.Sound.distinct (h : s.Sound sha goal entries) :
    Distinct journalShape (journalOf entries) := by
  obtain ⟨-, -, -, hnodup⟩ := h.lineage
  rw [Distinct, journalOf, List.map_map]
  exact hnodup

theorem FileState.Sound.contiguous (h : s.Sound sha goal entries) :
    Contiguous (journalOf entries) := by
  obtain ⟨_, -, hlineage, -⟩ := h.lineage
  exact contiguous_of_lineage hlineage

theorem FileState.Sound.revision_inj (h : s.Sound sha goal entries) :
    ∀ a ∈ journalOf entries, ∀ b ∈ journalOf entries,
      a.providerRevision = b.providerRevision → a = b := by
  obtain ⟨_, -, hlineage, -⟩ := h.lineage
  exact fun a ha b hb => revision_inj_of_lineage hlineage ha hb

end History

namespace FileStore

variable {store : FileStore} {s s' : FileState} {entries : List JournalEntry}
  {env : FileEnvironment}

/-- What a read needs from its surroundings. -/
structure Readable (store : FileStore) (env : FileEnvironment) (s : FileState) : Prop where
  identity : env.identityUnreadable = false
  document : env.documentUnreadable = false
  lineage : ∀ expected ∈ store.expectedIdentity, s.identity = some expected

private theorem readVerified_readable (h : s.Sound store.sha store.goalId entries)
    (collisionFree : NoCollision store.sha s.written) (readable : Readable store env s)
    {history : Bool} {result : Except ReadError (Option VerifiedDocument)}
    (hread : store.readVerified env s none history = (s', result)) : ∃ view, result = .ok view := by
  simp only [readVerified, readable.document, Bool.false_eq_true, if_false] at hread
  split at hread
  · obtain ⟨rfl, rfl⟩ := Prod.mk.inj hread
    exact ⟨none, rfl⟩
  · rename_i raw hraw
    obtain ⟨identity, journal, hidentity, hbytes, hwritten, hholds⟩ := h.present raw hraw
    have any : store.expectedIdentity.any (fun e => !decide (e = identity)) = false := by
      cases hexpected : store.expectedIdentity with
      | none => rfl
      | some expected =>
        obtain rfl := Option.some.inj ((readable.lineage expected hexpected).symm.trans hidentity)
        simp
    have hstore : store.documentIdentity env none s = (s, .ok identity) := by
      simp [documentIdentity, readStoreIdentity, readable.identity, hidentity,
        h.pattern identity hidentity, any]
    obtain ⟨s₁, view, hverify, -⟩ := verifyDocument_sound h collisionFree hwritten hbytes hholds
      history
    simp only [hstore, hverify] at hread
    obtain ⟨rfl, rfl⟩ := Prod.mk.inj hread
    exact ⟨some view, rfl⟩

/-- A read finds the journal, in full where its history was asked for, or fails. -/
theorem readVerified_reads (h : s.Sound store.sha store.goalId entries)
    (collisionFree : NoCollision store.sha s.written) {history : Bool}
    {result : Except ReadError (Option VerifiedDocument)}
    (hread : store.readVerified env s none history = (s', result)) :
    s'.Sound store.sha store.goalId entries ∧
      ((∃ view identity current, result = .ok view ∧
          Holds (fileAuthorityRevision store.sha store.goalId identity) store.goalId identity
            current entries ∧ Shows history view current) ∨
        (¬Readable store env s ∧ ∃ error, result = .error error)) := by
  obtain ⟨hsound, -, hview⟩ := readVerified_unknown h collisionFree hread
  refine ⟨hsound, ?_⟩
  cases result with
  | ok view =>
    obtain ⟨identity, current, hholds, hshows⟩ := hview view rfl
    exact Or.inl ⟨view, identity, current, rfl, hholds, hshows⟩
  | error error =>
    refine Or.inr ⟨?_, error, rfl⟩
    intro readable
    obtain ⟨view, hok⟩ := readVerified_readable h collisionFree readable hread
    simp at hok

/-- A load answers with the head of the journal. -/
theorem loadAuthority_reads (h : s.Sound store.sha store.goalId entries)
    (collisionFree : NoCollision store.sha s.written) {result : AuthorityStoreLoadResult}
    (hload : store.loadAuthority env s = (s', result)) :
    s'.Sound store.sha store.goalId entries ∧
      (result = (journalOf entries).load ∨
        (¬Readable store env s ∧ ∃ failure, result = .failure failure)) := by
  cases hverified : store.readVerified env s none false with
  | mk s₁ viewResult =>
  obtain ⟨hsound, hreads⟩ := readVerified_reads h collisionFree hverified
  simp only [loadAuthority, hverified] at hload
  rcases hreads with ⟨view, identity, current, rfl, hholds, hshows⟩ | ⟨unreadable, error, rfl⟩
  · cases current with
    | none =>
      obtain rfl : entries = [] := hholds
      cases view with
      | none =>
        obtain ⟨rfl, rfl⟩ := Prod.mk.inj hload
        exact ⟨hsound, Or.inl rfl⟩
      | some view => exact absurd hshows id
    | some journal =>
      cases view with
      | none => exact absurd hshows id
      | some view =>
        obtain ⟨rfl, rfl⟩ := Prod.mk.inj hload
        obtain ⟨init, last, rfl, -, hcursor, hrevision, hlast⟩ := hholds.2.2.1.exists_last
        refine ⟨hsound, Or.inl ?_⟩
        rw [hshows.1.head, hshows.1.providerRevision, hshows.1.cursor]
        simp [Journal.load, journalOf, headOf, hcursor, hrevision, hlast]
  · obtain ⟨rfl, rfl⟩ := Prod.mk.inj hload
    exact ⟨hsound, Or.inr ⟨unreadable, _, rfl⟩⟩

/-- The receipt index answers for the journal. -/
private theorem lookupReceipt_shows {history : Bool} {view : Option VerifiedDocument}
    {revisionFor : JournalRevision} {goal identity : String}
    {current : Option FileAuthorityJournal}
    (hholds : Holds revisionFor goal identity current entries)
    (hshows : Shows history view current) (operation : String) :
    lookupReceipt view operation = (journalOf entries).receipt operation := by
  cases current with
  | none =>
    obtain rfl : entries = [] := hholds
    cases view with
    | none => rfl
    | some view => exact absurd hshows id
  | some journal =>
    cases view with
    | none => exact absurd hshows id
    | some view =>
      rw [lookupReceipt, Option.bind_some, hshows.1.receipts, receiptIndex,
        operations_of_verified hholds.2.2.1, List.map_map, Journal.receipt, journalOf,
        List.find?_map]
      rw [show ((fun entry : String × TransactionMetadata => (entry.1, (⟨entry.2.cursor,
        entry.2.providerRevision, entry.2.receipts⟩ : ReceiptView))) ∘
          fun entry : JournalEntry => (entry.operationId, entry.toTransactionMetadata)) =
        fun entry => (entry.operationId, ⟨entry.cursor, entry.providerRevision, entry.receipts⟩)
          from rfl, lookup_map_key]
      cases hfind : entries.find? (fun entry => decide (entry.operationId = operation)) with
      | none => simp [Function.comp_def, hfind]
      | some entry => simp [Function.comp_def, hfind]

theorem readReceipts_reads (h : s.Sound store.sha store.goalId entries)
    (collisionFree : NoCollision store.sha s.written) {operations : List String}
    {result : AuthorityStoreReceiptBatchResult}
    (hread : store.readReceipts env s operations = (s', result)) :
    s'.Sound store.sha store.goalId entries ∧
      (result = (match receiptBatch operations with
        | .error reason => .failure (readFailure (.protocol reason))
        | .ok ids => .receipts (ids.map (journalOf entries).receipt)) ∨
        (¬Readable store env s ∧ ∃ failure, result = .failure failure)) := by
  simp only [readReceipts] at hread
  cases hbatch : receiptBatch operations with
  | error reason =>
    simp only [hbatch] at hread
    obtain ⟨rfl, rfl⟩ := Prod.mk.inj hread
    exact ⟨h, Or.inl rfl⟩
  | ok ids =>
    simp only [hbatch] at hread
    cases hverified : store.readVerified env s none false with
    | mk s₁ viewResult =>
    obtain ⟨hsound, hreads⟩ := readVerified_reads h collisionFree hverified
    rw [hverified] at hread
    rcases hreads with ⟨view, identity, current, rfl, hholds, hshows⟩ | ⟨unreadable, error, rfl⟩
    · obtain ⟨rfl, rfl⟩ := Prod.mk.inj hread
      refine ⟨hsound, Or.inl ?_⟩
      simp only [AuthorityStoreReceiptBatchResult.receipts.injEq]
      exact List.map_congr_left (fun operation _ => lookupReceipt_shows hholds hshows operation)
    · obtain ⟨rfl, rfl⟩ := Prod.mk.inj hread
      exact ⟨hsound, Or.inr ⟨unreadable, _, rfl⟩⟩

private theorem receiptBatch_singleton {operation : String} (h : IsStoreId operation) :
    receiptBatch [operation] = .ok [operation] := by
  simp only [receiptBatch, List.length_singleton, requireOperationIds,
    requireAuthorityStoreId_eq_ok.mpr ⟨rfl, h⟩, ok_bind]
  rfl

theorem readReceipt_reads (h : s.Sound store.sha store.goalId entries)
    (collisionFree : NoCollision store.sha s.written) {operation : String}
    {result : AuthorityStoreReceiptResult}
    (hread : store.readReceipt env s operation = (s', result)) :
    s'.Sound store.sha store.goalId entries ∧
      (result = (match requireAuthorityStoreId (some (.string operation)) "operation id" with
        | .error reason => .failure (.failed "invalid_operation_id" reason)
        | .ok id => (journalOf entries).receipt id) ∨
        (¬Readable store env s ∧ ∃ failure, result = .failure failure)) := by
  simp only [readReceipt] at hread
  cases hid : requireAuthorityStoreId (some (.string operation)) "operation id" with
  | error reason =>
    simp only [hid] at hread
    obtain ⟨rfl, rfl⟩ := Prod.mk.inj hread
    exact ⟨h, Or.inl rfl⟩
  | ok id =>
    obtain ⟨-, hstore⟩ := requireAuthorityStoreId_eq_ok.mp hid
    simp only [hid] at hread
    cases hbatch : store.readReceipts env s [id] with
    | mk s₁ batch =>
    obtain ⟨hsound, hreads⟩ := readReceipts_reads h collisionFree hbatch
    rw [receiptBatch_singleton hstore] at hreads
    rw [hbatch] at hread
    rcases hreads with rfl | ⟨unreadable, failure, rfl⟩
    · obtain ⟨rfl, rfl⟩ := Prod.mk.inj hread
      exact ⟨hsound, Or.inl rfl⟩
    · obtain ⟨rfl, rfl⟩ := Prod.mk.inj hread
      exact ⟨hsound, Or.inr ⟨unreadable, failure, rfl⟩⟩

theorem readDocument_reads (h : s.Sound store.sha store.goalId entries)
    (collisionFree : NoCollision store.sha s.written)
    {result : Except ReadError (Option FileAuthorityJournal)}
    (hread : store.readDocument env s none = (s', result)) :
    s'.Sound store.sha store.goalId entries ∧
      ((∃ identity current, result = .ok current ∧
          Holds (fileAuthorityRevision store.sha store.goalId identity) store.goalId identity
            current entries) ∨
        (¬Readable store env s ∧ ∃ error, result = .error error)) := by
  cases hverified : store.readVerified env s none true with
  | mk s₁ viewResult =>
  obtain ⟨hsound, hreads⟩ := readVerified_reads h collisionFree hverified
  simp only [readDocument, hverified] at hread
  rcases hreads with ⟨view, identity, current, rfl, hholds, hshows⟩ | ⟨unreadable, error, rfl⟩
  · obtain ⟨rfl, rfl⟩ := Prod.mk.inj hread
    refine ⟨hsound, Or.inl ⟨identity, current, ?_, hholds⟩⟩
    cases view with
    | none =>
      cases current with
      | none => rfl
      | some journal => exact absurd hshows id
    | some view =>
      cases current with
      | none => exact absurd hshows id
      | some journal => rw [Option.bind_some, hshows.2 rfl]
  · obtain ⟨rfl, rfl⟩ := Prod.mk.inj hread
    exact ⟨hsound, Or.inr ⟨unreadable, error, rfl⟩⟩

/-- A scan answers with the journal's page. -/
theorem scanCommitted_reads (h : s.Sound store.sha store.goalId entries)
    (collisionFree : NoCollision store.sha s.written) {after : Option String} {limit : JsNumber}
    {result : AuthorityStoreScanResult}
    (hscan : store.scanCommitted env s after limit = (s', result)) :
    s'.Sound store.sha store.goalId entries ∧
      (result = (match AuthorityJournalScan.prepare after limit with
        | .error failure => .failure failure
        | .ok scan => (journalOf entries).scanned scan) ∨
        (¬Readable store env s ∧ ∃ failure, result = .failure failure)) := by
  simp only [scanCommitted] at hscan
  cases hprepare : AuthorityJournalScan.prepare after limit with
  | error failure =>
    simp only [hprepare] at hscan
    obtain ⟨rfl, rfl⟩ := Prod.mk.inj hscan
    exact ⟨h, Or.inl rfl⟩
  | ok scan =>
    simp only [hprepare] at hscan
    cases hdocument : store.readDocument env s none with
    | mk s₁ documentResult =>
    obtain ⟨hsound, hreads⟩ := readDocument_reads h collisionFree hdocument
    rw [hdocument] at hscan
    rcases hreads with ⟨identity, current, rfl, hholds⟩ | ⟨unreadable, error, rfl⟩
    · cases current with
      | none =>
        obtain rfl : entries = [] := hholds
        have page := page_of_journal scan h.contiguous h.distinct [] (by simp [journalOf])
        simp only [show (journalOf []).getLast?.map headOf = none from rfl] at page
        simp only [page] at hscan
        obtain ⟨rfl, rfl⟩ := Prod.mk.inj hscan
        exact ⟨hsound, Or.inl rfl⟩
      | some document =>
        have hverified := hholds.2.2.1
        have hhead : (journalOf entries).getLast?.map headOf =
            some ⟨document.head, document.providerRevision, document.cursor⟩ := by
          obtain ⟨init, last, rfl, -, hcursor, hrevision, hlast⟩ := hverified.exists_last
          simp [journalOf, headOf, hcursor, hrevision, hlast]
        have page := page_of_journal scan h.contiguous h.distinct
          (((journalOf entries).drop scan.offset).take (scan.limit + 1)) (fun _ => rfl)
        have range := rangeFailure_of_journal scan h.contiguous
        rw [hhead] at page range
        have rows : document.scan scan.offset (scan.limit + 1) =
            .ok (((journalOf entries).drop scan.offset).take (scan.limit + 1)) :=
          FileAuthorityJournal.scan_of_verified hverified _ _
        refine ⟨?_, Or.inl ?_⟩
        · simp only [Option.map_some] at range
          simp only [range, ok_bind] at hscan
          split at hscan <;> obtain ⟨rfl, -⟩ := Prod.mk.inj hscan <;> exact hsound
        · simp only [Option.map_some] at range
          simp only [range, ok_bind] at hscan
          by_cases ahead : scan.offset > (journalOf entries).length
          · simp only [ahead, if_true] at hscan
            obtain ⟨-, rfl⟩ := Prod.mk.inj hscan
            simp only [Journal.scanned, ahead, if_true]
          · simp only [ahead, if_false, rows, ok_bind, page] at hscan
            obtain ⟨-, rfl⟩ := Prod.mk.inj hscan
            rfl
    · obtain ⟨rfl, rfl⟩ := Prod.mk.inj hscan
      exact ⟨hsound, Or.inr ⟨unreadable, _, rfl⟩⟩

end FileStore

end Loopx.Authority
