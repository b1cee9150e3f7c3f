/- GID: Loopx/Authority/StoreLog
   generality: I
   source: loopx/control_plane/coordination/authority_store.ts
   digest: The authority journal as a compare-and-swap log, and what commit results report of it. -/

import Loopx.Lib.CasLog
import Loopx.Authority.StoreContract

set_option autoImplicit false
set_option relaxedAutoImplicit false

namespace Loopx.Authority

open Loopx.Lib
open Loopx.Lib.CasLog (Shape Request Answer Submit Distinct)
open Loopx.Lib.Fallible (ok_bind)
open Loopx.Json (canonicalAuthorityJson canonicalAuthorityBytes)

/-- Among these byte strings no two share a digest. -/
def NoCollision (sha : Sha256) (documents : List ByteArray) : Prop :=
  ∀ a ∈ documents, ∀ b ∈ documents, sha.hex a = sha.hex b → a = b

theorem NoCollision.mono {sha : Sha256} {documents documents' : List ByteArray}
    (h : NoCollision sha documents') (sub : documents ⊆ documents') :
    NoCollision sha documents :=
  fun a ha b hb => h a (sub ha) b (sub hb)

/-- One recorded byte string collides with no other. -/
theorem noCollision_of_length {documents : List ByteArray} (h : documents.length = 1)
    (sha : Sha256) : NoCollision sha documents := by
  obtain ⟨bytes, rfl⟩ := List.length_eq_one_iff.mp h
  intro a ha b hb _
  rw [List.mem_singleton.mp ha, List.mem_singleton.mp hb]

/-- What an operation id stands for: events, receipts and resulting projection. -/
structure CommitBody where
  events : List Json
  receipts : List Json
  projection : Json
deriving DecidableEq

abbrev Journal := List AuthorityStoreCommittedTransaction

def journalShape : Shape AuthorityStoreCommittedTransaction String String CommitBody where
  id := fun transaction => transaction.operationId
  token := fun transaction => transaction.providerRevision
  body := fun transaction => ⟨transaction.events, transaction.receipts, transaction.projection⟩

/-- A commit as a request to the log. -/
def commitRequest (commit : AuthorityStoreCommit) : Request String String CommitBody :=
  ⟨commit.expectedProviderRevision, commit.operationId,
    ⟨commit.events, commit.receipts, commit.nextProjection⟩⟩

def Journal.headRevision (journal : Journal) : Option String :=
  CasLog.head journalShape journal

def Journal.headCursor (journal : Journal) : Option String :=
  journal.getLast?.map (fun transaction => transaction.cursor)

/-- The result a store returns for an answer of the log it held before. -/
inductive Reports (journal : Journal) :
    Answer AuthorityStoreCommittedTransaction → AuthorityStoreCommitResult → Prop where
  | applied (entry : AuthorityStoreCommittedTransaction) :
      Reports journal (.applied entry) (.applied entry.providerRevision entry.cursor)
  | idTaken : Reports journal .idTaken
      (.conflict .operationIdExists journal.headRevision journal.headCursor)
  | stale : Reports journal .stale
      (.conflict .providerRevisionMismatch journal.headRevision journal.headCursor)
  | unknown (code reason : String) : Reports journal .unknown (.ambiguous code reason)
  | refused (code reason : String) : Reports journal .refused (.failed code reason)

/-- Cursors count up from one. -/
def Contiguous (journal : Journal) : Prop :=
  ∀ position (h : position < journal.length), journal[position].cursor = (position + 1).repr

theorem Contiguous.cursor_of_split {before rest : Journal}
    {entry : AuthorityStoreCommittedTransaction} (h : Contiguous (before ++ entry :: rest)) :
    entry.cursor = (before.length + 1).repr := by
  have hposition := h before.length (by simp)
  simpa using hposition

theorem contiguous_cursor_inj {journal : Journal} (h : Contiguous journal)
    {a b : AuthorityStoreCommittedTransaction} (ha : a ∈ journal) (hb : b ∈ journal)
    (same : a.cursor = b.cursor) : a = b := by
  obtain ⟨i, hi, rfl⟩ := List.getElem_of_mem ha
  obtain ⟨j, hj, rfl⟩ := List.getElem_of_mem hb
  rw [h i hi, h j hj] at same
  obtain rfl : i = j := by
    have := Decimal.repr_injective same
    omega
  rfl

/-- The head a load reports. -/
def headOf (entry : AuthorityStoreCommittedTransaction) : AuthorityStoreHead :=
  ⟨entry.projection, entry.providerRevision, entry.cursor⟩

/-- What a load, a receipt lookup and a scan read from a journal. -/
def Journal.load (journal : Journal) : AuthorityStoreLoadResult :=
  match journal.getLast? with
  | none => .missing
  | some entry => .loaded (headOf entry)

def Journal.receipt (journal : Journal) (operation : String) : AuthorityStoreReceiptResult :=
  match journal.find? (fun entry => entry.operationId = operation) with
  | none => .missing
  | some entry => .found entry.cursor entry.providerRevision entry.receipts

def Journal.scanned (journal : Journal) (scan : AuthorityJournalScan) : AuthorityStoreScanResult :=
  if scan.offset > journal.length then
    .failure (.failed "scan_cursor_out_of_range" "scan cursor is ahead of the provider head")
  else
    let rows := (journal.drop scan.offset).take scan.limit
    .page rows ((rows.getLast?.map (fun entry => entry.cursor)).or scan.after)
      (decide (scan.offset + scan.limit < journal.length))

section Pages

variable {journal : Journal} {scan : AuthorityJournalScan}

private theorem parse_headCursor (contiguous : Contiguous journal) :
    parseAuthorityCursor ((journal.getLast?.map headOf).map (fun head => head.cursor)) =
      .ok journal.length := by
  cases journal using List.reverseRecOn with
  | nil => rfl
  | append_singleton init last =>
    simp [headOf, contiguous.cursor_of_split, parseAuthorityCursor_repr]

variable (scan) in
theorem rangeFailure_of_journal (contiguous : Contiguous journal) :
    scan.rangeFailure ((journal.getLast?.map headOf).map (fun head => head.cursor)) =
      .ok (if scan.offset > journal.length then some (.failed "scan_cursor_out_of_range"
        "scan cursor is ahead of the provider head") else none) := by
  rw [AuthorityJournalScan.rangeFailure, parse_headCursor contiguous, ok_bind]

/-- The page's checks hold on every stretch of a journal. -/
private theorem checkRows_of_journal (contiguous : Contiguous journal)
    (distinct : Distinct journalShape journal) (before rows rest : Journal)
    (split : journal = before ++ (rows ++ rest)) {index : Nat}
    (start : before.length = scan.offset + index) {operations : List String}
    (seen : ∀ operation ∈ operations, operation ∈ before.map journalShape.id) :
    scan.checkRows (journal.getLast?.map headOf) index operations rows = .ok () := by
  induction rows generalizing before index operations with
  | nil => rfl
  | cons row rows ih =>
    have hmem : row ∈ journal := by simp [split]
    have hcursor : row.cursor = (scan.offset + index + 1).repr := by
      rw [← start]
      rw [split, List.cons_append] at contiguous
      exact contiguous.cursor_of_split
    have fresh : row.operationId ∉ operations := by
      intro used
      rw [Distinct, split, List.map_append, List.nodup_append] at distinct
      exact distinct.2.2 _ (seen _ used) _ (by simp [journalShape]) rfl
    have agrees : (journal.getLast?.map headOf).any (fun head => decide (row.cursor = head.cursor ∧
        (row.providerRevision ≠ head.providerRevision ∨
          canonicalAuthorityBytes row.projection ≠ canonicalAuthorityBytes head.head))) = false := by
      cases hlast : journal.getLast? with
      | none => rfl
      | some last =>
        simp only [Option.map_some, Option.any_some, decide_eq_false_iff_not, headOf]
        rintro ⟨same, different⟩
        obtain rfl := contiguous_cursor_inj contiguous hmem (List.mem_of_getLast? hlast) same
        simp at different
    rw [AuthorityJournalScan.checkRows, hcursor, parseAuthorityCursor_repr, ok_bind,
      if_neg (by simp), if_neg fresh]
    rw [hcursor] at agrees
    rw [if_neg (by simpa using agrees)]
    refine ih (before ++ [row]) (by simp [split]) (by simp [start]; omega) ?_
    intro operation hoperation
    rcases List.mem_cons.mp hoperation with rfl | hoperation
    · simp [journalShape]
    · have := seen operation hoperation
      simp only [List.map_append, List.mem_append]
      exact Or.inl this

variable (scan) in
/-- A provider that hands in the journal's own stretch answers with the journal's page. -/
theorem page_of_journal (contiguous : Contiguous journal)
    (distinct : Distinct journalShape journal) (rows : Journal)
    (stretch : scan.offset ≤ journal.length →
      rows = (journal.drop scan.offset).take (scan.limit + 1)) :
    scan.page rows (journal.getLast?.map headOf) = .ok (journal.scanned scan) := by
  rw [AuthorityJournalScan.page, rangeFailure_of_journal scan contiguous, ok_bind,
    parse_headCursor contiguous, Journal.scanned]
  by_cases ahead : scan.offset > journal.length
  · simp only [ahead, if_true]
  · obtain rfl := stretch (Nat.le_of_not_lt ahead)
    have hlength : ((journal.drop scan.offset).take (scan.limit + 1)).length =
        min (journal.length - scan.offset) (scan.limit + 1) := by
      rw [List.length_take, List.length_drop, Nat.min_comm]
    have checked : scan.checkRows (journal.getLast?.map headOf) 0 []
        ((journal.drop scan.offset).take (scan.limit + 1)) = .ok () := by
      refine checkRows_of_journal contiguous distinct (journal.take scan.offset) _
        ((journal.drop scan.offset).drop (scan.limit + 1)) ?_ ?_ (by simp)
      · rw [List.take_append_drop, List.take_append_drop]
      · rw [List.length_take]
        omega
    simp only [ahead, if_false, ok_bind, ne_eq, hlength, not_true, checked, List.take_take,
      show min scan.limit (scan.limit + 1) = scan.limit by omega]
    congr 3
    rw [eq_iff_iff]
    omega

end Pages

/-- A result that says that nothing was done. -/
def AuthorityStoreCommitResult.IsFailure (result : AuthorityStoreCommitResult) : Prop :=
  ∃ code reason, result = .failed code reason

/-- What one commit promises its caller. `served` says that lock and files answered. -/
structure CommitOutcome (served : Prop) (journal : Journal) (commit : AuthorityStoreCommit)
    (journal' : Journal) (result : AuthorityStoreCommitResult) : Prop where
  applied : ∀ revision cursor, result = .applied revision cursor →
    ∃ entry ∈ journal', CasLog.Answers journalShape (commitRequest commit) entry ∧
      entry.providerRevision = revision ∧ entry.cursor = cursor
  retried : ∀ entry ∈ journal, CasLog.Answers journalShape (commitRequest commit) entry →
    journal' = journal ∧ (result = .applied entry.providerRevision entry.cursor ∨
      (¬served ∧ result.IsFailure))
  reused : ∀ entry ∈ journal, entry.operationId = commit.operationId →
    journalShape.body entry ≠ (commitRequest commit).body →
    journal' = journal ∧
      (result = .conflict .operationIdExists journal.headRevision journal.headCursor ∨
        (¬served ∧ result.IsFailure))
  stale : (∀ entry ∈ journal, entry.operationId ≠ commit.operationId) →
    journal.headRevision ≠ commit.expectedProviderRevision →
    journal' = journal ∧
      (result = .conflict .providerRevisionMismatch journal.headRevision journal.headCursor ∨
        (¬served ∧ result.IsFailure))
  grows : journal' ≠ journal → ∃ entry, journal' = journal ++ [entry] ∧
    CasLog.Answers journalShape (commitRequest commit) entry ∧
    journal.headRevision = commit.expectedProviderRevision

/-- A submission to a log with distinct names, and its report, are such an outcome. -/
theorem commitOutcome_of_submit {served : Prop} {journal journal' : Journal}
    {commit : AuthorityStoreCommit} {answer : Answer AuthorityStoreCommittedTransaction}
    {result : AuthorityStoreCommitResult} (distinct : Distinct journalShape journal)
    (submit : Submit journalShape journal (commitRequest commit) journal' answer)
    (reports : Reports journal answer result) (answered : served → answer ≠ .refused) :
    CommitOutcome served journal commit journal' result where
  applied := by
    rintro revision cursor rfl
    cases reports with
    | applied entry =>
      obtain ⟨mem, answers⟩ := submit.applied_mem
      exact ⟨entry, mem, answers, rfl, rfl⟩
  retried := by
    intro entry mem answers
    obtain ⟨same, rfl | rfl⟩ := submit.of_answered distinct mem answers
    · cases reports
      exact ⟨same, Or.inl rfl⟩
    · cases reports with
      | refused code reason =>
        exact ⟨same, Or.inr ⟨fun h => answered h rfl, code, reason, rfl⟩⟩
  reused := by
    intro entry mem sameId other
    obtain ⟨same, rfl | rfl⟩ := submit.of_taken distinct mem sameId other
    · cases reports
      exact ⟨same, Or.inl rfl⟩
    · cases reports with
      | refused code reason =>
        exact ⟨same, Or.inr ⟨fun h => answered h rfl, code, reason, rfl⟩⟩
  stale := by
    intro fresh moved
    obtain ⟨same, rfl | rfl⟩ := submit.of_stale fresh moved
    · cases reports
      exact ⟨same, Or.inl rfl⟩
    · cases reports with
      | refused code reason =>
        exact ⟨same, Or.inr ⟨fun h => answered h rfl, code, reason, rfl⟩⟩
  grows := by
    intro grows
    obtain ⟨entry, heq, answers, admissible, -⟩ := submit.of_grows grows
    exact ⟨entry, heq, answers, admissible.current⟩

end Loopx.Authority
