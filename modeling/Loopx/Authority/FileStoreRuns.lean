/- GID: Loopx/Authority/FileStoreRuns
   generality: I
   source: loopx/control_plane/coordination/file_authority_store.ts
   digest: Every run of File store calls keeps one exactly-once compare-and-swap log. -/

import Loopx.Authority.FileJournalIntegrity
import Loopx.Authority.FileStoreReads

set_option autoImplicit false
set_option relaxedAutoImplicit false

namespace Loopx.Authority

open Loopx.Lib
open Loopx.Lib.CasLog (Submit Request Answer Distinct Answers)
open Loopx.Lib.Fallible (ok_bind bind_eq_ok)
open Loopx.Json (JsNumber)

namespace FileStore

variable {store : FileStore} {s : FileState} {entries : List JournalEntry}

private theorem normalized_of_archiveRows {rows : List AuthorityStoreCommittedTransaction}
    (fits : ∀ row ∈ rows, row.projection.Fits) {page : List (String × AuthorityStoreCommit)}
    (h : store.archiveRows rows = .ok page) :
    ∃ commits : List NormalizedCommit,
      commits.map NormalizedCommit.commit = page.map Prod.snd ∧ page.length = rows.length := by
  induction rows generalizing page with
  | nil =>
    obtain rfl := Except.ok.inj h
    exact ⟨[], rfl, rfl⟩
  | cons row rows ih =>
    simp only [archiveRows, bind_eq_ok] at h
    obtain ⟨first, hfirst, rest, hrest, heq⟩ := h
    obtain rfl := Except.ok.inj heq
    obtain ⟨commits, hcommits, hlength⟩ :=
      ih (fun row hrow => fits row (List.mem_cons_of_mem _ hrow)) hrest
    simp only [archiveRow] at hfirst
    split at hfirst
    · split at hfirst
      · simp at hfirst
      · obtain ⟨commit, hnormalize, hpair⟩ := bind_eq_ok.mp hfirst
        obtain rfl := Except.ok.inj hpair
        refine ⟨⟨commit, (normal_of_normalize hnormalize).1,
          fits_of_normalize hnormalize (fits row List.mem_cons_self)⟩ :: commits, ?_, ?_⟩
        · simp [hcommits]
        · simp [hlength]
    · simp at hfirst

/-- An accepted page names only operations that neither the journal nor the page has used. -/
private theorem fresh_of_checkArchivePage {current : Option FileAuthorityJournal} {position : Nat}
    {page : List (String × AuthorityStoreCommit)} {operations : List String}
    (h : checkArchivePage current position operations page = .ok ()) :
    (page.map (fun row => row.2.operationId)).Nodup ∧
      ∀ row ∈ page, row.2.operationId ∉ operations ∧
        (current.bind (fun journal => journal.receipt row.2.operationId)) = none := by
  induction page generalizing operations with
  | nil => simp
  | cons row page ih =>
    obtain ⟨cursor, commit⟩ := row
    simp only [checkArchivePage] at h
    split at h
    · simp at h
    split at h
    · simp at h
    rename_i hfresh
    rw [not_or, Option.not_isSome_iff_eq_none] at hfresh
    obtain ⟨hnodup, hrest⟩ := ih h
    refine ⟨?_, ?_⟩
    · rw [List.map_cons, List.nodup_cons]
      refine ⟨?_, hnodup⟩
      rw [List.mem_map]
      rintro ⟨row, hrow, hsame⟩
      exact (hrest row hrow).1 (by simp [hsame])
    · intro row hrow
      rcases List.mem_cons.mp hrow with rfl | hrow
      · exact ⟨hfresh.2, hfresh.1⟩
      · refine ⟨?_, (hrest row hrow).2⟩
        exact fun hmem => (hrest row hrow).1 (List.mem_cons_of_mem _ hmem)

/-- An archive page is appended whole to the journal it was built on, or not at all. -/
theorem appendArchivePage_sound (h : s.Sound store.sha store.goalId entries)
    (collisionFree : NoCollision store.sha s.written) (env : FileEnvironment)
    (expectedRevision : Option String) (expectedIdentity : String)
    {rows : List AuthorityStoreCommittedTransaction} (fits : ∀ row ∈ rows, row.projection.Fits) :
    ∃ s' result added,
      store.appendArchivePage env s expectedRevision expectedIdentity rows = (s', result) ∧
      s'.Sound store.sha store.goalId (entries ++ added) ∧ s.written ⊆ s'.written ∧
      (added ≠ [] → (journalOf entries).headRevision = expectedRevision) := by
  have unchanged : ∀ {s₁ : FileState} (result : AuthorityStoreCommitResult),
      s₁.Sound store.sha store.goalId entries → s.written ⊆ s₁.written →
      ∃ s' result' added, (s₁, result) = (s', result') ∧
        s'.Sound store.sha store.goalId (entries ++ added) ∧ s.written ⊆ s'.written ∧
        (added ≠ [] → (journalOf entries).headRevision = expectedRevision) := by
    intro s₁ result hsound hsub
    exact ⟨s₁, result, [], rfl, by rwa [List.append_nil], hsub, by simp⟩
  rw [appendArchivePage]
  split
  · exact unchanged _ h (List.Subset.refl _)
  rename_i bounds
  split
  · exact unchanged _ h (List.Subset.refl _)
  rename_i page hpage
  obtain ⟨commits, hcommits, hlength⟩ := normalized_of_archiveRows fits hpage
  split
  · exact unchanged _ h (List.Subset.refl _)
  cases hread : store.readStoreIdentity env false s with
  | mk s₁ identityResult =>
  obtain ⟨hsound, hkeeps, hknown⟩ := readStoreIdentity_sound h hread
  have hsub := written_subset hkeeps.written
  cases identityResult with
  | error error => cases error <;> exact unchanged _ hsound hsub
  | ok identity =>
  simp only
  split
  · exact unchanged _ hsound hsub
  cases hreadable : env.documentUnreadable with
  | true =>
    simp only [readDocument, readVerified, hreadable, if_true]
    exact unchanged _ hsound hsub
  | false =>
  obtain ⟨s₂, current, hdocument, hholds, hsame, hsound'⟩ := readDocument_known hsound
    (collisionFree.mono (written_subset hkeeps.written.symm)) hreadable
    (hknown identity rfl)
  have hsub' : s.written ⊆ s₂.written := by
    rw [hsame.written]
    exact hsub
  simp only [hdocument]
  split
  · exact unchanged _ hsound' hsub'
  split
  · exact unchanged _ hsound' hsub'
  rename_i expected
  split
  · exact unchanged _ hsound' hsub'
  rename_i document hsuccessor
  simp only [archiveSuccessor, bind_eq_ok] at hsuccessor
  obtain ⟨position, -, _, hcheck, hrun⟩ := hsuccessor
  obtain ⟨hnodup, hfresh⟩ := fresh_of_checkArchivePage hcheck
  have hids : commits.map (fun c => c.commit.operationId) =
      page.map (fun row => row.2.operationId) := by
    have hmap := congrArg (List.map (fun commit => commit.operationId)) hcommits
    simpa [List.map_map, Function.comp_def] using hmap
  have hnonempty : commits ≠ [] := by
    rintro rfl
    have hzero : page.length = 0 := by simpa using congrArg List.length hids.symm
    omega
  obtain ⟨journal, hjournal, hholds'⟩ := appendCommits_holds
    (storeIds_fileAuthorityRevision store.sha store.goalId identity) hholds commits hnonempty (by
      rw [hids, List.nodup_append]
      refine ⟨distinct_of_holds hholds, hnodup, ?_⟩
      intro a ha b hb
      obtain ⟨entry, hentry, rfl⟩ := List.mem_map.mp ha
      obtain ⟨row, hrow, rfl⟩ := List.mem_map.mp hb
      exact fresh_of_receipt_none hholds (hfresh row hrow).2 entry hentry)
  rw [hcommits] at hjournal
  obtain rfl : journal = document := Except.ok.inj (hjournal.symm.trans hrun)
  obtain ⟨s₃, result, hpublish, -, hwritten, houtcome⟩ :=
    publishDocument_sound hsound' (hsame.identity.trans (hknown identity rfl)) env hholds'
  have hsub'' : s.written ⊆ s₃.written := by
    rw [hwritten]
    exact fun _ hm => List.mem_cons_of_mem _ (hsub' hm)
  have hhead : (journalOf entries).headRevision = expectedRevision := by
    rw [← (header_of_holds hholds).1]
    exact not_ne_iff.mp expected
  rcases houtcome with ⟨-, hfinal, -⟩ | ⟨-, hfinal, -⟩ | ⟨-, hfinal, -⟩
  · exact ⟨s₃, result, _, hpublish, hfinal, hsub'', fun _ => hhead⟩
  · exact ⟨s₃, result, _, hpublish, hfinal, hsub'', fun _ => hhead⟩
  · exact ⟨s₃, result, [], hpublish, by rwa [List.append_nil], hsub'', by simp⟩

end FileStore

open FileStore (journalOf)

/-- What a client asks of its store handle. `forget` is the cache losing this document to those
of other goals. -/
inductive FileRequest where
  | commit (commit : AuthorityStoreCommit) (fits : commit.nextProjection.Fits)
  | archive (expectedRevision : Option String) (expectedIdentity : String)
      (rows : List AuthorityStoreCommittedTransaction) (fits : ∀ row ∈ rows, row.projection.Fits)
  | load
  | receipt (operationId : String)
  | receipts (operationIds : List String)
  | scan (afterCursor : Option String) (limit : JsNumber)
  | forget

inductive FileResult where
  | committed (result : AuthorityStoreCommitResult)
  | loaded (result : AuthorityStoreLoadResult)
  | receipt (result : AuthorityStoreReceiptResult)
  | receipts (result : AuthorityStoreReceiptBatchResult)
  | scanned (result : AuthorityStoreScanResult)
  | forgotten

/-- One call: the handle it is made through, what happens around it, and the request. -/
structure FileCall where
  process : Nat
  existingOnly : Bool
  expectedIdentity : Option String
  env : FileEnvironment
  request : FileRequest

def FileCall.store (sha : Sha256) (goal : String) (call : FileCall) : FileStore :=
  ⟨sha, goal, call.existingOnly, call.expectedIdentity, call.process⟩

def FileCall.perform (sha : Sha256) (goal : String) (s : FileState) (call : FileCall) :
    FileState × FileResult :=
  let store := call.store sha goal
  match call.request with
  | .commit commit _ => (store.commitAuthority call.env s commit).map id .committed
  | .archive revision identity rows _ =>
    (store.appendArchivePage call.env s revision identity rows).map id .committed
  | .load => (store.loadAuthority call.env s).map id .loaded
  | .receipt operation => (store.readReceipt call.env s operation).map id .receipt
  | .receipts operations => (store.readReceipts call.env s operations).map id .receipts
  | .scan after limit => (store.scanCommitted call.env s after limit).map id .scanned
  | .forget => (store.setCache s none, .forgotten)

/-- The directory after calls in the order in which they held the lock. -/
def stateAfter (sha : Sha256) (goal : String) (calls : List FileCall) : FileState :=
  calls.foldl (fun s call => (call.perform sha goal s).1) FileState.empty

/-- The transactions of the durable document. -/
def FileState.journal (sha : Sha256) (goal : String) (s : FileState) : Option Journal :=
  match s.document with
  | none => some []
  | some raw => s.identity.bind (fun identity =>
      match decodeBytes raw goal identity (fileAuthorityRevision sha goal identity) with
      | .error _ => none
      | .ok document => document.transactions.toOption)

theorem FileState.journal_of_sound {sha : Sha256} {goal : String} {s : FileState}
    {entries : List JournalEntry} (h : s.Sound sha goal entries) :
    s.journal sha goal = some (journalOf entries) := by
  rw [FileState.journal]
  cases hdocument : s.document with
  | none =>
    rw [h.missing hdocument]
    rfl
  | some raw =>
    obtain ⟨identity, journal, hidentity, hbytes, -, hgoal, hstore, hverified, -⟩ :=
      h.present raw hdocument
    have hdecode := FileAuthorityJournal.decodeBytes_bytes hverified
    rw [hgoal, hstore, ← hbytes] at hdecode
    simp only [hidentity, Option.bind_some, hdecode, hverified.transactions_eq]
    rfl

section Written

variable (store : FileStore)

private theorem readStoreIdentity_written (env : FileEnvironment) (create : Bool) (s : FileState) :
    (store.readStoreIdentity env create s).1.written = s.written := by
  simp only [FileStore.readStoreIdentity]
  split
  · rfl
  split
  · split <;> rfl
  · split
    · rfl
    · split <;> rfl

private theorem verifyDocument_written (s : FileState) (raw : ByteArray) (identity : String)
    (history : Bool) : (store.verifyDocument s raw identity history).1.written = s.written := by
  simp only [FileStore.verifyDocument]
  split
  · rfl
  · split <;> rfl

private theorem documentIdentity_written (env : FileEnvironment) (known : Option String)
    (s : FileState) : (store.documentIdentity env known s).1.written = s.written := by
  cases known with
  | some identity => rfl
  | none => exact readStoreIdentity_written store env _ s

private theorem readVerified_written (env : FileEnvironment) (s : FileState)
    (known : Option String) (history : Bool) :
    (store.readVerified env s known history).1.written = s.written := by
  simp only [FileStore.readVerified]
  split
  · rfl
  split
  · rfl
  rename_i raw _
  have hidentity := documentIdentity_written store env known s
  split
  · rename_i heq
    rwa [heq] at hidentity
  · rename_i s₁ identity heq
    rw [heq] at hidentity
    have hverify := verifyDocument_written store s₁ raw identity history
    split <;> rename_i heq <;> (rw [heq] at hverify; exact hverify.trans hidentity)

private theorem readDocument_written (env : FileEnvironment) (s : FileState)
    (known : Option String) : (store.readDocument env s known).1.written = s.written := by
  have hread := readVerified_written store env s known true
  simp only [FileStore.readDocument]
  split <;> rename_i heq <;> rwa [heq] at hread

private theorem publishDocument_written (env : FileEnvironment) (s : FileState)
    (identity : String) (document : FileAuthorityJournal) :
    s.written ⊆ (store.publishDocument env s identity document).1.written := by
  simp only [FileStore.publishDocument]
  split <;> exact List.subset_cons_self _ _

theorem commitAuthority_written (env : FileEnvironment) (s : FileState)
    (commit : AuthorityStoreCommit) : s.written ⊆ (store.commitAuthority env s commit).1.written := by
  simp only [FileStore.commitAuthority]
  split
  · exact List.Subset.refl _
  split
  · exact List.Subset.refl _
  have hidentity := readStoreIdentity_written store env (!store.existingOnly) s
  split
  · rename_i heq
    rw [heq] at hidentity
    exact written_subset hidentity
  · rename_i s₁ identity heq
    rw [heq] at hidentity
    have hdocument := readDocument_written store env s₁ (some identity)
    split
    · rename_i heq
      rw [heq, hidentity] at hdocument
      exact written_subset hdocument
    · rename_i s₂ current heq
      rw [heq, hidentity] at hdocument
      split
      · exact written_subset hdocument
      · simp only [FileStore.decideCommit]
        rw [← hdocument]
        split
        · exact List.Subset.refl _
        split
        · exact List.Subset.refl _
        split
        · exact List.Subset.refl _
        · exact publishDocument_written _ _ _ _ _

private theorem appendArchivePage_written (env : FileEnvironment) (s : FileState)
    (revision : Option String) (lineage : String)
    (rows : List AuthorityStoreCommittedTransaction) :
    s.written ⊆ (store.appendArchivePage env s revision lineage rows).1.written := by
  simp only [FileStore.appendArchivePage]
  split
  · exact List.Subset.refl _
  split
  · exact List.Subset.refl _
  split
  · exact List.Subset.refl _
  have hidentity := readStoreIdentity_written store env false s
  cases hread : store.readStoreIdentity env false s with
  | mk s₁ identityResult =>
  rw [hread] at hidentity
  rcases identityResult with (_ | _) | identity
  · exact written_subset hidentity
  · exact written_subset hidentity
  simp only
  split
  · exact written_subset hidentity
  have hdocument := readDocument_written store env s₁ (some identity)
  cases hcurrent : store.readDocument env s₁ (some identity) with
  | mk s₂ current =>
  rw [hcurrent, hidentity] at hdocument
  rcases current with (_ | _) | current
  · exact written_subset hdocument
  · exact written_subset hdocument
  simp only
  rw [← hdocument]
  split
  · exact List.Subset.refl _
  split
  · exact List.Subset.refl _
  split
  · exact List.Subset.refl _
  · exact publishDocument_written _ _ _ _ _

theorem loadAuthority_written (env : FileEnvironment) (s : FileState) :
    (store.loadAuthority env s).1.written = s.written := by
  have hread := readVerified_written store env s none false
  simp only [FileStore.loadAuthority]
  split <;> rename_i heq <;> rwa [heq] at hread

theorem readReceipts_written (env : FileEnvironment) (s : FileState)
    (operations : List String) : (store.readReceipts env s operations).1.written = s.written := by
  have hread := readVerified_written store env s none false
  simp only [FileStore.readReceipts]
  split
  · rfl
  · split <;> rename_i heq <;> rwa [heq] at hread

theorem readReceipt_written (env : FileEnvironment) (s : FileState)
    (operation : String) : (store.readReceipt env s operation).1.written = s.written := by
  simp only [FileStore.readReceipt]
  split
  · rfl
  · rename_i normalized _
    have hread := readReceipts_written store env s [normalized]
    split <;> rename_i heq <;> rwa [heq] at hread

theorem scanCommitted_written (env : FileEnvironment) (s : FileState)
    (after : Option String) (limit : JsNumber) :
    (store.scanCommitted env s after limit).1.written = s.written := by
  have hread := readDocument_written store env s none
  simp only [FileStore.scanCommitted]
  split
  · rfl
  · split
    · rename_i heq
      rwa [heq] at hread
    · rename_i heq
      rw [heq] at hread
      split <;> exact hread

theorem FileCall.perform_written (sha : Sha256) (goal : String) (s : FileState)
    (call : FileCall) : s.written ⊆ (call.perform sha goal s).1.written := by
  rw [FileCall.perform]
  cases call.request <;> simp only [Prod.map_fst, id_eq]
  case commit => exact commitAuthority_written _ _ _ _
  case archive => exact appendArchivePage_written _ _ _ _ _ _
  case load => exact written_subset (loadAuthority_written _ _ _)
  case receipt => exact written_subset (readReceipt_written _ _ _ _)
  case receipts => exact written_subset (readReceipts_written _ _ _ _)
  case scan => exact written_subset (scanCommitted_written _ _ _ _ _)
  case forget => exact List.Subset.refl _

end Written

/-- What one call does to the journal and says of it. -/
def CallOutcome (served : Prop) (journal journal' : Journal) : FileRequest → FileResult → Prop
  | .commit commit _, .committed result =>
    match normalizeAuthorityStoreCommit commit with
    | .error _ => journal' = journal ∧ result.IsFailure
    | .ok normalized => CommitOutcome served journal normalized journal' result
  | .archive revision _ _ _, .committed _ => journal' ≠ journal → journal.headRevision = revision
  | .load, .loaded result => journal' = journal ∧
      ∀ head, result = .loaded head → journal.getLast?.map headOf = some head
  | _, _ => journal' = journal

section Steps

variable {sha : Sha256} {goal : String} {s : FileState} {entries : List JournalEntry}

/-- One call from any sound directory. -/
theorem FileCall.perform_sound (h : s.Sound sha goal entries)
    (collisionFree : NoCollision sha s.written) (call : FileCall) :
    ∃ s' result entries', call.perform sha goal s = (s', result) ∧ s'.Sound sha goal entries' ∧
      journalOf entries <+: journalOf entries' ∧
      CallOutcome (FileStore.Served (call.store sha goal) call.env s) (journalOf entries)
        (journalOf entries') call.request result := by
  have stored : s.Sound (call.store sha goal).sha (call.store sha goal).goalId entries := h
  rw [FileCall.perform]
  cases call.request with
  | commit commit fits =>
    obtain ⟨s', result, entries', answer, hrun, hsound, -, -, hreports, hcase⟩ :=
      FileStore.commitAuthority_submit stored collisionFree call.env fits
    refine ⟨s', .committed result, entries', by simp only [hrun]; rfl, hsound, ?_, ?_⟩
    · cases hnormalize : normalizeAuthorityStoreCommit commit with
      | error reason =>
        rw [hnormalize] at hcase
        rw [hcase.1]
      | ok normalized =>
        rw [hnormalize] at hcase
        exact hcase.1.isPrefix
    · simp only [CallOutcome]
      cases hnormalize : normalizeAuthorityStoreCommit commit with
      | error reason =>
        rw [hnormalize] at hcase
        obtain ⟨rfl, rfl⟩ := hcase
        cases hreports with
        | refused code reason => exact ⟨rfl, code, reason, rfl⟩
      | ok normalized =>
        rw [hnormalize] at hcase
        exact commitOutcome_of_submit h.distinct hcase.1 hreports hcase.2.1
  | archive revision identity rows fits =>
    obtain ⟨s', result, added, hrun, hsound, -, hhead⟩ :=
      FileStore.appendArchivePage_sound stored collisionFree call.env revision identity fits
    refine ⟨s', .committed result, entries ++ added, by simp only [hrun]; rfl, hsound, ?_, ?_⟩
    · rw [journalOf, journalOf, List.map_append]
      exact List.prefix_append _ _
    · intro grows
      refine hhead ?_
      rintro rfl
      simp at grows
  | load =>
    cases hrun : (call.store sha goal).loadAuthority call.env s with
    | mk s' result =>
    obtain ⟨hsound, hresult⟩ := FileStore.loadAuthority_reads stored collisionFree hrun
    refine ⟨s', .loaded result, entries, rfl, hsound, List.prefix_refl _, rfl, ?_⟩
    rintro head rfl
    rcases hresult with hload | ⟨-, failure, hfailure⟩
    · simp only [Journal.load] at hload
      split at hload
      · simp at hload
      · rename_i entry hlast
        rw [hlast, AuthorityStoreLoadResult.loaded.inj hload]
        rfl
    · simp at hfailure
  | receipt operation =>
    cases hrun : (call.store sha goal).readReceipt call.env s operation with
    | mk s' result =>
    exact ⟨s', .receipt result, entries, by simp only [hrun]; rfl, (FileStore.readReceipt_reads stored collisionFree hrun).1,
      List.prefix_refl _, rfl⟩
  | receipts operations =>
    cases hrun : (call.store sha goal).readReceipts call.env s operations with
    | mk s' result =>
    exact ⟨s', .receipts result, entries, by simp only [hrun]; rfl, (FileStore.readReceipts_reads stored collisionFree hrun).1,
      List.prefix_refl _, rfl⟩
  | scan after limit =>
    cases hrun : (call.store sha goal).scanCommitted call.env s after limit with
    | mk s' result =>
    exact ⟨s', .scanned result, entries, by simp only [hrun]; rfl, (FileStore.scanCommitted_reads stored collisionFree hrun).1,
      List.prefix_refl _, rfl⟩
  | forget =>
    exact ⟨_, .forgotten, entries, rfl, FileStore.sound_forget stored, List.prefix_refl _, rfl⟩

end Steps

section Runs

variable {sha : Sha256} {goal : String}

def journalAfter (sha : Sha256) (goal : String) (calls : List FileCall) : Option Journal :=
  (stateAfter sha goal calls).journal sha goal

/-- The answer the last call of a run gets. -/
def resultAfter (sha : Sha256) (goal : String) (before : List FileCall) (call : FileCall) :
    FileResult :=
  (call.perform sha goal (stateAfter sha goal before)).2

theorem stateAfter_append_singleton (before : List FileCall) (call : FileCall) :
    stateAfter sha goal (before ++ [call]) =
      (call.perform sha goal (stateAfter sha goal before)).1 := by
  rw [stateAfter, List.foldl_append]
  rfl

theorem written_stateAfter_append (before after : List FileCall) :
    (stateAfter sha goal before).written ⊆ (stateAfter sha goal (before ++ after)).written := by
  induction after using List.reverseRecOn with
  | nil => simp
  | append_singleton after call ih =>
    rw [← List.append_assoc, stateAfter_append_singleton]
    exact fun _ hmem => call.perform_written sha goal _ (ih hmem)

/-- Every run keeps the directory sound, and its journal only grows. -/
theorem stateAfter_sound (before after : List FileCall) {entries : List JournalEntry}
    (h : (stateAfter sha goal before).Sound sha goal entries)
    (collisionFree : NoCollision sha (stateAfter sha goal (before ++ after)).written) :
    ∃ entries', (stateAfter sha goal (before ++ after)).Sound sha goal entries' ∧
      journalOf entries <+: journalOf entries' := by
  induction after using List.reverseRecOn with
  | nil => exact ⟨entries, by rwa [List.append_nil], List.prefix_refl _⟩
  | append_singleton after call ih =>
    rw [← List.append_assoc] at collisionFree ⊢
    have earlier := collisionFree.mono (written_stateAfter_append _ [call])
    obtain ⟨entries₁, hsound, hstarts⟩ := ih earlier
    obtain ⟨s', result, entries₂, hrun, hsound', hstarts', -⟩ := call.perform_sound hsound earlier
    refine ⟨entries₂, ?_, hstarts.trans hstarts'⟩
    rw [stateAfter_append_singleton, hrun]
    exact hsound'

/-- The states around one call of a run, and what that call did. -/
theorem sound_around {before after : List FileCall} {call : FileCall}
    (collisionFree : NoCollision sha (stateAfter sha goal (before ++ call :: after)).written) :
    ∃ entries entries' final,
      (stateAfter sha goal before).Sound sha goal entries ∧
      (stateAfter sha goal (before ++ [call])).Sound sha goal entries' ∧
      (stateAfter sha goal (before ++ call :: after)).Sound sha goal final ∧
      journalOf entries <+: journalOf entries' ∧ journalOf entries' <+: journalOf final ∧
      CallOutcome (FileStore.Served (call.store sha goal) call.env (stateAfter sha goal before))
        (journalOf entries) (journalOf entries') call.request
        (resultAfter sha goal before call) := by
  have hsplit : before ++ call :: after = (before ++ [call]) ++ after := by simp
  rw [hsplit] at collisionFree ⊢
  have here := collisionFree.mono (written_stateAfter_append _ after)
  have earlier := here.mono (written_stateAfter_append _ [call])
  obtain ⟨entries, hsound, -⟩ := stateAfter_sound [] before (FileState.sound_empty sha goal)
    earlier
  rw [List.nil_append] at hsound
  obtain ⟨s', result, entries', hrun, hsound', hstarts, houtcome⟩ :=
    call.perform_sound hsound earlier
  have hstate : (stateAfter sha goal (before ++ [call])).Sound sha goal entries' := by
    rw [stateAfter_append_singleton, hrun]
    exact hsound'
  obtain ⟨final, hfinal, hgrown⟩ := stateAfter_sound _ after hstate collisionFree
  refine ⟨entries, entries', final, hsound, hstate, hfinal, hstarts, hgrown, ?_⟩
  rw [resultAfter, hrun]
  exact houtcome

/-- The File store as an exactly-once compare-and-swap log, over one run. -/
structure ExactlyOnce (sha : Sha256) (goal : String) (calls : List FileCall) : Prop where
  /-- The journal is readable, its cursors count up from one, and no name or token repeats. -/
  durable : ∃ journal, journalAfter sha goal calls = some journal ∧ Contiguous journal ∧
    Distinct journalShape journal ∧
    ∀ a ∈ journal, ∀ b ∈ journal, a.providerRevision = b.providerRevision → a = b
  /-- Each call extends the journal or leaves it, as its answer says. -/
  step : ∀ before call after, calls = before ++ call :: after → ∃ journal journal' final,
    journalAfter sha goal before = some journal ∧
    journalAfter sha goal (before ++ [call]) = some journal' ∧
    journalAfter sha goal calls = some final ∧ journal <+: journal' ∧ journal' <+: final ∧
    CallOutcome (FileStore.Served (call.store sha goal) call.env (stateAfter sha goal before))
      journal journal' call.request (resultAfter sha goal before call)
  /-- An applied result names the one entry of its operation, cursor and revision for good. -/
  applied : ∀ before call after, calls = before ++ call :: after →
    ∀ commit fits, call.request = .commit commit fits →
    ∀ normalized, normalizeAuthorityStoreCommit commit = .ok normalized →
    ∀ revision cursor, resultAfter sha goal before call = .committed (.applied revision cursor) →
    ∃ final entry, journalAfter sha goal calls = some final ∧ entry ∈ final ∧
      Answers journalShape (commitRequest normalized) entry ∧
      entry.providerRevision = revision ∧ entry.cursor = cursor ∧
      ∀ other ∈ final, other.operationId = normalized.operationId ∨
        other.providerRevision = revision ∨ other.cursor = cursor → other = entry
  /-- A commit that names the revision of an earlier load lands only right after what it loaded. -/
  noLostUpdate : ∀ before load middle call after,
    calls = before ++ load :: (middle ++ call :: after) →
    load.request = .load → ∀ head, resultAfter sha goal before load = .loaded (.loaded head) →
    ∀ commit fits, call.request = .commit commit fits →
    commit.expectedProviderRevision = some head.providerRevision →
    ∀ journal journal', journalAfter sha goal (before ++ load :: middle) = some journal →
    journalAfter sha goal (before ++ load :: (middle ++ [call])) = some journal' →
    journal' ≠ journal → journal.getLast?.map headOf = some head

/-- A commit that extends the journal expected its head. -/
private theorem expected_of_grows {served : Prop} {journal journal' : Journal}
    {commit : AuthorityStoreCommit} {fits : commit.nextProjection.Fits} {result : FileResult}
    (h : CallOutcome served journal journal' (.commit commit fits) result)
    (grows : journal' ≠ journal) : journal.headRevision = commit.expectedProviderRevision := by
  cases result with
  | committed result =>
    simp only [CallOutcome] at h
    cases hnormalize : normalizeAuthorityStoreCommit commit with
    | error reason =>
      rw [hnormalize] at h
      exact absurd h.1 grows
    | ok normalized =>
      rw [hnormalize] at h
      obtain ⟨entry, -, -, hhead⟩ := h.grows grows
      rw [hhead, (normal_of_normalize hnormalize).2.2]
  | loaded result => exact absurd h grows
  | receipt result => exact absurd h grows
  | receipts result => exact absurd h grows
  | scanned result => exact absurd h grows
  | forgotten => exact absurd h grows

/-- Any calls through any handles, with any lock, read and replace failures: exactly once. -/
theorem fileStore_exactlyOnce (sha : Sha256) (goal : String) (calls : List FileCall)
    (collisionFree : NoCollision sha (stateAfter sha goal calls).written) :
    ExactlyOnce sha goal calls where
  durable := by
    obtain ⟨entries, hsound, -⟩ :=
      stateAfter_sound [] calls (FileState.sound_empty sha goal) collisionFree
    rw [List.nil_append] at hsound
    exact ⟨journalOf entries, FileState.journal_of_sound hsound, hsound.contiguous,
      hsound.distinct, hsound.revision_inj⟩
  step := by
    rintro before call after rfl
    obtain ⟨entries, entries', final, hbefore, hafter, hfinal, hgrows, hgrown, houtcome⟩ :=
      sound_around collisionFree
    exact ⟨_, _, _, FileState.journal_of_sound hbefore, FileState.journal_of_sound hafter,
      FileState.journal_of_sound hfinal, hgrows, hgrown, houtcome⟩
  applied := by
    rintro before call after rfl commit fits hrequest normalized hnormalize revision cursor hresult
    obtain ⟨entries, entries', final, hbefore, hafter, hfinal, hgrows, hgrown, houtcome⟩ :=
      sound_around collisionFree
    rw [hrequest, hresult] at houtcome
    simp only [CallOutcome, hnormalize] at houtcome
    obtain ⟨entry, hentry, hanswers, hrevision, hcursor⟩ := houtcome.applied revision cursor rfl
    have hmem : entry ∈ journalOf final := hgrown.subset hentry
    refine ⟨_, entry, FileState.journal_of_sound hfinal, hmem, hanswers, hrevision, hcursor, ?_⟩
    rintro other hother (hid | hrevision' | hcursor')
    · exact CasLog.eq_of_id hfinal.distinct hother hmem (hid.trans hanswers.1.symm)
    · exact hfinal.revision_inj other hother entry hmem (hrevision'.trans hrevision.symm)
    · exact contiguous_cursor_inj hfinal.contiguous hother hmem
        (hcursor'.trans hcursor.symm)
  noLostUpdate := by
    rintro before load middle call after rfl hload head hhead commit fits hrequest hexpected
      journal journal' hjournal hjournal' grows
    have hsplit : before ++ load :: (middle ++ call :: after) =
        (before ++ load :: middle) ++ call :: after := by simp
    rw [hsplit] at collisionFree
    obtain ⟨entries, entries', final, hbefore, hafter, -, -, -, houtcome⟩ :=
      sound_around collisionFree
    obtain ⟨entries₀, _, entries₁, hstart, -, hmiddle, hloaded, hkept, hloads⟩ := sound_around
      (collisionFree.mono (written_stateAfter_append (before ++ load :: middle) (call :: after)))
    -- both descriptions of the journal before the commit agree
    have hsame : journalOf entries₁ = journalOf entries := Option.some.inj
      ((FileState.journal_of_sound hmiddle).symm.trans (FileState.journal_of_sound hbefore))
    obtain rfl : journal = journalOf entries := Option.some.inj
      (hjournal.symm.trans (FileState.journal_of_sound hbefore))
    obtain rfl : journal' = journalOf entries' := by
      have hassoc : before ++ load :: (middle ++ [call]) = (before ++ load :: middle) ++ [call] := by
        simp
      rw [hassoc] at hjournal'
      exact Option.some.inj (hjournal'.symm.trans (FileState.journal_of_sound hafter))
    rw [hload, hhead] at hloads
    obtain ⟨-, hlast⟩ := hloads
    obtain ⟨seen, hseen, rfl⟩ := Option.map_eq_some_iff.mp (hlast head rfl)
    have hseenMem : seen ∈ journalOf entries := by
      rw [← hsame]
      exact hkept.subset (hloaded.subset (List.mem_of_getLast? hseen))
    rw [hrequest] at houtcome
    have hmoved := (expected_of_grows houtcome grows).trans hexpected
    obtain ⟨last, htip, hrevision⟩ := Option.map_eq_some_iff.mp hmoved
    obtain rfl := hbefore.revision_inj last (List.mem_of_getLast? htip) seen hseenMem
      hrevision
    rw [htip]
    rfl

/-- The first commit of a goal, whose replace took effect although it reported an error. -/
def lostAnswer : FileCall where
  process := 0
  existingOnly := false
  expectedIdentity := none
  env := ⟨false, false, false, ⟨"file:0123456789abcdef0123456789abcdef", by decide⟩, .done,
    .taken⟩
  request := .commit openCommit.commit openCommit.fits

theorem fileStore_exactlyOnce_lost_answer :
    NoCollision Sha256.node (stateAfter Sha256.node "g" [lostAnswer]).written ∧
      ExactlyOnce Sha256.node "g" [lostAnswer] := by
  have collisionFree : NoCollision Sha256.node
      (stateAfter Sha256.node "g" [lostAnswer]).written :=
    noCollision_of_length (by decide) _
  exact ⟨collisionFree, fileStore_exactlyOnce _ _ _ collisionFree⟩

end Runs

end Loopx.Authority
