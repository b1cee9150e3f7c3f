/- GID: Loopx/Authority/SqliteAudit
   generality: I
   source: loopx/control_plane/coordination/sqlite_authority_store.ts
   digest: The full-history audit passes on every retained history, and replay from the root. -/

import Loopx.Authority.SqliteStoreReads

set_option autoImplicit false
set_option relaxedAutoImplicit false

namespace Loopx.Authority.SqliteStore

open Loopx.Lib.Fallible (ok_bind)
open Loopx.Json (Protocol stringify)

/-- Every row replayed on the state before it; no checkpoint is consulted. -/
def replayRows (store : SqliteStore) (identity : String) : SqliteReplayCursor →
    List CommitColumns → Protocol (List (SqliteCommitRow × AuthorityStateReplay))
  | _, [] => .ok []
  | state, raw :: rest => do
    let row ← decodeCommitRow raw
    let state ← store.verifyCommitRow row identity .predecessor state
    let later ← replayRows store identity state rest
    .ok ((row, state.replay) :: later)

/-- The state no transaction has touched. -/
def rootState : SqliteReplayCursor := ⟨0, "", ⟨.object []⟩⟩

def replayHistory (store : SqliteStore) (identity : String) (db : SqliteDatabase) :
    Protocol (List (SqliteCommitRow × AuthorityStateReplay)) :=
  store.replayRows identity rootState db.commits

section Root

variable {store : SqliteStore} {identity : String} {journal : Journal}

variable (store) in
/-- The state after the transactions of a history, from the empty root. -/
def stateAt (before : Journal) : SqliteReplayCursor :=
  match before.getLast? with
  | none => rootState
  | some last => ⟨before.length, authorityStateDigest store.sha last.projection, ⟨last.projection⟩⟩

private theorem stateAt_snoc (before : Journal) (transaction : AuthorityStoreCommittedTransaction) :
    store.stateAt (before ++ [transaction]) = store.provenState before.length transaction := by
  simp [stateAt, provenState]

/-- The first row has no parent and replays on the empty object. -/
private theorem verifyCommitRow_root {transaction : AuthorityStoreCommittedTransaction}
    (entry : SqliteEntry identity 0 transaction) :
    store.verifyCommitRow (store.decodedRow identity 0 none transaction) identity .predecessor
      rootState = .ok (store.provenState 0 transaction) := by
  have based : IsProjection (baseState none) := isProjection_baseState (by simp)
  have clean : (authorityStateDelta (baseState none) transaction.projection).Clean :=
    clean_of_mem_authorityStateDelta based.bundle entry.isProjection.bundle
  have applied : applyOperations (authorityStateDelta (baseState none)
      transaction.projection).operations (baseState none) = .ok transaction.projection :=
    applyOperations_authorityStateDelta based.bundle entry.isProjection.bundle
  have replayed : AuthorityStateReplay.apply ⟨.object []⟩
      (authorityStateDelta (baseState none) transaction.projection).toJson =
        .ok ⟨transaction.projection⟩ := by
    rw [apply_of_clean clean, show (.object [] : Json) = baseState none from rfl, applied, ok_bind]
  have digest : AuthorityStateReplay.stateDigest store.sha ⟨transaction.projection⟩ =
      authorityStateDigest store.sha transaction.projection :=
    AuthorityStateReplay.stateDigest_eq store.sha entry.projection.2
  have proof : AuthorityStateReplay.commitDigest store.sha ⟨transaction.projection⟩
      (commitFields identity (0 + 1) transaction.operationId transaction.events
        transaction.receipts) =
      .ok (commitDigest store.sha identity (0 + 1) transaction.operationId
        transaction.projection transaction.events transaction.receipts) :=
    AuthorityStateReplay.commitDigest_eq store.sha entry.projection.2 _
  simp only [verifyCommitRow, replayRow, rootState, decodedRow, Option.map_none, ne_eq, not_true,
    if_false, Nat.zero_add, if_true, replayed, ok_bind, Nat.lt_irrefl, gt_iff_lt, false_and,
    digest, proof]
  rfl

/-- Each row is proven from the state the rows before it lead to. -/
theorem verifyCommitRow_stateAt {before : Journal}
    {transaction : AuthorityStoreCommittedTransaction}
    (history : SqliteHistory identity 0 (before ++ [transaction])) :
    store.verifyCommitRow
        (store.decodedRow identity before.length (projectionAfter none before) transaction)
        identity .predecessor (store.stateAt before) =
      .ok (store.stateAt (before ++ [transaction])) := by
  obtain ⟨hbefore, hrest⟩ := sqliteHistory_append.mp history
  rw [Nat.zero_add] at hrest
  rw [stateAt_snoc]
  cases before using List.reverseRecOn with
  | nil => exact verifyCommitRow_root hrest.1
  | append_singleton init last =>
    have based : IsProjection last.projection := by
      apply isProjection_projectionAfter hbefore
      simp [projectionAfter]
    have entry := hrest.1
    rw [List.length_append, List.length_singleton] at entry ⊢
    rw [stateAt_snoc, show projectionAfter none (init ++ [last]) = some last.projection by
      simp [projectionAfter]]
    exact verifyCommitRow_predecessor entry based

private theorem history_snoc {before rest : Journal}
    {transaction : AuthorityStoreCommittedTransaction}
    (history : SqliteHistory identity 0 (before ++ transaction :: rest)) :
    SqliteHistory identity 0 (before ++ [transaction]) ∧
      SqliteEntry identity before.length transaction := by
  obtain ⟨hbefore, hrest⟩ := sqliteHistory_append.mp history
  rw [Nat.zero_add] at hrest
  refine ⟨sqliteHistory_append.mpr ⟨hbefore, ?_⟩, hrest.1⟩
  rw [Nat.zero_add]
  exact ⟨hrest.1, trivial⟩

/-- Replaying every row from the first yields each transaction with its projection. -/
theorem replayRows_storedRows (before rest : Journal)
    (history : SqliteHistory identity 0 (before ++ rest)) :
    store.replayRows identity (store.stateAt before)
        (store.storedRows identity before.length (projectionAfter none before) rest) =
      .ok (store.decodedRows identity before.length (projectionAfter none before) rest) := by
  induction rest generalizing before with
  | nil => rfl
  | cons transaction rest ih =>
    obtain ⟨hupto, entry⟩ := history_snoc history
    have based := isProjection_projectionAfter (sqliteHistory_append.mp history).1
    have later := ih (before ++ [transaction]) (by simpa using history)
    have hprevious : projectionAfter none (before ++ [transaction]) = some transaction.projection := by
      simp [projectionAfter]
    rw [List.length_append, List.length_singleton, hprevious] at later
    rw [storedRows, replayRows, decodeCommitRow_storedRow store entry based, ok_bind,
      verifyCommitRow_stateAt hupto, ok_bind, later, ok_bind, decodedRows, stateAt_snoc]
    rfl

theorem replayHistory_databaseOf (history : SqliteHistory identity 0 journal) :
    store.replayHistory identity (store.databaseOf identity journal) =
      .ok (store.decodedRows identity 0 none journal) :=
  replayRows_storedRows [] journal history

end Root

section Audit

variable {store : SqliteStore} {identity : String} {journal : Journal}

private theorem auditRow_databaseOf {before rest : Journal}
    {transaction : AuthorityStoreCommittedTransaction}
    (history : SqliteHistory identity 0 (before ++ transaction :: rest)) :
    store.auditRow (store.databaseOf identity (before ++ transaction :: rest)) identity
        (store.stateAt before)
        (store.storedRow identity before.length (projectionAfter none before) transaction) =
      .ok (store.stateAt (before ++ [transaction])) := by
  obtain ⟨hupto, entry⟩ := history_snoc history
  have based := isProjection_projectionAfter (sqliteHistory_append.mp history).1
  rw [auditRow, decodeCommitRow_storedRow store entry based, ok_bind,
    verifyCommitRow_stateAt hupto, ok_bind]
  rw [show (store.decodedRow identity before.length (projectionAfter none before)
    transaction).cursor = before.length + 1 from rfl, isAuthorityStateCheckpoint_succ, ok_bind]
  by_cases aligned : before.length % AUTHORITY_STATE_CHECKPOINT_INTERVAL = 0
  · have covering : authorityStateCheckpointCursor (before.length + 1) = .ok (before.length + 1) := by
      rw [authorityStateCheckpointCursor, if_neg (by omega), Nat.add_sub_cancel]
      have := Nat.div_add_mod before.length AUTHORITY_STATE_CHECKPOINT_INTERVAL
      rw [aligned, Nat.add_zero, Nat.mul_comm] at this
      rw [this]
    rw [if_pos (by simpa using aligned), loadCheckpoint_databaseOf store rest covering aligned entry,
      ok_bind, verifyCommitRow_sealed entry, ok_bind, stateAt_snoc, if_neg (by simp)]
  · rw [if_neg (by simpa using aligned)]

private theorem auditRows_databaseOf {before span rest : Journal}
    (history : SqliteHistory identity 0 (before ++ (span ++ rest))) :
    store.auditRows (store.databaseOf identity (before ++ (span ++ rest))) identity
        (store.stateAt before)
        (store.storedRows identity before.length (projectionAfter none before) span) =
      .ok (store.stateAt (before ++ span)) := by
  induction span generalizing before with
  | nil => rw [storedRows, auditRows, List.append_nil]
  | cons transaction span ih =>
    have hsplit : before ++ (transaction :: span ++ rest) =
        (before ++ [transaction]) ++ (span ++ rest) := by simp
    have hprevious : projectionAfter none (before ++ [transaction]) = some transaction.projection := by
      simp [projectionAfter]
    have later := @ih (before ++ [transaction]) (by rwa [hsplit] at history)
    rw [← hsplit, List.length_append, List.length_singleton, hprevious] at later
    have first := @auditRow_databaseOf store identity before (span ++ rest) transaction history
    rw [storedRows, auditRows, List.cons_append, first, ok_bind]
    simpa using later

private theorem auditPage_databaseOf (before rest : Journal) :
    auditPage (store.databaseOf identity (before ++ rest)) before.length =
      store.storedRows identity before.length (projectionAfter none before)
        (rest.take AUDIT_PAGE) := by
  have early : (store.storedRows identity 0 none before).filter
      (fun row => decide (before.length < row.cursor)) = [] := by
    rw [List.filter_eq_nil_iff]
    intro row hrow
    have := cursor_of_mem_storedRows hrow
    simp only [decide_eq_true_eq]
    omega
  have inside : (store.storedRows identity before.length (projectionAfter none before)
      rest).filter (fun row => decide (before.length < row.cursor)) =
      store.storedRows identity before.length (projectionAfter none before) rest := by
    rw [List.filter_eq_self]
    intro row hrow
    have := cursor_of_mem_storedRows hrow
    simp only [decide_eq_true_eq]
    omega
  have stored : store.storedRows identity before.length (projectionAfter none before)
      (rest.take AUDIT_PAGE ++ rest.drop AUDIT_PAGE) = _ := storedRows_append _ _ _ _
  rw [List.take_append_drop] at stored
  rw [auditPage, databaseOf, storedRows_append, Nat.zero_add, List.filter_append, early, inside,
    List.nil_append, stored]
  by_cases short : rest.length ≤ AUDIT_PAGE
  · rw [List.drop_eq_nil_of_le short, storedRows, List.append_nil, List.take_of_length_le]
    rw [length_storedRows, List.length_take]
    omega
  · refine List.take_left' ?_
    rw [length_storedRows, List.length_take]
    omega

/-- The page loop reaches the end of the history, whatever its length. -/
private theorem auditPages_databaseOf (before rest : Journal)
    (history : SqliteHistory identity 0 (before ++ rest)) :
    store.auditPages (store.databaseOf identity (before ++ rest)) identity (store.stateAt before)
        before.length before.length =
      .ok (store.stateAt (before ++ rest), (before ++ rest).length) := by
  induction hlength : rest.length using Nat.strong_induction_on generalizing before rest with
  | _ remaining ih =>
  rw [auditPages]
  split
  · rename_i hnone
    rw [auditPage_databaseOf, List.getLast?_eq_none_iff, ← List.length_eq_zero_iff,
      length_storedRows, List.length_take] at hnone
    obtain rfl : rest = [] := by
      rw [← List.length_eq_zero_iff]
      simp only [AUDIT_PAGE] at hnone
      omega
    rw [List.append_nil]
  · rename_i last hlast
    have hpage := @auditPage_databaseOf store identity before rest
    have nonempty : 0 < rest.length := by
      rw [hpage] at hlast
      by_contra hzero
      have hnil := List.length_eq_zero_iff.mp (Nat.eq_zero_of_not_pos hzero)
      simp [hnil, storedRows] at hlast
    have rows := @auditRows_databaseOf store identity before (rest.take AUDIT_PAGE)
      (rest.drop AUDIT_PAGE) (by rwa [List.take_append_drop])
    rw [List.take_append_drop] at rows
    have hcursor : last.cursor = (before ++ rest.take AUDIT_PAGE).length := by
      have hcursors := congrArg List.getLast? (@cursors_storedRows store identity
        (rest.take AUDIT_PAGE) before.length (projectionAfter none before))
      rw [← hpage, List.getLast?_map, hlast, Option.map_some, List.getLast?_range'] at hcursors
      simp only [AUDIT_PAGE, List.length_take, List.length_append] at hcursors ⊢
      rw [if_neg (by omega)] at hcursors
      have := Option.some.inj hcursors
      omega
    have later := ih (rest.drop AUDIT_PAGE).length (by
      simp only [AUDIT_PAGE, List.length_drop]
      omega) (before ++ rest.take AUDIT_PAGE) (rest.drop AUDIT_PAGE)
      (by rwa [List.append_assoc, List.take_append_drop]) rfl
    rw [List.append_assoc, List.take_append_drop] at later
    rw [hpage, rows, ok_bind, hcursor, length_storedRows, ← List.length_append]
    exact later

/-- The audit of a retained history counts its transactions and checkpoints. -/
theorem auditDatabase_databaseOf (opens : Opens store identity)
    (history : SqliteHistory identity 0 journal) :
    store.auditDatabase (store.databaseOf identity journal) =
      .ok ⟨journal.length, (store.sealedStates 0 journal).length⟩ := by
  have pages := @auditPages_databaseOf store identity [] journal history
  simp only [auditDatabase, identity_databaseOf opens.pattern opens.lineage, ok_bind,
    current_databaseOf opens history]
  cases journal using List.reverseRecOn with
  | nil => rfl
  | append_singleton init last =>
    simp only [headOfHistory, List.getLast?_append, List.getLast?_singleton, Option.some_or,
      Option.map_some, create_of_canonical (show CanonicalObject (.object []) by decide),
      ok_bind]
    rw [List.nil_append, List.length_nil] at pages
    rw [show store.stateAt [] = ⟨0, "", ⟨.object []⟩⟩ from rfl] at pages
    rw [pages, ok_bind, stateAt_snoc]
    simp [provenState, databaseOf]

end Audit

end Loopx.Authority.SqliteStore
