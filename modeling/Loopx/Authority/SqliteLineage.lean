/- GID: Loopx/Authority/SqliteLineage
   generality: I
   source: loopx/control_plane/coordination/sqlite_authority_store.ts
   digest: The database that retains a history, and every proof the store makes of it. -/

import Loopx.Authority.FileJournalLineage
import Loopx.Authority.SqliteStore
import Loopx.Authority.StoreLog

set_option autoImplicit false
set_option relaxedAutoImplicit false

namespace Loopx.Authority

open Loopx.Lib.Fallible (ok_bind bind_eq_ok)
open Loopx.Json (Protocol Canonical canonicalAuthorityBytes stringify)

/-- One retained transaction in its place. -/
structure SqliteEntry (identity : String) (index : Nat)
    (transaction : AuthorityStoreCommittedTransaction) : Prop where
  cursor : transaction.cursor = (index + 1).repr
  revision : transaction.providerRevision = sqliteRevision identity (index + 1)
  operationId : IsStoreId transaction.operationId
  events : ∀ v ∈ transaction.events, CanonicalObject v
  receipts : ∀ v ∈ transaction.receipts, CanonicalObject v
  projection : CanonicalObject transaction.projection
  fits : transaction.projection.Fits

/-- Consecutive transactions from position `index` on. -/
def SqliteHistory (identity : String) : Nat → Journal → Prop
  | _, [] => True
  | index, transaction :: rest =>
    SqliteEntry identity index transaction ∧ SqliteHistory identity (index + 1) rest

/-- The projection after a history that started from `previous`. -/
def projectionAfter (previous : Option Json) (journal : Journal) : Option Json :=
  (journal.getLast?.map (fun transaction => transaction.projection)).or previous

theorem projectionAfter_cons (previous : Option Json)
    (transaction : AuthorityStoreCommittedTransaction) (journal : Journal) :
    projectionAfter previous (transaction :: journal) =
      projectionAfter (some transaction.projection) journal := by
  cases h : journal.getLast? <;> simp [projectionAfter, List.getLast?_cons, h]

theorem sqliteHistory_append {identity : String} {index : Nat} {first second : Journal} :
    SqliteHistory identity index (first ++ second) ↔
      SqliteHistory identity index first ∧
        SqliteHistory identity (index + first.length) second := by
  induction first generalizing index with
  | nil => simp [SqliteHistory]
  | cons transaction first ih =>
    rw [List.cons_append, SqliteHistory, SqliteHistory, ih, List.length_cons, and_assoc,
      Nat.add_right_comm, Nat.add_assoc]

/-- The projection a delta starts from. -/
def baseState (previous : Option Json) : Json := previous.getD (.object [])

/-- A value a projection may have: a canonical object within the array limit. -/
def IsProjection (v : Json) : Prop := CanonicalObject v ∧ v.Fits

def IsProjection.bundle {v : Json} (h : IsProjection v) : Projection := ⟨v, h.1.1, h.1.2, h.2⟩

theorem SqliteEntry.isProjection {identity : String} {index : Nat}
    {transaction : AuthorityStoreCommittedTransaction}
    (h : SqliteEntry identity index transaction) : IsProjection transaction.projection :=
  ⟨h.projection, h.fits⟩

theorem isProjection_baseState {previous : Option Json}
    (h : ∀ v ∈ previous, IsProjection v) : IsProjection (baseState previous) := by
  cases previous with
  | none => exact ⟨by decide, by simp [baseState, Json.fits_object]⟩
  | some v => exact h v rfl

namespace SqliteStore

variable (store : SqliteStore) (identity : String)

/-- The row a commit writes for a transaction after `previous`. -/
def storedRow (index : Nat) (previous : Option Json)
    (transaction : AuthorityStoreCommittedTransaction) : CommitColumns where
  cursor := index + 1
  operationId := transaction.operationId
  commitDigest := commitDigest store.sha identity (index + 1) transaction.operationId
    transaction.projection transaction.events transaction.receipts
  stateDigest := authorityStateDigest store.sha transaction.projection
  parentStateDigest := previous.map (authorityStateDigest store.sha)
  delta := stringify (authorityStateDelta (baseState previous) transaction.projection).toJson
  events := stringify (.array transaction.events)
  receipts := stringify (.array transaction.receipts)

/-- The same row, decoded. -/
def decodedRow (index : Nat) (previous : Option Json)
    (transaction : AuthorityStoreCommittedTransaction) : SqliteCommitRow where
  cursor := index + 1
  operationId := transaction.operationId
  commitDigest := commitDigest store.sha identity (index + 1) transaction.operationId
    transaction.projection transaction.events transaction.receipts
  stateDigest := authorityStateDigest store.sha transaction.projection
  parentStateDigest := previous.map (authorityStateDigest store.sha)
  delta := authorityStateDelta (baseState previous) transaction.projection
  events := transaction.events
  receipts := transaction.receipts

def storedRows : Nat → Option Json → Journal → List CommitColumns
  | _, _, [] => []
  | index, previous, transaction :: rest =>
    store.storedRow identity index previous transaction ::
      storedRows (index + 1) (some transaction.projection) rest

/-- The rows a verified span hands out, each with its replayed projection. -/
def decodedRows : Nat → Option Json → Journal → List (SqliteCommitRow × AuthorityStateReplay)
  | _, _, [] => []
  | index, previous, transaction :: rest =>
    (store.decodedRow identity index previous transaction, ⟨transaction.projection⟩) ::
      decodedRows (index + 1) (some transaction.projection) rest

/-- The checkpoint rows of a history. -/
def sealedStates : Nat → Journal → List CheckpointColumns
  | _, [] => []
  | index, transaction :: rest =>
    if index % AUTHORITY_STATE_CHECKPOINT_INTERVAL = 0 then
      ⟨index + 1, stringify transaction.projection,
        authorityStateDigest store.sha transaction.projection⟩ :: sealedStates (index + 1) rest
    else sealedStates (index + 1) rest

def headRow (journal : Journal) : Option HeadColumns :=
  journal.getLast?.map (fun transaction => ⟨journal.length, stringify transaction.projection,
    authorityStateDigest store.sha transaction.projection⟩)

/-- What the head of a retained history is. -/
def headOfHistory (journal : Journal) : Option SqliteHead :=
  journal.getLast?.map (fun transaction => ⟨journal.length, transaction.projection,
    authorityStateDigest store.sha transaction.projection, sqliteRevision identity journal.length,
    identity⟩)

/-- The database that retains exactly this history. -/
def databaseOf (journal : Journal) : SqliteDatabase where
  userVersion := 2
  metadata := some ⟨SQLITE_AUTHORITY_STORE_SCHEMA, store.goalId, identity⟩
  commits := store.storedRows identity 0 none journal
  checkpoints := store.sealedStates 0 journal
  head := store.headRow journal

section Tables

variable {store identity}

theorem storedRows_append (first second : Journal) (index : Nat) (previous : Option Json) :
    store.storedRows identity index previous (first ++ second) =
      store.storedRows identity index previous first ++
        store.storedRows identity (index + first.length) (projectionAfter previous first)
          second := by
  induction first generalizing index previous with
  | nil => simp [storedRows, projectionAfter]
  | cons transaction first ih =>
    rw [List.cons_append, storedRows, storedRows, ih, projectionAfter_cons, List.length_cons,
      List.cons_append, Nat.add_right_comm, Nat.add_assoc]

theorem decodedRows_append (first second : Journal) (index : Nat) (previous : Option Json) :
    store.decodedRows identity index previous (first ++ second) =
      store.decodedRows identity index previous first ++
        store.decodedRows identity (index + first.length) (projectionAfter previous first)
          second := by
  induction first generalizing index previous with
  | nil => simp [decodedRows, projectionAfter]
  | cons transaction first ih =>
    rw [List.cons_append, decodedRows, decodedRows, ih, projectionAfter_cons, List.length_cons,
      List.cons_append, Nat.add_right_comm, Nat.add_assoc]

theorem sealedStates_append (first second : Journal) (index : Nat) :
    store.sealedStates index (first ++ second) =
      store.sealedStates index first ++ store.sealedStates (index + first.length) second := by
  induction first generalizing index with
  | nil => simp [sealedStates]
  | cons transaction first ih =>
    rw [List.cons_append, sealedStates, sealedStates, ih, List.length_cons, Nat.add_right_comm,
      Nat.add_assoc]
    split <;> rfl

theorem length_storedRows (journal : Journal) (index : Nat) (previous : Option Json) :
    (store.storedRows identity index previous journal).length = journal.length := by
  induction journal generalizing index previous with
  | nil => rfl
  | cons transaction journal ih => rw [storedRows, List.length_cons, ih, List.length_cons]

theorem cursor_of_mem_storedRows {journal : Journal} {index : Nat} {previous : Option Json}
    {row : CommitColumns} (h : row ∈ store.storedRows identity index previous journal) :
    index < row.cursor ∧ row.cursor ≤ index + journal.length := by
  induction journal generalizing index previous with
  | nil => simp [storedRows] at h
  | cons transaction journal ih =>
    rcases List.mem_cons.mp h with rfl | h
    · simp [storedRow]
    · have := ih h
      rw [List.length_cons]
      omega

theorem operation_of_mem_storedRows {journal : Journal} {index : Nat} {previous : Option Json}
    {row : CommitColumns} (h : row ∈ store.storedRows identity index previous journal) :
    ∃ transaction ∈ journal, transaction.operationId = row.operationId := by
  induction journal generalizing index previous with
  | nil => simp [storedRows] at h
  | cons transaction journal ih =>
    rcases List.mem_cons.mp h with rfl | h
    · exact ⟨transaction, by simp, rfl⟩
    · obtain ⟨found, hfound, hid⟩ := ih h
      exact ⟨found, List.mem_cons_of_mem _ hfound, hid⟩

theorem cursor_of_mem_decodedRows {journal : Journal} {index : Nat} {previous : Option Json}
    {row : SqliteCommitRow × AuthorityStateReplay}
    (h : row ∈ store.decodedRows identity index previous journal) :
    index < row.1.cursor ∧ row.1.cursor ≤ index + journal.length := by
  induction journal generalizing index previous with
  | nil => simp [decodedRows] at h
  | cons transaction journal ih =>
    rcases List.mem_cons.mp h with rfl | h
    · simp [decodedRow]
    · have := ih h
      rw [List.length_cons]
      omega

theorem cursor_of_mem_sealedStates {journal : Journal} {index : Nat} {row : CheckpointColumns}
    (h : row ∈ store.sealedStates index journal) :
    index < row.cursor ∧ row.cursor ≤ index + journal.length := by
  induction journal generalizing index with
  | nil => simp [sealedStates] at h
  | cons transaction journal ih =>
    rw [List.length_cons]
    rw [sealedStates] at h
    split at h
    · rcases List.mem_cons.mp h with rfl | h
      · exact ⟨Nat.lt_succ_self index, by simp only; omega⟩
      · have := ih h
        omega
    · have := ih h
      omega

end Tables

section Proofs

variable {store identity} {index : Nat} {previous : Option Json}
  {transaction : AuthorityStoreCommittedTransaction}

theorem parse_objects {items : List Json} (h : ∀ v ∈ items, CanonicalObject v) :
    parseJson (stringify (.array items)) = .ok (.array items) := by
  have ordered : Json.OwnOrdered (.array items) :=
    (Json.ownOrdered_array items).mpr (fun v hv => (h v hv).2.ownOrdered)
  rw [parseJson, Json.parse_stringify _ ordered]

theorem parse_projection {v : Json} (h : CanonicalObject v) :
    parseJson (stringify v) = .ok v := by
  rw [parseJson, Json.parse_stringify _ h.2.ownOrdered]

private theorem requireDigest_stateDigest (sha : Sha256) (v : Json) (label : String) :
    requireDigest (authorityStateDigest sha v) label = .ok (authorityStateDigest sha v) := by
  rw [requireDigest, authorityStateDigest, canonicalAuthoritySha256, sha.bare, if_pos rfl]

/-- A stored delta reads back from its text. -/
theorem decode_storedDelta (entry : SqliteEntry identity index transaction)
    (based : ∀ v ∈ previous, IsProjection v) :
    parseJson (stringify (authorityStateDelta (baseState previous)
        transaction.projection).toJson) =
      .ok (authorityStateDelta (baseState previous) transaction.projection).toJson ∧
    decodeAuthorityStateDelta (authorityStateDelta (baseState previous)
        transaction.projection).toJson =
      .ok (authorityStateDelta (baseState previous) transaction.projection) := by
  have clean : (authorityStateDelta (baseState previous) transaction.projection).Clean :=
    clean_of_mem_authorityStateDelta (isProjection_baseState based).bundle
      entry.isProjection.bundle
  refine ⟨?_, decodeAuthorityStateDelta_toJson clean⟩
  rw [parseJson, Json.parse_stringify _ (ownOrdered_delta clean)]

variable (store) in
/-- A written row reads back as what was written. -/
theorem decodeCommitRow_storedRow (entry : SqliteEntry identity index transaction)
    (based : ∀ v ∈ previous, IsProjection v) :
    decodeCommitRow (store.storedRow identity index previous transaction) =
      .ok (store.decodedRow identity index previous transaction) := by
  obtain ⟨delta, decoded⟩ := decode_storedDelta entry based
  have proof : requireDigest (commitDigest store.sha identity (index + 1) transaction.operationId
      transaction.projection transaction.events transaction.receipts) "SQLite commit digest" =
      .ok (commitDigest store.sha identity (index + 1) transaction.operationId
        transaction.projection transaction.events transaction.receipts) := by
    rw [requireDigest, commitDigest, canonicalAuthoritySha256, store.sha.bare, if_pos rfl]
  have parent : requireParentDigest (previous.map (authorityStateDigest store.sha)) =
      .ok (previous.map (authorityStateDigest store.sha)) := by
    cases previous with
    | none => rfl
    | some v => simp only [Option.map_some, requireParentDigest, requireDigest_stateDigest, ok_bind]
  simp only [decodeCommitRow, storedRow, Nat.add_one_ne_zero, if_false, delta, proof, parent,
    requireAuthorityStoreId_eq_ok.mpr ⟨rfl, entry.operationId⟩, requireDigest_stateDigest,
    parse_objects entry.events, parse_objects entry.receipts, ok_bind,
    canonicalAuthorityObjectList_of_canonical entry.events,
    canonicalAuthorityObjectList_of_canonical entry.receipts, decoded]
  rfl

private theorem commitDigest_of_entry (entry : SqliteEntry identity index transaction) :
    AuthorityStateReplay.commitDigest store.sha ⟨transaction.projection⟩
        (commitFields identity (index + 1) transaction.operationId transaction.events
          transaction.receipts) =
      .ok (commitDigest store.sha identity (index + 1) transaction.operationId
        transaction.projection transaction.events transaction.receipts) :=
  AuthorityStateReplay.commitDigest_eq store.sha entry.projection.2 _

/-- The state right after a transaction. -/
def provenState (index : Nat) (transaction : AuthorityStoreCommittedTransaction) :
    SqliteReplayCursor :=
  ⟨index + 1, authorityStateDigest store.sha transaction.projection, ⟨transaction.projection⟩⟩

/-- A row at a checkpoint is proven by the checkpoint. -/
theorem verifyCommitRow_sealed (entry : SqliteEntry identity index transaction) :
    store.verifyCommitRow (store.decodedRow identity index previous transaction) identity .sealed
      (store.provenState index transaction) = .ok (store.provenState index transaction) := by
  simp only [verifyCommitRow, replayRow, provenState, decodedRow, ne_eq, not_true, if_false,
    ok_bind, commitDigest_of_entry entry]

/-- Any other row is proven by replaying its delta on the state before it. -/
theorem verifyCommitRow_predecessor {before : AuthorityStoreCommittedTransaction}
    (entry : SqliteEntry identity (index + 1) transaction) (based : IsProjection before.projection) :
    store.verifyCommitRow
        (store.decodedRow identity (index + 1) (some before.projection) transaction) identity
        .predecessor (store.provenState index before) =
      .ok (store.provenState (index + 1) transaction) := by
  have clean : (authorityStateDelta before.projection transaction.projection).Clean :=
    clean_of_mem_authorityStateDelta based.bundle entry.isProjection.bundle
  have applied : applyOperations (authorityStateDelta before.projection
      transaction.projection).operations before.projection = .ok transaction.projection :=
    applyOperations_authorityStateDelta based.bundle entry.isProjection.bundle
  have replayed : AuthorityStateReplay.apply ⟨before.projection⟩
      (authorityStateDelta before.projection transaction.projection).toJson =
        .ok ⟨transaction.projection⟩ := by
    rw [apply_of_clean clean, applied, ok_bind]
  have digest : AuthorityStateReplay.stateDigest store.sha ⟨transaction.projection⟩ =
      authorityStateDigest store.sha transaction.projection :=
    AuthorityStateReplay.stateDigest_eq store.sha entry.projection.2
  -- an empty delta keeps the projection, so the predecessor's digest is the row's own
  have kept : (authorityStateDelta before.projection transaction.projection).operations = [] →
      authorityStateDigest store.sha before.projection =
        authorityStateDigest store.sha transaction.projection := by
    intro hempty
    rw [hempty, applyOperations, Except.ok.injEq] at applied
    rw [applied]
  simp only [verifyCommitRow, replayRow, provenState, decodedRow, baseState, Option.map_some,
    Option.getD_some, ne_eq, not_true, if_false, replayed, ok_bind, digest,
    show index + 1 + 1 ≠ 1 by omega]
  have step : (if index + 1 + 1 > 1 ∧
      (authorityStateDelta before.projection transaction.projection).operations = [] then
        authorityStateDigest store.sha before.projection
      else authorityStateDigest store.sha transaction.projection) =
        authorityStateDigest store.sha transaction.projection := by
    split
    · rename_i h
      exact kept h.2
    · rfl
  simp only [step, not_true, if_false, ok_bind, commitDigest_of_entry entry]

private theorem filter_cons_decoded {first c : Nat}
    {row : SqliteCommitRow × AuthorityStateReplay} (h : row.1.cursor = c)
    (rows : List (SqliteCommitRow × AuthorityStateReplay)) :
    (row :: rows).filter (fun row => decide (first ≤ row.1.cursor)) =
      if first ≤ c then row :: rows.filter (fun row => decide (first ≤ row.1.cursor))
      else rows.filter (fun row => decide (first ≤ row.1.cursor)) := by
  rw [List.filter_cons, h]
  simp

/-- After its checkpoint a window is proven row by row. -/
theorem verifyRows_predecessor {rest : Journal} {before : AuthorityStoreCommittedTransaction}
    {checkpoint first : Nat} (history : SqliteHistory identity (index + 1) rest)
    (based : IsProjection before.projection) (late : checkpoint ≤ index + 1) :
    store.verifyRows identity checkpoint first (store.provenState index before)
        (store.storedRows identity (index + 1) (some before.projection) rest) =
      .ok ((store.decodedRows identity (index + 1) (some before.projection) rest).filter
        (fun row => decide (first ≤ row.1.cursor))) := by
  induction rest generalizing index before with
  | nil => rfl
  | cons transaction rest ih =>
    obtain ⟨entry, history⟩ := history
    have decoded := decodeCommitRow_storedRow store entry
      (show ∀ v ∈ some before.projection, IsProjection v by
        intro v hv
        obtain rfl := Option.some.inj hv
        exact based)
    have later : ¬ index + 1 + 1 = checkpoint := by omega
    rw [storedRows, verifyRows, decoded, ok_bind]
    simp only [show (store.decodedRow identity (index + 1) (some before.projection)
      transaction).cursor = index + 1 + 1 from rfl, later, if_false,
      verifyCommitRow_predecessor entry based, ok_bind,
      ih history entry.isProjection (by omega), decodedRows]
    rw [filter_cons_decoded (c := index + 1 + 1) rfl]
    rfl

variable (store) in
/-- A window starts with the row its checkpoint seals. -/
theorem verifyRows_sealed {rest : Journal} (first : Nat)
    (history : SqliteHistory identity index (transaction :: rest))
    (based : ∀ v ∈ previous, IsProjection v) :
    store.verifyRows identity (index + 1) first (store.provenState index transaction)
        (store.storedRows identity index previous (transaction :: rest)) =
      .ok ((store.decodedRows identity index previous (transaction :: rest)).filter
        (fun row => decide (first ≤ row.1.cursor))) := by
  obtain ⟨entry, history⟩ := history
  rw [storedRows, verifyRows, decodeCommitRow_storedRow store entry based, ok_bind]
  simp only [show (store.decodedRow identity index previous transaction).cursor = index + 1 from rfl,
    if_true, verifyCommitRow_sealed entry, ok_bind,
    verifyRows_predecessor history entry.isProjection (Nat.le_refl _), decodedRows]
  rw [filter_cons_decoded (c := index + 1) rfl]
  rfl

end Proofs

section Ranges

variable {store identity} {journal : Journal}

theorem isProjection_projectionAfter {index : Nat} {before : Journal}
    (history : SqliteHistory identity index before) :
    ∀ v ∈ projectionAfter none before, IsProjection v := by
  intro v hv
  cases before using List.reverseRecOn with
  | nil => simp [projectionAfter] at hv
  | append_singleton init last =>
    obtain rfl : last.projection = v := by simpa [projectionAfter] using hv
    exact (sqliteHistory_append.1 history).2.1.isProjection

theorem identity_databaseOf (pattern : isSqliteIdentity identity = true)
    (lineage : ∀ expected ∈ store.expectedIdentity, expected = identity) :
    store.identity (store.databaseOf identity journal) = .ok identity := by
  have any : store.expectedIdentity.any (fun e => decide (e ≠ identity)) = false := by
    cases h : store.expectedIdentity with
    | none => rfl
    | some expected => simp [lineage expected h]
  simp only [SqliteStore.identity, databaseOf, any, pattern]
  simp

variable (store) in
private theorem find_sealed {before : Journal} (rest : Journal)
    (transaction : AuthorityStoreCommittedTransaction) (aligned : before.length % AUTHORITY_STATE_CHECKPOINT_INTERVAL = 0) :
    (store.sealedStates 0 (before ++ transaction :: rest)).find?
        (fun row => row.cursor = before.length + 1) =
      some ⟨before.length + 1, stringify transaction.projection,
        authorityStateDigest store.sha transaction.projection⟩ := by
  have early : (store.sealedStates 0 before).find? (fun row => row.cursor = before.length + 1) =
      none := by
    rw [List.find?_eq_none]
    intro row hrow
    have := cursor_of_mem_sealedStates hrow
    simp only [decide_eq_true_eq]
    omega
  rw [sealedStates_append, List.find?_append, early, Option.none_or, Nat.zero_add, sealedStates,
    if_pos aligned, List.find?_cons_of_pos (by simp)]

variable (store) in
theorem loadCheckpoint_databaseOf {before : Journal} (rest : Journal)
    {transaction : AuthorityStoreCommittedTransaction} {cursor : Nat}
    (covering : authorityStateCheckpointCursor cursor = .ok (before.length + 1))
    (aligned : before.length % AUTHORITY_STATE_CHECKPOINT_INTERVAL = 0)
    (entry : SqliteEntry identity before.length transaction) :
    store.loadCheckpoint (store.databaseOf identity (before ++ transaction :: rest)) cursor =
      .ok (store.provenState before.length transaction) := by
  have digest : AuthorityStateReplay.stateDigest store.sha ⟨transaction.projection⟩ =
      authorityStateDigest store.sha transaction.projection :=
    AuthorityStateReplay.stateDigest_eq store.sha entry.projection.2
  simp only [loadCheckpoint, covering, ok_bind, databaseOf, find_sealed store rest transaction aligned,
    parse_projection entry.projection, create_of_canonical entry.projection,
    requireDigest_stateDigest, digest, ne_eq, not_true, if_false]
  rfl

variable (store identity) in
/-- The rows of a span are the span's rows. -/
private theorem windowRows_databaseOf (before span rest : Journal) :
    windowRows (store.databaseOf identity (before ++ (span ++ rest))) (before.length + 1)
        (before.length + span.length) =
      .ok (store.storedRows identity before.length (projectionAfter none before) span) := by
  have early : (store.storedRows identity 0 none before).filter (fun row =>
      decide (before.length + 1 ≤ row.cursor ∧ row.cursor ≤ before.length + span.length)) = [] := by
    rw [List.filter_eq_nil_iff]
    intro row hrow
    have := cursor_of_mem_storedRows hrow
    simp only [decide_eq_true_eq]
    omega
  have inside : (store.storedRows identity before.length (projectionAfter none before)
      span).filter (fun row => decide (before.length + 1 ≤ row.cursor ∧
        row.cursor ≤ before.length + span.length)) =
      store.storedRows identity before.length (projectionAfter none before) span := by
    rw [List.filter_eq_self]
    intro row hrow
    have := cursor_of_mem_storedRows hrow
    simp only [decide_eq_true_eq]
    omega
  have late : (store.storedRows identity (before.length + span.length)
      (projectionAfter (projectionAfter none before) span) rest).filter (fun row =>
        decide (before.length + 1 ≤ row.cursor ∧ row.cursor ≤ before.length + span.length)) =
      [] := by
    rw [List.filter_eq_nil_iff]
    intro row hrow
    have := cursor_of_mem_storedRows hrow
    simp only [decide_eq_true_eq]
    omega
  simp only [windowRows, databaseOf, storedRows_append, Nat.zero_add, List.filter_append, early,
    inside, late, List.nil_append, List.append_nil, length_storedRows]
  rw [if_neg (by omega)]

private theorem filter_decodedRows {index : Nat} {previous : Option Json} (skipped span : Journal)
    {first : Nat} (start : first = index + skipped.length + 1) :
    (store.decodedRows identity index previous (skipped ++ span)).filter
        (fun row => decide (first ≤ row.1.cursor)) =
      store.decodedRows identity (index + skipped.length) (projectionAfter previous skipped)
        span := by
  have early : (store.decodedRows identity index previous skipped).filter
      (fun row => decide (first ≤ row.1.cursor)) = [] := by
    rw [List.filter_eq_nil_iff]
    intro row hrow
    have := cursor_of_mem_decodedRows hrow
    simp only [decide_eq_true_eq]
    omega
  have inside : (store.decodedRows identity (index + skipped.length)
      (projectionAfter previous skipped) span).filter
        (fun row => decide (first ≤ row.1.cursor)) =
      store.decodedRows identity (index + skipped.length) (projectionAfter previous skipped)
        span := by
    rw [List.filter_eq_self]
    intro row hrow
    have := cursor_of_mem_decodedRows hrow
    simp only [decide_eq_true_eq]
    omega
  rw [decodedRows_append, List.filter_append, early, inside, List.nil_append]

/-- The store accepts a database that carries its goal and one of its identities. -/
structure Opens (store : SqliteStore) (identity : String) : Prop where
  pattern : isSqliteIdentity identity = true
  lineage : ∀ expected ∈ store.expectedIdentity, expected = identity

/-- A span between the checkpoint at `before` and `last` is proven and handed out from `first`. -/
private theorem verifiedRange_split (opens : Opens store identity) {before skipped span rest : Journal}
    (history : SqliteHistory identity 0 (before ++ (skipped ++ span ++ rest)))
    (covering : authorityStateCheckpointCursor (before.length + skipped.length + 1) =
      .ok (before.length + 1))
    (aligned : before.length % AUTHORITY_STATE_CHECKPOINT_INTERVAL = 0) (nonempty : span ≠ []) :
    store.verifiedRange (store.databaseOf identity (before ++ (skipped ++ span ++ rest)))
        (before.length + skipped.length + 1) (before.length + skipped.length + span.length) =
      .ok (identity, store.decodedRows identity (before.length + skipped.length)
        (projectionAfter (projectionAfter none before) skipped) span) := by
  obtain ⟨transaction, tail, hwindow⟩ : ∃ transaction tail, skipped ++ span = transaction :: tail :=
    List.exists_cons_of_ne_nil (by simp [nonempty])
  obtain ⟨hbefore, hrest⟩ := sqliteHistory_append.1 history
  rw [Nat.zero_add] at hrest
  have hspan := (sqliteHistory_append.1 hrest).1
  have entry : SqliteEntry identity before.length transaction := by
    rw [hwindow] at hspan
    exact hspan.1
  have checkpoint := loadCheckpoint_databaseOf store (tail ++ rest) covering aligned entry
  rw [← List.cons_append, ← hwindow] at checkpoint
  have rows := windowRows_databaseOf store identity before (skipped ++ span) rest
  rw [List.length_append, ← Nat.add_assoc] at rows
  have verified := verifyRows_sealed store (before.length + skipped.length + 1)
    (hwindow ▸ hspan) (isProjection_projectionAfter hbefore)
  rw [← hwindow, filter_decodedRows skipped span rfl] at verified
  simp only [verifiedRange, identity_databaseOf opens.pattern opens.lineage, ok_bind, checkpoint,
    provenState, rows]
  rw [show (⟨before.length + 1, authorityStateDigest store.sha transaction.projection,
    ⟨transaction.projection⟩⟩ : SqliteReplayCursor) = store.provenState before.length transaction
      from rfl, verified, ok_bind]

theorem projectionAfter_append (previous : Option Json) (first second : Journal) :
    projectionAfter previous (first ++ second) =
      projectionAfter (projectionAfter previous first) second := by
  cases second using List.reverseRecOn with
  | nil => simp [projectionAfter]
  | append_singleton init last => simp [projectionAfter, ← List.append_assoc]

/-- Every span of a retained history is proven, from the state right before it. -/
theorem verifiedRange_span (opens : Opens store identity)
    (history : SqliteHistory identity 0 journal) {first last : Nat} (positive : 1 ≤ first)
    (ordered : first ≤ last) (retained : last ≤ journal.length) :
    store.verifiedRange (store.databaseOf identity journal) first last =
      .ok (identity, store.decodedRows identity (first - 1)
        (projectionAfter none (journal.take (first - 1)))
        ((journal.drop (first - 1)).take (last + 1 - first))) := by
  let start := (first - 1) / AUTHORITY_STATE_CHECKPOINT_INTERVAL *
    AUTHORITY_STATE_CHECKPOINT_INTERVAL
  have hstart : start ≤ first - 1 := Nat.div_mul_le_self _ _
  let before := journal.take start
  let skipped := (journal.drop start).take (first - 1 - start)
  let span := (journal.drop (first - 1)).take (last + 1 - first)
  let rest := journal.drop last
  have hbefore : before.length = start := by
    simp only [before, List.length_take]
    omega
  have hskipped : skipped.length = first - 1 - start := by
    simp only [skipped, List.length_take, List.length_drop]
    omega
  have hspan : span.length = last + 1 - first := by
    simp only [span, List.length_take, List.length_drop]
    omega
  have hjournal : journal = before ++ (skipped ++ span ++ rest) := by
    have htail : journal.drop (first - 1) = span ++ rest := by
      have hdrop : (journal.drop (first - 1)).drop (last + 1 - first) = rest := by
        rw [List.drop_drop]
        congr 1
        omega
      rw [← hdrop, List.take_append_drop]
    have hmiddle : journal.drop start = skipped ++ (span ++ rest) := by
      have hdrop : (journal.drop start).drop (first - 1 - start) = span ++ rest := by
        rw [List.drop_drop, ← htail]
        congr 1
        omega
      rw [← hdrop, List.take_append_drop]
    rw [List.append_assoc, ← hmiddle, List.take_append_drop]
  have covering : authorityStateCheckpointCursor (before.length + skipped.length + 1) =
      .ok (before.length + 1) := by
    have hcursor : before.length + skipped.length + 1 = first := by omega
    rw [hcursor, hbefore, authorityStateCheckpointCursor, if_neg (by omega)]
  have aligned : before.length % AUTHORITY_STATE_CHECKPOINT_INTERVAL = 0 := by
    rw [hbefore]
    exact Nat.mul_mod_left _ _
  have nonempty : span ≠ [] := by
    intro hnil
    rw [hnil, List.length_nil] at hspan
    omega
  rw [hjournal] at history
  have proven := verifiedRange_split opens history covering aligned nonempty
  have earlier : before ++ skipped = journal.take (first - 1) := by
    rw [hjournal, List.append_assoc, ← List.append_assoc]
    exact (List.take_left' (by rw [List.length_append]; omega)).symm
  rw [← hjournal, ← projectionAfter_append, earlier,
    show before.length + skipped.length + 1 = first by omega,
    show before.length + skipped.length + span.length = last by omega,
    show before.length + skipped.length = first - 1 by omega] at proven
  exact proven

theorem verifiedRange_databaseOf (opens : Opens store identity)
    (history : SqliteHistory identity 0 journal) {first last : Nat} (positive : 1 ≤ first)
    (ordered : first ≤ last) (retained : last ≤ journal.length) :
    ∃ previous, store.verifiedRange (store.databaseOf identity journal) first last =
      .ok (identity, store.decodedRows identity (first - 1) previous
        ((journal.drop (first - 1)).take (last + 1 - first))) :=
  ⟨_, verifiedRange_span opens history positive ordered retained⟩

end Ranges

section Head

variable {store identity} {journal : Journal}

variable (store identity) in
theorem find_cursor (before rest : Journal) (transaction : AuthorityStoreCommittedTransaction) :
    (store.storedRows identity 0 none (before ++ transaction :: rest)).find?
        (fun row => row.cursor = before.length + 1) =
      some (store.storedRow identity before.length (projectionAfter none before) transaction) := by
  have early : (store.storedRows identity 0 none before).find?
      (fun row => row.cursor = before.length + 1) = none := by
    rw [List.find?_eq_none]
    intro row hrow
    have := cursor_of_mem_storedRows hrow
    simp only [decide_eq_true_eq]
    omega
  rw [storedRows_append, List.find?_append, early, Option.none_or, Nat.zero_add, storedRows,
    List.find?_cons_of_pos (by simp [storedRow])]

theorem cursors_storedRows (index : Nat) (previous : Option Json) :
    (store.storedRows identity index previous journal).map (fun row => row.cursor) =
      List.range' (index + 1) journal.length := by
  induction journal generalizing index previous with
  | nil => rfl
  | cons transaction journal ih =>
    rw [storedRows, List.map_cons, ih, List.length_cons, List.range'_succ]
    rfl

/-- The bounds of the cursors one to `count`. -/
theorem bounds_range' {count : Nat} (positive : 0 < count) :
    (List.range' 1 count).min? = some 1 ∧ (List.range' 1 count).max? = some count := by
  constructor
  · rw [List.min?_eq_some_iff]
    refine ⟨by rw [List.mem_range'_1]; omega, ?_⟩
    intro b hb
    rw [List.mem_range'_1] at hb
    exact hb.1
  · rw [List.max?_eq_some_iff]
    refine ⟨by rw [List.mem_range'_1]; omega, ?_⟩
    intro b hb
    rw [List.mem_range'_1] at hb
    omega

variable (store identity) in
private theorem isContiguous_databaseOf (nonempty : journal ≠ []) :
    isContiguous (store.databaseOf identity journal) journal.length = true := by
  obtain ⟨smallest, largest⟩ := bounds_range' (List.length_pos_iff.mpr nonempty)
  simp [isContiguous, databaseOf, cursors_storedRows, smallest, largest]

variable (store) in
private theorem exists_checkpoint {cursor : Nat} (positive : 1 ≤ cursor)
    (retained : cursor ≤ journal.length) :
    ∃ checkpoint, authorityStateCheckpointCursor cursor = .ok checkpoint ∧
      (store.sealedStates 0 journal).all (fun row => decide (row.cursor ≠ checkpoint)) = false := by
  let start := (cursor - 1) / AUTHORITY_STATE_CHECKPOINT_INTERVAL *
    AUTHORITY_STATE_CHECKPOINT_INTERVAL
  have hstart : start ≤ cursor - 1 := Nat.div_mul_le_self _ _
  refine ⟨start + 1, by rw [authorityStateCheckpointCursor, if_neg (by omega)], ?_⟩
  have hlength : (journal.take start).length = start := by
    rw [List.length_take]
    omega
  have hsplit : journal = journal.take start ++ journal[start] :: journal.drop (start + 1) := by
    rw [← List.drop_eq_getElem_cons (by omega), List.take_append_drop]
  have found := find_sealed store (journal.drop (start + 1)) journal[start] (show
    (journal.take start).length % AUTHORITY_STATE_CHECKPOINT_INTERVAL = 0 by
      rw [hlength]
      exact Nat.mul_mod_left _ _)
  rw [← hsplit, hlength] at found
  rw [List.all_eq_false]
  exact ⟨_, List.mem_of_find?_eq_some found, by simp⟩

variable (store identity) in
private theorem parentMismatch_databaseOf (init : Journal)
    (last : AuthorityStoreCommittedTransaction) :
    parentMismatch (store.databaseOf identity (init ++ [last])) (init.length + 1)
      ((projectionAfter none init).map (authorityStateDigest store.sha)) = false := by
  cases init using List.reverseRecOn with
  | nil => rfl
  | append_singleton first parent =>
    have found := find_cursor store identity first [last] parent
    simp only [parentMismatch, databaseOf, List.length_append, List.length_singleton,
      List.append_assoc, List.singleton_append, Nat.add_sub_cancel, found]
    simp [storedRow, projectionAfter]

/-- The live head is proven from its own evidence. -/
theorem current_databaseOf (opens : Opens store identity)
    (history : SqliteHistory identity 0 journal) :
    store.current (store.databaseOf identity journal) =
      .ok (store.headOfHistory identity journal) := by
  rw [current, identity_databaseOf opens.pattern opens.lineage, ok_bind]
  cases journal using List.reverseRecOn with
  | nil => rfl
  | append_singleton init last =>
    have entry : SqliteEntry identity init.length last := by
      have h := (sqliteHistory_append.1 history).2.1
      rwa [Nat.zero_add] at h
    have based := isProjection_projectionAfter (sqliteHistory_append.1 history).1
    have head : store.headRow (init ++ [last]) = some ⟨init.length + 1, stringify last.projection,
        authorityStateDigest store.sha last.projection⟩ := by
      simp [headRow]
    have contiguous := isContiguous_databaseOf store identity
      (show init ++ [last] ≠ [] by simp)
    rw [List.length_append, List.length_singleton] at contiguous
    have newest := find_cursor store identity init [] last
    obtain ⟨checkpoint, hcheckpoint, hsealed⟩ := exists_checkpoint store
      (show 1 ≤ init.length + 1 by omega) (show init.length + 1 ≤ (init ++ [last]).length by simp)
    have proven : store.proveHead (store.databaseOf identity (init ++ [last])) identity
        ⟨init.length + 1, stringify last.projection,
          authorityStateDigest store.sha last.projection⟩ =
        .ok ⟨init.length + 1, last.projection, authorityStateDigest store.sha last.projection,
          sqliteRevision identity (init.length + 1), identity⟩ := by
      have rows : (store.databaseOf identity (init ++ [last])).commits =
        store.storedRows identity 0 none (init ++ [last]) := rfl
      have checkpoints : (store.databaseOf identity (init ++ [last])).checkpoints =
        store.sealedStates 0 (init ++ [last]) := rfl
      have parent := parentMismatch_databaseOf store identity init last
      simp only [proveHead, parse_projection entry.projection, ok_bind,
        canonicalAuthorityObject_of_canonical entry.projection, requireDigest_stateDigest, ne_eq,
        not_true, if_false, rows, newest, decodeCommitRow_storedRow store entry based, hcheckpoint,
        checkpoints]
      simp only [decodedRow, not_true, if_false, parent, Bool.false_eq_true]
      rw [if_neg (by simpa using hsealed)]
    have table : (store.databaseOf identity (init ++ [last])).head = some ⟨init.length + 1,
      stringify last.projection, authorityStateDigest store.sha last.projection⟩ := head
    simp only [table, Nat.add_one_ne_zero, if_false, contiguous, Bool.true_eq_false, proven, ok_bind]
    simp [headOfHistory]

end Head

end SqliteStore

end Loopx.Authority
