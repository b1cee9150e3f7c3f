/- GID: Loopx/Authority/SqliteStoreRuns
   generality: I
   source: loopx/control_plane/coordination/sqlite_authority_store.ts
   digest: Every database any sequence of commits leaves is audited, replayed and read alike. -/

import Loopx.Authority.SqliteAudit

set_option autoImplicit false
set_option relaxedAutoImplicit false

namespace Loopx.Authority

open Loopx.Lib.Fallible (ok_bind error_bind)
open Loopx.Json (stringify canonicalAuthorityBytes)

section Handles

variable {store store' : SqliteStore} {s : SqliteState} {journal : Journal}

/-- Two handles of one goal. -/
structure SqliteStore.SameGoal (store store' : SqliteStore) : Prop where
  sha : store'.sha = store.sha
  goal : store'.goalId = store.goalId

private theorem storedRows_handle (same : store.SameGoal store') (identity : String) (index : Nat)
    (previous : Option Json) (journal : Journal) :
    store'.storedRows identity index previous journal =
      store.storedRows identity index previous journal := by
  induction journal generalizing index previous with
  | nil => rfl
  | cons transaction journal ih =>
    simp only [SqliteStore.storedRows, SqliteStore.storedRow, ih, same.sha]

private theorem sealedStates_handle (same : store.SameGoal store') (index : Nat)
    (journal : Journal) : store'.sealedStates index journal = store.sealedStates index journal := by
  induction journal generalizing index with
  | nil => rfl
  | cons transaction journal ih => simp only [SqliteStore.sealedStates, ih, same.sha]

/-- What a database retains does not depend on the handle that reads it. -/
theorem SqliteStore.databaseOf_handle (same : store.SameGoal store') (identity : String)
    (journal : Journal) : store'.databaseOf identity journal = store.databaseOf identity journal := by
  simp only [SqliteStore.databaseOf, storedRows_handle same, sealedStates_handle same,
    SqliteStore.headRow, same.sha, same.goal]

theorem SqliteStore.Sound.handle (h : SqliteStore.Sound store s journal)
    (same : store.SameGoal store') : SqliteStore.Sound store' s journal where
  distinct := h.distinct
  missing := h.missing
  retained := by
    intro db hdb
    rcases h.retained db hdb with rfl | ⟨identity, pattern, rfl, hhistory, hrecorded⟩
    · exact Or.inl rfl
    · exact Or.inr ⟨identity, pattern, (SqliteStore.databaseOf_handle same identity journal).symm,
        hhistory, hrecorded⟩

end Handles

/-- One commit: the handle it is made through, what the driver does, and the request. -/
structure SqliteCall where
  existingOnly : Bool
  expectedIdentity : Option String
  env : SqliteEnvironment
  commit : AuthorityStoreCommit
  fits : commit.nextProjection.Fits

namespace SqliteCall

def store (sha : Sha256) (goal : String) (call : SqliteCall) : SqliteStore :=
  ⟨sha, goal, call.existingOnly, call.expectedIdentity⟩

def perform (sha : Sha256) (goal : String) (s : SqliteState) (call : SqliteCall) :
    SqliteState × AuthorityStoreCommitResult :=
  (call.store sha goal).commitAuthority call.env s call.commit

end SqliteCall

/-- The file after commits in the order in which they held the write lock. -/
def sqliteAfter (sha : Sha256) (goal : String) (calls : List SqliteCall) : SqliteState :=
  calls.foldl (fun s call => (call.perform sha goal s).1) SqliteState.empty

section Runs

variable {sha : Sha256} {goal : String}

/-- The file is sound for every handle of the goal. -/
def SqliteSound (sha : Sha256) (goal : String) (s : SqliteState) (journal : Journal) : Prop :=
  SqliteStore.Sound ⟨sha, goal, false, none⟩ s journal

theorem SqliteSound.handle {s : SqliteState} {journal : Journal} {store : SqliteStore}
    (h : SqliteSound sha goal s journal) (hsha : store.sha = sha) (hgoal : store.goalId = goal) :
    SqliteStore.Sound store s journal :=
  SqliteStore.Sound.handle h ⟨hsha, hgoal⟩

theorem SqliteCall.perform_proofs (s : SqliteState) (call : SqliteCall) :
    s.proofs ⊆ (call.perform sha goal s).1.proofs :=
  SqliteStore.commitAuthority_proofs _ _ _ _

/-- One commit keeps the file sound, and its journal only grows. -/
theorem SqliteCall.perform_sound {s : SqliteState} {journal : Journal}
    (h : SqliteSound sha goal s journal) (call : SqliteCall)
    (collisionFree : NoCollision sha (call.perform sha goal s).1.proofs) :
    ∃ journal', SqliteSound sha goal (call.perform sha goal s).1 journal' ∧
      journal <+: journal' := by
  have opened : SqliteStore.Sound (call.store sha goal) s journal := h.handle rfl rfl
  obtain ⟨s', result, journal', answer, hrun, hsound, -, -, hcase⟩ :=
    SqliteStore.commitAuthority_submit opened call.env call.fits collisionFree
  have hperform : (call.perform sha goal s).1 = s' := by rw [SqliteCall.perform, hrun]
  refine ⟨journal', ?_, ?_⟩
  · rw [hperform]
    exact hsound.handle ⟨rfl, rfl⟩
  · cases hnormalize : normalizeAuthorityStoreCommit call.commit with
    | error reason =>
      rw [hnormalize] at hcase
      rw [hcase.1]
    | ok normalized =>
      rw [hnormalize] at hcase
      exact hcase.1.isPrefix

theorem sqliteAfter_append_singleton (calls : List SqliteCall) (call : SqliteCall) :
    sqliteAfter sha goal (calls ++ [call]) =
      (call.perform sha goal (sqliteAfter sha goal calls)).1 := by
  rw [sqliteAfter, List.foldl_append]
  rfl

/-- Every run keeps the file sound. -/
theorem sqliteAfter_sound (calls : List SqliteCall)
    (collisionFree : NoCollision sha (sqliteAfter sha goal calls).proofs) :
    ∃ journal, SqliteSound sha goal (sqliteAfter sha goal calls) journal := by
  induction calls using List.reverseRecOn with
  | nil => exact ⟨[], SqliteStore.sound_empty _⟩
  | append_singleton calls call ih =>
    rw [sqliteAfter_append_singleton] at collisionFree ⊢
    obtain ⟨journal, hsound⟩ := ih (collisionFree.mono (call.perform_proofs _))
    obtain ⟨journal', hsound', -⟩ := call.perform_sound hsound collisionFree
    exact ⟨journal', hsound'⟩

end Runs

section Verified

/-- A handle of the goal that accepts this store, while the driver answers. -/
structure SqliteReader (sha : Sha256) (goal identity : String) (store : SqliteStore)
    (env : SqliteEnvironment) : Prop where
  sha : store.sha = sha
  goal : store.goalId = goal
  lineage : ∀ expected ∈ store.expectedIdentity, expected = identity
  available : env.unavailable = false

/-- What every reader finds in the database of an installed store. -/
structure SqliteVerified (sha : Sha256) (goal : String) (s : SqliteState) (db : SqliteDatabase)
    (identity : String) : Prop where
  audited : ∀ store env, SqliteReader sha goal identity store env →
    store.verifyAuthorityHistory env s = .ok ⟨db.commits.length, db.checkpoints.length⟩
  /-- The head row repeats the last row: its cursor, its digest and its replayed state. -/
  headed : ∀ store env, SqliteReader sha goal identity store env →
    ∃ rows, store.replayHistory identity db = .ok rows ∧
      rows.map (fun row => row.1.cursor) = db.commits.map (fun row => row.cursor) ∧
      db.head.map (fun head => (head.cursor, head.stateDigest)) =
        db.commits.getLast?.map (fun row => (row.cursor, row.stateDigest)) ∧
      db.head.map (fun head => head.projection) =
        rows.getLast?.map (fun row => stringify row.2.snapshot)
  /-- Every range proven from its checkpoint is that part of the replay from the first row. -/
  ranged : ∀ store env, SqliteReader sha goal identity store env →
    ∀ first last, 1 ≤ first → first ≤ last → last ≤ db.commits.length →
    ∃ rows, store.replayHistory identity db = .ok rows ∧
      store.verifiedRange db first last =
        .ok (identity, rows.filter (fun row => first ≤ row.1.cursor ∧ row.1.cursor ≤ last))
  /-- A batch of one to 64 ids answers each as a single read would. -/
  batched : ∀ store env, SqliteReader sha goal identity store env →
    ∀ ids : List String, 1 ≤ ids.length → ids.length ≤ 64 → (∀ id ∈ ids, IsStoreId id) →
    store.readReceipts env s ids = .receipts (ids.map (store.readReceipt env s))

variable {sha : Sha256} {goal : String} {store : SqliteStore} {identity : String}
  {journal : Journal} {s : SqliteState} {env : SqliteEnvironment}

private theorem requireOperationIds_valid {ids : List String} (h : ∀ id ∈ ids, IsStoreId id) :
    requireOperationIds ids = .ok ids := by
  induction ids with
  | nil => rfl
  | cons id ids ih =>
    have first : requireAuthorityStoreId (some (.string id)) "operation id" = .ok id :=
      requireAuthorityStoreId_eq_ok.mpr ⟨rfl, h id List.mem_cons_self⟩
    rw [requireOperationIds, first, ok_bind, ih (fun id hid => h id (List.mem_cons_of_mem _ hid)),
      ok_bind]

private theorem batched_of_opened (opened : SqliteStore.Opened store s journal identity)
    (available : env.unavailable = false) {ids : List String} (some : 1 ≤ ids.length)
    (few : ids.length ≤ 64) (valid : ∀ id ∈ ids, IsStoreId id) :
    store.readReceipts env s ids = .receipts (ids.map (store.readReceipt env s)) := by
  have settled : SqliteStore.Settled store s journal := Or.inr ⟨identity, opened⟩
  have batch : receiptBatch ids = .ok ids := by
    rw [receiptBatch, if_neg (by omega), requireOperationIds_valid valid]
  rw [SqliteStore.readReceipts_reads settled available, batch]
  simp only [AuthorityStoreReceiptBatchResult.receipts.injEq]
  apply List.map_congr_left
  intro id hid
  rw [SqliteStore.readReceipt_reads settled available,
    requireAuthorityStoreId_eq_ok.mpr ⟨rfl, valid id hid⟩]

private theorem cursors_decoded (index : Nat) (previous : Option Json) (journal : Journal) :
    (store.decodedRows identity index previous journal).map (fun row => row.1.cursor) =
      (store.storedRows identity index previous journal).map (fun row => row.cursor) := by
  induction journal generalizing index previous with
  | nil => rfl
  | cons transaction journal ih =>
    rw [SqliteStore.decodedRows, SqliteStore.storedRows, List.map_cons, List.map_cons, ih]
    rfl

/-- The rows of one span are those whose cursors lie in it. -/
private theorem filter_span {first last : Nat} (positive : 1 ≤ first) (ordered : first ≤ last)
    (retained : last ≤ journal.length) :
    (store.decodedRows identity 0 none journal).filter
        (fun row => decide (first ≤ row.1.cursor ∧ row.1.cursor ≤ last)) =
      store.decodedRows identity (first - 1) (projectionAfter none (journal.take (first - 1)))
        ((journal.drop (first - 1)).take (last + 1 - first)) := by
  let before := journal.take (first - 1)
  let span := (journal.drop (first - 1)).take (last + 1 - first)
  let rest := (journal.drop (first - 1)).drop (last + 1 - first)
  have hbefore : before.length = first - 1 := by
    simp only [before, List.length_take]
    omega
  have hspan : span.length = last + 1 - first := by
    simp only [span, List.length_take, List.length_drop]
    omega
  have hjournal : journal = before ++ (span ++ rest) := by
    rw [List.take_append_drop, List.take_append_drop]
  have outside : ∀ {index : Nat} {previous : Option Json} {part : Journal},
      (index + part.length < first ∨ last ≤ index) →
      (store.decodedRows identity index previous part).filter
        (fun row => decide (first ≤ row.1.cursor ∧ row.1.cursor ≤ last)) = [] := by
    intro index previous part far
    rw [List.filter_eq_nil_iff]
    intro row hrow
    have := SqliteStore.cursor_of_mem_decodedRows hrow
    simp only [decide_eq_true_eq]
    omega
  have inside : (store.decodedRows identity (first - 1) (projectionAfter none before)
      span).filter (fun row => decide (first ≤ row.1.cursor ∧ row.1.cursor ≤ last)) =
      store.decodedRows identity (first - 1) (projectionAfter none before) span := by
    rw [List.filter_eq_self]
    intro row hrow
    have := SqliteStore.cursor_of_mem_decodedRows hrow
    simp only [decide_eq_true_eq]
    omega
  have parts : store.decodedRows identity 0 none journal =
      store.decodedRows identity 0 none before ++
        (store.decodedRows identity (first - 1) (projectionAfter none before) span ++
          store.decodedRows identity (first - 1 + span.length)
            (projectionAfter (projectionAfter none before) span) rest) := by
    conv => lhs; rw [hjournal]
    rw [SqliteStore.decodedRows_append, SqliteStore.decodedRows_append, Nat.zero_add, hbefore]
  rw [parts, List.filter_append, List.filter_append, inside,
    outside (Or.inl (by omega)), outside (Or.inr (by omega)), List.nil_append, List.append_nil]

variable (store identity journal) in
private theorem headed_of_history :
    (store.headRow journal).map (fun head => (head.cursor, head.stateDigest)) =
        (store.storedRows identity 0 none journal).getLast?.map
          (fun row => (row.cursor, row.stateDigest)) ∧
      (store.headRow journal).map (fun head => head.projection) =
        (store.decodedRows identity 0 none journal).getLast?.map
          (fun row => stringify row.2.snapshot) := by
  cases journal using List.reverseRecOn with
  | nil => exact ⟨rfl, rfl⟩
  | append_singleton init last =>
    rw [SqliteStore.storedRows_append, SqliteStore.decodedRows_append]
    simp [SqliteStore.headRow, SqliteStore.storedRows, SqliteStore.decodedRows,
      SqliteStore.storedRow, AuthorityStateReplay.snapshot, Json.copyAuthorityJson]

private theorem audited_of_opened (opened : SqliteStore.Opened store s journal identity)
    (available : env.unavailable = false) :
    store.verifyAuthorityHistory env s = .ok ⟨(store.databaseOf identity journal).commits.length,
      (store.databaseOf identity journal).checkpoints.length⟩ := by
  simp only [SqliteStore.verifyAuthorityHistory, SqliteStore.openRead_opened opened available,
    SqliteStore.auditDatabase_databaseOf opened.opens opened.history]
  simp only [SqliteStore.databaseOf, SqliteStore.length_storedRows]

/-- Every installed store of a sound file is verified. -/
theorem SqliteSound.verified (h : SqliteSound sha goal s journal) {db : SqliteDatabase}
    (hdb : s.database = some db) (installed : db ≠ .blank) :
    ∃ identity, SqliteVerified sha goal s db identity := by
  rcases h.retained db hdb with hblank | ⟨identity, pattern, hretained, history, recorded⟩
  · exact absurd hblank installed
  have opens : ∀ {store : SqliteStore} {env : SqliteEnvironment},
      SqliteReader sha goal identity store env →
      SqliteStore.Opened store s journal identity ∧ db = store.databaseOf identity journal := by
    intro store env reader
    have hsame : db = store.databaseOf identity journal :=
      hretained.trans (SqliteStore.databaseOf_handle ⟨reader.sha, reader.goal⟩ _ _).symm
    exact ⟨⟨⟨pattern, reader.lineage⟩, hdb.trans (congrArg some hsame), history, h.distinct,
      recorded⟩, hsame⟩
  refine ⟨identity, ?_, ?_, ?_, ?_⟩
  · intro store env reader
    obtain ⟨opened, rfl⟩ := opens reader
    exact audited_of_opened opened reader.available
  · intro store env reader
    obtain ⟨-, rfl⟩ := opens reader
    exact ⟨_, SqliteStore.replayHistory_databaseOf history, cursors_decoded 0 none journal,
      headed_of_history store identity journal⟩
  · intro store env reader first last positive ordered retained
    obtain ⟨opened, rfl⟩ := opens reader
    have inside : last ≤ journal.length := by
      rwa [SqliteStore.databaseOf, SqliteStore.length_storedRows] at retained
    refine ⟨_, SqliteStore.replayHistory_databaseOf history, ?_⟩
    rw [filter_span positive ordered inside]
    exact SqliteStore.verifiedRange_span opened.opens history positive ordered inside
  · intro store env reader ids some few valid
    obtain ⟨opened, rfl⟩ := opens reader
    exact batched_of_opened opened reader.available some few valid

/-- A first commit, through a handle that may ask for a particular store. -/
def sqliteOpenCall (expectedIdentity : Option String) : SqliteCall where
  existingOnly := false
  expectedIdentity := expectedIdentity
  env := ⟨false, false, ⟨"sqlite:0123456789abcdef0123456789abcdef", by decide⟩, .done⟩
  commit := openCommit.commit
  fits := openCommit.fits

/-- The first commit of a Goal, through a handle of any store: it makes the database of a history
of one entry and takes one digest. -/
theorem SqliteStore.commitAuthority_first (store : SqliteStore) {env : SqliteEnvironment}
    (c : NormalizedCommit) (created : store.existingOnly = false)
    (anyone : store.expectedIdentity = none) (available : env.unavailable = false)
    (free : env.busy = false) (lands : env.commit = .done)
    (first : c.commit.expectedProviderRevision = none)
    (size : (canonicalAuthorityBytes (SqliteStore.commitJson c.commit)).size ≤ MAX_COMMIT_BYTES) :
    (store.commitAuthority env .empty c.commit).1 =
      ⟨some (store.databaseOf env.freshIdentity.text
        [SqliteStore.appendedEntry env.freshIdentity.text [] c.commit]),
        [SqliteStore.commitProof env.freshIdentity.text 1 c.commit]⟩ := by
  have opens : SqliteStore.Opens store env.freshIdentity.text :=
    ⟨env.freshIdentity.pattern, by simp [anyone]⟩
  have hopen : store.openWrite env .empty =
      (⟨some (store.databaseOf env.freshIdentity.text []), []⟩,
        .ok (store.databaseOf env.freshIdentity.text [])) := by
    have installed : store.install env.freshIdentity =
        store.databaseOf env.freshIdentity.text [] := rfl
    simp only [SqliteStore.openWrite, created, available, free, SqliteState.empty,
      SqliteDatabase.blank, Option.getD_none, Bool.false_eq_true, false_and, if_false, installed,
      ne_eq, not_true, or_self, and_false, if_true,
      SqliteStore.identity_databaseOf opens.pattern opens.lineage]
  have hdecide : store.decideCommit (store.databaseOf env.freshIdentity.text []) c.commit =
      .ok (.write (store.databaseOf env.freshIdentity.text
        [SqliteStore.appendedEntry env.freshIdentity.text [] c.commit])
        (sqliteRevision env.freshIdentity.text 1) (1 : Nat).repr) := by
    have appended := @SqliteStore.appendCommit_databaseOf store env.freshIdentity.text [] opens
      trivial (by decide) c (by simp)
    simp only [SqliteStore.decideCommit, check, ok_bind, first,
      @SqliteStore.current_databaseOf store env.freshIdentity.text [] opens trivial]
    exact appended
  simp only [SqliteStore.commitAuthority, normalize_of_normal c.normal, first, Option.any_none,
    Bool.false_eq_true, if_false, if_neg (not_lt.mpr size), hopen, SqliteStore.writeCommit, hdecide,
    lands]
  rfl

theorem sqliteAfter_open : ∃ db proof, sqliteAfter Sha256.node "g" [sqliteOpenCall none] =
    ⟨some db, [proof]⟩ ∧ db.userVersion = 2 := by
  have first := @SqliteStore.commitAuthority_first ((sqliteOpenCall none).store Sha256.node "g")
    (sqliteOpenCall none).env openCommit rfl rfl rfl rfl rfl rfl (by decide +kernel)
  rw [sqliteAfter, List.foldl_cons, List.foldl_nil, SqliteCall.perform]
  exact ⟨_, _, first, rfl⟩

end Verified

end Loopx.Authority
