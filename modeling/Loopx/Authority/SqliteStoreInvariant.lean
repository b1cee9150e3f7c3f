/- GID: Loopx/Authority/SqliteStoreInvariant
   generality: I
   source: loopx/control_plane/coordination/sqlite_authority_store.ts
   digest: What every state of a SQLite store satisfies, and what one commit does to its history. -/

import Mathlib.Data.List.TakeWhile
import Loopx.Authority.FileJournalRoundTrip
import Loopx.Authority.SqliteLineage

set_option autoImplicit false
set_option relaxedAutoImplicit false

namespace Loopx.Authority

open Loopx.Lib
open Loopx.Lib.CasLog (Submit Request Answer Distinct)
open Loopx.Lib.Fallible (ok_bind bind_eq_ok)
open Loopx.Json (Protocol Canonical canonicalAuthorityBytes stringify)

namespace SqliteStore

variable {store : SqliteStore} {identity : String} {journal : Journal}

/-- The transaction a commit becomes after this history. -/
def appendedEntry (identity : String) (journal : Journal) (commit : AuthorityStoreCommit) :
    AuthorityStoreCommittedTransaction :=
  ⟨⟨(journal.length + 1).repr, sqliteRevision identity (journal.length + 1), commit.operationId,
    commit.events, commit.receipts⟩, commit.nextProjection⟩

theorem sqliteEntry_appended (c : NormalizedCommit) :
    SqliteEntry identity journal.length (appendedEntry identity journal c.commit) :=
  ⟨rfl, rfl, c.normal.operationId, c.normal.events, c.normal.receipts, c.normal.nextProjection,
    c.fits⟩

theorem sqliteHistory_appended (history : SqliteHistory identity 0 journal)
    (c : NormalizedCommit) :
    SqliteHistory identity 0 (journal ++ [appendedEntry identity journal c.commit]) := by
  rw [sqliteHistory_append, Nat.zero_add]
  exact ⟨history, sqliteEntry_appended c, trivial⟩

theorem insertByKey_append {α : Type} {key : α → Nat} {row : α} {rows : List α}
    (later : ∀ stored ∈ rows, key stored < key row) :
    insertByKey key row rows = rows ++ [row] := by
  have all : ∀ stored ∈ rows, decide (key stored < key row) = true := by
    simpa using later
  rw [insertByKey, List.takeWhile_eq_self_iff.mpr all, List.dropWhile_eq_nil_iff.mpr all]

private theorem length_hex (sha : Sha256) (bytes : ByteArray) : (sha.hex bytes).length = 64 := by
  have bare := sha.bare bytes
  simp only [isBareSha256, Bool.and_eq_true, decide_eq_true_eq] at bare
  rw [← String.length_toList]
  exact bare.1

private theorem length_stateDigest (sha : Sha256) (v : Json) :
    (authorityStateDigest sha v).length = 64 :=
  length_hex sha _

private theorem stateBefore_headOfHistory :
    stateBefore (store.headOfHistory identity journal) =
      baseState (projectionAfter none journal) := by
  cases h : journal.getLast? <;> simp [headOfHistory, stateBefore, projectionAfter, baseState, h]

private theorem parentDigest_headOfHistory :
    parentDigest (store.headOfHistory identity journal) =
      (projectionAfter none journal).map (authorityStateDigest store.sha) := by
  cases h : journal.getLast? <;> simp [headOfHistory, parentDigest, projectionAfter, h]

/-- The checkpoint the next transaction seals, if its cursor is one. -/
theorem sealCheckpoint_tables {db : SqliteDatabase}
    (checkpoints : db.checkpoints = store.sealedStates 0 journal)
    (transaction : AuthorityStoreCommittedTransaction) :
    sealCheckpoint db ⟨journal.length + 1, stringify transaction.projection,
        authorityStateDigest store.sha transaction.projection⟩
        (decide (journal.length % AUTHORITY_STATE_CHECKPOINT_INTERVAL = 0)) =
      .ok { db with checkpoints := store.sealedStates 0 (journal ++ [transaction]) } := by
  rw [sealCheckpoint, sealedStates_append, Nat.zero_add, sealedStates, sealedStates]
  by_cases aligned : journal.length % AUTHORITY_STATE_CHECKPOINT_INTERVAL = 0
  · have fresh : (store.sealedStates 0 journal).any
        (fun stored => decide (stored.cursor = journal.length + 1)) = false := by
      rw [List.any_eq_false]
      intro row hrow
      have := cursor_of_mem_sealedStates hrow
      simp only [decide_eq_true_eq]
      omega
    have placed : insertByKey CheckpointColumns.cursor ⟨journal.length + 1,
        stringify transaction.projection, authorityStateDigest store.sha transaction.projection⟩
          (store.sealedStates 0 journal) =
        store.sealedStates 0 journal ++ [⟨journal.length + 1, stringify transaction.projection,
          authorityStateDigest store.sha transaction.projection⟩] := by
      refine insertByKey_append ?_
      intro row hrow
      have := cursor_of_mem_sealedStates hrow
      simp only
      omega
    simp only [aligned, decide_true, if_true, insertCheckpoint, checkpoints, fresh,
      length_stateDigest, Nat.add_one_ne_zero, ne_eq, not_true, Bool.false_eq_true, or_false,
      if_false, placed]
  · simp only [aligned, decide_false, Bool.false_eq_true, if_false, List.append_nil, ← checkpoints]

/-- The row the next transaction inserts. -/
theorem insertCommit_tables {db : SqliteDatabase}
    (commits : db.commits = store.storedRows identity 0 none journal)
    {transaction : AuthorityStoreCommittedTransaction}
    (fresh : ∀ retained ∈ journal, retained.operationId ≠ transaction.operationId) :
    insertCommit db (store.storedRow identity journal.length (projectionAfter none journal)
        transaction) =
      .ok { db with commits := store.storedRows identity 0 none (journal ++ [transaction]) } := by
  have unused : ∀ stored ∈ store.storedRows identity 0 none journal,
      ¬(stored.cursor = journal.length + 1 ∨ stored.operationId = transaction.operationId) := by
    intro row hrow
    have hcursor := cursor_of_mem_storedRows hrow
    obtain ⟨retained, hretained, hid⟩ := operation_of_mem_storedRows hrow
    have hother := fresh retained hretained
    rw [hid] at hother
    rw [not_or]
    exact ⟨by omega, hother⟩
  have placed : insertByKey CommitColumns.cursor (store.storedRow identity journal.length
      (projectionAfter none journal) transaction) (store.storedRows identity 0 none journal) =
      store.storedRows identity 0 none (journal ++ [transaction]) := by
    rw [storedRows_append, Nat.zero_add]
    refine insertByKey_append ?_
    intro row hrow
    have := cursor_of_mem_storedRows hrow
    simp only [storedRow]
    omega
  have parent : ((projectionAfter none journal).map (authorityStateDigest store.sha)).any
      (fun digest => decide (digest.length ≠ 64)) = false := by
    cases projectionAfter none journal with
    | none => rfl
    | some v => simp [length_stateDigest]
  simp only [insertCommit, commits, placed]
  refine if_neg ?_
  simp only [storedRow, parent, commitDigest, canonicalAuthoritySha256, length_hex,
    length_stateDigest]
  simp only [Nat.add_one_ne_zero, ne_eq, not_true, Bool.false_eq_true, false_or,
    Bool.not_eq_true, List.any_eq_false]
  exact fun stored hstored => decide_eq_false (unused stored hstored)

/-- The head row after the next transaction. -/
theorem upsertHead_tables {transaction : AuthorityStoreCommittedTransaction} {db : SqliteDatabase}
    (commits : db.commits = store.storedRows identity 0 none (journal ++ [transaction])) :
    upsertHead db ⟨journal.length + 1, stringify transaction.projection,
        authorityStateDigest store.sha transaction.projection⟩ =
      .ok { db with head := store.headRow (journal ++ [transaction]) } := by
  have referenced : db.commits.all (fun stored => decide (stored.cursor ≠ journal.length + 1)) =
      false := by
    rw [commits, List.all_eq_false]
    exact ⟨_, List.mem_of_find?_eq_some (find_cursor store identity journal [] transaction),
      by simp [storedRow]⟩
  have head : store.headRow (journal ++ [transaction]) =
      some ⟨journal.length + 1, stringify transaction.projection,
        authorityStateDigest store.sha transaction.projection⟩ := by
    simp [headRow]
  rw [head, upsertHead]
  refine if_neg ?_
  simp only [referenced, length_stateDigest]
  simp

private theorem commitIdentity_databaseOf (opens : Opens store identity) :
    store.commitIdentity (store.databaseOf identity journal)
      (store.headOfHistory identity journal) = .ok identity := by
  cases hlast : journal.getLast? with
  | none =>
    simp only [headOfHistory, hlast, Option.map_none, commitIdentity,
      identity_databaseOf opens.pattern opens.lineage, check]
  | some last => simp only [headOfHistory, hlast, Option.map_some, commitIdentity]

private theorem cursor_headOfHistory :
    ((store.headOfHistory identity journal).map (fun head => head.cursor)).getD 0 =
      journal.length := by
  cases journal using List.reverseRecOn with
  | nil => rfl
  | append_singleton init last => simp [headOfHistory]

/-- Sequence numbers run out. -/
theorem appendCommit_exhausted (opens : Opens store identity)
    (exhausted : MAX_SEQUENCE ≤ journal.length) (commit : AuthorityStoreCommit) :
    store.appendCommit (store.databaseOf identity journal) (store.headOfHistory identity journal)
        commit = .error (.protocol "SQLite authority sequence exhausted") := by
  simp only [appendCommit, commitIdentity_databaseOf opens, ok_bind, cursor_headOfHistory,
    if_pos (show journal.length + 1 > MAX_SEQUENCE by omega)]

/-- An admitted commit turns the database of the history into that of the longer one. -/
theorem appendCommit_databaseOf (opens : Opens store identity)
    (history : SqliteHistory identity 0 journal) (bounded : journal.length < MAX_SEQUENCE)
    {c : NormalizedCommit}
    (fresh : ∀ transaction ∈ journal, transaction.operationId ≠ c.commit.operationId) :
    store.appendCommit (store.databaseOf identity journal) (store.headOfHistory identity journal)
        c.commit =
      .ok (.write (store.databaseOf identity (journal ++ [appendedEntry identity journal c.commit]))
        (sqliteRevision identity (journal.length + 1)) (journal.length + 1).repr) := by
  have based := isProjection_baseState (isProjection_projectionAfter history)
  have admitted : IsProjection c.commit.nextProjection := ⟨c.normal.nextProjection, c.fits⟩
  have reconstructs : authorityStateDeltaReconstructs (baseState (projectionAfter none journal))
      (authorityStateDelta (baseState (projectionAfter none journal))
        c.commit.nextProjection).toJson c.commit.nextProjection = true :=
    authorityStateDeltaReconstructs_authorityStateDelta based.bundle admitted.bundle
  let entry := appendedEntry identity journal c.commit
  have projected : entry.projection = c.commit.nextProjection := rfl
  have checkpointed := @sealCheckpoint_tables store journal (store.databaseOf identity journal) rfl
    entry
  have published : ∀ db : SqliteDatabase,
      db.commits = store.storedRows identity 0 none (journal ++ [entry]) → _ :=
    fun db commits => @upsertHead_tables store identity journal entry db commits
  rw [projected] at checkpointed published
  simp only [appendCommit, commitIdentity_databaseOf opens, ok_bind, cursor_headOfHistory,
    if_neg (show ¬ journal.length + 1 > MAX_SEQUENCE by omega), stateBefore_headOfHistory,
    parentDigest_headOfHistory, canonicalAuthorityObject_of_canonical c.normal.nextProjection, check,
    ok_bind, reconstructs, Bool.true_eq_false, if_false, isAuthorityStateCheckpoint_succ,
    checkpointed]
  rw [show (⟨journal.length + 1, c.commit.operationId, commitDigest store.sha identity
    (journal.length + 1) c.commit.operationId c.commit.nextProjection c.commit.events
      c.commit.receipts, authorityStateDigest store.sha c.commit.nextProjection,
    (projectionAfter none journal).map (authorityStateDigest store.sha),
    stringify (authorityStateDelta (baseState (projectionAfter none journal))
      c.commit.nextProjection).toJson, stringify (.array c.commit.events),
    stringify (.array c.commit.receipts)⟩ : CommitColumns) = store.storedRow identity journal.length
      (projectionAfter none journal) entry from rfl, insertCommit_tables rfl fresh, ok_bind,
    published _ rfl, ok_bind]
  rfl

/-- The bytes behind the commit digest of a retained transaction. -/
def entryProof (identity : String) (index : Nat)
    (transaction : AuthorityStoreCommittedTransaction) : ByteArray :=
  canonicalAuthorityBytes ((commitFields identity (index + 1) transaction.operationId
    transaction.events transaction.receipts).toJson transaction.projection)

/-- Equal proofs at one cursor are proofs of one body. -/
private theorem commitProof_eq_entryProof {index : Nat}
    {transaction : AuthorityStoreCommittedTransaction}
    (entry : SqliteEntry identity index transaction) (c : NormalizedCommit)
    (sameId : transaction.operationId = c.commit.operationId) :
    commitProof identity (index + 1) c.commit = entryProof identity index transaction ↔
      journalShape.body transaction = (commitRequest c.commit).body := by
  rw [commitProof, entryProof, Json.canonicalAuthorityBytes_eq_iff, CommitFields.canonical_toJson,
    CommitFields.canonical_toJson, c.normal.nextProjection.2, entry.projection.2]
  simp only [Json.object.injEq, List.cons.injEq, Prod.mk.injEq, true_and, and_true, commitFields,
    journalShape, commitRequest, CommitBody.mk.injEq, sameId]
  constructor
  · rintro ⟨hevents, hprojection, hreceipts⟩
    exact ⟨(eq_of_canonical_items c.normal.events entry.events hevents).symm,
      (eq_of_canonical_items c.normal.receipts entry.receipts hreceipts).symm, hprojection.symm⟩
  · rintro ⟨hevents, hreceipts, hprojection⟩
    rw [hevents, hreceipts, hprojection]
    exact ⟨rfl, rfl, rfl⟩

theorem find_operation_none {operation : String}
    (fresh : ∀ transaction ∈ journal, transaction.operationId ≠ operation) :
    (store.storedRows identity 0 none journal).find? (fun row => row.operationId = operation) =
      none := by
  rw [List.find?_eq_none]
  intro row hrow
  obtain ⟨transaction, htransaction, hid⟩ := operation_of_mem_storedRows hrow
  simp only [decide_eq_true_eq, ← hid]
  exact fresh transaction htransaction

variable (store identity) in
theorem find_operation {before rest : Journal} {transaction : AuthorityStoreCommittedTransaction}
    (distinct : Distinct journalShape (before ++ transaction :: rest)) :
    (store.storedRows identity 0 none (before ++ transaction :: rest)).find?
        (fun row => row.operationId = transaction.operationId) =
      some (store.storedRow identity before.length (projectionAfter none before) transaction) := by
  have fresh : ∀ earlier ∈ before, earlier.operationId ≠ transaction.operationId := by
    intro earlier hearlier
    rw [Distinct, List.map_append, List.nodup_append] at distinct
    exact distinct.2.2 _ (List.mem_map_of_mem hearlier) _ (by simp [journalShape])
  rw [storedRows_append, List.find?_append, find_operation_none fresh, Option.none_or,
    Nat.zero_add, storedRows, List.find?_cons_of_pos (by simp [storedRow])]

/-- A used operation id is answered from the proven row that used it. -/
theorem replayExisting_databaseOf (opens : Opens store identity) {before rest : Journal}
    {transaction : AuthorityStoreCommittedTransaction}
    (history : SqliteHistory identity 0 (before ++ transaction :: rest)) {c : NormalizedCommit}
    (sameId : transaction.operationId = c.commit.operationId) {proofs : List ByteArray}
    (collisionFree : NoCollision store.sha proofs)
    (recorded : entryProof identity before.length transaction ∈ proofs)
    (compared : commitProof identity (before.length + 1) c.commit ∈ proofs) :
    store.replayExisting (store.databaseOf identity (before ++ transaction :: rest))
        (store.storedRow identity before.length (projectionAfter none before) transaction)
        c.commit =
      .ok (if journalShape.body transaction = (commitRequest c.commit).body then
        some (.applied transaction.providerRevision transaction.cursor) else none) := by
  obtain ⟨hbefore, hrest⟩ := sqliteHistory_append.mp history
  rw [Nat.zero_add] at hrest
  have entry := hrest.1
  obtain ⟨previous, verified⟩ := verifiedRange_databaseOf opens history
    (show 1 ≤ before.length + 1 by omega) (Nat.le_refl _) (by simp)
  have slice : ((before ++ transaction :: rest).drop (before.length + 1 - 1)).take
      (before.length + 1 + 1 - (before.length + 1)) = [transaction] := by
    simp
  rw [slice, Nat.add_sub_cancel] at verified
  have digest : (store.decodedRow identity before.length previous transaction).commitDigest =
      commitDigest store.sha identity (before.length + 1) c.commit.operationId
        c.commit.nextProjection c.commit.events c.commit.receipts ↔
      journalShape.body transaction = (commitRequest c.commit).body := by
    rw [← commitProof_eq_entryProof entry c sameId]
    constructor
    · intro same
      exact (collisionFree _ recorded _ compared same).symm
    · intro same
      exact (congrArg store.sha.hex same).symm
  simp only [replayExisting, decodeCommitRow_storedRow store entry (isProjection_projectionAfter hbefore),
    ok_bind]
  rw [show (store.decodedRow identity before.length (projectionAfter none before)
    transaction).cursor = before.length + 1 from rfl, verified, ok_bind]
  simp only [decodedRows, List.any_cons, List.any_nil, Bool.or_false, List.filter_cons,
    List.filter_nil]
  rw [if_neg (by simp [decodedRow, sameId])]
  simp only [show (store.decodedRow identity before.length previous transaction).cursor =
    before.length + 1 from rfl, digest]
  split
  · rename_i same
    rw [if_pos (of_decide_eq_true same), entry.cursor, entry.revision]
    rfl
  · rename_i other
    rw [if_neg (fun same => other (decide_eq_true same))]
    rfl

variable (store) in
theorem headRevision_history (history : SqliteHistory identity 0 journal) :
    (store.headOfHistory identity journal).map (fun head => head.providerRevision) =
        journal.headRevision ∧
      (store.headOfHistory identity journal).map (fun head => head.cursor.repr) =
        journal.headCursor := by
  cases journal using List.reverseRecOn with
  | nil => exact ⟨rfl, rfl⟩
  | append_singleton init last =>
    have entry : SqliteEntry identity init.length last := by
      have h := (sqliteHistory_append.mp history).2.1
      rwa [Nat.zero_add] at h
    simp [headOfHistory, Journal.headRevision, CasLog.head, Journal.headCursor, journalShape,
      entry.cursor, entry.revision]

/-- What one write transaction decides, in terms of the history. -/
inductive Decides (store : SqliteStore) (identity : String) (journal : Journal)
    (commit : AuthorityStoreCommit) : SqliteDecision → Prop where
  | reply (answer : Answer AuthorityStoreCommittedTransaction)
      (result : AuthorityStoreCommitResult)
      (submit : Submit journalShape journal (commitRequest commit) journal answer)
      (reports : Reports journal answer result) (answered : answer ≠ .refused)
      (known : answer ≠ .unknown) : Decides store identity journal commit (.reply result)
  | write (admissible : CasLog.Admissible journalShape journal (commitRequest commit)) :
      Decides store identity journal commit
        (.write (store.databaseOf identity (journal ++ [appendedEntry identity journal commit]))
          (sqliteRevision identity (journal.length + 1)) (journal.length + 1).repr)

/-- Every request to a retained history is decided, as long as sequence numbers last. -/
theorem decideCommit_databaseOf (opens : Opens store identity)
    (history : SqliteHistory identity 0 journal) (distinct : Distinct journalShape journal)
    (c : NormalizedCommit) {proofs : List ByteArray}
    (collisionFree : NoCollision store.sha proofs)
    (recorded : ∀ index transaction, journal[index]? = some transaction →
      entryProof identity index transaction ∈ proofs)
    (compared : ∀ index transaction, journal[index]? = some transaction →
      transaction.operationId = c.commit.operationId →
      commitProof identity (index + 1) c.commit ∈ proofs) :
    (∃ decision, store.decideCommit (store.databaseOf identity journal) c.commit = .ok decision ∧
        Decides store identity journal c.commit decision) ∨
      (MAX_SEQUENCE ≤ journal.length ∧
        store.decideCommit (store.databaseOf identity journal) c.commit =
          .error (.protocol "SQLite authority sequence exhausted")) := by
  obtain ⟨hrevision, hcursor⟩ := headRevision_history store history
  simp only [decideCommit, current_databaseOf opens history, check, ok_bind, hrevision, hcursor]
  rw [show (store.databaseOf identity journal).commits = store.storedRows identity 0 none journal
    from rfl]
  by_cases used : ∃ transaction ∈ journal, transaction.operationId = c.commit.operationId
  · obtain ⟨transaction, hmem, sameId⟩ := used
    obtain ⟨before, rest, rfl⟩ := List.append_of_mem hmem
    have here : (before ++ transaction :: rest)[before.length]? = some transaction := by simp
    have found := find_operation store identity distinct
    rw [sameId] at found
    have replayed := replayExisting_databaseOf opens history sameId collisionFree
      (recorded _ _ here) (compared _ _ here sameId)
    simp only [found, replayed, ok_bind]
    by_cases same : journalShape.body transaction = (commitRequest c.commit).body
    · simp only [same, if_true]
      exact Or.inl ⟨_, rfl, .reply (.applied transaction) _
        (.replayed transaction hmem ⟨sameId, same⟩) (.applied transaction) (by simp) (by simp)⟩
    · simp only [same, if_false]
      exact Or.inl ⟨_, rfl, .reply .idTaken _ (.idTaken transaction hmem sameId same) .idTaken
        (by simp) (by simp)⟩
  · have fresh : ∀ transaction ∈ journal, transaction.operationId ≠ c.commit.operationId :=
      fun transaction hmem same => used ⟨transaction, hmem, same⟩
    simp only [find_operation_none fresh]
    by_cases current : journal.headRevision = c.commit.expectedProviderRevision
    · rw [if_neg (not_ne_iff.mpr current)]
      by_cases bounded : journal.length < MAX_SEQUENCE
      · rw [appendCommit_databaseOf opens history bounded fresh]
        exact Or.inl ⟨_, rfl, .write ⟨fresh, current⟩⟩
      · exact Or.inr ⟨by omega, appendCommit_exhausted opens (by omega) c.commit⟩
    · rw [if_pos current]
      exact Or.inl ⟨_, rfl, .reply .stale _ (.stale fresh current) .stale (by simp) (by simp)⟩

/-- The file holds exactly this history, and every digest it stores was recorded. -/
structure Sound (store : SqliteStore) (s : SqliteState) (journal : Journal) : Prop where
  distinct : Distinct journalShape journal
  missing : s.database = none ∨ s.database = some .blank → journal = []
  retained : ∀ db ∈ s.database, db = .blank ∨ ∃ identity, isSqliteIdentity identity = true ∧
    db = store.databaseOf identity journal ∧ SqliteHistory identity 0 journal ∧
    ∀ index transaction, journal[index]? = some transaction →
      entryProof identity index transaction ∈ s.proofs

theorem sound_empty (store : SqliteStore) : Sound store .empty [] where
  distinct := by simp [Distinct]
  missing := fun _ => rfl
  retained := by simp [SqliteState.empty]

/-- An open database: its identity, the history it retains and the proofs behind it. -/
structure Opened (store : SqliteStore) (s : SqliteState) (journal : Journal) (identity : String) :
    Prop where
  opens : Opens store identity
  database : s.database = some (store.databaseOf identity journal)
  history : SqliteHistory identity 0 journal
  distinct : Distinct journalShape journal
  recorded : ∀ index transaction, journal[index]? = some transaction →
    entryProof identity index transaction ∈ s.proofs

theorem databaseOf_ne_blank : store.databaseOf identity journal ≠ .blank := by
  intro h
  have := congrArg SqliteDatabase.userVersion h
  simp [databaseOf, SqliteDatabase.blank] at this

theorem Opened.sound {s : SqliteState} (h : Opened store s journal identity) :
    Sound store s journal where
  distinct := h.distinct
  missing := by
    rintro (absent | blank)
    · simp [h.database] at absent
    · rw [h.database, Option.some.injEq] at blank
      exact absurd blank databaseOf_ne_blank
  retained := by
    intro db hdb
    rw [h.database] at hdb
    obtain rfl := Option.some.inj hdb
    exact Or.inr ⟨identity, h.opens.pattern, rfl, h.history, h.recorded⟩

/-- A handle that asks for no particular identity, or for the one in place. -/
def AcceptsIdentity (store : SqliteStore) (s : SqliteState) : Prop :=
  ∀ expected ∈ store.expectedIdentity, ∃ db, s.database = some db ∧ db ≠ .blank ∧
    storeIdentityOf db = expected

private theorem identity_install (fresh : SqliteIdentity) (accepts : store.expectedIdentity = none) :
    store.identity (store.install fresh) = .ok fresh.text := by
  simp [SqliteStore.identity, install, accepts, fresh.pattern]

theorem identity_ok {db : SqliteDatabase} (h : store.identity db = .ok identity) :
    storeIdentityOf db = identity ∧ Opens store identity := by
  simp only [SqliteStore.identity] at h
  split at h
  · simp at h
  split at h
  · simp at h
  split at h
  · simp at h
  · rename_i row hrow
    split at h
    · simp at h
    · rename_i accepted
      obtain rfl := Except.ok.inj h
      simp only [not_or, Bool.not_eq_false, Bool.not_eq_true] at accepted
      refine ⟨by simp [storeIdentityOf, hrow], accepted.2.2.1, ?_⟩
      intro expected hexpected
      have hany := accepted.2.2.2
      rw [show store.expectedIdentity = some expected from hexpected] at hany
      simpa using hany

/-- Opening for a write installs an empty store, or finds the one in place, or fails. -/
theorem openWrite_sound {s s₁ : SqliteState} (h : Sound store s journal)
    {env : SqliteEnvironment} {result : SqliteResult SqliteDatabase}
    (hopen : store.openWrite env s = (s₁, result)) :
    Sound store s₁ journal ∧ s₁.proofs = s.proofs ∧
      ∀ db, result = .ok db → ∃ identity, Opened store s₁ journal identity ∧
        db = store.databaseOf identity journal := by
  simp only [openWrite] at hopen
  split at hopen
  · obtain ⟨rfl, rfl⟩ := Prod.mk.inj hopen
    exact ⟨h, rfl, by simp⟩
  split at hopen
  · obtain ⟨rfl, rfl⟩ := Prod.mk.inj hopen
    exact ⟨h, rfl, by simp⟩
  have created : Sound store { s with database := some (s.database.getD .blank) } journal := by
    refine ⟨h.distinct, ?_, ?_⟩
    · intro hmissing
      refine h.missing ?_
      cases hdb : s.database with
      | none => exact Or.inl rfl
      | some db => simpa [hdb] using hmissing
    · intro db hdb
      cases hprevious : s.database with
      | none =>
        simp only [hprevious, Option.getD_none, Option.mem_def, Option.some.injEq] at hdb
        exact Or.inl hdb.symm
      | some previous =>
        simp only [hprevious, Option.getD_some, Option.mem_def, Option.some.injEq] at hdb
        subst hdb
        exact h.retained previous hprevious
  split at hopen
  · obtain ⟨rfl, rfl⟩ := Prod.mk.inj hopen
    exact ⟨created, rfl, by simp⟩
  split at hopen
  · obtain ⟨rfl, rfl⟩ := Prod.mk.inj hopen
    exact ⟨created, rfl, by simp⟩
  split at hopen
  · obtain ⟨rfl, rfl⟩ := Prod.mk.inj hopen
    exact ⟨created, rfl, by simp⟩
  rename_i identity hidentity
  obtain ⟨rfl, rfl⟩ := Prod.mk.inj hopen
  obtain ⟨hstored, opens⟩ := identity_ok hidentity
  have opened : Opened store
      { s with database := some (if (s.database.getD .blank).userVersion = 0 then
        store.install env.freshIdentity else s.database.getD .blank) } journal identity := by
    rcases created.retained _ rfl with blank | ⟨known, pattern, heq, history, recorded⟩
    · have empty : journal = [] := created.missing (Or.inr (congrArg some blank))
      subst empty
      rw [blank, if_pos (show SqliteDatabase.blank.userVersion = 0 from rfl)] at hstored ⊢
      obtain rfl : env.freshIdentity.text = identity := hstored
      exact ⟨opens, rfl, trivial, by simp [Distinct], by simp⟩
    · rw [heq, if_neg (by simp [databaseOf])] at hstored ⊢
      obtain rfl : known = identity := hstored
      exact ⟨opens, rfl, history, h.distinct, recorded⟩
  refine ⟨opened.sound, rfl, ?_⟩
  intro db hdb
  obtain rfl := Except.ok.inj hdb
  exact ⟨identity, opened, Option.some.inj opened.database⟩

/-- What a SQLite commit needs to be answered from the journal. -/
structure Served (store : SqliteStore) (env : SqliteEnvironment) (s : SqliteState)
    (normalized : AuthorityStoreCommit) : Prop where
  available : env.unavailable = false
  free : env.busy = false
  accepts : AcceptsIdentity store s
  existing : store.existingOnly = true → s.database ≠ none
  revision : ∀ revision ∈ normalized.expectedProviderRevision, isSqliteRevision revision = true
  size : (canonicalAuthorityBytes (commitJson normalized)).size ≤ MAX_COMMIT_BYTES

private theorem openWrite_served {s : SqliteState} (h : Sound store s journal)
    {env : SqliteEnvironment} {normalized : AuthorityStoreCommit}
    (served : Served store env s normalized) : ∃ s₁ db, store.openWrite env s = (s₁, .ok db) := by
  have present : ¬(store.existingOnly = true ∧ s.database = none) :=
    fun missing => served.existing missing.1 missing.2
  have accepted : ∃ identity, store.identity
      (if (s.database.getD .blank).userVersion = 0 then store.install env.freshIdentity
        else s.database.getD .blank) = .ok identity := by
    have anyone : (s.database = none ∨ s.database = some .blank) → store.expectedIdentity = none := by
      intro empty
      rw [Option.eq_none_iff_forall_not_mem]
      intro expected hexpected
      obtain ⟨db, hdb, hother, -⟩ := served.accepts expected hexpected
      rcases empty with empty | empty
      · simp [hdb] at empty
      · rw [hdb, Option.some.injEq] at empty
        exact hother empty
    cases hdb : s.database with
    | none => exact ⟨_, identity_install env.freshIdentity (anyone (Or.inl hdb))⟩
    | some db =>
      rcases h.retained db hdb with rfl | ⟨identity, pattern, rfl, -, -⟩
      · exact ⟨_, identity_install env.freshIdentity (anyone (Or.inr hdb))⟩
      · refine ⟨identity, identity_databaseOf pattern ?_⟩
        intro expected hexpected
        obtain ⟨db, hdb', -, hidentity⟩ := served.accepts expected hexpected
        obtain rfl := Option.some.inj (hdb.symm.trans hdb')
        exact hidentity.symm
  have installed : ¬((s.database.getD .blank).userVersion = 0 ∧
      ((s.database.getD .blank).metadata ≠ none ∨ (s.database.getD .blank).commits ≠ [] ∨
        (s.database.getD .blank).checkpoints ≠ [] ∨ (s.database.getD .blank).head ≠ none)) := by
    cases hdb : s.database with
    | none => simp [SqliteDatabase.blank]
    | some db =>
      rcases h.retained db hdb with rfl | ⟨identity, -, rfl, -, -⟩
      · simp [SqliteDatabase.blank]
      · simp [databaseOf]
  obtain ⟨identity, hidentity⟩ := accepted
  simp only [openWrite, if_neg present, served.available, served.free, Bool.false_eq_true, if_false,
    if_neg installed, hidentity]
  exact ⟨_, _, rfl⟩

private theorem noteReplay_database (s : SqliteState) (db : SqliteDatabase) (identity : String)
    (normalized : AuthorityStoreCommit) :
    (noteReplay s db identity normalized).database = s.database ∧
      s.proofs ⊆ (noteReplay s db identity normalized).proofs := by
  simp only [noteReplay]
  split
  · exact ⟨rfl, List.subset_cons_self _ _⟩
  · exact ⟨rfl, List.Subset.refl _⟩

theorem Opened.mono {s s' : SqliteState} (h : Opened store s journal identity)
    (database : s'.database = s.database) (proofs : s.proofs ⊆ s'.proofs) :
    Opened store s' journal identity :=
  ⟨h.opens, database.trans h.database, h.history, h.distinct,
    fun index transaction here => proofs (h.recorded index transaction here)⟩

/-- The written database retains the longer history. -/
private theorem opened_append {s : SqliteState} (h : Opened store s journal identity)
    (c : NormalizedCommit)
    (admissible : CasLog.Admissible journalShape journal (commitRequest c.commit))
    (recorded : commitProof identity (journal.length + 1) c.commit ∈ s.proofs) :
    Opened store { s with database := some (store.databaseOf identity
        (journal ++ [appendedEntry identity journal c.commit])) }
      (journal ++ [appendedEntry identity journal c.commit]) identity := by
  have submit : Submit journalShape journal (commitRequest c.commit)
      (journal ++ [appendedEntry identity journal c.commit])
      (.applied (appendedEntry identity journal c.commit)) := .appended _ admissible ⟨rfl, rfl⟩
  refine ⟨h.opens, rfl, sqliteHistory_appended h.history c, submit.distinct h.distinct, ?_⟩
  intro index transaction here
  rcases Nat.lt_or_ge index journal.length with old | new
  · rw [List.getElem?_append_left old] at here
    exact h.recorded index transaction here
  · rw [List.getElem?_append_right new] at here
    obtain rfl : index = journal.length := by
      have := (List.getElem?_eq_some_iff.mp here).1
      simp at this
      omega
    rw [Nat.sub_self, List.getElem?_cons_zero, Option.some.injEq] at here
    subst here
    exact recorded

theorem split_of_getElem? {α : Type} {l : List α} {index : Nat} {a : α}
    (h : l[index]? = some a) : ∃ before rest, l = before ++ a :: rest ∧ before.length = index := by
  obtain ⟨hindex, rfl⟩ := List.getElem?_eq_some_iff.mp h
  refine ⟨l.take index, l.drop (index + 1), ?_, List.length_take_of_le (Nat.le_of_lt hindex)⟩
  rw [← List.drop_eq_getElem_cons hindex, List.take_append_drop]

private theorem noteReplay_writeCommit (env : SqliteEnvironment) (s : SqliteState)
    (db : SqliteDatabase) (normalized : AuthorityStoreCommit) :
    (noteReplay s db (storeIdentityOf db) normalized).proofs ⊆
      (store.writeCommit env s db normalized).1.proofs := by
  simp only [writeCommit]
  split
  · exact List.Subset.refl _
  · exact List.Subset.refl _
  · split <;> exact List.subset_cons_self _ _

variable (store) in
private theorem openWrite_proofs (env : SqliteEnvironment) (s : SqliteState) :
    (store.openWrite env s).1.proofs = s.proofs := by
  simp only [openWrite]
  repeat' split
  all_goals rfl

variable (store) in
theorem commitAuthority_proofs (env : SqliteEnvironment) (s : SqliteState)
    (commit : AuthorityStoreCommit) : s.proofs ⊆ (store.commitAuthority env s commit).1.proofs := by
  simp only [commitAuthority]
  split
  · exact List.Subset.refl _
  split
  · exact List.Subset.refl _
  split
  · exact List.Subset.refl _
  have hopen := openWrite_proofs store env s
  split
  · rename_i s₁ error hrun
    rw [hrun] at hopen
    intro proof hproof
    rwa [← hopen] at hproof
  · rename_i s₁ db hrun
    rw [hrun] at hopen
    intro proof hproof
    rw [← hopen] at hproof
    exact noteReplay_writeCommit env s₁ db _ ((noteReplay_database s₁ db _ _).2 hproof)

/-- The transaction of an open database is one submission to its history. -/
private theorem writeCommit_submit {s : SqliteState} (h : Opened store s journal identity)
    (env : SqliteEnvironment) (c : NormalizedCommit)
    (collisionFree : NoCollision store.sha (store.writeCommit env s
      (store.databaseOf identity journal) c.commit).1.proofs) :
    ∃ s' result journal' answer,
      store.writeCommit env s (store.databaseOf identity journal) c.commit = (s', result) ∧
      Opened store s' journal' identity ∧ s.proofs ⊆ s'.proofs ∧ Reports journal answer result ∧
      Submit journalShape journal (commitRequest c.commit) journal' answer ∧
      (journal.length < MAX_SEQUENCE → answer ≠ .refused) ∧
      (env.commit = .done → answer ≠ .unknown) := by
  let s₁ := noteReplay s (store.databaseOf identity journal) identity c.commit
  obtain ⟨hdatabase, hproofs⟩ :=
    noteReplay_database s (store.databaseOf identity journal) identity c.commit
  have hopened : Opened store s₁ journal identity := h.mono hdatabase hproofs
  have compared : ∀ index transaction, journal[index]? = some transaction →
      transaction.operationId = c.commit.operationId →
      commitProof identity (index + 1) c.commit ∈ s₁.proofs := by
    intro index transaction here sameId
    obtain ⟨before, rest, rfl, rfl⟩ := split_of_getElem? here
    have found := find_operation store identity h.distinct
    rw [sameId] at found
    simp only [s₁, noteReplay, show (store.databaseOf identity (before ++ transaction :: rest)).commits =
      store.storedRows identity 0 none (before ++ transaction :: rest) from rfl, found]
    exact List.mem_cons_self
  have hidentity : storeIdentityOf (store.databaseOf identity journal) = identity := rfl
  obtain ⟨decision, hdecide, hdecides⟩ | ⟨exhausted, hdecide⟩ :=
    decideCommit_databaseOf h.opens h.history h.distinct c
      (collisionFree.mono (noteReplay_writeCommit env s _ c.commit)) hopened.recorded compared
  swap
  · rw [writeCommit, hidentity, hdecide]
    exact ⟨s₁, _, journal, .refused, rfl, hopened, hproofs, .refused _ _, .refused,
      fun bounded => absurd bounded (by omega), by simp⟩
  rw [writeCommit, hidentity, hdecide]
  cases hdecides with
  | reply answer result submit reports answered known =>
    exact ⟨s₁, result, journal, answer, rfl, hopened, hproofs, reports, submit,
      fun _ => answered, fun _ => known⟩
  | write admissible =>
    let entry := appendedEntry identity journal c.commit
    let s₂ := noteAppend s₁ (store.databaseOf identity journal) identity c.commit
    have hnoted : Opened store s₂ journal identity :=
      hopened.mono rfl (List.subset_cons_self _ _)
    have hsub : s.proofs ⊆ s₂.proofs := fun _ hmem => List.mem_cons_of_mem _ (hproofs hmem)
    have hlength : (store.databaseOf identity journal).commits.length = journal.length :=
      length_storedRows journal 0 none
    have hwritten := opened_append hnoted c admissible (by
      simp only [s₂, noteAppend, hlength]
      exact List.mem_cons_self)
    have appended : Submit journalShape journal (commitRequest c.commit) (journal ++ [entry])
        (.applied entry) := .appended entry admissible ⟨rfl, rfl⟩
    simp only
    cases hcommit : env.commit with
    | done =>
      exact ⟨_, _, journal ++ [entry], .applied entry, rfl, hwritten, hsub, .applied entry,
        appended, by simp, by simp⟩
    | lost =>
      exact ⟨s₂, _, journal, .unknown, rfl, hnoted, hsub, .unknown _ _, .lost admissible,
        by simp, by simp⟩
    | taken =>
      exact ⟨_, _, journal ++ [entry], .unknown, rfl, hwritten, hsub, .unknown _ _,
        .landed entry admissible ⟨rfl, rfl⟩, by simp, by simp⟩

/-- One commit call is one submission of its normalized request to the history. -/
theorem commitAuthority_submit {s : SqliteState} (h : Sound store s journal)
    (env : SqliteEnvironment) {commit : AuthorityStoreCommit} (fits : commit.nextProjection.Fits)
    (collisionFree : NoCollision store.sha (store.commitAuthority env s commit).1.proofs) :
    ∃ s' result journal' answer, store.commitAuthority env s commit = (s', result) ∧
      Sound store s' journal' ∧ s.proofs ⊆ s'.proofs ∧ Reports journal answer result ∧
      (match normalizeAuthorityStoreCommit commit with
        | .error _ => journal' = journal ∧ answer = .refused
        | .ok normalized =>
          Submit journalShape journal (commitRequest normalized) journal' answer ∧
            (Served store env s normalized →
              (journal.length < MAX_SEQUENCE → answer ≠ .refused) ∧ ∃ identity, Opened store s' journal' identity) ∧
            (env.commit = .done → answer ≠ .unknown)) := by
  rw [commitAuthority] at collisionFree ⊢
  cases hnormalize : normalizeAuthorityStoreCommit commit with
  | error reason =>
    exact ⟨s, _, journal, .refused, rfl, h, List.Subset.refl _, .refused _ _, rfl, rfl⟩
  | ok normalized =>
    let c : NormalizedCommit :=
      ⟨normalized, (normal_of_normalize hnormalize).1, fits_of_normalize hnormalize fits⟩
    simp only [hnormalize] at collisionFree ⊢
    split at collisionFree
    · rename_i invalid
      rw [if_pos invalid]
      refine ⟨s, _, journal, .refused, rfl, h, List.Subset.refl _, .refused _ _, .refused, ?_,
        by simp⟩
      intro served
      obtain ⟨revision, hrevision, hpattern⟩ := (Option.any_eq_true _ _).mp invalid
      simp [served.revision revision hrevision] at hpattern
    rename_i valid
    rw [if_neg valid]
    split at collisionFree
    · rename_i large
      rw [if_pos large]
      exact ⟨s, _, journal, .refused, rfl, h, List.Subset.refl _, .refused _ _, .refused,
        fun served => absurd served.size (by omega), by simp⟩
    rename_i small
    rw [if_neg small]
    cases hopen : store.openWrite env s with
    | mk s₁ opened =>
    obtain ⟨hsound, hproofs, hdatabase⟩ := openWrite_sound h hopen
    have hsub : s.proofs ⊆ s₁.proofs := by
      rw [hproofs]
      exact List.Subset.refl _
    cases opened with
    | error error =>
      refine ⟨s₁, _, journal, .refused, rfl, hsound, hsub, ?_, .refused, ?_, by simp⟩
      · cases error <;> exact .refused _ _
      · intro served
        obtain ⟨s₂, db, hok⟩ := openWrite_served h served
        simp [hok] at hopen
    | ok db =>
      obtain ⟨identity, hopened, rfl⟩ := hdatabase db rfl
      rw [hopen] at collisionFree
      obtain ⟨s', result, journal', answer, hwrite, hsound', hgrown, hreports, hsubmit, hanswered,
        hknown⟩ := writeCommit_submit hopened env c collisionFree
      exact ⟨s', result, journal', answer, hwrite, hsound'.sound, fun _ hmem => hgrown (hsub hmem),
        hreports, hsubmit, fun _ => ⟨hanswered, identity, hsound'⟩, hknown⟩

end SqliteStore

end Loopx.Authority
