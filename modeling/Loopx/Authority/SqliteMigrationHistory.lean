/- GID: Loopx/Authority/SqliteMigrationHistory
   generality: I
   source: loopx/control_plane/coordination/sqlite_authority_migration.ts
   digest: A migrated V1 history is the V2 history of the same transactions. -/

import Loopx.Authority.SqliteAudit
import Loopx.Authority.SqliteMigration
import Loopx.Authority.SqliteStoreReads

set_option autoImplicit false
set_option relaxedAutoImplicit false

namespace Loopx.Authority

open Loopx.Lib
open Loopx.Lib.CasLog (Distinct)
open Loopx.Lib.Fallible (ok_bind bind_eq_ok)
open Loopx.Json (JsNumber Protocol canonicalAuthorityBytes stringify)

section Pages

variable {α σ : Type} {key : α → Nat}

/-- After the last row of a page come exactly the rows beyond the page. -/
private theorem filter_after_take {rows : List α} (sorted : rows.Pairwise (fun a b => key a < key b))
    {count : Nat} {last : α} (hlast : (rows.take count).getLast? = some last) :
    rows.filter (fun row => key last < key row) = rows.drop count := by
  obtain ⟨init, hinit⟩ := List.getLast?_eq_some_iff.mp hlast
  have hsplit : init ++ [last] ++ rows.drop count = rows := by
    rw [← hinit, List.take_append_drop]
  rw [← hsplit, List.pairwise_append] at sorted
  obtain ⟨hpage, -, hlater⟩ := sorted
  rw [List.pairwise_append] at hpage
  have hearly : (init ++ [last]).filter (fun row => decide (key last < key row)) = [] := by
    rw [List.filter_eq_nil_iff]
    intro row hrow
    rw [decide_eq_true_eq, not_lt]
    rcases List.mem_append.mp hrow with hrow | hrow
    · exact (hpage.2.2 row hrow last (by simp)).le
    · rw [List.mem_singleton.mp hrow]
  have hlate : (rows.drop count).filter (fun row => decide (key last < key row)) =
      rows.drop count := by
    rw [List.filter_eq_self]
    intro row hrow
    rw [decide_eq_true_eq]
    exact hlater last (by simp) row hrow
  conv_lhs => rw [← hsplit]
  rw [List.filter_append, hearly, hlate, List.nil_append]

/-- Paging is one pass over the rows after the cursor. -/
theorem eachPage_eq (step : σ → α → SqliteResult σ) {rows : List α}
    (sorted : rows.Pairwise (fun a b => key a < key b)) (state : σ) (cursor : Nat) :
    eachPage key step rows state cursor =
      (rows.filter (fun row => cursor < key row)).foldlM step state := by
  induction state, cursor using eachPage.induct key rows with
  | case1 state cursor hnone =>
    rw [eachPage]
    split
    · have hempty : rows.filter (fun row => cursor < key row) = [] := by
        have htake := List.getLast?_eq_none_iff.mp hnone
        rw [pageAfter, List.take_eq_nil_iff] at htake
        rcases htake with hzero | hempty
        · simp [MIGRATION_PAGE] at hzero
        · exact hempty
      rw [hempty]
      rfl
    · rename_i last hlast
      simp [hnone] at hlast
  | case2 state cursor last hlast ih =>
    rw [eachPage]
    split
    · rename_i hnone
      simp [hlast] at hnone
    · rename_i last' hlast'
      obtain rfl : last = last' := Option.some.inj (hlast.symm.trans hlast')
      have hrest := filter_after_take (sorted.filter _) hlast
      rw [List.filter_filter] at hrest
      have hmem := List.mem_of_mem_take (List.mem_of_getLast? hlast)
      have hafter : cursor < key last := by simpa using (List.mem_filter.mp hmem).2
      have hsame : rows.filter (fun row => key last < key row) =
          (rows.filter (fun row => cursor < key row)).drop MIGRATION_PAGE := by
        rw [← hrest]
        apply List.filter_congr
        intro row _
        by_cases hrow : key last < key row
        · simp [hrow, hafter.trans hrow]
        · simp [hrow]
      conv_rhs => rw [← List.take_append_drop MIGRATION_PAGE
        (rows.filter (fun row => cursor < key row)), List.foldlM_append]
      simp only [ih, hsame]
      rfl

end Pages

/-- A V1 row that retains a transaction whole, under the proof the provider took of it. -/
structure CommitColumnsV1.Retains (sha : Sha256) (identity : String) (index : Nat)
    (transaction : AuthorityStoreCommittedTransaction) (row : CommitColumnsV1) : Prop where
  cursor : row.cursor = index + 1
  operationId : row.operationId = transaction.operationId
  digest : row.commitDigest = Authority.commitDigest sha identity (index + 1)
    transaction.operationId transaction.projection transaction.events transaction.receipts
  projection : ∃ value, Json.parse row.projection = some value ∧
    ∀ name, canonicalAuthorityObject (some value) name = .ok transaction.projection
  events : ∃ value, Json.parse row.events = some value ∧
    ∀ name, canonicalAuthorityObjectList (some value) name = .ok transaction.events
  receipts : ∃ value, Json.parse row.receipts = some value ∧
    ∀ name, canonicalAuthorityObjectList (some value) name = .ok transaction.receipts

/-- Row by row from position `index` on. -/
def RetainsRows (sha : Sha256) (identity : String) : Nat → Journal → List CommitColumnsV1 → Prop
  | _, [], [] => True
  | index, transaction :: journal, row :: rows =>
    row.Retains sha identity index transaction ∧ RetainsRows sha identity (index + 1) journal rows
  | _, _, _ => False

/-- A well-formed V1 database and the transactions it retains. -/
structure SqliteDatabaseV1.Retains (sha : Sha256) (goalId identity : String) (journal : Journal)
    (db : SqliteDatabaseV1) : Prop where
  version : db.userVersion = 1
  metadata : db.metadata = some ⟨SQLITE_AUTHORITY_STORE_V1_SCHEMA, goalId, identity⟩
  pattern : isSqliteIdentity identity = true
  history : SqliteHistory identity 0 journal
  distinct : Distinct journalShape journal
  rows : RetainsRows sha identity 0 journal db.commits
  head : db.head = if journal = [] then none else some journal.length

section Sources

variable {sha : Sha256} {identity : String}

theorem cursors_of_retainsRows {index : Nat} {journal : Journal} {rows : List CommitColumnsV1}
    (h : RetainsRows sha identity index journal rows) :
    rows.map CommitColumnsV1.cursor = List.range' (index + 1) journal.length := by
  induction journal generalizing index rows with
  | nil =>
    cases rows with
    | nil => rfl
    | cons row rows => exact absurd h id
  | cons transaction journal ih =>
    cases rows with
    | nil => exact absurd h id
    | cons row rows =>
      rw [List.map_cons, ih h.2, h.1.cursor, List.length_cons, List.range'_succ]

private theorem sorted_of_cursors {α : Type} {key : α → Nat} {rows : List α} {first count : Nat}
    (h : rows.map key = List.range' first count) :
    rows.Pairwise (fun a b => key a < key b) ∧ ∀ row ∈ rows, first ≤ key row := by
  constructor
  · rw [← @List.pairwise_map _ _ key (· < ·) rows, h]
    exact List.pairwise_lt_range'
  · intro row hrow
    have hmem : key row ∈ List.range' first count := h ▸ List.mem_map_of_mem hrow
    exact (List.mem_range'_1.mp hmem).1

private theorem filter_all {α : Type} {key : α → Nat} {rows : List α}
    (h : ∀ row ∈ rows, 1 ≤ key row) : rows.filter (fun row => 0 < key row) = rows := by
  rw [List.filter_eq_self]
  intro row hrow
  rw [decide_eq_true_eq]
  exact h row hrow

theorem SqliteDatabaseV1.Retains.inspected {goalId : String} {journal : Journal}
    {db : SqliteDatabaseV1} (h : db.Retains sha goalId identity journal)
    {expectedIdentity : Option String} (accepts : ∀ expected ∈ expectedIdentity,
      identity = expected) :
    inspectSqliteAuthorityStore goalId expectedIdentity false (.v1 db) =
      .ok ⟨1, SQLITE_AUTHORITY_STORE_V1_SCHEMA, goalId, identity, journal.length⟩ := by
  have hcursors : AuthorityFile.cursors (.v1 db) = List.range' 1 journal.length :=
    cursors_of_retainsRows h.rows
  have haccepts : acceptsMetadata goalId expectedIdentity
      ⟨SQLITE_AUTHORITY_STORE_V1_SCHEMA, goalId, identity⟩ = true := by
    cases expectedIdentity with
    | none => simp [acceptsMetadata, h.pattern]
    | some expected =>
      have hsame := accepts expected rfl
      simp [acceptsMetadata, ← hsame, h.pattern]
  have hbounds : ¬(¬((AuthorityFile.cursors (.v1 db)).length = 0 ∧
      AuthorityFile.headCursor (.v1 db) = none) ∧
      ((AuthorityFile.cursors (.v1 db)).min? ≠ some 1 ∨
        (AuthorityFile.cursors (.v1 db)).max? ≠ some (AuthorityFile.cursors (.v1 db)).length ∨
        AuthorityFile.headCursor (.v1 db) ≠ (AuthorityFile.cursors (.v1 db)).max?)) := by
    rw [hcursors, AuthorityFile.headCursor, h.head]
    cases hjournal : journal with
    | nil => simp
    | cons transaction rest =>
      obtain ⟨smallest, largest⟩ :=
        SqliteStore.bounds_range' (show 0 < (transaction :: rest).length by simp)
      rw [smallest, largest]
      simp
  simp only [inspectSqliteAuthorityStore, Bool.false_eq_true, if_false, AuthorityFile.metadata,
    h.metadata, haccepts, Bool.true_eq_false, AuthorityFile.userVersion, h.version]
  rw [if_neg (by simp), if_pos (by simp), if_neg hbounds, hcursors]
  simp

theorem inspected_refused {goalId : String} {journal : Journal}
    {db : SqliteDatabaseV1} (h : db.Retains sha goalId identity journal)
    {expectedIdentity : Option String} {expected : String}
    (hexpected : expectedIdentity = some expected) (differs : identity ≠ expected) :
    ∃ failure, inspectSqliteAuthorityStore goalId expectedIdentity false (.v1 db) =
      .error failure := by
  have hrefuses : acceptsMetadata goalId expectedIdentity
      ⟨SQLITE_AUTHORITY_STORE_V1_SCHEMA, goalId, identity⟩ = false := by
    simp [acceptsMetadata, hexpected, differs]
  simp only [inspectSqliteAuthorityStore, Bool.false_eq_true, if_false, AuthorityFile.metadata,
    h.metadata, hrefuses, if_true]
  exact ⟨_, rfl⟩

end Sources

section Rewriting

variable {store : SqliteStore} {identity : String}

/-- The identity sequence of a history. -/
def sequenceText (store : SqliteStore) (identity : String) (journal : Journal) : String :=
  (store.storedRows identity 0 none journal).foldl (fun text row =>
    text ++ sequenceLine row.cursor row.operationId row.commitDigest) ""

/-- What the migration holds after these transactions. -/
def migratedState (store : SqliteStore) (identity : String) (journal : Journal) :
    MigrationState where
  tables := ⟨0, none, store.storedRows identity 0 none journal, store.sealedStates 0 journal, none⟩
  previous := projectionAfter none journal
  previousDigest := (projectionAfter none journal).map (authorityStateDigest store.sha)
  cursor := journal.length
  commits := journal.length
  checkpoints := (store.sealedStates 0 journal).length
  sequence := sequenceText store identity journal

private theorem parse_of_some {text : String} {value : Json} (h : Json.parse text = some value) :
    parseJson text = .ok value := by
  rw [parseJson, h]

/-- One more row is one more transaction. -/
theorem migrateRow_retained {before : Journal} {transaction : AuthorityStoreCommittedTransaction}
    {row : CommitColumnsV1} (history : SqliteHistory identity 0 before)
    (entry : SqliteEntry identity before.length transaction)
    (fresh : ∀ retained ∈ before, retained.operationId ≠ transaction.operationId)
    (h : row.Retains store.sha identity before.length transaction) :
    migrateRow store.sha identity (migratedState store identity before) row =
      .ok (migratedState store identity (before ++ [transaction])) := by
  obtain ⟨projection, hprojection, hcanonical⟩ := h.projection
  obtain ⟨events, hevents, heventList⟩ := h.events
  obtain ⟨receipts, hreceipts, hreceiptList⟩ := h.receipts
  have hid : requireAuthorityStoreId (some (.string transaction.operationId)) "operation id" =
      .ok transaction.operationId := requireAuthorityStoreId_eq_ok.mpr ⟨rfl, entry.operationId⟩
  have based := isProjection_baseState (SqliteStore.isProjection_projectionAfter history)
  have hreconstructs : authorityStateDeltaReconstructs (baseState (projectionAfter none before))
      (authorityStateDelta (baseState (projectionAfter none before)) transaction.projection).toJson
      transaction.projection = true :=
    authorityStateDeltaReconstructs_authorityStateDelta based.bundle entry.isProjection.bundle
  have hsealed := @SqliteStore.sealCheckpoint_tables store before
    (migratedState store identity before).tables rfl transaction
  have hinserted : ∀ db : SqliteDatabase,
      db.commits = store.storedRows identity 0 none before → _ :=
    fun db commits => @SqliteStore.insertCommit_tables store identity before db commits
      transaction fresh
  have hprevious : (migratedState store identity before).previous.getD (.object []) =
      baseState (projectionAfter none before) := rfl
  have hsequence : sequenceText store identity before ++ sequenceLine (before.length + 1)
      transaction.operationId (commitDigest store.sha identity (before.length + 1)
        transaction.operationId transaction.projection transaction.events transaction.receipts) =
      sequenceText store identity (before ++ [transaction]) := by
    rw [sequenceText, sequenceText, SqliteStore.storedRows_append, List.foldl_append, Nat.zero_add]
    rfl
  have hafter : projectionAfter none (before ++ [transaction]) = some transaction.projection := by
    simp [projectionAfter]
  have hcount : (store.sealedStates 0 before).length +
      (if decide (before.length % AUTHORITY_STATE_CHECKPOINT_INTERVAL = 0) then 1 else 0) =
      (store.sealedStates 0 (before ++ [transaction])).length := by
    rw [SqliteStore.sealedStates_append, List.length_append, Nat.zero_add,
      SqliteStore.sealedStates, SqliteStore.sealedStates]
    by_cases aligned : before.length % AUTHORITY_STATE_CHECKPOINT_INTERVAL = 0
    · simp [aligned]
    · simp [aligned]
  simp only [migrateRow, h.cursor, Nat.add_one_ne_zero, if_false, h.operationId, hid, check, ok_bind,
    parse_of_some hprojection, hcanonical, parse_of_some hevents, heventList,
    parse_of_some hreceipts, hreceiptList, h.digest, ne_eq, not_true, hprevious, hreconstructs,
    Bool.true_eq_false, isAuthorityStateCheckpoint_succ, hsealed]
  rw [show (⟨before.length + 1, transaction.operationId, commitDigest store.sha identity
    (before.length + 1) transaction.operationId transaction.projection transaction.events
      transaction.receipts, authorityStateDigest store.sha transaction.projection,
    (migratedState store identity before).previousDigest,
    stringify (authorityStateDelta (baseState (projectionAfter none before))
      transaction.projection).toJson, stringify (.array transaction.events),
    stringify (.array transaction.receipts)⟩ : CommitColumns) = store.storedRow identity
      before.length (projectionAfter none before) transaction from rfl, hinserted _ rfl, ok_bind]
  simp only [migratedState, hsequence, hafter, hcount, List.length_append, List.length_singleton,
    Option.map_some]

/-- The rewriting loop of a well-formed database. -/
theorem migrateRows_retained {before rest : Journal} {rows : List CommitColumnsV1}
    (history : SqliteHistory identity 0 (before ++ rest))
    (distinct : Distinct journalShape (before ++ rest))
    (h : RetainsRows store.sha identity before.length rest rows) :
    rows.foldlM (migrateRow store.sha identity) (migratedState store identity before) =
      .ok (migratedState store identity (before ++ rest)) := by
  induction rest generalizing before rows with
  | nil =>
    cases rows with
    | nil => simp [pure, Except.pure]
    | cons row rows => exact absurd h id
  | cons transaction rest ih =>
    cases rows with
    | nil => exact absurd h id
    | cons row rows =>
      obtain ⟨hrow, hrows⟩ := h
      obtain ⟨hbefore, hentry, -⟩ := sqliteHistory_append.mp history
      rw [Nat.zero_add] at hentry
      have fresh : ∀ retained ∈ before, retained.operationId ≠ transaction.operationId := by
        have hdistinct := distinct
        rw [Distinct, List.map_append, List.nodup_append] at hdistinct
        intro retained hretained
        exact hdistinct.2.2 _ (List.mem_map_of_mem hretained) _ (by simp [journalShape])
      have hcons : before ++ transaction :: rest = before ++ [transaction] ++ rest := by simp
      rw [List.foldlM_cons, migrateRow_retained hbefore hentry fresh hrow, ok_bind, hcons]
      rw [hcons] at history distinct
      refine ih history distinct ?_
      rwa [List.length_append, List.length_singleton]

end Rewriting

section Readback

variable {store : SqliteStore} {identity : String}

/-- What the read-back holds after these transactions. -/
def readState (store : SqliteStore) (journal : Journal) : ReadbackState where
  state := baseState (projectionAfter none journal)
  digest := (projectionAfter none journal).map (authorityStateDigest store.sha)
  cursor := journal.length
  read := journal.length

private theorem readbackRow_stored {before : Journal}
    {transaction : AuthorityStoreCommittedTransaction} (history : SqliteHistory identity 0 before)
    (entry : SqliteEntry identity before.length transaction) :
    readbackRow store.sha (readState store before)
        (store.storedRow identity before.length (projectionAfter none before) transaction) =
      .ok (readState store (before ++ [transaction])) := by
  have based := SqliteStore.isProjection_projectionAfter history
  obtain ⟨hparse, hdecode⟩ := SqliteStore.decode_storedDelta entry based
  have happly := applyAuthorityStateDelta_authorityStateDelta
    (isProjection_baseState based).bundle entry.isProjection.bundle
  have hafter : projectionAfter none (before ++ [transaction]) = some transaction.projection := by
    simp [projectionAfter]
  simp only [readbackRow, SqliteStore.storedRow, Nat.add_one_ne_zero, if_false, readState, ne_eq,
    not_true, hparse, hdecode, check, ok_bind]
  rw [show applyAuthorityStateDelta (baseState (projectionAfter none before))
    (authorityStateDelta (baseState (projectionAfter none before))
      transaction.projection).toJson = .ok transaction.projection from happly]
  simp [hafter, baseState]

private theorem readbackRows_stored {before rest : Journal}
    (history : SqliteHistory identity 0 (before ++ rest)) :
    (store.storedRows identity before.length (projectionAfter none before) rest).foldlM
        (readbackRow store.sha) (readState store before) =
      .ok (readState store (before ++ rest)) := by
  induction rest generalizing before with
  | nil => simp [SqliteStore.storedRows, pure, Except.pure]
  | cons transaction rest ih =>
    obtain ⟨hbefore, hentry, -⟩ := sqliteHistory_append.mp history
    rw [Nat.zero_add] at hentry
    have hcons : before ++ transaction :: rest = before ++ [transaction] ++ rest := by simp
    have hafter : projectionAfter none (before ++ [transaction]) = some transaction.projection := by
      simp [projectionAfter]
    have hrest := @ih (before ++ [transaction]) (by rwa [← hcons])
    rw [hafter, List.length_append, List.length_singleton] at hrest
    rw [SqliteStore.storedRows, List.foldlM_cons, readbackRow_stored hbefore hentry, ok_bind, hcons]
    exact hrest

private theorem split_of_sealed {journal : Journal} {index : Nat} {row : CheckpointColumns}
    (h : row ∈ store.sealedStates index journal) :
    ∃ before transaction rest, journal = before ++ transaction :: rest ∧
      row = ⟨index + before.length + 1, stringify transaction.projection,
        authorityStateDigest store.sha transaction.projection⟩ := by
  induction journal generalizing index with
  | nil => simp [SqliteStore.sealedStates] at h
  | cons transaction journal ih =>
    have later : row ∈ store.sealedStates (index + 1) journal →
        ∃ before found rest, transaction :: journal = before ++ found :: rest ∧
          row = ⟨index + before.length + 1, stringify found.projection,
            authorityStateDigest store.sha found.projection⟩ := by
      intro hrow
      obtain ⟨before, found, rest, hsplit, hrow⟩ := ih hrow
      refine ⟨transaction :: before, found, rest, by rw [hsplit]; rfl, ?_⟩
      rw [hrow, List.length_cons]
      congr 2
      omega
    rw [SqliteStore.sealedStates] at h
    split at h
    · rcases List.mem_cons.mp h with rfl | h
      · exact ⟨[], transaction, journal, rfl, rfl⟩
      · exact later h
    · exact later h

private theorem readbackCheckpoint_sealed {journal : Journal}
    (history : SqliteHistory identity 0 journal) {tables : SqliteDatabase}
    (commits : tables.commits = store.storedRows identity 0 none journal) {row : CheckpointColumns}
    (hrow : row ∈ store.sealedStates 0 journal) :
    readbackCheckpoint store.sha tables row = .ok () := by
  obtain ⟨before, transaction, rest, rfl, rfl⟩ := split_of_sealed hrow
  have entry := (sqliteHistory_append.mp history).2.1
  rw [Nat.zero_add] at entry
  simp only [readbackCheckpoint, SqliteStore.parse_projection entry.projection,
    canonicalAuthorityObject_of_canonical entry.projection, check, ok_bind, ne_eq, not_true,
    if_false, commits, Nat.zero_add, SqliteStore.find_cursor, Option.map_some]
  simp [SqliteStore.storedRow]

private theorem forM_ok {α : Type} {f : α → SqliteResult Unit} {rows : List α}
    (h : ∀ row ∈ rows, f row = .ok ()) : rows.forM f = .ok () := by
  induction rows with
  | nil => rfl
  | cons row rows ih =>
    rw [List.forM, h row (by simp), ok_bind]
    exact ih (fun other hother => h other (by simp [hother]))

private theorem readbackHead_published {journal : Journal}
    (history : SqliteHistory identity 0 journal) {tables : SqliteDatabase}
    (head : tables.head = store.headRow journal) :
    readbackHead store.sha tables (readState store journal) = .ok () := by
  cases journal using List.reverseRecOn with
  | nil =>
    have hnone : tables.head = none := head
    simp [readbackHead, readState, hnone]
  | append_singleton init last =>
    have entry := (sqliteHistory_append.mp history).2.1
    rw [Nat.zero_add] at entry
    have hrow : tables.head = some ⟨init.length + 1, stringify last.projection,
        authorityStateDigest store.sha last.projection⟩ := by
      simp [head, SqliteStore.headRow]
    have hafter : projectionAfter none (init ++ [last]) = some last.projection := by
      simp [projectionAfter]
    simp only [readbackHead, readState, hrow, hafter, List.length_append, List.length_singleton,
      Nat.add_one_ne_zero, if_false, Option.map_some, ne_eq, not_true, or_self,
      SqliteStore.parse_projection entry.projection,
      canonicalAuthorityObject_of_canonical entry.projection, check, ok_bind]

/-- The written tables of a history read back. -/
theorem verifyWrittenStateLogReadable_written {journal : Journal}
    (history : SqliteHistory identity 0 journal) :
    verifyWrittenStateLogReadable store.sha ⟨0, none, store.storedRows identity 0 none journal,
      store.sealedStates 0 journal, store.headRow journal⟩ journal.length = .ok () := by
  obtain ⟨sorted, positive⟩ := sorted_of_cursors
    (@SqliteStore.cursors_storedRows store identity journal 0 none)
  have hrows := @readbackRows_stored store identity [] journal history
  have hpages : eachPage CommitColumns.cursor (readbackRow store.sha)
      (store.storedRows identity 0 none journal) .start 0 = .ok (readState store journal) := by
    rw [eachPage_eq _ sorted, filter_all positive]
    exact hrows
  have hcheckpoints : (store.sealedStates 0 journal).forM (readbackCheckpoint store.sha
      ⟨0, none, store.storedRows identity 0 none journal, store.sealedStates 0 journal,
        store.headRow journal⟩) = .ok () :=
    forM_ok (fun row hrow => readbackCheckpoint_sealed history rfl hrow)
  simp only [verifyWrittenStateLogReadable, hpages, ok_bind, readState, ne_eq, not_true, if_false,
    hcheckpoints]
  exact readbackHead_published history rfl

private theorem publishHead_migrated (journal : Journal) :
    publishHead (migratedState store identity journal) =
      .ok ⟨0, none, store.storedRows identity 0 none journal, store.sealedStates 0 journal,
        store.headRow journal⟩ := by
  cases journal using List.reverseRecOn with
  | nil => rfl
  | append_singleton init last =>
    have hafter : projectionAfter none (init ++ [last]) = some last.projection := by
      simp [projectionAfter]
    have hhead := @SqliteStore.upsertHead_tables store identity init last
      (migratedState store identity (init ++ [last])).tables rfl
    simp only [publishHead, migratedState, hafter, Option.map_some, List.length_append,
      List.length_singleton]
    exact hhead

/-- A well-formed V1 database is rewritten into the V2 database of its transactions. -/
theorem rewriteTables_retained {goalId : String} {journal : Journal} {db : SqliteDatabaseV1}
    (hstore : store.goalId = goalId) (h : db.Retains store.sha goalId identity journal)
    (schema : String) (expectedSequenceDigest : Option String) :
    rewriteTables store.sha goalId ⟨1, schema, goalId, identity, journal.length⟩
        expectedSequenceDigest db =
      if expectedSequenceDigest.any (fun expected =>
          store.sha.hex (sequenceText store identity journal).toByteArray ≠ expected) then
        .error (.protocol "SQLite source changed after its verified backup; retry upgrade")
      else .ok (store.databaseOf identity journal, migratedState store identity journal,
        store.sha.hex (sequenceText store identity journal).toByteArray) := by
  obtain ⟨sorted, positive⟩ := sorted_of_cursors (cursors_of_retainsRows h.rows)
  have hrows := @migrateRows_retained store identity [] journal db.commits h.history h.distinct
    h.rows
  have hpages : eachPage CommitColumnsV1.cursor (migrateRow store.sha identity) db.commits .start 0 =
      .ok (migratedState store identity journal) := by
    rw [eachPage_eq _ sorted, filter_all positive]
    exact hrows
  simp only [rewriteTables, h.metadata, h.version, ne_eq, not_true, or_self, if_false, hpages,
    ok_bind, publishHead_migrated]
  simp only [migratedState, not_true, if_false, verifyWrittenStateLogReadable_written h.history,
    ok_bind]
  subst hstore
  rfl

theorem verifyMigratedStore_written {goalId : String} {journal : Journal}
    (hstore : store.goalId = goalId) :
    verifyMigratedStore store.sha goalId identity
      (store.sha.hex (sequenceText store identity journal).toByteArray)
      (store.databaseOf identity journal) = none := by
  have hsequence : (store.databaseOf identity journal).commits.foldl (fun text row =>
      text ++ sequenceLine row.cursor row.operationId row.commitDigest) "" =
      sequenceText store identity journal := rfl
  simp only [verifyMigratedStore, hsequence, ne_eq, not_true, if_false]
  simp [SqliteStore.databaseOf, hstore]

end Readback

end Loopx.Authority
