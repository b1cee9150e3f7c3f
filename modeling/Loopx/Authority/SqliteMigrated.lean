/- GID: Loopx/Authority/SqliteMigrated
   generality: I
   source: loopx/control_plane/coordination/sqlite_authority_migration.ts
   digest: When the V1 to V2 migration keeps the journal, and what it leaves when it fails. -/

import Loopx.Authority.SqliteMigrationHistory
import Loopx.Authority.SqliteStoreRuns

set_option autoImplicit false
set_option relaxedAutoImplicit false

namespace Loopx.Authority

open Loopx.Lib.CasLog (Distinct)
open Loopx.Lib.Fallible (ok_bind)
open Loopx.Json (JsNumber canonicalAuthorityBytes)

/-- A commit that continues a history, on a driver that serves it. -/
structure ContinuesHistory (journal : Journal) (env : SqliteEnvironment)
    (commit normalized : AuthorityStoreCommit) : Prop where
  normal : normalizeAuthorityStoreCommit commit = .ok normalized
  fits : commit.nextProjection.Fits
  fresh : ∀ transaction ∈ journal, transaction.operationId ≠ normalized.operationId
  current : normalized.expectedProviderRevision = journal.headRevision
  size : (canonicalAuthorityBytes (SqliteStore.commitJson normalized)).size ≤ MAX_COMMIT_BYTES
  room : journal.length < MAX_SEQUENCE
  free : env.busy = false
  lands : env.commit = .done

/-- The V2 database holds the journal: readers scan it, the audit accepts it, and the next commit
takes the next cursor. -/
structure HoldsJournal (sha : Sha256) (goalId identity : String) (journal : Journal)
    (db : SqliteDatabase) : Prop where
  scanned : ∀ store env proofs, SqliteReader sha goalId identity store env → ∀ after limit,
    store.scanCommitted env ⟨some db, proofs⟩ after limit =
      (match AuthorityJournalScan.prepare after limit with
        | .error failure => .failure failure
        | .ok scan => journal.scanned scan)
  audited : ∀ store env proofs, SqliteReader sha goalId identity store env →
    store.verifyAuthorityHistory env ⟨some db, proofs⟩ =
      .ok ⟨journal.length, db.checkpoints.length⟩
  continued : ∀ store env proofs, SqliteReader sha goalId identity store env →
    ∀ commit normalized, ContinuesHistory journal env commit normalized →
      (store.commitAuthority env ⟨some db, proofs⟩ commit).2 =
        .applied (sqliteRevision identity (journal.length + 1)) (journal.length + 1).repr
  empty : journal = [] → db.commits = [] ∧ db.checkpoints = [] ∧ db.head = none

section Journals

variable {store : SqliteStore} {identity : String} {journal : Journal} {env : SqliteEnvironment}

private theorem headRevision_pattern (pattern : isSqliteIdentity identity = true)
    (history : SqliteHistory identity 0 journal) {revision : String}
    (h : journal.headRevision = some revision) : isSqliteRevision revision = true := by
  cases journal using List.reverseRecOn with
  | nil => simp [Journal.headRevision, Lib.CasLog.head] at h
  | append_singleton init last =>
    have entry := (sqliteHistory_append.mp history).2.1
    rw [Nat.zero_add] at entry
    have hlast : last.providerRevision = revision := by
      simpa [Journal.headRevision, Lib.CasLog.head, journalShape] using h
    rw [← hlast, entry.revision]
    exact isSqliteRevision_sqliteRevision pattern _

/-- The next commit after a retained history. -/
theorem commitAuthority_continues (opens : SqliteStore.Opens store identity)
    (history : SqliteHistory identity 0 journal) (available : env.unavailable = false)
    {commit normalized : AuthorityStoreCommit} (h : ContinuesHistory journal env commit normalized)
    (proofs : List ByteArray) :
    (store.commitAuthority env ⟨some (store.databaseOf identity journal), proofs⟩ commit).2 =
      .applied (sqliteRevision identity (journal.length + 1)) (journal.length + 1).repr := by
  have hpattern : normalized.expectedProviderRevision.any
      (fun revision => !isSqliteRevision revision) = false := by
    cases hrevision : normalized.expectedProviderRevision with
    | none => rfl
    | some revision =>
      rw [h.current] at hrevision
      simp [headRevision_pattern opens.pattern history hrevision]
  have hopen : store.openWrite env ⟨some (store.databaseOf identity journal), proofs⟩ =
      (⟨some (store.databaseOf identity journal), proofs⟩,
        .ok (store.databaseOf identity journal)) := by
    simp only [SqliteStore.openWrite, available, h.free, Option.getD_some, reduceCtorEq, and_false,
      Bool.false_eq_true, if_false]
    rw [if_neg (by simp [SqliteStore.databaseOf]), if_neg (by simp [SqliteStore.databaseOf])]
    simp only [SqliteStore.identity_databaseOf opens.pattern opens.lineage]
  let c : NormalizedCommit := ⟨normalized, (normal_of_normalize h.normal).1,
    fits_of_normalize h.normal h.fits⟩
  obtain ⟨hrevision, -⟩ := SqliteStore.headRevision_history store history
  have hdecide : store.decideCommit (store.databaseOf identity journal) normalized =
      .ok (.write (store.databaseOf identity
        (journal ++ [SqliteStore.appendedEntry identity journal normalized]))
        (sqliteRevision identity (journal.length + 1)) (journal.length + 1).repr) := by
    simp only [SqliteStore.decideCommit, SqliteStore.current_databaseOf opens history, check,
      ok_bind]
    rw [show (store.databaseOf identity journal).commits = store.storedRows identity 0 none journal
      from rfl]
    simp only [SqliteStore.find_operation_none h.fresh, hrevision, h.current, ne_eq, not_true,
      if_false]
    exact @SqliteStore.appendCommit_databaseOf store identity journal opens history h.room c h.fresh
  simp only [SqliteStore.commitAuthority, h.normal, hpattern, Bool.false_eq_true, if_false,
    if_neg (not_lt.mpr h.size), hopen, SqliteStore.writeCommit, hdecide, h.lands]

/-- The database of a history holds it, for every handle of the goal. -/
theorem holdsJournal_databaseOf (pattern : isSqliteIdentity identity = true)
    (history : SqliteHistory identity 0 journal) (distinct : Distinct journalShape journal) :
    HoldsJournal store.sha store.goalId identity journal (store.databaseOf identity journal) := by
  have opened : ∀ reader env, SqliteReader store.sha store.goalId identity reader env →
      SqliteStore.Opened reader ⟨some (store.databaseOf identity journal),
        journal.mapIdx (SqliteStore.entryProof identity)⟩ journal identity := by
    intro reader env hreader
    have same : store.SameGoal reader := ⟨hreader.sha, hreader.goal⟩
    refine ⟨⟨pattern, hreader.lineage⟩, ?_, history, distinct, ?_⟩
    · rw [SqliteStore.databaseOf_handle same]
    · intro index transaction hget
      exact List.mem_of_getElem? (i := index) (by simp [hget])
  constructor
  · intro reader env proofs hreader after limit
    exact SqliteStore.scanCommitted_reads (.inr ⟨identity, opened reader env hreader⟩)
      (fun _ => hreader.available) after limit
  · intro reader env proofs hreader
    have same : store.SameGoal reader := ⟨hreader.sha, hreader.goal⟩
    have hopened := opened reader env hreader
    have hread := SqliteStore.openRead_opened hopened hreader.available
    have haudit := SqliteStore.auditDatabase_databaseOf hopened.opens history
    rw [SqliteStore.databaseOf_handle same] at hread haudit
    have hsealed : (reader.sealedStates 0 journal).length =
        (store.databaseOf identity journal).checkpoints.length := by
      rw [← SqliteStore.databaseOf_handle same]
      rfl
    rw [hsealed] at haudit
    rw [SqliteStore.verifyAuthorityHistory, show reader.openRead env
      ⟨some (store.databaseOf identity journal), proofs⟩ = _ from hread]
    simp only [haudit]
  · intro reader env proofs hreader commit normalized hcommit
    have same : store.SameGoal reader := ⟨hreader.sha, hreader.goal⟩
    rw [← SqliteStore.databaseOf_handle same]
    exact commitAuthority_continues ⟨pattern, hreader.lineage⟩ history hreader.available hcommit
      proofs
  · rintro rfl
    exact ⟨rfl, rfl, rfl⟩

end Journals

/-- The digest of the identity sequence of a journal. -/
def sequenceDigestOf (sha : Sha256) (goalId identity : String) (journal : Journal) : String :=
  sha.hex (sequenceText ⟨sha, goalId, false, none⟩ identity journal).toByteArray

/-- Nothing keeps a migration of this journal from its COMMIT. -/
structure ReachesCommit (sha : Sha256) (goalId identity : String) (journal : Journal)
    (options : MigrationOptions) (env : MigrationEnvironment) : Prop where
  execute : options.execute = true
  accepted : ∀ expected ∈ options.expectedIdentity, identity = expected
  sequence : ∀ expected ∈ options.expectedSequenceDigest,
    sequenceDigestOf sha goalId identity journal = expected
  readable : env.unreadable = false
  uninterrupted : env.interrupted = false

/-- A successful migration holds the journal, and a failed one leaves the file as it was. -/
structure KeepsJournal (sha : Sha256) (goalId identity : String) (journal : Journal)
    (options : MigrationOptions) (env : MigrationEnvironment) (db : SqliteDatabaseV1) : Prop where
  migrated : (migrateSqliteAuthorityStoreV1ToV2 sha goalId options env (some (.v1 db))).2.status =
      .migrated →
    ∃ written, (migrateSqliteAuthorityStoreV1ToV2 sha goalId options env (some (.v1 db))).1 =
      some (.v2 written) ∧ HoldsJournal sha goalId identity journal written
  failed : (migrateSqliteAuthorityStoreV1ToV2 sha goalId options env (some (.v1 db))).2.status =
      .failed →
    (migrateSqliteAuthorityStoreV1ToV2 sha goalId options env (some (.v1 db))).1 = some (.v1 db)

section Migrations

variable {sha : Sha256} {goalId identity : String} {journal : Journal} {db : SqliteDatabaseV1}
  {options : MigrationOptions} {env : MigrationEnvironment}

/-- Short of its COMMIT a migration leaves the file as it was, and reports no success. -/
theorem migrate_unreached (h : db.Retains sha goalId identity journal)
    (short : ¬ReachesCommit sha goalId identity journal options env) :
    (migrateSqliteAuthorityStoreV1ToV2 sha goalId options env (some (.v1 db))).1 = some (.v1 db) ∧
      (migrateSqliteAuthorityStoreV1ToV2 sha goalId options env (some (.v1 db))).2.status ≠
        .migrated := by
  by_cases hreadable : env.unreadable = true
  · simp [migrateSqliteAuthorityStoreV1ToV2, inspectSqliteAuthorityStore, hreadable,
      failedMigration]
  rw [Bool.not_eq_true] at hreadable
  by_cases hidentity : ∀ expected ∈ options.expectedIdentity, identity = expected
  · simp only [migrateSqliteAuthorityStoreV1ToV2, hreadable, h.inspected hidentity]
    by_cases hexecute : options.execute = true
    · by_cases hinterrupted : env.interrupted = true
      · simp [hexecute, executeSqliteAuthorityMigration, hinterrupted, migrationFailure,
          failedMigration]
      rw [Bool.not_eq_true] at hinterrupted
      have hsequence : options.expectedSequenceDigest.any (fun expected =>
          sha.hex (sequenceText ⟨sha, goalId, false, none⟩ identity journal).toByteArray ≠
            expected) = true := by
        by_contra hany
        refine short ⟨hexecute, hidentity, ?_, hreadable, hinterrupted⟩
        intro expected hexpected
        rw [show options.expectedSequenceDigest = some expected from hexpected] at hany
        simpa [sequenceDigestOf] using hany
      have hrewrite := @rewriteTables_retained ⟨sha, goalId, false, none⟩ identity goalId journal
        db rfl h SQLITE_AUTHORITY_STORE_V1_SCHEMA options.expectedSequenceDigest
      rw [if_pos hsequence] at hrewrite
      dsimp only at hrewrite
      simp [hexecute, executeSqliteAuthorityMigration, hinterrupted, hrewrite, migrationFailure,
        failedMigration]
    · rw [Bool.not_eq_true] at hexecute
      simp [hexecute]
  · obtain ⟨expected, hrefused⟩ := not_forall.mp hidentity
    obtain ⟨hexpected, hdiffers⟩ := Classical.not_imp.mp hrefused
    obtain ⟨failure, hfailure⟩ := inspected_refused h hexpected hdiffers
    simp [migrateSqliteAuthorityStoreV1ToV2, hreadable, hfailure, failedMigration]

/-- At its COMMIT the file becomes the database of the journal; the report hangs on the last check. -/
theorem migrate_reached (h : db.Retains sha goalId identity journal)
    (reached : ReachesCommit sha goalId identity journal options env) :
    (migrateSqliteAuthorityStoreV1ToV2 sha goalId options env (some (.v1 db))).1 =
        some (.v2 (SqliteStore.databaseOf ⟨sha, goalId, false, none⟩ identity journal)) ∧
      (migrateSqliteAuthorityStoreV1ToV2 sha goalId options env (some (.v1 db))).2.status =
        if env.reopenFails then .failed else .migrated := by
  have hsequence : ¬(options.expectedSequenceDigest.any (fun expected =>
      sha.hex (sequenceText ⟨sha, goalId, false, none⟩ identity journal).toByteArray ≠
        expected) = true) := by
    cases hexpected : options.expectedSequenceDigest with
    | none => simp
    | some expected =>
      have hsame := reached.sequence expected hexpected
      rw [sequenceDigestOf] at hsame
      simp [hsame]
  have hrewrite := @rewriteTables_retained ⟨sha, goalId, false, none⟩ identity goalId journal
    db rfl h SQLITE_AUTHORITY_STORE_V1_SCHEMA options.expectedSequenceDigest
  rw [if_neg hsequence] at hrewrite
  have hverify := @verifyMigratedStore_written ⟨sha, goalId, false, none⟩ identity goalId journal
    rfl
  dsimp only at hrewrite hverify
  simp only [migrateSqliteAuthorityStoreV1ToV2, reached.readable, h.inspected reached.accepted,
    reached.execute, executeSqliteAuthorityMigration, reached.uninterrupted, hrewrite]
  cases env.reopenFails with
  | true => simp [migrationFailure, failedMigration]
  | false => simp [hverify]

end Migrations

section Sample

def migratedIdentity : String := "sqlite:00000000000000000000000000000000"

def migratedTransaction : AuthorityStoreCommittedTransaction :=
  ⟨⟨"1", sqliteRevision migratedIdentity 1, "op-1", [], []⟩, .object []⟩

/-- A V1 database with one commit. -/
def sampleV1 : SqliteDatabaseV1 where
  userVersion := 1
  metadata := some ⟨SQLITE_AUTHORITY_STORE_V1_SCHEMA, "goal", migratedIdentity⟩
  commits := [⟨1, "op-1", commitDigest Sha256.node migratedIdentity 1 "op-1" (.object []) [] [],
    "\x7b\x7d", "[]", "[]"⟩]
  head := some 1

private theorem sampleV1_retains :
    sampleV1.Retains Sha256.node "goal" migratedIdentity [migratedTransaction] where
  version := rfl
  metadata := rfl
  pattern := by decide
  history := by
    refine ⟨⟨by decide, rfl, by decide, by simp [migratedTransaction], by simp [migratedTransaction],
      by decide, by simp [migratedTransaction, Json.fits_object]⟩, trivial⟩
  distinct := by simp [Distinct]
  rows := by
    refine ⟨⟨rfl, rfl, rfl, ⟨.object [], by decide, ?_⟩, ⟨.array [], by decide, ?_⟩,
      ⟨.array [], by decide, ?_⟩⟩, trivial⟩
    · intro name
      exact canonicalAuthorityObject_of_canonical (by decide) name
    · intro name
      rfl
    · intro name
      rfl
  head := rfl

end Sample

end Loopx.Authority
