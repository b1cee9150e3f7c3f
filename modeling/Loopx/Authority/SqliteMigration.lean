/- GID: Loopx/Authority/SqliteMigration
   generality: I
   source: loopx/control_plane/coordination/sqlite_authority_migration.ts
   digest: The explicit V1 to V2 migration of one SQLite authority database. -/

import Loopx.Authority.SqliteStore

set_option autoImplicit false
set_option relaxedAutoImplicit false

namespace Loopx.Authority

open Loopx.Json (Protocol stringify)

def SQLITE_AUTHORITY_STORE_V1_SCHEMA : String := "loopx_sqlite_authority_store_v0"

def MIGRATION_PAGE : Nat := 512

/-- A row of the V1 `commits` table; the last three columns are JSON text. -/
structure CommitColumnsV1 where
  cursor : Nat
  operationId : String
  commitDigest : String
  projection : String
  events : String
  receipts : String
deriving DecidableEq

/-- A file with the V1 tables; `head` is the cursor of the head row. -/
structure SqliteDatabaseV1 where
  userVersion : Nat
  metadata : Option MetadataColumns
  commits : List CommitColumnsV1
  head : Option Nat
deriving DecidableEq

/-- One authority file, before the migration or after it. -/
inductive AuthorityFile where
  | v1 (db : SqliteDatabaseV1)
  | v2 (db : SqliteDatabase)
deriving DecidableEq

inductive SqliteAuthorityMigrationStatus where
  | planned
  | migrated
  | alreadyCurrent
  | missing
  | failed
deriving DecidableEq

/-- The report of one call; file sizes are left out. -/
structure SqliteAuthorityMigrationResult where
  status : SqliteAuthorityMigrationStatus
  commits : Option Nat
  checkpoints : Option Nat
  sequenceDigest : Option String
  identity : Option String
  reasonCode : Option String
  reason : Option String
deriving DecidableEq

structure SqliteAuthorityMigrationInspection where
  version : Nat
  schemaVersion : String
  goalId : String
  identity : String
  commits : Nat

structure MigrationOptions where
  execute : Bool
  expectedIdentity : Option String
  expectedSequenceDigest : Option String

/-- What the driver does to one call: each of its three connections may fail. -/
structure MigrationEnvironment where
  /-- The read-only connection of the inspection. -/
  unreadable : Bool
  /-- The transaction, at any statement up to its COMMIT. -/
  interrupted : Bool
  /-- The read-only connection after the COMMIT. -/
  reopenFails : Bool

def MigrationEnvironment.calm : MigrationEnvironment := ⟨false, false, false⟩

namespace AuthorityFile

def userVersion : AuthorityFile → Nat
  | .v1 db => db.userVersion
  | .v2 db => db.userVersion

def metadata : AuthorityFile → Option MetadataColumns
  | .v1 db => db.metadata
  | .v2 db => db.metadata

def cursors : AuthorityFile → List Nat
  | .v1 db => db.commits.map CommitColumnsV1.cursor
  | .v2 db => db.commits.map CommitColumns.cursor

def headCursor : AuthorityFile → Option Nat
  | .v1 db => db.head
  | .v2 db => db.head.map HeadColumns.cursor

end AuthorityFile

section Inspection

def failedMigration (reasonCode reason : String) : SqliteAuthorityMigrationResult :=
  ⟨.failed, none, none, none, none, some reasonCode, some reason⟩

/-- The metadata row names this goal, an identity and a known schema. -/
def acceptsMetadata (goalId : String) (expectedIdentity : Option String)
    (row : MetadataColumns) : Bool :=
  isSqliteIdentity row.storeIdentity && row.goalId = goalId &&
    expectedIdentity.all (fun expected => row.storeIdentity = expected) &&
    (row.schemaVersion = SQLITE_AUTHORITY_STORE_SCHEMA ||
      row.schemaVersion = SQLITE_AUTHORITY_STORE_V1_SCHEMA)

def inspectSqliteAuthorityStore (goalId : String) (expectedIdentity : Option String)
    (unreadable : Bool) (file : AuthorityFile) :
    Except (String × String) SqliteAuthorityMigrationInspection :=
  let violation (reason : String) : String × String := ("migration_protocol_violation", reason)
  if unreadable then .error ("migration_source_unavailable", "unable to open database file")
  else
    match file.metadata with
    | none => .error (violation "SQLite authority metadata or goal identity is invalid")
    | some row =>
      if acceptsMetadata goalId expectedIdentity row = false then
        .error (violation "SQLite authority metadata or goal identity is invalid")
      else if (file.userVersion = 1 ∧ row.schemaVersion ≠ SQLITE_AUTHORITY_STORE_V1_SCHEMA) ∨
          (file.userVersion = 2 ∧ row.schemaVersion ≠ SQLITE_AUTHORITY_STORE_SCHEMA) then
        .error (violation "SQLite schema metadata and user_version disagree")
      else if file.userVersion = 1 ∨ file.userVersion = 2 then
        if ¬(file.cursors.length = 0 ∧ file.headCursor = none) ∧
            (file.cursors.min? ≠ some 1 ∨ file.cursors.max? ≠ some file.cursors.length ∨
              file.headCursor ≠ file.cursors.max?) then
          .error (violation "SQLite authority store is not a contiguous committed lineage")
        else .ok ⟨file.userVersion, row.schemaVersion, goalId, row.storeIdentity,
          file.cursors.length⟩
      else .error ("migration_version_unsupported",
        "SQLite authority database is not a migrated V1 authority store")

end Inspection

section Pages

variable {α σ : Type}

/-- `SELECT … WHERE cursor > ? ORDER BY cursor LIMIT ?`. -/
def pageAfter (key : α → Nat) (rows : List α) (cursor : Nat) : List α :=
  (rows.filter (fun row => cursor < key row)).take MIGRATION_PAGE

theorem pageAfter_decreases {key : α → Nat} {rows : List α} {cursor : Nat} {last : α}
    (h : last ∈ pageAfter key rows cursor) :
    (rows.filter (fun row => key last < key row)).length <
      (rows.filter (fun row => cursor < key row)).length := by
  have hmem := List.mem_of_mem_take h
  have hlast : cursor < key last := by simpa using (List.mem_filter.mp hmem).2
  have hsub : rows.filter (fun row => key last < key row) =
      (rows.filter (fun row => cursor < key row)).filter (fun row => key last < key row) := by
    rw [List.filter_filter]
    apply List.filter_congr
    intro row _
    by_cases hrow : key last < key row
    · simp [hrow, hlast.trans hrow]
    · simp [hrow]
  rw [hsub]
  refine List.length_filter_lt_length_iff_exists.mpr ⟨last, hmem, ?_⟩
  simp

/-- The page loop: every page is handled row by row, the next one starts after its last row. -/
def eachPage (key : α → Nat) (step : σ → α → SqliteResult σ) (rows : List α) (state : σ)
    (cursor : Nat) : SqliteResult σ :=
  match _last : (pageAfter key rows cursor).getLast? with
  | none => .ok state
  | some last => do
    let state ← (pageAfter key rows cursor).foldlM step state
    eachPage key step rows state (key last)
termination_by (rows.filter (fun row => cursor < key row)).length
decreasing_by exact pageAfter_decreases (List.mem_of_getLast? _last)

end Pages

section Rewriting

/-- What the migration carries from row to row. -/
structure MigrationState where
  /-- `commits_v2`, `checkpoints_v2` and `head_v2`. -/
  tables : SqliteDatabase
  previous : Option Json
  previousDigest : Option String
  cursor : Nat
  commits : Nat
  checkpoints : Nat
  /-- The text under the digest of the identity sequence. -/
  sequence : String

def MigrationState.start : MigrationState := ⟨.blank, none, none, 0, 0, 0, ""⟩

/-- One line of the identity sequence. -/
def sequenceLine (cursor : Nat) (operationId commitDigest : String) : String :=
  cursor.repr ++ "\x00" ++ operationId ++ "\x00" ++ commitDigest ++ "\n"

def migrateRow (sha : Sha256) (identity : String) (state : MigrationState)
    (row : CommitColumnsV1) : SqliteResult MigrationState :=
  if row.cursor = 0 then .error (.protocol "V1 authority store cursor is invalid")
  else do
    let operationId ← check (requireAuthorityStoreId (some (.string row.operationId))
      "operation id")
    let projection ← check (parseJson row.projection)
    let projection ← check (canonicalAuthorityObject (some projection) "V1 authority projection")
    let events ← check (parseJson row.events)
    let events ← check (canonicalAuthorityObjectList (some events) "V1 authority events")
    let receipts ← check (parseJson row.receipts)
    let receipts ← check (canonicalAuthorityObjectList (some receipts) "V1 authority receipts")
    if row.commitDigest ≠
        commitDigest sha identity row.cursor operationId projection events receipts then
      .error (.protocol "V1 authority commit digest mismatch")
    else do
      let stateDigest := authorityStateDigest sha projection
      let before := state.previous.getD (.object [])
      let delta := authorityStateDelta before projection
      if authorityStateDeltaReconstructs before delta.toJson projection = false then
        .error (.protocol "V1 authority state delta does not reconstruct its commit")
      else do
        let checkpoint ← check (isAuthorityStateCheckpoint row.cursor)
        let tables ← SqliteStore.sealCheckpoint state.tables
          ⟨row.cursor, stringify projection, stateDigest⟩ checkpoint
        let tables ← SqliteStore.insertCommit tables ⟨row.cursor, operationId, row.commitDigest,
          stateDigest, state.previousDigest, stringify delta.toJson, stringify (.array events),
          stringify (.array receipts)⟩
        .ok ⟨tables, some projection, some stateDigest, row.cursor, state.commits + 1,
          state.checkpoints + (if checkpoint then 1 else 0),
          state.sequence ++ sequenceLine row.cursor operationId row.commitDigest⟩

/-- `INSERT INTO head_v2`, where there is a commit. -/
def publishHead (state : MigrationState) : SqliteResult SqliteDatabase :=
  match state.previous, state.previousDigest with
  | some previous, some digest =>
    SqliteStore.upsertHead state.tables ⟨state.cursor, stringify previous, digest⟩
  | _, _ => .ok state.tables

end Rewriting

section Readback

/-- What the read-back carries from row to row. -/
structure ReadbackState where
  state : Json
  digest : Option String
  cursor : Nat
  read : Nat

def ReadbackState.start : ReadbackState := ⟨.object [], none, 0, 0⟩

def readbackRow (sha : Sha256) (s : ReadbackState) (row : CommitColumns) :
    SqliteResult ReadbackState :=
  if row.cursor = 0 then .error (.protocol "migrated authority store cursor is invalid")
  else if row.parentStateDigest ≠ s.digest then
    .error (.protocol "migrated authority state log parent lineage is invalid")
  else do
    let delta ← check (parseJson row.delta)
    let delta ← check (decodeAuthorityStateDelta delta)
    let state ← check (applyAuthorityStateDelta s.state delta.toJson)
    if authorityStateDigest sha state ≠ row.stateDigest then
      .error (.protocol "migrated authority state log digest mismatch")
    else .ok ⟨state, some row.stateDigest, row.cursor, s.read + 1⟩

def readbackCheckpoint (sha : Sha256) (tables : SqliteDatabase) (row : CheckpointColumns) :
    SqliteResult Unit := do
  let projection ← check (parseJson row.projection)
  let projection ← check (canonicalAuthorityObject (some projection)
    "migrated authority checkpoint projection")
  if authorityStateDigest sha projection ≠ row.projectionDigest then
    .error (.protocol "migrated authority checkpoint is not readable")
  else if (tables.commits.find? (fun retained => retained.cursor = row.cursor)).map
      CommitColumns.stateDigest ≠ some row.projectionDigest then
    .error (.protocol "migrated authority checkpoint does not cover its cursor")
  else .ok ()

def readbackHead (sha : Sha256) (tables : SqliteDatabase) (s : ReadbackState) :
    SqliteResult Unit :=
  if s.read = 0 then
    if tables.head ≠ none then
      .error (.protocol "migrated authority head was published without a retained transaction")
    else .ok ()
  else
    match tables.head with
    | none => .error (.protocol "migrated authority head does not match its state log")
    | some head =>
      if head.cursor ≠ s.cursor ∨ some head.stateDigest ≠ s.digest then
        .error (.protocol "migrated authority head does not match its state log")
      else do
        let projection ← check (parseJson head.projection)
        let projection ← check (canonicalAuthorityObject (some projection)
          "migrated authority head projection")
        if some (authorityStateDigest sha projection) ≠ s.digest then
          .error (.protocol "migrated authority head is not readable")
        else .ok ()

def verifyWrittenStateLogReadable (sha : Sha256) (tables : SqliteDatabase) (commits : Nat) :
    SqliteResult Unit := do
  let s ← eachPage CommitColumns.cursor (readbackRow sha) tables.commits .start 0
  if s.read ≠ commits then
    .error (.protocol "migrated authority state log lost retained transactions")
  else do
    tables.checkpoints.forM (readbackCheckpoint sha tables)
    readbackHead sha tables s

end Readback

section Migration

/-- Read, prove and rewrite every row, and read the written tables back. -/
def rewriteTables (sha : Sha256) (goalId : String)
    (inspection : SqliteAuthorityMigrationInspection) (expectedSequenceDigest : Option String)
    (db : SqliteDatabaseV1) : SqliteResult (SqliteDatabase × MigrationState × String) :=
  match db.metadata with
  | none => .error (.protocol "SQLite authority store changed before its migration started")
  | some row =>
    if row.storeIdentity ≠ inspection.identity ∨ row.goalId ≠ goalId ∨ db.userVersion ≠ 1 ∨
        row.schemaVersion ≠ SQLITE_AUTHORITY_STORE_V1_SCHEMA then
      .error (.protocol "SQLite authority store changed before its migration started")
    else do
      let state ← eachPage CommitColumnsV1.cursor (migrateRow sha inspection.identity) db.commits
        .start 0
      if state.commits ≠ inspection.commits then
        .error (.protocol "V1 authority store changed while it was migrated")
      else do
        let tables ← publishHead state
        verifyWrittenStateLogReadable sha tables state.commits
        let sequenceDigest := sha.hex state.sequence.toByteArray
        if expectedSequenceDigest.any (fun expected => sequenceDigest ≠ expected) then
          .error (.protocol "SQLite source changed after its verified backup; retry upgrade")
        else
          .ok ({ tables with
            userVersion := 2
            metadata := some { row with schemaVersion := SQLITE_AUTHORITY_STORE_SCHEMA } },
            state, sequenceDigest)

/-- The check of the published store, on a connection of its own. -/
def verifyMigratedStore (sha : Sha256) (goalId identity expectedSequenceDigest : String)
    (db : SqliteDatabase) : Option (String × String) :=
  let sequence := db.commits.foldl (fun text row =>
    text ++ sequenceLine row.cursor row.operationId row.commitDigest) ""
  if sha.hex sequence.toByteArray ≠ expectedSequenceDigest then
    some ("migration_sequence_changed",
      "migrated store changed the retained transaction identity sequence")
  else if db.metadata.all (fun row => row.goalId ≠ goalId ∨ row.storeIdentity ≠ identity ∨
      row.schemaVersion ≠ SQLITE_AUTHORITY_STORE_SCHEMA) then
    some ("migration_identity_changed", "migrated store changed the authority lineage")
  else none

def migrationFailure : SqliteError → SqliteAuthorityMigrationResult
  | .protocol reason => failedMigration "migration_protocol_violation" reason
  | .driver reason => failedMigration "migration_transaction_failed" reason

def executeSqliteAuthorityMigration (sha : Sha256) (goalId : String)
    (inspection : SqliteAuthorityMigrationInspection) (expectedSequenceDigest : Option String)
    (env : MigrationEnvironment) (file : AuthorityFile) :
    AuthorityFile × SqliteAuthorityMigrationResult :=
  if env.interrupted then (file, migrationFailure (.driver "SQLite authority migration failed"))
  else
    match file with
    | .v2 _ => (file, migrationFailure (.driver "no such column: projection"))
    | .v1 db =>
      match rewriteTables sha goalId inspection expectedSequenceDigest db with
      | .error error => (file, migrationFailure error)
      | .ok (written, state, sequenceDigest) =>
        -- the transaction is committed from here on
        if env.reopenFails then
          (.v2 written, migrationFailure (.driver "unable to open database file"))
        else
          match verifyMigratedStore sha goalId inspection.identity sequenceDigest written with
          | some (reasonCode, reason) => (.v2 written, failedMigration reasonCode reason)
          | none => (.v2 written, ⟨.migrated, some state.commits, some state.checkpoints,
              some sequenceDigest, some inspection.identity, none, none⟩)

def migrateSqliteAuthorityStoreV1ToV2 (sha : Sha256) (goalId : String)
    (options : MigrationOptions) (env : MigrationEnvironment) (file : Option AuthorityFile) :
    Option AuthorityFile × SqliteAuthorityMigrationResult :=
  match file with
  | none => (none, ⟨.missing, none, none, none, none, some "migration_source_missing",
      some "SQLite authority database is missing"⟩)
  | some file =>
    match inspectSqliteAuthorityStore goalId options.expectedIdentity env.unreadable file with
    | .error (reasonCode, reason) => (some file, failedMigration reasonCode reason)
    | .ok inspection =>
      if inspection.version = 2 then
        (some file, ⟨.alreadyCurrent, some inspection.commits, none, none,
          some inspection.identity, none, none⟩)
      else if inspection.version ≠ 1 then
        (some file, failedMigration "migration_version_unsupported"
          "SQLite authority database is not a migrated V1 authority store")
      else if options.execute = false then
        (some file, ⟨.planned, some inspection.commits, none, none, some inspection.identity,
          none, none⟩)
      else
        let (file, result) := executeSqliteAuthorityMigration sha goalId inspection
          options.expectedSequenceDigest env file
        (some file, result)

end Migration

end Loopx.Authority
