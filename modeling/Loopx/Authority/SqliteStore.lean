/- GID: Loopx/Authority/SqliteStore
   generality: I
   source: loopx/control_plane/coordination/sqlite_authority_store.ts
   digest: The SQLite provider over one database file: tables, row proofs and every operation. -/

import Loopx.Authority.StateDigest
import Loopx.Authority.StoreContract

set_option autoImplicit false
set_option relaxedAutoImplicit false

namespace Loopx.Authority

open Loopx.Json (JsNumber Protocol canonicalAuthorityBytes stringify)

def SQLITE_AUTHORITY_STORE_SCHEMA : String := "loopx_sqlite_authority_store_v2"

def MAX_SEQUENCE : Nat := 9223372036854775807

/-- The largest commit, in bytes of its canonical text. -/
def MAX_COMMIT_BYTES : Nat := 16 * 1024 * 1024

/-- The rows one page of the audit reads. -/
def AUDIT_PAGE : Nat := 512

/-- `IDENTITY`. -/
def isSqliteIdentity (s : String) : Bool :=
  s.toList.take 7 = "sqlite:".toList && (s.toList.drop 7).length = 32 &&
    (s.toList.drop 7).all isHexDigit

/-- `REVISION`: an identity, a colon and a positive decimal. -/
def isSqliteRevision (s : String) : Bool :=
  isSqliteIdentity (String.ofList (s.toList.take 39)) && s.toList[39]? = some ':' &&
    isDecimalText (String.ofList (s.toList.drop 40))

/-- A new `sqlite:` identity, from a random UUID without its dashes. -/
structure SqliteIdentity where
  text : String
  pattern : isSqliteIdentity text = true

/-- A row of `commits` as it is stored; the last three columns are JSON text. -/
structure CommitColumns where
  cursor : Nat
  operationId : String
  commitDigest : String
  stateDigest : String
  parentStateDigest : Option String
  delta : String
  events : String
  receipts : String
deriving DecidableEq

/-- A row of `checkpoints`. -/
structure CheckpointColumns where
  cursor : Nat
  projection : String
  projectionDigest : String
deriving DecidableEq

/-- The row of `head`. -/
structure HeadColumns where
  cursor : Nat
  projection : String
  stateDigest : String
deriving DecidableEq

/-- The row of `metadata`. -/
structure MetadataColumns where
  schemaVersion : String
  goalId : String
  storeIdentity : String
deriving DecidableEq

/-- One database file. Tables stand in primary key order. -/
structure SqliteDatabase where
  userVersion : Nat
  metadata : Option MetadataColumns
  commits : List CommitColumns
  checkpoints : List CheckpointColumns
  head : Option HeadColumns
deriving DecidableEq

/-- The file as the driver creates it: no version and no table. -/
def SqliteDatabase.blank : SqliteDatabase := ⟨0, none, [], [], none⟩

/-- An error a transaction throws: the store's own or a JSON one, or the driver's. -/
inductive SqliteError where
  | protocol (message : String)
  | driver (message : String)
deriving DecidableEq

abbrev SqliteResult := Except SqliteError

/-- The store's own checks inside a transaction. -/
def check {α : Type} : Protocol α → SqliteResult α
  | .ok value => .ok value
  | .error message => .error (.protocol message)

/-- What the driver does to one call. -/
structure SqliteEnvironment where
  unavailable : Bool
  busy : Bool
  freshIdentity : SqliteIdentity
  commit : Replace

structure SqliteStore where
  sha : Sha256
  goalId : String
  existingOnly : Bool
  expectedIdentity : Option String

/-- The file of one goal. `proofs` records every commit proof whose digest was taken to be stored
or to be compared with a stored one. -/
structure SqliteState where
  database : Option SqliteDatabase
  proofs : List ByteArray

def SqliteState.empty : SqliteState := ⟨none, []⟩

/-- A decoded row of `commits`. -/
structure SqliteCommitRow where
  cursor : Nat
  operationId : String
  commitDigest : String
  stateDigest : String
  parentStateDigest : Option String
  delta : AuthorityStateDelta
  events : List Json
  receipts : List Json
deriving DecidableEq

/-- A proven state: its cursor, its digest and the replay that owns it. -/
structure SqliteReplayCursor where
  cursor : Nat
  digest : String
  replay : AuthorityStateReplay
deriving DecidableEq

/-- The live head. -/
structure SqliteHead where
  cursor : Nat
  projection : Json
  digest : String
  providerRevision : String
  identity : String
deriving DecidableEq

/-- What a verified audit counts. -/
structure SqliteAuthorityHistoryAudit where
  commits : Nat
  checkpoints : Nat
deriving DecidableEq

def parseJson (value : String) : Protocol Json :=
  match Json.parse value with
  | some parsed => .ok parsed
  | none => .error "Unexpected token in JSON"

def requireDigest (value label : String) : Protocol String :=
  if isBareSha256 value then .ok value else .error (label ++ " is invalid")

def requireParentDigest : Option String → Protocol (Option String)
  | none => .ok none
  | some value => do
    let digest ← requireDigest value "SQLite parent state digest"
    .ok (some digest)

def decodeCommitRow (row : CommitColumns) : Protocol SqliteCommitRow :=
  if row.cursor = 0 then .error "Invalid SQLite transaction cursor"
  else do
    let operationId ← requireAuthorityStoreId (some (.string row.operationId)) "operation id"
    let commitDigest ← requireDigest row.commitDigest "SQLite commit digest"
    let stateDigest ← requireDigest row.stateDigest "SQLite state digest"
    let parentStateDigest ← requireParentDigest row.parentStateDigest
    let delta ← parseJson row.delta
    let delta ← decodeAuthorityStateDelta delta
    let events ← parseJson row.events
    let events ← canonicalAuthorityObjectList (some events) "SQLite events"
    let receipts ← parseJson row.receipts
    let receipts ← canonicalAuthorityObjectList (some receipts) "SQLite receipts"
    .ok ⟨row.cursor, operationId, commitDigest, stateDigest, parentStateDigest, delta, events,
      receipts⟩

/-- How a row is proven: from the state before it, or by the checkpoint it must equal. -/
inductive SqliteBase where
  | predecessor
  | sealed
deriving DecidableEq

/-- The token of one cursor. -/
def sqliteRevision (identity : String) (cursor : Nat) : String := identity ++ ":" ++ cursor.repr

namespace SqliteStore

variable (store : SqliteStore)

def identity (db : SqliteDatabase) : Protocol String :=
  if db.userVersion = 1 then
    .error "SQLite authority schema version 1 needs the explicit V1 to V2 authority migration"
  else if db.userVersion ≠ 2 then
    .error "Unsupported SQLite authority schema version; explicit migration is required"
  else
    match db.metadata with
    | none => .error "SQLite authority metadata or goal identity is invalid"
    | some row =>
      if row.schemaVersion ≠ SQLITE_AUTHORITY_STORE_SCHEMA ∨ row.goalId ≠ store.goalId ∨
          isSqliteIdentity row.storeIdentity = false ∨
          store.expectedIdentity.any (fun e => e ≠ row.storeIdentity) then
        .error "SQLite authority metadata or goal identity is invalid"
      else .ok row.storeIdentity

/-- The replayed state of a row, checked against the row's own declarations. -/
def replayRow (row : SqliteCommitRow) (base : SqliteBase) (state : SqliteReplayCursor) :
    Protocol AuthorityStateReplay :=
  match base with
  | .sealed =>
    if row.cursor ≠ state.cursor then .error "SQLite authority state log window is invalid"
    else if row.stateDigest ≠ state.digest then
      .error "SQLite authority checkpoint state digest mismatch"
    else .ok state.replay
  | .predecessor =>
    if row.cursor ≠ state.cursor + 1 then
      .error "SQLite authority state log cursor lineage is invalid"
    else if row.parentStateDigest ≠ (if row.cursor = 1 then none else some state.digest) then
      .error "SQLite authority state log parent lineage is invalid"
    else do
      let replay ← state.replay.apply row.delta.toJson
      let digest := if row.cursor > 1 ∧ row.delta.operations = [] then state.digest
        else replay.stateDigest store.sha
      if digest ≠ row.stateDigest then .error "SQLite authority state log digest mismatch"
      else .ok replay

def verifyCommitRow (row : SqliteCommitRow) (identity : String) (base : SqliteBase)
    (state : SqliteReplayCursor) : Protocol SqliteReplayCursor := do
  let replay ← store.replayRow row base state
  let expected ← replay.commitDigest store.sha
    (commitFields identity row.cursor row.operationId row.events row.receipts)
  if row.commitDigest ≠ expected then .error "SQLite committed row digest mismatch"
  else .ok ⟨row.cursor, row.stateDigest, replay⟩

def loadCheckpoint (db : SqliteDatabase) (cursor : Nat) : Protocol SqliteReplayCursor := do
  let expected ← authorityStateCheckpointCursor cursor
  match db.checkpoints.find? (fun row => row.cursor = expected) with
  | none => .error "SQLite authority checkpoint is missing for its window"
  | some row => do
    let projection ← parseJson row.projection
    let replay ← AuthorityStateReplay.create projection
    let digest ← requireDigest row.projectionDigest "SQLite checkpoint digest"
    if replay.stateDigest store.sha ≠ digest then
      .error "SQLite authority checkpoint digest mismatch"
    else .ok ⟨expected, digest, replay⟩

def windowRows (db : SqliteDatabase) (first last : Nat) : Protocol (List CommitColumns) :=
  let rows := db.commits.filter (fun row => first ≤ row.cursor ∧ row.cursor ≤ last)
  if rows.length + first ≠ last + 1 then
    .error "SQLite authority state log does not cover its checkpoint window"
  else .ok rows

/-- The loop of `verifiedRange`: every row is proven, those from `first` on are handed out. -/
def verifyRows (identity : String) (checkpoint first : Nat) : SqliteReplayCursor →
    List CommitColumns → Protocol (List (SqliteCommitRow × AuthorityStateReplay))
  | _, [] => .ok []
  | state, raw :: rest => do
    let row ← decodeCommitRow raw
    let state ← store.verifyCommitRow row identity
      (if row.cursor = checkpoint then .sealed else .predecessor) state
    let consumed ← verifyRows identity checkpoint first state rest
    .ok (if first ≤ row.cursor then (row, state.replay) :: consumed else consumed)

/-- One contiguous span of retained transactions, proven from its covering checkpoint. -/
def verifiedRange (db : SqliteDatabase) (first last : Nat) :
    Protocol (String × List (SqliteCommitRow × AuthorityStateReplay)) := do
  let identity ← store.identity db
  let checkpoint ← store.loadCheckpoint db first
  let rows ← windowRows db checkpoint.cursor last
  let consumed ← store.verifyRows identity checkpoint.cursor first checkpoint rows
  .ok (identity, consumed)

/-- Does the head row's cursor end the contiguous cursors from one? -/
def isContiguous (db : SqliteDatabase) (cursor : Nat) : Bool :=
  let cursors := db.commits.map (fun row => row.cursor)
  (cursors.length = 0 && cursors.max? = none) ||
    (cursors.min? = some 1 && cursors.max? = some cursors.length && cursors.max? = some cursor)

/-- The first row has no parent; any other declares the digest of the row before it. -/
def parentMismatch (db : SqliteDatabase) (cursor : Nat) (declared : Option String) : Bool :=
  if cursor = 1 then declared.isSome
  else
    match db.commits.find? (fun parent => parent.cursor = cursor - 1) with
    | none => true
    | some parent => declared ≠ some parent.stateDigest

/-- The head row against the retained transaction at its cursor. -/
def proveHead (db : SqliteDatabase) (identity : String) (row : HeadColumns) :
    Protocol SqliteHead := do
  let parsed ← parseJson row.projection
  let projection ← canonicalAuthorityObject (some parsed) "SQLite head projection"
  let digest ← requireDigest row.stateDigest "SQLite head state digest"
  if authorityStateDigest store.sha projection ≠ digest then
    .error "SQLite authority head digest mismatch"
  else
    match db.commits.find? (fun retained => retained.cursor = row.cursor) with
    | none => .error "SQLite authority head has no retained transaction"
    | some retained => do
      let newest ← decodeCommitRow retained
      if newest.stateDigest ≠ digest then
        .error "SQLite authority head state digest is not retained"
      else if parentMismatch db row.cursor newest.parentStateDigest then
        .error "SQLite authority head parent lineage is invalid"
      else if newest.commitDigest ≠ commitDigest store.sha identity row.cursor newest.operationId
          projection newest.events newest.receipts then
        .error "SQLite committed row digest mismatch"
      else do
        let checkpoint ← authorityStateCheckpointCursor row.cursor
        if db.checkpoints.all (fun retained => retained.cursor ≠ checkpoint) then
          .error "SQLite authority checkpoint is missing for the live window"
        else .ok ⟨row.cursor, projection, digest, sqliteRevision identity row.cursor, identity⟩

/-- The live head, proven without replaying history. -/
def current (db : SqliteDatabase) : Protocol (Option SqliteHead) := do
  let identity ← store.identity db
  match db.head with
  | none =>
    if db.commits ≠ [] ∨ db.checkpoints ≠ [] then
      .error "SQLite authority head is missing for retained transactions"
    else .ok none
  | some row =>
    if row.cursor = 0 then .error "Invalid SQLite authority head cursor"
    else if isContiguous db row.cursor = false then
      .error "SQLite authority store is not a contiguous committed lineage"
    else do
      let head ← store.proveHead db identity row
      .ok (some head)

def readFailure : SqliteError → AuthorityStoreReadFailure
  | .protocol reason => .failed "provider_protocol_violation" reason
  | .driver _ => .unavailable "provider_read_unavailable"
      "SQLite authority store could not be read; check database availability and lock contention"

/-- `open(false)`: no file is no database. -/
def openRead (env : SqliteEnvironment) (s : SqliteState) : SqliteResult (Option SqliteDatabase) :=
  match s.database with
  | none => .ok none
  | some db =>
    if env.unavailable then .error (.driver "unable to open database file")
    else do
      let _ ← check (store.identity db)
      .ok (some db)

/-- The tables and the metadata row of a new store. -/
def install (fresh : SqliteIdentity) : SqliteDatabase :=
  ⟨2, some ⟨SQLITE_AUTHORITY_STORE_SCHEMA, store.goalId, fresh.text⟩, [], [], none⟩

/-- `open(true)`: creates the file, installs an unversioned empty one, and checks the identity. -/
def openWrite (env : SqliteEnvironment) (s : SqliteState) :
    SqliteState × SqliteResult SqliteDatabase :=
  if store.existingOnly ∧ s.database = none then
    (s, .error (.protocol "Selected SQLite authority database is missing"))
  else if env.unavailable then (s, .error (.driver "unable to open database file"))
  else
    let db := s.database.getD .blank
    let s := { s with database := some db }
    if env.busy then (s, .error (.driver "database is locked"))
    else if db.userVersion = 0 ∧
        (db.metadata ≠ none ∨ db.commits ≠ [] ∨ db.checkpoints ≠ [] ∨ db.head ≠ none) then
      (s, .error (.protocol "SQLite database is not an empty LoopX authority database"))
    else
      let opened := if db.userVersion = 0 then store.install env.freshIdentity else db
      match store.identity opened with
      | .error reason => (s, .error (.protocol reason))
      | .ok _ => ({ s with database := some opened }, .ok opened)

def loadAuthority (env : SqliteEnvironment) (s : SqliteState) : AuthorityStoreLoadResult :=
  match (do
    let db ← store.openRead env s
    match db with
    | none => .ok none
    | some db => check (store.current db) : SqliteResult (Option SqliteHead)) with
  | .error error => .failure (readFailure error)
  | .ok none => .missing
  | .ok (some head) => .loaded ⟨head.projection, head.providerRevision, head.cursor.repr⟩

/-- What a write transaction came to: an answer without effect, or tables to commit. -/
inductive SqliteDecision where
  | reply (result : AuthorityStoreCommitResult)
  | write (db : SqliteDatabase) (providerRevision cursor : String)
deriving DecidableEq

/-- The bytes whose digest proves a commit at a cursor. -/
def commitProof (identity : String) (cursor : Nat) (commit : AuthorityStoreCommit) : ByteArray :=
  canonicalAuthorityBytes ((commitFields identity cursor commit.operationId commit.events
    commit.receipts).toJson commit.nextProjection)

/-- The proven row of a used operation id: the original result for the same proof. -/
def replayExisting (db : SqliteDatabase) (existing : CommitColumns)
    (normalized : AuthorityStoreCommit) : Protocol (Option AuthorityStoreCommitResult) := do
  let retained ← decodeCommitRow existing
  let (identity, rows) ← store.verifiedRange db retained.cursor retained.cursor
  if rows.any (fun row => row.1.operationId ≠ normalized.operationId) ∨ rows = [] then
    .error "SQLite replay is not part of its retained window"
  else
    .ok ((rows.filter (fun row => row.1.commitDigest = commitDigest store.sha identity row.1.cursor
      normalized.operationId normalized.nextProjection normalized.events
      normalized.receipts)).getLast?.map (fun row =>
        .applied (sqliteRevision identity row.1.cursor) row.1.cursor.repr))

/-- A row in its place in primary key order. -/
def insertByKey {α : Type} (key : α → Nat) (row : α) (rows : List α) : List α :=
  rows.takeWhile (fun stored => key stored < key row) ++
    row :: rows.dropWhile (fun stored => key stored < key row)

/-- `INSERT INTO checkpoints`. -/
def insertCheckpoint (db : SqliteDatabase) (row : CheckpointColumns) :
    SqliteResult SqliteDatabase :=
  if row.cursor = 0 ∨ row.projectionDigest.length ≠ 64 ∨
      db.checkpoints.any (fun stored => stored.cursor = row.cursor) then
    .error (.driver "constraint failed")
  else .ok { db with checkpoints := insertByKey CheckpointColumns.cursor row db.checkpoints }

/-- Only a cursor that starts a window is sealed. -/
def sealCheckpoint (db : SqliteDatabase) (row : CheckpointColumns) (checkpoint : Bool) :
    SqliteResult SqliteDatabase :=
  if checkpoint then insertCheckpoint db row else .ok db

/-- `INSERT INTO commits`, with the constraints of its columns. -/
def insertCommit (db : SqliteDatabase) (row : CommitColumns) : SqliteResult SqliteDatabase :=
  if row.cursor = 0 ∨ row.commitDigest.length ≠ 64 ∨ row.stateDigest.length ≠ 64 ∨
      row.parentStateDigest.any (fun digest => digest.length ≠ 64) ∨
      db.commits.any (fun stored => stored.cursor = row.cursor ∨
        stored.operationId = row.operationId) then
    .error (.driver "constraint failed")
  else .ok { db with commits := insertByKey CommitColumns.cursor row db.commits }

/-- The upsert of the head row, whose cursor references `commits`. -/
def upsertHead (db : SqliteDatabase) (row : HeadColumns) : SqliteResult SqliteDatabase :=
  if row.stateDigest.length ≠ 64 ∨
      db.commits.all (fun stored => stored.cursor ≠ row.cursor) then
    .error (.driver "constraint failed")
  else .ok { db with head := some row }

/-- The state a new commit is built on, and its digest. -/
def stateBefore (head : Option SqliteHead) : Json :=
  (head.map (fun head => head.projection)).getD (.object [])

def parentDigest (head : Option SqliteHead) : Option String := head.map (fun head => head.digest)

def commitIdentity (db : SqliteDatabase) : Option SqliteHead → SqliteResult String
  | some head => .ok head.identity
  | none => check (store.identity db)

/-- The three statements that append one transaction. -/
def appendCommit (db : SqliteDatabase) (head : Option SqliteHead)
    (normalized : AuthorityStoreCommit) : SqliteResult SqliteDecision := do
  let identity ← store.commitIdentity db head
  let next := (head.map (fun head => head.cursor)).getD 0 + 1
  if next > MAX_SEQUENCE then .error (.protocol "SQLite authority sequence exhausted")
  else do
    let before := stateBefore head
    let parent := parentDigest head
    let nextState ← check (canonicalAuthorityObject (some normalized.nextProjection)
      "SQLite authority state")
    let delta := authorityStateDelta before nextState
    if authorityStateDeltaReconstructs before delta.toJson nextState = false then
      .error (.protocol "SQLite authority state delta does not reconstruct its commit")
    else do
      let stateDigest := authorityStateDigest store.sha nextState
      let checkpoint ← check (isAuthorityStateCheckpoint next)
      let db ← sealCheckpoint db ⟨next, stringify nextState, stateDigest⟩ checkpoint
      let db ← insertCommit db ⟨next, normalized.operationId, commitDigest store.sha identity next
        normalized.operationId nextState normalized.events normalized.receipts, stateDigest, parent,
        stringify delta.toJson, stringify (.array normalized.events),
        stringify (.array normalized.receipts)⟩
      let db ← upsertHead db ⟨next, stringify nextState, stateDigest⟩
      .ok (.write db (sqliteRevision identity next) next.repr)

/-- Replay, refuse or append, inside one write transaction. -/
def decideCommit (db : SqliteDatabase) (normalized : AuthorityStoreCommit) :
    SqliteResult SqliteDecision := do
  let head ← check (store.current db)
  let conflict (kind : ConflictKind) : SqliteDecision := .reply (.conflict kind
    (head.map (fun head => head.providerRevision)) (head.map (fun head => head.cursor.repr)))
  match db.commits.find? (fun row => row.operationId = normalized.operationId) with
  | some existing => do
    let replayed ← check (store.replayExisting db existing normalized)
    match replayed with
    | some result => .ok (.reply result)
    | none => .ok (conflict .operationIdExists)
  | none =>
    if head.map (fun head => head.providerRevision) ≠ normalized.expectedProviderRevision then
      .ok (conflict .providerRevisionMismatch)
    else store.appendCommit db head normalized

def commitFailure : SqliteError → AuthorityStoreCommitResult
  | .protocol reason => .failed "provider_protocol_violation" reason
  | .driver _ => .failed "provider_transaction_failed" "SQLite transaction failed before COMMIT"

def commitJson (commit : AuthorityStoreCommit) : Json :=
  .object [("expected_provider_revision", revisionJson commit.expectedProviderRevision),
    ("operation_id", .string commit.operationId), ("events", .array commit.events),
    ("next_projection", commit.nextProjection), ("receipts", .array commit.receipts)]

/-- A replay check takes the digest of the request at the cursor of the stored row. -/
def noteReplay (s : SqliteState) (db : SqliteDatabase) (identity : String)
    (normalized : AuthorityStoreCommit) : SqliteState :=
  match db.commits.find? (fun row => row.operationId = normalized.operationId) with
  | some existing =>
    { s with proofs := commitProof identity existing.cursor normalized :: s.proofs }
  | none => s

/-- An append takes the digest of the request at the next cursor. -/
def noteAppend (s : SqliteState) (db : SqliteDatabase) (identity : String)
    (normalized : AuthorityStoreCommit) : SqliteState :=
  { s with proofs := commitProof identity (db.commits.length + 1) normalized :: s.proofs }

def storeIdentityOf (db : SqliteDatabase) : String :=
  (db.metadata.map (fun row => row.storeIdentity)).getD ""

/-- The write transaction of an open database, up to the outcome of its COMMIT. -/
def writeCommit (env : SqliteEnvironment) (s : SqliteState) (db : SqliteDatabase)
    (normalized : AuthorityStoreCommit) : SqliteState × AuthorityStoreCommitResult :=
  let s := noteReplay s db (storeIdentityOf db) normalized
  match store.decideCommit db normalized with
  | .error error => (s, commitFailure error)
  | .ok (.reply result) => (s, result)
  | .ok (.write written providerRevision cursor) =>
    let s := noteAppend s db (storeIdentityOf db) normalized
    match env.commit with
    | .done => ({ s with database := some written }, .applied providerRevision cursor)
    | .lost => (s, .ambiguous "commit_outcome_unknown"
        "SQLite COMMIT outcome is unknown; reconcile by operation receipt")
    | .taken => ({ s with database := some written }, .ambiguous "commit_outcome_unknown"
        "SQLite COMMIT outcome is unknown; reconcile by operation receipt")

def commitAuthority (env : SqliteEnvironment) (s : SqliteState) (commit : AuthorityStoreCommit) :
    SqliteState × AuthorityStoreCommitResult :=
  match normalizeAuthorityStoreCommit commit with
  | .error reason => (s, .failed "invalid_commit_request" reason)
  | .ok normalized =>
    if normalized.expectedProviderRevision.any (fun revision => !isSqliteRevision revision) then
      (s, .failed "invalid_commit_request" "Invalid expected SQLite provider revision")
    else if (canonicalAuthorityBytes (commitJson normalized)).size > MAX_COMMIT_BYTES then
      (s, .failed "store_capacity_exhausted" "SQLite commit exceeds 16 MiB")
    else
      match store.openWrite env s with
      | (s, .error error) => (s, commitFailure error)
      | (s, .ok db) => store.writeCommit env s db normalized

/-- The span of one checkpoint window that covers its requested cursors. -/
structure ReceiptRange where
  checkpoint : Nat
  first : Nat
  last : Nat
deriving DecidableEq

/-- `ranges.set(checkpoint, …)`: widen the window's span, or add the window. -/
def widenRange (checkpoint cursor : Nat) : List ReceiptRange → List ReceiptRange
  | [] => [⟨checkpoint, cursor, cursor⟩]
  | range :: rest =>
    if range.checkpoint = checkpoint then
      ⟨checkpoint, if range.first < cursor then range.first else cursor,
        if range.last > cursor then range.last else cursor⟩ :: rest
    else range :: widenRange checkpoint cursor rest

/-- The cursor of each requested id, and the spans to prove. -/
def selectReceipts (db : SqliteDatabase) : List String → List ReceiptRange →
    Protocol (List (Option Nat) × List ReceiptRange)
  | [], ranges => .ok ([], ranges)
  | id :: ids, ranges =>
    match db.commits.find? (fun row => row.operationId = id) with
    | none => do
      let (selected, ranges) ← selectReceipts db ids ranges
      .ok (none :: selected, ranges)
    | some row => do
      let decoded ← decodeCommitRow row
      let checkpoint ← authorityStateCheckpointCursor decoded.cursor
      let (selected, ranges) ← selectReceipts db ids
        (widenRange checkpoint decoded.cursor ranges)
      .ok (some decoded.cursor :: selected, ranges)

/-- The proven rows of every span, one window after the other. -/
def verifyRanges (db : SqliteDatabase) : List ReceiptRange →
    Protocol (List (String × SqliteCommitRow))
  | [] => .ok []
  | range :: ranges => do
    let (identity, rows) ← store.verifiedRange db range.first range.last
    let rest ← verifyRanges db ranges
    .ok (rows.map (fun row => (identity, row.1)) ++ rest)

/-- `verified.get(id)` after every `verified.set`. -/
def verifiedReceipt (verified : List (String × SqliteCommitRow)) (id : String) :
    Option (Nat × AuthorityStoreReceiptResult) :=
  ((verified.filter (fun row => row.2.operationId = id)).getLast?).map (fun row =>
    (row.2.cursor, .found row.2.cursor.repr (sqliteRevision row.1 row.2.cursor) row.2.receipts))

def receiptResults (verified : List (String × SqliteCommitRow)) :
    List (String × Option Nat) → Protocol (List AuthorityStoreReceiptResult)
  | [] => .ok []
  | (_, none) :: rest => do
    let rest ← receiptResults verified rest
    .ok (.missing :: rest)
  | (id, some cursor) :: rest =>
    match (verifiedReceipt verified id).filter (fun found => found.1 = cursor) with
    | none => .error "SQLite authority receipt is not part of its retained window"
    | some found => do
      let rest ← receiptResults verified rest
      .ok (found.2 :: rest)

def readReceipts (env : SqliteEnvironment) (s : SqliteState) (operationIds : List String) :
    AuthorityStoreReceiptBatchResult :=
  match (do
    let ids ← check (receiptBatch operationIds)
    let missing := ids.map (fun _ => AuthorityStoreReceiptResult.missing)
    let db ← store.openRead env s
    match db with
    | none => .ok missing
    | some db => do
      let head ← check (store.current db)
      match head with
      | none => .ok missing
      | some _ => do
        let (selected, ranges) ← check (selectReceipts db ids [])
        let verified ← check (store.verifyRanges db ranges)
        check (receiptResults verified (ids.zip selected)) :
      SqliteResult (List AuthorityStoreReceiptResult)) with
  | .error error => .failure (readFailure error)
  | .ok results => .receipts results

def readReceipt (env : SqliteEnvironment) (s : SqliteState) (operationId : String) :
    AuthorityStoreReceiptResult :=
  match store.readReceipts env s [operationId] with
  | .failure failure => .failure failure
  | .receipts results => results.headD .missing

/-- The page's rows, as the consumer collects them. -/
def scannedRows (identity : String) (rows : List (SqliteCommitRow × AuthorityStateReplay)) :
    List AuthorityStoreCommittedTransaction :=
  rows.map (fun row => ⟨⟨row.1.cursor.repr, sqliteRevision identity row.1.cursor,
    row.1.operationId, row.1.events, row.1.receipts⟩, row.2.snapshot⟩)

/-- A scan of an open database. -/
def scanDatabase (db : SqliteDatabase) (scan : AuthorityJournalScan) :
    Protocol AuthorityStoreScanResult := do
  let head ← store.current db
  let range ← scan.rangeFailure (head.map (fun head => head.cursor.repr))
  match range with
  | some failure => .ok (.failure failure)
  | none => do
    let rows := (db.commits.filter (fun row => scan.offset < row.cursor)).take (scan.limit + 1)
    let verified ← match rows.head?, rows.getLast? with
      | some first, some last => do
        let (identity, verified) ← store.verifiedRange db first.cursor last.cursor
        .ok (scannedRows identity verified)
      | _, _ => .ok []
    scan.page verified (head.map (fun head =>
      ⟨head.projection, head.providerRevision, head.cursor.repr⟩))

def scanCommitted (env : SqliteEnvironment) (s : SqliteState) (afterCursor : Option String)
    (limit : JsNumber) : AuthorityStoreScanResult :=
  match AuthorityJournalScan.prepare afterCursor limit with
  | .error failure => .failure failure
  | .ok scan =>
    match (do
      let db ← store.openRead env s
      match db with
      | none => check (scan.page [] none)
      | some db => check (store.scanDatabase db scan) :
        SqliteResult AuthorityStoreScanResult) with
    | .error error => .failure (readFailure error)
    | .ok result => result

/-- One row of the audit: its delta from the row before it, and its checkpoint where it has one. -/
def auditRow (db : SqliteDatabase) (identity : String) (state : SqliteReplayCursor)
    (raw : CommitColumns) : Protocol SqliteReplayCursor := do
  let row ← decodeCommitRow raw
  let replayed ← store.verifyCommitRow row identity .predecessor state
  let checkpointed ← isAuthorityStateCheckpoint row.cursor
  if checkpointed then do
    let checkpoint ← store.loadCheckpoint db row.cursor
    let sealed ← store.verifyCommitRow row identity .sealed checkpoint
    if sealed.digest ≠ replayed.digest ∨
        sealed.replay.projectionText ≠ replayed.replay.projectionText then
      .error "SQLite authority checkpoint does not match retained history"
    else .ok replayed
  else .ok replayed

def auditRows (db : SqliteDatabase) (identity : String) : SqliteReplayCursor →
    List CommitColumns → Protocol SqliteReplayCursor
  | state, [] => .ok state
  | state, raw :: rest => do
    let state ← store.auditRow db identity state raw
    auditRows db identity state rest

/-- `SELECT … WHERE cursor > ? ORDER BY cursor LIMIT ?`. -/
def auditPage (db : SqliteDatabase) (cursor : Nat) : List CommitColumns :=
  (db.commits.filter (fun row => cursor < row.cursor)).take AUDIT_PAGE

theorem auditPage_decreases {db : SqliteDatabase} {cursor : Nat} {last : CommitColumns}
    (h : last ∈ auditPage db cursor) :
    (db.commits.filter (fun row => last.cursor < row.cursor)).length <
      (db.commits.filter (fun row => cursor < row.cursor)).length := by
  have hmem := List.mem_of_mem_take h
  have hlast : cursor < last.cursor := by simpa using (List.mem_filter.mp hmem).2
  have hsub : db.commits.filter (fun row => last.cursor < row.cursor) =
      (db.commits.filter (fun row => cursor < row.cursor)).filter
        (fun row => last.cursor < row.cursor) := by
    rw [List.filter_filter]
    apply List.filter_congr
    intro row _
    have himp : last.cursor < row.cursor → cursor < row.cursor := fun h => by omega
    by_cases hrow : last.cursor < row.cursor
    · simp [hrow, himp hrow]
    · simp [hrow]
  rw [hsub]
  refine List.length_filter_lt_length_iff_exists.mpr ⟨last, hmem, ?_⟩
  simp

/-- The audit's page loop: the state it ends in and the rows it counted. -/
def auditPages (db : SqliteDatabase) (identity : String) (state : SqliteReplayCursor)
    (cursor commits : Nat) : Protocol (SqliteReplayCursor × Nat) :=
  match _last : (auditPage db cursor).getLast? with
  | none => .ok (state, commits)
  | some last => do
    let state ← store.auditRows db identity state (auditPage db cursor)
    auditPages db identity state last.cursor (commits + (auditPage db cursor).length)
termination_by (db.commits.filter (fun row => cursor < row.cursor)).length
decreasing_by exact auditPage_decreases (List.mem_of_getLast? _last)

/-- The audit of an open database. -/
def auditDatabase (db : SqliteDatabase) : Protocol SqliteAuthorityHistoryAudit := do
  let identity ← store.identity db
  let head ← store.current db
  match head with
  | none => .ok ⟨0, 0⟩
  | some head => do
    let root ← AuthorityStateReplay.create (.object [])
    let (state, commits) ← store.auditPages db identity ⟨0, "", root⟩ 0 0
    if state.cursor ≠ head.cursor ∨ state.digest ≠ head.digest then
      .error "SQLite authority history does not reach the head"
    else .ok ⟨commits, db.checkpoints.length⟩

/-- The linear full-history audit. -/
def verifyAuthorityHistory (env : SqliteEnvironment) (s : SqliteState) :
    Except AuthorityStoreReadFailure SqliteAuthorityHistoryAudit :=
  match store.openRead env s with
  | .error error => .error (readFailure error)
  | .ok none => .error (.failed "provider_read_unavailable" "SQLite authority database is missing")
  | .ok (some db) =>
    match store.auditDatabase db with
    | .error reason => .error (readFailure (.protocol reason))
    | .ok audit => .ok audit

end SqliteStore

end Loopx.Authority
