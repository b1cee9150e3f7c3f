/- GID: Loopx/Authority/FileJournal
   generality: I
   source: loopx/control_plane/coordination/file_authority_journal.ts
   digest: The File provider's physical journal: checkpoints and deltas in one document. -/

import Loopx.Authority.StateLog
import Loopx.Authority.Transactions

set_option autoImplicit false
set_option relaxedAutoImplicit false

namespace Loopx.Authority

open Loopx.Lib.KeyedList
open Loopx.Json (Protocol canonicalAuthorityJson canonicalAuthorityBytes Canonical)

def FILE_AUTHORITY_JOURNAL_SCHEMA : String := "loopx_file_authority_store_v1"

def HEADER_KEYS : List String :=
  ["schema_version", "goal_id", "store_identity", "provider_revision", "cursor", "head",
    "committed"]

def ROW_KEYS : List String :=
  ["cursor", "provider_revision", "operation_id", "events", "receipts", "state"]

/-- What the digest of a `file:` token covers. -/
def revisionProof (goalId storeIdentity : String) (previousRevision : Option String)
    (transaction : RevisionInput) : Json :=
  .object [("goal_id", .string goalId), ("store_identity", .string storeIdentity),
    ("previous_provider_revision", (previousRevision.map Json.string).getD .null),
    ("transaction", transaction.toJson)]

/-- The first 24 digits of a digest. -/
def shortDigest (sha : Sha256) (v : Json) : String :=
  String.ofList ((canonicalAuthoritySha256 sha v).toList.take 24)

/-- The cursor in clear and 24 digits of the chained digest. -/
def fileAuthorityRevision (sha : Sha256) (goalId storeIdentity : String) : JournalRevision :=
  fun previousRevision transaction => "file:" ++ transaction.cursor ++ ":" ++
    shortDigest sha (revisionProof goalId storeIdentity previousRevision transaction)

def invalid {α : Type} (message : String) : Protocol α :=
  .error ("file authority store " ++ message)

inductive StoredState where
  | checkpoint (projection : Json)
  | delta (delta : AuthorityStateDelta)
deriving DecidableEq

def StoredState.toJson : StoredState → Json
  | .checkpoint projection =>
    .object [("kind", .string "checkpoint"), ("projection", projection)]
  | .delta change => .object [("kind", .string "delta"), ("delta", change.toJson)]

structure StoredCommit extends TransactionMetadata where
  state : StoredState
deriving DecidableEq

/-- The row as it enters the document, whose key order no reader sees. -/
def StoredCommit.fields (row : StoredCommit) : List (String × Json) :=
  [("cursor", .string row.cursor), ("provider_revision", .string row.providerRevision),
    ("operation_id", .string row.operationId), ("events", .array row.events),
    ("receipts", .array row.receipts), ("state", row.state.toJson)]

def StoredCommit.toJson (row : StoredCommit) : Json := .object row.fields

/-- Which kind of state a row may hold is decided by its cursor alone. -/
def storedState (value : Option Json) (cursor : Nat) : Protocol StoredState :=
  match value with
  | some (.object fields) => do
    let isCheckpoint ← isAuthorityStateCheckpoint cursor
    if isCheckpoint then
      if fields.lookup "kind" ≠ some (.string "checkpoint") ∨
          hasExactAuthorityKeys fields ["kind", "projection"] = false then
        invalid "checkpoint is missing or invalid"
      else do
        let projection ← canonicalAuthorityObject (fields.lookup "projection") "file checkpoint"
        .ok (.checkpoint projection)
    else if fields.lookup "kind" ≠ some (.string "delta") ∨
        hasExactAuthorityKeys fields ["kind", "delta"] = false then
      invalid "delta is missing or invalid"
    else do
      let delta ← decodeAuthorityStateDelta ((fields.lookup "delta").getD .null)
      .ok (.delta delta)
  | _ => invalid "state is invalid"

def project (state : StoredState) (previous : Option Json) : Protocol Json :=
  match state, previous with
  | .checkpoint projection, _ => .ok projection
  | .delta _, none => invalid "delta has no predecessor"
  | .delta delta, some previous => applyAuthorityStateDelta previous delta.toJson

def retain (transaction : AuthorityStoreCommittedTransaction) (previous : Option Json) :
    Protocol StoredCommit := do
  let cursor ← parseAuthorityCursor (some transaction.cursor)
  let isCheckpoint ← isAuthorityStateCheckpoint cursor
  if isCheckpoint then
    .ok ⟨transaction.toTransactionMetadata, .checkpoint transaction.projection⟩
  else
    match previous with
    | none => invalid "retained delta has no predecessor"
    | some previous =>
      let delta := authorityStateDelta previous transaction.projection
      if authorityStateDeltaReconstructs previous delta.toJson transaction.projection then
        .ok ⟨transaction.toTransactionMetadata, .delta delta⟩
      else invalid "delta reconstruction mismatch"

/-- Only verified or locally committed rows enter this object, and never none. -/
structure FileAuthorityJournal where
  goalId : String
  storeIdentity : String
  head : Json
  rows : List StoredCommit
  nonempty : rows ≠ []
deriving DecidableEq

/-- What one pass over the committed rows carries from row to row. -/
structure DecodeState where
  rows : List StoredCommit
  operations : List String
  previous : Option Json
  previousRevision : Option String
  replay : Option AuthorityStateReplay

/-- A checkpoint starts a new replay owner; a delta moves the one there is. -/
def advanceReplay (state : StoredState) (replay : Option AuthorityStateReplay) :
    Protocol AuthorityStateReplay :=
  match state, replay with
  | .checkpoint projection, _ => AuthorityStateReplay.create projection
  | .delta _, none => invalid "delta has no predecessor"
  | .delta delta, some replay => replay.apply delta.toJson

def decodeRow (revisionFor : JournalRevision) (index : Nat) (raw : Json) (s : DecodeState) :
    Protocol DecodeState :=
  match raw with
  | .object fields =>
    if hasExactAuthorityKeys fields ROW_KEYS then do
      let metadata := eraseKey fields "state"
      let state ← storedState (fields.lookup "state") (index + 1)
      let replay ← advanceReplay state s.replay
      let decoded ← decodeAuthorityTransaction
        (.object (setKey metadata "projection" (.object [])))
      let transaction : AuthorityStoreCommittedTransaction :=
        { decoded with projection := replay.snapshot }
      let cursor ← parseAuthorityCursor (some transaction.cursor)
      if cursor ≠ index + 1 then invalid "cursor lineage is invalid"
      else if transaction.operationId ∈ s.operations then
        invalid "operation identity is duplicated"
      else if transaction.providerRevision ≠
          revisionFor s.previousRevision (transactionForRevision transaction) then
        invalid "revision lineage is invalid"
      else
        .ok ⟨s.rows ++ [⟨transaction.toTransactionMetadata, state⟩],
          transaction.operationId :: s.operations, some transaction.projection,
          some transaction.providerRevision, some replay⟩
    else invalid "committed transaction is invalid"
  | _ => invalid "committed transaction is invalid"

def decodeRows (revisionFor : JournalRevision) :
    Nat → List Json → DecodeState → Protocol DecodeState
  | _, [], s => .ok s
  | index, raw :: rest, s => do
    let s ← decodeRow revisionFor index raw s
    decodeRows revisionFor (index + 1) rest s

namespace FileAuthorityJournal

def cursor (journal : FileAuthorityJournal) : String :=
  (journal.rows.getLast journal.nonempty).cursor

def providerRevision (journal : FileAuthorityJournal) : String :=
  (journal.rows.getLast journal.nonempty).providerRevision

/-- The constructor reads the last row; without one it throws. -/
def create (goal identity : String) (head : Json) (rows : List StoredCommit) :
    Protocol FileAuthorityJournal :=
  if nonempty : rows ≠ [] then .ok ⟨goal, identity, head, rows, nonempty⟩
  else .error "Cannot read properties of undefined (reading 'cursor')"

/-- The committed rows under an accepted header. -/
def decodeCommitted (revisionFor : JournalRevision) (goal identity cursor revision : String)
    (head : Json) (committed : Option Json) : Protocol FileAuthorityJournal :=
  match committed with
  | some (.array (raw :: raws)) => do
    let position ← parseAuthorityCursor (some cursor)
    if position ≠ (raw :: raws).length then invalid "lineage is invalid"
    else do
      let s ← decodeRows revisionFor 0 (raw :: raws) ⟨[], [], none, none, none⟩
      if s.rows.getLast?.map (·.cursor) ≠ some cursor ∨ s.previousRevision ≠ some revision ∨
          canonicalAuthorityBytes (s.previous.getD .null) ≠ canonicalAuthorityBytes head then
        invalid "head lineage is invalid"
      else create goal identity head s.rows
  | _ => invalid "lineage is invalid"

def decode (value : Json) (goal identity : String) (revisionFor : JournalRevision) :
    Protocol FileAuthorityJournal :=
  match value with
  | .object fields =>
    if hasExactAuthorityKeys fields HEADER_KEYS = false ∨
        fields.lookup "schema_version" ≠ some (.string FILE_AUTHORITY_JOURNAL_SCHEMA) then
      invalid ("schema mismatch; run loopx authority-archive upgrade --execute " ++
        "before opening this store")
    else if fields.lookup "goal_id" ≠ some (.string goal) then invalid "goal mismatch"
    else if fields.lookup "store_identity" ≠ some (.string identity) then
      invalid "lineage mismatch"
    else do
      let cursor ← requireAuthorityStoreId (fields.lookup "cursor") "provider cursor"
      let revision ← requireAuthorityStoreId (fields.lookup "provider_revision")
        "provider revision"
      let head ← canonicalAuthorityObject (fields.lookup "head") "file authority store head"
      decodeCommitted revisionFor goal identity cursor revision head (fields.lookup "committed")
  | _ =>
    invalid ("schema mismatch; run loopx authority-archive upgrade --execute " ++
      "before opening this store")

/-- The append loop: rows so far, their head and their revision. -/
def appendRows (revisionFor : JournalRevision) :
    List AuthorityStoreCommit → List StoredCommit → Option Json → Option String →
      Protocol (List StoredCommit × Option Json)
  | [], rows, previous, _ => .ok (rows, previous)
  | commit :: rest, rows, previous, revision => do
    let transaction : RevisionInput := ⟨(rows.length + 1).repr, commit.operationId, commit.events,
      commit.nextProjection, commit.receipts⟩
    let revision := revisionFor revision transaction
    let row ← retain ⟨⟨transaction.cursor, revision, transaction.operationId, transaction.events,
      transaction.receipts⟩, transaction.projection⟩ previous
    appendRows revisionFor rest (rows ++ [row]) (some transaction.projection) (some revision)

/-- The provider has checked revision, binding and operation uniqueness before. -/
def appendCommits (current : Option FileAuthorityJournal) (goal identity : String)
    (commits : List AuthorityStoreCommit) (revisionFor : JournalRevision) :
    Protocol FileAuthorityJournal := do
  let (rows, previous) ← appendRows revisionFor commits
    ((current.map (·.rows)).getD []) (current.map (·.head)) (current.map (·.providerRevision))
  create goal identity (previous.getD .null) rows

def append (current : Option FileAuthorityJournal) (goal identity : String)
    (commit : AuthorityStoreCommit) (revisionFor : JournalRevision) :
    Protocol FileAuthorityJournal :=
  appendCommits current goal identity [commit] revisionFor

/-- The index of operation ids; a repeated id would keep its last row. -/
def operations (journal : FileAuthorityJournal) : List (String × TransactionMetadata) :=
  ofEntries (journal.rows.map (fun row => (row.operationId, row.toTransactionMetadata)))

def receipt (journal : FileAuthorityJournal) (operation : String) : Option TransactionMetadata :=
  journal.operations.lookup operation

/-- The replay loop of `scan` from a checkpoint on; rows before `offset` are only replayed. -/
def scanRows (offset : Nat) :
    Nat → List StoredCommit → Option Json → Protocol (List AuthorityStoreCommittedTransaction)
  | _, [], _ => .ok []
  | index, row :: rest, previous => do
    let projection ← project row.state previous
    let result ← scanRows offset (index + 1) rest (some projection)
    if offset ≤ index then .ok (⟨row.toTransactionMetadata, projection⟩ :: result) else .ok result

def scan (journal : FileAuthorityJournal) (offset limit : Nat) :
    Protocol (List AuthorityStoreCommittedTransaction) :=
  if journal.rows.length ≤ offset then .ok []
  else do
    let covering ← authorityStateCheckpointCursor (offset + 1)
    let checkpoint := covering - 1
    let stop := min journal.rows.length (offset + limit)
    scanRows offset checkpoint ((journal.rows.take stop).drop checkpoint) none

def toDocument (journal : FileAuthorityJournal) : Json :=
  .object [("schema_version", .string FILE_AUTHORITY_JOURNAL_SCHEMA),
    ("goal_id", .string journal.goalId), ("store_identity", .string journal.storeIdentity),
    ("provider_revision", .string journal.providerRevision), ("cursor", .string journal.cursor),
    ("head", journal.head), ("committed", .array (journal.rows.map StoredCommit.toJson))]

end FileAuthorityJournal

end Loopx.Authority
