/- GID: Loopx/Authority/FileStore
   generality: I
   source: loopx/control_plane/coordination/file_authority_store.ts
   digest: The File provider over one directory: identity, document, caches and every operation. -/

import Loopx.Authority.FileJournalBytes
import Loopx.Authority.StoreContract

set_option autoImplicit false
set_option relaxedAutoImplicit false

namespace Loopx.Authority

open Loopx.Lib.KeyedList
open Loopx.Json (JsNumber Protocol canonicalAuthorityBytes stringify)

/-- `STORE_IDENTITY_PATTERN`. -/
def isFileIdentity (s : String) : Bool :=
  s.toList.take 5 = "file:".toList && (s.toList.drop 5).length = 32 &&
    (s.toList.drop 5).all isHexDigit

/-- A new `file:` identity, from a random UUID without its dashes. -/
structure FileIdentity where
  text : String
  pattern : isFileIdentity text = true

def MAX_CACHED_DOCUMENT_BYTES : Nat := 128 * 1024 * 1024

def MAX_CACHED_READ_VIEW_BYTES : Nat := 16 * 1024 * 1024

/-- What the lock and the file system do to one call. -/
structure FileEnvironment where
  lockTimeout : Bool
  identityUnreadable : Bool
  documentUnreadable : Bool
  freshIdentity : FileIdentity
  replaceIdentity : Replace
  replaceDocument : Replace

/-- An error a read throws: the store's own, or the file system's. -/
inductive ReadError where
  | protocol (message : String)
  | unavailable (message : String)
deriving DecidableEq

/-- The index entry a receipt is read from. -/
structure ReceiptView where
  cursor : String
  providerRevision : String
  receipts : List Json
deriving DecidableEq

/-- What a process remembers of a document it verified; large ones lose their history. -/
structure VerifiedDocument where
  identity : String
  digest : String
  head : Json
  providerRevision : String
  cursor : String
  receipts : List (String × ReceiptView)
  document : Option FileAuthorityJournal
deriving DecidableEq

/-- The directory of one goal and the caches of the processes that opened it. `written` records
every document handed to the durable replace. -/
structure FileState where
  identity : Option String
  document : Option ByteArray
  caches : Nat → Option VerifiedDocument
  written : List ByteArray

def FileState.empty : FileState := ⟨none, none, fun _ => none, []⟩

/-- A store handle: one goal, opened by one process. -/
structure FileStore where
  sha : Sha256
  goalId : String
  existingOnly : Bool
  expectedIdentity : Option String
  process : Nat

def readFailure : ReadError → AuthorityStoreReadFailure
  | .protocol reason => .failed "provider_protocol_violation" reason
  | .unavailable reason => .unavailable "provider_read_unavailable" reason

def receiptIndex (document : FileAuthorityJournal) : List (String × ReceiptView) :=
  document.operations.map (fun entry =>
    (entry.1, ⟨entry.2.cursor, entry.2.providerRevision, entry.2.receipts⟩))

/-- The bytes that head and receipt index are accounted for. -/
def viewBytes (document : FileAuthorityJournal) : Nat :=
  (stringify document.head).utf8ByteSize + (document.operations.map (fun entry =>
    entry.2.operationId.utf8ByteSize + entry.2.cursor.utf8ByteSize +
      entry.2.providerRevision.utf8ByteSize +
      (stringify (.array entry.2.receipts)).utf8ByteSize)).sum

def verifiedView (identity digest : String) (document : FileAuthorityJournal) :
    VerifiedDocument :=
  ⟨identity, digest, document.head, document.providerRevision, document.cursor,
    receiptIndex document, some document⟩

/-- What the cache keeps of a view: all of it, the view without history, or nothing. -/
def retainedView (view : VerifiedDocument) (raw : ByteArray) (document : FileAuthorityJournal) :
    Option VerifiedDocument :=
  if raw.size + viewBytes document ≤ MAX_CACHED_DOCUMENT_BYTES then some view
  else if viewBytes document ≤ MAX_CACHED_READ_VIEW_BYTES then some { view with document := none }
  else none

namespace FileStore

variable (store : FileStore)

def revisionFor (identity : String) : JournalRevision :=
  fileAuthorityRevision store.sha store.goalId identity

def setCache (s : FileState) (cached : Option VerifiedDocument) : FileState :=
  { s with caches := fun process => if process = store.process then cached else s.caches process }

def rememberVerifiedDocument (s : FileState) (identity : String) (raw : ByteArray)
    (document : FileAuthorityJournal) : FileState × VerifiedDocument :=
  let view := verifiedView identity (store.sha.hex raw) document
  (store.setCache s (retainedView view raw document), view)

def readStoreIdentity (env : FileEnvironment) (createIfMissing : Bool) (s : FileState) :
    FileState × Except ReadError String :=
  if env.identityUnreadable then (s, .error (.unavailable "store identity unavailable"))
  else
    match s.identity with
    | some identity =>
      if isFileIdentity identity = false ∨ store.expectedIdentity.any (fun e => e ≠ identity) then
        (s, .error (.protocol
          "store identity is invalid or differs from the expected File lineage"))
      else (s, .ok identity)
    | none =>
      if createIfMissing = false ∨ store.expectedIdentity.isSome then
        (s, .error (.unavailable "existing store identity is missing"))
      else
        let fresh := env.freshIdentity.text
        match env.replaceIdentity with
        | .done => ({ s with identity := some fresh }, .ok fresh)
        | .lost => (s, .error (.unavailable "store identity unavailable"))
        | .taken => ({ s with identity := some fresh },
            .error (.unavailable "store identity unavailable"))

/-- `knownIdentity ?? await this.readStoreIdentity()`. -/
def documentIdentity (env : FileEnvironment) (knownIdentity : Option String) (s : FileState) :
    FileState × Except ReadError String :=
  match knownIdentity with
  | some identity => (s, .ok identity)
  | none => store.readStoreIdentity env (!store.existingOnly) s

/-- Every lookup hashes the whole file; only a byte-identical document is served from memory. -/
def verifyDocument (s : FileState) (raw : ByteArray) (identity : String)
    (requireHistory : Bool) : FileState × Except ReadError VerifiedDocument :=
  match (s.caches store.process).filter (fun view => view.identity = identity ∧
      view.digest = store.sha.hex raw ∧ (requireHistory = false ∨ view.document.isSome)) with
  | some view => (s, .ok view)
  | none =>
    match decodeBytes raw store.goalId identity (store.revisionFor identity) with
    | .error message => (s, .error (.protocol message))
    | .ok document =>
      let (s, view) := store.rememberVerifiedDocument s identity raw document
      (s, .ok view)

def readVerified (env : FileEnvironment) (s : FileState) (knownIdentity : Option String)
    (requireHistory : Bool) : FileState × Except ReadError (Option VerifiedDocument) :=
  if env.documentUnreadable then (s, .error (.unavailable "authority document unavailable"))
  else
    match s.document with
    | none => (s, .ok none)
    | some raw =>
      match store.documentIdentity env knownIdentity s with
      | (s, .error error) => (s, .error error)
      | (s, .ok identity) =>
        match store.verifyDocument s raw identity requireHistory with
        | (s, .error error) => (s, .error error)
        | (s, .ok view) => (s, .ok (some view))

def readDocument (env : FileEnvironment) (s : FileState) (knownIdentity : Option String) :
    FileState × Except ReadError (Option FileAuthorityJournal) :=
  match store.readVerified env s knownIdentity true with
  | (s, .error error) => (s, .error error)
  | (s, .ok view) => (s, .ok (view.bind (·.document)))

def loadAuthority (env : FileEnvironment) (s : FileState) :
    FileState × AuthorityStoreLoadResult :=
  match store.readVerified env s none false with
  | (s, .error error) => (s, .failure (readFailure error))
  | (s, .ok none) => (s, .missing)
  | (s, .ok (some verified)) =>
    (s, .loaded ⟨verified.head, verified.providerRevision, verified.cursor⟩)

/-- The one durable effect. A failed replace proves neither version. -/
def publishDocument (env : FileEnvironment) (s : FileState) (identity : String)
    (document : FileAuthorityJournal) : FileState × AuthorityStoreCommitResult :=
  let bytes := document.bytes
  let s := { s with written := bytes :: s.written }
  match env.replaceDocument with
  | .done =>
    ((store.rememberVerifiedDocument { s with document := some bytes } identity bytes document).1,
      .applied document.providerRevision document.cursor)
  | .lost => (store.setCache s none, .ambiguous "commit_outcome_unknown" "commit outcome unknown")
  | .taken => (store.setCache { s with document := some bytes } none,
      .ambiguous "commit_outcome_unknown" "commit outcome unknown")

/-- `{events, receipts, projection}` of a commit, as the replay check compares it. -/
def commitBody (events receipts : List Json) (projection : Json) : Json :=
  .object [("events", .array events), ("receipts", .array receipts), ("projection", projection)]

def writeUnavailable (reason : String) : AuthorityStoreCommitResult :=
  .failed "provider_write_unavailable" reason

/-- Same id: the original receipt for the same body, a conflict for any other. -/
def replayExisting (current : FileAuthorityJournal) (existing : TransactionMetadata)
    (normalized : AuthorityStoreCommit) : AuthorityStoreCommitResult :=
  match (do
    let position ← parseAuthorityCursor (some existing.cursor)
    current.scan (position - 1) 1) with
  | .error reason => writeUnavailable reason
  | .ok [] => .failed "provider_protocol_violation"
      ("receipt entry cursor " ++ existing.cursor ++ " missing from journal scan")
  | .ok (historical :: _) =>
    if canonicalAuthorityBytes (commitBody normalized.events normalized.receipts
          normalized.nextProjection) =
        canonicalAuthorityBytes (commitBody existing.events existing.receipts
          historical.projection) then
      .applied existing.providerRevision existing.cursor
    else .conflict .operationIdExists (some current.providerRevision) (some current.cursor)

/-- What a commit does once it has read the current journal: replay, refuse or append. -/
def decideCommit (env : FileEnvironment) (s : FileState) (identity : String)
    (current : Option FileAuthorityJournal) (normalized : AuthorityStoreCommit) :
    FileState × AuthorityStoreCommitResult :=
  match current.bind (fun journal => (journal.receipt normalized.operationId).map
      (fun existing => (journal, existing))) with
  | some (journal, existing) => (s, replayExisting journal existing normalized)
  | none =>
    if current.map (·.providerRevision) ≠ normalized.expectedProviderRevision then
      (s, .conflict .providerRevisionMismatch (current.map (·.providerRevision))
        (current.map (·.cursor)))
    else
      match FileAuthorityJournal.append current store.goalId identity normalized
          (store.revisionFor identity) with
      | .error reason => (s, writeUnavailable reason)
      | .ok document => store.publishDocument env s identity document

def commitReadFailure : ReadError → AuthorityStoreCommitResult
  | .protocol reason => .failed "provider_protocol_violation" reason
  | .unavailable reason => .failed "provider_read_unavailable" reason

def commitAuthority (env : FileEnvironment) (s : FileState) (commit : AuthorityStoreCommit) :
    FileState × AuthorityStoreCommitResult :=
  match normalizeAuthorityStoreCommit commit with
  | .error reason => (s, .failed "invalid_commit_request" reason)
  | .ok normalized =>
    if env.lockTimeout then
      (s, .failed "provider_lock_timeout" "file mutation lock timed out")
    else
      match store.readStoreIdentity env (!store.existingOnly) s with
      | (s, .error error) => (s, commitReadFailure error)
      | (s, .ok identity) =>
        match store.readDocument env s (some identity) with
        | (s, .error error) => (s, commitReadFailure error)
        | (s, .ok current) =>
          if store.existingOnly ∧ current.isNone then
            (s, .failed "existing_authority_missing"
              "existing-only store cannot bootstrap a missing authority")
          else store.decideCommit env s identity current normalized

/-- One row of an archive page as a commit, with its declared cursor. -/
def archiveRow (row : AuthorityStoreCommittedTransaction) :
    Protocol (String × AuthorityStoreCommit) :=
  match row.projection with
  | .object fields =>
    if fields.lookup "goal_id" ≠ some (.string store.goalId) then
      .error "archive page goal mismatch"
    else do
      let commit ← normalizeAuthorityStoreCommit
        ⟨none, row.operationId, row.events, row.projection, row.receipts⟩
      .ok (row.cursor, commit)
  | _ => .error "archive page goal mismatch"

def archiveRows : List AuthorityStoreCommittedTransaction →
    Protocol (List (String × AuthorityStoreCommit))
  | [] => .ok []
  | row :: rows => do
    let first ← store.archiveRow row
    let rest ← archiveRows rows
    .ok (first :: rest)

/-- Cursors continue without a gap and no operation is known yet. -/
def checkArchivePage (current : Option FileAuthorityJournal) (position : Nat) :
    List String → List (String × AuthorityStoreCommit) → Protocol Unit
  | _, [] => .ok ()
  | operations, (cursor, commit) :: rest =>
    if cursor ≠ (position + operations.length + 1).repr then
      .error "archive page cursor gap"
    else if (current.bind (·.receipt commit.operationId)).isSome ∨
        commit.operationId ∈ operations then
      .error "archive page operation identity is duplicated"
    else checkArchivePage current position (commit.operationId :: operations) rest

def archiveFailure (reason : String) : AuthorityStoreCommitResult :=
  .failed "provider_protocol_violation" reason

/-- The journal with the whole page appended, each row under its own cursor and revision. -/
def archiveSuccessor (identity : String) (current : Option FileAuthorityJournal)
    (page : List (String × AuthorityStoreCommit)) : Protocol FileAuthorityJournal := do
  let position ← parseAuthorityCursor (current.map (fun journal => journal.cursor))
  checkArchivePage current position [] page
  FileAuthorityJournal.appendCommits current store.goalId identity (page.map Prod.snd)
    (store.revisionFor identity)

/-- A bounded page of verified rows, appended in one replace. -/
def appendArchivePage (env : FileEnvironment) (s : FileState) (expectedRevision : Option String)
    (expectedIdentity : String) (rows : List AuthorityStoreCommittedTransaction) :
    FileState × AuthorityStoreCommitResult :=
  if rows.length < 1 ∨ rows.length > 16 then (s, archiveFailure "archive page requires 1..16 rows")
  else
    match store.archiveRows rows with
    | .error reason => (s, archiveFailure reason)
    | .ok page =>
      if env.lockTimeout then
        (s, .failed "provider_lock_timeout" "file mutation lock timed out")
      else
        match store.readStoreIdentity env false s with
        | (s, .error (.protocol reason)) => (s, archiveFailure reason)
        | (s, .error (.unavailable reason)) => (s, writeUnavailable reason)
        | (s, .ok identity) =>
          if identity ≠ expectedIdentity then
            (s, archiveFailure "archive target lineage changed")
          else
            match store.readDocument env s (some identity) with
            | (s, .error (.protocol reason)) => (s, archiveFailure reason)
            | (s, .error (.unavailable reason)) => (s, writeUnavailable reason)
            | (s, .ok current) =>
              if store.existingOnly ∧ current.isNone then
                (s, .failed "existing_authority_missing"
                  "existing-only store cannot bootstrap a missing authority")
              else if current.map (·.providerRevision) ≠ expectedRevision then
                (s, .conflict .providerRevisionMismatch (current.map (·.providerRevision))
                  (current.map (·.cursor)))
              else
                match store.archiveSuccessor identity current page with
                | .error reason => (s, archiveFailure reason)
                | .ok document => store.publishDocument env s identity document

/-- The receipt index entry of one id. -/
def lookupReceipt (verified : Option VerifiedDocument) (operationId : String) :
    AuthorityStoreReceiptResult :=
  match verified.bind (fun view => view.receipts.lookup operationId) with
  | some transaction =>
    .found transaction.cursor transaction.providerRevision transaction.receipts
  | none => .missing

def readReceipts (env : FileEnvironment) (s : FileState) (operationIds : List String) :
    FileState × AuthorityStoreReceiptBatchResult :=
  match receiptBatch operationIds with
  | .error reason => (s, .failure (readFailure (.protocol reason)))
  | .ok normalized =>
    match store.readVerified env s none false with
    | (s, .error error) => (s, .failure (readFailure error))
    | (s, .ok verified) => (s, .receipts (normalized.map (lookupReceipt verified)))

def readReceipt (env : FileEnvironment) (s : FileState) (operationId : String) :
    FileState × AuthorityStoreReceiptResult :=
  match requireAuthorityStoreId (some (.string operationId)) "operation id" with
  | .error reason => (s, .failure (.failed "invalid_operation_id" reason))
  | .ok normalized =>
    match store.readReceipts env s [normalized] with
    | (s, .failure failure) => (s, .failure failure)
    | (s, .receipts results) => (s, results.headD .missing)

def scanCommitted (env : FileEnvironment) (s : FileState) (afterCursor : Option String)
    (limit : JsNumber) : FileState × AuthorityStoreScanResult :=
  match AuthorityJournalScan.prepare afterCursor limit with
  | .error failure => (s, .failure failure)
  | .ok scan =>
    match store.readDocument env s none with
    | (s, .error error) => (s, .failure (readFailure error))
    | (s, .ok current) =>
      let result : Protocol AuthorityStoreScanResult :=
        match current with
        | none => scan.page [] none
        | some document => do
          let range ← scan.rangeFailure (some document.cursor)
          match range with
          | some failure => .ok (.failure failure)
          | none => do
            let rows ← document.scan scan.offset (scan.limit + 1)
            scan.page rows (some ⟨document.head, document.providerRevision, document.cursor⟩)
      match result with
      | .ok result => (s, result)
      | .error reason => (s, .failure (readFailure (.protocol reason)))

end FileStore

end Loopx.Authority
