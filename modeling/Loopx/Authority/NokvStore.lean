/- GID: Loopx/Authority/NokvStore
   generality: I
   source: loopx/control_plane/coordination/nokv_authority_store.ts
   digest: The NoKV authority store: its envelope, its commit protocol, and the provider it runs on. -/

import Mathlib.Logic.Function.Basic
import Loopx.Authority.FileJournal
import Loopx.Authority.StoreContract

set_option autoImplicit false
set_option relaxedAutoImplicit false

namespace Loopx.Authority

open Loopx.Json (JsNumber Protocol canonicalAuthorityBytes)

/-- What a store is bound to. -/
structure NokvAuthorityStore where
  tenantId : String
  goalId : String
  workbench : String
  maxEnvelopeBytes : Nat

structure NokvAuthorityStoreDocument extends RetainedAuthorityJournal where
  tenantId : String
  goalId : String
  storeIdentity : String
  storageGeneration : Nat

def NOKV_AUTHORITY_STORE_SCHEMA : String := "loopx_nokv_authority_store_v0"

section Envelope

def AuthorityStoreCommittedTransaction.toJson (entry : AuthorityStoreCommittedTransaction) : Json :=
  .object [("cursor", .string entry.cursor), ("operation_id", .string entry.operationId),
    ("events", .array entry.events), ("projection", entry.projection),
    ("receipts", .array entry.receipts), ("provider_revision", .string entry.providerRevision)]

def NokvAuthorityStoreDocument.toJson (document : NokvAuthorityStoreDocument) : Json :=
  .object [("schema_version", .string NOKV_AUTHORITY_STORE_SCHEMA),
    ("tenant_id", .string document.tenantId), ("goal_id", .string document.goalId),
    ("store_identity", .string document.storeIdentity),
    ("storage_generation", .number (JsNumber.ofNat document.storageGeneration)),
    ("provider_revision", .string document.providerRevision), ("cursor", .string document.cursor),
    ("head", document.head),
    ("committed", .array (document.committed.map AuthorityStoreCommittedTransaction.toJson))]

def NokvAuthorityStoreDocument.bytes (document : NokvAuthorityStoreDocument) : ByteArray :=
  canonicalAuthorityBytes document.toJson

def providerRevision (sha : Sha256) (store : NokvAuthorityStore) (storeIdentity : String)
    (storageGeneration : Nat) (previousRevision : Option String) (transaction : RevisionInput) :
    String :=
  "nokv:" ++ transaction.cursor ++ ":" ++ shortDigest sha (.object [("provider", .string "nokv"),
    ("tenant_id", .string store.tenantId), ("goal_id", .string store.goalId),
    ("store_identity", .string storeIdentity),
    ("storage_generation", .number (JsNumber.ofNat storageGeneration)),
    ("previous_provider_revision", (previousRevision.map Json.string).getD .null),
    ("transaction", transaction.toJson)])

/-- `Number(cursor)` of a decimal text. -/
def cursorNumber (cursor : String) : Nat := Nat.ofDigitChars 10 cursor.toList 0

def requireGeneration (value : Option Json) (name : String) : Protocol Nat :=
  match value with
  | some (.number n) =>
    match n.safeInteger? with
    | some i => if i < 1 then .error (name ++ " must be a positive safe integer") else .ok i.toNat
    | none => .error (name ++ " must be a positive safe integer")
  | _ => .error (name ++ " must be a positive safe integer")

def decodeDocument (sha : Sha256) (store : NokvAuthorityStore) (storeIdentity : String)
    (observedGeneration : Nat) (value : Json) : Protocol NokvAuthorityStoreDocument :=
  match value with
  | .object fields =>
    if !hasExactAuthorityKeys fields ["schema_version", "tenant_id", "goal_id", "store_identity",
          "storage_generation", "provider_revision", "cursor", "head", "committed"] ∨
        fields.lookup "schema_version" ≠ some (.string NOKV_AUTHORITY_STORE_SCHEMA) then
      .error "NoKV authority store schema mismatch"
    else if fields.lookup "tenant_id" ≠ some (.string store.tenantId) then
      .error "NoKV authority store tenant mismatch"
    else if fields.lookup "goal_id" ≠ some (.string store.goalId) then
      .error "NoKV authority store goal mismatch"
    else if fields.lookup "store_identity" ≠ some (.string storeIdentity) then
      .error "NoKV authority store lineage mismatch"
    else do
      let storageGeneration ← requireGeneration (fields.lookup "storage_generation")
        "NoKV storage generation"
      if storageGeneration ≠ observedGeneration then
        .error "NoKV authority store storage generation does not match read metadata"
      else
        match fields.lookup "committed" with
        | some (.array committed) =>
          if storageGeneration ≠ committed.length then
            .error "NoKV authority store generation lineage is invalid"
          else do
            let journal ← decodeRetainedAuthorityJournal fields "NoKV authority store"
              (fun previous transaction => providerRevision sha store storeIdentity
                (cursorNumber transaction.cursor) previous transaction)
            .ok ⟨journal, store.tenantId, store.goalId, storeIdentity, storageGeneration⟩
        | _ => .error "NoKV authority store generation lineage is invalid"
  | _ => .error "NoKV authority store schema mismatch"

end Envelope

section Transport

/-- A stored artifact with the generation the provider gives it. -/
structure NokvBlob where
  generation : Nat
  bytes : ByteArray

inductive NokvBlobCasResult where
  | applied (generation : Nat)
  | conflict (currentGeneration : Option Nat)
  | ambiguous (reasonCode reason : String)
  | failed (reasonCode reason : String)

def storeIdentityOf (workbench incarnation : String) : String :=
  "nokv:" ++ workbench ++ ":" ++ incarnation

/-- The incarnation half of a store identity. -/
def boundIncarnation (storeIdentity workbench : String) : String :=
  String.ofList (storeIdentity.toList.drop ("nokv:" ++ workbench ++ ":").length)

def validStoreIdentity (value workbench : String) : Bool :=
  ("nokv:" ++ workbench ++ ":").toList.isPrefixOf value.toList &&
    (boundIncarnation value workbench).toList.length = 32 &&
    (boundIncarnation value workbench).toList.all isHexDigit

inductive EnvelopeReadResult where
  | loaded (identity : String) (generation : Nat) (document : NokvAuthorityStoreDocument)
  | missing (identity : String)
  | failure (failure : AuthorityStoreReadFailure)

/-- The check of the identity that the transport answers with. -/
def admitIdentity (store : NokvAuthorityStore) (identity : String) :
    Except AuthorityStoreReadFailure String :=
  if validStoreIdentity identity store.workbench then .ok identity
  else .error (.failed "store_identity_invalid"
    "NoKV store identity does not match the bound workbench incarnation")

/-- The second half of `readEnvelope`: the blob that was read, under the identity read before. -/
def decodeEnvelope (sha : Sha256) (store : NokvAuthorityStore) (identity : String)
    (blob : Option NokvBlob) : EnvelopeReadResult :=
  let violation (reason : String) : EnvelopeReadResult :=
    .failure (.failed "provider_protocol_violation" reason)
  match blob with
  | none => .missing identity
  | some blob =>
    if blob.generation < 1 ∨ JsNumber.maxSafeInteger < blob.generation then
      violation "NoKV read generation must be a positive safe integer"
    else
      match String.fromUTF8? blob.bytes with
      | none => violation "NoKV authority store bytes are not UTF-8"
      | some raw =>
        match Json.parse raw with
        | none => violation "NoKV authority store JSON is invalid"
        | some value =>
          match decodeDocument sha store identity blob.generation value with
          | .error reason => violation reason
          | .ok document => .loaded identity blob.generation document

end Transport

section Commit

/-- One publication: what was read, and what it would make of it. -/
structure NokvAttempt where
  commit : AuthorityStoreCommit
  identity : String
  base : Option NokvAuthorityStoreDocument
  expectedGeneration : Option Nat
  document : NokvAuthorityStoreDocument
  intended : AuthorityStoreCommittedTransaction

/-- How `commitAuthority` goes on from its read. -/
inductive CommitStart where
  | answer (result : AuthorityStoreCommitResult)
  | publish (attempt : NokvAttempt)
  | throws (reason : String)

/-- Check the revision and the operation, and build the envelope to publish. -/
def startCommit (sha : Sha256) (store : NokvAuthorityStore) (commit : AuthorityStoreCommit)
    (identity : String) (generation : Option Nat) (document : Option NokvAuthorityStoreDocument) :
    CommitStart :=
  let revision := document.map (fun document => document.providerRevision)
  let cursor := document.map (fun document => document.cursor)
  if revision ≠ commit.expectedProviderRevision then
    .answer (.conflict .providerRevisionMismatch revision cursor)
  else if document.any (fun document =>
      document.committed.any (fun entry => entry.operationId = commit.operationId)) then
    .answer (.conflict .operationIdExists revision cursor)
  else
    let next := generation.getD 0 + 1
    match appendRetainedAuthorityJournal
        (document.map NokvAuthorityStoreDocument.toRetainedAuthorityJournal) commit
        (fun previous transaction => providerRevision sha store identity next previous transaction)
      with
    | .error reason => .throws reason
    | .ok journal =>
      match journal.committed.getLast? with
      | none => .throws "NoKV authority store history is empty"
      | some intended =>
        let built : NokvAuthorityStoreDocument :=
          ⟨journal, store.tenantId, store.goalId, identity, next⟩
        if store.maxEnvelopeBytes < built.bytes.size then
          .answer (.failed "authority_envelope_too_large"
            ("authority envelope exceeds " ++ toString store.maxEnvelopeBytes ++ " bytes"))
        else .publish ⟨commit, identity, document, generation, built, intended⟩

/-- What the publication's own answer leaves to be settled by readback, or its failure. -/
def publishFallback (attempt : NokvAttempt) : NokvBlobCasResult →
    Except AuthorityStoreCommitResult AuthorityStoreCommitResult
  | .applied generation =>
    if generation = attempt.document.storageGeneration then
      .ok (.ambiguous "nokv_applied_readback_unproved"
        "NoKV applied response requires current-incarnation readback")
    else
      .ok (.ambiguous "nokv_publish_response_invalid"
        "NoKV publish generation did not match the attempted envelope")
  | .conflict _ =>
    .ok (.ambiguous "nokv_cas_conflict_unresolved"
      "NoKV CAS conflict requires authority-envelope readback")
  | .ambiguous reasonCode reason => .ok (.ambiguous reasonCode reason)
  | .failed reasonCode reason => .error (.failed reasonCode reason)

def settleCommitFromReadback (attempt : NokvAttempt) (fallback : AuthorityStoreCommitResult) :
    EnvelopeReadResult → AuthorityStoreCommitResult
  | .failure (.failed reasonCode reason) => .failed reasonCode reason
  | .failure (.unavailable _ _) => fallback
  | .missing _ => fallback
  | .loaded _ _ document =>
    match document.committed.find? (fun entry => entry.operationId = attempt.intended.operationId) with
    | some sameOperation =>
      if canonicalAuthorityBytes sameOperation.toJson =
          canonicalAuthorityBytes attempt.intended.toJson then
        .applied sameOperation.providerRevision sameOperation.cursor
      else
        .conflict .operationIdExists (some document.providerRevision) (some document.cursor)
    | none =>
      if some document.providerRevision ≠ attempt.commit.expectedProviderRevision then
        .conflict .providerRevisionMismatch (some document.providerRevision) (some document.cursor)
      else fallback

/-- A failed first read is a failed commit. -/
def readFailureResult : AuthorityStoreReadFailure → AuthorityStoreCommitResult
  | .failed reasonCode reason => .failed reasonCode reason
  | .unavailable reasonCode reason => .failed reasonCode reason

end Commit

section World

/-- A write in flight; the provider may meet it late, again, or never. -/
structure PendingWrite where
  id : Nat
  incarnation : String
  attempt : NokvAttempt

/-- Where a client of `commitAuthority` stands. -/
inductive NokvClient where
  | idle
  | locating (commit : AuthorityStoreCommit)
  | reading (commit : AuthorityStoreCommit) (identity : String)
  | publishing (attempt : NokvAttempt)
  | waiting (id : Nat) (attempt : NokvAttempt)
  | relocating (id : Nat) (attempt : NokvAttempt) (fallback : AuthorityStoreCommitResult)
  | rereading (id : Nat) (attempt : NokvAttempt) (fallback : AuthorityStoreCommitResult)
      (identity : String)

/-- The provider: its incarnation, those before it, and the one artifact. -/
structure NokvProvider where
  incarnation : String
  retired : List String
  blob : Option NokvBlob

/-- What a client was told, with the provider as it was then. -/
structure NokvAnswer where
  write : Option (Nat × NokvAttempt)
  result : AuthorityStoreCommitResult
  identity : Option String
  provider : NokvProvider

structure NokvWorld where
  provider : NokvProvider
  clients : Nat → NokvClient
  pending : List PendingWrite
  /-- The writes that took effect, each with the incarnation it took effect in. -/
  taken : List (Nat × String)
  answers : List NokvAnswer

inductive NokvEvent where
  | commit (client : Nat) (commit : AuthorityStoreCommit)
  | locate (client : Nat) (failure : Option AuthorityStoreReadFailure)
  | read (client : Nat) (failure : Option AuthorityStoreReadFailure)
  | publish (client : Nat)
  | deliver (write : Nat)
  | respond (client : Nat) (response : NokvBlobCasResult)
  | crash (client : Nat)
  | restore (incarnation : String) (blob : Option NokvBlob)

namespace NokvWorld

def move (s : NokvWorld) (client : Nat) (point : NokvClient) : NokvWorld :=
  { s with clients := Function.update s.clients client point }

def answer (s : NokvWorld) (client : Nat) (write : Option (Nat × NokvAttempt))
    (identity : Option String) (result : AuthorityStoreCommitResult) : NokvWorld :=
  { s.move client .idle with answers := s.answers ++ [⟨write, result, identity, s.provider⟩] }

end NokvWorld

/-- The compare-and-swap of the provider, fenced by the incarnation. -/
def NokvProvider.admits (provider : NokvProvider) (write : PendingWrite) : Bool :=
  write.incarnation = provider.incarnation &&
    write.attempt.expectedGeneration = provider.blob.map NokvBlob.generation

/-- Restored bytes were written under another identity, if they are an envelope at all. -/
def isForeign (identity : String) (blob : NokvBlob) : Bool :=
  match (String.fromUTF8? blob.bytes).bind Json.parse with
  | some (.object fields) => fields.lookup "store_identity" ≠ some (.string identity)
  | _ => true

variable (sha : Sha256) (store : NokvAuthorityStore)

def locateStep (s : NokvWorld) (client : Nat) (failure : Option AuthorityStoreReadFailure) :
    NokvWorld :=
  let located : Except AuthorityStoreReadFailure String :=
    match failure with
    | some failure => .error failure
    | none => admitIdentity store (storeIdentityOf store.workbench s.provider.incarnation)
  match s.clients client with
  | .locating commit =>
    match located with
    | .ok identity => s.move client (.reading commit identity)
    | .error failure => s.answer client none none (readFailureResult failure)
  | .relocating id attempt fallback =>
    match located with
    | .ok identity => s.move client (.rereading id attempt fallback identity)
    | .error failure => s.answer client (some (id, attempt)) none
        (settleCommitFromReadback attempt fallback (.failure failure))
  | _ => s

def readStep (s : NokvWorld) (client : Nat) (failure : Option AuthorityStoreReadFailure) :
    NokvWorld :=
  let envelope (identity : String) : EnvelopeReadResult :=
    match failure with
    | some failure => .failure failure
    | none => decodeEnvelope sha store identity s.provider.blob
  match s.clients client with
  | .reading commit identity =>
    let started :=
      match envelope identity with
      | .loaded identity generation document =>
        startCommit sha store commit identity (some generation) (some document)
      | .missing identity => startCommit sha store commit identity none none
      | .failure failure => .answer (readFailureResult failure)
    match started with
    | .answer result => s.answer client none (some identity) result
    | .publish attempt => s.move client (.publishing attempt)
    | .throws _ => s.move client .idle
  | .rereading id attempt fallback identity =>
    s.answer client (some (id, attempt)) (some identity)
      (settleCommitFromReadback attempt fallback (envelope identity))
  | _ => s

/-- One event of the clients, the provider or the network between them. -/
def nokvStep (s : NokvWorld) : NokvEvent → NokvWorld
  | .commit client commit =>
    match s.clients client with
    | .idle =>
      match normalizeAuthorityStoreCommit commit with
      | .ok normalized => s.move client (.locating normalized)
      | .error reason => s.answer client none none (.failed "invalid_commit_request" reason)
    | _ => s
  | .locate client failure => locateStep store s client failure
  | .read client failure => readStep sha store s client failure
  | .publish client =>
    match s.clients client with
    | .publishing attempt =>
      { s.move client (.waiting s.pending.length attempt) with
        pending := s.pending ++
          [⟨s.pending.length, boundIncarnation attempt.identity store.workbench, attempt⟩] }
    | _ => s
  | .deliver write =>
    match s.pending[write]? with
    | some pending =>
      if s.provider.admits pending then
        { s with
          provider := { s.provider with
            blob := some ⟨(s.provider.blob.map NokvBlob.generation).getD 0 + 1,
              pending.attempt.document.bytes⟩ }
          taken := s.taken ++ [(pending.id, pending.incarnation)] }
      else s
    | none => s
  | .respond client response =>
    match s.clients client with
    | .waiting id attempt =>
      match publishFallback attempt response with
      | .ok fallback => s.move client (.relocating id attempt fallback)
      | .error result => s.answer client (some (id, attempt)) none result
    | _ => s
  | .crash client => s.move client .idle
  | .restore incarnation blob =>
    if incarnation ≠ s.provider.incarnation ∧ incarnation ∉ s.provider.retired ∧
        blob.all (isForeign (storeIdentityOf store.workbench incarnation)) then
      { s with
        provider := ⟨incarnation, s.provider.incarnation :: s.provider.retired, blob⟩ }
    else s

/-- A workbench without the artifact, and no client at work. -/
def newNokv (incarnation : String) : NokvWorld :=
  ⟨⟨incarnation, [], none⟩, fun _ => .idle, [], [], []⟩

def nokvRun (incarnation : String) (events : List NokvEvent) : NokvWorld :=
  events.foldl (nokvStep sha store) (newNokv incarnation)

end World

end Loopx.Authority
