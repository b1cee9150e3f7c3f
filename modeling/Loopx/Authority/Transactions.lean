/- GID: Loopx/Authority/Transactions
   generality: I
   source: loopx/control_plane/coordination/authority_store_transactions.ts
   digest: Committed transactions, their wire decoder and the fully retained journal. -/

import Loopx.Lib.Fallible
import Loopx.Authority.Codec

set_option autoImplicit false
set_option relaxedAutoImplicit false

namespace Loopx.Authority

open Loopx.Lib.KeyedList
open Loopx.Json (Protocol canonicalAuthorityJson canonicalAuthorityBytes Canonical)

/-- A committed transaction without its projection. -/
structure TransactionMetadata where
  cursor : String
  providerRevision : String
  operationId : String
  events : List Json
  receipts : List Json
deriving DecidableEq

structure AuthorityStoreCommittedTransaction extends TransactionMetadata where
  projection : Json
deriving DecidableEq

/-- What a provider revision binds besides its predecessor. -/
structure RevisionInput where
  cursor : String
  operationId : String
  events : List Json
  projection : Json
  receipts : List Json
deriving DecidableEq

def RevisionInput.toJson (input : RevisionInput) : Json :=
  .object [("cursor", .string input.cursor), ("operation_id", .string input.operationId),
    ("events", .array input.events), ("projection", input.projection),
    ("receipts", .array input.receipts)]

abbrev JournalRevision := Option String → RevisionInput → String

/-- Shared wire decoder used by every authority provider. -/
def decodeAuthorityTransaction (value : Json) : Protocol AuthorityStoreCommittedTransaction :=
  match value with
  | .object fields =>
    if hasExactAuthorityKeys fields
        ["cursor", "provider_revision", "operation_id", "events", "projection", "receipts"] then do
      let cursor ← requireAuthorityStoreId (fields.lookup "cursor") "transaction cursor"
      let _ ← parseAuthorityCursor (some cursor)
      let providerRevision ← requireAuthorityStoreId (fields.lookup "provider_revision")
        "transaction provider revision"
      let operationId ← requireAuthorityStoreId (fields.lookup "operation_id") "operation id"
      let events ← canonicalAuthorityObjectList (fields.lookup "events") "transaction events"
      let projection ← canonicalAuthorityObject (fields.lookup "projection")
        "transaction projection"
      let receipts ← canonicalAuthorityObjectList (fields.lookup "receipts") "transaction receipts"
      .ok ⟨⟨cursor, providerRevision, operationId, events, receipts⟩, projection⟩
    else .error "committed transaction is invalid"
  | _ => .error "committed transaction is invalid"

def transactionForRevision (value : AuthorityStoreCommittedTransaction) : RevisionInput :=
  ⟨value.cursor, value.operationId, value.events, value.projection, value.receipts⟩

/-- The envelope that keeps every transaction whole. -/
structure RetainedAuthorityJournal where
  providerRevision : String
  cursor : String
  head : Json
  committed : List AuthorityStoreCommittedTransaction
deriving DecidableEq

def decodeTransactions : List Json → Protocol (List AuthorityStoreCommittedTransaction)
  | [] => .ok []
  | value :: rest => do
    let entry ← decodeAuthorityTransaction value
    let rest ← decodeTransactions rest
    .ok (entry :: rest)

/-- The lineage loop over the decoded entries; it returns the last revision. -/
def checkLineage (label : String) (revisionFor : JournalRevision) :
    Nat → Option String → List String → List AuthorityStoreCommittedTransaction →
      Protocol (Option String)
  | _, previous, _, [] => .ok previous
  | index, previous, operations, entry :: rest => do
    let cursor ← parseAuthorityCursor (some entry.cursor)
    if cursor ≠ index + 1 then .error (label ++ " cursor lineage is invalid")
    else if entry.operationId ∈ operations then
      .error (label ++ " operation identity is duplicated")
    else if entry.providerRevision ≠ revisionFor previous (transactionForRevision entry) then
      .error (label ++ " revision lineage is invalid")
    else
      checkLineage label revisionFor (index + 1) (some entry.providerRevision)
        (entry.operationId :: operations) rest

def decodeRetainedAuthorityJournal (fields : List (String × Json)) (label : String)
    (revisionFor : JournalRevision) : Protocol RetainedAuthorityJournal := do
  let revision ← requireAuthorityStoreId (fields.lookup "provider_revision") "provider revision"
  let cursor ← requireAuthorityStoreId (fields.lookup "cursor") "provider cursor"
  let head ← canonicalAuthorityObject (fields.lookup "head") (label ++ " head")
  match fields.lookup "committed" with
  | some (.array committed) => do
    let committed ← decodeTransactions committed
    match committed.getLast? with
    | none => .error (label ++ " lineage is invalid")
    | some last => do
      let position ← parseAuthorityCursor (some cursor)
      if position ≠ committed.length then .error (label ++ " lineage is invalid")
      else do
        let _ ← checkLineage label revisionFor 0 none [] committed
        if last.cursor ≠ cursor ∨ last.providerRevision ≠ revision ∨
            canonicalAuthorityBytes last.projection ≠ canonicalAuthorityBytes head then
          .error (label ++ " head lineage is invalid")
        else .ok ⟨revision, cursor, head, committed⟩
  | _ => .error (label ++ " history is invalid")

/-- Build the successor; the provider has checked revision and operation uniqueness. -/
def appendRetainedAuthorityJournal (current : Option RetainedAuthorityJournal)
    (commit : AuthorityStoreCommit) (revisionFor : JournalRevision) :
    Protocol RetainedAuthorityJournal := do
  let position ← parseAuthorityCursor (current.map RetainedAuthorityJournal.cursor)
  let cursor := (position + 1).repr
  let base : RevisionInput :=
    ⟨cursor, commit.operationId, commit.events, commit.nextProjection, commit.receipts⟩
  let revision := revisionFor (current.map RetainedAuthorityJournal.providerRevision) base
  .ok ⟨revision, cursor, commit.nextProjection,
    ((current.map RetainedAuthorityJournal.committed).getD []) ++
      [⟨⟨cursor, revision, commit.operationId, commit.events, commit.receipts⟩,
        commit.nextProjection⟩]⟩

end Loopx.Authority
