/- GID: Loopx/Authority/StoreContract
   generality: I
   source: loopx/control_plane/coordination/authority_store.ts, authority_journal_scan.ts
   digest: The results every authority store gives, and the page proof of a scan. -/

import Loopx.Authority.Transactions

set_option autoImplicit false
set_option relaxedAutoImplicit false

namespace Loopx.Authority

open Loopx.Lib.Fallible (ok_bind bind_eq_ok)
open Loopx.Json (JsNumber Protocol canonicalAuthorityBytes)

inductive AuthorityStoreReadFailure where
  | unavailable (reasonCode reason : String)
  | failed (reasonCode reason : String)
deriving DecidableEq

inductive ConflictKind where
  | providerRevisionMismatch
  | operationIdExists
deriving DecidableEq

inductive AuthorityStoreCommitResult where
  | applied (providerRevision cursor : String)
  | conflict (kind : ConflictKind) (currentProviderRevision currentCursor : Option String)
  | ambiguous (reasonCode reason : String)
  | failed (reasonCode reason : String)
deriving DecidableEq

structure AuthorityStoreHead where
  head : Json
  providerRevision : String
  cursor : String
deriving DecidableEq

inductive AuthorityStoreLoadResult where
  | loaded (head : AuthorityStoreHead)
  | missing
  | failure (failure : AuthorityStoreReadFailure)
deriving DecidableEq

inductive AuthorityStoreReceiptResult where
  | found (cursor providerRevision : String) (receipts : List Json)
  | missing
  | failure (failure : AuthorityStoreReadFailure)
deriving DecidableEq

inductive AuthorityStoreReceiptBatchResult where
  | receipts (results : List AuthorityStoreReceiptResult)
  | failure (failure : AuthorityStoreReadFailure)
deriving DecidableEq

inductive AuthorityStoreScanResult where
  | page (transactions : List AuthorityStoreCommittedTransaction) (nextCursor : Option String)
      (hasMore : Bool)
  | failure (failure : AuthorityStoreReadFailure)
deriving DecidableEq

def requireOperationIds : List String → Protocol (List String)
  | [] => .ok []
  | id :: ids => do
    let first ← requireAuthorityStoreId (some (.string id)) "operation id"
    let rest ← requireOperationIds ids
    .ok (first :: rest)

def receiptBatch (operationIds : List String) : Protocol (List String) :=
  if operationIds.length < 1 ∨ operationIds.length > 64 then
    .error "receipt batch requires 1..64 operations"
  else requireOperationIds operationIds

/-- What became of a durable write: done, failed before it took effect, or failed after. -/
inductive Replace where
  | done
  | lost
  | taken
deriving DecidableEq

/-- A scan request that passed its checks. -/
structure AuthorityJournalScan where
  after : Option String
  offset : Nat
  limit : Nat
deriving DecidableEq

namespace AuthorityJournalScan

/-- A positive safe integer. -/
def scanLimit? (limit : JsNumber) : Option Nat :=
  match limit.safeInteger? with
  | some i => if i < 1 then none else some i.toNat
  | none => none

def prepare (after : Option String) (limit : JsNumber) :
    Except AuthorityStoreReadFailure AuthorityJournalScan :=
  match parseAuthorityCursor after with
  | .error reason => .error (.failed "invalid_scan_request" reason)
  | .ok offset =>
    match scanLimit? limit with
    | none => .error (.failed "invalid_scan_request" "scan limit must be a positive safe integer")
    | some limit => .ok ⟨after, offset, limit⟩

theorem failed_of_prepare {after : Option String} {limit : JsNumber}
    {failure : AuthorityStoreReadFailure} (h : prepare after limit = .error failure) :
    ∃ code reason, failure = .failed code reason := by
  unfold prepare at h
  split at h
  · exact ⟨_, _, (Except.error.inj h).symm⟩
  · split at h
    · exact ⟨_, _, (Except.error.inj h).symm⟩
    · simp at h

def rangeFailure (scan : AuthorityJournalScan) (headCursor : Option String) :
    Protocol (Option AuthorityStoreReadFailure) := do
  let position ← parseAuthorityCursor headCursor
  .ok (if scan.offset > position then some (.failed "scan_cursor_out_of_range"
    "scan cursor is ahead of the provider head") else none)

/-- The page's loop: cursors without a gap, operations once, the head row equal to the head. -/
def checkRows (scan : AuthorityJournalScan) (head : Option AuthorityStoreHead) :
    Nat → List String → List AuthorityStoreCommittedTransaction → Protocol Unit
  | _, _, [] => .ok ()
  | index, operations, row :: rest => do
    let cursor ← parseAuthorityCursor (some row.cursor)
    if cursor ≠ scan.offset + index + 1 then
      .error "committed scan cursor lineage is invalid"
    else if row.operationId ∈ operations then
      .error "committed scan operation identity is duplicated"
    else if head.any (fun head => row.cursor = head.cursor ∧
        (row.providerRevision ≠ head.providerRevision ∨
          canonicalAuthorityBytes row.projection ≠ canonicalAuthorityBytes head.head)) then
      .error "committed scan head lineage is invalid"
    else
      checkRows scan head (index + 1) (row.operationId :: operations) rest

/-- Providers hand in up to `limit + 1` rows; the extra one proves that there is more. -/
def page (scan : AuthorityJournalScan) (rows : List AuthorityStoreCommittedTransaction)
    (head : Option AuthorityStoreHead) : Protocol AuthorityStoreScanResult := do
  let range ← scan.rangeFailure (head.map (·.cursor))
  match range with
  | some failure => .ok (.failure failure)
  | none => do
    let position ← parseAuthorityCursor (head.map (·.cursor))
    let expected := min (position - scan.offset) (scan.limit + 1)
    if rows.length ≠ expected then
      .error "committed scan does not cover its retained snapshot interval"
    else do
      scan.checkRows head 0 [] rows
      let transactions := rows.take scan.limit
      .ok (.page transactions ((transactions.getLast?.map (·.cursor)).or scan.after)
        (decide (scan.limit < rows.length)))

end AuthorityJournalScan

end Loopx.Authority
