/- GID: Loopx/Authority/StateLog
   generality: I
   source: loopx/control_plane/coordination/authority_state_log.ts
   digest: Deltas between canonical projections: differ, applier and boundary decoder. -/

import Loopx.Authority.Codec

set_option autoImplicit false
set_option relaxedAutoImplicit false

namespace Loopx.Authority

open Loopx.Lib.KeyedList
open Loopx.Json (JsNumber Protocol canonicalAuthorityJson canonicalAuthorityBytes canonicalEntries
  sortKeys Canonical)

def AUTHORITY_STATE_DELTA_SCHEMA : String := "authority_state_delta_v0"

def AUTHORITY_STATE_CHECKPOINT_INTERVAL : Nat := 64

/-- The one checkpoint cursor that covers a positive commit cursor. -/
def authorityStateCheckpointCursor (cursor : Nat) : Protocol Nat :=
  if cursor < 1 then .error "authority state checkpoint cursor must be positive"
  else .ok ((cursor - 1) / AUTHORITY_STATE_CHECKPOINT_INTERVAL *
    AUTHORITY_STATE_CHECKPOINT_INTERVAL + 1)

def isAuthorityStateCheckpoint (cursor : Nat) : Protocol Bool := do
  let checkpoint ← authorityStateCheckpointCursor cursor
  .ok (checkpoint == cursor)

/-- A path of object keys; arrays are addressed as whole values. -/
abbrev AuthorityStatePath := List String

inductive AuthorityStateOperation where
  | set (path : AuthorityStatePath) (value : Json)
  | remove (path : AuthorityStatePath)
  | splice (path : AuthorityStatePath) (index remove : Nat) (insert : List Json)
deriving DecidableEq

namespace AuthorityStateOperation

def path : AuthorityStateOperation → AuthorityStatePath
  | .set path _ => path
  | .remove path => path
  | .splice path _ _ _ => path

/-- The operation as the object literal the differ writes. -/
def toJson : AuthorityStateOperation → Json
  | .set path value => .object [("op", .string "set"), ("path", .array (path.map .string)),
      ("value", value)]
  | .remove path => .object [("op", .string "remove"), ("path", .array (path.map .string))]
  | .splice path index removed inserted => .object [("op", .string "splice"),
      ("path", .array (path.map .string)), ("index", .number (.ofNat index)),
      ("remove", .number (.ofNat removed)), ("insert", .array inserted)]

end AuthorityStateOperation

structure AuthorityStateDelta where
  operations : List AuthorityStateOperation
deriving DecidableEq

def AuthorityStateDelta.toJson (delta : AuthorityStateDelta) : Json :=
  .object [("schema_version", .string AUTHORITY_STATE_DELTA_SCHEMA),
    ("operations", .array (delta.operations.map AuthorityStateOperation.toJson))]

def canonicalBytesEqual (left right : Json) : Bool :=
  decide (canonicalAuthorityBytes left = canonicalAuthorityBytes right)

/-- Length of the run on which two byte lists agree, at most `shared`. -/
def commonPrefix : Nat → List ByteArray → List ByteArray → Nat
  | shared + 1, a :: left, b :: right =>
    if a = b then commonPrefix shared left right + 1 else 0
  | _, _, _ => 0

def arraySpliceOperations (previous next : List Json) (path : AuthorityStatePath) :
    List AuthorityStateOperation :=
  let previousBytes := previous.map canonicalAuthorityBytes
  let nextBytes := next.map canonicalAuthorityBytes
  let shared := min previousBytes.length nextBytes.length
  let ahead := commonPrefix shared previousBytes nextBytes
  let suffix := commonPrefix (shared - ahead) previousBytes.reverse nextBytes.reverse
  let removed := previousBytes.length - ahead - suffix
  let inserted := (next.take (nextBytes.length - suffix)).drop ahead
  if removed = 0 ∧ inserted.length = 0 then []
  else [.splice path ahead removed inserted]

/-- The keys of two objects, each once and sorted. -/
def unionKeys (previous next : List String) : List String :=
  sortKeys (previous ++ next).dedup

mutual

/-- The operations that take `previous` to `next`, by recursion on `previous`. -/
def diffAuthorityState : Json → Json → AuthorityStatePath → List AuthorityStateOperation
  | .object previous, next, path =>
    if canonicalBytesEqual (.object previous) next then []
    else
      match next with
      | .object next =>
        let children := diffFields previous
        (unionKeys (keys previous) (keys next)).flatMap (fun key =>
          match next.lookup key, children.lookup key with
          | none, _ => [.remove (path ++ [key])]
          | some value, none => [.set (path ++ [key]) value]
          | some value, some child => child value (path ++ [key]))
      | next => [.set path next]
  | .array previous, next, path =>
    if canonicalBytesEqual (.array previous) next then []
    else
      match next with
      | .array next => arraySpliceOperations previous next path
      | next => [.set path next]
  | previous, next, path => if canonicalBytesEqual previous next then [] else [.set path next]

/-- The differ of every field, waiting for its counterpart. -/
def diffFields : List (String × Json) →
    List (String × (Json → AuthorityStatePath → List AuthorityStateOperation))
  | [] => []
  | (key, value) :: fields => (key, diffAuthorityState value) :: diffFields fields

end

example : diffAuthorityState .null .null [] = [] := by
  simp [diffAuthorityState, canonicalBytesEqual]

def authorityStateDelta (previous next : Json) : AuthorityStateDelta :=
  ⟨diffAuthorityState previous next []⟩

/-- Rebuild the containers along the path; `path` is what is left of the operation's path. -/
def applyAuthorityStateOperation (operation : AuthorityStateOperation) :
    Json → AuthorityStatePath → Protocol Json
  | .object container, key :: rest =>
    match rest with
    | _ :: _ =>
      match container.lookup key with
      | none => .error "authority state delta path leaves the previous state"
      | some child => do
        let child ← applyAuthorityStateOperation operation child rest
        .ok (.object (canonicalEntries (setKey container key child)))
    | [] =>
      match operation with
      | .splice _ index remove insert =>
        match container.lookup key with
        | none => .error "authority state delta path leaves the previous state"
        | some (.array target) =>
          if index + remove > target.length then
            .error "authority state delta splice is out of range"
          else .ok (.object (canonicalEntries (setKey container key
            (.array (target.take index ++ (insert ++ target.drop (index + remove)))))))
        | some _ => .error "authority state delta spliced a value that is not an array"
      | .remove _ =>
        if (container.lookup key).isNone then
          .error "authority state delta removed a value that was never stored"
        else .ok (.object (canonicalEntries (eraseKey container key)))
      | .set _ value => .ok (.object (canonicalEntries (setKey container key value)))
  | _, _ => .error "authority state delta path leaves the previous state"

example : applyAuthorityStateOperation (.remove []) .null [] =
    .error "authority state delta path leaves the previous state" := by
  simp [applyAuthorityStateOperation]

def requireExactKeys (fields : List (String × Json)) (expected : List String) (label : String) :
    Protocol Unit :=
  if hasExactAuthorityKeys fields expected then .ok ()
  else .error (label ++ " has unexpected fields")

def decodePathSegments (label : String) : List Json → Protocol AuthorityStatePath
  | [] => .ok []
  | .string segment :: rest => do
    let rest ← decodePathSegments label rest
    .ok (segment :: rest)
  | _ => .error (label ++ " path segment is invalid")

def decodeAuthorityStatePath (value : Option Json) (label : String) :
    Protocol AuthorityStatePath :=
  match value with
  | some (.array (segment :: rest)) => decodePathSegments label (segment :: rest)
  | _ => .error (label ++ " path is invalid")

/-- A non-negative safe integer. -/
def spliceBound? (value : Option Json) : Option Nat :=
  match value with
  | some (.number n) =>
    match n.safeInteger? with
    | some i => if 0 ≤ i then some i.toNat else none
    | none => none
  | _ => none

def decodeAuthorityStateOperation (value : Json) (index : Nat) :
    Protocol AuthorityStateOperation :=
  let label := "authority state delta operation " ++ index.repr
  match value with
  | .object fields =>
    match fields.lookup "op" with
    | some (.string op) => do
      let path ← decodeAuthorityStatePath (fields.lookup "path") label
      if op = "set" then
        requireExactKeys fields ["op", "path", "value"] label
        .ok (.set path (canonicalAuthorityJson ((fields.lookup "value").getD .null)))
      else if op = "remove" then
        requireExactKeys fields ["op", "path"] label
        .ok (.remove path)
      else if op = "splice" then
        requireExactKeys fields ["op", "path", "index", "remove", "insert"] label
        match spliceBound? (fields.lookup "index"), spliceBound? (fields.lookup "remove"),
            fields.lookup "insert" with
        | some index, some remove, some (.array insert) =>
          .ok (.splice path index remove (insert.map canonicalAuthorityJson))
        | _, _, _ => .error (label ++ " splice bounds are invalid")
      else .error (label ++ " op is unsupported")
    | _ => .error (label ++ " is invalid")
  | _ => .error (label ++ " is invalid")

def decodeOperations : Nat → List Json → Protocol (List AuthorityStateOperation)
  | _, [] => .ok []
  | index, value :: rest => do
    let operation ← decodeAuthorityStateOperation value index
    let rest ← decodeOperations (index + 1) rest
    .ok (operation :: rest)

/-- Stored or transported deltas enter as untyped values. -/
def decodeAuthorityStateDelta (value : Json) : Protocol AuthorityStateDelta :=
  match value with
  | .object fields =>
    match fields.lookup "operations" with
    | some (.array operations) =>
      if fields.lookup "schema_version" = some (.string AUTHORITY_STATE_DELTA_SCHEMA) then do
        requireExactKeys fields ["schema_version", "operations"] "authority state delta"
        let operations ← decodeOperations 0 operations
        .ok ⟨operations⟩
      else .error "authority state delta schema mismatch"
    | _ => .error "authority state delta schema mismatch"
  | _ => .error "authority state delta schema mismatch"

/-- Apply the operations one after the other. -/
def applyOperations : List AuthorityStateOperation → Json → Protocol Json
  | [], state => .ok state
  | operation :: rest, state => do
    let state ← applyAuthorityStateOperation operation state operation.path
    applyOperations rest state

/-- The canonical state one reader owns. -/
structure AuthorityStateReplay where
  state : Json
deriving DecidableEq

namespace AuthorityStateReplay

def create (projection : Json) : Protocol AuthorityStateReplay := do
  let state ← canonicalAuthorityObject (some projection) "authority replay state"
  .ok ⟨state⟩

/-- The delta is decoded first and the state replaced only when the whole batch applied. -/
def apply (replay : AuthorityStateReplay) (delta : Json) : Protocol AuthorityStateReplay := do
  let delta ← decodeAuthorityStateDelta delta
  let state ← applyOperations delta.operations replay.state
  .ok ⟨state⟩

def snapshot (replay : AuthorityStateReplay) : Json := Json.copyAuthorityJson replay.state

end AuthorityStateReplay

def applyAuthorityStateDelta (previous : Json) (delta : Json) : Protocol Json := do
  let replay ← AuthorityStateReplay.create previous
  let replay ← replay.apply delta
  .ok replay.snapshot

/-- Does this delta rebuild exactly this projection from `previous`? -/
def authorityStateDeltaReconstructs (previous : Json) (delta : Json) (projection : Json) : Bool :=
  match applyAuthorityStateDelta previous delta with
  | .ok state => canonicalBytesEqual state projection
  | .error _ => false

end Loopx.Authority
