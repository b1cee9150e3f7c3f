/- GID: Loopx/Todos/ValidationRevision
   generality: I
   source: loopx/control_plane/todos/completion_validation_revision.ts
   digest: Planning one revision of a Todo's validation, and the reader of its history. -/

import Loopx.Todos.AgentId
import Loopx.Goals.AcceptanceLifecycle
import Loopx.Lib.RecordUpdate

set_option autoImplicit false
set_option relaxedAutoImplicit false

namespace Loopx.Todos.Validation

open Loopx.Lib.KeyedList
open Loopx.Lib.Fallible (throwWhen)
open Loopx.Lib.RecordUpdate (merge)
open Loopx.Json (JsNumber Protocol fromEntries maxArrayLength)
open Loopx.Authority (Sha256 canonicalAuthoritySha256 isBareSha256 requireAuthorityStoreId)
open Loopx.Goals (authorityFields)
open Loopx.Lease (HostText)

def COMPLETION_VALIDATION_REVISION_RECEIPT_SCHEMA : String :=
  "loopx_todo_completion_validation_revision_receipt_v0"

def COMPLETION_VALIDATION_BINDING_RECEIPT_SCHEMA : String :=
  "loopx_todo_completion_validation_revision_receipt_v1"

/-- The schema of a request: a revision of a declaration, or the first binding of one. -/
inductive RevisionSchema where
  | revision
  | binding
deriving DecidableEq, Repr

structure CompletionValidationRevision where
  schemaVersion : RevisionSchema
  expectedDeclarationSha256 : Option String
  declaration : Json
deriving DecidableEq

def digest (value : Option Json) (label : String) : Protocol String :=
  match value with
  | some (.string s) =>
    if isBareSha256 s then .ok s else .error (label ++ " must be a SHA-256 digest")
  | _ => .error (label ++ " must be a SHA-256 digest")

/-! ## Absent authority -/

def UNBOUND_FIELDS : List String :=
  ["completion_validation_required", "completion_validation_revision",
    "completion_validation_revision_history"]

/-- No declaration is bound: every marker is absent or stands at its default. -/
structure Unbound (todo : Fields) : Prop where
  digest : todo.lookup "completion_validation_sha256" = none
  required : todo.lookup "completion_validation_required" = none ∨
    todo.lookup "completion_validation_required" = some (.bool false)
  revision : todo.lookup "completion_validation_revision" = none ∨
    todo.lookup "completion_validation_revision" = some (.number (JsNumber.ofNat 0))
  history : todo.lookup "completion_validation_revision_history" = none ∨
    todo.lookup "completion_validation_revision_history" = some (.array [])

instance : DecidablePred Unbound := fun _ =>
  decidable_of_iff (_ ∧ _ ∧ _ ∧ _)
    ⟨fun h => ⟨h.1, h.2.1, h.2.2.1, h.2.2.2⟩, fun h => ⟨h.1, h.2, h.3, h.4⟩⟩

/-- The markers as they stand, kept as the evidence that nothing was bound. -/
def unboundValidationAuthority (todo : Fields) : Protocol Fields := do
  throwWhen (¬Unbound todo) "first binding requires absent completion validation authority"
  .ok (fromEntries (todo.filter fun field => field.1 ∈ UNBOUND_FIELDS))

/-! ## Receipts -/

/-- What a revision replaced: nothing, with the markers found, or a declaration. -/
inductive RevisionOrigin where
  | firstBinding (previousAuthority : Fields)
  | replacement (previousDeclarationSha256 : String)
deriving DecidableEq

structure RevisionReceipt where
  origin : RevisionOrigin
  revision : Nat
  operationId : String
  declarationSha256 : String
  actorAgentId : String
  revisedAt : String
deriving DecidableEq

namespace RevisionOrigin

def isFirstBinding : RevisionOrigin → Bool
  | .firstBinding _ => true
  | .replacement _ => false

def previousDeclarationSha256 : RevisionOrigin → Option String
  | .firstBinding _ => none
  | .replacement previous => some previous

def schemaVersion : RevisionOrigin → String
  | .firstBinding _ => COMPLETION_VALIDATION_BINDING_RECEIPT_SCHEMA
  | .replacement _ => COMPLETION_VALIDATION_REVISION_RECEIPT_SCHEMA

/-- The fields that only a first binding has. -/
def authorityField : RevisionOrigin → Fields
  | .firstBinding authority => [("previous_validation_authority", .object authority)]
  | .replacement _ => []

end RevisionOrigin

def optionalDigest : Option String → Json
  | none => .null
  | some s => .string s

namespace RevisionReceipt

def previousDeclarationSha256 (receipt : RevisionReceipt) : Option String :=
  receipt.origin.previousDeclarationSha256

def fields (receipt : RevisionReceipt) : Fields :=
  [("schema_version", .string receipt.origin.schemaVersion),
    ("revision", .number (JsNumber.ofNat receipt.revision)),
    ("operation_id", .string receipt.operationId),
    ("previous_declaration_sha256", optionalDigest receipt.previousDeclarationSha256),
    ("declaration_sha256", .string receipt.declarationSha256),
    ("actor_agent_id", .string receipt.actorAgentId),
    ("revised_at", .string receipt.revisedAt)] ++ receipt.origin.authorityField

def toJson (receipt : RevisionReceipt) : Json := .object receipt.fields

end RevisionReceipt

/-! ## The reader of a history -/

def isFirstBinding (receipt : Fields) : Bool :=
  receipt.lookup "schema_version" = some (.string COMPLETION_VALIDATION_BINDING_RECEIPT_SCHEMA)

def receiptFields (firstBinding : Bool) : List String :=
  ["schema_version", "revision", "operation_id", "previous_declaration_sha256",
    "declaration_sha256", "actor_agent_id", "revised_at"] ++
    if firstBinding then ["previous_validation_authority"] else []

def positiveRevision (value : Option Json) : Option Nat :=
  match value with
  | some (.number n) =>
    match n.safeInteger? with
    | some i => if 1 ≤ i then some i.toNat else none
    | none => none
  | _ => none

def presentText (value : Option Json) : Option String :=
  match value with
  | some (.string s) => if s = "" then none else some s
  | _ => none

/-- The shape of the entry at one place of a history. -/
def CanonicalReceipt (index : Nat) (receipt : Fields) : Prop :=
  (∀ key ∈ keys receipt, key ∈ receiptFields (isFirstBinding receipt)) ∧
    (isFirstBinding receipt = false → receipt.lookup "schema_version" =
      some (.string COMPLETION_VALIDATION_REVISION_RECEIPT_SCHEMA)) ∧
    (isFirstBinding receipt = true →
      index = 0 ∧ receipt.lookup "previous_declaration_sha256" = some .null) ∧
    positiveRevision (receipt.lookup "revision") = some (index + 1) ∧
    presentText (receipt.lookup "revised_at") ≠ none

instance (index : Nat) : DecidablePred (CanonicalReceipt index) := fun _ =>
  inferInstanceAs (Decidable (_ ∧ _ ∧ _ ∧ _ ∧ _))

/-- `previousAuthority`: the markers a first binding has kept. -/
def previousAuthority (receipt : Fields) : Protocol Fields := do
  let authority ← authorityFields (receipt.lookup "previous_validation_authority")
    "previous validation authority"
  throwWhen (¬∀ key ∈ keys authority, key ∈ UNBOUND_FIELDS)
    "previous validation authority has unsupported fields"
  let _ ← unboundValidationAuthority authority
  .ok authority

def optionalAuthority (receipt : Fields) : Protocol (Option Fields) :=
  if isFirstBinding receipt then do
    let authority ← previousAuthority receipt
    .ok (some authority)
  else .ok none

def receiptOrigin (receipt : Fields) (authority : Option Fields) : Protocol RevisionOrigin :=
  match authority with
  | some authority => .ok (.firstBinding authority)
  | none => do
    let previous ← digest (receipt.lookup "previous_declaration_sha256")
      "revision history previous declaration"
    .ok (.replacement previous)

/-- One entry of a history, checked field by field. -/
def readReceipt (host : HostText) (index : Nat) (entry : Json) : Protocol RevisionReceipt := do
  let receipt ← authorityFields (some entry)
    ("completion validation revision history[" ++ index.repr ++ "]")
  throwWhen (¬CanonicalReceipt index receipt)
    "Todo completion validation revision history is not canonical"
  let authority ← optionalAuthority receipt
  let operationId ← requireAuthorityStoreId (receipt.lookup "operation_id")
    "revision history operation id"
  let origin ← receiptOrigin receipt authority
  let declaration ← digest (receipt.lookup "declaration_sha256") "revision history declaration"
  let actor ← normalizeTodoAgent host (receipt.lookup "actor_agent_id")
    "revision history actor_agent_id"
  .ok ⟨origin, index + 1, operationId, declaration, actor,
    (presentText (receipt.lookup "revised_at")).getD ""⟩

def readReceipts (host : HostText) : Nat → List Json → Protocol (List RevisionReceipt)
  | _, [] => .ok []
  | index, entry :: entries => do
    let receipt ← readReceipt host index entry
    let receipts ← readReceipts host (index + 1) entries
    .ok (receipt :: receipts)

/-- Every entry continues the one before it, and the last one is the current declaration. -/
def EndsIn (history : List RevisionReceipt) (currentDigest : Option String) : Prop :=
  history.IsChain (fun earlier later =>
      later.previousDeclarationSha256 = some earlier.declarationSha256) ∧
    ∀ last ∈ history.getLast?, some last.declarationSha256 = currentDigest

instance (history : List RevisionReceipt) (currentDigest : Option String) :
    Decidable (EndsIn history currentDigest) :=
  inferInstanceAs (Decidable (_ ∧ _))

def completionValidationRevisionHistory (host : HostText) (value : Option Json)
    (priorRevision : Nat) (currentDigest : Option String) : Protocol (List RevisionReceipt) :=
  match value with
  | some (.array entries) => do
    let history ← readReceipts host 0 entries
    throwWhen (¬(history.length = priorRevision ∧ EndsIn history currentDigest))
      "Todo completion validation revision history does not match current state"
    .ok history
  | some _ => .error "Todo completion_validation_revision_history must be an array"
  | none =>
    if priorRevision = 0 then .ok []
    else .error "Todo completion_validation_revision_history must be an array"

/-! ## The planner -/

/-- One request, with the time its caller takes from the clock. -/
structure RevisionRequest where
  revision : CompletionValidationRevision
  actorAgentId : Option String
  operationId : String
  revisedAt : String
deriving DecidableEq

/-- `completion_validation_revision`, zero when absent. -/
def currentRevision (value : Option Json) : Protocol Nat :=
  match value with
  | none => .ok 0
  | some (.number n) =>
    match n.safeInteger? with
    | some i =>
      if 0 ≤ i then .ok i.toNat
      else .error "Todo completion_validation_revision must be a non-negative safe integer"
    | none => .error "Todo completion_validation_revision must be a non-negative safe integer"
  | some _ => .error "Todo completion_validation_revision must be a non-negative safe integer"

/-- What the request would replace in the Todo as it stands. -/
def currentOrigin (todo : Fields) (schema : RevisionSchema) : Protocol RevisionOrigin :=
  match schema with
  | .binding => do
    let authority ← unboundValidationAuthority todo
    .ok (.firstBinding authority)
  | .revision => do
    throwWhen (todo.lookup "completion_validation_required" ≠ some (.bool true))
      "Todo has no completion validation declaration to revise"
    let previous ← digest (todo.lookup "completion_validation_sha256")
      "Todo completion_validation_sha256"
    .ok (.replacement previous)

def requireActor (host : HostText) (actorAgentId : Option String) : Protocol String :=
  match actorAgentId with
  | none => .error "completion validation revision requires a registered actor"
  | some agent => normalizeTodoAgent host (some (.string agent)) "actor_agent_id"

structure RevisionPlan where
  history : List RevisionReceipt
  receipt : RevisionReceipt
deriving DecidableEq

def RevisionPlan.updates (plan : RevisionPlan) : Fields :=
  [("completion_validation_required", .bool true),
    ("completion_validation_sha256", .string plan.receipt.declarationSha256),
    ("completion_validation_revision", .number (JsNumber.ofNat plan.receipt.revision)),
    ("completion_validation_revision_history",
      .array ((plan.history ++ [plan.receipt]).map RevisionReceipt.toJson))]

def planCompletionValidationRevision (host : HostText) (sha : Sha256) (todo : Fields)
    (request : RevisionRequest) : Protocol RevisionPlan := do
  throwWhen (todo.lookup "status" ≠ some (.string "open") ∨
      todo.lookup "done" = some (.bool true) ∨
      todo.lookup "archive_state" ≠ some (.string "active"))
    "completion validation can be revised only while the Todo is open and active"
  throwWhen (¬(request.revision.schemaVersion = .binding ↔
      request.revision.expectedDeclarationSha256 = none))
    "validator binding schema and absence witness must agree"
  let origin ← currentOrigin todo request.revision.schemaVersion
  throwWhen (origin.previousDeclarationSha256 ≠ request.revision.expectedDeclarationSha256)
    "completion validation declaration changed; reread before retrying"
  let nextDigest := canonicalAuthoritySha256 sha request.revision.declaration
  throwWhen (some nextDigest = origin.previousDeclarationSha256)
    "replacement completion validation declaration must change its digest"
  let actor ← requireActor host request.actorAgentId
  let prior ← currentRevision (todo.lookup "completion_validation_revision")
  let history ← completionValidationRevisionHistory host
    (todo.lookup "completion_validation_revision_history") prior origin.previousDeclarationSha256
  let operationId ← requireAuthorityStoreId (some (.string request.operationId)) "operation id"
  -- an array the runtime cannot make longer is a `RangeError`
  throwWhen (maxArrayLength < history.length + 1) "Invalid array length"
  .ok ⟨history, ⟨origin, prior + 1, operationId, nextDigest, actor, request.revisedAt⟩⟩

/-- One request against a Todo: an accepted plan is merged, a refusal changes nothing. -/
def revise (host : HostText) (sha : Sha256) (todo : Fields) (request : RevisionRequest) :
    Fields :=
  match planCompletionValidationRevision host sha todo request with
  | .ok plan => merge todo plan.updates
  | .error _ => todo

end Loopx.Todos.Validation
