/- GID: Loopx/Collaboration/SemanticRequest
   generality: I
   source: loopx/control_plane/collaboration/semantic_request.ts
   digest: The brief of a collaboration request, its recipients and the receiver's decisions. -/

import Loopx.Authority.Codec
import Loopx.Json.ByteLength
import Loopx.Lease.WriteScope
import Loopx.Scheduler.State

set_option autoImplicit false
set_option relaxedAutoImplicit false

namespace Loopx.Collaboration

open Loopx.Lib.Fallible (throwWhen)
open Loopx.Json (byteLength)
open Loopx.Authority (Sha256 canonicalAuthoritySha256 isBareSha256 isHexDigit trim)
open Loopx.Lease (utf16Length)
open Loopx.Scheduler (jsString)

abbrev Fields := List (String × Json)

/-- `EffectRuntimeRequestError`. -/
structure RequestError where
  message : String
  code : String
deriving DecidableEq, Repr

abbrev Checked := Except RequestError

def invalidRequest (message : String) : RequestError := ⟨message, "invalid_request"⟩

def ensure (condition : Prop) [Decidable condition] (message : String) : Checked Unit :=
  throwWhen (¬condition) (invalidRequest message)

def requireJsonObject (value : Option Json) (label : String) : Checked Fields :=
  match value with
  | some (.object fields) => .ok fields
  | _ => .error (invalidRequest (label ++ " must be an object"))

def requireNonEmptyString (value : Option Json) (label : String) : Checked String :=
  match value with
  | some (.string s) =>
    if trim s = "" then .error (invalidRequest (label ++ " must be a non-empty string")) else .ok s
  | _ => .error (invalidRequest (label ++ " must be a non-empty string"))

/-- `String.prototype.length`. -/
def stringLength (s : String) : Nat := utf16Length s.toList

/-- `ID`, also with more characters and another bound. -/
def isIdentifier (extra : List Char) (limit : Nat) (s : String) : Bool :=
  match s.toList with
  | [] => false
  | c :: rest => c.isAlphanum && decide (rest.length < limit) &&
    rest.all fun c => c.isAlphanum || c ∈ extra

def isId (s : String) : Bool := isIdentifier ['.', '_', '-'] 160 s

def ORIGINAL_CONVERSATION_RECIPIENT_SCHEMA : String :=
  "collaboration_original_conversation_recipient_v0"

def CONVERSATION_ENTRY_SCHEMA : String := "loopx_collaboration_conversation_entry_v0"

def exactKeys (value : Fields) (allowed required : List String) : Checked Unit :=
  ensure ((value.all fun field => allowed.contains field.1) ∧
      required.all fun key => (value.lookup key).isSome)
    "collaboration request has unsupported or missing fields"

def stringWhere (check : String → Bool) : Option Json → Bool
  | some (.string s) => check s
  | _ => false

/-- An explicit original Session address, handed on as it is. -/
def normalizeOriginalConversationRecipient (value : Option Json) : Checked Fields := do
  let recipient ← requireJsonObject value "original conversation recipient"
  let names := ["schema_version", "binding_id", "session_id", "identity_sha256"]
  exactKeys recipient names names
  ensure (recipient.lookup "schema_version" = some (.string ORIGINAL_CONVERSATION_RECIPIENT_SCHEMA) ∧
      stringWhere (fun s => s.toList.length = 24 && s.toList.all isHexDigit)
        (recipient.lookup "binding_id") ∧
      stringWhere isId (recipient.lookup "session_id") ∧
      stringWhere isBareSha256 (recipient.lookup "identity_sha256"))
    "invalid original conversation recipient"
  .ok recipient

/-! ## The brief -/

/-- Trimmed text of a bounded length. -/
def boundedText (value : Option Json) (label : String) (limit : Nat) : Checked String := do
  let raw ← requireNonEmptyString value label
  let result := trim raw
  ensure (stringLength result ≤ limit) (label ++ " exceeds " ++ limit.repr ++ " characters")
  .ok result

def lines (value : Option Json) (label : String) : Checked (List String) :=
  match value with
  | some (.array items) =>
    if 12 < items.length then
      .error (invalidRequest (label ++ " must contain at most 12 items"))
    else items.zipIdx.mapM fun (item, index) =>
      boundedText (some item) (label ++ "[" ++ index.repr ++ "]") 1000
  | _ => .error (invalidRequest (label ++ " must contain at most 12 items"))

/-- A relative path without a scheme, an empty or a dot part and without control characters. -/
def isWorkspaceRef (ref : String) : Bool :=
  decide (ref.toList.head? ≠ some '/') && decide ('\\' ∉ ref.toList) &&
    decide (':' ∉ ref.toList) &&
    (ref.toList.splitOn '/').all (fun part => part ≠ [] && part ≠ ['.'] && part ≠ ['.', '.']) &&
    ref.toList.all (fun c => decide (0x1f < c.toNat))

def workspaceRef (value : Option Json) : Checked String := do
  let ref ← boundedText value "input.ref" 512
  ensure (isWorkspaceRef ref) "input.ref must be a relative workspace file path"
  .ok ref

/-- The delegation an input comes from. Its relation is the value that was given. -/
structure BriefDelegation where
  operationId : String
  ref : String
  relation : Json
deriving DecidableEq

structure BriefInput where
  ref : String
  description : String
  sha256 : Option String
  delegation : Option BriefDelegation
deriving DecidableEq

structure CollaborationBrief where
  purpose : String
  context : String
  constraints : List String
  inputs : List BriefInput
  acceptance : List String
  returnRequirement : String
deriving DecidableEq

def inputSha256 : Option Json → Checked (Option String)
  | none => .ok none
  | some (.string s) =>
    if isBareSha256 s then .ok (some s)
    else .error (invalidRequest "input.sha256 must be a SHA256 digest")
  | some _ => .error (invalidRequest "input.sha256 must be a SHA256 digest")

def delegationMessage : String :=
  "delegation input requires operation, artifact, relation and digest"

def isRelation (value : Json) : Bool := ["responds_to", "revises", "uses"].contains (jsString value)

/-- The operation and the relation of a delegation, read as they stand. -/
def delegationFacts (source : Fields) (sha256 : Option String) : Checked (String × Json) :=
  match source.lookup "operation_id", source.lookup "relation" with
  | some (.string operationId), some relation =>
    if isId operationId ∧ isRelation relation ∧ sha256.isSome then .ok (operationId, relation)
    else .error (invalidRequest delegationMessage)
  | _, _ => .error (invalidRequest delegationMessage)

def inputDelegation (value : Option Json) (sha256 : Option String) :
    Checked (Option BriefDelegation) :=
  match value with
  | none => .ok none
  | some value => do
    let source ← requireJsonObject (some value) "input.delegation"
    let names := ["operation_id", "ref", "relation"]
    exactKeys source names names
    let facts ← delegationFacts source sha256
    let ref ← workspaceRef (source.lookup "ref")
    .ok (some ⟨facts.1, ref, facts.2⟩)

def briefInput (raw : Json) : Checked BriefInput := do
  let input ← requireJsonObject (some raw) "brief input"
  exactKeys input ["ref", "description", "sha256", "delegation"] ["ref", "description"]
  let ref ← workspaceRef (input.lookup "ref")
  let description ← boundedText (input.lookup "description") "input.description" 1000
  let sha256 ← inputSha256 (input.lookup "sha256")
  let delegation ← inputDelegation (input.lookup "delegation") sha256
  .ok ⟨ref, description, sha256, delegation⟩

def briefInputs (value : Option Json) : Checked (List Json) :=
  match value with
  | some (.array items) =>
    if 12 < items.length then .error (invalidRequest "brief.inputs must contain at most 12 items")
    else .ok items
  | _ => .error (invalidRequest "brief.inputs must contain at most 12 items")

def briefKeys : List String :=
  ["schema_version", "purpose", "context", "constraints", "inputs", "acceptance",
    "return_requirement"]

def normalizeCollaborationBrief (value : Option Json) : Checked CollaborationBrief := do
  let brief ← requireJsonObject value "brief"
  ensure (byteLength (.object brief) ≤ 16000) "collaboration brief exceeds 16000 bytes"
  exactKeys brief briefKeys briefKeys
  ensure (brief.lookup "schema_version" = some (.string "collaboration_brief_v0"))
    "unsupported collaboration brief schema"
  let items ← briefInputs (brief.lookup "inputs")
  let inputs ← items.mapM briefInput
  let acceptance ← lines (brief.lookup "acceptance") "brief.acceptance"
  ensure (acceptance ≠ []) "brief.acceptance must name an observable result"
  let purpose ← boundedText (brief.lookup "purpose") "brief.purpose" 2000
  let context ← boundedText (brief.lookup "context") "brief.context" 6000
  let constraints ← lines (brief.lookup "constraints") "brief.constraints"
  let returnRequirement ←
    boundedText (brief.lookup "return_requirement") "brief.return_requirement" 2000
  .ok ⟨purpose, context, constraints, inputs, acceptance, returnRequirement⟩

def BriefDelegation.toJson (delegation : BriefDelegation) : Json :=
  .object [("operation_id", .string delegation.operationId), ("ref", .string delegation.ref),
    ("relation", delegation.relation)]

def BriefInput.toJson (input : BriefInput) : Json :=
  .object ([("ref", .string input.ref), ("description", .string input.description)] ++
    (input.sha256.map fun s => ("sha256", Json.string s)).toList ++
    (input.delegation.map fun d => ("delegation", d.toJson)).toList)

def linesJson (texts : List String) : Json := .array (texts.map Json.string)

def CollaborationBrief.toJson (brief : CollaborationBrief) : Json :=
  .object [("schema_version", .string "collaboration_brief_v0"),
    ("purpose", .string brief.purpose), ("context", .string brief.context),
    ("constraints", linesJson brief.constraints),
    ("inputs", .array (brief.inputs.map BriefInput.toJson)),
    ("acceptance", linesJson brief.acceptance),
    ("return_requirement", .string brief.returnRequirement)]

/-! ## Decisions -/

inductive ReceiverDecision where
  | adopt
  | defer
  | reject
  | noChange
deriving DecidableEq, Repr

def ReceiverDecision.text : ReceiverDecision → String
  | .adopt => "adopt"
  | .defer => "defer"
  | .reject => "reject"
  | .noChange => "no_change"

def RECEIVER_DECISIONS : List ReceiverDecision := [.adopt, .defer, .reject, .noChange]

def receiverDecision : Option Json → Option ReceiverDecision
  | some (.string s) => RECEIVER_DECISIONS.find? (fun decision => decide (decision.text = s))
  | _ => none

/-! ## Goal references -/

def isGoalId (s : String) : Bool :=
  decide (1 ≤ s.toList.length) && decide (s.toList.length ≤ 200) &&
    s.toList.all (fun c => c.isAlphanum || c ∈ ['.', '_', ':', '-'])

def isGoalInstanceId (s : String) : Bool :=
  s.toList.take 6 = "ginst_".toList && decide ((s.toList.drop 6).length = 32) &&
    (s.toList.drop 6).all isHexDigit

/-- `parseExactGoalRef`: the goal and its instance. -/
def parseExactGoalRef (value : Option Json) : Option (String × String) :=
  match value with
  | some (.object raw) =>
    match raw.lookup "goal_id", raw.lookup "goal_instance_id" with
    | some (.string goal), some (.string goalInstance) =>
      if isGoalId goal ∧ isGoalInstanceId goalInstance then some (goal, goalInstance) else none
    | _, _ => none
  | _ => none

def sameGoalRef (left right : Option Json) : Bool :=
  (left.isNone && right.isNone) ||
    ((parseExactGoalRef left).isSome && decide (parseExactGoalRef left = parseExactGoalRef right))

/-- `isDeepStrictEqual` of two values that may be missing: the order of their keys is free. -/
def deepEqual (left right : Option Json) : Bool :=
  decide (left.map Json.canonicalAuthorityJson = right.map Json.canonicalAuthorityJson)

/-- The receipt names the request. -/
def sameRequest (receipt : Option Json) (request : Fields) (source : Bool) : Bool :=
  match receipt with
  | some (.object receipt) =>
    (if (request.lookup "recipient").isSome || (receipt.lookup "recipient").isSome then
      decide (request.lookup "schema_version" = some (.string CONVERSATION_ENTRY_SCHEMA)) &&
        decide (receipt.lookup "request_id" = request.lookup "request_id") &&
        deepEqual (receipt.lookup "recipient") (request.lookup "recipient") &&
        deepEqual (receipt.lookup "requester") (request.lookup "requester")
    else
      (["request_id", "goal_id", "agent_id"].all fun key =>
        decide (receipt.lookup key = request.lookup key)) &&
        sameGoalRef (receipt.lookup "goal_ref") (request.lookup "goal_ref")) &&
      (!source || decide (receipt.lookup "source_id" = request.lookup "source_id"))
  | _ => false

end Loopx.Collaboration
