/- GID: Loopx/Collaboration/RequestControl
   generality: I
   source: loopx/control_plane/collaboration/request_control.ts
   digest: Revisions, cancellation and reserved effects of one request, and its six operations. -/

import Loopx.Collaboration.SemanticRequest

set_option autoImplicit false
set_option relaxedAutoImplicit false

namespace Loopx.Collaboration

open Loopx.Lib.KeyedList
open Loopx.Lib.Fallible (throwWhen)
open Loopx.Json (JsNumber byteLength)
open Loopx.Authority (Sha256 canonicalAuthoritySha256 isBareSha256 trim)
open Loopx.Scheduler (jsString)

/-- The digest of the runtime, and its `Date.parse`. -/
structure ControlHost where
  sha : Sha256
  dateParse : String → Option Int

def REQUEST_CONTROL_SCHEMA : String := "collaboration_request_control_v0"

def REQUEST_AMENDMENT_OUTCOMES : List String := ["committed", "aborted", "rejected"]

def MAX_OPERATIONS : Nat := 64

def MAX_REVISIONS : Nat := 8

def MAX_RESERVATIONS : Nat := 16

def MAX_RECORD_BYTES : Nat := 128000

inductive ControlOperation where
  | inspect
  | revise
  | cancel
  | read
  | assess
  | reserve
  | settle
deriving DecidableEq, Repr

def ControlOperation.text : ControlOperation → String
  | .inspect => "inspect"
  | .revise => "revise"
  | .cancel => "cancel"
  | .read => "read"
  | .assess => "assess"
  | .reserve => "reserve"
  | .settle => "settle"

/-- `OP_FIELDS`. -/
def ControlOperation.fields : ControlOperation → List String
  | .inspect => []
  | .revise => ["expected_revision", "expected_digest", "brief", "reason"]
  | .cancel => ["expected_revision", "expected_digest", "reason"]
  | .read => ["revision", "revision_digest"]
  | .assess => ["revision", "revision_digest", "decision", "reason"]
  | .reserve => ["expected_revision", "expected_digest"]
  | .settle => ["reservation_digest"]

def controlOperations : List ControlOperation :=
  [.inspect, .revise, .cancel, .read, .assess, .reserve, .settle]

structure Assessment where
  decision : ReceiverDecision
  reason : String
  assessedAt : String
deriving DecidableEq

structure Revision where
  revision : Nat
  brief : CollaborationBrief
  reason : String
  createdAt : String
  readAt : Option String
  assessment : Option Assessment
deriving DecidableEq

/-- A reserved effect. Its binding and its terminal receipt are kept as they were given. -/
structure Reservation where
  binding : Fields
  digest : String
  terminal : Option Fields
deriving DecidableEq

structure Cancellation where
  operationId : String
  reason : String
  requestedAt : String
deriving DecidableEq

structure OperationReceipt where
  operationId : String
  requestSha256 : String
  result : Fields
deriving DecidableEq

structure Control where
  requestSha256 : String
  revisions : List Revision
  cancellation : Option Cancellation
  reservations : List Reservation
  operations : List OperationReceipt
deriving DecidableEq

/-! ## Checked values -/

/-- `keys`. -/
def controlKeys (value : Fields) (fields : List String) : Checked Unit :=
  ensure (value.length = fields.length ∧ fields.all fun key => (value.lookup key).isSome)
    "request control fields are invalid"

def isControlText (max : Nat) (s : String) : Bool :=
  decide (trim s = s) && s ≠ "" && decide (stringLength s ≤ max) && decide ('\x00' ∉ s.toList)

/-- `text`. -/
def controlText (value : Option Json) (name : String) (max : Nat) : Checked String :=
  match value with
  | some (.string s) =>
    if isControlText max s then .ok s
    else .error (invalidRequest (name ++ " must be bounded nonempty text"))
  | _ => .error (invalidRequest (name ++ " must be bounded nonempty text"))

/-- `/^[A-Za-z0-9][A-Za-z0-9_.:-]*$/`. -/
def isSafeIdentifier (s : String) : Bool :=
  match s.toList with
  | [] => false
  | c :: rest => c.isAlphanum && rest.all fun c => c.isAlphanum || c ∈ ['_', '.', ':', '-']

/-- `id`. -/
def controlId (value : Option Json) (name : String) : Checked String := do
  let result ← controlText value name 160
  ensure (isSafeIdentifier result) (name ++ " must be a safe identifier")
  .ok result

/-- `digest`. -/
def controlDigest (value : Option Json) (name : String) : Checked String :=
  match value with
  | some (.string s) =>
    if isBareSha256 s then .ok s else .error (invalidRequest (name ++ " must be SHA-256"))
  | _ => .error (invalidRequest (name ++ " must be SHA-256"))

/-- `integer`. -/
def positiveInteger (value : Option Json) (name : String) : Checked Nat :=
  match value with
  | some (.number n) =>
    match n.safeInteger? with
    | some i =>
      if 0 < i then .ok i.toNat
      else .error (invalidRequest (name ++ " must be a positive integer"))
    | none => .error (invalidRequest (name ++ " must be a positive integer"))
  | _ => .error (invalidRequest (name ++ " must be a positive integer"))

/-- `array`. -/
def boundedArray (value : Option Json) (max : Nat) : Checked (List Json) :=
  match value with
  | some (.array items) =>
    if items.length ≤ max then .ok items
    else .error (invalidRequest "request control capacity exceeded")
  | _ => .error (invalidRequest "request control capacity exceeded")

/-- A value that may be undefined, where it is read as null. -/
def orNull (value : Option Json) : Json := value.getD .null

def natJson (n : Nat) : Json := .number (JsNumber.ofNat n)

def optionJson (value : Option String) : Json := (value.map Json.string).getD .null

section

variable (host : ControlHost)

def timestamp (value : Option Json) : Checked String := do
  let result ← controlText value "request observation time" 64
  ensure (host.dateParse result).isSome "request observation time is invalid"
  .ok result

/-- `same`: equal digests. -/
def sameJson (a b : Json) : Bool :=
  canonicalAuthoritySha256 host.sha a = canonicalAuthoritySha256 host.sha b

def isConversation (entry : Fields) : Bool :=
  decide (entry.lookup "schema_version" = some (.string CONVERSATION_ENTRY_SCHEMA))

/-- The authenticated source speaks for the receiver of the entry. -/
def receiverMatches (entry source : Fields) : Checked Bool :=
  if isConversation entry then
    if orNull (source.lookup "actor_agent_id") = .null ∧
        (source.lookup "actor_recipient").isSome then do
      let recipient ← normalizeOriginalConversationRecipient (source.lookup "actor_recipient")
      .ok (sameJson host (.object recipient) (orNull (entry.lookup "recipient")))
    else .ok false
  else .ok (decide (source.lookup "actor_agent_id" = entry.lookup "agent_id") &&
    (source.lookup "actor_recipient").isNone)

/-! ## The record as JSON -/

def Assessment.toJson (assessment : Assessment) : Json :=
  .object [("decision", .string assessment.decision.text), ("reason", .string assessment.reason),
    ("assessed_at", .string assessment.assessedAt)]

def Revision.toJson (revision : Revision) : Json :=
  .object [("revision", natJson revision.revision), ("brief", revision.brief.toJson),
    ("reason", .string revision.reason), ("created_at", .string revision.createdAt),
    ("read_at", optionJson revision.readAt),
    ("assessment", (revision.assessment.map Assessment.toJson).getD .null)]

def Reservation.fields (reservation : Reservation) : Fields :=
  [("binding", .object reservation.binding), ("digest", .string reservation.digest),
    ("terminal", (reservation.terminal.map Json.object).getD .null)]

def Reservation.toJson (reservation : Reservation) : Json := .object reservation.fields

def Cancellation.toJson (cancellation : Cancellation) : Json :=
  .object [("operation_id", .string cancellation.operationId),
    ("reason", .string cancellation.reason), ("requested_at", .string cancellation.requestedAt)]

def OperationReceipt.toJson (receipt : OperationReceipt) : Json :=
  .object [("operation_id", .string receipt.operationId),
    ("request_sha256", .string receipt.requestSha256), ("result", .object receipt.result)]

def Control.toJson (control : Control) : Json :=
  .object [("schema_version", .string REQUEST_CONTROL_SCHEMA),
    ("request_sha256", .string control.requestSha256),
    ("revisions", .array (control.revisions.map Revision.toJson)),
    ("cancellation", (control.cancellation.map Cancellation.toJson).getD .null),
    ("reservations", .array (control.reservations.map Reservation.toJson)),
    ("operations", .array (control.operations.map OperationReceipt.toJson))]

/-- `{...entry, request_control: state}`. -/
def withControl (entry : Fields) (control : Control) : Fields :=
  setKey entry "request_control" control.toJson

def Control.active (control : Control) : Option Reservation :=
  control.reservations.find? fun reservation => reservation.terminal.isNone

def cancelResult (revision : Nat) (pending : Bool) : Fields :=
  [("operation", .string "cancel"), ("revision", natJson revision),
    ("reserved_effect_pending", .bool pending)]

def repeated (n : Nat) (c : Char) : String := String.ofList (List.replicate n c)

/-- The largest cancellation the record may still take, with its receipt. -/
def withWorstCancellation (control : Control) : Control :=
  if control.cancellation.isSome then control
  else { control with
    cancellation := some ⟨repeated 160 'c', repeated 2000 '\x01', repeated 64 '0'⟩
    operations := control.operations ++ [⟨repeated 160 'c', repeated 64 'f',
      cancelResult control.revisions.length control.active.isSome⟩] }

/-- The largest terminal receipt of a reservation. -/
def worstTerminal (reservation : Reservation) : Fields :=
  [("operation_id", orNull (reservation.binding.lookup "operation_id")),
    ("reservation_digest", .string reservation.digest), ("outcome", .string "committed"),
    ("goal_ref", orNull (reservation.binding.lookup "goal_ref")), ("goal_changed", .bool true),
    ("goal_revision", natJson JsNumber.maxSafeInteger), ("todo_id", .string (repeated 160 't')),
    ("receipt_sha256", .string (repeated 64 'f'))]

/-- Record the terminal receipt of the first reservation that the test picks. -/
def settleFirst (pick : Reservation → Bool) (terminal : Fields) :
    List Reservation → List Reservation
  | [] => []
  | reservation :: rest =>
    if pick reservation then { reservation with terminal := some terminal } :: rest
    else reservation :: settleFirst pick terminal rest

def settleResult (terminal : Fields) : Fields :=
  [("operation", .string "settle"), ("terminal", .object terminal)]

def withWorstTerminal (active : Option Reservation) (control : Control) : Control :=
  match active with
  | none => control
  | some reservation =>
    { control with
      reservations := settleFirst (fun row => row.terminal.isNone) (worstTerminal reservation)
        control.reservations
      operations := control.operations ++ [⟨repeated 160 's', repeated 64 'f',
        settleResult (worstTerminal reservation)⟩] }

/-- The bytes of the record after the cancellation and the settlement it may still take. -/
def recoverableRecordBytes (entry : Fields) (state : Control) : Nat :=
  byteLength (.object (withControl entry
    (withWorstTerminal state.active (withWorstCancellation state))))

/-! ## Reading a record -/

def goalRef (value : Option Json) : Checked Fields := do
  let ref ← requireJsonObject value "request Goal reference"
  controlKeys ref ["goal_id", "goal_instance_id"]
  ensure (parseExactGoalRef (some (.object ref))).isSome "request needs an exact Goal instance"
  .ok ref

def requestOriginalDigest (entry : Fields) : String :=
  canonicalAuthoritySha256 host.sha (.object (entry.filter fun field =>
    !(["instruction", "delivered_at", "source_channel", "request_control"].contains field.1)))

/-- The profile of an entry that can be controlled. -/
def checkProfile (entry : Fields) : Checked Unit :=
  if isConversation entry then do
    let _ ← normalizeOriginalConversationRecipient (entry.lookup "recipient")
    let requester ← requireJsonObject (entry.lookup "requester") "original requester"
    controlKeys requester ["goal_ref", "agent_id"]
    let _ ← goalRef (requester.lookup "goal_ref")
    let _ ← controlId (requester.lookup "agent_id") "requester Agent"
    ensure (entry.lookup "source_kind" = some (.string "peer") ∧
        entry.lookup "source_agent_id" = requester.lookup "agent_id" ∧
        ["goal_id", "goal_ref", "agent_id", "execution_binding_id"].all
          fun key => (entry.lookup key).isNone)
      "original conversation profile cannot impersonate a Goal receiver"
  else do
    ensure (entry.lookup "schema_version" = some (.string "loopx_manager_context_entry_v2"))
      "request control requires the exact-instance source profile"
    let ref ← goalRef (entry.lookup "goal_ref")
    ensure (ref.lookup "goal_id" = entry.lookup "goal_id" ∧
        (entry.lookup "execution_binding_id").isNone)
      "request profile cannot control an independently bound host execution"
    let _ ← controlId (entry.lookup "agent_id") "receiver Agent"
    .ok ()

def initial (entry : Fields) : Checked Control := do
  checkProfile entry
  let _ ← controlDigest (entry.lookup "request_id") "request_id"
  let _ ← controlText (entry.lookup "source_id") "source_id" 512
  let brief ← normalizeCollaborationBrief (entry.lookup "brief")
  let createdAt ← timestamp host (entry.lookup "delivered_at")
  .ok ⟨requestOriginalDigest host entry, [⟨1, brief, "Original request", createdAt, none, none⟩],
    none, [], []⟩

def requestRevisionDigest (entry : Fields) (revision : Revision) : String :=
  canonicalAuthoritySha256 host.sha (.object
    [("request_sha256", .string (requestOriginalDigest host entry)),
      ("revision", natJson revision.revision), ("brief", revision.brief.toJson),
      ("reason", .string revision.reason)])

/-- The revision of a number that counts from one. -/
def revisionAt (revisions : List Revision) (number : Nat) : Option Revision :=
  if number = 0 then none else revisions[number - 1]?

def normalizeRequestBasis (value : Option Json) : Checked (String × Nat × String) := do
  let row ← requireJsonObject value "source request basis"
  controlKeys row ["request_id", "request_revision", "request_digest"]
  let requestId ← controlDigest (row.lookup "request_id") "source request id"
  let revision ← positiveInteger (row.lookup "request_revision") "source request revision"
  let digest ← controlDigest (row.lookup "request_digest") "source request digest"
  .ok (requestId, revision, digest)

def bindingKeys : List String :=
  ["request_id", "request_revision", "request_digest", "receiver_agent_id", "goal_ref",
    "attempt_epoch", "authority_source_sha256", "proposal_id", "proposal_digest",
    "base_goal_revision", "base_intent_digest", "base_work_digest", "operation_id"]

/-- `binding`. -/
def amendmentBinding (value : Option Json) (entry : Fields) (revisions : List Revision)
    (epoch : Nat) : Checked Fields := do
  let row ← requireJsonObject value "request amendment binding"
  controlKeys row bindingKeys
  let number ← positiveInteger (row.lookup "request_revision") "request revision"
  let ref ← goalRef (row.lookup "goal_ref")
  ensure ((revisionAt revisions number).any (fun revision =>
        row.lookup "request_digest" = some (.string (requestRevisionDigest host entry revision))) ∧
      row.lookup "request_id" = entry.lookup "request_id" ∧
      row.lookup "receiver_agent_id" = entry.lookup "agent_id" ∧
      sameJson host (.object ref) (orNull (entry.lookup "goal_ref")) ∧
      row.lookup "attempt_epoch" = some (natJson epoch))
    "request amendment binding identity mismatch"
  let _ ← controlDigest (row.lookup "authority_source_sha256") "authority_source_sha256"
  let _ ← controlDigest (row.lookup "proposal_digest") "proposal_digest"
  let _ ← controlDigest (row.lookup "base_intent_digest") "base_intent_digest"
  let _ ← controlDigest (row.lookup "base_work_digest") "base_work_digest"
  let _ ← controlId (row.lookup "proposal_id") "proposal_id"
  let _ ← controlId (row.lookup "operation_id") "effect operation_id"
  let _ ← positiveInteger (row.lookup "base_goal_revision") "base Goal revision"
  .ok row

def terminalKeys : List String :=
  ["operation_id", "reservation_digest", "outcome", "goal_ref", "goal_changed", "goal_revision",
    "todo_id", "receipt_sha256"]

/-- What a terminal receipt says about the Goal's work. -/
def checkTerminalWork (row : Fields) (reservation : Reservation) : Checked Unit :=
  if row.lookup "goal_changed" = some (.bool true) then do
    let revision ← positiveInteger (row.lookup "goal_revision") "resulting Goal revision"
    let base ← positiveInteger (reservation.binding.lookup "base_goal_revision")
      "base Goal revision"
    ensure (revision = base + 1) "committed Goal revision does not follow the reserved basis"
    let _ ← controlId (row.lookup "todo_id") "created Todo"
    .ok ()
  else
    ensure (row.lookup "goal_revision" = some .null ∧ row.lookup "todo_id" = some .null)
      "no-effect terminal receipt cannot claim Goal work"

def requestTerminalSummary (value : Option Json) (reservation : Reservation) :
    Checked Fields := do
  let row ← requireJsonObject value "Goal terminal receipt"
  controlKeys row terminalKeys
  ensure (row.lookup "operation_id" = reservation.binding.lookup "operation_id" ∧
      row.lookup "reservation_digest" = some (.string reservation.digest) ∧
      sameJson host (orNull (row.lookup "goal_ref"))
        (orNull (reservation.binding.lookup "goal_ref")) ∧
      stringWhere (fun s => REQUEST_AMENDMENT_OUTCOMES.contains s) (row.lookup "outcome"))
    "Goal terminal receipt does not match the reserved operation"
  let _ ← controlDigest (row.lookup "receipt_sha256") "Goal terminal receipt digest"
  ensure (row.lookup "goal_changed" =
      some (.bool (decide (row.lookup "outcome" = some (.string "committed")))))
    "Goal terminal receipt has inconsistent effect facts"
  checkTerminalWork row reservation
  .ok row

def readAssessment (value : Option Json) : Checked (Option Assessment) :=
  if value = some .null then .ok none
  else do
    let row ← requireJsonObject value "request assessment"
    controlKeys row ["decision", "reason", "assessed_at"]
    match receiverDecision (row.lookup "decision") with
    | none => .error (invalidRequest "request assessment is invalid")
    | some decision => do
      let reason ← controlText (row.lookup "reason") "assessment reason" 2000
      let assessedAt ← timestamp host (row.lookup "assessed_at")
      .ok (some ⟨decision, reason, assessedAt⟩)

def readReadAt (value : Option Json) : Checked (Option String) :=
  if value = some .null then .ok none
  else do
    let readAt ← timestamp host value
    .ok (some readAt)

def readRevision (value : Json) (index : Nat) : Checked Revision := do
  let row ← requireJsonObject (some value) "request revision"
  controlKeys row ["revision", "brief", "reason", "created_at", "read_at", "assessment"]
  ensure (row.lookup "revision" = some (natJson (index + 1)))
    "request revisions must be complete and ordered"
  let brief ← normalizeCollaborationBrief (row.lookup "brief")
  ensure (sameJson host brief.toJson (orNull (row.lookup "brief")))
    "request revision brief is not canonical"
  let assessment ← readAssessment host (row.lookup "assessment")
  let reason ← controlText (row.lookup "reason") "revision reason" 2000
  let createdAt ← timestamp host (row.lookup "created_at")
  let readAt ← readReadAt host (row.lookup "read_at")
  .ok ⟨index + 1, brief, reason, createdAt, readAt, assessment⟩

def readReservation (entry : Fields) (revisions : List Revision) (value : Json) (index : Nat) :
    Checked Reservation := do
  let row ← requireJsonObject (some value) "request reservation"
  controlKeys row ["binding", "digest", "terminal"]
  let bound ← amendmentBinding host (row.lookup "binding") entry revisions (index + 1)
  let digest := canonicalAuthoritySha256 host.sha (.object bound)
  ensure (row.lookup "digest" = some (.string digest)) "request reservation digest changed"
  if row.lookup "terminal" = some .null then .ok ⟨bound, digest, none⟩
  else do
    let terminal ← requestTerminalSummary host (row.lookup "terminal") ⟨bound, digest, none⟩
    .ok ⟨bound, digest, some terminal⟩

def readCancellation (value : Option Json) : Checked (Option Cancellation) :=
  if value = some .null then .ok none
  else do
    let row ← requireJsonObject value "request cancellation"
    controlKeys row ["operation_id", "reason", "requested_at"]
    let operationId ← controlId (row.lookup "operation_id") "cancellation operation"
    let reason ← controlText (row.lookup "reason") "cancellation reason" 2000
    let requestedAt ← timestamp host (row.lookup "requested_at")
    .ok (some ⟨operationId, reason, requestedAt⟩)

def readOperation (value : Json) : Checked OperationReceipt := do
  let row ← requireJsonObject (some value) "request operation receipt"
  controlKeys row ["operation_id", "request_sha256", "result"]
  let operationId ← controlId (row.lookup "operation_id") "request operation"
  let requestSha256 ← controlDigest (row.lookup "request_sha256") "request operation digest"
  let result ← requireJsonObject (row.lookup "result") "request operation result"
  .ok ⟨operationId, requestSha256, result⟩

/-- The record starts with the declaration of the entry. -/
def keepsOriginal (revisions : List Revision) (original : Control) : Bool :=
  match revisions, original.revisions with
  | first :: _, declared :: _ =>
    sameJson host first.brief.toJson declared.brief.toJson &&
      decide (first.reason = declared.reason) && decide (first.createdAt = declared.createdAt)
  | _, _ => false

/-- At most the last effect is unsettled, and no two share their operation. -/
def reservationsOrdered (reservations : List Reservation) : Prop :=
  (reservations.filter fun reservation => reservation.terminal.isNone).length ≤ 1 ∧
    (reservations.dropLast.all fun reservation => reservation.terminal.isSome) ∧
    (reservations.map fun reservation => reservation.binding.lookup "operation_id").Nodup

instance (reservations : List Reservation) : Decidable (reservationsOrdered reservations) := by
  unfold reservationsOrdered
  infer_instance

def readControlFields (entry raw : Fields) (original : Control) : Checked Control := do
  controlKeys raw ["schema_version", "request_sha256", "revisions", "cancellation",
    "reservations", "operations"]
  ensure (raw.lookup "schema_version" = some (.string REQUEST_CONTROL_SCHEMA) ∧
      raw.lookup "request_sha256" = some (.string original.requestSha256))
    "request control source identity changed"
  let items ← boundedArray (raw.lookup "revisions") MAX_REVISIONS
  let revisions ← items.zipIdx.mapM fun (value, index) => readRevision host value index
  ensure (keepsOriginal host revisions original)
    "request control must preserve the original declaration"
  let items ← boundedArray (raw.lookup "reservations") MAX_RESERVATIONS
  let reservations ← items.zipIdx.mapM fun (value, index) =>
    readReservation host entry revisions value index
  ensure (!isConversation entry ∨ reservations = [])
    "original conversation requests cannot reserve Goal effects"
  ensure (reservationsOrdered reservations) "request has conflicting effect reservations"
  let cancellation ← readCancellation host (raw.lookup "cancellation")
  let items ← boundedArray (raw.lookup "operations") MAX_OPERATIONS
  let operations ← items.mapM readOperation
  ensure (operations.map OperationReceipt.operationId).Nodup
    "duplicate request operation receipt"
  .ok ⟨original.requestSha256, revisions, cancellation, reservations, operations⟩

def readRequestControl (entry : Fields) : Checked Control := do
  let original ← initial host entry
  match entry.lookup "request_control" with
  | none => .ok original
  | some value => do
    let raw ← requireJsonObject (some value) "request_control"
    readControlFields host entry raw original

def initializeControlledRequest (entry : Fields) : Checked Fields := do
  let state ← readRequestControl host entry
  ensure (recoverableRecordBytes entry state ≤ MAX_RECORD_BYTES)
    "request record capacity reached; preserve cancellation and terminal recovery space"
  .ok (withControl entry state)

/-! ## Operations -/

/-- What is known of the receiver's decision on a revision. An original receipt counts for the
first revision, and one that cannot be read leaves the decision unavailable. -/
def assessmentObservation (entry : Fields) (revision : Revision) (legacy : Json) :
    Option Assessment × Bool :=
  if revision.assessment.isSome ∨ revision.revision ≠ 1 ∨ legacy = .null then
    (revision.assessment, false)
  else
    let observed : Checked Assessment := do
      let row ← requireJsonObject (some legacy) "original receiver assessment"
      match receiverDecision (row.lookup "decision") with
      | none =>
        .error (invalidRequest "original receiver assessment conflicts with the request")
      | some decision => do
        ensure (sameRequest (some legacy) entry false)
          "original receiver assessment conflicts with the request"
        let reason ← controlText (row.lookup "reason") "original assessment reason" 2000
        let assessedAt ← timestamp host (row.lookup "decided_at")
        .ok ⟨decision, reason, assessedAt⟩
    match observed with
    | .ok value => (some value, false)
    | .error _ => (none, true)

/-- The read receipt of the first revision, and whether there is one that cannot be used. -/
def legacyReadAt (entry : Fields) (legacyRead : Json) : Option String × Bool :=
  match legacyRead with
  | .null => (none, false)
  | .object row =>
    if sameRequest (some legacyRead) entry false ∧
        row.lookup "kind" = some (.string "receiver_cli_read") then
      match row.lookup "read_at" with
      | some (.string readAt) => (some readAt, false)
      | _ => (none, true)
    else (none, true)
  | _ => (none, true)

/-- The older receipts a caller hands over. -/
structure LegacyReceipts where
  assessment : Json
  assessmentUnavailable : Bool
  read : Json
  readUnavailable : Bool

def legacyReceipts (source : Fields) : LegacyReceipts where
  assessment := orNull (source.lookup "legacy_assessment")
  assessmentUnavailable := source.lookup "legacy_assessment_unavailable" = some (.bool true)
  read := orNull (source.lookup "legacy_read")
  readUnavailable := source.lookup "legacy_read_unavailable" = some (.bool true)

def Reservation.requestRevision (reservation : Reservation) : Option Json :=
  reservation.binding.lookup "request_revision"

/-- The reserved effect works on an earlier revision. -/
def correctionPending (reservation : Reservation) (current : Nat) : Bool :=
  match positiveInteger reservation.requestRevision "request revision" with
  | .ok revision => decide (revision < current)
  | .error _ => false

def receiverInstruction (control : Control) (current : Revision) : String :=
  match control.active with
  | some active =>
    "Recover original effect " ++ jsString (orNull (active.binding.lookup "operation_id")) ++
      " before another effect for this request. " ++
      if control.cancellation.isSome ∨ correctionPending active current.revision then
        "The source control is pending its terminal receipt, not proof of no change."
      else "A timeout does not release the reservation."
  | none =>
    if control.cancellation.isSome then
      "This request is cancelled. Retain historical results and committed Goal changes; " ++
        "do not start new work for this request."
    else
      "Use request revision " ++ current.revision.repr ++ " and its exact digest for assessment " ++
        "and request-derived effects. Return results with request_revision=" ++
        current.revision.repr ++
        "; earlier observations remain bound to their original revisions. " ++
        "Request context grants no new Goal or execution permission."

def controlState (control : Control) : String :=
  match control.cancellation.isSome, control.active.isSome with
  | true, true => "cancellation_pending"
  | true, false => "cancelled"
  | false, true => "effect_pending"
  | false, false => "open"

def requestControlView (entry : Fields) (legacy : LegacyReceipts) : Checked Fields := do
  let state ← readRequestControl host entry
  match state.revisions.getLast? with
  | none => .error ⟨"request has no revision", "internal_failure"⟩
  | some current =>
    let observed := assessmentObservation host entry current legacy.assessment
    let legacyRead := if current.readAt.isNone ∧ current.revision = 1 then
        legacyReadAt entry legacy.read
      else (none, false)
    let readAt := current.readAt.or legacyRead.1
    let readUnavailable := current.readAt.isNone && decide (current.revision = 1) &&
      (legacyRead.2 || legacy.readUnavailable)
    let pending := state.cancellation.isSome ||
      state.active.any (fun active => correctionPending active current.revision)
    .ok ([("schema_version", .string REQUEST_CONTROL_SCHEMA),
      ("request_id", orNull (entry.lookup "request_id"))] ++
      (if isConversation entry then [("recipient", orNull (entry.lookup "recipient"))]
        else [("goal_ref", orNull (entry.lookup "goal_ref")),
          ("receiver_agent_id", orNull (entry.lookup "agent_id"))]) ++
      [("revision", natJson current.revision), ("control_version", natJson state.operations.length),
        ("revision_digest", .string (requestRevisionDigest host entry current)),
        ("brief", current.brief.toJson), ("reason", .string current.reason),
        ("read_at", optionJson readAt),
        ("read_readback", .string (if readAt.isSome then "recorded"
          else if readUnavailable then "unavailable" else "not_recorded")),
        ("assessment", (observed.1.map Assessment.toJson).getD .null),
        ("assessment_readback", .string (if observed.1.isSome then "recorded"
          else if current.revision = 1 ∧ (legacy.assessmentUnavailable ∨ observed.2) then
            "unavailable" else "not_recorded")),
        ("control_state", .string (controlState state)),
        ("cancellation", (state.cancellation.map Cancellation.toJson).getD .null),
        ("active_reservation", (state.active.map Reservation.toJson).getD .null),
        ("recovery_operation", if state.active.isNone then .null
          else .string (if pending then "abort_request" else "read_receipt")),
        ("receiver_instruction", .string (receiverInstruction state current)),
        ("terminal_effects", .array ((state.reservations.filter
          fun reservation => reservation.terminal.isSome).map Reservation.toJson)),
        ("execution_authority_granted", .bool false)])

/-- What a request of an operation means; its digest identifies the operation. -/
def requestIdentity (op : ControlOperation) (entry input source : Fields) : Json :=
  .object ([("input", .object input)] ++
    (if op = .settle then []
      else [("actor", orNull (source.lookup "actor")),
        ("actor_agent_id", orNull (source.lookup "actor_agent_id"))] ++
        if isConversation entry then
          [("actor_recipient", orNull (source.lookup "actor_recipient")),
            ("actor_requester", orNull (source.lookup "actor_requester"))]
        else []) ++
    (if op = .reserve then [("amendment", orNull (source.lookup "amendment"))] else []) ++
    if op = .settle then [("terminal", orNull (source.lookup "terminal"))] else [])

/-- The digest of an undefined member fails. -/
def checkIdentity (op : ControlOperation) (source : Fields) : Checked Unit :=
  ensure ((op = .settle ∨ (source.lookup "actor").isSome) ∧
      (op = .reserve → (source.lookup "amendment").isSome) ∧
      (op = .settle → (source.lookup "terminal").isSome))
    "value must be strict JSON"

def isReceiver (source : Fields) : Bool := decide (source.lookup "actor" = some (.string "receiver"))

def isSource (source : Fields) : Bool := decide (source.lookup "actor" = some (.string "source"))

/-- The source is the receiver of the entry, or its original sender. -/
def authenticate (entry source : Fields) : Checked Unit := do
  ensure (isSource source ∨ isReceiver source) "request actor is not authenticated"
  if isReceiver source then do
    let matched ← receiverMatches host entry source
    ensure matched "request receiver identity mismatch"
  else do
    ensure (if entry.lookup "source_kind" = some (.string "peer") then
        source.lookup "actor_agent_id" = entry.lookup "source_agent_id"
      else source.lookup "actor_agent_id" = some .null)
      "request source actor identity mismatch"
    ensure (!isConversation entry ∨ (orNull (source.lookup "actor_requester") ≠ .null ∧
        sameJson host (orNull (source.lookup "actor_requester")) (orNull (entry.lookup "requester"))))
      "original requester exact identity mismatch"

/-- The basis a caller names, checked against the retained revisions. -/
def requestedBasis (entry source : Fields) (state : Control) :
    Checked (Option (String × Nat × String)) :=
  match orNull (source.lookup "requested_basis") with
  | .null => .ok none
  | value => do
    let basis ← normalizeRequestBasis (some value)
    ensure ((revisionAt state.revisions basis.2.1).any (fun revision =>
        basis.2.2 = requestRevisionDigest host entry revision) ∧
        entry.lookup "request_id" = some (.string basis.1))
      "source request basis does not identify a retained revision"
    .ok (some basis)

/-- The caller names the latest revision. -/
def checkCurrent (entry input : Fields) (current : Revision) : Checked Unit :=
  throwWhen (¬(input.lookup "expected_revision" = some (natJson current.revision) ∧
      input.lookup "expected_digest" = some (.string (requestRevisionDigest host entry current))))
    ⟨"request basis changed; inspect the original request before retrying",
      "request_basis_changed"⟩

/-- Only the source corrects or cancels, and once. -/
def checkCorrection (source : Fields) (state : Control) : Checked Unit := do
  ensure (isSource source) "only the authenticated source may correct or cancel this request"
  ensure state.cancellation.isNone
    "request cancellation already recorded; recover its original operation"

def controlResult (op : ControlOperation) (state : Control) : Fields :=
  [("operation", .string op.text), ("revision", natJson state.revisions.length),
    ("reserved_effect_pending", .bool state.active.isSome)]

def revise (entry input source : Fields) (state : Control) (current : Revision) (now : String) :
    Checked (Control × Fields) := do
  checkCurrent host entry input current
  checkCorrection source state
  ensure (state.revisions.length < MAX_REVISIONS) "request revision capacity exceeded"
  let brief ← normalizeCollaborationBrief (input.lookup "brief")
  let reason ← controlText (input.lookup "reason") "correction reason" 2000
  let next := { state with
    revisions := state.revisions ++ [⟨current.revision + 1, brief, reason, now, none, none⟩] }
  .ok (next, controlResult .revise next)

def cancel (entry input source : Fields) (state : Control) (current : Revision)
    (operationId now : String) : Checked (Control × Fields) := do
  checkCurrent host entry input current
  checkCorrection source state
  let reason ← controlText (input.lookup "reason") "cancellation reason" 2000
  let next := { state with cancellation := some ⟨operationId, reason, now⟩ }
  .ok (next, controlResult .cancel next)

/-- The revision that the receiver observed, by its number. -/
def observedRevision (entry input source : Fields) (state : Control) : Checked Revision := do
  ensure (isReceiver source) "only this request receiver may record consumption"
  let number ← positiveInteger (input.lookup "revision") "observed revision"
  match revisionAt state.revisions number with
  | none => .error (invalidRequest "observed request revision identity mismatch")
  | some revision => do
    ensure (input.lookup "revision_digest" =
        some (.string (requestRevisionDigest host entry revision)))
      "observed request revision identity mismatch"
    .ok revision

def setRevision (state : Control) (revision : Revision) : Control :=
  { state with revisions := state.revisions.set (revision.revision - 1) revision }

def revisionResult (op : ControlOperation) (revision : Revision) : Fields :=
  [("operation", .string op.text), ("revision", natJson revision.revision)]

def readRequest (entry input source : Fields) (state : Control) (now : String) :
    Checked (Control × Fields) := do
  let revision ← observedRevision host entry input source state
  .ok (setRevision state { revision with readAt := some (revision.readAt.getD now) },
    revisionResult .read revision)

def assess (entry input source : Fields) (state : Control) (current : Revision) (now : String) :
    Checked (Control × Fields) := do
  let revision ← observedRevision host entry input source state
  ensure (revision.revision = current.revision ∧ state.cancellation.isNone)
    "a stale or cancelled request cannot receive a new assessment"
  ensure (!isConversation entry ∨ revision.readAt.isSome)
    "read this original conversation request revision before assessing it"
  match receiverDecision (input.lookup "decision") with
  | none => .error (invalidRequest "receiver decision is invalid")
  | some decision => do
    let reason ← controlText (input.lookup "reason") "assessment reason" 2000
    ensure revision.assessment.isNone
      "request revision already assessed; recover its original operation"
    .ok (setRevision state { revision with assessment := some ⟨decision, reason, now⟩ },
      revisionResult .assess revision)

/-- The source's amendment under the identity of the request. -/
def boundAmendment (entry amendment : Fields) (state : Control) (current : Revision) : Fields :=
  [("request_id", orNull (entry.lookup "request_id")),
    ("request_revision", natJson current.revision),
    ("request_digest", .string (requestRevisionDigest host entry current)),
    ("receiver_agent_id", orNull (entry.lookup "agent_id")),
    ("goal_ref", orNull (entry.lookup "goal_ref")),
    ("attempt_epoch", natJson (state.reservations.length + 1))].foldl
      (fun fields field => setKey fields field.1 field.2) amendment

def reserveResult (reservation : Reservation) : Fields :=
  [("operation", .string "reserve"), ("reservation", reservation.toJson)]

def reserve (entry input source : Fields) (state : Control) (current : Revision) :
    Checked (Control × Fields) := do
  checkCurrent host entry input current
  ensure (isReceiver source ∧ state.cancellation.isNone ∧ state.active.isNone)
    "request cannot reserve another effect"
  ensure ((assessmentObservation host entry current
        (legacyReceipts source).assessment).1.map Assessment.decision = some .adopt)
    "receiver must adopt this exact request revision before reserving an effect"
  ensure (state.reservations.length < MAX_RESERVATIONS) "request effect capacity exceeded"
  let amendment ← requireJsonObject (source.lookup "amendment") "source-resolved amendment"
  let bound ← amendmentBinding host
    (some (.object (boundAmendment host entry amendment state current))) entry state.revisions
    (state.reservations.length + 1)
  ensure ((state.reservations.map fun row => row.binding.lookup "operation_id").all
      fun operation => operation ≠ bound.lookup "operation_id")
    "effect operation already reserved; recover its original request receipt"
  let reservation : Reservation := ⟨bound, canonicalAuthoritySha256 host.sha (.object bound), none⟩
  .ok ({ state with reservations := state.reservations ++ [reservation] },
    reserveResult reservation)

def settle (input source : Fields) (state : Control) : Checked (Control × Fields) := do
  let picks := fun reservation : Reservation =>
    decide (input.lookup "reservation_digest" = some (.string reservation.digest))
  match state.reservations.find? picks with
  | none => .error (invalidRequest "original request reservation is unavailable")
  | some reserved => do
    let terminal ← requestTerminalSummary host (source.lookup "terminal") reserved
    ensure (reserved.terminal.all fun recorded =>
        sameJson host (.object recorded) (.object terminal))
      "request terminal result conflicts with its original Goal receipt"
    .ok ({ state with reservations := settleFirst picks terminal state.reservations },
      settleResult terminal)

/-- New work needs its receiver's Goal or conversation. -/
def checkActive (op : ControlOperation) (entry source : Fields) : Checked Unit :=
  ensure (op = .revise ∨ op = .assess ∨ op = .reserve →
      (if isConversation entry then source.lookup "recipient_active"
        else source.lookup "goal_active") = some (.bool true))
    "inactive Goal permits request cancellation and recovery, not new request work"

def applyOperation (op : ControlOperation) (entry input source : Fields) (state : Control)
    (current : Revision) (operationId now : String) : Checked (Control × Fields) :=
  match op with
  | .inspect => .error (invalidRequest "unsupported request control operation")
  | .revise => revise host entry input source state current now
  | .cancel => cancel host entry input source state current operationId now
  | .read => readRequest host entry input source state now
  | .assess => assess host entry input source state current now
  | .reserve => reserve host entry input source state current
  | .settle => settle host input source state

/-- Room is left for a cancellation and its terminal linkage. -/
def operationLimit : ControlOperation → Nat
  | .settle => MAX_OPERATIONS
  | .cancel => MAX_OPERATIONS - 1
  | _ => MAX_OPERATIONS - 2

def Control.record (control : Control) (receipt : OperationReceipt) : Control :=
  { control with operations := control.operations ++ [receipt] }

/-- The bytes an operation is admitted by. The receipt of a reservation is the reserved row itself,
so that the terminal supposed of the row stands in the receipt as well. -/
def recordBytes (op : ControlOperation) (entry : Fields) (state : Control)
    (receipt : OperationReceipt) : Nat :=
  match op, state.active with
  | .settle, _ => byteLength (.object (withControl entry (state.record receipt)))
  | .reserve, some reservation => recoverableRecordBytes entry (state.record { receipt with
      result := reserveResult { reservation with terminal := some (worstTerminal reservation) } })
  | _, _ => recoverableRecordBytes entry (state.record receipt)

structure ControlPlan where
  changed : Bool
  replayed : Bool
  result : Option Fields
  verifiedRequestBasis : Option (String × Nat × String)
  entry : Fields
  view : Fields

/-- An operation that the record does not hold yet. -/
def planNew (op : ControlOperation) (entry input source : Fields) (state : Control)
    (operationId requestSha : String) : Checked (Control × Fields) := do
  let now ← timestamp host (source.lookup "observed_at")
  match state.revisions.getLast? with
  | none => .error ⟨"request has no revision", "internal_failure"⟩
  | some current => do
    checkActive op entry source
    let (next, result) ← applyOperation host op entry input source state current operationId now
    ensure (state.operations.length < operationLimit op)
      "request operation capacity reached; preserve and recover existing operations"
    let receipt : OperationReceipt := ⟨operationId, requestSha, result⟩
    ensure (recordBytes op entry next receipt ≤ MAX_RECORD_BYTES)
      "request record capacity reached; preserve cancellation and terminal recovery space"
    let _ ← readRequestControl host (withControl entry (next.record receipt))
    .ok (next.record receipt, result)

/-- The operation an input names, with exactly the fields of that operation. -/
def controlOperation (entry input : Fields) : Checked ControlOperation :=
  match controlOperations.find? (fun op =>
      decide (op.text = ((input.lookup "operation").map jsString).getD "undefined")) with
  | none => .error (invalidRequest "unsupported request control operation")
  | some op => do
    ensure (!isConversation entry ∨ op ≠ .reserve ∧ op ≠ .settle)
      "original conversation requests cannot reserve Goal effects"
    controlKeys input
      (if op = .inspect then ["operation"] else ["operation", "operation_id"] ++ op.fields)
    .ok op

def planRequestControl (entry input source : Fields) : Checked ControlPlan := do
  let op ← controlOperation entry input
  let state ← readRequestControl host entry
  let basis ← requestedBasis host entry source state
  if op = .inspect then do
    let view ← requestControlView host entry (legacyReceipts source)
    .ok ⟨false, false, none, basis, entry, view⟩
  else do
    let operationId ← controlId (input.lookup "operation_id") "request operation_id"
    checkIdentity op source
    let requestSha := canonicalAuthoritySha256 host.sha (requestIdentity op entry input source)
    authenticate host entry source
    match state.operations.find? (fun row => decide (row.operationId = operationId)) with
    | some original => do
      throwWhen (original.requestSha256 ≠ requestSha)
        ⟨"request operation identity conflict", "request_operation_conflict"⟩
      let view ← requestControlView host entry (legacyReceipts source)
      .ok ⟨false, true, some original.result, none, entry, view⟩
    | none => do
      let (next, result) ← planNew host op entry input source state operationId requestSha
      let updated := withControl entry next
      let view ← requestControlView host updated (legacyReceipts source)
      .ok ⟨true, false, some result, none, updated, view⟩

/-! ## Receipts of the receiver's host -/

/-- The revision a host receipt names: the first one where it names none. -/
def namedRevision (entry params : Fields) (state : Control) (name : String) : Checked Revision := do
  let number ← positiveInteger
    (some (if orNull (params.lookup "revision") = .null then natJson 1
      else orNull (params.lookup "revision")))
    (name ++ " request revision")
  match revisionAt state.revisions number with
  | none => .error (invalidRequest (name ++ " request revision is unavailable"))
  | some revision => do
    ensure (if orNull (params.lookup "revision_digest") = .null then revision.revision = 1
        else params.lookup "revision_digest" =
          some (.string (requestRevisionDigest host entry revision)))
      "supplied request digest does not match its revision"
    .ok revision

def optionalField (key : String) (value : Option Json) : Fields :=
  (value.map fun v => (key, v)).toList

/-- The fields of a host receipt that speak for the receiver. -/
def receiverSource (params : Fields) : Fields :=
  [("actor", .string "receiver")] ++
    optionalField "actor_agent_id" (params.lookup "actor_agent_id") ++
    optionalField "actor_recipient" (params.lookup "actor_recipient") ++
    optionalField "observed_at" (params.lookup "observed_at") ++
    [("legacy_assessment", orNull (params.lookup "legacy_assessment")),
      ("legacy_assessment_unavailable",
        .bool (params.lookup "legacy_assessment_unavailable" = some (.bool true)))]

/-- The request that records what the inbox supplied. -/
def readInput (basis : String) (revision : Revision) : Fields :=
  [("operation", .string "read"), ("operation_id", .string ("read:" ++ basis)),
    ("revision", natJson revision.revision), ("revision_digest", .string basis)]

def recordControlledRequestRead (entry params : Fields) : Checked (ControlPlan × Fields) := do
  let state ← readRequestControl host entry
  let revision ← namedRevision host entry params state "supplied"
  let basis := requestRevisionDigest host entry revision
  let plan ← planRequestControl host entry (readInput basis revision) (receiverSource params)
  .ok (plan, [("supplied_revision", natJson revision.revision), ("revision_digest", .string basis),
    ("current_revision_at_record", natJson state.revisions.length),
    ("model_comprehension_verified", .bool false)])

def assessInput (basis : String) (revision : Revision) (decision : ReceiverDecision)
    (reason : String) : Fields :=
  [("operation", .string "assess"),
    ("operation_id", .string ("assess:" ++ canonicalAuthoritySha256 host.sha
      (.object [("basis", .string basis), ("decision", .string decision.text),
        ("reason", .string reason)]))),
    ("revision", natJson revision.revision), ("revision_digest", .string basis),
    ("decision", .string decision.text), ("reason", .string reason)]

def assessSource (params : Fields) : Fields :=
  receiverSource params ++ optionalField "recipient_active" (params.lookup "recipient_active") ++
    optionalField "goal_active" (params.lookup "goal_active") ++
    [("legacy_read", orNull (params.lookup "legacy_read")),
      ("legacy_read_unavailable",
        .bool (params.lookup "legacy_read_unavailable" = some (.bool true)))]

def recordControlledRequestAssessment (entry params : Fields) : Checked ControlPlan := do
  let state ← readRequestControl host entry
  let revision ← namedRevision host entry params state "assessed"
  let basis := requestRevisionDigest host entry revision
  let reason ← controlText (params.lookup "reason") "assessment reason" 2000
  match receiverDecision (params.lookup "decision") with
  | none => .error (invalidRequest "request assessment actor or decision is invalid")
  | some decision => do
    let matched ← receiverMatches host entry params
    ensure matched "request assessment actor or decision is invalid"
    match (assessmentObservation host entry revision
        (orNull (params.lookup "legacy_assessment"))).1 with
    | some recorded => do
      ensure (recorded.decision = decision ∧ recorded.reason = reason)
        "request revision already has a different assessment"
      let view ← requestControlView host entry (legacyReceipts params)
      .ok ⟨false, true, some [("revision", natJson revision.revision),
        ("decision", .string decision.text)], none, entry, view⟩
    | none =>
      planRequestControl host entry (assessInput host basis revision decision reason)
        (assessSource params)

end

end Loopx.Collaboration
