/- GID: Loopx/Goals/Direction
   generality: I
   source: loopx/control_plane/goals/direction_authority.ts
   digest: Configuring, disabling, offering and acknowledging the materials of a Goal. -/

import Loopx.Goals.DirectionUsage

set_option autoImplicit false
set_option relaxedAutoImplicit false

namespace Loopx.Goals.Direction

open Loopx.Lib.KeyedList
open Loopx.Lib.Fallible (throwWhen)
open Loopx.Json (JsNumber Protocol byteLength)
open Loopx.Authority (Sha256 canonicalAuthoritySha256)
open Loopx.Scheduler (jsString)

/-- What the operations take from outside: the digest, `Date.parse`, the patterns of private
text, the readiness of the source Goal, the identity check and the reader's own envelope. -/
structure DirectionHost where
  sha : Sha256
  dateParse : String → Option Int
  isPrivate : String → Bool
  ready : Fields → WireExactGoalRef → Bool
  validIdentity : String → Bool
  readable : String → String → String → Json → List Receipt → Bool

/-- `FIELDS`. -/
inductive DirectionOperation where
  | inspect | prepareConfigure | configure | disable | prepareRead | offerRead | acknowledge
  | receipt
deriving DecidableEq

namespace DirectionOperation

def text : DirectionOperation → String
  | inspect => "inspect"
  | prepareConfigure => "prepare_configure"
  | configure => "configure"
  | disable => "disable"
  | prepareRead => "prepare_read"
  | offerRead => "offer_read"
  | acknowledge => "acknowledge"
  | receipt => "receipt"

def all : List DirectionOperation :=
  [inspect, prepareConfigure, configure, disable, prepareRead, offerRead, acknowledge, receipt]

def fields : DirectionOperation → List String
  | inspect => []
  | prepareConfigure => ["expected_provider_revision"]
  | configure => ["materials", "expected_provider_revision"]
  | disable => ["expected_provider_revision"]
  | prepareRead => ["material_id", "required_revision", "authority_digest", "source_ref_sha256"]
  | offerRead => ["material_id", "required_revision", "authority_digest", "source_ref_sha256"]
  | acknowledge => ["read_operation_id", "delivery_digest"]
  | receipt => ["receipt_operation_id"]

def optional : DirectionOperation → List String
  | configure => ["runtime_root", "operation_id", "expected_authority_digest"]
  | _ => ["runtime_root", "operation_id"]

/-- Whether the operation only reads. -/
def readOnly : DirectionOperation → Bool
  | inspect | prepareConfigure | prepareRead | receipt => true
  | _ => false

end DirectionOperation

/-! ## What the operations record -/

structure Offer where
  goalRef : WireExactGoalRef
  agentId : String
  materialId : String
  authorityDigest : String
  requiredRevision : String
  sourceRefSha256 : String
  contentSha256 : String
  byteCount : Nat
  readOperationId : String
  usageCount : Nat
  /-- Absent from the offers of the version that fenced by count and generation. -/
  usageBasisSha256 : Option String
deriving DecidableEq

namespace Offer

def fields (offer : Offer) : Fields :=
  [("goal_ref", offer.goalRef.toJson), ("agent_id", .string offer.agentId),
    ("material_id", .string offer.materialId),
    ("authority_digest", .string offer.authorityDigest),
    ("required_revision", .string offer.requiredRevision),
    ("source_ref_sha256", .string offer.sourceRefSha256),
    ("content_sha256", .string offer.contentSha256),
    ("byte_count", .number (JsNumber.ofNat offer.byteCount)),
    ("read_operation_id", .string offer.readOperationId),
    ("usage_count", .number (JsNumber.ofNat offer.usageCount))] ++
    (offer.usageBasisSha256.map fun basis => ("usage_basis_sha256", Json.string basis)).toList

def deliveryDigest (offer : Offer) (sha : Sha256) : String :=
  canonicalAuthoritySha256 sha (.object offer.fields)

end Offer

/-- The result that a committed operation leaves in the journal. -/
inductive DirectionResult where
  | configured (goalRef : WireExactGoalRef) (changed : Bool) (authorityDigest : String)
  | disabled (goalRef : WireExactGoalRef) (changed : Bool) (authorityDigest : String)
  | unavailable (goalRef : WireExactGoalRef) (agentId : String) (receipt : Receipt)
      (archived : Option Json)
  | offered (goalRef : WireExactGoalRef) (agentId : String) (offer : Offer)
      (deliveryDigest : String)
  | acknowledged (goalRef : WireExactGoalRef) (agentId : String) (changed : Bool)
      (receipt : Receipt) (archived : Option Json)
deriving DecidableEq

/-- What the journal holds of an operation: a result of this authority, or another's. -/
inductive JournalEntry where
  | direction (result : DirectionResult)
  | other
deriving DecidableEq

structure DirectionState where
  head : Fields
  journal : List (String × JournalEntry)
deriving DecidableEq

/-! ## The request -/

structure DirectionRequest where
  fields : Fields
  operation : DirectionOperation
  goalRef : WireExactGoalRef
  source : Fields
  agents : List String
  actor : Option String
  now : String
  dryRun : Bool

def directionOperation (request : Fields) : Protocol DirectionOperation :=
  match DirectionOperation.all.find? fun op => request.lookup "operation" = some (.string op.text)
  with
  | some op => .ok op
  | none => .error "unsupported direction operation"

def dryRunFlag (value : Option Json) : Protocol Bool :=
  match value with
  | some (.bool b) => .ok b
  | _ => .error "direction dry_run must be boolean"

def agentItems (value : Option Json) : Protocol (List Json) :=
  match value with
  | some (.array items) =>
    if items.length ≤ 128 then .ok items else .error "source Agent registry unavailable"
  | _ => .error "source Agent registry unavailable"

def requestActor (value : Option Json) : Protocol (Option String) :=
  match value with
  | some .null => .ok none
  | value => do
    let agent ← token value "Agent"
    .ok (some agent)

/-- `String(request.observed_at)`. -/
def observedAt (request : Fields) : String :=
  match request.lookup "observed_at" with
  | some value => jsString value
  | none => "undefined"

variable (host : DirectionHost)

def directionRequest (value : Json) : Protocol DirectionRequest := do
  let request ← authorityFields (some value) "direction request"
  throwWhen (inputBytes < byteLength (.object request)) "direction request capacity exceeded"
  let operation ← directionOperation request
  directionKeys request (["operation", "goal_ref", "actor_agent_id", "source", "observed_at",
    "dry_run"] ++ operation.fields) operation.optional
  let goalRef ← parseWireExactGoalRef (request.lookup "goal_ref") "direction Goal"
  let source ← authorityFields (request.lookup "source") "source facts"
  throwWhen (¬host.validIdentity goalRef.goalId) "direction_input_invalid"
  let dryRun ← dryRunFlag (request.lookup "dry_run")
  let items ← agentItems (source.lookup "registered_agents")
  let agents ← items.mapM fun item => token (some item) "registered Agent"
  throwWhen (¬agents.Nodup) "source Agent identities are duplicated"
  let actor ← requestActor (request.lookup "actor_agent_id")
  throwWhen (¬actor.all fun agent => agents.contains agent) "direction actor is not registered"
  throwWhen ((host.dateParse (observedAt request)).isNone) "observation timestamp invalid"
  .ok ⟨request, operation, goalRef, source, agents, actor, observedAt request, dryRun⟩

/-! ## The operations -/

/-- What an operation hands on: the next projection and the result of its receipt. -/
abbrev Planned := Fields × DirectionResult

/-- The provider basis of a declaration. -/
def ownerBasis (request : DirectionRequest) (revision : String) : Protocol Unit := do
  throwWhen request.actor.isSome "direction declarations require the trusted Goal owner"
  throwWhen (request.fields.lookup "expected_provider_revision" ≠ some (.string revision))
    "direction provider basis changed; inspect and preview again"

def firstAgent (agents : List String) : Protocol String :=
  match agents with
  | agent :: _ => .ok agent
  | [] => .error "Register a local Agent before configuring a direction baseline"

def configure (request : DirectionRequest) (head : Fields) (revision : String) :
    Protocol Planned := do
  ownerBasis request revision
  let prior ← scope host.isPrivate host.sha head request.goalRef
  throwWhen (prior.isNone ∧ head.lookup "authority_registry" ≠ none)
    "canonical authority already belongs to another owner"
  let materials ← policyMaterials host.isPrivate (request.fields.lookup "materials")
  let agent ← firstAgent request.agents
  let rows ← usage host.dateParse head request.goalRef
  throwWhen (¬host.readable request.goalRef.goalId agent request.now (registryJson materials) rows)
    "direction declaration does not fit the existing reader envelope"
  let digest := authorityDigest host.sha request.goalRef (registryJson materials)
  throwWhen (¬(request.fields.lookup "expected_authority_digest").all (· = .string digest))
    "reviewed material declaration changed before apply"
  let configured : DirectionScope := ⟨true, digest, prior.bind (·.usageGeneration)⟩
  .ok (setKey (setKey head "authority_registry" (registryJson materials)) "goal_direction_scope"
      (configured.toJson request.goalRef),
    .configured request.goalRef
      (!prior.any fun prior => prior.enabled && decide (prior.authorityDigest = digest)) digest)

def configuredBefore (prior : Option DirectionScope) : Protocol DirectionScope :=
  match prior with
  | some prior => .ok prior
  | none => .error "direction baseline is not configured"

def DirectionScope.disabled (scope : DirectionScope) : DirectionScope :=
  { scope with enabled := false }

def disable (request : DirectionRequest) (head : Fields) (revision : String) :
    Protocol Planned := do
  ownerBasis request revision
  let stored ← scope host.isPrivate host.sha head request.goalRef
  let prior ← configuredBefore stored
  .ok (setKey head "goal_direction_scope" (prior.disabled.toJson request.goalRef),
    .disabled request.goalRef prior.enabled prior.authorityDigest)

/-- What a read is based on. -/
structure MaterialBasis where
  materialId : String
  revision : String
  sourceRefSha256 : String
  authorityDigest : String

def enabledScope (stored : Option DirectionScope) : Protocol DirectionScope :=
  match stored with
  | some scope => if scope.enabled then .ok scope else .error "direction baseline is disabled"
  | none => .error "direction baseline is disabled"

def stringField (value : Option Json) (error : String) : Protocol String :=
  match value with
  | some (.string s) => .ok s
  | _ => .error error

def readableBoundary (value : Option Json) : Bool :=
  value.any fun value => jsString value ∈ ["public", "public_safe", "local_private"]

def currentMaterial (head : Fields) (goalRef : WireExactGoalRef) (request : Fields) :
    Protocol MaterialBasis := do
  let stored ← scope host.isPrivate host.sha head goalRef
  let configured ← enabledScope stored
  throwWhen (request.lookup "authority_digest" ≠ some (.string configured.authorityDigest))
    "direction authority changed; inspect the current basis"
  let registry ← authorityFields (head.lookup "authority_registry") "authority registry"
  let materials ← authorityFields (registry.lookup "project_materials") "materials"
  let id ← token (request.lookup "material_id") "material_id"
  let item ← authorityFields (materials.lookup id) "registered material"
  let revision ← stringField (item.lookup "revision")
    "material read differs from the registered source/revision"
  let source ← stringField (item.lookup "source_ref_sha256")
    "material read differs from the registered source/revision"
  throwWhen (request.lookup "required_revision" ≠ some (.string revision) ∨
      request.lookup "source_ref_sha256" ≠ some (.string source))
    "material read differs from the registered source/revision"
  throwWhen (¬(item.lookup "owner_status" = some (.string "reviewed") ∧
      item.lookup "conflict_rule" = some (.string "owner_wins") ∧
      item.lookup "freshness" = some (.string "current") ∧
      item.lookup "gate_status" = some (.string "readable") ∧
      readableBoundary (item.lookup "boundary") = true))
    "material authority does not permit this read"
  .ok ⟨id, revision, source, configured.authorityDigest⟩

def actingAgent (actor : Option String) (error : String) : Protocol String :=
  match actor with
  | some agent => .ok agent
  | none => .error error

/-- `slice(0, count)`. -/
def sliced (s : String) (count : Nat) : String := String.ofList (s.toList.take count)

def unavailableReceiptId (goalRef : WireExactGoalRef) (operationId : String) : String :=
  "unavailable:" ++ sliced (canonicalAuthoritySha256 host.sha
    (.object [("goal_ref", goalRef.toJson), ("operation_id", .string operationId)])) 32

def offerUnavailable (request : DirectionRequest) (head : Fields) (agent operationId : String)
    (basis : MaterialBasis) (observation : Fields) : Protocol Planned := do
  directionKeys observation ["available"] []
  let rows ← usage host.dateParse head request.goalRef
  let recorded ← usageRecordedAt host.dateParse rows request.now
  let receipt : Receipt := ⟨unavailableReceiptId host request.goalRef operationId, agent,
    basis.materialId, none, recorded⟩
  let digest := canonicalAuthoritySha256 host.sha (.object [("goal_ref", request.goalRef.toJson),
    ("agent_id", .string agent), ("operation_id", .string operationId),
    ("available", .bool false)])
  let retained ← retainUsage host.dateParse host.isPrivate host.sha head request.goalRef
    ⟨receipt, operationId, digest⟩
  .ok (retained.1, .unavailable request.goalRef agent receipt retained.2)

def byteCount (value : Option Json) : Protocol Nat :=
  match value with
  | some (.number n) =>
    match n.safeInteger? with
    | some i =>
      if 0 < i ∧ i ≤ 256000 then .ok i.toNat else .error "material byte budget exceeded"
    | none => .error "material byte budget exceeded"
  | _ => .error "material byte budget exceeded"

def offerAvailable (request : DirectionRequest) (head : Fields) (agent operationId : String)
    (basis : MaterialBasis) (observation : Fields) : Protocol Planned := do
  directionKeys observation ["revision", "source_ref_sha256", "byte_count", "content_sha256"] []
  throwWhen (observation.lookup "revision" ≠ some (.string basis.revision) ∨
      observation.lookup "source_ref_sha256" ≠ some (.string basis.sourceRefSha256))
    "actual read did not match the required material revision"
  let content ← hash (observation.lookup "content_sha256")
  throwWhen (basis.revision ≠ "sha256:" ++ content)
    "actual read did not match the required material revision"
  let bytes ← byteCount (observation.lookup "byte_count")
  let rows ← usage host.dateParse head request.goalRef
  let offer : Offer := ⟨request.goalRef, agent, basis.materialId, basis.authorityDigest,
    basis.revision, basis.sourceRefSha256, content, bytes, operationId,
    (pairRows rows agent basis.materialId).length,
    some (usageBasis host.sha request.goalRef rows agent basis.materialId)⟩
  .ok (head, .offered request.goalRef agent offer (offer.deliveryDigest host.sha))

def offerRead (request : DirectionRequest) (head : Fields) (operationId : String) :
    Protocol Planned := do
  let agent ← actingAgent request.actor "material reading requires its registered Agent"
  let basis ← currentMaterial host head request.goalRef request.fields
  let observation ← authorityFields (request.source.lookup "material_observation")
    "actual material read"
  if observation.lookup "available" = some (.bool false) then
    offerUnavailable host request head agent operationId basis observation
  else offerAvailable host request head agent operationId basis observation

/-- The offer that a read operation left, with its delivery digest. -/
def originalOffer (journal : List (String × JournalEntry)) (readId : String) :
    Protocol (Offer × String) :=
  match journal.lookup readId with
  | some (.direction (.offered _ _ offer digest)) => .ok (offer, digest)
  | some (.direction _) => .error "original read offer must be an object"
  | _ => .error "original material read offer is unavailable"

def readReceiptId (goalRef : WireExactGoalRef) (agent readId : String) : String :=
  "read_" ++ sliced (host.sha.hex (canonicalAuthoritySha256 host.sha (.object
    [("goal_ref", goalRef.toJson), ("agent_id", .string agent),
      ("read_operation_id", .string readId)])).toByteArray) 24

/-- Whether no observation of the pair was recorded since the offer, by the offer's own fence. -/
def offerStands (head : Fields) (goalRef : WireExactGoalRef) (rows : List Receipt)
    (offer : Offer) : Protocol Bool :=
  match offer.usageBasisSha256 with
  | none => do
    let stored ← scope host.isPrivate host.sha head goalRef
    .ok (decide ((stored.map DirectionScope.generation).getD 0 = 0) &&
      decide ((pairRows rows offer.agentId offer.materialId).length = offer.usageCount))
  | some basis => do
    let basis ← hash (some (.string basis))
    .ok (decide (basis = usageBasis host.sha goalRef rows offer.agentId offer.materialId))

/-- The acknowledgement of an offer that was not recorded yet. -/
def recordRead (request : DirectionRequest) (head : Fields) (offer : Offer)
    (receiptId digest : String) (rows : List Receipt) : Protocol Planned := do
  let stands ← offerStands host head request.goalRef rows offer
  throwWhen (¬stands)
    "a later material observation invalidated this unacknowledged offer; read the source again"
  let recorded ← usageRecordedAt host.dateParse rows request.now
  let receipt : Receipt := ⟨receiptId, offer.agentId, offer.materialId,
    some offer.requiredRevision, recorded⟩
  let retained ← retainUsage host.dateParse host.isPrivate host.sha head request.goalRef
    ⟨receipt, offer.readOperationId, digest⟩
  .ok (retained.1, .acknowledged request.goalRef offer.agentId true receipt retained.2)

def acknowledge (request : DirectionRequest) (state : DirectionState) : Protocol Planned := do
  let agent ← actingAgent request.actor "material acknowledgement requires its registered Agent"
  let readId ← token (request.fields.lookup "read_operation_id") "read operation"
  let original ← originalOffer state.journal readId
  throwWhen (¬(sameExactGoalRef original.1.goalRef request.goalRef ∧ original.1.agentId = agent ∧
      original.1.readOperationId = readId))
    "read offer belongs to a different Goal/Agent/operation"
  let delivered ← hash (request.fields.lookup "delivery_digest")
  throwWhen (¬(original.2 = delivered ∧ original.2 = original.1.deliveryDigest host.sha))
    "read delivery acknowledgement differs from original offer"
  let _ ← currentMaterial host state.head request.goalRef original.1.fields
  let rows ← usage host.dateParse state.head request.goalRef
  let receiptId := readReceiptId host request.goalRef agent readId
  match rows.find? fun row => row.receiptId = receiptId with
  | some existing =>
    .ok (state.head, .acknowledged request.goalRef agent false existing none)
  | none => recordRead host request state.head original.1 receiptId original.2 rows

/-! ## One call -/

/-- A request with the answers of `sourceCurrent` before the head is read and before the commit. -/
structure DirectionCall where
  request : Json
  sourceBefore : Bool
  sourceAfter : Bool
deriving DecidableEq

/-- What a call hands to the store: its operation, the next projection and its result. -/
structure DirectionCommit where
  operationId : String
  next : Fields
  result : DirectionResult
deriving DecidableEq

def lifecycleAdmits (lifecycle : Option GoalAcceptanceLifecycle) (goalRef : WireExactGoalRef) :
    Bool :=
  lifecycle.all fun lifecycle =>
    decide (lifecycle.state = .active) && sameExactGoalRef lifecycle.goalRef goalRef

def planOperation (request : DirectionRequest) (operationId : String) (state : DirectionState)
    (revision : String) : Protocol Planned :=
  match request.operation with
  | .configure => configure host request state.head revision
  | .disable => disable host request state.head revision
  | .offerRead => offerRead host request state.head operationId
  | _ => acknowledge host request state

/-- The combined input of the projection. -/
def projectionInput (request : DirectionRequest) (next : Fields) (rows : List Receipt) : Json :=
  .object ([("goal_id", .string request.goalRef.goalId),
    ("agent_id", .string (String.ofList (List.replicate 128 'a'))),
    ("generated_at", .string request.now)] ++
    ((next.lookup "authority_registry").map fun value => ("authority_registry", value)).toList ++
    [("receipts", .array (rows.map fun row => row.toJson request.goalRef)),
      ("available_boundaries", .array [.string "local_private"])])

/-- The commit of a mutating request over a head, `none` for a dry run. -/
def admittedCommit (call : DirectionCall) (request : DirectionRequest) (operationId : String)
    (state : DirectionState) (revision : String) : Protocol (Option DirectionCommit) := do
  throwWhen (¬call.sourceBefore) "source Goal changed before direction operation"
  throwWhen (¬host.ready request.source request.goalRef)
    "Goal lifetime does not admit direction operation"
  throwWhen (request.operation ≠ .disable ∧
      request.source.lookup "legacy_authority_present" ≠ some (.bool false))
    "existing registry authority needs an explicit owner migration; refusing a second authority"
  let lifecycle ← readGoalAcceptanceLifecycle state.head request.goalRef.goalId
  throwWhen (¬lifecycleAdmits lifecycle request.goalRef)
    "canonical Goal lifetime retired or changed"
  let planned ← planOperation host request operationId state revision
  throwWhen (¬call.sourceAfter) "source Goal changed before direction commit"
  let rows ← usage host.dateParse planned.1 request.goalRef
  throwWhen (inputBytes < byteLength (projectionInput request planned.1 rows))
    "combined direction authority and usage capacity exceeded"
  if request.dryRun then .ok none else .ok (some ⟨operationId, planned.1, planned.2⟩)

/-- The commit that a call hands to the store over a head it observed under a revision. A reading
operation and the replay of an operation that the journal knows hand over nothing. -/
def executeDirectionOperation (call : DirectionCall) (state : DirectionState)
    (revision : String) : Protocol (Option DirectionCommit) := do
  let request ← directionRequest host call.request
  if request.operation.readOnly then .ok none
  else do
    let operationId ← token (request.fields.lookup "operation_id") "operation id"
    if (state.journal.lookup operationId).isSome then .ok none
    else admittedCommit host call request operationId state revision

end Loopx.Goals.Direction
