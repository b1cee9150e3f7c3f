/- GID: Loopx/Scheduler/HeartbeatCommit
   generality: I
   source: loopx/control_plane/scheduler/heartbeat_commit.ts
   digest: The commit kernel: request decoding, digests, state builders and the locked commit. -/

import Loopx.Scheduler.Transition
import Mathlib.Data.List.Sort

set_option autoImplicit false
set_option relaxedAutoImplicit false

namespace Loopx.Scheduler

open Loopx.Json (JsNumber fromEntries stringify)
open Loopx.Authority (Sha256 trim)
open Loopx.Lib.KeyedList

/-- The code units of a string. -/
def utf16Units (s : String) : List Nat :=
  s.toList.flatMap (fun c =>
    if c.toNat < 0x10000 then [c.toNat]
    else [0xd800 + (c.toNat - 0x10000) / 0x400, 0xdc00 + (c.toNat - 0x10000) % 0x400])

/-- `left < right` on strings. -/
def jsLess (left right : String) : Bool := decide (utf16Units left < utf16Units right)

def sortFields (fields : List (String × Json)) : List (String × Json) :=
  fields.insertionSort (fun a b => jsLess b.1 a.1 = false)

mutual

def stableValue : Json → Json
  | .array items => .array (stableItems items)
  | .object fields => .object (fromEntries (sortFields (stableFields fields)))
  | value => value

def stableItems : List Json → List Json
  | [] => []
  | item :: rest => stableValue item :: stableItems rest

def stableFields : List (String × Json) → List (String × Json)
  | [] => []
  | (name, value) :: rest => (name, stableValue value) :: stableFields rest

end

def canonicalJson (value : Json) : String := stringify (stableValue value)

def sha256Text (sha : Sha256) (s : String) : String := "sha256:" ++ sha.hex s.toByteArray

/-- The state without the receipt of the commit that wrote it. -/
def domainState (state : SchedulerState) : Json :=
  .object (state.fields.filter (fun field => field.1 ≠ "heartbeat_commit"))

def schedulerHeartbeatCommitStateDigest (sha : Sha256) (state : Option SchedulerState) :
    Option String :=
  state.map (fun state => sha256Text sha (canonicalJson (domainState state)))

inductive CommitOperation where
  | ack
  | hostFailure
deriving DecidableEq

def CommitOperation.text : CommitOperation → String
  | .ack => "ack"
  | .hostFailure => "host_failure"

structure CommitRequest where
  operation : CommitOperation
  effectId : String
  runtimeRoot : String
  scope : SchedulerScope
  resetToken : String
  identitySignature : String
  progressionIndex : Nat
  progressionMinutes : List Int
  expectedRrule : String
  appliedRrule : String
  cadenceClass : String
  staleToleranceMinutes : Int
  generatedAt : String
  expectedStateDigest : Option String
  execute : Bool
  ackNeeded : Option Bool
  applyNeeded : Option Bool
  source : String
  hostMatchObserved : Bool
  failureKind : Option String
  observedHostRrule : String
  priorHostUpdateFailures : List HostUpdateFailure
deriving DecidableEq

/-- Thrown request errors carry their text. -/
abbrev Decoding := Except String

def requiredString (value : Option Json) (label : String) : Decoding String :=
  match value with
  | some (.string s) =>
    if trim s = "" then .error (label ++ " must be a non-empty string") else .ok s
  | _ => .error (label ++ " must be a non-empty string")

def requiredInteger (value : Option Json) (label : String) : Decoding Int :=
  match value with
  | some (.number n) =>
    match n.toInt? with
    | some i => .ok i
    | none => .error (label ++ " must be an integer")
  | _ => .error (label ++ " must be an integer")

def requiredBoolean (value : Option Json) (label : String) : Decoding Bool :=
  match value with
  | some (.bool b) => .ok b
  | _ => .error (label ++ " must be a boolean")

/-- `value ?? fallback`. -/
def orElse (value fallback : Option Json) : Option Json :=
  match value with
  | none | some .null => fallback
  | some value => some value

/-- `value === undefined || value === null || value === ""`. -/
def isBlank (value : Option Json) : Bool :=
  match value with
  | none | some .null | some (.string "") => true
  | _ => false

def trimmedString (value : Option Json) (label : String) : Decoding String := do
  let s ← requiredString value label
  .ok (trim s)

def textOrDefault (value : Option Json) (label defaultValue : String) : Decoding String :=
  if isBlank value then .ok defaultValue else trimmedString value label

def optionalBoolean (value : Option Json) (label : String) : Decoding (Option Bool) :=
  match value with
  | none | some .null => .ok none
  | some value => do
    let b ← requiredBoolean (some value) label
    .ok (some b)

/-- A Boolean with a default for a missing field only. -/
def booleanOr (value : Option Json) (label : String) (fallback : Bool) : Decoding Bool :=
  match value with
  | none => .ok fallback
  | some value => requiredBoolean (some value) label

def optionalText (value : Option Json) (label : String) : Decoding (Option String) :=
  if isBlank value then .ok none
  else do
    let s ← trimmedString value label
    .ok (some s)

def requiredPositives (label : String) : Nat → List Json → Decoding (List Int)
  | _, [] => .ok []
  | index, item :: rest => do
    let n ← requiredInteger (some item) (label ++ "[" ++ toString index ++ "]")
    if n ≤ 0 then .error (label ++ " must be a non-empty array of positive integers")
    else
      let ns ← requiredPositives label (index + 1) rest
      .ok (n :: ns)

def requiredPositiveList (value : Option Json) (label : String) : Decoding (List Int) :=
  match value with
  | some (.array (item :: rest)) => requiredPositives label 0 (item :: rest)
  | _ => .error (label ++ " must be a non-empty array of positive integers")

def requiredFailures : Nat → List Json → Decoding (List HostUpdateFailure)
  | _, [] => .ok []
  | index, item :: rest =>
    match normalizeSchedulerHostUpdateFailure (some item) with
    | none => .error ("prior_host_update_failures[" ++ toString index ++ "] is malformed")
    | some failure => do
      let failures ← requiredFailures (index + 1) rest
      .ok (failure :: failures)

def optionalFailureList (value : Option Json) : Decoding (List HostUpdateFailure) :=
  match value with
  | none | some .null => .ok []
  | some (.array items) => do
    let failures ← requiredFailures 0 items
    .ok (normalizeSchedulerHostUpdateFailures (some (failuresJson failures)) none)
  | some _ => .error "prior_host_update_failures must be an array"

def decodeOperation (value : Option Json) : Decoding CommitOperation := do
  let operation ← requiredString value "scheduler heartbeat commit operation"
  if operation = "ack" then .ok .ack
  else if operation = "host_failure" then .ok .hostFailure
  else .error "Scheduler heartbeat commit operation is unsupported"

def SCHEDULER_HEARTBEAT_COMMIT_REQUEST_SCHEMA : String :=
  "loopx_scheduler_heartbeat_commit_request_v0"

def SCHEDULER_ACK_STALE_HINT_TOLERANCE_MINUTES : Int := 2

def decodeTolerance (value : Option Json) : Decoding Int := do
  let tolerance ← match value with
    | none => .ok SCHEDULER_ACK_STALE_HINT_TOLERANCE_MINUTES
    | some value => requiredInteger (some value) "stale_tolerance_minutes"
  if tolerance < 0 then .error "stale_tolerance_minutes must not be negative" else .ok tolerance

def defaultSource : CommitOperation → String
  | .hostFailure => "quota_scheduler_host_update_failure"
  | .ack => "quota_scheduler_ack"

def requestObject (request : List (String × Json)) : Decoding CommitRequest := do
  if request.lookup "schema_version" ≠
      some (.string SCHEDULER_HEARTBEAT_COMMIT_REQUEST_SCHEMA) then
    .error "Scheduler heartbeat commit request schema mismatch"
  else
    let operation ← decodeOperation (request.lookup "operation")
    let effectId ← trimmedString (request.lookup "effect_id") "effect_id"
    let runtimeRoot ← trimmedString (request.lookup "runtime_root") "runtime_root"
    let goalId ← trimmedString (request.lookup "goal_id") "goal_id"
    let agentId ← trimmedString (request.lookup "agent_id") "agent_id"
    let surface ← textOrDefault (request.lookup "surface") "surface" CODEX_APP_SURFACE
    let stateKey ← textOrDefault (request.lookup "state_key") "state_key"
      CODEX_APP_STATEFUL_BACKOFF_STATE_KEY
    let resetToken ← trimmedString (request.lookup "reset_token") "reset_token"
    let identitySignature ←
      trimmedString (request.lookup "identity_signature") "identity_signature"
    let index ← requiredInteger (request.lookup "progression_index") "progression_index"
    let minutes ←
      requiredPositiveList (request.lookup "progression_minutes") "progression_minutes"
    if index < 0 ∨ (minutes.length : Int) ≤ index then
      .error "progression_index must refer to progression_minutes"
    else
      let generatedAt ← trimmedString (request.lookup "generated_at") "generated_at"
      let execute ← booleanOr (request.lookup "execute") "execute" true
      let ackNeeded ← optionalBoolean (request.lookup "ack_needed") "ack_needed"
      let hostMatchObserved ←
        booleanOr (request.lookup "host_match_observed") "host_match_observed" false
      let source ← textOrDefault (request.lookup "source") "source" (defaultSource operation)
      let tolerance ← decodeTolerance (request.lookup "stale_tolerance_minutes")
      let derivedRrule := rruleForMinutes (minutesAt minutes index.toNat)
      let expectedRrule := normalizeSchedulerRrule (orElse (request.lookup "expected_rrule")
        (orElse (request.lookup "target_rrule") (some (.string derivedRrule))))
      if expectedRrule = "" then .error "expected_rrule must not be empty"
      else
        let appliedRrule := normalizeSchedulerRrule (orElse (request.lookup "applied_rrule")
          (orElse (request.lookup "acknowledged_rrule") (some (.string ""))))
        let observedHostRrule := normalizeSchedulerRrule
          (orElse (request.lookup "observed_host_rrule")
            (orElse (request.lookup "observed_rrule") (some (.string ""))))
        let cadenceClass ←
          textOrDefault (request.lookup "cadence_class") "cadence_class" "default"
        let failureKind ← optionalText (request.lookup "failure_kind") "failure_kind"
        let prior ← optionalFailureList (request.lookup "prior_host_update_failures")
        let expectedStateDigest ←
          optionalText (request.lookup "expected_state_digest") "expected_state_digest"
        let applyNeeded ← optionalBoolean (request.lookup "apply_needed") "apply_needed"
        .ok ⟨operation, effectId, runtimeRoot, ⟨goalId, agentId, surface, stateKey⟩, resetToken,
          identitySignature, index.toNat, minutes, expectedRrule, appliedRrule, cadenceClass,
          tolerance, generatedAt, expectedStateDigest, execute, ackNeeded, applyNeeded, source,
          hostMatchObserved, failureKind, observedHostRrule, prior⟩

def optionalJson (value : Option Bool) : Json := (value.map Json.bool).getD .null

/-- What a request means; clock, CAS and execute mode are left out. -/
def semanticFacts (request : CommitRequest) : Json :=
  .object ([("schema_version", .string SCHEDULER_HEARTBEAT_COMMIT_REQUEST_SCHEMA),
    ("operation", .string request.operation.text), ("runtime_root", .string request.runtimeRoot),
    ("goal_id", .string request.scope.goalId), ("agent_id", .string request.scope.agentId),
    ("surface", .string request.scope.surface), ("state_key", .string request.scope.stateKey),
    ("reset_token", .string request.resetToken),
    ("identity_signature", .string request.identitySignature),
    ("progression_index", intJson request.progressionIndex),
    ("progression_minutes", .array (request.progressionMinutes.map intJson)),
    ("expected_rrule", .string request.expectedRrule),
    ("applied_rrule", .string request.appliedRrule),
    ("cadence_class", .string request.cadenceClass),
    ("stale_tolerance_minutes", intJson request.staleToleranceMinutes),
    ("ack_needed", optionalJson request.ackNeeded),
    ("apply_needed", optionalJson request.applyNeeded), ("source", .string request.source),
    ("host_match_observed", .bool request.hostMatchObserved),
    ("failure_kind", (request.failureKind.map Json.string).getD .null),
    ("observed_host_rrule", .string request.observedHostRrule)] ++
    if request.operation = .hostFailure then
      [("prior_host_update_failures", failuresJson request.priorHostUpdateFailures)] else [])

def requestDigest (sha : Sha256) (request : CommitRequest) : String :=
  sha256Text sha (canonicalJson (semanticFacts request))

/-- The default idempotency key. -/
def schedulerHeartbeatOperationId (sha : Sha256) (request : CommitRequest) : String :=
  "scheduler-heartbeat:" ++ String.ofList ((requestDigest sha request).toList.drop 7)

def SCHEDULER_HEARTBEAT_COMMIT_RECEIPT_SCHEMA : String := "scheduler_heartbeat_commit_receipt_v0"

structure CommitMetadata where
  effectId : String
  requestDigest : String
  operation : CommitOperation
deriving DecidableEq

def CommitMetadata.toJson (metadata : CommitMetadata) : Json :=
  .object [("schema_version", .string SCHEDULER_HEARTBEAT_COMMIT_RECEIPT_SCHEMA),
    ("effect_id", .string metadata.effectId), ("request_digest", .string metadata.requestDigest),
    ("operation", .string metadata.operation.text)]

def decodeMetadata (value : Option Json) : Option CommitMetadata :=
  match value with
  | some (.object metadata) =>
    if metadata.lookup "schema_version" ≠
        some (.string SCHEDULER_HEARTBEAT_COMMIT_RECEIPT_SCHEMA) then none
    else
      match metadata.lookup "effect_id", metadata.lookup "request_digest",
          metadata.lookup "operation" with
      | some (.string effectId), some (.string digest), some (.string operation) =>
        if operation = "ack" then some ⟨effectId, digest, .ack⟩
        else if operation = "host_failure" then some ⟨effectId, digest, .hostFailure⟩
        else none
      | _, _, _ => none
  | _ => none

def commitMetadata (state : Option SchedulerState) : Option CommitMetadata :=
  state.bind (fun state => decodeMetadata (state.others.lookup "heartbeat_commit"))

def withCommitMetadata (state : SchedulerState) (request : CommitRequest) (digest : String) :
    SchedulerState :=
  let metadata := CommitMetadata.toJson ⟨request.effectId, digest, request.operation⟩
  { state with others := setKey state.others "heartbeat_commit" metadata }

inductive CommitStatus where
  | written
  | replayed
  | conflict
  | skipped
  | preview
deriving DecidableEq

structure CommitResult where
  status : CommitStatus
  state : Option SchedulerState
  reason : String
  reasonCode : Option String
deriving DecidableEq

def conflictResult (state : Option SchedulerState) (reason reasonCode : String) : CommitResult :=
  ⟨.conflict, state, reason, some reasonCode⟩

def priorFailuresForRequest (request : CommitRequest) (existing : Option SchedulerState) :
    List HostUpdateFailure :=
  match existing with
  | some existing => normalizeSchedulerHostUpdateFailures (existing.fields.lookup
      "host_update_failures") (existing.fields.lookup "host_update_failure")
  | none => request.priorHostUpdateFailures

/-- `existing.reset_token === request.reset_token && ...`. -/
def identityEqual (request : CommitRequest) (existing : SchedulerState) : Bool :=
  existing.resetToken = request.resetToken && existing.identitySignature = request.identitySignature

/-- The state a stale monitor ACK is measured against. -/
def syntheticState (request : CommitRequest) (existing : Option SchedulerState) :
    List (String × Json) :=
  [("progression_index", intJson request.progressionIndex),
    ("progression_minutes", .array (request.progressionMinutes.map intJson)),
    ("last_applied_rrule", .string request.appliedRrule),
    ("reset_token", .string request.resetToken),
    ("identity_signature", .string request.identitySignature),
    ("updated_at", .string request.generatedAt)].foldl (fun fields field =>
      setKey fields field.1 field.2) ((existing.map SchedulerState.fields).getD [])

/-- Requests that `requestObject` lets through have such progressions. -/
structure CommitRequest.Valid (request : CommitRequest) : Prop where
  index : request.progressionIndex < request.progressionMinutes.length
  positive : ∀ minutes ∈ request.progressionMinutes, 0 < minutes

def staleBackoff (clock : HostClock) (request : CommitRequest) (existing : Option SchedulerState)
    (valid : request.Valid) : BackoffResult :=
  evaluateBackoff clock
    ⟨request.progressionMinutes, by
      intro h
      have := valid.index
      simp [h] at this,
      valid.positive, request.resetToken, request.identitySignature, request.generatedAt,
      some (.string ""), request.cadenceClass, request.staleToleranceMinutes, true⟩
    (syntheticState request existing)

instance (request : CommitRequest) : Decidable request.Valid :=
  decidable_of_iff (request.progressionIndex < request.progressionMinutes.length ∧
      ∀ minutes ∈ request.progressionMinutes, 0 < minutes)
    ⟨fun h => ⟨h.1, h.2⟩, fun h => ⟨h.1, h.2⟩⟩

def transitionAllowsStaleAck (clock : HostClock) (request : CommitRequest)
    (existing : Option SchedulerState) : Bool :=
  if request.cadenceClass ≠ "monitor_wait" then false
  else
    match schedulerRruleIntervalMinutes (some (.string request.appliedRrule)),
        schedulerRruleIntervalMinutes (some (.string request.expectedRrule)) with
    | some appliedMinutes, some expectedMinutes =>
      if appliedMinutes < expectedMinutes ∨
          request.staleToleranceMinutes < appliedMinutes - expectedMinutes then false
      else if valid : request.Valid then
        let transition := staleBackoff clock request existing valid
        if transition.currentRrule ≠ request.expectedRrule ∨
            transition.currentRruleAlreadyApplied = false then false
        else existing.all (identityEqual request)
      else false
    | _, _ => false

def isStaleMonitorAck (request : CommitRequest) : Bool :=
  request.operation = .ack && request.cadenceClass = "monitor_wait" &&
    request.appliedRrule ≠ request.expectedRrule

/-- What a builder comes to: a refusal, the next state, or a thrown error. -/
inductive Built where
  | refused (result : CommitResult)
  | state (state : SchedulerState)
  | thrown (message : String)
deriving DecidableEq

def MISSING_FIELDS : String := "scheduler state is missing required persisted-state fields"

/-- The parameters that both builders share. -/
def stateParams (request : CommitRequest) (lastAppliedRrule : String) : List (String × Json) :=
  [("goal_id", .string request.scope.goalId), ("agent_id", .string request.scope.agentId),
    ("surface", .string request.scope.surface), ("state_key", .string request.scope.stateKey),
    ("reset_token", .string request.resetToken),
    ("identity_signature", .string request.identitySignature),
    ("progression_index", intJson request.progressionIndex),
    ("progression_minutes", .array (request.progressionMinutes.map intJson)),
    ("last_applied_rrule", .string lastAppliedRrule),
    ("updated_at", .string request.generatedAt), ("source", .string request.source)]

def derivedRrule (request : CommitRequest) : String :=
  rruleForMinutes (minutesAt request.progressionMinutes request.progressionIndex)

def ackFailures (clock : HostClock) (request : CommitRequest) (existing : Option SchedulerState) :
    List HostUpdateFailure :=
  (retainedSchedulerHostUpdateFailures clock
    (some (failuresJson (priorFailuresForRequest request existing)))
    (some (.string request.generatedAt)) (some (.string request.appliedRrule))).filter
      (fun failure => normalizeRruleText failure.targetRrule ≠ request.appliedRrule)

def builtState (request : CommitRequest) (fingerprint : String) (params : List (String × Json)) :
    Built :=
  match buildSchedulerState params with
  | none => .thrown MISSING_FIELDS
  | some state => .state (withCommitMetadata state request fingerprint)

def buildAckState (clock : HostClock) (request : CommitRequest) (existing : Option SchedulerState)
    (fingerprint : String) : Built :=
  let exact := request.appliedRrule = request.expectedRrule
  if request.ackNeeded = some false ∧ request.applyNeeded = some false then
    .refused ⟨.skipped, existing, "scheduler RRULE already applied; no ack write needed", none⟩
  else if request.expectedRrule ≠ derivedRrule request then
    .refused (conflictResult existing "expected_rrule does not match the progression target"
      "target_rrule_conflict")
  else if ¬exact ∧ request.cadenceClass = "monitor_wait" ∧
      existing.any (fun state => identityEqual request state = false) then
    .refused (conflictResult existing
      "stale monitor ACK identity does not match persisted scheduler state" "identity_conflict")
  else if ¬exact ∧ transitionAllowsStaleAck clock request existing = false then
    .refused (conflictResult existing "applied_rrule does not match the scheduler target"
      "rrule_mismatch")
  else if request.appliedRrule = "" then
    .refused (conflictResult existing "ack requires applied_rrule" "missing_applied_rrule")
  else
    let failures := ackFailures clock request existing
    builtState request fingerprint (stateParams request request.appliedRrule ++
      (if failures = [] then [] else [("host_update_failures", failuresJson failures)]))

/-- The failures of before that still count on the host as it was observed. -/
def seenFailures (clock : HostClock) (request : CommitRequest) (existing : Option SchedulerState) :
    List HostUpdateFailure :=
  retainedSchedulerHostUpdateFailures clock
    (some (failuresJson (priorFailuresForRequest request existing)))
    (some (.string request.generatedAt)) (some (.string request.observedHostRrule))

def newFailure (clock : HostClock) (request : CommitRequest) (existing : Option SchedulerState) :
    HostUpdateFailure :=
  let prior := (seenFailures clock request existing).reverse.find?
    (fun failure => normalizeRruleText failure.targetRrule = request.expectedRrule)
  let priorCount := (prior.map (fun failure => failure.failureCount)).getD 0
  ⟨request.expectedRrule, request.observedHostRrule,
    (request.failureKind.getD "host_tool_failure"), priorCount + 1, request.generatedAt⟩

def buildHostFailureState (clock : HostClock) (request : CommitRequest)
    (existing : Option SchedulerState) (fingerprint : String) : Built :=
  if request.applyNeeded ≠ some true then
    .refused (conflictResult existing
      "scheduler host update failure is not recordable because no host update is needed"
      "host_update_not_needed")
  else if request.expectedRrule ≠ derivedRrule request then
    .refused (conflictResult existing "target_rrule does not match the progression target"
      "target_rrule_conflict")
  else
    let failure := newFailure clock request existing
    match mergeSchedulerHostUpdateFailure clock
        (some (failuresJson (seenFailures clock request existing))) (some failure.toJson)
        (some (.string request.generatedAt)) with
    | none => .thrown "scheduler host update failure is invalid"
    | some failures =>
      builtState request fingerprint (stateParams request request.observedHostRrule ++
        [("host_update_failure", failure.toJson), ("host_update_failures", failuresJson failures)])

inductive ReceiptStatus where
  | fresh
  | missing
  | superseded
deriving DecidableEq

def receiptConflict (existing : Option SchedulerState) : ReceiptStatus → Option CommitResult
  | .fresh => none
  | .missing => some (conflictResult existing
      "originating heartbeat receipt is missing at scheduler commit" "heartbeat_receipt_missing")
  | .superseded => some (conflictResult existing
      "originating heartbeat receipt was superseded before scheduler commit"
      "heartbeat_receipt_superseded")

/-- The kernel's own checks: replay, compare-and-swap, identity and progression. -/
def admitProgression (request : CommitRequest) (existing : Option SchedulerState) :
    Option CommitResult :=
  let identityMatches := existing.all (identityEqual request)
  let exactHostMatchAck := request.operation = .ack ∧ request.hostMatchObserved = true ∧
    request.appliedRrule = request.expectedRrule
  let identityReset := existing.isSome ∧ identityMatches = false ∧
    isStaleMonitorAck request = false ∧ (request.hostMatchObserved = false ∨ exactHostMatchAck)
  if existing.isSome ∧ identityMatches = false ∧ ¬identityReset then
    some (conflictResult existing "scheduler heartbeat identity does not match persisted state"
      "identity_conflict")
  else if (existing = none ∨ identityReset) ∧ request.progressionIndex ≠ 0 then
    some (conflictResult existing
      "scheduler heartbeat initial or identity-reset progression must start at index zero"
      "initial_progression_index_conflict")
  else if identityMatches = true ∧
      existing.any (fun state => (request.progressionIndex : Int) < state.progressionIndex) then
    some (conflictResult existing "scheduler heartbeat progression would move backwards"
      "progression_regression")
  else if identityMatches = true ∧
      existing.any (fun state => state.progressionIndex + 1 < (request.progressionIndex : Int)) then
    some (conflictResult existing "scheduler heartbeat progression cannot skip a cadence stage"
      "progression_skip_conflict")
  else none

def replayOrStale (sha : Sha256) (request : CommitRequest) (existing : Option SchedulerState) :
    Option CommitResult :=
  match commitMetadata existing with
  | some metadata =>
    if metadata.effectId = request.effectId then
      if metadata.operation = request.operation ∧
          metadata.requestDigest = requestDigest sha request then
        some ⟨.replayed, existing, "scheduler heartbeat commit replayed", none⟩
      else some (conflictResult existing
        "effect_id is already bound to a different scheduler heartbeat commit"
        "effect_id_conflict")
    else if request.expectedStateDigest ≠ schedulerHeartbeatCommitStateDigest sha existing then
      some (conflictResult existing "scheduler state compare-and-swap precondition failed"
        "state_digest_conflict")
    else none
  | none =>
    if request.expectedStateDigest ≠ schedulerHeartbeatCommitStateDigest sha existing then
      some (conflictResult existing "scheduler state compare-and-swap precondition failed"
        "state_digest_conflict")
    else none

def hostMatchMismatch (request : CommitRequest) : Bool :=
  request.operation = .ack && request.hostMatchObserved &&
    (request.observedHostRrule = "" || request.observedHostRrule ≠ request.appliedRrule)

/-- What the commit answers, and the state it writes. -/
def commitLocked (sha : Sha256) (clock : HostClock) (request : CommitRequest)
    (receipt : Option ReceiptStatus) (existing : Option SchedulerState) :
    Decoding (CommitResult × Option SchedulerState) :=
  match receipt.bind (receiptConflict existing) with
  | some refusal => .ok (refusal, none)
  | none =>
    if hostMatchMismatch request then
      .ok (conflictResult existing
        "host-match ACK requires a current observation matching applied_rrule" "rrule_mismatch",
        none)
    else
      match replayOrStale sha request existing with
      | some answer => .ok (answer, none)
      | none =>
        match admitProgression request existing with
        | some refusal => .ok (refusal, none)
        | none =>
          match (if request.operation = .ack then
              buildAckState clock request existing (requestDigest sha request)
            else buildHostFailureState clock request existing (requestDigest sha request)) with
          | .thrown message => .error message
          | .refused refusal => .ok (refusal, none)
          | .state state =>
            if request.execute then
              .ok (⟨.written, some state, "scheduler heartbeat commit written", none⟩, some state)
            else
              .ok (⟨.preview, some state, "scheduler heartbeat commit preview", none⟩, none)

def readStateUnderLock (file : Option Json) (scope : SchedulerScope) :
    Decoding (Option SchedulerState) :=
  match file with
  | none => .ok none
  | some document =>
    match normalizeSchedulerState (some document) scope with
    | none => .error "persisted scheduler state is invalid"
    | some state => .ok (some state)

/-- One commit against the scope's file, under its lock. -/
def evaluateSchedulerHeartbeatCommit (sha : Sha256) (clock : HostClock) (request : CommitRequest)
    (receipt : Option ReceiptStatus) (file : Option Json) :
    Decoding (CommitResult × Option SchedulerState) := do
  let existing ← readStateUnderLock file request.scope
  commitLocked sha clock request receipt existing

end Loopx.Scheduler
