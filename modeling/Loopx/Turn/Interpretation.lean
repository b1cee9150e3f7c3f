/- GID: Loopx/Turn/Interpretation
   generality: I
   source: loopx/control_plane/turn_driver/turn_journal.ts, host_failure.ts
   digest: The interpretation of a Turn journal and the recovery decision it leads to. -/

import Loopx.Turn.Journal

set_option autoImplicit false
set_option relaxedAutoImplicit false

namespace Loopx.Turn

open Loopx.Lib.KeyedList
open Loopx.Json (JsNumber)
open SourceValue (asObject text?)

inductive CheckKind where
  | journalConsistency
  | hostRetryPolicy
  | hostSessionBinding
  | preparedEffectReadback
deriving DecidableEq

inductive CheckOutcome where
  | passed
  | failed
  | required
deriving DecidableEq

structure TurnRecoveryCheck where
  kind : CheckKind
  outcome : CheckOutcome
  reason : Option String
  stepKind : Option String
deriving DecidableEq

inductive RecoveryAction where
  | continue
  | returnExisting
  | blocked
deriving DecidableEq

structure TurnRecoveryDecision where
  action : RecoveryAction
  canContinue : Bool
  resumeFrom : Option String
  reinvokeHost : Bool
  reason : String
  retryFailed : Bool
  checks : List TurnRecoveryCheck
deriving DecidableEq

/-- Who asks about a journal, and what was found out about its host session. -/
structure InspectionRequest where
  goalId : String
  agentId : String
  turnKey : String
  retryFailed : Bool
  sessionRecoveryCheck : Option TurnRecoveryCheck
deriving DecidableEq

/-- Is this the number `n`? -/
def isNumber (n : Nat) : Option SourceValue → Bool
  | some (.number value _) => value = JsNumber.ofNat n
  | _ => false

section HostFailure

def hostFailureKinds : List String :=
  ["auth_failed", "contract_rejected", "executor_timeout", "output_budget_exhausted",
    "provider_capacity", "provider_overloaded", "quota_exhausted", "rate_limited",
    "session_missing", "transport_lost", "unknown"]

/-- The most attempts and the first backoff of a kind that may be retried. -/
def hostRetryPolicies : List (String × Nat × Nat) :=
  [("executor_timeout", 2, 5), ("provider_capacity", 3, 30), ("provider_overloaded", 3, 30),
    ("rate_limited", 3, 60), ("transport_lost", 3, 10)]

structure HostFailure where
  kind : String
  attempt : Nat
  maxAttempts : Option Nat
deriving DecidableEq

/-- `isDeepStrictEqual(record.retry, expected.retry)`. -/
def isRetryPolicy (value : Option SourceValue) (maxAttempts backoffSeconds : Nat) : Bool :=
  match value with
  | some (.object fields) =>
    fields.length = 3 && fields.lookup "strategy" = some (.string "same_configuration") &&
      isNumber maxAttempts (fields.lookup "max_attempts") &&
      isNumber backoffSeconds (fields.lookup "backoff_seconds")
  | _ => false

/-- An attempt is a number that is an integer from one on. -/
def attemptOf : Option SourceValue → Option Nat
  | some (.number value _) =>
    match value.toInt? with
    | some i => if 1 ≤ i then some i.toNat else none
    | none => none
  | _ => none

def normalizeHostFailure (value : Option SourceValue) : Option HostFailure :=
  match value with
  | some (.object fields) => do
    let kind ← text? (fields.lookup "kind")
    let attempt ← attemptOf (fields.lookup "attempt")
    let known := fields.lookup "schema_version" = some (.string "loopx_turn_host_failure_v0") &&
      hostFailureKinds.contains kind
    let allowed := ["schema_version", "kind", "attempt", "retryable"]
    match hostRetryPolicies.lookup kind with
    | some (maxAttempts, backoff) =>
      if known && fields.lookup "retryable" = some (.bool true) &&
          isRetryPolicy (fields.lookup "retry") maxAttempts (min (backoff * 2 ^ (attempt - 1)) 300) &&
          fields.length = 5 && (keys fields).all (fun key => (allowed ++ ["retry"]).contains key) then
        some ⟨kind, attempt, some maxAttempts⟩
      else none
    | none =>
      if known && fields.lookup "retryable" = some (.bool false) &&
          fields.length = 4 && (keys fields).all (fun key => allowed.contains key) then
        some ⟨kind, attempt, none⟩
      else none
  | _ => none

/-- The retry rule of an explicit Turn retry. -/
def hostFailureRetryCheck (failure : HostFailure) : Option TurnRecoveryCheck :=
  match failure.maxAttempts with
  | some maxAttempts =>
    if failure.attempt ≥ maxAttempts then
      some ⟨.hostRetryPolicy, .failed, some "host_retry_budget_exhausted", none⟩
    else some ⟨.hostRetryPolicy, .passed, none, none⟩
  | none =>
    if failure.kind = "output_budget_exhausted" then
      some ⟨.hostRetryPolicy, .failed, some "host_retry_not_available", none⟩
    else none

def hostRetryPolicyCheck (journal : SourceValue) : Option TurnRecoveryCheck :=
  match journal.field "host_failure" with
  | none => none
  | some record =>
    match normalizeHostFailure (some record) with
    | none => some ⟨.hostRetryPolicy, .failed, some "host_retry_contract_invalid", none⟩
    | some failure =>
      if isNumber failure.attempt (journal.field "host_attempt_count") then
        hostFailureRetryCheck failure
      else some ⟨.hostRetryPolicy, .failed, some "host_retry_contract_invalid", none⟩

end HostFailure

section Recovery

def recoveryResumePhase (journal : SourceValue) (completedPhases : List String)
    (journalStatus : String) : Option String :=
  let failedPhase := (failedPhaseOf journal).getD ""
  let validationStage := (text? (journal.field "validation_stage")).getD ""
  if journalStatus = "failed" ∧ failedPhase = "validation" ∧
      validationStage ≠ "task_postcondition" then some "host_execute"
  else if journalStatus = "failed" ∧ failedPhase = "terminal_closeout" then
    some "terminal_closeout"
  else if journalStatus = "failed" ∧ failedPhase ∈ transactionPhases then some failedPhase
  else if journalStatus = "scheduler_action_required" then some "scheduler_apply"
  else transactionPhases[completedPhases.length]?

/-- A prepared effect of the phase to resume has to be read back first. -/
def preparedEffectCheck (journal : SourceValue) (resumeFrom : String) : Option TurnRecoveryCheck :=
  let attempt := asObject ((asObject (journal.field "effect_attempts")).field resumeFrom)
  if attempt.field "status" = some (.string "prepared") ∧
      ((text? (attempt.field "effect_ref")).getD "") ≠ "" then
    some ⟨.preparedEffectReadback, .required, none, some resumeFrom⟩
  else none

/-- Everything but a zero counts as a host dispatch that was recorded. -/
def hostDispatched (journal : SourceValue) : Bool := !isNumber 0 (journal.field "host_attempt_count")

/-- The session check a failed journal with a host recovery record needs. -/
def sessionCheck (request : InspectionRequest) : TurnRecoveryCheck :=
  match request.sessionRecoveryCheck with
  | some check =>
    if check.kind = .hostSessionBinding then
      ⟨.hostSessionBinding, check.outcome, check.reason.filter (fun reason => reason ≠ ""), none⟩
    else ⟨.hostSessionBinding, .failed, some "binding_check_unavailable", none⟩
  | none => ⟨.hostSessionBinding, .failed, some "binding_check_unavailable", none⟩

/-- The checks a retry of a failed journal goes through, in order. -/
def retryChecks (request : InspectionRequest) (journal : SourceValue) : List TurnRecoveryCheck :=
  (hostRetryPolicyCheck journal).toList ++
    (if (journal.field "host_recovery").isSome then [sessionCheck request] else [])

/-- What a refused check is reported as. -/
def refusalReason (check : TurnRecoveryCheck) : String :=
  check.reason.getD (if check.kind = .hostSessionBinding then "host_session_binding_rejected"
    else "host_retry_policy_rejected")

/-- The check of this list that ends the recovery, and the checks made up to it. -/
def firstRefusal : List TurnRecoveryCheck → List TurnRecoveryCheck →
    Option (TurnRecoveryCheck × List TurnRecoveryCheck)
  | _, [] => none
  | made, check :: rest =>
    if check.outcome ≠ .passed then some (check, made ++ [check])
    else firstRefusal (made ++ [check]) rest

def recoveryDecision (request : InspectionRequest) (journal : SourceValue)
    (completedPhases : List String) (journalStatus : String) (journalConsistent : Bool) :
    TurnRecoveryDecision :=
  let consistency : TurnRecoveryCheck :=
    ⟨.journalConsistency, if journalConsistent then .passed else .failed, none, none⟩
  if journalConsistent = false then
    ⟨.blocked, false, none, false, "journal_inconsistent", request.retryFailed, [consistency]⟩
  else if journalStatus = "committed" ∨ journalStatus = "stopped" then
    ⟨.returnExisting, false, none, false, "terminal_result_retained", request.retryFailed,
      [consistency]⟩
  else
    let resumeFrom := recoveryResumePhase journal completedPhases journalStatus
    if journalStatus = "in_progress" ∧ completedPhases.length < 2 ∧ hostDispatched journal then
      ⟨.blocked, false, resumeFrom, false, "host_outcome_unknown", request.retryFailed,
        [consistency]⟩
    else if journalStatus = "failed" ∧ request.retryFailed = false then
      ⟨.returnExisting, false, resumeFrom, false, "failed_retry_not_requested",
        request.retryFailed, [consistency]⟩
    else
      let checks := if journalStatus = "failed" then retryChecks request journal else []
      match firstRefusal [consistency] checks with
      | some (check, made) =>
        ⟨.blocked, false, resumeFrom, false, refusalReason check, request.retryFailed, made⟩
      | none =>
        match resumeFrom with
        | none => ⟨.blocked, false, none, false, "recovery_phase_unavailable",
            request.retryFailed, consistency :: checks⟩
        | some phase =>
          let prepared := preparedEffectCheck journal phase
          ⟨.continue, true, some phase, phase = "host_execute" || phase = "typed_result",
            if prepared.isSome then "resolve_prepared_effect"
            else if journalStatus = "scheduler_action_required" then "resume_scheduler"
            else if journalStatus = "failed" then "retry_failed_phase"
            else "resume_in_progress",
            request.retryFailed, consistency :: checks ++ prepared.toList⟩

end Recovery

section Audit

/-- `projectRecoveryDecision(value) !== null`. -/
def isRecoveryDecision (value : Option SourceValue) : Bool :=
  let decision := asObject value
  decision.field "schema_version" = some (.string "loopx_turn_recovery_decision_v0") &&
    ["continue", "return_existing", "blocked"].contains
      (((decision.field "action").map SourceValue.toText).getD "undefined") &&
    (match decision.field "can_continue" with | some (.bool _) => true | _ => false) &&
    (match decision.field "resume_from" with
      | some (.string _) => true | some .null => true | _ => false) &&
    (match decision.field "reinvoke_host" with | some (.bool _) => true | _ => false) &&
    (text? (decision.field "reason")).isSome &&
    (match decision.field "retry_failed" with | some (.bool _) => true | _ => false)

/-- `projectRecoveryAudit(value) !== null`. -/
def isRecoveryAudit (value : SourceValue) : Bool :=
  let audit := asObject (some value)
  let actual := asObject (audit.field "actual")
  audit.field "schema_version" = some (.string "loopx_turn_recovery_audit_v0") &&
    isRecoveryDecision (audit.field "planned") &&
    ["started", "finished"].contains
      (((actual.field "status").map SourceValue.toText).getD "undefined") &&
    (text? (actual.field "journal_status")).isSome &&
    (match actual.field "completed_phases" with
      | some (.array items) => items.all (fun item => (text? (some item)).isSome)
      | _ => false) &&
    (match actual.field "host_invoked" with
      | some (.bool _) => true | some .null => true | _ => false)

end Audit

/-- What the interpretation of a journal establishes. -/
structure TurnJournalContext where
  goalMatches : Bool
  ownerMatches : Bool
  turnKeyMatches : Bool
  phasesFormOrderedPrefix : Bool
  journalStatus : String
  completedPhases : List String
  violations : List String
  journalConsistent : Bool
  recoveryDecision : TurnRecoveryDecision
deriving DecidableEq

section Interpret

variable (reader : SettlementReader)

/-- The identities of one journal, each as complete and as matching the request. -/
structure JournalLineage where
  goal : Bool × Bool
  owner : Bool × Bool
  turnKey : Bool × Bool
  binding : GoalBinding
  settlement : SettlementReading
deriving DecidableEq

def journalLineage (request : InspectionRequest) (journal : SourceValue) : JournalLineage :=
  let plan := asObject (journal.field "plan")
  let envelope := asObject (plan.field "turn_envelope")
  let transaction := asObject (plan.field "transaction")
  let identity := asObject ((asObject (transaction.field "settlement_plan")).field "identity")
  let hostResult := asObject (journal.field "host_result")
  let receipt := asObject (journal.field "receipt")
  { goal := identityState [journal.field "goal_id", envelope.field "goal_id",
      identity.field "goal_id"] [] request.goalId
    owner := identityState [envelope.field "agent_id", identity.field "agent_id"] []
      request.agentId
    turnKey := identityState [journal.field "turn_key", transaction.field "turn_key"]
      [hostResult.field "turn_key", receipt.field "turn_key"] request.turnKey
    binding := parseTurnJournalGoalBinding journal
    settlement := reader plan }

/-- A complaint where a condition fails. -/
def complain (fails : Bool) (violation : String) : List String := if fails then [violation] else []

def JournalLineage.violations (lineage : JournalLineage) (request : InspectionRequest) :
    List String :=
  let identity (state : Bool × Bool) (missing mismatch : String) : List String :=
    complain (!state.1) missing ++ complain (state.1 && !state.2) mismatch
  identity lineage.goal "goal_identity_missing" "goal_mismatch" ++
    (match lineage.binding with
      | .invalid violation => [violation]
      | .exact goalId _ => complain (goalId ≠ request.goalId) "goal_ref_binding_mismatch"
      | .legacy => []) ++
    identity lineage.owner "owner_identity_missing" "owner_mismatch" ++
    complain (!lineage.settlement.valid) "settlement_identity_invalid" ++
    complain (lineage.settlement.valid && !lineage.settlement.turnInstanceMatches)
      "settlement_turn_instance_mismatch" ++
    complain (lineage.settlement.valid && !lineage.settlement.bindingMatches)
      "settlement_binding_mismatch" ++
    identity lineage.turnKey "turn_key_identity_missing" "turn_key_mismatch"

/-- The identities are all there and all agree. -/
def JournalLineage.agrees (lineage : JournalLineage) (request : InspectionRequest) : Bool :=
  lineage.goal.2 &&
    (match lineage.binding with
      | .invalid _ => false
      | .exact goalId _ => goalId = request.goalId
      | .legacy => true) &&
    lineage.owner.2 && lineage.settlement.valid && lineage.settlement.turnInstanceMatches &&
    lineage.settlement.bindingMatches && lineage.turnKey.2

def interpretTurnJournal (request : InspectionRequest) (journal : SourceValue) :
    TurnJournalContext :=
  let lineage := journalLineage reader request journal
  let completedPhases := (completedPhasesOf journal).getD []
  let ordered := (completedPhasesOf journal).isSome &&
    decide (completedPhases <+: transactionPhases)
  let status := journalStatusOf journal
  let phaseViolation := journalPhaseViolation status completedPhases (failedPhaseOf journal)
  let attemptViolation := preparedAttemptViolation journal status completedPhases
    (lineage.settlement.effectId.getD "")
  let consistent := lineage.agrees request && ordered && (JournalStatus.ofText? status).isSome &&
    phaseViolation.isNone && attemptViolation.isNone
  { goalMatches := lineage.goal.2
    ownerMatches := lineage.owner.2
    turnKeyMatches := lineage.turnKey.2
    phasesFormOrderedPrefix := ordered
    journalStatus := status
    completedPhases := completedPhases
    violations := lineage.violations request ++
      complain (completedPhasesOf journal).isNone "completed_phases_invalid" ++
      complain ((completedPhasesOf journal).isSome && !ordered)
        "completed_phases_not_ordered_prefix" ++
      complain phaseViolation.isSome "journal_status_phase_mismatch" ++
      complain (status = "in_progress" ∨ status = "scheduler_action_required")
        "journal_not_terminal" ++
      complain (JournalStatus.ofText? status).isNone "journal_status_unsupported" ++
      (attemptViolation.map AttemptViolation.code).toList
    journalConsistent := consistent
    recoveryDecision := recoveryDecision request journal completedPhases status consistent }

end Interpret

end Loopx.Turn
