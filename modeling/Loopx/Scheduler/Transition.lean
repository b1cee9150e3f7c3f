/- GID: Loopx/Scheduler/Transition
   generality: I
   source: loopx/control_plane/scheduler/state_transition_rules.ts
   digest: The planner: which cadence index applies, and what the host has to do about it. -/

import Loopx.Scheduler.State

set_option autoImplicit false
set_option relaxedAutoImplicit false

namespace Loopx.Scheduler

open Loopx.Json (JsNumber)
open Loopx.Authority (trim)

inductive SchedulerCadenceTransition where
  | initial
  | identityReset
  | retryUnacknowledgedFailure
  | holdActiveInitial
  | advanceAfterInterval
  | holdUntilInterval
deriving DecidableEq

inductive SchedulerHostTransition where
  | applyRequired
  | hostMatchAckRequired
  | recordedFailureSuppressed
  | settled
deriving DecidableEq

inductive StateStatus where
  | missing
  | resetRequired
  | sameIdentity
deriving DecidableEq

structure CadenceFacts where
  progressionSize : Nat
  statePresent : Bool
  identityMatches : Bool
  appliedIndex : Int
  currentCadenceAcknowledged : Bool
  advanceSameIdentity : Bool
  appliedIntervalElapsed : Bool
  hasHostUpdateFailures : Bool

structure CadenceResult where
  currentIndex : Nat
  stateStatus : StateStatus
  transition : SchedulerCadenceTransition
  currentCadenceAcknowledged : Bool
deriving DecidableEq

/-- `Math.min(Math.max(nextIndex, 0), progressionSize - 1)`. -/
def clampIndex (nextIndex : Int) (progressionSize : Nat) : Nat :=
  min nextIndex.toNat (progressionSize - 1)

def evaluateCadence (facts : CadenceFacts) : CadenceResult :=
  if facts.statePresent = false then ⟨0, .missing, .initial, false⟩
  else if facts.identityMatches = false then ⟨0, .resetRequired, .identityReset, false⟩
  else
    let (nextIndex, transition) : Int × SchedulerCadenceTransition :=
      if facts.hasHostUpdateFailures ∧ facts.currentCadenceAcknowledged = false then
        (facts.appliedIndex, .retryUnacknowledgedFailure)
      else if facts.advanceSameIdentity = false then (0, .holdActiveInitial)
      else if facts.appliedIntervalElapsed then (facts.appliedIndex + 1, .advanceAfterInterval)
      else (facts.appliedIndex, .holdUntilInterval)
    ⟨clampIndex nextIndex facts.progressionSize, .sameIdentity, transition,
      facts.currentCadenceAcknowledged⟩

structure HostFacts where
  stateStatus : StateStatus
  observedHostRrulePresent : Bool
  currentRruleAlreadyApplied : Bool
  schedulerStateAcknowledgesCurrentRrule : Bool
  currentTargetHasFailure : Bool
  repeatedFailedPair : Bool

def evaluateHost (facts : HostFacts) : SchedulerHostTransition :=
  if facts.observedHostRrulePresent ∧ facts.currentRruleAlreadyApplied ∧
      (facts.schedulerStateAcknowledgesCurrentRrule = false ∨
        facts.stateStatus ≠ .sameIdentity ∨ facts.currentTargetHasFailure) then
    .hostMatchAckRequired
  else if facts.currentRruleAlreadyApplied ∧ facts.stateStatus = .sameIdentity then .settled
  else if facts.repeatedFailedPair then .recordedFailureSuppressed
  else .applyRequired

/-- The recorded index, when it is an integer within the progression. -/
def schedulerAppliedIndex (progressionMinutes : List Int) (state : List (String × Json)) : Int :=
  match state.lookup "progression_index" with
  | some (.number n) =>
    match n.toInt? with
    | some value => if 0 ≤ value ∧ value < progressionMinutes.length then value else -1
    | none => -1
  | _ => -1

def schedulerProgressionIntervalElapsed (clock : HostClock) (state : List (String × Json))
    (currentTime : String) : Bool :=
  match schedulerTimestampMilliseconds clock (state.lookup "updated_at"),
      schedulerTimestampMilliseconds clock (some (.string currentTime)),
      schedulerRruleIntervalMinutes (state.lookup "last_applied_rrule") with
  | some updatedAt, some current, some appliedInterval =>
    decide (updatedAt + appliedInterval * 60000 ≤ current)
  | _, _, _ => true

def monitorRruleAppliedWithinStaleTolerance (cadenceClass lastAppliedRrule currentRrule : String)
    (toleranceMinutes : Int) : Bool :=
  if cadenceClass ≠ "monitor_wait" then false
  else
    match schedulerRruleIntervalMinutes (some (.string lastAppliedRrule)),
        schedulerRruleIntervalMinutes (some (.string currentRrule)) with
    | some appliedMinutes, some currentMinutes =>
      decide (currentMinutes ≤ appliedMinutes ∧ appliedMinutes - currentMinutes ≤ toleranceMinutes)
    | _, _ => false

/-- A decoded backoff request; the lists and texts are those its decoder lets through. -/
structure BackoffRequest where
  progressionMinutes : List Int
  nonempty : progressionMinutes ≠ []
  positive : ∀ minutes ∈ progressionMinutes, 0 < minutes
  resetToken : String
  identitySignature : String
  currentTime : String
  observedHostRrule : Option Json
  cadenceClass : String
  staleToleranceMinutes : Int
  advanceSameIdentity : Bool

structure BackoffResult where
  currentIndex : Nat
  currentIntervalMinutes : Int
  currentRrule : String
  lastAppliedRrule : String
  observedHostRrule : String
  effectiveHostRrule : String
  stateStatus : StateStatus
  cadenceTransition : SchedulerCadenceTransition
  currentCadenceAcknowledged : Bool
  allHostUpdateFailures : List HostUpdateFailure
  hostUpdateFailures : List HostUpdateFailure
  recordedHostFailure : Option HostUpdateFailure
  currentRruleAlreadyApplied : Bool
  schedulerStateAcknowledgesCurrentRrule : Bool
  hostTransition : SchedulerHostTransition
  currentTargetHasFailure : Bool
  repeatedFailedPair : Bool
deriving DecidableEq

def minutesAt (progressionMinutes : List Int) (index : Nat) : Int :=
  progressionMinutes.getD index 0

/-- `schedulerState.last_applied_rrule`, when it is a text. -/
def lastAppliedText (state : List (String × Json)) : String :=
  match state.lookup "last_applied_rrule" with
  | some (.string s) => trim s
  | _ => ""

/-- The failures that are still within their day. -/
def recentFailures (clock : HostClock) (state : List (String × Json)) (currentTime : String) :
    List HostUpdateFailure :=
  retainedSchedulerHostUpdateFailures clock (some (failuresJson
    (normalizeSchedulerHostUpdateFailures (state.lookup "host_update_failures")
      (state.lookup "host_update_failure")))) (some (.string currentTime)) none

def cadenceFacts (clock : HostClock) (request : BackoffRequest) (state : List (String × Json)) :
    CadenceFacts :=
  let appliedIndex := schedulerAppliedIndex request.progressionMinutes state
  { progressionSize := request.progressionMinutes.length
    statePresent := state ≠ []
    identityMatches := state ≠ [] ∧
      state.lookup "reset_token" = some (.string request.resetToken) ∧
      state.lookup "identity_signature" = some (.string request.identitySignature)
    appliedIndex := appliedIndex
    currentCadenceAcknowledged := 0 ≤ appliedIndex ∧ normalizeRruleText (lastAppliedText state) =
      rruleForMinutes (minutesAt request.progressionMinutes appliedIndex.toNat)
    advanceSameIdentity := request.advanceSameIdentity
    appliedIntervalElapsed := schedulerProgressionIntervalElapsed clock state request.currentTime
    hasHostUpdateFailures := recentFailures clock state request.currentTime ≠ [] }

/-- The failure that speaks for the current target, else the last one. -/
def recordedFailure (failures : List HostUpdateFailure) (currentRrule : String) :
    Option HostUpdateFailure :=
  (failures.reverse.find? (fun f => normalizeRruleText f.targetRrule = currentRrule)).or
    failures.getLast?

def evaluateBackoff (clock : HostClock) (request : BackoffRequest)
    (state : List (String × Json)) : BackoffResult :=
  let all := recentFailures clock state request.currentTime
  let facts := cadenceFacts clock request state
  let cadence := evaluateCadence facts
  let currentInterval := minutesAt request.progressionMinutes cadence.currentIndex
  let currentRrule := rruleForMinutes currentInterval
  let lastAppliedRrule := lastAppliedText state
  let observed := normalizeSchedulerRrule request.observedHostRrule
  let effective := if observed = "" then lastAppliedRrule else observed
  let seen := retainedSchedulerHostUpdateFailures clock (some (failuresJson all))
    (some (.string request.currentTime)) (some (.string effective))
  let recorded := recordedFailure seen currentRrule
  let applied := effective = currentRrule ||
    (observed = "" && cadence.stateStatus = .sameIdentity &&
      monitorRruleAppliedWithinStaleTolerance request.cadenceClass effective currentRrule
        request.staleToleranceMinutes)
  let acknowledges := cadence.stateStatus = .sameIdentity &&
    normalizeRruleText lastAppliedRrule = currentRrule
  let targetFailed := all.any (fun f => normalizeRruleText f.targetRrule = currentRrule)
  let repeated := normalizeRruleText ((recorded.map (·.targetRrule)).getD "") = currentRrule &&
    normalizeRruleText ((recorded.map (·.observedHostRrule)).getD "") = effective
  { currentIndex := cadence.currentIndex
    currentIntervalMinutes := currentInterval
    currentRrule := currentRrule
    lastAppliedRrule := lastAppliedRrule
    observedHostRrule := observed
    effectiveHostRrule := effective
    stateStatus := cadence.stateStatus
    cadenceTransition := cadence.transition
    currentCadenceAcknowledged := facts.currentCadenceAcknowledged
    allHostUpdateFailures := all
    hostUpdateFailures := seen
    recordedHostFailure := recorded
    currentRruleAlreadyApplied := applied
    schedulerStateAcknowledgesCurrentRrule := acknowledges
    hostTransition := evaluateHost ⟨cadence.stateStatus, observed ≠ "", applied, acknowledges,
      targetFailed, repeated⟩
    currentTargetHasFailure := targetFailed
    repeatedFailedPair := repeated }

end Loopx.Scheduler
