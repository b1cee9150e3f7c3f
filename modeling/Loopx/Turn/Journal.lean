/- GID: Loopx/Turn/Journal
   generality: I
   source: loopx/control_plane/turn_driver/turn_journal.ts, turn_journal_attempt_contract.ts,
     host_failure.ts, loopx/control_plane/turn_transaction_contract.json
   digest: What a Turn journal says: its lineage, its phases, and how a run may go on from it. -/

import Loopx.Turn.SourceValue

set_option autoImplicit false
set_option relaxedAutoImplicit false

namespace Loopx.Turn

open Loopx.Lib.KeyedList
open Loopx.Json (JsNumber)
open Loopx.Authority (trim isHexDigit)
open SourceValue (asObject text?)

def transactionPhases : List String :=
  ["host_execute", "typed_result", "validation", "durable_writeback", "quota_spend",
    "scheduler_apply", "scheduler_ack"]

inductive JournalStatus where
  | inProgress
  | schedulerActionRequired
  | committed
  | stopped
  | failed
deriving DecidableEq

namespace JournalStatus

def text : JournalStatus → String
  | .inProgress => "in_progress"
  | .schedulerActionRequired => "scheduler_action_required"
  | .committed => "committed"
  | .stopped => "stopped"
  | .failed => "failed"

/-- `supportedJournalStatuses`, each with its text. -/
def ofText? (text : String) : Option JournalStatus :=
  [inProgress, schedulerActionRequired, committed, stopped, failed].find? (fun s => s.text = text)

theorem ofText?_text (s : JournalStatus) : ofText? s.text = some s := by
  cases s <;> decide

theorem text_of_ofText? {text : String} {s : JournalStatus} (h : ofText? text = some s) :
    s.text = text := by
  have := List.find?_some h
  simpa using this

/-- `terminalStatuses`. -/
def terminal : JournalStatus → Bool
  | .committed => true
  | .stopped => true
  | _ => false

end JournalStatus

/-- Snapshot constraints on a status and its phases. -/
def journalPhaseViolation (status : String) (completedPhases : List String)
    (failedPhase : Option String) : Option String :=
  if status = "committed" ∧ completedPhases.length ≠ transactionPhases.length then
    some "Committed Turn journal must contain the complete transaction prefix"
  else if status = "stopped" ∧ completedPhases.length ≠ 3 then
    some "Stopped Turn journal must end after validation"
  else if status = "scheduler_action_required" ∧ completedPhases.length ≠ 5 then
    some "Scheduler-pending Turn journal must end after quota spend"
  else if status = "in_progress" ∧ completedPhases.length > 5 then
    some "In-progress Turn journal cannot claim scheduler completion"
  else if status = "failed" ∧ (failedPhase = none ∨ failedPhase = some "" ∨
      (failedPhase ≠ transactionPhases[completedPhases.length]? ∧
        ¬(failedPhase = some "terminal_closeout" ∧ completedPhases.length = 5))) then
    some "Failed Turn journal must name the next uncompleted phase"
  else none

/-- The binding of a journal to one goal instance. -/
inductive GoalBinding where
  | legacy
  | exact (goalId goalInstanceId : String)
  | invalid (violation : String)
deriving DecidableEq

/-- `GOAL_ID`. -/
def isGoalId (s : String) : Bool :=
  1 ≤ s.toList.length && s.toList.length ≤ 200 &&
    s.toList.all (fun c => c.isAlphanum || c = '.' || c = '_' || c = ':' || c = '-')

/-- `GOAL_INSTANCE_ID`. -/
def isGoalInstanceId (s : String) : Bool :=
  s.toList.take 6 = "ginst_".toList && (s.toList.drop 6).length = 32 &&
    (s.toList.drop 6).all isHexDigit

def parseExactGoalRef (value : Option SourceValue) : Option (String × String) := do
  let raw ← value
  let goalId ← text? (raw.field "goal_id")
  let goalInstanceId ← text? (raw.field "goal_instance_id")
  if isGoalId goalId && isGoalInstanceId goalInstanceId then some (goalId, goalInstanceId) else none

def parseTurnJournalGoalBinding (journal : SourceValue) : GoalBinding :=
  let plan := asObject (journal.field "plan")
  let transaction := asObject (plan.field "transaction")
  match plan.field "goal_ref", transaction.field "goal_ref" with
  | none, none => .legacy
  | some planned, some transactionPlanned =>
    match parseExactGoalRef (some planned), parseExactGoalRef (some transactionPlanned) with
    | some goalRef, some other =>
      if goalRef = other then .exact goalRef.1 goalRef.2
      else .invalid "goal_ref_binding_mismatch"
    | _, _ => .invalid "goal_ref_binding_invalid"
  | _, _ => .invalid "goal_ref_binding_incomplete"

def isValidIdentity : Option SourceValue → Bool
  | some (.string s) => trim s ≠ ""
  | _ => false

/-- Are all given identities there, and are they all the expected one? An optional identity counts
only where its field is present. -/
def identityState (required optional : List (Option SourceValue)) (expected : String) :
    Bool × Bool :=
  let present := optional.filter Option.isSome
  let complete := required.all isValidIdentity && present.all isValidIdentity && trim expected ≠ ""
  (complete, complete && (required ++ present).all (fun v => v = some (.string expected)))

/-- What a plan says about its settlement: the effect it settles under, and whether its typed
identity is valid, names this turn and is bound to the selected work. -/
structure SettlementReading where
  effectId : Option String
  valid : Bool
  turnInstanceMatches : Bool
  bindingMatches : Bool
deriving DecidableEq

/-- `settlementIdentityFromPlan` and `typedSettlementIdentityState`; both read the plan only. -/
abbrev SettlementReader := SourceValue → SettlementReading

structure AttemptViolation where
  code : String
  message : String
deriving DecidableEq

/-- `TURN_PROVIDER_STEP_KINDS`. -/
def preparedStepKinds : List String := ["durable_writeback", "quota_spend", "terminal_closeout"]

def preparedAttemptViolation (journal : SourceValue) (status : String)
    (completedPhases : List String) (effectId : String) : Option AttemptViolation :=
  match journal.field "effect_attempts" with
  | none => none
  | some (.object [(stepKind, attempt)]) =>
    if stepKind ∉ preparedStepKinds then
      some ⟨"prepared_effect_step_unsupported",
        "Turn journal carries an unsupported prepared effect step"⟩
    else if attempt.field "status" ≠ some (.string "prepared") ∨
        attempt.field "effect_ref" ≠ some (.string (effectId ++ "#" ++ stepKind)) then
      some ⟨"prepared_effect_identity_invalid",
        "Turn journal prepared effect does not match settlement identity"⟩
    else if completedPhases ≠ transactionPhases.take (transactionPhases.idxOf
        (if stepKind = "terminal_closeout" then "scheduler_apply" else stepKind)) then
      some ⟨"prepared_effect_phase_invalid",
        "Turn journal prepared effect is not the next settlement step"⟩
    else if status ≠ "in_progress" ∧ status ≠ "failed" then
      some ⟨"prepared_effect_status_invalid",
        "Turn journal terminal state cannot retain a prepared effect"⟩
    else none
  | some (.object _) =>
    some ⟨"prepared_effect_count_invalid", "Turn journal must carry at most one prepared effect"⟩
  | some _ =>
    some ⟨"prepared_effect_attempts_invalid", "Turn journal prepared effects must be an object"⟩

/-- When a journal's prepared effects are in order: there is none, or the one of the next step. -/
theorem preparedAttemptViolation_eq_none {journal : SourceValue} {status : String}
    {completedPhases : List String} {effectId : String} :
    preparedAttemptViolation journal status completedPhases effectId = none ↔
      journal.field "effect_attempts" = none ∨
        ∃ stepKind attempt, journal.field "effect_attempts" = some (.object [(stepKind, attempt)]) ∧
          stepKind ∈ preparedStepKinds ∧ attempt.field "status" = some (.string "prepared") ∧
          attempt.field "effect_ref" = some (.string (effectId ++ "#" ++ stepKind)) ∧
          completedPhases = transactionPhases.take (transactionPhases.idxOf
            (if stepKind = "terminal_closeout" then "scheduler_apply" else stepKind)) ∧
          (status = "in_progress" ∨ status = "failed") := by
  constructor
  · intro h
    unfold preparedAttemptViolation at h
    split at h
    · exact Or.inl ‹_›
    · rename_i stepKind attempt stored
      refine Or.inr ⟨stepKind, attempt, stored, ?_⟩
      generalize transactionPhases.take (transactionPhases.idxOf
        (if stepKind = "terminal_closeout" then "scheduler_apply" else stepKind)) = expected at h ⊢
      split_ifs at h with known identity ordered running
      simp only [ne_eq, not_or, not_not] at known identity ordered
      refine ⟨known, identity.1, identity.2, ordered, ?_⟩
      by_cases hrunning : status = "in_progress"
      · exact Or.inl hrunning
      · exact Or.inr (not_not.mp (fun hfailed => running ⟨hrunning, hfailed⟩))
    · simp at h
    · simp at h
  · rintro (missing | ⟨stepKind, attempt, stored, known, hprepared, href, ordered, opened⟩)
    · simp only [preparedAttemptViolation, missing]
    · have hidentity : ¬(attempt.field "status" ≠ some (.string "prepared") ∨
          attempt.field "effect_ref" ≠ some (.string (effectId ++ "#" ++ stepKind))) := by
        simp [hprepared, href]
      have hopened : ¬(status ≠ "in_progress" ∧ status ≠ "failed") := by
        rintro ⟨notRunning, notFailed⟩
        exact opened.elim notRunning notFailed
      simp only [preparedAttemptViolation, stored]
      rw [if_neg (not_not.mpr known), if_neg hidentity, if_neg (not_not.mpr ordered),
        if_neg hopened]

/-- `stringifyPhase`. -/
def stringifyPhase : SourceValue → String
  | .null => "None"
  | .bool true => "True"
  | .bool false => "False"
  | v => v.toText

/-- The phases as texts, where they are an array at all. -/
def completedPhasesOf (journal : SourceValue) : Option (List String) :=
  match journal.field "completed_phases" with
  | some (.array items) => some (items.map stringifyPhase)
  | _ => none

/-- `journal.status ? String(journal.status) : ""`. -/
def journalStatusOf (journal : SourceValue) : String :=
  match journal.field "status" with
  | some v => if v.truthy then v.toText else ""
  | none => ""

/-- `typeof receipt.failed_phase === "string" ? receipt.failed_phase : null`. -/
def failedPhaseOf (journal : SourceValue) : Option String :=
  text? ((asObject (journal.field "receipt")).field "failed_phase")

end Loopx.Turn
