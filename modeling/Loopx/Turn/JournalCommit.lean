/- GID: Loopx/Turn/JournalCommit
   generality: I
   source: loopx/control_plane/turn_driver/turn_journal_effects.ts
   digest: The commit of one Turn journal snapshot over the one in place, and what it admits. -/

import Loopx.Turn.Interpretation

set_option autoImplicit false
set_option relaxedAutoImplicit false

namespace Loopx.Turn

open Loopx.Lib.Fallible (ok_bind error_bind bind_eq_ok)
open Loopx.Authority (trim)
open Loopx.Lease (HostText)
open SourceValue (asObject text? operationId)

/-- How a commit is refused: a malformed request, or a conflict with the journal in place. -/
inductive CommitError where
  | request (message code : String)
  | conflict (message code : String)
deriving DecidableEq

/-- The part of a valid snapshot that transitions are judged by. -/
structure JournalState where
  status : JournalStatus
  completedPhases : List String
  effectId : String
  failedPhase : Option String
deriving DecidableEq

/-- The request a journal makes about itself. -/
def ownRequest (journal : SourceValue) : InspectionRequest :=
  let envelope := asObject ((asObject (journal.field "plan")).field "turn_envelope")
  ⟨(text? (journal.field "goal_id")).getD "", (text? (envelope.field "agent_id")).getD "",
    (text? (journal.field "turn_key")).getD "", false, none⟩

def transitionConflict (message : String) : CommitError :=
  .conflict message "journal_transition_conflict"

def snapshotInvalid (message : String) : CommitError := .request message "journal_snapshot_invalid"

section State

variable (reader : SettlementReader)

def journalEffectId (journal : SourceValue) : Option String :=
  (reader (asObject (journal.field "plan"))).effectId

def requireJournalState (journal : SourceValue) : Except CommitError JournalState :=
  if journal.field "schema_version" ≠ some (.string "loopx_turn_journal_v0") then
    .error (snapshotInvalid "Turn journal has an unsupported schema")
  else
    let context := interpretTurnJournal reader (ownRequest journal) journal
    let effectId := journalEffectId reader journal
    match preparedAttemptViolation journal context.journalStatus context.completedPhases
        (effectId.getD "") with
    | some violation => .error (transitionConflict violation.message)
    | none =>
      match journalPhaseViolation context.journalStatus context.completedPhases
          (failedPhaseOf journal) with
      | some violation => .error (transitionConflict violation)
      | none =>
        match effectId.filter (fun effectId => context.journalConsistent && effectId ≠ "") with
        | none => .error (snapshotInvalid ("Turn journal snapshot is inconsistent: " ++
            ", ".intercalate context.violations))
        | some effectId =>
          if (journal.field "recovery_audit").any (fun audit => !isRecoveryAudit audit) then
            .error (snapshotInvalid "Turn journal carries a malformed recovery audit")
          else
            match JournalStatus.ofText? context.journalStatus with
            | none => .error (snapshotInvalid "Turn journal status is unsupported")
            | some status => .ok ⟨status, context.completedPhases, effectId, failedPhaseOf journal⟩

end State

section Transition

variable (host : HostText)

/-- `statusTransitions`. -/
def statusTransitions : JournalStatus → List JournalStatus
  | .inProgress => [.inProgress, .failed, .stopped, .schedulerActionRequired, .committed]
  | .failed => [.failed, .inProgress]
  | .schedulerActionRequired => [.schedulerActionRequired, .committed]
  | .committed => []
  | .stopped => []

/-- `legalPhaseAdvances`. -/
def legalPhaseAdvances : List (Nat × Nat) := [(0, 2), (2, 3), (3, 4), (4, 5), (5, 7)]

def journalWithoutRecoveryAudit (journal : SourceValue) : SourceValue :=
  journal.removeField "recovery_audit"

/-- The plan's own identity. -/
def planId (journal : SourceValue) : SourceValue :=
  operationId host (asObject (journal.field "plan"))

/-- The identity of everything in a journal but its recovery audit. -/
def recordId (journal : SourceValue) : SourceValue :=
  operationId host (journalWithoutRecoveryAudit journal)

/-- A failed validation may go back to any earlier phase. -/
def validationRetryRewind (previous next : JournalState) : Bool :=
  previous.status = .failed && next.status = .inProgress &&
    previous.failedPhase = some "validation" &&
    decide (next.completedPhases <+: previous.completedPhases)

def requireJournalTransition (existing incoming : SourceValue) (previous next : JournalState) :
    Except CommitError Unit :=
  if planId host existing ≠ planId host incoming then
    .error (.conflict "Turn journal transaction plan is immutable" "journal_plan_conflict")
  else if previous.status.terminal then
    if previous.status = next.status ∧ recordId host existing = recordId host incoming then .ok ()
    else .error (transitionConflict "Terminal Turn journal tombstones are immutable")
  else if next.status ∉ statusTransitions previous.status then
    .error (transitionConflict ("Illegal Turn journal status transition " ++
      previous.status.text ++ "->" ++ next.status.text))
  else if previous.status = next.status ∧
      (previous.status = .failed ∨ previous.status = .schedulerActionRequired) ∧
      recordId host existing ≠ recordId host incoming then
    .error (transitionConflict
      "Settled Turn journal state only permits recovery-audit completion")
  else if ¬(previous.completedPhases <+: next.completedPhases) ∧
      validationRetryRewind previous next = false then
    .error (transitionConflict "Turn journal completed phases cannot regress or fork")
  else if next.completedPhases.length > previous.completedPhases.length ∧
      (previous.completedPhases.length, next.completedPhases.length) ∉ legalPhaseAdvances then
    .error (transitionConflict "Turn journal transition cannot skip transaction checkpoints")
  else .ok ()

end Transition

/-- What checking the source admission of an exact goal binding came to. -/
inductive SourceAdmission where
  | resumed
  | rejected (error : CommitError)
deriving DecidableEq

/-- One request to commit a snapshot. A runtime object has each of its keys once. -/
structure CommitRequest where
  journal : SourceValue
  unique : journal.UniqueKeys
  expectedEffectId : Option String
  admission : Option SourceAdmission

structure CommitAnswer where
  appended : Bool
  effectId : String
deriving DecidableEq

section Commit

variable (reader : SettlementReader) (host : HostText)

/-- The part under the file lock: replay, refuse, or replace the journal. -/
def commitLocked (existing : Option SourceValue) (incoming : SourceValue) (next : JournalState) :
    Except CommitError CommitAnswer :=
  match existing with
  | some existing => do
    let previous ← requireJournalState reader existing
    if previous.effectId ≠ next.effectId then
      .error (.conflict "Turn journal belongs to another settlement effect"
        "journal_effect_conflict")
    else if operationId host existing = operationId host incoming then .ok ⟨false, next.effectId⟩
    else do
      requireJournalTransition host existing incoming previous next
      .ok ⟨true, next.effectId⟩
  | none =>
    if next.status ≠ .inProgress ∨ next.completedPhases.length ≠ 0 then
      .error (transitionConflict
        "A new Turn journal must begin in progress with no completed phases")
    else .ok ⟨true, next.effectId⟩

/-- Who may commit: a legacy journal needs no admission, an exact one a resumed one. -/
def requireAdmission (binding : GoalBinding) (admission : Option SourceAdmission) :
    Except CommitError Unit :=
  match binding, admission with
  | .legacy, none => .ok ()
  | .legacy, some _ => .error (.request "Legacy Turn journals cannot carry source admission"
      "journal_source_admission_invalid")
  | _, none => .error (.request "Exact GoalRef Turn journals require source admission"
      "journal_source_admission_required")
  | _, some .resumed => .ok ()
  | _, some (.rejected error) => .error error

def admitCommit (existing : Option SourceValue) (request : CommitRequest) :
    Except CommitError CommitAnswer :=
  match parseTurnJournalGoalBinding request.journal with
  | .invalid violation =>
    .error (snapshotInvalid ("Turn journal GoalRef binding is invalid: " ++ violation))
  | binding => do
    let next ← requireJournalState reader request.journal
    let expected := trim (request.expectedEffectId.getD "")
    if expected ≠ "" ∧ next.effectId ≠ expected then
      .error (.request "Turn journal does not carry the expected settlement effect"
        "invalid_request")
    else do
      requireAdmission binding request.admission
      commitLocked reader host existing request.journal next

/-- The journal file after the commit, and its answer. -/
def commitTurnJournal (file : Option SourceValue) (request : CommitRequest) :
    Option SourceValue × Except CommitError CommitAnswer :=
  match admitCommit reader host file request with
  | .ok answer => (if answer.appended then some request.journal else file, .ok answer)
  | .error error => (file, .error error)

/-- The journal after a sequence of commits, from no file. -/
def journalAfter (requests : List CommitRequest) : Option SourceValue :=
  requests.foldl (fun file request => (commitTurnJournal reader host file request).1) none

end Commit

end Loopx.Turn
