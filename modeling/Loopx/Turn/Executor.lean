/- GID: Loopx/Turn/Executor
   generality: I
   source: loopx/control_plane/turn_driver/executor.py, recovery.py, host_failure.py
   digest: The worker that runs one Turn: what it persists around a host launch, and when. -/

import Loopx.Turn.Recovery

set_option autoImplicit false
set_option relaxedAutoImplicit false

namespace Loopx.Turn

open Loopx.Json (JsNumber)
open Loopx.Lease (HostText)
open SourceValue (asObject text? operationId)

/-- A journal in memory or in the file; a mapping has each key once. -/
structure Snapshot where
  value : SourceValue
  unique : value.UniqueKeys

namespace Snapshot

def set (journal : Snapshot) (key : String) (item : SourceValue) : Snapshot :=
  ⟨journal.value.setField key item, SourceValue.uniqueKeys_setField journal.unique key item⟩

/-- `journal.pop(key, None)`. -/
def pop (journal : Snapshot) (key : String) : Snapshot :=
  ⟨journal.value.removeField key, SourceValue.uniqueKeys_removeField journal.unique key⟩

def popAll (journal : Snapshot) (keys : List String) : Snapshot := keys.foldl pop journal

end Snapshot

/-- The Turn a worker is for. -/
structure TurnPlan where
  goalId : String
  turnKey : String
  plan : SourceValue
  hostProjection : SourceValue

def texts (items : List String) : SourceValue := .array (items.map SourceValue.string)

def countValue (n : Nat) : SourceValue := .number (JsNumber.ofNat n) (toString n)

/-- The first snapshot of a Turn. -/
def newJournal (turn : TurnPlan) : Snapshot where
  value := .object [("schema_version", .string "loopx_turn_journal_v0"),
    ("turn_key", .string turn.turnKey), ("goal_id", .string turn.goalId),
    ("status", .string "in_progress"), ("host", turn.hostProjection),
    ("completed_phases", .array []), ("host_attempt_count", countValue 0), ("plan", turn.plan)]
  unique := by
    intro fields h
    obtain rfl := SourceValue.object.inj h
    simp [Lib.KeyedList.keys]

/-- A reserved start is part of the snapshot it was reserved for. -/
def withAdmission (journal : Snapshot) : Option SourceValue → Snapshot
  | some admission => journal.set "admission" admission
  | none => journal

/-- What the worker asks about the journal it finds. -/
def inspection (turn : TurnPlan) (retryFailed : Bool) (session : Option TurnRecoveryCheck) :
    InspectionRequest :=
  ⟨turn.goalId,
    (text? ((asObject ((asObject (some turn.plan)).field "turn_envelope")).field "agent_id")).getD "",
    turn.turnKey, retryFailed, session⟩

section Audit

def CheckKind.text : CheckKind → String
  | .journalConsistency => "journal_consistency"
  | .hostRetryPolicy => "host_retry_policy"
  | .hostSessionBinding => "host_session_binding"
  | .preparedEffectReadback => "prepared_effect_readback"

def CheckOutcome.text : CheckOutcome → String
  | .passed => "passed"
  | .failed => "failed"
  | .required => "required"

def RecoveryAction.text : RecoveryAction → String
  | .continue => "continue"
  | .returnExisting => "return_existing"
  | .blocked => "blocked"

def TurnRecoveryCheck.toValue (check : TurnRecoveryCheck) : SourceValue :=
  .object ([("kind", .string check.kind.text), ("outcome", .string check.outcome.text)] ++
    (check.reason.map (fun reason => ("reason", SourceValue.string reason))).toList ++
    (check.stepKind.map (fun kind => ("step_kind", SourceValue.string kind))).toList)

def TurnRecoveryDecision.toValue (decision : TurnRecoveryDecision) : SourceValue :=
  .object [("schema_version", .string "loopx_turn_recovery_decision_v0"),
    ("retry_failed", .bool decision.retryFailed),
    ("checks", .array (decision.checks.map TurnRecoveryCheck.toValue)),
    ("action", .string decision.action.text), ("can_continue", .bool decision.canContinue),
    ("resume_from", (decision.resumeFrom.map SourceValue.string).getD .null),
    ("reinvoke_host", .bool decision.reinvokeHost), ("reason", .string decision.reason)]

/-- `build_turn_recovery_audit` of a recovery that starts. -/
def startedAudit (decision : TurnRecoveryDecision) (journal : SourceValue) : SourceValue :=
  .object [("schema_version", .string "loopx_turn_recovery_audit_v0"),
    ("planned", decision.toValue),
    ("actual", .object [("status", .string "started"),
      ("journal_status", .string (journalStatusOf journal)),
      ("completed_phases", texts ((completedPhasesOf journal).getD [])), ("host_invoked", .null)])]

end Audit

section Rewrites

/-- A failed validation of the host's own result asks the host again. -/
def validationReinvokesHost (journal : SourceValue) : Bool :=
  failedPhaseOf journal = some "validation" &&
    journal.field "validation_stage" ≠ some (.string "task_postcondition")

/-- `isinstance(value, dict)`. -/
def isMapping : Option SourceValue → Bool
  | some (.object _) => true
  | _ => false

/-- The failed journal as the retry takes it up. -/
def resumedJournal (journal : Snapshot) : Snapshot :=
  let retried :=
    if failedPhaseOf journal.value = some "validation" then
      let journal :=
        if validationReinvokesHost journal.value then journal.pop "host_result" else journal
      let phases :=
        if isMapping (journal.value.field "host_result") then transactionPhases.take 2 else []
      ((journal.pop "result_kind").set "completed_phases" (texts phases)).popAll
        ["task_validation", "validation_stage"]
    else journal
  (retried.popAll ["reason", "receipt", "host_recovery", "host_failure"]).set "status"
    (.string "in_progress")

/-- How a host attempt ended, with what is written down about it. -/
inductive HostOutcome where
  | failed (reason : String) (receipt failure : SourceValue) (recovery : Option SourceValue)
  | rejected (reason : String) (receipt : SourceValue)
  | accepted (result resultKind : SourceValue)

/-- The journal that records the outcome. -/
def outcomeJournal (journal : Snapshot) : HostOutcome → Snapshot
  | .failed reason receipt failure recovery =>
    let journal := (((((journal.set "status" (.string "failed")).set "reason" (.string reason)).set
      "receipt" receipt).set "completed_phases" (texts [])).set "result_kind"
      (.string "host_failure")).set "host_failure" failure
    match recovery with
    | some record => journal.set "host_recovery" record
    | none => journal.pop "host_recovery"
  | .rejected reason receipt =>
    ((((((journal.set "status" (.string "failed")).set "reason" (.string reason)).set "receipt"
      receipt).set "completed_phases" (texts (transactionPhases.take 2))).set "result_kind"
      (.string "validation_failed")).set "validation_stage" (.string "host_result_contract"))
  | .accepted result resultKind =>
    ((journal.set "host_result" result).set "result_kind" resultKind).set "completed_phases"
      (texts (transactionPhases.take 2))

/-- `int(journal.get("host_attempt_count") or 0)`, where it is a count at all. -/
def hostAttemptCount (journal : SourceValue) : Option Nat :=
  match journal.field "host_attempt_count" with
  | none => some 0
  | some .null => some 0
  | some (.number value _) => value.toInt?.bind (fun i => if 0 ≤ i then some i.toNat else none)
  | some _ => none

/-- `"typed_result" in completed_phases`. -/
def typedResultRecorded (journal : SourceValue) : Bool :=
  match journal.field "completed_phases" with
  | some (.array items) => items.contains (.string "typed_result")
  | _ => false

/-- A later stage writes its status and phases as texts, and leaves the lineage of the Turn and its
count of host attempts alone. -/
def isStageOf (journal later : SourceValue) : Bool :=
  ["goal_id", "turn_key", "plan", "host_attempt_count"].all
      (fun key => later.field key = journal.field key) &&
    (text? (later.field "status")).isSome &&
    (match later.field "completed_phases" with
      | some (.array items) => items.all (fun item => (text? (some item)).isSome)
      | _ => false)

end Rewrites

/-- Where the worker stands, with the journal it holds. -/
inductive WorkerPoint where
  | idle
  | recovering (journal : Snapshot) (decision : TurnRecoveryDecision)
  | admitted (journal : Snapshot)
  | ready (journal : Snapshot)
  | dispatched (journal : Snapshot)
  | running (journal : Snapshot)
  | recorded (journal : Snapshot)

/-- The journal file, the worker, and how often a host was launched, an outcome recorded and the
Turn settled. -/
structure TurnState where
  file : Option Snapshot
  worker : WorkerPoint
  launches : Nat
  outcomes : Nat
  settlements : Nat

/-- What a commit goes with. -/
structure CommitTicket where
  expectedEffectId : Option String
  admission : Option SourceAdmission

inductive TurnEvent where
  | crash
  | open (admission : Option SourceValue) (ticket : CommitTicket)
  | start (retryFailed : Bool) (session : Option TurnRecoveryCheck)
  | audit (ticket : CommitTicket)
  | resume (ticket : CommitTicket)
  | reserve (admission : SourceValue) (ticket : CommitTicket)
  | dispatch (ticket : CommitTicket)
  | launch
  | outcome (outcome : HostOutcome) (ticket : CommitTicket)
  | stage (later : Snapshot) (ticket : CommitTicket)

def terminalFile (file : Option Snapshot) : Bool :=
  file.any (fun journal => journalStatusOf journal.value = "committed" ∨
    journalStatusOf journal.value = "stopped")

section Machine

variable (reader : SettlementReader) (host : HostText)

/-- The file after a successful persist; none where the commit is refused. -/
def persist (file : Option Snapshot) (journal : Snapshot) (ticket : CommitTicket) :
    Option (Option Snapshot) :=
  match (commitTurnJournal reader host (file.map Snapshot.value)
      ⟨journal.value, journal.unique, ticket.expectedEffectId, ticket.admission⟩).2 with
  | .ok answer => some (if answer.appended then some journal else file)
  | .error _ => none

/-- Persist and go on, or give up. -/
def persistTo (s : TurnState) (journal : Snapshot) (ticket : CommitTicket)
    (point : Snapshot → WorkerPoint) : TurnState :=
  match persist reader host s.file journal ticket with
  | some file =>
    { s with
      file := file
      worker := point journal
      settlements := s.settlements +
        if terminalFile file && !terminalFile s.file then 1 else 0 }
  | none => { s with worker := .idle }

/-- Persist the outcome of the running host. -/
def recordOutcome (s : TurnState) (journal : Snapshot) (ticket : CommitTicket) : TurnState :=
  match persist reader host s.file journal ticket with
  | some _ =>
    { persistTo reader host s journal ticket .recorded with outcomes := s.outcomes + 1 }
  | none => { s with worker := .idle }

variable (turn : TurnPlan)

def turnStep (s : TurnState) (event : TurnEvent) : TurnState :=
  match s.worker, event with
  | _, .crash => { s with worker := .idle }
  | .idle, .open admission ticket =>
    if s.file.isNone then
      persistTo reader host s (withAdmission (newJournal turn) admission) ticket .ready
    else s
  | .idle, .start retryFailed session =>
    match s.file with
    | none => s
    | some journal =>
      let decision := (interpretTurnJournal reader (inspection turn retryFailed session)
        journal.value).recoveryDecision
      if decision.action = .continue then { s with worker := .recovering journal decision } else s
  | .recovering journal decision, .audit ticket =>
    persistTo reader host s
      (journal.set "recovery_audit" (startedAudit decision journal.value)) ticket .admitted
  | .admitted journal, .resume ticket =>
    if journal.value.field "status" = some (.string "failed") then
      persistTo reader host s (resumedJournal journal) ticket .ready
    else { s with worker := .ready journal }
  | .ready journal, .reserve admission ticket =>
    persistTo reader host s (withAdmission journal (some admission)) ticket .ready
  | .ready journal, .dispatch ticket =>
    if typedResultRecorded journal.value then { s with worker := .recorded journal }
    else
      match hostAttemptCount journal.value with
      | none => { s with worker := .idle }
      | some n =>
        persistTo reader host s (journal.set "host_attempt_count" (countValue (n + 1))) ticket
          .dispatched
  | .dispatched journal, .launch =>
    { s with worker := .running journal, launches := s.launches + 1 }
  | .running journal, .outcome outcome ticket =>
    recordOutcome reader host s (outcomeJournal journal outcome) ticket
  | .recorded journal, .stage later ticket =>
    if isStageOf journal.value later.value then persistTo reader host s later ticket .recorded
    else s
  | _, _ => s

/-- Nothing is there yet. -/
def noTurn : TurnState := ⟨none, .idle, 0, 0, 0⟩

def turnRun (events : List TurnEvent) : TurnState :=
  events.foldl (turnStep reader host turn) noTurn

end Machine

end Loopx.Turn
