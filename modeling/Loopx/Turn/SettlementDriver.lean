/- GID: Loopx/Turn/SettlementDriver
   generality: I
   source: loopx/control_plane/turn_driver/settlement.py, executor.py
   digest: The settlement driver with its journal, its providers and crashes, one step at a time. -/

import Loopx.Turn.Settlement

set_option autoImplicit false
set_option relaxedAutoImplicit false

namespace Loopx.Turn

open Loopx.Lib.KeyedList

section JournalAdapter

/-- What the settlement reads and writes of the Turn journal. -/
structure SettlementJournal where
  completedPhases : List String
  writeback : Option Payload
  quotaSpend : Option Payload
  terminalCloseout : Option Payload
  effectAttempts : List (ProviderStepKind × String)

/-- `_compact_callback`. -/
def compactCallback (payload : Payload) : Payload :=
  ["ok", "appended", "classification", "generated_at", "slots", "reason"].filterMap
    (fun key => (payload.lookup key).map (fun v => (key, v)))

/-- `_completion_payload`: the compact payload, with the completion if it is a mapping. -/
def completionPayload (payload : Payload) : Payload :=
  match payload.lookup "completion" with
  | some (.object completion) => setKey (compactCallback payload) "completion" (.object completion)
  | _ => compactCallback payload

/-- The explicit ref of a payload; the reduction admits none that is not a text. -/
def payloadRef (payload : Payload) : String :=
  match payload.lookup "effect_ref" with
  | some (.string ref) => ref
  | _ => ""

namespace SettlementJournal

def payload (journal : SettlementJournal) : ProviderStepKind → Option Payload
  | .durableWriteback => journal.writeback
  | .quotaSpend => journal.quotaSpend
  | .terminalCloseout => journal.terminalCloseout

def prepare (journal : SettlementJournal) (step : ProviderStepKind) (effectRef : String) :
    SettlementJournal :=
  { journal with effectAttempts := setKey journal.effectAttempts step effectRef }

/-- `_effect_ref`; none where it raises. -/
def attemptRef (journal : SettlementJournal) (step : ProviderStepKind) (payload : Payload) :
    Option String :=
  let attempt := (journal.effectAttempts.lookup step).getD ""
  if attempt ≠ "" then
    if payloadRef payload ≠ "" ∧ payloadRef payload ≠ attempt then none else some attempt
  else if payloadRef payload ≠ "" then some (payloadRef payload)
  else none

/-- `_forget`; none where the prepared ref changed. -/
def forget (journal : SettlementJournal) (step : ProviderStepKind) (effectRef : String) :
    Option SettlementJournal :=
  if effectRef ≠ "" ∧ (journal.effectAttempts.lookup step).any (· ≠ effectRef) then none
  else some { journal with effectAttempts := eraseKey journal.effectAttempts step }

def abort (journal : SettlementJournal) (step : ProviderStepKind) (effectRef : String) :
    Option SettlementJournal :=
  journal.forget step effectRef

def checkpoint (journal : SettlementJournal) (step : ProviderStepKind) (payload : Payload)
    (phases : List String) : Option SettlementJournal :=
  (journal.attemptRef step payload).bind (fun effectRef =>
    let written :=
      match step with
      | .durableWriteback => { journal with writeback := some (completionPayload payload) }
      | .quotaSpend => { journal with quotaSpend := some (compactCallback payload) }
      | .terminalCloseout => journal
    { written with completedPhases := phases }.forget step effectRef)

def checkpointTerminal (journal : SettlementJournal) (payload : Payload) :
    Option SettlementJournal :=
  (journal.attemptRef .terminalCloseout payload).bind (fun effectRef =>
    let compact := completionPayload payload
    { journal with
      terminalCloseout := some compact
      writeback := some (setKey (journal.writeback.getD []) "completion"
        ((compact.lookup "completion").getD .null)) }.forget .terminalCloseout effectRef)

end SettlementJournal

end JournalAdapter

section Driver

/-- What is fixed over all starts of one Turn's settlement. -/
structure SettlementPlan where
  identity : Except SettlementFailure BoundSettlementIdentity
  transactionPhases : List String

/-- What one start of the driver is called with. -/
structure SettlementCall where
  committedEffectId : Option String
  terminalCloseoutRequired : Bool
  turnResultKind : Option TurnResultKind
  resumePrepare : Bool

/-- The local variables of a running driver. -/
structure SettlementDriver where
  call : SettlementCall
  phases : List String
  writebackValue : Option Payload
  spendValue : Option Payload
  terminalValue : Option Payload
  failedAttempt : Option ProviderAttemptResult
  returnedAttempt : Option ProviderAttemptResult
  attempts : List (ProviderStepKind × String)
  observations : List (ProviderStepKind × Payload)

namespace SettlementDriver

def start (journal : SettlementJournal) (call : SettlementCall) : SettlementDriver :=
  ⟨call, journal.completedPhases, journal.writeback, journal.quotaSpend, journal.terminalCloseout,
    none, none, journal.effectAttempts, []⟩

def payload (driver : SettlementDriver) : ProviderStepKind → Option Payload
  | .durableWriteback => driver.writebackValue
  | .quotaSpend => driver.spendValue
  | .terminalCloseout => driver.terminalValue

/-- The request the driver sends to be reduced. -/
def request (driver : SettlementDriver) (plan : SettlementPlan) : TurnSettlementRequest :=
  ⟨plan.identity, plan.transactionPhases, driver.phases, driver.call.committedEffectId,
    driver.writebackValue, driver.spendValue, driver.call.terminalCloseoutRequired,
    driver.terminalValue, driver.failedAttempt, driver.returnedAttempt, driver.attempts,
    driver.observations.map (fun entry => (entry.1, decodeProviderObservation entry.2)),
    driver.call.turnResultKind⟩

def observe (driver : SettlementDriver) (step : ProviderStepKind) (answer : Payload) :
    SettlementDriver :=
  { driver with observations := setKey driver.observations step answer }

def prepared (driver : SettlementDriver) (step : ProviderStepKind) (effectRef : String) :
    SettlementDriver :=
  { driver with attempts := setKey driver.attempts step effectRef }

def returned (driver : SettlementDriver) (step : ProviderStepKind) (payload : Payload) :
    SettlementDriver :=
  { driver with
    returnedAttempt := some ⟨step, payload⟩
    observations := eraseKey driver.observations step }

/-- The attempt of the step is over. -/
def closed (driver : SettlementDriver) (step : ProviderStepKind) : SettlementDriver :=
  { driver with
    attempts := eraseKey driver.attempts step
    observations := eraseKey driver.observations step
    returnedAttempt := none }

def aborted (driver : SettlementDriver) (step : ProviderStepKind) (payload : Payload) :
    SettlementDriver :=
  { driver with failedAttempt := some ⟨step, payload⟩ }.closed step

def checkpointed (driver : SettlementDriver) (step : ProviderStepKind) (payload : Payload)
    (phases : List String) : SettlementDriver :=
  match step with
  | .durableWriteback =>
    { driver with phases := phases, writebackValue := some payload }.closed step
  | .quotaSpend => { driver with phases := phases, spendValue := some payload }.closed step
  | .terminalCloseout => { driver with terminalValue := some payload }.closed step

section Checkpointed

variable (driver : SettlementDriver) (step : ProviderStepKind) (value : Payload)
  (authorized : List String)

theorem checkpointed_phases :
    (driver.checkpointed step value authorized).phases =
      if step = .terminalCloseout then driver.phases else authorized := by
  cases step <;> rfl

theorem checkpointed_payload (other : ProviderStepKind) :
    (driver.checkpointed step value authorized).payload other =
      if other = step then some value else driver.payload other := by
  cases step <;> cases other <;> rfl

@[simp] theorem checkpointed_attempts :
    (driver.checkpointed step value authorized).attempts = eraseKey driver.attempts step := by
  cases step <;> rfl

@[simp] theorem checkpointed_observations :
    (driver.checkpointed step value authorized).observations =
      eraseKey driver.observations step := by
  cases step <;> rfl

@[simp] theorem checkpointed_returnedAttempt :
    (driver.checkpointed step value authorized).returnedAttempt = none := by
  cases step <;> rfl

@[simp] theorem checkpointed_failedAttempt :
    (driver.checkpointed step value authorized).failedAttempt = driver.failedAttempt := by
  cases step <;> rfl

end Checkpointed

end SettlementDriver

/-- Where the driver stands: before a reduction, before an authorized action, or before the call
of a provider whose attempt is prepared. -/
inductive DriverPoint where
  | idle
  | reducing (driver : SettlementDriver)
  | acting (driver : SettlementDriver) (effect : ProviderEffect)
  | invoking (driver : SettlementDriver) (effect : ProviderEffect)

/-- A provider call, with the persisted journal and the durable effects it found. -/
structure SettlementExecution where
  stepKind : ProviderStepKind
  effectRef : String
  journal : SettlementJournal
  durable : List String

/-- A complete answer, with the persisted journal and the durable effects it found. -/
structure SettlementCompletion where
  call : SettlementCall
  journal : SettlementJournal
  durable : List String

/-- The persisted journal, the running driver, the effects the providers made durable, and what
was executed and answered so far. -/
structure SettlementWorld where
  journal : SettlementJournal
  point : DriverPoint
  durable : List String
  executions : List SettlementExecution
  completions : List SettlementCompletion

inductive SettlementEvent where
  | crash
  | start (call : SettlementCall)
  | reduce
  | readback (answer : Payload)
  | prepare
  | permit (allowed : Bool)
  | invoke (durable : Bool) (response : Option Payload)
  | persist

/-- A readback says committed or absent only where that is so. -/
def readbackTruthful (answer : Payload) (durable : Bool) : Bool :=
  match answer.lookup "kind" with
  | some (.string "committed") => durable
  | some (.string "absent") => !durable
  | _ => true

/-- A response that arrives says whether the effect was made durable. -/
def responseTruthful (response : Option Payload) (durable : Bool) : Bool :=
  response.all (fun payload => isCommittedPayload payload = durable)

/-- The answer in place of a provider that may not run again. -/
def reexecutionClosed : Payload :=
  [("ok", .bool false), ("appended", .bool false),
    ("reason", .string "Goal retirement closed effect re-execution")]

/-- Persist the checkpoint of a step. -/
def persistCheckpoint (journal : SettlementJournal) (effect : ProviderEffect) (payload : Payload) :
    Option SettlementJournal :=
  if effect.stepKind = .terminalCloseout then journal.checkpointTerminal payload
  else journal.checkpoint effect.stepKind payload effect.completedPhases

/-- Go on with a persisted journal, or stop at the exception of its adapter. -/
def SettlementWorld.persisted (s : SettlementWorld) (journal : Option SettlementJournal)
    (driver : SettlementDriver) : SettlementWorld :=
  match journal with
  | some journal => { s with journal := journal, point := .reducing driver }
  | none => { s with point := .idle }

/-- Carry out an authorized action. -/
def actStep (s : SettlementWorld) (driver : SettlementDriver) (effect : ProviderEffect) :
    SettlementEvent → Option SettlementWorld
  | .readback answer =>
    match effect.action with
    | .resolvePrepared =>
      if readbackTruthful answer (effect.effectRef ∈ s.durable) then
        some { s with
          journal :=
            if driver.call.resumePrepare then s.journal.prepare effect.stepKind effect.effectRef
            else s.journal
          point := .reducing (driver.observe effect.stepKind answer) }
      else none
    | _ => none
  | .prepare =>
    match effect.action with
    | .prepareAndExecute =>
      some { s with
        journal := s.journal.prepare effect.stepKind effect.effectRef
        point := .invoking (driver.prepared effect.stepKind effect.effectRef) effect }
    | _ => none
  | .permit allowed =>
    match effect.action with
    | .executePrepared =>
      if allowed then some { s with point := .invoking driver effect }
      else some { s with point := .reducing (driver.returned effect.stepKind reexecutionClosed) }
    | _ => none
  | .persist =>
    match effect.action with
    | .checkpoint payload =>
      some (s.persisted (persistCheckpoint s.journal effect payload)
        (driver.checkpointed effect.stepKind payload effect.completedPhases))
    | .abortPrepared payload =>
      some (s.persisted (s.journal.abort effect.stepKind effect.effectRef)
        (driver.aborted effect.stepKind payload))
    | _ => none
  | _ => none

/-- Call the provider; a lost response ends the driver with its exception. -/
def invokeStep (s : SettlementWorld) (driver : SettlementDriver) (effect : ProviderEffect)
    (durable : Bool) (response : Option Payload) : SettlementWorld :=
  { s with
    durable := if durable then s.durable ++ [effect.effectRef] else s.durable
    executions := s.executions ++ [⟨effect.stepKind, effect.effectRef, s.journal, s.durable⟩]
    point :=
      match response with
      | some payload => .reducing (driver.returned effect.stepKind payload)
      | none => .idle }

/-- One reduction, and what the driver makes of its decision. -/
def reduceStep (plan : SettlementPlan) (s : SettlementWorld) (driver : SettlementDriver) :
    SettlementWorld :=
  match reduceTurnSettlementTransaction (driver.request plan) with
  | .ok (.execute effect) => { s with point := .acting driver effect }
  | .ok (.complete _ _ _) =>
    { s with
      point := .idle
      completions := s.completions ++ [⟨driver.call, s.journal, s.durable⟩] }
  | .ok (.failed _ _ _) => { s with point := .idle }
  | .error _ => { s with point := .idle }

/-- None where the event is not one the world can take here. -/
def settlementStep (plan : SettlementPlan) (s : SettlementWorld) (event : SettlementEvent) :
    Option SettlementWorld :=
  match event, s.point with
  | .crash, _ => some { s with point := .idle }
  | .start call, .idle => some { s with point := .reducing (SettlementDriver.start s.journal call) }
  | .reduce, .reducing driver => some (reduceStep plan s driver)
  | .invoke durable response, .invoking driver effect =>
    if responseTruthful response durable then some (invokeStep s driver effect durable response)
    else none
  | event, .acting driver effect => actStep s driver effect event
  | _, _ => none

/-- A Turn that comes to its settlement with the phases completed so far. -/
def newSettlement (completed : List String) : SettlementWorld :=
  ⟨⟨completed, none, none, none, []⟩, .idle, [], [], []⟩

def settlementNext (plan : SettlementPlan) (s : SettlementWorld) (event : SettlementEvent) :
    SettlementWorld :=
  (settlementStep plan s event).getD s

def settlementRun (plan : SettlementPlan) (completed : List String)
    (events : List SettlementEvent) : SettlementWorld :=
  events.foldl (settlementNext plan) (newSettlement completed)

/-- An event of the driver loop itself. -/
def SettlementEvent.isMove : SettlementEvent → Bool
  | .crash => false
  | .start _ => false
  | _ => true

def SettlementEvent.isStart : SettlementEvent → Bool
  | .start _ => true
  | _ => false

/-- How often the driver loop moved in a run. -/
def driverMoves (plan : SettlementPlan) : SettlementWorld → List SettlementEvent → Nat
  | _, [] => 0
  | s, event :: events =>
    (if event.isMove && (settlementStep plan s event).isSome then 1 else 0) +
      driverMoves plan (settlementNext plan s event) events

end Driver

end Loopx.Turn
