/- GID: Loopx/Turn/RecoveryRuns
   generality: I
   source: loopx/control_plane/turn_driver/executor.py, recovery.py, turn_journal.ts,
     turn_journal_effects.ts
   digest: Crashes and recoveries of one Turn: one open host attempt and one settlement at most. -/

import Loopx.Turn.Executor
import Loopx.Turn.JournalProgress

set_option autoImplicit false
set_option relaxedAutoImplicit false

namespace Loopx.Turn

open Loopx.Json (JsNumber)
open Loopx.Lease (HostText)
open SourceValue (asObject text? operationId)

section Held

variable {turn : TurnPlan} {journal later : Snapshot} {status : String} {phases : List String}
  {count : Nat}

/-- What stands in a journal of this Turn, in the fields the worker reads. -/
structure Held (turn : TurnPlan) (journal : SourceValue) (status : String) (phases : List String)
    (count : Nat) : Prop where
  goal : journal.field "goal_id" = some (.string turn.goalId)
  key : journal.field "turn_key" = some (.string turn.turnKey)
  plan : journal.field "plan" = some turn.plan
  status : journal.field "status" = some (.string status)
  phases : journal.field "completed_phases" = some (texts phases)
  count : ∃ token, journal.field "host_attempt_count" = some (.number (JsNumber.ofNat count) token)

@[simp] private theorem field_set (h : journal.value.IsObject) (key other : String)
    (item : SourceValue) :
    (journal.set key item).value.field other =
      if other = key then some item else journal.value.field other :=
  SourceValue.field_setField h key other item

@[simp] private theorem isObject_set (key : String) (item : SourceValue) :
    (journal.set key item).value.IsObject ↔ journal.value.IsObject :=
  SourceValue.isObject_setField_iff journal.value key item

@[simp] private theorem field_pop (key other : String) :
    (journal.pop key).value.field other =
      if other = key then none else journal.value.field other :=
  SourceValue.field_removeField journal.value key other

@[simp] private theorem isObject_pop (key : String) :
    (journal.pop key).value.IsObject ↔ journal.value.IsObject :=
  SourceValue.isObject_removeField_iff journal.value key

theorem Held.isObject {journal : SourceValue} (h : Held turn journal status phases count) :
    journal.IsObject := SourceValue.isObject_of_field h.status

theorem Held.completedPhases {journal : SourceValue} (h : Held turn journal status phases count) :
    completedPhasesOf journal = some phases := by
  have hmap : (phases.map SourceValue.string).map stringifyPhase = phases := by
    rw [List.map_map]
    exact List.map_id'' (fun phase => rfl) phases
  simp only [completedPhasesOf, h.phases, texts, hmap]

theorem Held.journalStatus {journal : SourceValue} (h : Held turn journal status phases count) :
    journalStatusOf journal = status := by
  simp only [journalStatusOf, h.status, SourceValue.truthy, SourceValue.toText]
  by_cases hempty : status = ""
  · simp [hempty]
  · simp [hempty]

private theorem Held.typedResult {journal : SourceValue}
    (h : Held turn journal status phases count) :
    typedResultRecorded journal = true ↔ "typed_result" ∈ phases := by
  simp [typedResultRecorded, h.phases, texts]

/-- A journal of a running Turn whose count is not zero, without a result. -/
private theorem Held.unknown {journal : SourceValue}
    (h : Held turn journal "in_progress" phases count) (positive : 0 < count)
    (early : phases.length < 2) : hostOutcomeUnknown journal := by
  refine ⟨h.journalStatus, ?_, ?_⟩
  · rw [h.completedPhases]
    exact early
  · obtain ⟨token, hcount⟩ := h.count
    simp only [hostDispatched, hcount, isNumber, Bool.not_eq_true', decide_eq_false_iff_not]
    intro hzero
    have := JsNumber.ofNat_injective hzero
    omega

private theorem Held.attempts {journal : SourceValue}
    (h : Held turn journal status phases count) : hostAttemptCount journal = some count := by
  obtain ⟨token, hcount⟩ := h.count
  simp [hostAttemptCount, hcount]

private theorem newJournal_held : Held turn (newJournal turn).value "in_progress" [] 0 :=
  ⟨rfl, rfl, rfl, rfl, rfl, "0", rfl⟩

private theorem withAdmission_held (h : Held turn journal.value status phases count)
    (admission : Option SourceValue) :
    Held turn (withAdmission journal admission).value status phases count := by
  cases admission with
  | none => exact h
  | some admission =>
    obtain ⟨token, hcount⟩ := h.count
    refine ⟨?_, ?_, ?_, ?_, ?_, token, ?_⟩ <;>
      simp [withAdmission, h.isObject, h.goal, h.key, h.plan, h.status, h.phases, hcount]

private theorem audited_held (h : Held turn journal.value status phases count)
    (audit : SourceValue) :
    Held turn (journal.set "recovery_audit" audit).value status phases count := by
  obtain ⟨token, hcount⟩ := h.count
  refine ⟨?_, ?_, ?_, ?_, ?_, token, ?_⟩ <;>
    simp [h.isObject, h.goal, h.key, h.plan, h.status, h.phases, hcount]

private theorem counted_held (h : Held turn journal.value status phases count) (count' : Nat) :
    Held turn (journal.set "host_attempt_count" (countValue count')).value status phases
      count' := by
  refine ⟨?_, ?_, ?_, ?_, ?_, toString count', ?_⟩ <;>
    simp [h.isObject, h.goal, h.key, h.plan, h.status, h.phases, countValue]

private theorem resumedJournal_held (h : Held turn journal.value status phases count) :
    ∃ phases', Held turn (resumedJournal journal).value "in_progress" phases' count := by
  obtain ⟨token, hcount⟩ := h.count
  have hobject := h.isObject
  simp only [resumedJournal, Snapshot.popAll, List.foldl_cons, List.foldl_nil]
  by_cases validation : failedPhaseOf journal.value = some "validation"
  · by_cases reinvokes : validationReinvokesHost journal.value = true
    · refine ⟨[], ?_, ?_, ?_, ?_, ?_, token, ?_⟩ <;>
        simp [validation, reinvokes, hobject, h.goal, h.key, h.plan, hcount, isMapping]
    · refine ⟨if isMapping (journal.value.field "host_result") then transactionPhases.take 2 else [],
        ?_, ?_, ?_, ?_, ?_, token, ?_⟩ <;>
        simp [validation, reinvokes, hobject, h.goal, h.key, h.plan, hcount]
  · refine ⟨phases, ?_, ?_, ?_, ?_, ?_, token, ?_⟩ <;>
      simp [validation, hobject, h.goal, h.key, h.plan, h.phases, hcount]

private theorem outcomeJournal_held (h : Held turn journal.value status phases count)
    (outcome : HostOutcome) :
    ∃ status' phases', Held turn (outcomeJournal journal outcome).value status' phases' count := by
  obtain ⟨token, hcount⟩ := h.count
  have hobject := h.isObject
  cases outcome with
  | failed reason receipt failure recovery =>
    refine ⟨"failed", [], ?_, ?_, ?_, ?_, ?_, token, ?_⟩ <;> cases recovery <;>
      simp [outcomeJournal, hobject, h.goal, h.key, h.plan, hcount]
  | rejected reason receipt =>
    refine ⟨"failed", transactionPhases.take 2, ?_, ?_, ?_, ?_, ?_, token, ?_⟩ <;>
      simp [outcomeJournal, hobject, h.goal, h.key, h.plan, hcount]
  | accepted result resultKind =>
    refine ⟨status, transactionPhases.take 2, ?_, ?_, ?_, ?_, ?_, token, ?_⟩ <;>
      simp [outcomeJournal, hobject, h.goal, h.key, h.plan, h.status, hcount]

private theorem text?_eq_some {value : Option SourceValue} {text : String}
    (h : text? value = some text) : value = some (.string text) := by
  unfold text? at h
  split at h
  · rw [Option.some.inj h]
  · simp at h

private theorem texts_of_all {items : List SourceValue}
    (h : items.all (fun item => (text? (some item)).isSome) = true) :
    ∃ phases : List String, items = phases.map SourceValue.string := by
  induction items with
  | nil => exact ⟨[], rfl⟩
  | cons item items ih =>
    rw [List.all_cons, Bool.and_eq_true] at h
    obtain ⟨text, htext⟩ := Option.isSome_iff_exists.mp h.1
    obtain ⟨phases, rfl⟩ := ih h.2
    have hitem := Option.some.inj (text?_eq_some htext)
    exact ⟨text :: phases, by rw [hitem, List.map_cons]⟩

private theorem stage_held {journal later : SourceValue}
    (h : Held turn journal status phases count) (stage : isStageOf journal later = true) :
    ∃ status' phases', Held turn later status' phases' count := by
  simp only [isStageOf, Bool.and_eq_true, List.all_cons, List.all_nil, decide_eq_true_eq] at stage
  obtain ⟨⟨⟨hgoal, hkey, hplan, hcount, -⟩, hstatus⟩, hphases⟩ := stage
  obtain ⟨status', hstatus⟩ := Option.isSome_iff_exists.mp hstatus
  cases hfield : later.field "completed_phases" with
  | none => simp [hfield] at hphases
  | some value =>
    rw [hfield] at hphases
    cases value with
    | array items =>
      obtain ⟨phases', hitems⟩ := texts_of_all hphases
      refine ⟨status', phases', hgoal.trans h.goal, hkey.trans h.key, hplan.trans h.plan,
        text?_eq_some hstatus, ?_, ?_⟩
      · rw [hfield, hitems]
        rfl
      · rw [hcount]
        exact h.count
    | _ => simp at hphases

/-- Journals of one stable form hold the same. -/
private theorem held_of_stable (host : HostText) {status' : String} {phases' : List String}
    {count' : Nat} (h : Held turn journal.value status phases count)
    (h' : Held turn later.value status' phases' count')
    (same : operationId host journal.value = operationId host later.value) :
    Held turn journal.value status' phases' count' := by
  have hstable : ∀ key, (journal.value.field key).map (SourceValue.stable host) =
      (later.value.field key).map (SourceValue.stable host) := by
    intro key
    rw [← SourceValue.field_stable host journal.unique, ← SourceValue.field_stable host later.unique]
    exact congrArg (fun v => v.field key) same
  have htexts : ∀ items : List String, SourceValue.stable host (texts items) = texts items := by
    intro items
    rw [texts, SourceValue.stable, SourceValue.stableItems_eq, List.map_map]
    rfl
  obtain ⟨token, hcount⟩ := h.count
  obtain ⟨token', hcount'⟩ := h'.count
  have hs := hstable "status"
  have hp := hstable "completed_phases"
  have hc := hstable "host_attempt_count"
  rw [h.status, h'.status] at hs
  rw [h.phases, h'.phases, Option.map_some, Option.map_some, htexts, htexts] at hp
  rw [hcount, hcount'] at hc
  simp only [Option.map_some, SourceValue.stable, Option.some.injEq, SourceValue.string.injEq,
    SourceValue.number.injEq] at hs hp hc
  refine ⟨h.goal, h.key, h.plan, ?_, ?_, token, ?_⟩
  · rw [h.status, hs]
  · rw [h.phases, hp]
  · rw [hcount, hc.1]

end Held

section Persist

variable {reader : SettlementReader} {host : HostText} {turn : TurnPlan}
  {file file' : Option Snapshot} {journal : Snapshot} {ticket : CommitTicket}

/-- The phases on file. -/
def recordedPhases (file : Option Snapshot) : List String :=
  (file.bind (fun stored => completedPhasesOf stored.value)).getD []

/-- What the journal file of this Turn holds at any time. -/
def FileInv (reader : SettlementReader) (turn : TurnPlan) (file : Option Snapshot) : Prop :=
  ∀ stored ∈ file, (∃ state, ReachedJournal reader stored.value state) ∧
    ∃ status phases count, Held turn stored.value status phases count

private theorem terminal_iff {state : JournalState} {stored : Snapshot}
    (h : ReachedJournal reader stored.value state) :
    terminalFile (some stored) = true ↔ state.status.terminal = true := by
  simp only [terminalFile, Option.any_some, h.valid.status, decide_eq_true_eq]
  cases state.status <;> simp [JournalStatus.text, JournalStatus.terminal]

/-- The commit behind a persist. -/
private theorem persist_commit (h : persist reader host file journal ticket = some file') :
    ∃ request : CommitRequest, ∃ answer, request.journal = journal.value ∧
      admitCommit reader host (file.map Snapshot.value) request = .ok answer ∧
      (if answer.appended then some journal else file) = file' ∧
      (commitTurnJournal reader host (file.map Snapshot.value) request).1 =
        file'.map Snapshot.value := by
  let request : CommitRequest :=
    ⟨journal.value, journal.unique, ticket.expectedEffectId, ticket.admission⟩
  simp only [persist] at h
  cases hallowed : admitCommit reader host (file.map Snapshot.value) request with
  | error error => simp [commitTurnJournal, hallowed, request] at h
  | ok answer =>
    have hfile' : (if answer.appended then some journal else file) = file' := by
      simpa [commitTurnJournal, hallowed, request] using h
    refine ⟨request, answer, rfl, hallowed, hfile', ?_⟩
    rw [← hfile']
    simp only [commitTurnJournal, hallowed]
    cases answer.appended <;> rfl

/-- A persisted journal stands in the file, in its own words or in those already there. -/
private theorem persist_spec {status : String} {phases : List String} {count : Nat}
    (inv : FileInv reader turn file) (held : Held turn journal.value status phases count)
    (h : persist reader host file journal ticket = some file') :
    ∃ stored, file' = some stored ∧ Held turn stored.value status phases count ∧
      FileInv reader turn file' ∧ (terminalFile file = true → terminalFile file' = true) ∧
      ("durable_writeback" ∈ recordedPhases file → "durable_writeback" ∈ recordedPhases file') := by
  obtain ⟨request, answer, hrequest, hallowed, hfile', hcommitted⟩ := persist_commit h
  cases file with
  | none =>
    obtain ⟨next, -, step⟩ := admitCommit_step hallowed
    have hfresh : file' = some journal := by
      generalize answer.appended = appended at step hfile'
      cases step with
      | opened => exact hfile'.symm
      | replayed existing stored => simp at stored
      | appended existing stored => simp at stored
    subst hfresh
    obtain ⟨state, reached⟩ := commitTurnJournal_opens request journal.value hcommitted
    refine ⟨journal, rfl, held, ?_, by simp [terminalFile], by simp [recordedPhases]⟩
    rintro stored ⟨⟩
    exact ⟨⟨state, reached⟩, status, phases, count, held⟩
  | some existing =>
    obtain ⟨⟨previous, reached⟩, status', phases', count', held'⟩ := inv existing rfl
    obtain ⟨later, next, hlater, reached', kept, -⟩ :=
      @commitTurnJournal_kept reader host existing.value previous reached request
    obtain ⟨stored, rfl, hvalue⟩ := Option.map_eq_some_iff.mp (hcommitted.symm.trans hlater)
    rw [← hvalue] at reached'
    have hstored : Held turn stored.value status phases count := by
      obtain ⟨next', -, step⟩ := admitCommit_step hallowed
      generalize answer.appended = appended at step hfile'
      cases step with
      | opened missing => simp at missing
      | replayed existing' hexisting' same =>
        obtain rfl : existing = stored := Option.some.inj hfile'
        obtain rfl := Option.some.inj hexisting'
        exact held_of_stable host held' held (hrequest ▸ same)
      | appended =>
        obtain rfl : journal = stored := Option.some.inj hfile'
        exact held
    refine ⟨stored, rfl, hstored, ?_, ?_, ?_⟩
    · rintro other ⟨⟩
      exact ⟨⟨next, reached'⟩, status, phases, count, hstored⟩
    · intro terminal
      obtain ⟨hstatus, -⟩ := kept.terminal ((terminal_iff reached).mp terminal)
      rw [terminal_iff reached', hstatus]
      exact (terminal_iff reached).mp terminal
    · intro recorded
      have hbefore : "durable_writeback" ∈ previous.completedPhases := by
        simpa [recordedPhases, reached.valid.phases] using recorded
      have hlong := (mem_phases_iff reached.valid).1.mp hbefore
      have hafter := (kept.phases (by omega)).subset hbefore
      simpa [recordedPhases, reached'.valid.phases] using hafter

end Persist

section Invariant

variable {reader : SettlementReader} {host : HostText} {turn : TurnPlan} {s : TurnState}

/-- The worker's journal stands in the file, with these readings of it. -/
def InPlace (turn : TurnPlan) (file : Option Snapshot) (journal : Snapshot)
    (reading : String → List String → Nat → Prop) : Prop :=
  ∃ stored status phases count, file = some stored ∧ Held turn stored.value status phases count ∧
    Held turn journal.value status phases count ∧ reading status phases count

/-- A dispatch without an outcome, as the worker reads it. -/
def AwaitsOutcome (status : String) (phases : List String) (count : Nat) : Prop :=
  status = "in_progress" ∧ phases.length < 2 ∧ 0 < count

/-- What holds where the worker stands: a host attempt is open only while its dispatch is the last
thing on file, and only while the host runs or after a crash of the worker that launched it. -/
def WorkerInv (turn : TurnPlan) (file : Option Snapshot) (launches outcomes : Nat) :
    WorkerPoint → Prop
  | .idle => launches = outcomes ∨
      (launches = outcomes + 1 ∧ ∃ stored, file = some stored ∧ hostOutcomeUnknown stored.value)
  | .recovering journal _ => launches = outcomes ∧ InPlace turn file journal (fun _ _ _ => True)
  | .admitted journal => launches = outcomes ∧ InPlace turn file journal (fun _ _ _ => True)
  | .ready journal =>
    launches = outcomes ∧ InPlace turn file journal (fun status _ _ => status ≠ "failed")
  | .dispatched journal => launches = outcomes ∧ InPlace turn file journal AwaitsOutcome
  | .running journal => launches = outcomes + 1 ∧ InPlace turn file journal AwaitsOutcome
  | .recorded journal => launches = outcomes ∧ InPlace turn file journal (fun _ _ _ => True)

/-- What holds in every state of a Turn. -/
structure TurnInv (reader : SettlementReader) (turn : TurnPlan) (s : TurnState) : Prop where
  file : FileInv reader turn s.file
  settled : s.settlements = if terminalFile s.file then 1 else 0
  worker : WorkerInv turn s.file s.launches s.outcomes s.worker

/-- Once the durable write is on file it stays there, and no host is launched any more. -/
def WritebackKept (s s' : TurnState) : Prop :=
  "durable_writeback" ∈ recordedPhases s.file →
    s'.launches = s.launches ∧ "durable_writeback" ∈ recordedPhases s'.file

/-- What one event keeps. -/
structure Kept (reader : SettlementReader) (turn : TurnPlan) (s s' : TurnState) : Prop where
  inv : TurnInv reader turn s'
  writeback : WritebackKept s s'

private theorem Kept.worker {point : WorkerPoint}
    (h : TurnInv reader turn { s with worker := point }) :
    Kept reader turn s { s with worker := point } :=
  ⟨h, fun recorded => ⟨rfl, recorded⟩⟩

private theorem InPlace.unknown {file : Option Snapshot} {journal : Snapshot}
    (h : InPlace turn file journal AwaitsOutcome) :
    ∃ stored, file = some stored ∧ hostOutcomeUnknown stored.value := by
  obtain ⟨stored, status, phases, count, hfile, hstored, -, rfl, early, positive⟩ := h
  exact ⟨stored, hfile, hstored.unknown positive early⟩

/-- A crash leaves a worker that may start over. -/
private theorem TurnInv.crashed (inv : TurnInv reader turn s) :
    TurnInv reader turn { s with worker := .idle } := by
  refine ⟨inv.file, inv.settled, ?_⟩
  have hworker := inv.worker
  cases hpoint : s.worker with
  | idle =>
    rw [hpoint] at hworker
    exact hworker
  | running journal =>
    rw [hpoint] at hworker
    exact Or.inr ⟨hworker.1, hworker.2.unknown⟩
  | _ =>
    rw [hpoint] at hworker
    exact Or.inl hworker.1

/-- A persist that goes through leaves a file in order. -/
private theorem persisted_inv {journal : Snapshot} {ticket : CommitTicket}
    {file' : Option Snapshot} {status : String} {phases : List String} {count : Nat}
    (inv : TurnInv reader turn s) (held : Held turn journal.value status phases count)
    (h : persist reader host s.file journal ticket = some file') :
    FileInv reader turn file' ∧
      (s.settlements + if terminalFile file' && !terminalFile s.file then 1 else 0) =
        (if terminalFile file' then 1 else 0) ∧
      ("durable_writeback" ∈ recordedPhases s.file → "durable_writeback" ∈ recordedPhases file') ∧
      ∃ stored, file' = some stored ∧ Held turn stored.value status phases count := by
  obtain ⟨stored, rfl, hstored, hfile, hterminal, hwriteback⟩ := persist_spec inv.file held h
  refine ⟨hfile, ?_, hwriteback, stored, rfl, hstored⟩
  have hsettled := inv.settled
  cases hbefore : terminalFile s.file with
  | true =>
    have hafter := hterminal hbefore
    simp [hbefore, hafter, hsettled]
  | false => simp [hbefore, hsettled]

/-- The worker persists and goes on, or it gives up. -/
private theorem persistTo_kept {journal : Snapshot} {ticket : CommitTicket}
    {point : Snapshot → WorkerPoint} {status : String} {phases : List String} {count : Nat}
    (inv : TurnInv reader turn s) (held : Held turn journal.value status phases count)
    (next : ∀ stored, Held turn stored.value status phases count →
      WorkerInv turn (some stored) s.launches s.outcomes (point journal)) :
    Kept reader turn s (persistTo reader host s journal ticket point) := by
  unfold persistTo
  cases hpersist : persist reader host s.file journal ticket with
  | none => exact Kept.worker inv.crashed
  | some file' =>
    obtain ⟨hfile, hsettled, hwriteback, stored, rfl, hstored⟩ := persisted_inv inv held hpersist
    exact ⟨⟨hfile, hsettled, next stored hstored⟩, fun recorded => ⟨rfl, hwriteback recorded⟩⟩

private theorem recordOutcome_kept {journal : Snapshot} {ticket : CommitTicket} {status : String}
    {phases : List String} {count : Nat} (inv : TurnInv reader turn s)
    (launched : s.launches = s.outcomes + 1)
    (held : Held turn journal.value status phases count) :
    Kept reader turn s (recordOutcome reader host s journal ticket) := by
  unfold recordOutcome persistTo
  cases hpersist : persist reader host s.file journal ticket with
  | none => exact Kept.worker inv.crashed
  | some file' =>
    obtain ⟨hfile, hsettled, hwriteback, stored, rfl, hstored⟩ := persisted_inv inv held hpersist
    exact ⟨⟨hfile, hsettled, launched, stored, status, phases, count, rfl, hstored, held, trivial⟩,
      fun recorded => ⟨rfl, hwriteback recorded⟩⟩

/-- Without a result on file, a journal that is not failed is one of a running Turn. -/
private theorem ready_early {stored : Snapshot} {status : String} {phases : List String}
    {count : Nat} (reached : ∃ state, ReachedJournal reader stored.value state)
    (held : Held turn stored.value status phases count) (running : status ≠ "failed")
    (untyped : "typed_result" ∉ phases) : status = "in_progress" ∧ phases.length < 2 := by
  obtain ⟨state, reached⟩ := reached
  have hphases : state.completedPhases = phases :=
    Option.some.inj (reached.valid.phases.symm.trans held.completedPhases)
  have hstatus : state.status.text = status := reached.valid.status.symm.trans held.journalStatus
  have hlength := reached.valid.length_of_status
  have hearly : state.completedPhases.length < 2 := by
    by_contra hlong
    have htyped : "typed_result" ∈ transactionPhases.take 2 := by decide
    have hstarts : transactionPhases.take 2 <+: state.completedPhases :=
      List.prefix_of_prefix_length_le (List.take_prefix 2 transactionPhases) reached.valid.ordered
        (by simp [transactionPhases]; omega)
    exact untyped (hphases ▸ hstarts.subset htyped)
  rw [← hphases]
  refine ⟨?_, hearly⟩
  cases hcase : state.status with
  | inProgress => rw [← hstatus, hcase]; rfl
  | failed => exact absurd (by rw [← hstatus, hcase]; rfl) running
  | schedulerActionRequired =>
    simp only [hcase] at hlength
    omega
  | committed =>
    simp only [hcase] at hlength
    omega
  | stopped =>
    simp only [hcase] at hlength
    omega

/-- One event keeps what holds of a Turn. -/
private theorem turnStep_kept (inv : TurnInv reader turn s) (event : TurnEvent) :
    Kept reader turn s (turnStep reader host turn s event) := by
  have hworker := inv.worker
  have stays : Kept reader turn s s := ⟨inv, fun recorded => ⟨rfl, recorded⟩⟩
  unfold turnStep
  split
  · exact Kept.worker inv.crashed
  · rename_i admission ticket hpoint
    rw [hpoint] at hworker
    split
    · rename_i hnone
      have hlaunches : s.launches = s.outcomes := by
        rcases hworker with hsame | ⟨-, stored, hstored, -⟩
        · exact hsame
        · simp [hstored] at hnone
      have held := withAdmission_held (@newJournal_held turn) admission
      exact persistTo_kept inv held (fun stored hstored =>
        ⟨hlaunches, stored, "in_progress", [], 0, rfl, hstored, held, by decide⟩)
    · exact stays
  · rename_i retryFailed session hpoint
    rw [hpoint] at hworker
    split
    · exact stays
    · rename_i journal hfile
      simp only
      split
      · rename_i hcontinue
        obtain ⟨-, status, phases, count, held⟩ := inv.file journal hfile
        have hlaunches : s.launches = s.outcomes := by
          rcases hworker with hsame | ⟨-, stored, hstored, unknown⟩
          · exact hsame
          · obtain rfl := Option.some.inj (hfile.symm.trans hstored)
            obtain ⟨hblocked, -, -⟩ :=
              @recoveryDecision_unknown reader (inspection turn retryFailed session) _ unknown
            rw [hblocked] at hcontinue
            simp at hcontinue
        exact Kept.worker ⟨inv.file, inv.settled, hlaunches, journal, status, phases, count, hfile,
          held, held, trivial⟩
      · exact stays
  · rename_i journal decision ticket hpoint
    rw [hpoint] at hworker
    obtain ⟨hlaunches, -, status, phases, count, -, -, held, -⟩ := hworker
    have held' := audited_held held (startedAudit decision journal.value)
    exact persistTo_kept inv held' (fun stored hstored =>
      ⟨hlaunches, stored, status, phases, count, rfl, hstored, held', trivial⟩)
  · rename_i journal ticket hpoint
    rw [hpoint] at hworker
    obtain ⟨hlaunches, stored, status, phases, count, hfile, hstored, held, -⟩ := hworker
    split
    · obtain ⟨phases', held'⟩ := resumedJournal_held held
      exact persistTo_kept inv held' (fun stored hstored =>
        ⟨hlaunches, stored, "in_progress", phases', count, rfl, hstored, held', by simp⟩)
    · rename_i notFailed
      refine Kept.worker ⟨inv.file, inv.settled, hlaunches, stored, status, phases, count, hfile,
        hstored, held, ?_⟩
      rintro rfl
      exact notFailed held.status
  · rename_i journal admission ticket hpoint
    rw [hpoint] at hworker
    obtain ⟨hlaunches, -, status, phases, count, -, -, held, running⟩ := hworker
    have held' := withAdmission_held held (some admission)
    exact persistTo_kept inv held' (fun stored hstored =>
      ⟨hlaunches, stored, status, phases, count, rfl, hstored, held', running⟩)
  · rename_i journal ticket hpoint
    rw [hpoint] at hworker
    obtain ⟨hlaunches, stored, status, phases, count, hfile, hstored, held, running⟩ := hworker
    split
    · exact Kept.worker ⟨inv.file, inv.settled, hlaunches, stored, status, phases, count, hfile,
        hstored, held, trivial⟩
    · rename_i untyped
      have hmissing : "typed_result" ∉ phases := fun hmem => untyped (held.typedResult.2 hmem)
      obtain ⟨rfl, early⟩ :=
        ready_early (inv.file stored hfile).1 hstored running hmissing
      simp only [held.attempts]
      have held' := counted_held held (count + 1)
      exact persistTo_kept inv held' (fun stored hstored =>
        ⟨hlaunches, stored, "in_progress", phases, count + 1, rfl, hstored, held', rfl, early,
          Nat.succ_pos count⟩)
  · rename_i journal hpoint
    rw [hpoint] at hworker
    refine ⟨⟨inv.file, inv.settled, congrArg (· + 1) hworker.1, hworker.2⟩, ?_⟩
    intro recorded
    obtain ⟨-, stored, status, phases, count, hfile, hstored, -, -, early, -⟩ := hworker
    obtain ⟨state, reached⟩ := (inv.file stored hfile).1
    have hphases : state.completedPhases = phases :=
      Option.some.inj (reached.valid.phases.symm.trans hstored.completedPhases)
    have hmem : "durable_writeback" ∈ state.completedPhases := by
      simpa [recordedPhases, hfile, reached.valid.phases] using recorded
    have hlong := (mem_phases_iff reached.valid).1.mp hmem
    rw [hphases] at hlong
    omega
  · rename_i journal outcome ticket hpoint
    rw [hpoint] at hworker
    obtain ⟨hlaunches, -, status, phases, count, -, -, held, -⟩ := hworker
    obtain ⟨status', phases', held'⟩ := outcomeJournal_held held outcome
    exact recordOutcome_kept inv hlaunches held'
  · rename_i journal later ticket hpoint
    rw [hpoint] at hworker
    obtain ⟨hlaunches, -, status, phases, count, -, -, held, -⟩ := hworker
    split
    · rename_i stage
      obtain ⟨status', phases', held'⟩ := stage_held held stage
      exact persistTo_kept inv held' (fun stored hstored =>
        ⟨hlaunches, stored, status', phases', count, rfl, hstored, held', trivial⟩)
    · exact stays
  · exact stays

theorem turnRun_inv (events : List TurnEvent) :
    TurnInv reader turn (turnRun reader host turn events) := by
  induction events using List.reverseRecOn with
  | nil =>
    refine ⟨?_, rfl, Or.inl rfl⟩
    rintro stored ⟨⟩
  | append_singleton events event ih =>
    rw [turnRun, List.foldl_append]
    exact (turnStep_kept ih event).inv

/-- Over any further events, no host is launched once the durable write is on file. -/
theorem turnRun_writeback (events later : List TurnEvent) :
    WritebackKept (turnRun reader host turn events) (turnRun reader host turn (events ++ later)) := by
  intro recorded
  induction later using List.reverseRecOn with
  | nil =>
    rw [List.append_nil]
    exact ⟨rfl, recorded⟩
  | append_singleton later event ih =>
    have inv := @turnRun_inv reader host turn (events ++ later)
    have hstep := (@turnStep_kept reader host turn _ inv event).writeback
    obtain ⟨hlaunches, hrecorded⟩ := hstep ih.2
    have hrun : turnRun reader host turn (events ++ (later ++ [event])) =
        turnStep reader host turn (turnRun reader host turn (events ++ later)) event := by
      rw [← List.append_assoc, turnRun, List.foldl_append]
      rfl
    rw [hrun]
    exact ⟨hlaunches.trans ih.1, hrecorded⟩

/-- An open attempt is the last thing on file. -/
private theorem TurnInv.unknown (inv : TurnInv reader turn s) (opened : s.launches ≠ s.outcomes) :
    s.launches = s.outcomes + 1 ∧ ∀ stored ∈ s.file, hostOutcomeUnknown stored.value := by
  have hworker := inv.worker
  have hunknown : s.launches = s.outcomes + 1 ∧
      ∃ stored, s.file = some stored ∧ hostOutcomeUnknown stored.value := by
    cases hpoint : s.worker with
    | idle =>
      rw [hpoint] at hworker
      exact hworker.resolve_left opened
    | running journal =>
      rw [hpoint] at hworker
      exact ⟨hworker.1, hworker.2.unknown⟩
    | _ =>
      rw [hpoint] at hworker
      exact absurd hworker.1 opened
  obtain ⟨hlaunches, stored, hfile, unknown⟩ := hunknown
  refine ⟨hlaunches, fun other hother => ?_⟩
  obtain rfl := Option.some.inj (hfile.symm.trans hother)
  exact unknown

/-- The journal on file is consistent in the eyes of the worker of its Turn. -/
private theorem inspection_consistent {journal : SourceValue} {state : JournalState}
    {status : String} {phases : List String} {count : Nat}
    (valid : ValidSnapshot reader journal state) (held : Held turn journal status phases count)
    (retryFailed : Bool) (session : Option TurnRecoveryCheck) :
    (interpretTurnJournal reader (inspection turn retryFailed session) journal).journalConsistent =
      true := by
  have hown : ownRequest journal = inspection turn false none := by
    simp only [ownRequest, inspection, held.goal, held.key, held.plan, text?, Option.getD_some]
  have hconsistent := valid.consistent
  rw [hown] at hconsistent
  exact hconsistent

end Invariant

section Safety

variable (reader : SettlementReader) (host : HostText) (turn : TurnPlan)

/-- Safety of a Turn over every sequence of commits, crashes and recoveries. -/
theorem turnRun_safe (events later : List TurnEvent) :
    let s := turnRun reader host turn events
    s.launches ≤ s.outcomes + 1 ∧ s.settlements ≤ 1 ∧
      ("durable_writeback" ∈ recordedPhases s.file →
        (turnRun reader host turn (events ++ later)).launches = s.launches) ∧
      ∀ journal ∈ s.file, ∀ retryFailed session,
        let decision := (interpretTurnJournal reader (inspection turn retryFailed session)
          journal.value).recoveryDecision
        (hostOutcomeUnknown journal.value ∨ s.outcomes < s.launches →
          decision.action = .blocked ∧ decision.canContinue = false ∧
            decision.reinvokeHost = false) ∧
        ("durable_writeback" ∈ recordedPhases s.file → decision.reinvokeHost = false) ∧
        (terminalFile s.file = true →
          decision.action = .returnExisting ∧ decision.reinvokeHost = false) := by
  intro s
  have inv : TurnInv reader turn s := turnRun_inv events
  refine ⟨?_, ?_, fun recorded => (turnRun_writeback events later recorded).1, ?_⟩
  · by_cases hsame : s.launches = s.outcomes
    · omega
    · exact (inv.unknown hsame).1.le
  · rw [inv.settled]
    split <;> omega
  · intro journal hjournal retryFailed session decision
    obtain ⟨⟨state, reached⟩, status, phases, count, held⟩ := inv.file journal hjournal
    refine ⟨?_, ?_, ?_⟩
    · intro opened
      apply recoveryDecision_unknown
      rcases opened with unknown | launched
      · exact unknown
      · exact (inv.unknown (by omega)).2 journal hjournal
    · intro recorded
      apply reinvokeHost_writeback
      simpa [recordedPhases, show s.file = some journal from hjournal] using recorded
    · intro terminal
      apply recoveryDecision_terminal _ (inspection_consistent reached.valid held _ _)
      simpa [terminalFile, show s.file = some journal from hjournal] using terminal

end Safety

end Loopx.Turn
