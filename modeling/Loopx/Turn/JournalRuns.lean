/- GID: Loopx/Turn/JournalRuns
   generality: I
   source: loopx/control_plane/turn_driver/turn_journal_effects.ts, turn_journal.ts
   digest: The journal of one Turn as a state machine, over every sequence of commits. -/

import Loopx.Turn.JournalCommit

set_option autoImplicit false
set_option relaxedAutoImplicit false

namespace Loopx.Turn

open Loopx.Lib.Fallible (ok_bind error_bind bind_eq_ok)
open Loopx.Lease (HostText)
open SourceValue (asObject text? operationId)

section Snapshots

variable {reader : SettlementReader} {host : HostText} {journal : SourceValue}
  {state : JournalState}

/-- A snapshot that the write admission accepts, with what it is judged by. -/
structure ValidSnapshot (reader : SettlementReader) (journal : SourceValue)
    (state : JournalState) : Prop where
  schema : journal.field "schema_version" = some (.string "loopx_turn_journal_v0")
  status : journalStatusOf journal = state.status.text
  phases : completedPhasesOf journal = some state.completedPhases
  failed : failedPhaseOf journal = state.failedPhase
  effect : journalEffectId reader journal = some state.effectId
  named : state.effectId ≠ ""
  ordered : state.completedPhases <+: transactionPhases
  attempts : preparedAttemptViolation journal state.status.text state.completedPhases
    state.effectId = none
  settled : journalPhaseViolation state.status.text state.completedPhases state.failedPhase = none
  lineage : (journalLineage reader (ownRequest journal) journal).agrees (ownRequest journal) = true
  audit : ∀ audit ∈ journal.field "recovery_audit", isRecoveryAudit audit = true

/-- The interpretation finds a snapshot consistent when each of its parts is in order. -/
private theorem journalConsistent_iff :
    (interpretTurnJournal reader (ownRequest journal) journal).journalConsistent = true ↔
      (journalLineage reader (ownRequest journal) journal).agrees (ownRequest journal) = true ∧
      (∃ phases, completedPhasesOf journal = some phases ∧ phases <+: transactionPhases) ∧
      (∃ status, JournalStatus.ofText? (journalStatusOf journal) = some status) ∧
      journalPhaseViolation (journalStatusOf journal) ((completedPhasesOf journal).getD [])
        (failedPhaseOf journal) = none ∧
      preparedAttemptViolation journal (journalStatusOf journal)
        ((completedPhasesOf journal).getD []) ((journalEffectId reader journal).getD "") = none := by
  have reading : (journalLineage reader (ownRequest journal) journal).settlement.effectId =
      journalEffectId reader journal := rfl
  simp only [interpretTurnJournal, Bool.and_eq_true, decide_eq_true_eq, Option.isNone_iff_eq_none,
    Option.isSome_iff_exists, reading]
  constructor
  · rintro ⟨⟨⟨⟨hlineage, ⟨phases, hphases⟩, hstarts⟩, hstatus⟩, hsettled⟩, hattempts⟩
    rw [hphases] at hstarts
    exact ⟨hlineage, ⟨phases, hphases, hstarts⟩, hstatus, hsettled, hattempts⟩
  · rintro ⟨hlineage, ⟨phases, hphases, hstarts⟩, hstatus, hsettled, hattempts⟩
    refine ⟨⟨⟨⟨hlineage, ⟨phases, hphases⟩, ?_⟩, hstatus⟩, hsettled⟩, hattempts⟩
    rw [hphases]
    exact hstarts

/-- A valid snapshot is consistent in its own eyes. -/
theorem ValidSnapshot.consistent (h : ValidSnapshot reader journal state) :
    (interpretTurnJournal reader (ownRequest journal) journal).journalConsistent = true := by
  refine journalConsistent_iff.2 ⟨h.lineage, ⟨state.completedPhases, h.phases, h.ordered⟩,
    ⟨state.status, ?_⟩, ?_, ?_⟩
  · rw [h.status]
    exact JournalStatus.ofText?_text _
  · rw [h.status, h.phases, h.failed]
    exact h.settled
  · rw [h.status, h.phases, h.effect]
    exact h.attempts

/-- The write admission accepts exactly the valid snapshots. -/
theorem requireJournalState_iff :
    requireJournalState reader journal = .ok state ↔ ValidSnapshot reader journal state := by
  have context_status : (interpretTurnJournal reader (ownRequest journal) journal).journalStatus =
      journalStatusOf journal := rfl
  have context_phases :
      (interpretTurnJournal reader (ownRequest journal) journal).completedPhases =
        (completedPhasesOf journal).getD [] := rfl
  constructor
  · intro h
    simp only [requireJournalState, context_status, context_phases] at h
    split at h
    · simp at h
    rename_i schema
    split at h
    · simp at h
    rename_i attempts
    split at h
    · simp at h
    rename_i settled
    split at h
    · simp at h
    rename_i effectId heffect
    split at h
    · simp at h
    rename_i audit
    split at h
    · simp at h
    rename_i status hstatus
    obtain rfl := Except.ok.inj h
    obtain ⟨hsome, hfilter⟩ := Option.filter_eq_some_iff.mp heffect
    simp only [Bool.and_eq_true, decide_eq_true_eq] at hfilter
    obtain ⟨hconsistent, hnamed⟩ := hfilter
    obtain ⟨hlineage, ⟨phases, hphases, hstarts⟩, -, -, -⟩ := journalConsistent_iff.1 hconsistent
    have htext := JournalStatus.text_of_ofText? hstatus
    simp only [hphases, Option.getD_some, hsome] at attempts settled ⊢
    refine ⟨not_not.mp schema, htext.symm, hphases, rfl, hsome, hnamed, hstarts, ?_, ?_,
      hlineage, ?_⟩
    · rw [htext]
      exact attempts
    · rw [htext]
      exact settled
    · intro record hrecord
      by_contra hbad
      exact audit ((Option.any_eq_true _ _).mpr ⟨record, hrecord, by simpa using hbad⟩)
  · intro h
    have hconsistent := h.consistent
    obtain ⟨status, phases, effectId, failedPhase⟩ := state
    have haudit : (journal.field "recovery_audit").any (fun audit => !isRecoveryAudit audit) =
        false := by
      rw [Bool.eq_false_iff]
      intro hany
      obtain ⟨record, hrecord, hbad⟩ := (Option.any_eq_true _ _).mp hany
      simp [h.audit record hrecord] at hbad
    have heffect : (some effectId).filter (fun effectId =>
        (interpretTurnJournal reader (ownRequest journal) journal).journalConsistent &&
          decide (effectId ≠ "")) = some effectId := by
      simp [hconsistent, h.named]
    have hsettled := h.settled
    have hattempts := h.attempts
    simp only [requireJournalState, context_status, context_phases, h.schema, not_true, ne_eq,
      if_false, h.status, h.phases, h.effect, h.failed, Option.getD_some, hattempts, hsettled,
      haudit, Bool.false_eq_true, JournalStatus.ofText?_text]
    simp only [ne_eq] at heffect
    rw [heffect]

end Snapshots

section Steps

variable {reader : SettlementReader} {host : HostText} {existing incoming : SourceValue}
  {previous next : JournalState}

/-- What one appended commit may do to the journal in place. -/
inductive JournalStep (host : HostText) (existing incoming : SourceValue)
    (previous next : JournalState) : Prop where
  | audit (terminal : previous.status.terminal = true) (status : next.status = previous.status)
      (record : recordId host incoming = recordId host existing)
  | advance (listed : next.status ∈ statusTransitions previous.status)
      (grows : previous.completedPhases <+: next.completedPhases)
      (legal : next.completedPhases.length = previous.completedPhases.length ∨
        (previous.completedPhases.length, next.completedPhases.length) ∈ legalPhaseAdvances)
  | rewind (failed : previous.status = .failed) (resumed : next.status = .inProgress)
      (validation : previous.failedPhase = some "validation")
      (shrinks : next.completedPhases <+: previous.completedPhases)

theorem requireJournalTransition_step
    (h : requireJournalTransition host existing incoming previous next = .ok ()) :
    planId host incoming = planId host existing ∧
      JournalStep host existing incoming previous next := by
  simp only [requireJournalTransition] at h
  split at h
  · simp at h
  rename_i hplan
  refine ⟨(not_not.mp hplan).symm, ?_⟩
  split at h
  · rename_i terminal
    split at h
    · rename_i same
      exact .audit terminal same.1.symm same.2.symm
    · simp at h
  split at h
  · simp at h
  rename_i listed
  split at h
  · simp at h
  split at h
  · simp at h
  rename_i kept
  split at h
  · simp at h
  rename_i legal
  by_cases grows : previous.completedPhases <+: next.completedPhases
  · refine .advance (not_not.mp listed) grows ?_
    have hle := grows.length_le
    by_cases longer : next.completedPhases.length > previous.completedPhases.length
    · exact Or.inr (not_not.mp (fun hnot => legal ⟨longer, hnot⟩))
    · exact Or.inl (by omega)
  · have rewinds : validationRetryRewind previous next = true := by
      by_contra hnot
      exact kept ⟨grows, by simpa using hnot⟩
    simp only [validationRetryRewind, Bool.and_eq_true, decide_eq_true_eq] at rewinds
    exact .rewind rewinds.1.1.1 rewinds.1.1.2 rewinds.1.2 rewinds.2

/-- Everything an accepted commit may do to the file. -/
inductive CommitStep (reader : SettlementReader) (host : HostText) (file : Option SourceValue)
    (incoming : SourceValue) (next : JournalState) : Bool → Prop where
  | opened (missing : file = none) (status : next.status = .inProgress)
      (phases : next.completedPhases = []) : CommitStep reader host file incoming next true
  | replayed (existing : SourceValue) (stored : file = some existing)
      (same : operationId host existing = operationId host incoming) :
      CommitStep reader host file incoming next false
  | appended (existing : SourceValue) (stored : file = some existing) (previous : JournalState)
      (valid : ValidSnapshot reader existing previous) (effect : next.effectId = previous.effectId)
      (plan : planId host incoming = planId host existing)
      (step : JournalStep host existing incoming previous next) :
      CommitStep reader host file incoming next true

private theorem commitLocked_step {file : Option SourceValue} {answer : CommitAnswer}
    (h : commitLocked reader host file incoming next = .ok answer) :
    CommitStep reader host file incoming next answer.appended := by
  cases file with
  | none =>
    simp only [commitLocked] at h
    split at h
    · simp at h
    rename_i fresh
    obtain rfl := Except.ok.inj h
    simp only [not_or, not_not, List.length_eq_zero_iff] at fresh
    exact .opened rfl fresh.1 fresh.2
  | some existing =>
    obtain ⟨previous, hprevious, h⟩ := bind_eq_ok.mp h
    have valid := requireJournalState_iff.1 hprevious
    split at h
    · simp at h
    rename_i effect
    split at h
    · rename_i same
      obtain rfl := Except.ok.inj h
      exact .replayed existing rfl same
    · obtain ⟨⟨⟩, htransition, h⟩ := bind_eq_ok.mp h
      obtain rfl := Except.ok.inj h
      obtain ⟨plan, step⟩ := requireJournalTransition_step htransition
      exact .appended existing rfl previous valid (not_not.mp effect).symm plan step

/-- An accepted commit carries a valid snapshot and takes one of these steps. -/
theorem admitCommit_step {file : Option SourceValue} {request : CommitRequest}
    {answer : CommitAnswer} (h : admitCommit reader host file request = .ok answer) :
    ∃ next, ValidSnapshot reader request.journal next ∧
      CommitStep reader host file request.journal next answer.appended := by
  simp only [admitCommit] at h
  split at h
  · simp at h
  obtain ⟨next, hnext, h⟩ := bind_eq_ok.mp h
  split at h
  · simp at h
  obtain ⟨-, -, h⟩ := bind_eq_ok.mp h
  exact ⟨next, requireJournalState_iff.1 hnext, commitLocked_step h⟩

end Steps

section Phases

variable {reader : SettlementReader} {journal : SourceValue} {state : JournalState}

theorem ValidSnapshot.phases_eq (h : ValidSnapshot reader journal state) :
    state.completedPhases = transactionPhases.take state.completedPhases.length :=
  List.prefix_iff_eq_take.mp h.ordered

private theorem length_le_seven (h : ValidSnapshot reader journal state) :
    state.completedPhases.length ≤ 7 := h.ordered.length_le

/-- A validation fails right after the host's typed result. -/
theorem ValidSnapshot.length_of_validation (h : ValidSnapshot reader journal state)
    (failed : state.status = .failed) (validation : state.failedPhase = some "validation") :
    state.completedPhases.length = 2 := by
  have settled := h.settled
  have hle := length_le_seven h
  rw [failed, validation] at settled
  generalize state.completedPhases = phases at settled hle
  generalize hn : phases.length = n at settled hle
  simp only [journalPhaseViolation, JournalStatus.text, hn] at settled
  interval_cases n <;> simp [transactionPhases] at settled ⊢

/-- How many phases each status may have recorded. -/
theorem ValidSnapshot.length_of_status (h : ValidSnapshot reader journal state) :
    match state.status with
    | .inProgress => state.completedPhases.length ≤ 5
    | .schedulerActionRequired => state.completedPhases.length = 5
    | .committed => state.completedPhases.length = 7
    | .stopped => state.completedPhases.length = 3
    | .failed => state.completedPhases.length ≤ 6 := by
  have settled := h.settled
  have hle := length_le_seven h
  generalize state.completedPhases = phases at settled hle
  cases hstatus : state.status with
  | inProgress =>
    simp only [hstatus, journalPhaseViolation, JournalStatus.text] at settled
    by_contra hmore
    simp [show phases.length > 5 by omega] at settled
  | schedulerActionRequired =>
    simp only [hstatus, journalPhaseViolation, JournalStatus.text] at settled
    by_contra hother
    simp [hother] at settled
  | committed =>
    simp only [hstatus, journalPhaseViolation, JournalStatus.text, transactionPhases] at settled
    by_contra hother
    simp [hother] at settled
  | stopped =>
    simp only [hstatus, journalPhaseViolation, JournalStatus.text] at settled
    by_contra hother
    simp [hother] at settled
  | failed =>
    simp only [hstatus, journalPhaseViolation, JournalStatus.text] at settled
    by_contra hother
    have hseven : phases.length = 7 := by omega
    have hnone : transactionPhases[7]? = none := rfl
    cases hfailed : state.failedPhase with
    | none => simp [hfailed] at settled
    | some phase => simp [hfailed, hseven, hnone] at settled

/-- The phases that stay, once recorded: the write, the spend and all after them. -/
theorem mem_phases_iff (h : ValidSnapshot reader journal state) :
    ("durable_writeback" ∈ state.completedPhases ↔ 4 ≤ state.completedPhases.length) ∧
      ("quota_spend" ∈ state.completedPhases ↔ 5 ≤ state.completedPhases.length) := by
  have hphases := h.phases_eq
  have hle := length_le_seven h
  generalize hn : state.completedPhases.length = n at hphases hle
  rw [hphases]
  interval_cases n <;> simp [transactionPhases]

end Phases

section Runs

variable {reader : SettlementReader} {host : HostText} {existing later last : SourceValue}
  {previous next final : JournalState}

/-- What the journal file holds in every state a Turn reaches: both scheduler phases are recorded
at once. -/
structure ReachedJournal (reader : SettlementReader) (journal : SourceValue)
    (state : JournalState) : Prop where
  valid : ValidSnapshot reader journal state
  unique : journal.UniqueKeys
  whole : state.completedPhases.length ≠ 6

/-- What stays of a journal, however many commits come after it. -/
structure JournalKept (host : HostText) (existing later : SourceValue)
    (previous next : JournalState) : Prop where
  plan : planId host later = planId host existing
  effect : next.effectId = previous.effectId
  terminal : previous.status.terminal = true →
    next.status = previous.status ∧ recordId host later = recordId host existing
  phases : 3 ≤ previous.completedPhases.length → previous.completedPhases <+: next.completedPhases

theorem JournalKept.refl (host : HostText) (journal : SourceValue) (state : JournalState) :
    JournalKept host journal journal state state :=
  ⟨rfl, rfl, fun _ => ⟨rfl, rfl⟩, fun _ => List.prefix_rfl⟩

theorem JournalKept.trans (h : JournalKept host existing later previous next)
    (h' : JournalKept host later last next final) :
    JournalKept host existing last previous final where
  plan := h'.plan.trans h.plan
  effect := h'.effect.trans h.effect
  terminal := by
    intro terminal
    obtain ⟨hstatus, hrecord⟩ := h.terminal terminal
    obtain ⟨hstatus', hrecord'⟩ := h'.terminal (by rw [hstatus]; exact terminal)
    exact ⟨hstatus'.trans hstatus, hrecord'.trans hrecord⟩
  phases := by
    intro longer
    have grows := h.phases longer
    have hle := grows.length_le
    exact grows.trans (h'.phases (by omega))

/-- The recorded phases grow, or a failed validation is taken back for another try. -/
def PhasesStep (previous next : JournalState) : Prop :=
  previous.completedPhases <+: next.completedPhases ∨
    (previous.status = .failed ∧ previous.failedPhase = some "validation" ∧
      previous.completedPhases = ["host_execute", "typed_result"] ∧
      next.status = .inProgress ∧ next.completedPhases <+: previous.completedPhases)

private theorem phases_of_terminal (h : ValidSnapshot reader existing previous)
    (h' : ValidSnapshot reader later next) (terminal : previous.status.terminal = true)
    (same : next.status = previous.status) : next.completedPhases = previous.completedPhases := by
  have hlength := h.length_of_status
  have hlength' := h'.length_of_status
  rw [h.phases_eq, h'.phases_eq]
  rw [same] at hlength'
  cases hstatus : previous.status with
  | committed =>
    simp only [hstatus] at hlength hlength'
    rw [hlength, hlength']
  | stopped =>
    simp only [hstatus] at hlength hlength'
    rw [hlength, hlength']
  | inProgress => simp [hstatus, JournalStatus.terminal] at terminal
  | failed => simp [hstatus, JournalStatus.terminal] at terminal
  | schedulerActionRequired => simp [hstatus, JournalStatus.terminal] at terminal

/-- One step from a reached journal reaches a journal again and keeps what it must. -/
private theorem journalStep_kept (h : ReachedJournal reader existing previous)
    (h' : ValidSnapshot reader later next) (effect : next.effectId = previous.effectId)
    (plan : planId host later = planId host existing)
    (step : JournalStep host existing later previous next) :
    next.completedPhases.length ≠ 6 ∧ JournalKept host existing later previous next ∧
      PhasesStep previous next := by
  cases step with
  | audit terminal status record =>
    have same := phases_of_terminal h.valid h' terminal status
    rw [PhasesStep, same]
    exact ⟨h.whole, ⟨plan, effect, fun _ => ⟨status, record⟩, fun _ => by rw [same]⟩,
      Or.inl List.prefix_rfl⟩
  | advance listed grows legal =>
    refine ⟨?_, ⟨plan, effect, ?_, fun _ => grows⟩, Or.inl grows⟩
    · have whole := h.whole
      simp only [legalPhaseAdvances, List.mem_cons, Prod.mk.injEq, List.not_mem_nil,
        or_false] at legal
      omega
    · intro terminal
      cases hstatus : previous.status <;>
        simp [hstatus, JournalStatus.terminal, statusTransitions] at terminal listed
  | rewind failed resumed validation shrinks =>
    have htwo := h.valid.length_of_validation failed validation
    have hle := shrinks.length_le
    refine ⟨by omega, ⟨plan, effect, ?_, fun _ => by omega⟩,
      Or.inr ⟨failed, validation, ?_, resumed, shrinks⟩⟩
    · intro terminal
      simp [failed, JournalStatus.terminal] at terminal
    · rw [h.valid.phases_eq, htwo]
      rfl

/-- A commit over a reached journal leaves a reached journal, and keeps what it must. -/
theorem commitTurnJournal_kept (h : ReachedJournal reader existing previous)
    (request : CommitRequest) :
    ∃ later next, (commitTurnJournal reader host (some existing) request).1 = some later ∧
      ReachedJournal reader later next ∧ JournalKept host existing later previous next ∧
      PhasesStep previous next := by
  have stays : ∃ later next, some existing = some later ∧ ReachedJournal reader later next ∧
      JournalKept host existing later previous next ∧ PhasesStep previous next :=
    ⟨existing, previous, rfl, h, JournalKept.refl host existing previous, Or.inl List.prefix_rfl⟩
  simp only [commitTurnJournal]
  cases hallowed : admitCommit reader host (some existing) request with
  | error error => exact stays
  | ok answer =>
    obtain ⟨next, valid, hstep⟩ := admitCommit_step hallowed
    show ∃ later next, (if answer.appended = true then some request.journal else some existing) =
      some later ∧ _
    generalize answer.appended = appended at hstep
    cases hstep with
    | opened missing => simp at missing
    | replayed => exact stays
    | appended stored hstored previous' valid' effect plan step =>
      obtain rfl := Option.some.inj hstored
      obtain rfl : previous = previous' := by
        have h₁ := requireJournalState_iff.2 h.valid
        have h₂ := requireJournalState_iff.2 valid'
        rw [h₁] at h₂
        exact Except.ok.inj h₂
      obtain ⟨whole, kept, phases⟩ := journalStep_kept h valid effect plan step
      exact ⟨request.journal, next, rfl, ⟨valid, request.unique, whole⟩, kept, phases⟩

/-- The first commit of a Turn opens its journal, or leaves no file. -/
theorem commitTurnJournal_opens (request : CommitRequest) :
    ∀ journal ∈ (commitTurnJournal reader host none request).1,
      ∃ state, ReachedJournal reader journal state := by
  intro journal hjournal
  simp only [commitTurnJournal] at hjournal
  cases hallowed : admitCommit reader host none request with
  | error error => simp [hallowed] at hjournal
  | ok answer =>
    obtain ⟨next, valid, hstep⟩ := admitCommit_step hallowed
    simp only [hallowed] at hjournal
    generalize answer.appended = appended at hstep hjournal
    cases hstep with
    | opened missing status phases =>
      obtain rfl : request.journal = journal := by simpa using hjournal
      exact ⟨next, valid, request.unique, by simp [phases]⟩
    | replayed stored hstored => simp at hstored
    | appended stored hstored => simp at hstored

@[simp] theorem journalAfter_append (before : List CommitRequest) (request : CommitRequest) :
    journalAfter reader host (before ++ [request]) =
      (commitTurnJournal reader host (journalAfter reader host before) request).1 := by
  simp [journalAfter]

/-- Whatever was committed, the file is absent or holds a reached journal. -/
theorem journalAfter_reached (requests : List CommitRequest) :
    ∀ journal ∈ journalAfter reader host requests, ∃ state, ReachedJournal reader journal state := by
  induction requests using List.reverseRecOn with
  | nil => simp [journalAfter]
  | append_singleton before request ih =>
    intro journal hjournal
    rw [journalAfter_append] at hjournal
    cases hfile : journalAfter reader host before with
    | none =>
      rw [hfile] at hjournal
      exact commitTurnJournal_opens request journal hjournal
    | some existing =>
      obtain ⟨previous, reached⟩ := ih existing hfile
      obtain ⟨later, next, hlater, reached', -, -⟩ := commitTurnJournal_kept reached request
      rw [hfile, hlater] at hjournal
      obtain rfl := Option.some.inj hjournal
      exact ⟨next, reached'⟩

/-- What a journal keeps over any further commits. -/
theorem journalAfter_kept (before after : List CommitRequest)
    (stored : journalAfter reader host before = some existing)
    (reached : ReachedJournal reader existing previous) :
    ∃ later next, journalAfter reader host (before ++ after) = some later ∧
      ReachedJournal reader later next ∧ JournalKept host existing later previous next := by
  induction after using List.reverseRecOn with
  | nil =>
    rw [List.append_nil]
    exact ⟨existing, previous, stored, reached, JournalKept.refl host existing previous⟩
  | append_singleton after request ih =>
    obtain ⟨later, next, hlater, reached', kept⟩ := ih
    obtain ⟨last, final, hlast, reached'', kept', -⟩ :=
      @commitTurnJournal_kept reader host later next reached' request
    refine ⟨last, final, ?_, reached'', kept.trans kept'⟩
    rw [← List.append_assoc, journalAfter_append, hlater]
    exact hlast

end Runs

end Loopx.Turn
