/- GID: Loopx/Turn/Recovery
   generality: I
   source: loopx/control_plane/turn_driver/turn_journal.ts
   digest: What the recovery decision can direct for a journal, whatever its history. -/

import Loopx.Turn.JournalRuns

set_option autoImplicit false
set_option relaxedAutoImplicit false

namespace Loopx.Turn

open Loopx.Lease (HostText)
open SourceValue (asObject text?)

section Decision

variable {reader : SettlementReader} {request : InspectionRequest} {journal : SourceValue}
  {phases : List String} {status : String} {consistent : Bool}

/-- A host dispatch is recorded, and nothing of what came of it. -/
def hostOutcomeUnknown (journal : SourceValue) : Prop :=
  journalStatusOf journal = "in_progress" ∧ ((completedPhasesOf journal).getD []).length < 2 ∧
    hostDispatched journal = true

instance (journal : SourceValue) : Decidable (hostOutcomeUnknown journal) :=
  inferInstanceAs (Decidable (_ ∧ _))

/-- An unknown outcome ends the recovery. -/
theorem recoveryDecision_unknown (unknown : hostOutcomeUnknown journal) :
    let decision := (interpretTurnJournal reader request journal).recoveryDecision
    decision.action = .blocked ∧ decision.canContinue = false ∧ decision.reinvokeHost = false := by
  obtain ⟨hstatus, hphases, hdispatched⟩ := unknown
  simp only [interpretTurnJournal, recoveryDecision]
  split
  · exact ⟨rfl, rfl, rfl⟩
  · rw [if_neg (by simp [hstatus]), if_pos ⟨hstatus, hphases, hdispatched⟩]
    exact ⟨rfl, rfl, rfl⟩

/-- What a decision to go on rests on. -/
structure Continued (journal : SourceValue) (phases : List String) (status : String)
    (decision : TurnRecoveryDecision) : Prop where
  running : status ≠ "committed" ∧ status ≠ "stopped"
  known : ¬(status = "in_progress" ∧ phases.length < 2 ∧ hostDispatched journal = true)
  resumes : ∃ phase, recoveryResumePhase journal phases status = some phase ∧
    decision.resumeFrom = some phase ∧
    decision.reinvokeHost = (phase = "host_execute" || phase = "typed_result")

/-- A decision that is not to go on directs no host work; one to go on rests on the journal. -/
theorem recoveryDecision_cases :
    let decision := recoveryDecision request journal phases status consistent
    (decision.action ≠ .continue ∧ decision.canContinue = false ∧
      decision.reinvokeHost = false) ∨
    (consistent = true ∧ decision.action = .continue ∧
      Continued journal phases status decision) := by
  simp only [recoveryDecision]
  split
  · exact Or.inl ⟨by simp, rfl, rfl⟩
  rename_i hconsistent
  split
  · exact Or.inl ⟨by simp, rfl, rfl⟩
  rename_i running
  split
  · exact Or.inl ⟨by simp, rfl, rfl⟩
  rename_i known
  split
  · exact Or.inl ⟨by simp, rfl, rfl⟩
  generalize firstRefusal _ _ = refusal
  cases refusal with
  | some refused => exact Or.inl ⟨by simp, rfl, rfl⟩
  | none =>
    cases hresume : recoveryResumePhase journal phases status with
    | none => exact Or.inl ⟨by simp, rfl, rfl⟩
    | some phase =>
      exact Or.inr ⟨by simpa using hconsistent, rfl, not_or.mp running, known, phase, hresume, rfl,
        rfl⟩

/-- Only the first phases of a consistent journal are resumed in the host. -/
private theorem resumesHost_length
    (settled : journalPhaseViolation status phases (failedPhaseOf journal) = none)
    (ordered : phases <+: transactionPhases) {phase : String}
    (resumes : recoveryResumePhase journal phases status = some phase)
    (hostPhase : phase = "host_execute" ∨ phase = "typed_result") : phases.length ≤ 2 := by
  have hle := ordered.length_le
  have byLength : transactionPhases[phases.length]? = some phase → phases.length ≤ 2 := by
    intro hnext
    by_contra hmore
    have hseven : phases.length ≤ 7 := hle
    rcases hostPhase with rfl | rfl <;>
      interval_cases phases.length <;> simp [transactionPhases] at hnext
  by_cases failed : status = "failed"
  · -- A failed journal names its next phase, or the closeout after the spend.
    have hnames : failedPhaseOf journal = transactionPhases[phases.length]? ∨
        failedPhaseOf journal = some "terminal_closeout" := by
      by_contra hnot
      obtain ⟨hnext, hcloseout⟩ := not_or.mp hnot
      simp [journalPhaseViolation, failed, hnext, hcloseout] at settled
    rcases hnames with hnext | hcloseout
    · cases hphase : failedPhaseOf journal with
      | none => simp [journalPhaseViolation, failed, hphase] at settled
      | some failedPhase =>
        by_cases validation : failedPhase = "validation"
        · rw [hphase, validation] at hnext
          by_contra hmore
          have hseven : phases.length ≤ 7 := hle
          interval_cases phases.length <;> simp [transactionPhases] at hnext
        · have hmem := List.mem_of_getElem? (hnext.symm.trans hphase)
          have hother : failedPhase ≠ "terminal_closeout" := by
            rintro rfl
            simp [transactionPhases] at hmem
          simp only [recoveryResumePhase, hphase, Option.getD_some, failed, validation, hother,
            hmem, false_and, and_false, if_false, and_self, if_true, Option.some.injEq] at resumes
          apply byLength
          rw [← hnext, hphase, resumes]
    · simp only [recoveryResumePhase, hcloseout, Option.getD_some, failed] at resumes
      rcases hostPhase with rfl | rfl <;> simp at resumes
  · by_cases pending : status = "scheduler_action_required"
    · simp only [recoveryResumePhase, pending] at resumes
      rcases hostPhase with rfl | rfl <;> simp at resumes
    · apply byLength
      simpa [recoveryResumePhase, failed, pending] using resumes

/-- Host work is directed only for a journal with the host's own phases, or fewer. -/
theorem reinvokeHost_phases
    (reinvoked : (interpretTurnJournal reader request journal).recoveryDecision.reinvokeHost = true) :
    (completedPhasesOf journal).getD [] <+: ["host_execute", "typed_result"] := by
  rcases @recoveryDecision_cases request journal ((completedPhasesOf journal).getD [])
      (journalStatusOf journal) (interpretTurnJournal reader request journal).journalConsistent with
    ⟨-, -, stays⟩ | ⟨hconsistent, -, continued⟩
  · have hsame : (interpretTurnJournal reader request journal).recoveryDecision.reinvokeHost =
        false := stays
    rw [hsame] at reinvoked
    simp at reinvoked
  · obtain ⟨phase, resumes, -, hreinvoke⟩ := continued.resumes
    have hhost : (decide (phase = "host_execute") || decide (phase = "typed_result")) = true :=
      hreinvoke.symm.trans reinvoked
    simp only [interpretTurnJournal, Bool.and_eq_true, decide_eq_true_eq,
      Option.isNone_iff_eq_none] at hconsistent
    obtain ⟨⟨⟨⟨-, -, ordered⟩, -⟩, settled⟩, -⟩ := hconsistent
    have hlength := resumesHost_length settled ordered resumes (by simpa using hhost)
    exact List.prefix_of_prefix_length_le ordered (List.take_prefix 2 transactionPhases) hlength

/-- No host work is directed once the durable write is recorded. -/
theorem reinvokeHost_writeback
    (recorded : "durable_writeback" ∈ (completedPhasesOf journal).getD []) :
    (interpretTurnJournal reader request journal).recoveryDecision.reinvokeHost = false := by
  by_contra reinvoked
  have hmem := (reinvokeHost_phases (by simpa using reinvoked)).subset recorded
  simp at hmem

/-- The receipt of a terminal journal is returned to whoever names its identities. -/
theorem recoveryDecision_terminal
    (terminal : journalStatusOf journal = "committed" ∨ journalStatusOf journal = "stopped")
    (consistent : (interpretTurnJournal reader request journal).journalConsistent = true) :
    let decision := (interpretTurnJournal reader request journal).recoveryDecision
    decision.action = .returnExisting ∧ decision.reinvokeHost = false := by
  have hdecision : (interpretTurnJournal reader request journal).recoveryDecision =
      recoveryDecision request journal ((completedPhasesOf journal).getD [])
        (journalStatusOf journal) (interpretTurnJournal reader request journal).journalConsistent :=
    rfl
  simp only [hdecision, consistent, recoveryDecision]
  rw [if_neg (by decide), if_pos terminal]
  exact ⟨rfl, rfl⟩

end Decision

end Loopx.Turn
