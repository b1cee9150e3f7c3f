/- GID: Loopx/Turn/JournalProgress
   generality: I
   source: loopx/control_plane/turn_driver/turn_journal_effects.ts, turn_journal.ts
   digest: No reached journal is a dead end, and what holds over the whole life of a Turn. -/

import Loopx.Lease.Exclusion
import Loopx.Turn.JournalRuns

set_option autoImplicit false
set_option relaxedAutoImplicit false

namespace Loopx.Turn

open Loopx.Lib.Fallible (ok_bind error_bind bind_eq_ok)
open Loopx.Lease (HostText)
open SourceValue (asObject text? operationId)

section Rewriting

variable {reader : SettlementReader} {journal later : SourceValue} {state : JournalState}

/-- Leaving out an optional identity leaves the others in agreement. -/
private theorem identityState_omit {required : List (Option SourceValue)}
    {first second : Option SourceValue} {expected : String}
    (h : (identityState required [first, second] expected).2 = true) :
    (identityState required [first, none] expected).2 = true := by
  simp only [identityState, Bool.and_eq_true, List.all_append, List.all_eq_true] at h ⊢
  obtain ⟨⟨⟨hrequired, hpresent⟩, hexpected⟩, hsame, hsame'⟩ := h
  have sublist : ∀ v ∈ [first, none].filter Option.isSome, v ∈ [first, second].filter Option.isSome := by
    intro v hv
    simp only [List.mem_filter, List.mem_cons, List.not_mem_nil, or_false] at hv ⊢
    obtain ⟨rfl | rfl, hsome⟩ := hv
    · exact ⟨Or.inl rfl, hsome⟩
    · simp at hsome
  exact ⟨⟨⟨hrequired, fun v hv => hpresent v (sublist v hv)⟩, hexpected⟩, hsame,
    fun v hv => hsame' v (sublist v hv)⟩

private theorem preparedAttemptViolation_congr {status : String} {phases : List String}
    {effectId : String} (same : later.field "effect_attempts" = journal.field "effect_attempts") :
    preparedAttemptViolation later status phases effectId =
      preparedAttemptViolation journal status phases effectId := by
  simp only [preparedAttemptViolation, same]

/-- A prepared effect that a status allows is allowed while the Turn runs or has failed. -/
private theorem preparedAttemptViolation_open {status status' : String} {phases : List String}
    {effectId : String} (h : preparedAttemptViolation journal status phases effectId = none)
    (opened : status' = "in_progress" ∨ status' = "failed") :
    preparedAttemptViolation journal status' phases effectId = none := by
  rcases preparedAttemptViolation_eq_none.mp h with
    missing | ⟨stepKind, attempt, stored, known, prepared, reference, ordered, -⟩
  · exact preparedAttemptViolation_eq_none.mpr (Or.inl missing)
  · exact preparedAttemptViolation_eq_none.mpr
      (Or.inr ⟨stepKind, attempt, stored, known, prepared, reference, ordered, opened⟩)

/-- A settled status carries no prepared effect. -/
private theorem attempts_none {status : String} {phases : List String} {effectId : String}
    (h : preparedAttemptViolation journal status phases effectId = none)
    (running : status ≠ "in_progress") (failed : status ≠ "failed") :
    journal.field "effect_attempts" = none := by
  rcases preparedAttemptViolation_eq_none.mp h with
    missing | ⟨stepKind, attempt, -, -, -, -, -, running' | failed'⟩
  · exact missing
  · exact absurd running' running
  · exact absurd failed' failed

/-- A snapshot stays valid under a new status, new phases and a new receipt that fit together. -/
private theorem ValidSnapshot.rewritten (h : ValidSnapshot reader journal state)
    {status : JournalStatus} {phases : List String} {failedPhase : Option String}
    (same : ∀ key, key ≠ "status" → key ≠ "completed_phases" → key ≠ "receipt" →
      later.field key = journal.field key)
    (receipt : later.field "receipt" = journal.field "receipt" ∨
      (asObject (later.field "receipt")).field "turn_key" = none)
    (hstatus : journalStatusOf later = status.text)
    (hphases : completedPhasesOf later = some phases)
    (hfailed : failedPhaseOf later = failedPhase) (ordered : phases <+: transactionPhases)
    (attempts : preparedAttemptViolation journal status.text phases state.effectId = none)
    (settled : journalPhaseViolation status.text phases failedPhase = none) :
    ValidSnapshot reader later ⟨status, phases, state.effectId, failedPhase⟩ := by
  have hplan := same "plan" (by decide) (by decide) (by decide)
  have hgoal := same "goal_id" (by decide) (by decide) (by decide)
  have hkey := same "turn_key" (by decide) (by decide) (by decide)
  have hresult := same "host_result" (by decide) (by decide) (by decide)
  have hrequest : ownRequest later = ownRequest journal := by
    simp only [ownRequest, hplan, hgoal, hkey]
  refine ⟨?_, hstatus, hphases, hfailed, ?_, h.named, ordered, ?_, settled, ?_, ?_⟩
  · rw [same "schema_version" (by decide) (by decide) (by decide)]
    exact h.schema
  · rw [journalEffectId, hplan]
    exact h.effect
  · rw [preparedAttemptViolation_congr (same "effect_attempts" (by decide) (by decide) (by decide))]
    exact attempts
  · have hlineage := h.lineage
    rw [hrequest]
    rcases receipt with kept | dropped
    · simpa only [journalLineage, parseTurnJournalGoalBinding, hplan, hgoal, hkey, hresult, kept]
        using hlineage
    · simp only [JournalLineage.agrees, Bool.and_eq_true] at hlineage ⊢
      obtain ⟨hothers, hturn⟩ := hlineage
      constructor
      · simpa only [journalLineage, parseTurnJournalGoalBinding, hplan, hgoal, hkey] using hothers
      · simp only [journalLineage, hplan, hkey, hresult, dropped]
        exact identityState_omit hturn
  · rw [same "recovery_audit" (by decide) (by decide) (by decide)]
    exact h.audit

end Rewriting

section Progress

variable {reader : SettlementReader} {host : HostText} {existing later : SourceValue}
  {previous next : JournalState}

private theorem journalStatusOf_string {journal : SourceValue} {status : JournalStatus}
    (h : journal.field "status" = some (.string status.text)) :
    journalStatusOf journal = status.text := by
  cases status <;> simp [journalStatusOf, h, JournalStatus.text, SourceValue.truthy,
    SourceValue.toText]

private theorem text_injective {status status' : JournalStatus} (h : status.text = status'.text) :
    status = status' := by
  have := JournalStatus.ofText?_text status
  rw [h, JournalStatus.ofText?_text] at this
  exact (Option.some.inj this).symm

/-- The admission a journal's binding asks for. -/
private def admissionFor (journal : SourceValue) : Option SourceAdmission :=
  match parseTurnJournalGoalBinding journal with
  | .legacy => none
  | _ => some .resumed

/-- A valid snapshot, once admitted, is judged against the file alone. -/
private theorem admitCommit_valid {file : Option SourceValue}
    (valid : ValidSnapshot reader later next) (unique : later.UniqueKeys) :
    admitCommit reader host file ⟨later, unique, none, admissionFor later⟩ =
      commitLocked reader host file later next := by
  have hlineage := valid.lineage
  have hstate := requireJournalState_iff.mpr valid
  have hbinding : (journalLineage reader (ownRequest later) later).binding =
      parseTurnJournalGoalBinding later := rfl
  simp only [JournalLineage.agrees, hbinding, Bool.and_eq_true] at hlineage
  have htrim : Authority.trim "" = "" := by decide
  cases hkind : parseTurnJournalGoalBinding later with
  | invalid violation => simp [hkind] at hlineage
  | legacy =>
    simp [admitCommit, hkind, hstate, htrim, admissionFor, requireAdmission]
  | exact goalId goalInstanceId =>
    simp [admitCommit, hkind, hstate, htrim, admissionFor, requireAdmission]

/-- A commit that moves the status on by the table is taken. -/
private theorem commitTurnJournal_moves (h : ReachedJournal reader existing previous)
    (valid : ValidSnapshot reader later next) (unique : later.UniqueKeys)
    (effect : next.effectId = previous.effectId)
    (plan : later.field "plan" = existing.field "plan")
    (stated : later.field "status" = some (.string next.status.text))
    (live : previous.status.terminal = false) (moved : next.status ≠ previous.status)
    (listed : next.status ∈ statusTransitions previous.status)
    (grows : previous.completedPhases <+: next.completedPhases)
    (legal : next.completedPhases.length = previous.completedPhases.length ∨
      (previous.completedPhases.length, next.completedPhases.length) ∈ legalPhaseAdvances) :
    commitTurnJournal reader host (some existing) ⟨later, unique, none, admissionFor later⟩ =
      (some later, .ok ⟨true, previous.effectId⟩) := by
  have hplan : planId host existing = planId host later := by rw [planId, planId, plan]
  have hdiffers : operationId host existing ≠ operationId host later := by
    intro same
    have hstatus := SourceValue.field_string_of_stable host h.unique unique same stated
    have htext := (journalStatusOf_string hstatus).symm.trans h.valid.status
    exact moved (text_injective htext)
  have hlegal : ¬(next.completedPhases.length > previous.completedPhases.length ∧
      (previous.completedPhases.length, next.completedPhases.length) ∉ legalPhaseAdvances) := by
    rintro ⟨longer, illegal⟩
    rcases legal with same | legal
    · omega
    · exact illegal legal
  have htransition : requireJournalTransition host existing later previous next = .ok () := by
    simp only [requireJournalTransition]
    rw [if_neg (not_not.mpr hplan), if_neg (by simp [live]), if_neg (not_not.mpr listed),
      if_neg (fun same => moved same.1.symm), if_neg (fun kept => kept.1 grows), if_neg hlegal]
  have hlocked : commitLocked reader host (some existing) later next =
      .ok ⟨true, previous.effectId⟩ := by
    have hprevious := requireJournalState_iff.mpr h.valid
    simp only [commitLocked, hprevious, ok_bind, effect, ne_eq, not_true, if_false, hdiffers,
      htransition]
  simp only [commitTurnJournal, admitCommit_valid valid unique, hlocked, if_true]

/-- The journal with another status. -/
def withStatus (journal : SourceValue) (status : JournalStatus) : SourceValue :=
  journal.setField "status" (.string status.text)

/-- The journal of a Turn that failed in this phase. -/
def failedIn (journal : SourceValue) (phase : String) : SourceValue :=
  (withStatus journal .failed).setField "receipt" (.object [("failed_phase", .string phase)])

/-- The journal of a Turn whose scheduler phases are acknowledged. -/
def committedOf (journal : SourceValue) : SourceValue :=
  (withStatus journal .committed).setField "completed_phases"
    (.array (transactionPhases.map SourceValue.string))

private theorem ValidSnapshot.isObject (h : ValidSnapshot reader existing previous) :
    existing.IsObject := SourceValue.isObject_of_field h.schema

private theorem field_withStatus (h : existing.IsObject) (status : JournalStatus) (key : String) :
    (withStatus existing status).field key =
      if key = "status" then some (.string status.text) else existing.field key :=
  SourceValue.field_setField h _ _ _

private theorem field_failedIn (h : existing.IsObject) (phase key : String) :
    (failedIn existing phase).field key =
      if key = "receipt" then some (.object [("failed_phase", .string phase)])
      else if key = "status" then some (.string JournalStatus.failed.text)
      else existing.field key := by
  have hobject : (withStatus existing .failed).IsObject :=
    (SourceValue.isObject_setField_iff _ _ _).mpr h
  rw [failedIn, SourceValue.field_setField hobject, field_withStatus h]

private theorem field_committedOf (h : existing.IsObject) (key : String) :
    (committedOf existing).field key =
      if key = "completed_phases" then some (.array (transactionPhases.map SourceValue.string))
      else if key = "status" then some (.string JournalStatus.committed.text)
      else existing.field key := by
  have hobject : (withStatus existing .committed).IsObject :=
    (SourceValue.isObject_setField_iff _ _ _).mpr h
  rw [committedOf, SourceValue.field_setField hobject, field_withStatus h]

/-- A running Turn may fail in its next phase. -/
private theorem failedIn_valid (h : ValidSnapshot reader existing previous) {phase : String}
    (nextPhase : transactionPhases[previous.completedPhases.length]? = some phase) :
    ValidSnapshot reader (failedIn existing phase)
      ⟨.failed, previous.completedPhases, previous.effectId, some phase⟩ := by
  have hfield := field_failedIn h.isObject phase
  have hnamed : phase ≠ "" := by
    intro hempty
    have hmem := List.mem_of_getElem? nextPhase
    simp [hempty, transactionPhases] at hmem
  apply h.rewritten
  · intro key hstatus hphases hreceipt
    rw [hfield, if_neg hreceipt, if_neg hstatus]
  · exact Or.inr (by rw [hfield]; rfl)
  · exact journalStatusOf_string (by rw [hfield]; rfl)
  · rw [completedPhasesOf, hfield]
    exact h.phases
  · rw [failedPhaseOf, hfield]
    rfl
  · exact h.ordered
  · exact preparedAttemptViolation_open h.attempts (Or.inr rfl)
  · simp [journalPhaseViolation, JournalStatus.text, nextPhase, hnamed]

/-- A failed Turn may be taken up again. -/
private theorem resumed_valid (h : ValidSnapshot reader existing previous)
    (bound : previous.completedPhases.length ≤ 5) :
    ValidSnapshot reader (withStatus existing .inProgress)
      ⟨.inProgress, previous.completedPhases, previous.effectId, previous.failedPhase⟩ := by
  have hfield := field_withStatus h.isObject .inProgress
  apply h.rewritten
  · intro key hstatus hphases hreceipt
    rw [hfield, if_neg hstatus]
  · exact Or.inl (by rw [hfield]; rfl)
  · exact journalStatusOf_string (by rw [hfield]; rfl)
  · rw [completedPhasesOf, hfield]
    exact h.phases
  · rw [failedPhaseOf, hfield]
    exact h.failed
  · exact h.ordered
  · exact preparedAttemptViolation_open h.attempts (Or.inl rfl)
  · simp only [journalPhaseViolation, JournalStatus.text]
    simp [show ¬(5 < previous.completedPhases.length) by omega]

/-- A Turn that waits for its scheduler may be committed. -/
private theorem committedOf_valid (h : ValidSnapshot reader existing previous)
    (pending : previous.status = .schedulerActionRequired) :
    ValidSnapshot reader (committedOf existing)
      ⟨.committed, transactionPhases, previous.effectId, previous.failedPhase⟩ := by
  have hfield := field_committedOf h.isObject
  have hattempts := h.attempts
  rw [pending] at hattempts
  have hnone := attempts_none hattempts (by decide) (by decide)
  apply h.rewritten
  · intro key hstatus hphases hreceipt
    rw [hfield, if_neg hphases, if_neg hstatus]
  · exact Or.inl (by rw [hfield]; rfl)
  · exact journalStatusOf_string (by rw [hfield]; rfl)
  · rw [completedPhasesOf, hfield]
    rfl
  · rw [failedPhaseOf, hfield]
    exact h.failed
  · exact List.prefix_rfl
  · exact preparedAttemptViolation_eq_none.mpr (Or.inl hnone)
  · simp [journalPhaseViolation, JournalStatus.text, transactionPhases]

/-- A journal that is not terminal can be moved on. -/
theorem ReachedJournal.moves (host : HostText) (h : ReachedJournal reader existing previous)
    (live : previous.status.terminal = false) :
    ∃ request later, (commitTurnJournal reader host (some existing) request) =
      (some later, .ok ⟨true, previous.effectId⟩) := by
  have hlength := h.valid.length_of_status
  have hobject := h.valid.isObject
  cases hstatus : previous.status with
  | inProgress =>
    simp only [hstatus] at hlength
    have hinside : previous.completedPhases.length < transactionPhases.length := by
      simp only [transactionPhases, List.length_cons, List.length_nil]
      omega
    have hnext := List.getElem?_eq_getElem hinside
    refine ⟨_, _, commitTurnJournal_moves h (failedIn_valid h.valid hnext)
      (SourceValue.uniqueKeys_setField (SourceValue.uniqueKeys_setField h.unique _ _) _ _)
      rfl ?_ ?_ live (by simp [hstatus]) (by simp [hstatus, statusTransitions])
      List.prefix_rfl (Or.inl rfl)⟩
    · simp [field_failedIn hobject]
    · simp [field_failedIn hobject]
  | failed =>
    simp only [hstatus] at hlength
    have hwhole := h.whole
    refine ⟨_, _, commitTurnJournal_moves h (resumed_valid h.valid (by omega))
      (SourceValue.uniqueKeys_setField h.unique _ _)
      rfl ?_ ?_ live (by simp [hstatus]) (by simp [hstatus, statusTransitions])
      List.prefix_rfl (Or.inl rfl)⟩
    · simp [field_withStatus hobject]
    · simp [field_withStatus hobject]
  | schedulerActionRequired =>
    simp only [hstatus] at hlength
    have hlegal : (previous.completedPhases.length, transactionPhases.length) ∈
        legalPhaseAdvances := by
      rw [hlength]
      decide
    refine ⟨_, _, commitTurnJournal_moves h (committedOf_valid h.valid hstatus)
      (SourceValue.uniqueKeys_setField (SourceValue.uniqueKeys_setField h.unique _ _) _ _)
      rfl ?_ ?_ live (by simp [hstatus]) (by simp [hstatus, statusTransitions])
      h.valid.ordered (Or.inr hlegal)⟩
    · simp [field_committedOf hobject]
    · simp [field_committedOf hobject]
  | committed => simp [hstatus, JournalStatus.terminal] at live
  | stopped => simp [hstatus, JournalStatus.terminal] at live

end Progress

section Lifecycle

variable (reader : SettlementReader) (host : HostText)

/-- The life of one Turn's journal, over every sequence of commits. -/
theorem journalAfter_stateMachine (before after : List CommitRequest) {existing : SourceValue}
    (stored : journalAfter reader host before = some existing) :
    ∃ previous, requireJournalState reader existing = .ok previous ∧
      (∃ later next, journalAfter reader host (before ++ after) = some later ∧
        requireJournalState reader later = .ok next ∧
        planId host later = planId host existing ∧ next.effectId = previous.effectId ∧
        (previous.status.terminal = true →
          next.status = previous.status ∧ recordId host later = recordId host existing) ∧
        ∀ phase ∈ ["durable_writeback", "quota_spend"],
          phase ∈ previous.completedPhases → phase ∈ next.completedPhases) ∧
      (∀ request, ∃ later next, journalAfter reader host (before ++ [request]) = some later ∧
        requireJournalState reader later = .ok next ∧ PhasesStep previous next) ∧
      (previous.status.terminal = false → ∃ request later,
        commitTurnJournal reader host (some existing) request =
          (some later, .ok ⟨true, previous.effectId⟩)) := by
  obtain ⟨previous, reached⟩ := journalAfter_reached before existing stored
  refine ⟨previous, requireJournalState_iff.mpr reached.valid, ?_, ?_, reached.moves host⟩
  · obtain ⟨later, next, hlater, reached', kept⟩ := journalAfter_kept before after stored reached
    refine ⟨later, next, hlater, requireJournalState_iff.mpr reached'.valid, kept.plan, kept.effect,
      kept.terminal, ?_⟩
    intro phase hphase recorded
    obtain ⟨hwriteback, hspend⟩ := mem_phases_iff reached.valid
    have hlong : 3 ≤ previous.completedPhases.length := by
      simp only [List.mem_cons, List.not_mem_nil, or_false] at hphase
      rcases hphase with rfl | rfl
      · have := hwriteback.mp recorded
        omega
      · have := hspend.mp recorded
        omega
    exact (kept.phases hlong).subset recorded
  · intro request
    obtain ⟨later, next, hlater, reached', -, hphases⟩ :=
      @commitTurnJournal_kept reader host existing previous reached request
    refine ⟨later, next, ?_, requireJournalState_iff.mpr reached'.valid, hphases⟩
    rw [journalAfter_append, stored]
    exact hlater

end Lifecycle

section Witness

/-- What the reading of a plan comes to where the plan is bound to a selected Todo. -/
def todoSettlement (plan : SourceValue) : SettlementReading :=
  let transaction := asObject (plan.field "transaction")
  let settlement := asObject (transaction.field "settlement_plan")
  let identity := asObject (settlement.field "identity")
  let todo := asObject ((asObject ((asObject (plan.field "turn_envelope")).field "action")).field
    "selected_todo")
  match text? (identity.field "goal_id"), text? (identity.field "agent_id"),
      text? (identity.field "todo_id"), text? (identity.field "turn_instance_id") with
  | some goalId, some agentId, some todoId, some turnInstanceId =>
    let effectId := goalId ++ ":" ++ agentId ++ ":" ++ todoId ++ ":" ++ turnInstanceId
    if identity.field "effect_id" = some (.string effectId) then
      ⟨some effectId,
        settlement.field "schema_version" = some (.string "quota_settlement_plan_v1") &&
          identity.field "schema_version" = some (.string "quota_settlement_identity_v0"),
        transaction.field "turn_key" = some (.string turnInstanceId),
        todo.field "todo_id" = some (.string todoId)⟩
    else ⟨none, false, false, false⟩
  | _, _, _, _ => ⟨none, false, false, false⟩

/-- The first snapshot of a Turn on one Todo. -/
def openingJournal : SourceValue :=
  .object [("schema_version", .string "loopx_turn_journal_v0"), ("goal_id", .string "g"),
    ("turn_key", .string "k"), ("status", .string "in_progress"), ("completed_phases", .array []),
    ("plan", .object [
      ("turn_envelope", .object [("goal_id", .string "g"), ("agent_id", .string "a"),
        ("action", .object [("selected_todo", .object [("todo_id", .string "t")])])]),
      ("transaction", .object [("turn_key", .string "k"),
        ("settlement_plan", .object [("schema_version", .string "quota_settlement_plan_v1"),
          ("identity", .object [("schema_version", .string "quota_settlement_identity_v0"),
            ("effect_id", .string "g:a:t:k"), ("goal_id", .string "g"), ("agent_id", .string "a"),
            ("todo_id", .string "t"), ("turn_instance_id", .string "k")])])])])]

private theorem uniqueKeys_openingJournal : openingJournal.UniqueKeys := by
  intro fields h
  obtain rfl := SourceValue.object.inj h
  decide

def openingRequest : CommitRequest :=
  ⟨openingJournal, uniqueKeys_openingJournal, none, none⟩

theorem journalAfter_stateMachine_open :
    journalAfter todoSettlement Lease.asciiText [openingRequest] = some openingJournal ∧
      ∃ request later, commitTurnJournal todoSettlement Lease.asciiText (some openingJournal)
        request = (some later, .ok ⟨true, "g:a:t:k"⟩) := by
  have stored : journalAfter todoSettlement Lease.asciiText [openingRequest] =
      some openingJournal := by decide
  have hstate : requireJournalState todoSettlement openingJournal =
      .ok ⟨.inProgress, [], "g:a:t:k", none⟩ := by decide
  obtain ⟨previous, hprevious, -, -, moves⟩ :=
    journalAfter_stateMachine todoSettlement Lease.asciiText [openingRequest] [] stored
  rw [hstate] at hprevious
  obtain rfl := Except.ok.inj hprevious
  exact ⟨stored, moves rfl⟩

end Witness

end Loopx.Turn
