/- GID: Loopx/Turn/SettlementRuns
   generality: I
   source: loopx/control_plane/turn_driver/settlement.py, settlement.ts, settlement_provider.ts
   digest: Over every run, settlement effects are ordered, executed at most once and not forgotten. -/

import Loopx.Turn.SettlementAdmission
import Loopx.Turn.SettlementDriver

set_option autoImplicit false
set_option relaxedAutoImplicit false

namespace Loopx.Turn

open Loopx.Lib.KeyedList

/-- The ref under which the plan's effect of a step is made durable. -/
def SettlementPlan.effectRef (plan : SettlementPlan) (step : ProviderStepKind) : String :=
  match plan.identity with
  | .ok identity => effectRefOf identity.effectId step
  | .error _ => effectRefOf "" step

theorem effectRefOf_injective (effectId : String) : Function.Injective (effectRefOf effectId) := by
  intro a b h
  have htext : a.text = b.text := by simpa [effectRefOf] using h
  exact ProviderStepKind.text_injective htext

namespace SettlementPlan

variable {plan : SettlementPlan}

theorem effectRef_injective : Function.Injective plan.effectRef := by
  intro a b h
  unfold effectRef at h
  split at h <;> exact effectRefOf_injective _ h

theorem effectRef_ne_empty (step : ProviderStepKind) : plan.effectRef step ≠ "" := by
  unfold effectRef
  split <;> simp [effectRefOf]

theorem effectRef_of_identity {identity : BoundSettlementIdentity}
    (h : plan.identity = .ok identity) (step : ProviderStepKind) :
    plan.effectRef step = effectRefOf identity.effectId step := by
  simp [effectRef, h]

end SettlementPlan

section Compaction

private theorem lookup_compact (payload : Payload) {key : String}
    (kept : key ∈ ["ok", "appended", "classification", "generated_at", "slots", "reason"]) :
    (compactCallback payload).lookup key = payload.lookup key := by
  rw [compactCallback, lookup_filterMap_key, if_pos kept]

private theorem lookup_compact_ref (payload : Payload) :
    (compactCallback payload).lookup "effect_ref" = none := by
  rw [compactCallback, lookup_filterMap_key, if_neg (by decide)]

theorem isCommittedPayload_compact (payload : Payload) :
    isCommittedPayload (compactCallback payload) = isCommittedPayload payload := by
  rw [isCommittedPayload, lookup_compact payload (by simp), lookup_compact payload (by simp),
    isCommittedPayload]

theorem isCommittedPayload_completionPayload (payload : Payload) :
    isCommittedPayload (completionPayload payload) = isCommittedPayload payload := by
  unfold completionPayload
  split
  · rw [isCommittedPayload_setCompletion, isCommittedPayload_compact]
  · exact isCommittedPayload_compact payload

theorem matchesRef_compact (payload : Payload) (effectRef : String) :
    providerPayloadMatchesRef (some (compactCallback payload)) effectRef = true := by
  simp [providerPayloadMatchesRef, lookup_compact_ref]

theorem matchesRef_completionPayload (payload : Payload) (effectRef : String) :
    providerPayloadMatchesRef (some (completionPayload payload)) effectRef = true := by
  unfold completionPayload
  split
  · rw [matchesRef_setCompletion, matchesRef_compact]
  · exact matchesRef_compact payload effectRef

end Compaction

section Invariant

variable (plan : SettlementPlan)

/-- The step has a persisted committed payload of this effect. -/
def SettlementJournal.Settled (journal : SettlementJournal) (step : ProviderStepKind) : Prop :=
  (∃ payload, journal.payload step = some payload ∧ isCommittedPayload payload = true ∧
    providerPayloadMatchesRef (some payload) (plan.effectRef step) = true) ∧
    (step ≠ .terminalCloseout → step.text ∈ journal.completedPhases)

/-- The persisted journal against the effects the providers made durable. -/
structure SettlementJournal.Recorded (journal : SettlementJournal) (durable : List String) :
    Prop where
  settled : ∀ step, (journal.payload step).isSome → journal.Settled plan step
  made : ∀ step, (journal.payload step).isSome → plan.effectRef step ∈ durable
  attempts : journal.effectAttempts = [] ∨
    ∃ step, journal.effectAttempts = [(step, plan.effectRef step)]
  kept : ∀ step, plan.effectRef step ∈ durable →
    (journal.payload step).isSome ∨ journal.effectAttempts = [(step, plan.effectRef step)]

/-- A running driver against the journal it persisted. -/
structure SettlementDriver.Follows (driver : SettlementDriver) (journal : SettlementJournal)
    (durable : List String) : Prop where
  phases : driver.phases = journal.completedPhases
  payloads : ∀ step, (driver.payload step).isSome = (journal.payload step).isSome
  attempts : driver.attempts = journal.effectAttempts
  returned : ∀ attempt, driver.returnedAttempt = some attempt →
    isCommittedPayload attempt.payload = decide (plan.effectRef attempt.stepKind ∈ durable)
  observed : ∀ step answer, driver.observations.lookup step = some answer →
    readbackTruthful answer (decide (plan.effectRef step ∈ durable)) = true

/-- The driver is about to call a provider whose effect is prepared and not durable yet. -/
structure SettlementDriver.Ready (driver : SettlementDriver) (journal : SettlementJournal)
    (durable : List String) (effect : ProviderEffect) : Prop where
  effectRef : effect.effectRef = plan.effectRef effect.stepKind
  fresh : plan.effectRef effect.stepKind ∉ durable
  prepared : driver.attempts = [(effect.stepKind, effect.effectRef)]
  unfailed : driver.failedAttempt = none
  earlier : ∀ step : ProviderStepKind, step.rank < effect.stepKind.rank → journal.Settled plan step

def DriverPoint.Sound (journal : SettlementJournal) (durable : List String) :
    DriverPoint → Prop
  | .idle => True
  | .reducing driver => driver.Follows plan journal durable
  | .acting driver effect =>
    driver.Follows plan journal durable ∧
      reduceTurnSettlementTransaction (driver.request plan) = .ok (.execute effect)
  | .invoking driver effect =>
    driver.Follows plan journal durable ∧ driver.Ready plan journal durable effect

/-- The provider was called in order, and for an effect that was not durable. -/
structure SettlementExecution.Sound (execution : SettlementExecution) : Prop where
  effectRef : execution.effectRef = plan.effectRef execution.stepKind
  fresh : execution.effectRef ∉ execution.durable
  earlier : ∀ step : ProviderStepKind, step.rank < execution.stepKind.rank →
    execution.journal.Settled plan step

/-- Every step the call requires is settled, and its effect durable. -/
def SettlementCompletion.Sound (completion : SettlementCompletion) : Prop :=
  ∀ step, (step = .terminalCloseout → completion.call.terminalCloseoutRequired = true) →
    completion.journal.Settled plan step ∧ plan.effectRef step ∈ completion.durable

structure SettlementWorld.Sound (s : SettlementWorld) : Prop where
  recorded : s.journal.Recorded plan s.durable
  point : s.point.Sound plan s.journal s.durable
  executions : ∀ execution ∈ s.executions, execution.Sound plan
  completions : ∀ completion ∈ s.completions, completion.Sound plan

end Invariant

section Facts

variable {plan : SettlementPlan} {journal : SettlementJournal} {durable : List String}
  {driver : SettlementDriver} {effect : ProviderEffect}

private theorem request_payload (driver : SettlementDriver) (plan : SettlementPlan)
    (step : ProviderStepKind) : (driver.request plan).payload step = driver.payload step := by
  cases step <;> rfl

private theorem request_observations (driver : SettlementDriver) (plan : SettlementPlan)
    (step : ProviderStepKind) :
    (driver.request plan).providerObservations.lookup step =
      (driver.observations.lookup step).map decodeProviderObservation :=
  lookup_map_snd _ _ _

private theorem durable_of_committed {answer : Payload} {b : Bool}
    (h : (decodeProviderObservation answer).kind = .committed)
    (truthful : readbackTruthful answer b = true) : b = true := by
  unfold decodeProviderObservation at h
  unfold readbackTruthful at truthful
  dsimp only at h
  split at h
  · rename_i hkind
    simpa [hkind] using truthful
  · split at h <;> simp at h
  · simp at h
  · simp at h

private theorem not_durable_of_absent {answer : Payload} {b : Bool}
    (h : (decodeProviderObservation answer).kind = .absent)
    (truthful : readbackTruthful answer b = true) : b = false := by
  unfold decodeProviderObservation at h
  unfold readbackTruthful at truthful
  dsimp only at h
  split at h
  · simp at h
  · rename_i hkind
    simpa [hkind] using truthful
  · simp at h
  · simp at h

theorem SettlementDriver.Follows.settled (follows : driver.Follows plan journal durable)
    (recorded : journal.Recorded plan durable) {step : ProviderStepKind}
    (present : (driver.payload step).isSome) : journal.Settled plan step :=
  recorded.settled step (follows.payloads step ▸ present)

theorem SettlementDriver.Follows.checkpointed (follows : driver.Follows plan journal durable)
    (recorded : journal.Recorded plan durable) {step : ProviderStepKind}
    (checkpointed : (driver.request plan).Checkpointed step) : journal.Settled plan step := by
  refine follows.settled recorded ?_
  have hany := checkpointed.2
  rw [request_payload] at hany
  cases hpayload : driver.payload step with
  | none => simp [hpayload] at hany
  | some payload => rfl

/-- What a running driver may rely on when the reduction authorizes an effect. -/
theorem SettlementDriver.Follows.authorized (follows : driver.Follows plan journal durable)
    (recorded : journal.Recorded plan durable)
    (h : reduceTurnSettlementTransaction (driver.request plan) = .ok (.execute effect)) :
    ∃ identity, (driver.request plan).Authorizes identity effect ∧
      effect.effectRef = plan.effectRef effect.stepKind ∧
      (∀ step : ProviderStepKind, step.rank < effect.stepKind.rank → journal.Settled plan step) ∧
      journal.payload effect.stepKind = none := by
  obtain ⟨identity, authorizes⟩ := reduceTurnSettlementTransaction_execute h
  refine ⟨identity, authorizes, ?_, ?_, ?_⟩
  · rw [authorizes.effectRef, SettlementPlan.effectRef_of_identity authorizes.identified]
  · intro step hrank
    exact follows.checkpointed recorded (authorizes.earlier step hrank)
  · by_contra hsome
    have hpayload : (journal.payload effect.stepKind).isSome := Option.isSome_iff_ne_none.mpr hsome
    by_cases hterminal : effect.stepKind = .terminalCloseout
    · have hnone : driver.payload effect.stepKind = none := by
        rw [hterminal]
        exact authorizes.unclosed hterminal
      rw [← follows.payloads, hnone] at hpayload
      simp at hpayload
    · have hphase := (recorded.settled _ hpayload).2 hterminal
      rw [← follows.phases] at hphase
      exact authorizes.missing hterminal hphase

end Facts

section Checkpoint

variable {plan : SettlementPlan} {journal journal' : SettlementJournal} {durable : List String}
  {driver : SettlementDriver} {effect : ProviderEffect} {payload : Payload}

/-- What a persisted checkpoint of the prepared step leaves. -/
private theorem persistCheckpoint_spec
    (attempts : journal.effectAttempts = [(effect.stepKind, effect.effectRef)])
    (h : persistCheckpoint journal effect payload = some journal') :
    journal'.effectAttempts = [] ∧
      journal'.completedPhases =
        (if effect.stepKind = .terminalCloseout then journal.completedPhases
          else effect.completedPhases) ∧
      (journal'.payload effect.stepKind = some (compactCallback payload) ∨
        journal'.payload effect.stepKind = some (completionPayload payload)) ∧
      ∀ step, step ≠ effect.stepKind →
        journal'.payload step = journal.payload step ∨
          (effect.stepKind = .terminalCloseout ∧ step = .durableWriteback ∧
            ∃ completion, journal'.payload step =
              some (setKey ((journal.payload step).getD []) "completion" completion)) := by
  obtain ⟨⟨step, effectRef, phases⟩, action⟩ := effect
  dsimp only at attempts h ⊢
  have forgotten : ∀ (written : SettlementJournal) (ref : String),
      written.forget step ref = some journal' → written.effectAttempts = journal.effectAttempts →
      journal' = { written with effectAttempts := [] } := by
    intro written ref hforget hsame
    unfold SettlementJournal.forget at hforget
    split at hforget
    · simp at hforget
    · rw [hsame, attempts] at hforget
      simpa [eraseKey] using hforget.symm
  unfold persistCheckpoint at h
  cases step with
  | terminalCloseout =>
    obtain ⟨ref, -, hforget⟩ := Option.bind_eq_some_iff.mp h
    obtain rfl := forgotten _ _ hforget rfl
    refine ⟨rfl, rfl, .inr rfl, ?_⟩
    intro step hne
    cases step with
    | durableWriteback => exact .inr ⟨rfl, rfl, _, rfl⟩
    | quotaSpend => exact .inl rfl
    | terminalCloseout => exact absurd rfl hne
  | durableWriteback =>
    obtain ⟨ref, -, hforget⟩ := Option.bind_eq_some_iff.mp h
    obtain rfl := forgotten _ _ hforget rfl
    refine ⟨rfl, rfl, .inr rfl, ?_⟩
    intro step hne
    cases step with
    | durableWriteback => exact absurd rfl hne
    | quotaSpend => exact .inl rfl
    | terminalCloseout => exact .inl rfl
  | quotaSpend =>
    obtain ⟨ref, -, hforget⟩ := Option.bind_eq_some_iff.mp h
    obtain rfl := forgotten _ _ hforget rfl
    refine ⟨rfl, rfl, .inl rfl, ?_⟩
    intro step hne
    cases step with
    | durableWriteback => exact .inl rfl
    | quotaSpend => exact absurd rfl hne
    | terminalCloseout => exact .inl rfl

private theorem prefix_take_idxOf {phases transactionPhases : List String} {phase : String}
    (ordered : phases <+: transactionPhases) (missing : phase ∉ phases) :
    phases <+: transactionPhases.take (transactionPhases.idxOf phase + 1) := by
  obtain ⟨rest, rfl⟩ := ordered
  rw [List.idxOf_append_of_notMem missing]
  exact List.prefix_of_prefix_length_le (List.prefix_append _ _) (List.take_prefix _ _)
    (by simp; omega)

/-- The phases of a checkpoint hold the step and all that was completed before. -/
private theorem checkpoint_phases {identity : BoundSettlementIdentity}
    (authorizes : (driver.request plan).Authorizes identity effect)
    (base : effect.stepKind ≠ .terminalCloseout) :
    effect.stepKind.text ∈ effect.completedPhases ∧ driver.phases <+: effect.completedPhases := by
  obtain ⟨hmem, hphases⟩ := authorizes.phases base
  rw [hphases]
  refine ⟨?_, prefix_take_idxOf authorizes.ordered (authorizes.missing base)⟩
  rw [List.mem_take_iff_getElem]
  have hlt := List.idxOf_lt_length_of_mem hmem
  exact ⟨_, by omega, List.getElem_idxOf hlt⟩

/-- The evidence for a checkpoint is that the effect is durable. -/
private theorem checkpoint_durable {identity : BoundSettlementIdentity}
    (follows : driver.Follows plan journal durable)
    (authorizes : (driver.request plan).Authorizes identity effect)
    (action : effect.action = .checkpoint payload) :
    isCommittedPayload payload = true ∧ plan.effectRef effect.stepKind ∈ durable := by
  have evidence := authorizes.evidence
  simp only [TurnSettlementRequest.Evidence, action] at evidence
  obtain ⟨-, hcommitted, -, ⟨attempt, hreturned, hstep, hpayload⟩ | ⟨observation, hlookup, hkind⟩⟩ :=
    evidence
  · have htruth := follows.returned attempt hreturned
    rw [hpayload, hstep] at htruth
    exact ⟨hcommitted, by simpa using htruth.symm⟩
  · rw [request_observations] at hlookup
    obtain ⟨answer, hanswer, rfl⟩ := Option.map_eq_some_iff.mp hlookup
    have htruth := durable_of_committed hkind (follows.observed _ _ hanswer)
    exact ⟨hcommitted, by simpa using htruth⟩

private theorem checkpoint_prepared {identity : BoundSettlementIdentity}
    (authorizes : (driver.request plan).Authorizes identity effect)
    (action : effect.action = .checkpoint payload) :
    driver.attempts = [(effect.stepKind, effect.effectRef)] := by
  have evidence := authorizes.evidence
  simp only [TurnSettlementRequest.Evidence, action] at evidence
  exact evidence.1.1

/-- A checkpoint leaves the other steps with or without their payload, as they were. -/
private theorem checkpoint_present (recorded : journal.Recorded plan durable)
    (follows : driver.Follows plan journal durable)
    (reduced : reduceTurnSettlementTransaction (driver.request plan) = .ok (.execute effect))
    (action : effect.action = .checkpoint payload)
    (h : persistCheckpoint journal effect payload = some journal') {step : ProviderStepKind}
    (other : step ≠ effect.stepKind) :
    (journal'.payload step).isSome = (journal.payload step).isSome := by
  obtain ⟨identity, authorizes, -, hearlier, -⟩ := follows.authorized recorded reduced
  have hattempts := checkpoint_prepared authorizes action
  obtain ⟨-, -, -, hother⟩ := persistCheckpoint_spec (follows.attempts ▸ hattempts) h
  rcases hother step other with hsame | ⟨hterminal, rfl, completion, hset⟩
  · rw [hsame]
  · obtain ⟨⟨written, hwritten, -⟩, -⟩ :=
      hearlier .durableWriteback (by simp [hterminal, ProviderStepKind.rank])
    rw [hset, hwritten]
    rfl

theorem SettlementJournal.Recorded.checkpoint (recorded : journal.Recorded plan durable)
    (follows : driver.Follows plan journal durable)
    (reduced : reduceTurnSettlementTransaction (driver.request plan) = .ok (.execute effect))
    (action : effect.action = .checkpoint payload)
    (h : persistCheckpoint journal effect payload = some journal') :
    journal'.Recorded plan durable := by
  obtain ⟨identity, authorizes, -, hearlier, -⟩ := follows.authorized recorded reduced
  obtain ⟨hcommitted, hdurable⟩ := checkpoint_durable follows authorizes action
  have hattempts := checkpoint_prepared authorizes action
  have hpresent := fun step => @checkpoint_present _ _ _ _ _ _ _ recorded follows reduced action h
    step
  obtain ⟨hnone, hphases, hown, hother⟩ :=
    persistCheckpoint_spec (follows.attempts ▸ hattempts) h
  have hgrown : journal.completedPhases <+: journal'.completedPhases := by
    rw [hphases]
    split
    · exact List.prefix_rfl
    · rename_i hbase
      rw [← follows.phases]
      exact (checkpoint_phases authorizes hbase).2
  refine ⟨?_, ?_, .inl hnone, ?_⟩
  · intro step hsome
    by_cases hstep : step = effect.stepKind
    · subst hstep
      refine ⟨?_, ?_⟩
      · rcases hown with hown | hown
        · exact ⟨_, hown, by rw [isCommittedPayload_compact, hcommitted],
            matchesRef_compact payload _⟩
        · exact ⟨_, hown, by rw [isCommittedPayload_completionPayload, hcommitted],
            matchesRef_completionPayload payload _⟩
      · intro hbase
        rw [hphases, if_neg hbase]
        exact (checkpoint_phases authorizes hbase).1
    · rw [hpresent step hstep] at hsome
      obtain ⟨⟨stored, hstored, hok, hbound⟩, hphase⟩ := recorded.settled step hsome
      refine ⟨?_, fun hbase => hgrown.subset (hphase hbase)⟩
      rcases hother step hstep with hsame | ⟨-, -, completion, hset⟩
      · exact ⟨stored, hsame.trans hstored, hok, hbound⟩
      · rw [hstored] at hset
        exact ⟨_, hset, by rw [Option.getD_some, isCommittedPayload_setCompletion, hok],
          by rw [Option.getD_some, matchesRef_setCompletion, hbound]⟩
  · intro step hsome
    by_cases hstep : step = effect.stepKind
    · rw [hstep]
      exact hdurable
    · exact recorded.made step (hpresent step hstep ▸ hsome)
  · intro step hmade
    by_cases hstep : step = effect.stepKind
    · rw [hstep]
      rcases hown with hown | hown <;> exact .inl (by rw [hown]; rfl)
    · rcases recorded.kept step hmade with hsome | hattempt
      · exact .inl (hpresent step hstep ▸ hsome)
      · rw [← follows.attempts, hattempts] at hattempt
        simp only [List.cons.injEq, Prod.mk.injEq, and_true] at hattempt
        exact absurd hattempt.1.symm hstep

theorem SettlementDriver.Follows.checkpoint (recorded : journal.Recorded plan durable)
    (follows : driver.Follows plan journal durable)
    (reduced : reduceTurnSettlementTransaction (driver.request plan) = .ok (.execute effect))
    (action : effect.action = .checkpoint payload)
    (h : persistCheckpoint journal effect payload = some journal') :
    (driver.checkpointed effect.stepKind payload effect.completedPhases).Follows plan journal'
      durable := by
  obtain ⟨identity, authorizes, -⟩ := follows.authorized recorded reduced
  have hattempts := checkpoint_prepared authorizes action
  obtain ⟨hnone, hphases, hown, -⟩ := persistCheckpoint_spec (follows.attempts ▸ hattempts) h
  refine ⟨?_, ?_, ?_, ?_, ?_⟩
  · rw [SettlementDriver.checkpointed_phases, hphases, follows.phases]
  · intro step
    rw [SettlementDriver.checkpointed_payload]
    split
    · rename_i hstep
      rw [hstep]
      rcases hown with hown | hown <;> rw [hown] <;> rfl
    · rename_i hstep
      rw [checkpoint_present recorded follows reduced action h hstep, follows.payloads]
  · rw [SettlementDriver.checkpointed_attempts, hattempts, hnone]
    simp [eraseKey]
  · simp
  · intro step answer hlookup
    rw [SettlementDriver.checkpointed_observations, lookup_eraseKey] at hlookup
    split at hlookup
    · simp at hlookup
    · exact follows.observed step answer hlookup

end Checkpoint

section Steps

variable {plan : SettlementPlan} {s s' : SettlementWorld} {driver : SettlementDriver}
  {effect : ProviderEffect}

/-- Preparing an attempt that is already prepared changes nothing. -/
private theorem prepare_again {journal : SettlementJournal} {step : ProviderStepKind}
    {effectRef : String} (prepared : journal.effectAttempts = [(step, effectRef)]) :
    journal.prepare step effectRef = journal := by
  cases journal
  simp only at prepared
  subst prepared
  simp [SettlementJournal.prepare, setKey]

/-- Payloads and phases are no matter of the attempts. -/
private theorem payload_attempts (journal : SettlementJournal)
    (attempts : List (ProviderStepKind × String)) (step : ProviderStepKind) :
    SettlementJournal.payload { journal with effectAttempts := attempts } step =
      journal.payload step := by
  cases step <;> rfl

private theorem settled_attempts {journal : SettlementJournal} {step : ProviderStepKind}
    (settled : journal.Settled plan step) (attempts : List (ProviderStepKind × String)) :
    SettlementJournal.Settled plan { journal with effectAttempts := attempts } step := by
  obtain ⟨⟨payload, hstored, hpayload⟩, hphase⟩ := settled
  exact ⟨⟨payload, (payload_attempts journal attempts step).trans hstored, hpayload⟩, hphase⟩

private theorem follows_start (journal : SettlementJournal) (durable : List String)
    (call : SettlementCall) :
    (SettlementDriver.start journal call).Follows plan journal durable where
  phases := rfl
  payloads := by
    intro step
    cases step <;> rfl
  attempts := rfl
  returned := by simp [SettlementDriver.start]
  observed := by simp [SettlementDriver.start]

/-- Evidence about one step, replaced by an answer that is true, leaves the driver in step. -/
private theorem SettlementDriver.Follows.returned_truthful
    (follows : driver.Follows plan s.journal s.durable) {step : ProviderStepKind} {payload : Payload}
    {durable : List String}
    (truthful : isCommittedPayload payload = decide (plan.effectRef step ∈ durable))
    (others : ∀ other, other ≠ step →
      (plan.effectRef other ∈ durable ↔ plan.effectRef other ∈ s.durable)) :
    (driver.returned step payload).Follows plan s.journal durable where
  phases := follows.phases
  payloads := by
    intro other
    rw [← follows.payloads other]
    cases other <;> rfl
  attempts := follows.attempts
  returned := by
    intro attempt hattempt
    obtain rfl := Option.some.inj hattempt
    exact truthful
  observed := by
    intro other answer hlookup
    rw [SettlementDriver.returned, lookup_eraseKey] at hlookup
    split at hlookup
    · simp at hlookup
    · rename_i hother
      rw [decide_eq_decide.mpr (others other hother)]
      exact follows.observed other answer hlookup

private theorem SettlementDriver.Follows.observe_truthful
    (follows : driver.Follows plan s.journal s.durable) {step : ProviderStepKind} {answer : Payload}
    (truthful : readbackTruthful answer (decide (plan.effectRef step ∈ s.durable)) = true) :
    (driver.observe step answer).Follows plan s.journal s.durable where
  phases := follows.phases
  payloads := by
    intro other
    rw [← follows.payloads other]
    cases other <;> rfl
  attempts := follows.attempts
  returned := follows.returned
  observed := by
    intro other found hlookup
    rw [SettlementDriver.observe, lookup_setKey] at hlookup
    split at hlookup
    · rename_i hother
      obtain rfl := Option.some.inj hlookup
      rw [hother]
      exact truthful
    · exact follows.observed other found hlookup

/-- An absent readback of the prepared attempt: the effect is not durable. -/
private theorem fresh_of_absent {identity : BoundSettlementIdentity}
    (follows : driver.Follows plan s.journal s.durable)
    (authorizes : (driver.request plan).Authorizes identity effect)
    (action : effect.action = .executePrepared) :
    driver.attempts = [(effect.stepKind, effect.effectRef)] ∧
      plan.effectRef effect.stepKind ∉ s.durable := by
  have evidence := authorizes.evidence
  simp only [TurnSettlementRequest.Evidence, action] at evidence
  obtain ⟨⟨hattempts, -⟩, -, observation, hlookup, hkind⟩ := evidence
  rw [request_observations] at hlookup
  obtain ⟨answer, hanswer, rfl⟩ := Option.map_eq_some_iff.mp hlookup
  have htruth := not_durable_of_absent hkind (follows.observed _ _ hanswer)
  exact ⟨hattempts, by simpa using htruth⟩

private theorem sound_readback (sound : s.Sound plan)
    (follows : driver.Follows plan s.journal s.durable)
    (reduced : reduceTurnSettlementTransaction (driver.request plan) = .ok (.execute effect))
    {answer : Payload} (h : actStep s driver effect (.readback answer) = some s') :
    s'.Sound plan := by
  obtain ⟨identity, authorizes, href, -⟩ := follows.authorized sound.recorded reduced
  simp only [actStep] at h
  split at h
  · rename_i haction
    split at h
    · rename_i htruthful
      have evidence := authorizes.evidence
      simp only [TurnSettlementRequest.Evidence, haction] at evidence
      have hattempts : s.journal.effectAttempts = [(effect.stepKind, effect.effectRef)] :=
        follows.attempts ▸ evidence.1.1
      rw [prepare_again hattempts, ite_self] at h
      obtain rfl := Option.some.inj h
      rw [href] at htruthful
      exact ⟨sound.recorded, follows.observe_truthful htruthful, sound.executions,
        sound.completions⟩
    · simp at h
  · simp at h

private theorem sound_prepare (sound : s.Sound plan)
    (follows : driver.Follows plan s.journal s.durable)
    (reduced : reduceTurnSettlementTransaction (driver.request plan) = .ok (.execute effect))
    (h : actStep s driver effect .prepare = some s') : s'.Sound plan := by
  obtain ⟨identity, authorizes, href, hearlier, hpayload⟩ :=
    follows.authorized sound.recorded reduced
  simp only [actStep] at h
  split at h
  · rename_i haction
    obtain rfl := Option.some.inj h
    have evidence := authorizes.evidence
    simp only [TurnSettlementRequest.Evidence, haction] at evidence
    have hnone : s.journal.effectAttempts = [] := follows.attempts ▸ evidence.1
    have hattempts : (s.journal.prepare effect.stepKind effect.effectRef).effectAttempts =
        [(effect.stepKind, effect.effectRef)] := by
      simp [SettlementJournal.prepare, hnone, setKey]
    have hfresh : plan.effectRef effect.stepKind ∉ s.durable := by
      intro hmade
      rcases sound.recorded.kept _ hmade with hsome | hattempt
      · simp [hpayload] at hsome
      · simp [hnone] at hattempt
    have hsame : ∀ step, (s.journal.prepare effect.stepKind effect.effectRef).payload step =
        s.journal.payload step := payload_attempts s.journal _
    refine ⟨⟨?_, ?_, ?_, ?_⟩, ⟨⟨follows.phases, ?_, ?_, follows.returned, follows.observed⟩,
      ⟨href, hfresh, ?_, authorizes.unfailed, ?_⟩⟩, sound.executions, sound.completions⟩
    · intro step hsome
      rw [hsame] at hsome
      exact settled_attempts (sound.recorded.settled step hsome) _
    · intro step hsome
      exact sound.recorded.made step (hsame step ▸ hsome)
    · exact .inr ⟨effect.stepKind, by rw [hattempts, href]⟩
    · intro step hmade
      rcases sound.recorded.kept step hmade with hsome | hattempt
      · exact .inl (by rw [hsame]; exact hsome)
      · simp [hnone] at hattempt
    · intro step
      rw [hsame, ← follows.payloads]
      cases step <;> rfl
    · rw [hattempts]
      simp only [SettlementDriver.prepared]
      rw [follows.attempts, hnone]
      simp [setKey]
    · simp only [SettlementDriver.prepared]
      rw [follows.attempts, hnone]
      simp [setKey]
    · intro step hrank
      exact settled_attempts (hearlier step hrank) _
  · simp at h

private theorem sound_permit (sound : s.Sound plan)
    (follows : driver.Follows plan s.journal s.durable)
    (reduced : reduceTurnSettlementTransaction (driver.request plan) = .ok (.execute effect))
    {allowed : Bool} (h : actStep s driver effect (.permit allowed) = some s') : s'.Sound plan := by
  obtain ⟨identity, authorizes, href, hearlier, -⟩ := follows.authorized sound.recorded reduced
  simp only [actStep] at h
  split at h
  · rename_i haction
    obtain ⟨hattempts, hfresh⟩ := fresh_of_absent follows authorizes haction
    split at h
    · obtain rfl := Option.some.inj h
      exact ⟨sound.recorded, ⟨follows, href, hfresh, hattempts, authorizes.unfailed, hearlier⟩,
        sound.executions, sound.completions⟩
    · obtain rfl := Option.some.inj h
      refine ⟨sound.recorded, ?_, sound.executions, sound.completions⟩
      refine follows.returned_truthful ?_ (fun _ _ => Iff.rfl)
      rw [decide_eq_false hfresh]
      decide
  · simp at h

private theorem sound_abort (sound : s.Sound plan)
    (follows : driver.Follows plan s.journal s.durable)
    (reduced : reduceTurnSettlementTransaction (driver.request plan) = .ok (.execute effect))
    {payload : Payload} (action : effect.action = .abortPrepared payload) :
    (s.persisted (s.journal.abort effect.stepKind effect.effectRef)
      (driver.aborted effect.stepKind payload)).Sound plan := by
  obtain ⟨identity, authorizes, href, -⟩ := follows.authorized sound.recorded reduced
  have evidence := authorizes.evidence
  simp only [TurnSettlementRequest.Evidence, action] at evidence
  obtain ⟨⟨hattempts, -⟩, attempt, hreturned, hstep, hrejected⟩ := evidence
  have hfresh : plan.effectRef effect.stepKind ∉ s.durable := by
    have htruth := follows.returned attempt hreturned
    rw [hrejected, hstep] at htruth
    simpa using htruth.symm
  have hprepared : s.journal.effectAttempts = [(effect.stepKind, effect.effectRef)] :=
    follows.attempts ▸ hattempts
  have habort : s.journal.abort effect.stepKind effect.effectRef =
      some { s.journal with effectAttempts := [] } := by
    simp [SettlementJournal.abort, SettlementJournal.forget, hprepared, eraseKey]
  have hsame := payload_attempts s.journal []
  rw [habort]
  refine ⟨⟨?_, ?_, .inl rfl, ?_⟩, ⟨follows.phases, ?_, ?_, ?_, ?_⟩, sound.executions,
    sound.completions⟩
  · intro step hsome
    rw [SettlementWorld.persisted, hsame] at hsome
    exact settled_attempts (sound.recorded.settled step hsome) []
  · intro step hsome
    exact sound.recorded.made step (hsame step ▸ hsome)
  · intro step hmade
    rcases sound.recorded.kept step hmade with hsome | hattempt
    · exact .inl (by rw [SettlementWorld.persisted, hsame]; exact hsome)
    · rw [hprepared] at hattempt
      simp only [List.cons.injEq, Prod.mk.injEq, and_true] at hattempt
      exact absurd (hattempt.1 ▸ hmade) hfresh
  · intro step
    rw [SettlementWorld.persisted, hsame, ← follows.payloads]
    cases step <;> rfl
  · simp only [SettlementDriver.aborted, SettlementDriver.closed, SettlementWorld.persisted]
    rw [follows.attempts, hprepared]
    simp [eraseKey]
  · simp [SettlementDriver.aborted, SettlementDriver.closed]
  · intro step answer hlookup
    simp only [SettlementDriver.aborted, SettlementDriver.closed, lookup_eraseKey] at hlookup
    split at hlookup
    · simp at hlookup
    · exact follows.observed step answer hlookup

private theorem sound_persist (sound : s.Sound plan)
    (follows : driver.Follows plan s.journal s.durable)
    (reduced : reduceTurnSettlementTransaction (driver.request plan) = .ok (.execute effect))
    (h : actStep s driver effect .persist = some s') : s'.Sound plan := by
  simp only [actStep] at h
  split at h
  · rename_i payload haction
    obtain rfl := Option.some.inj h
    cases hpersist : persistCheckpoint s.journal effect payload with
    | none => exact ⟨sound.recorded, trivial, sound.executions, sound.completions⟩
    | some journal' =>
      exact ⟨sound.recorded.checkpoint follows reduced haction hpersist,
        SettlementDriver.Follows.checkpoint sound.recorded follows reduced haction hpersist,
        sound.executions, sound.completions⟩
  · rename_i payload haction
    obtain rfl := Option.some.inj h
    exact sound_abort sound follows reduced haction
  · simp at h

private theorem sound_invoke (sound : s.Sound plan)
    (follows : driver.Follows plan s.journal s.durable)
    (ready : driver.Ready plan s.journal s.durable effect) {durable : Bool}
    {response : Option Payload} (truthful : responseTruthful response durable = true) :
    (invokeStep s driver effect durable response).Sound plan := by
  have hmem : ∀ step, plan.effectRef step ∈
      (if durable then s.durable ++ [effect.effectRef] else s.durable) ↔
        plan.effectRef step ∈ s.durable ∨ (durable = true ∧ step = effect.stepKind) := by
    intro step
    cases durable with
    | false => simp
    | true => simp [ready.effectRef, SettlementPlan.effectRef_injective.eq_iff]
  have hprepared : s.journal.effectAttempts = [(effect.stepKind, plan.effectRef effect.stepKind)] := by
    rw [← follows.attempts, ready.prepared, ready.effectRef]
  refine ⟨⟨sound.recorded.settled, ?_, sound.recorded.attempts, ?_⟩, ?_, ?_, sound.completions⟩
  · intro step hsome
    exact (hmem step).mpr (.inl (sound.recorded.made step hsome))
  · intro step hmade
    rcases (hmem step).mp hmade with hold | ⟨-, rfl⟩
    · exact sound.recorded.kept step hold
    · exact .inr hprepared
  · cases response with
    | none => trivial
    | some payload =>
      refine follows.returned_truthful ?_ ?_
      · have hcommitted : isCommittedPayload payload = durable := by
          simpa [responseTruthful] using truthful
        rw [hcommitted]
        cases durable with
        | false => exact (decide_eq_false ready.fresh).symm
        | true => exact (decide_eq_true ((hmem _).mpr (.inr ⟨rfl, rfl⟩))).symm
      · intro other hother
        exact (hmem other).trans (or_iff_left (fun hnew => hother hnew.2))
  · intro execution hexecution
    rcases List.mem_append.mp hexecution with hold | hnew
    · exact sound.executions execution hold
    · obtain rfl := List.mem_singleton.mp hnew
      exact ⟨ready.effectRef, ready.effectRef ▸ ready.fresh, ready.earlier⟩

private theorem sound_reduce (sound : s.Sound plan)
    (follows : driver.Follows plan s.journal s.durable) : (reduceStep plan s driver).Sound plan := by
  unfold reduceStep
  split
  · rename_i effect hreduced
    exact ⟨sound.recorded, ⟨follows, hreduced⟩, sound.executions, sound.completions⟩
  · rename_i hreduced
    obtain ⟨identity, completes⟩ := reduceTurnSettlementTransaction_complete hreduced
    refine ⟨sound.recorded, trivial, sound.executions, ?_⟩
    intro completion hcompletion
    rcases List.mem_append.mp hcompletion with hold | hnew
    · exact sound.completions completion hold
    obtain rfl := List.mem_singleton.mp hnew
    have settled : ∀ step, s.journal.Settled plan step →
        s.journal.Settled plan step ∧ plan.effectRef step ∈ s.durable := by
      intro step hsettled
      obtain ⟨⟨payload, hpayload, -⟩, -⟩ := id hsettled
      exact ⟨hsettled, sound.recorded.made step (by rw [hpayload]; rfl)⟩
    intro step hrequired
    cases step with
    | durableWriteback => exact settled _ (follows.checkpointed sound.recorded completes.writeback)
    | quotaSpend => exact settled _ (follows.checkpointed sound.recorded completes.quotaSpend)
    | terminalCloseout =>
      have hany := completes.terminal (hrequired rfl)
      refine settled _ (follows.settled sound.recorded ?_)
      cases hpayload : driver.terminalValue with
      | none => simp [SettlementDriver.request, hpayload] at hany
      | some payload => simp [SettlementDriver.payload, hpayload]
  · exact ⟨sound.recorded, trivial, sound.executions, sound.completions⟩
  · exact ⟨sound.recorded, trivial, sound.executions, sound.completions⟩

theorem settlementStep_sound (sound : s.Sound plan) {event : SettlementEvent}
    (h : settlementStep plan s event = some s') : s'.Sound plan := by
  unfold settlementStep at h
  split at h
  · obtain rfl := Option.some.inj h
    exact ⟨sound.recorded, trivial, sound.executions, sound.completions⟩
  · rename_i call hpoint
    obtain rfl := Option.some.inj h
    exact ⟨sound.recorded, follows_start _ _ call, sound.executions, sound.completions⟩
  · rename_i driver hpoint
    obtain rfl := Option.some.inj h
    have point := sound.point
    rw [hpoint] at point
    exact sound_reduce sound point
  · rename_i durable response driver effect hpoint
    have point := sound.point
    rw [hpoint] at point
    split at h
    · rename_i htruthful
      obtain rfl := Option.some.inj h
      exact sound_invoke sound point.1 point.2 htruthful
    · simp at h
  · rename_i event _ _ driver effect _ hpoint
    have point := sound.point
    rw [hpoint] at point
    obtain ⟨follows, reduced⟩ := point
    cases event with
    | readback answer => exact sound_readback sound follows reduced h
    | prepare => exact sound_prepare sound follows reduced h
    | permit allowed => exact sound_permit sound follows reduced h
    | persist => exact sound_persist sound follows reduced h
    | crash => simp [actStep] at h
    | start call => simp [actStep] at h
    | reduce => simp [actStep] at h
    | invoke durable response => simp [actStep] at h
  · simp at h

theorem settlementNext_sound (sound : s.Sound plan) (event : SettlementEvent) :
    (settlementNext plan s event).Sound plan := by
  unfold settlementNext
  cases hstep : settlementStep plan s event with
  | none => exact sound
  | some s' => exact settlementStep_sound sound hstep

end Steps

theorem settlementRun_sound (plan : SettlementPlan) (completed : List String)
    (events : List SettlementEvent) : (settlementRun plan completed events).Sound plan := by
  have initial : (newSettlement completed).Sound plan := by
    refine ⟨⟨?_, ?_, .inl rfl, ?_⟩, trivial, by simp [newSettlement], by simp [newSettlement]⟩
    · intro step hsome
      cases step <;> simp [newSettlement, SettlementJournal.payload] at hsome
    · intro step hsome
      cases step <;> simp [newSettlement, SettlementJournal.payload] at hsome
    · simp [newSettlement]
  unfold settlementRun
  induction events using List.reverseRecOn with
  | nil => exact initial
  | append_singleton events event ih =>
    rw [List.foldl_append]
    exact settlementNext_sound ih event

section Termination

variable {plan : SettlementPlan} {s s' : SettlementWorld} {driver : SettlementDriver}
  {effect : ProviderEffect}

/-- How many provider steps the driver does not know to be settled. -/
def SettlementDriver.missing (driver : SettlementDriver) : Nat :=
  (if "durable_writeback" ∈ driver.phases then 0 else 1) +
    (if "quota_spend" ∈ driver.phases then 0 else 1) +
    (if driver.terminalValue.isSome then 0 else 1)

/-- What the driver loop has left to do, at most. A settled step frees ten moves, and no step takes
more than eight: it may be read back, called, reduced three times and checkpointed. -/
def DriverPoint.remaining : DriverPoint → Nat
  | .idle => 0
  | .reducing driver =>
    if driver.failedAttempt.isSome then 1
    else
      10 * driver.missing +
        (if driver.returnedAttempt.isSome then 3
          else if driver.attempts = [] ∨ driver.observations ≠ [] then 6
          else 8)
  | .acting driver effect =>
    10 * driver.missing +
      (match effect.action with
        | .checkpoint _ => 2
        | .abortPrepared _ => 2
        | .prepareAndExecute => 5
        | .executePrepared => 5
        | .resolvePrepared => 7)
  | .invoking driver _ => 10 * driver.missing + 4

theorem SettlementDriver.missing_le (driver : SettlementDriver) : driver.missing ≤ 3 := by
  unfold SettlementDriver.missing
  split <;> split <;> split <;> omega

/-- A checkpointed step is missing no more. -/
private theorem missing_checkpointed {identity : BoundSettlementIdentity} {payload : Payload}
    (authorizes : (driver.request plan).Authorizes identity effect) :
    (driver.checkpointed effect.stepKind payload effect.completedPhases).missing <
      driver.missing := by
  by_cases hterminal : effect.stepKind = .terminalCloseout
  · have hnone : driver.terminalValue = none := authorizes.unclosed hterminal
    rw [hterminal]
    simp only [SettlementDriver.missing, SettlementDriver.checkpointed, SettlementDriver.closed,
      hnone, Option.isSome_some, Option.isSome_none, if_true, Bool.false_eq_true, if_false]
    exact Nat.lt_succ_self _
  · obtain ⟨hown, hgrown⟩ := checkpoint_phases authorizes hterminal
    have hmissing : effect.stepKind.text ∉ driver.phases := authorizes.missing hterminal
    have hkept : ∀ phase, phase ∈ driver.phases → phase ∈ effect.completedPhases :=
      fun phase hmem => hgrown.subset hmem
    have hwriteback := hkept "durable_writeback"
    have hspend := hkept "quota_spend"
    cases hstep : effect.stepKind with
    | durableWriteback =>
      rw [hstep] at hown hmissing
      simp only [ProviderStepKind.text] at hown hmissing
      simp only [SettlementDriver.missing, SettlementDriver.checkpointed, SettlementDriver.closed,
        hown, hmissing]
      grind
    | quotaSpend =>
      rw [hstep] at hown hmissing
      simp only [ProviderStepKind.text] at hown hmissing
      simp only [SettlementDriver.missing, SettlementDriver.checkpointed, SettlementDriver.closed,
        hown, hmissing]
      grind
    | terminalCloseout => exact absurd hstep hterminal

private theorem remaining_reduce (sound : s.Sound plan)
    (point : s.point = .reducing driver)
    (follows : driver.Follows plan s.journal s.durable) :
    (reduceStep plan s driver).point.remaining < s.point.remaining := by
  have positive : 0 < (DriverPoint.reducing driver).remaining := by
    simp only [DriverPoint.remaining]
    split
    · omega
    · split
      · omega
      · split <;> omega
  rw [point]
  unfold reduceStep
  split
  · rename_i effect hreduced
    obtain ⟨identity, authorizes, -⟩ := follows.authorized sound.recorded hreduced
    have hunfailed : driver.failedAttempt = none := authorizes.unfailed
    have evidence := authorizes.evidence
    simp only [DriverPoint.remaining, hunfailed, Option.isSome_none, Bool.false_eq_true, if_false]
    cases haction : effect.action with
    | prepareAndExecute =>
      simp only [TurnSettlementRequest.Evidence, haction] at evidence
      obtain ⟨hattempts, -, hreturned⟩ := evidence
      have hattempts : driver.attempts = [] := hattempts
      have hreturned : driver.returnedAttempt = none := hreturned
      simp [hattempts, hreturned]
    | executePrepared =>
      simp only [TurnSettlementRequest.Evidence, haction] at evidence
      obtain ⟨-, hreturned, observation, hlookup, -⟩ := evidence
      have hreturned : driver.returnedAttempt = none := hreturned
      have hobserved : driver.observations ≠ [] := by
        intro hnone
        rw [request_observations, hnone] at hlookup
        simp at hlookup
      simp [hreturned, hobserved]
    | resolvePrepared =>
      simp only [TurnSettlementRequest.Evidence, haction] at evidence
      obtain ⟨⟨hattempts, hforeign⟩, hlookup, hreturned⟩ := evidence
      have hattempts : driver.attempts = [(effect.stepKind, effect.effectRef)] := hattempts
      have hreturned : driver.returnedAttempt = none := hreturned
      have hobserved : driver.observations = [] := by
        rw [request_observations, Option.map_eq_none_iff, lookup_eq_none] at hlookup
        cases hobservations : driver.observations with
        | nil => rfl
        | cons entry rest =>
          have hfirst := hforeign (entry.1, decodeProviderObservation entry.2)
            (by simp [SettlementDriver.request, hobservations])
          rw [hobservations] at hlookup
          exact absurd (by simp [← hfirst]) hlookup
      simp [hattempts, hreturned, hobserved]
    | checkpoint payload =>
      dsimp only
      split
      · omega
      · split <;> omega
    | abortPrepared payload =>
      dsimp only
      split
      · omega
      · split <;> omega
  · exact positive
  · exact positive
  · exact positive

private theorem remaining_returned (driver : SettlementDriver) (step : ProviderStepKind)
    (payload : Payload) (unfailed : driver.failedAttempt = none) :
    (DriverPoint.reducing (driver.returned step payload)).remaining = 10 * driver.missing + 3 := by
  simp [DriverPoint.remaining, SettlementDriver.returned, SettlementDriver.missing, unfailed]

private theorem remaining_persist (sound : s.Sound plan)
    (follows : driver.Follows plan s.journal s.durable)
    (reduced : reduceTurnSettlementTransaction (driver.request plan) = .ok (.execute effect))
    (h : actStep s driver effect .persist = some s') :
    s'.point.remaining < (DriverPoint.acting driver effect).remaining := by
  obtain ⟨identity, authorizes, -⟩ := follows.authorized sound.recorded reduced
  have hunfailed : driver.failedAttempt = none := authorizes.unfailed
  simp only [actStep] at h
  split at h
  · rename_i payload haction
    obtain rfl := Option.some.inj h
    cases hpersist : persistCheckpoint s.journal effect payload with
    | none => simp [SettlementWorld.persisted, DriverPoint.remaining, haction]
    | some journal' =>
      have hmissing := @missing_checkpointed _ _ _ _ payload authorizes
      have hattempts := checkpoint_prepared authorizes haction
      simp only [SettlementWorld.persisted, DriverPoint.remaining, haction,
        SettlementDriver.checkpointed_failedAttempt, hunfailed, Option.isSome_none,
        Bool.false_eq_true, if_false, SettlementDriver.checkpointed_returnedAttempt,
        SettlementDriver.checkpointed_attempts, hattempts]
      simp only [eraseKey, ne_eq, not_true, decide_false, List.filter_cons_of_neg,
        List.filter_nil, true_or, if_true, Bool.false_eq_true, not_false_eq_true]
      omega
  · rename_i payload haction
    obtain rfl := Option.some.inj h
    cases hpersist : s.journal.abort effect.stepKind effect.effectRef with
    | none => simp [SettlementWorld.persisted, DriverPoint.remaining, haction]
    | some journal' =>
      simp [SettlementWorld.persisted, DriverPoint.remaining, haction, SettlementDriver.aborted,
        SettlementDriver.closed]
  · simp at h

private theorem remaining_act (sound : s.Sound plan)
    (follows : driver.Follows plan s.journal s.durable)
    (reduced : reduceTurnSettlementTransaction (driver.request plan) = .ok (.execute effect))
    {event : SettlementEvent} (h : actStep s driver effect event = some s') :
    s'.point.remaining < (DriverPoint.acting driver effect).remaining := by
  obtain ⟨identity, authorizes, -⟩ := follows.authorized sound.recorded reduced
  have hunfailed : driver.failedAttempt = none := authorizes.unfailed
  cases event with
  | persist => exact remaining_persist sound follows reduced h
  | readback answer =>
    simp only [actStep] at h
    split at h
    · rename_i haction
      have evidence := authorizes.evidence
      simp only [TurnSettlementRequest.Evidence, haction] at evidence
      have hreturned : driver.returnedAttempt = none := evidence.2.2
      have hobserved : setKey driver.observations effect.stepKind answer ≠ [] := by
        intro hnone
        have hlookup := lookup_setKey driver.observations effect.stepKind effect.stepKind answer
        rw [hnone] at hlookup
        simp at hlookup
      split at h
      · obtain rfl := Option.some.inj h
        simp [DriverPoint.remaining, SettlementDriver.observe, SettlementDriver.missing, hunfailed,
          hreturned, hobserved, haction]
      · simp at h
    · simp at h
  | prepare =>
    simp only [actStep] at h
    split at h
    · rename_i haction
      obtain rfl := Option.some.inj h
      have hmissing :
          (driver.prepared effect.stepKind effect.effectRef).missing = driver.missing := rfl
      simp [DriverPoint.remaining, hmissing, haction]
    · simp at h
  | permit allowed =>
    simp only [actStep] at h
    split at h
    · rename_i haction
      split at h
      · obtain rfl := Option.some.inj h
        simp [DriverPoint.remaining, haction]
      · obtain rfl := Option.some.inj h
        simp only [remaining_returned _ _ _ hunfailed]
        simp [DriverPoint.remaining, haction]
    · simp at h
  | crash => simp [actStep] at h
  | start call => simp [actStep] at h
  | reduce => simp [actStep] at h
  | invoke durable response => simp [actStep] at h

/-- Every move of the driver loop leaves less to do. -/
theorem settlementStep_remaining (sound : s.Sound plan) {event : SettlementEvent}
    (move : event.isMove = true) (h : settlementStep plan s event = some s') :
    s'.point.remaining < s.point.remaining := by
  unfold settlementStep at h
  split at h
  · simp [SettlementEvent.isMove] at move
  · simp [SettlementEvent.isMove] at move
  · rename_i driver hpoint
    obtain rfl := Option.some.inj h
    have point := sound.point
    rw [hpoint] at point
    exact remaining_reduce sound hpoint point
  · rename_i durable response driver effect hpoint
    have point := sound.point
    rw [hpoint] at point
    split at h
    · obtain rfl := Option.some.inj h
      rw [hpoint]
      cases response with
      | none => simp [invokeStep, DriverPoint.remaining]
      | some payload =>
        simp only [invokeStep, remaining_returned _ _ _ point.2.unfailed]
        simp [DriverPoint.remaining]
    · simp at h
  · rename_i driver effect _ hpoint
    have point := sound.point
    rw [hpoint] at point ⊢
    exact remaining_act sound point.1 point.2 h
  · simp at h

private theorem remaining_start (journal : SettlementJournal) (call : SettlementCall) :
    (DriverPoint.reducing (SettlementDriver.start journal call)).remaining ≤ 38 := by
  have hmissing := (SettlementDriver.start journal call).missing_le
  simp only [DriverPoint.remaining]
  split
  · omega
  · split
    · omega
    · split <;> omega

private theorem settlementStep_start {call : SettlementCall}
    (h : settlementStep plan s (.start call) = some s') :
    s'.point = .reducing (SettlementDriver.start s.journal call) := by
  cases hpoint : s.point with
  | idle =>
    simp only [settlementStep, hpoint, Option.some.injEq] at h
    rw [← h]
  | reducing driver => simp [settlementStep, hpoint] at h
  | acting driver effect => simp [settlementStep, hpoint, actStep] at h
  | invoking driver effect => simp [settlementStep, hpoint] at h

/-- One event: a move takes from what is left, and only a start adds to it. -/
private theorem remaining_next (sound : s.Sound plan) (event : SettlementEvent) :
    (if event.isMove && (settlementStep plan s event).isSome then 1 else 0) +
        (settlementNext plan s event).point.remaining ≤
      s.point.remaining + 38 * (if event.isStart then 1 else 0) := by
  cases hstep : settlementStep plan s event with
  | none => simp [settlementNext, hstep]
  | some s' =>
    simp only [settlementNext, hstep, Option.getD_some, Option.isSome_some, Bool.and_true]
    by_cases hmove : event.isMove = true
    · have hless := settlementStep_remaining sound hmove hstep
      rw [if_pos hmove]
      omega
    · cases event with
      | crash =>
        obtain rfl := Option.some.inj hstep
        simp [SettlementEvent.isMove, DriverPoint.remaining]
      | start call =>
        have hbound := remaining_start s.journal call
        rw [← settlementStep_start hstep] at hbound
        simp only [SettlementEvent.isMove, SettlementEvent.isStart, if_true, Bool.false_eq_true,
          if_false]
        omega
      | reduce => exact absurd rfl hmove
      | readback answer => exact absurd rfl hmove
      | prepare => exact absurd rfl hmove
      | permit allowed => exact absurd rfl hmove
      | invoke durable response => exact absurd rfl hmove
      | persist => exact absurd rfl hmove

/-- Between two starts the driver loop ends after at most 38 moves. -/
theorem driverMoves_le (sound : s.Sound plan) (events : List SettlementEvent) :
    driverMoves plan s events ≤
      s.point.remaining + 38 * events.countP SettlementEvent.isStart := by
  induction events generalizing s with
  | nil => simp [driverMoves]
  | cons event events ih =>
    have hrest := ih (settlementNext_sound sound event)
    have hnext := remaining_next sound event
    rw [driverMoves, List.countP_cons]
    omega

/-- A driver that is not done waits for an answer, and any answer that is true moves it. -/
theorem exists_move (plan : SettlementPlan) (s : SettlementWorld) (running : s.point ≠ .idle) :
    ∃ event : SettlementEvent, event.isMove = true ∧
      (settlementStep plan s event).isSome = true := by
  cases hpoint : s.point with
  | idle => exact absurd hpoint running
  | reducing driver => exact ⟨.reduce, rfl, by simp [settlementStep, hpoint]⟩
  | invoking driver effect =>
    exact ⟨.invoke false none, rfl, by simp [settlementStep, hpoint, responseTruthful]⟩
  | acting driver effect =>
    cases haction : effect.action with
    | prepareAndExecute => exact ⟨.prepare, rfl, by simp [settlementStep, hpoint, actStep, haction]⟩
    | executePrepared =>
      exact ⟨.permit true, rfl, by simp [settlementStep, hpoint, actStep, haction]⟩
    | resolvePrepared =>
      exact ⟨.readback [], rfl,
        by simp [settlementStep, hpoint, actStep, haction, readbackTruthful]⟩
    | checkpoint payload =>
      exact ⟨.persist, rfl, by simp [settlementStep, hpoint, actStep, haction]⟩
    | abortPrepared payload =>
      exact ⟨.persist, rfl, by simp [settlementStep, hpoint, actStep, haction]⟩

end Termination

/-- Over every run of a settlement, with crashes and restarts anywhere: a provider is called only
after the steps before it are persisted, and only while its own effect is not durable; an effect
that is durable is persisted as settled or as the prepared attempt; a complete answer finds every
required step persisted for this effect; and the driver loop ends. -/
theorem settlementRun_ordered_once (plan : SettlementPlan) (completed : List String)
    (events : List SettlementEvent) :
    (∀ execution ∈ (settlementRun plan completed events).executions,
      execution.effectRef = plan.effectRef execution.stepKind ∧
      execution.effectRef ∉ execution.durable ∧
      (execution.stepKind = .quotaSpend → execution.journal.Settled plan .durableWriteback) ∧
      (execution.stepKind = .terminalCloseout →
        execution.journal.Settled plan .durableWriteback ∧
          execution.journal.Settled plan .quotaSpend)) ∧
    (∀ step, plan.effectRef step ∈ (settlementRun plan completed events).durable →
      (settlementRun plan completed events).journal.Settled plan step ∨
        (settlementRun plan completed events).journal.effectAttempts =
          [(step, plan.effectRef step)]) ∧
    (∀ completion ∈ (settlementRun plan completed events).completions,
      ∀ step, (step = .terminalCloseout → completion.call.terminalCloseoutRequired = true) →
        completion.journal.Settled plan step ∧ plan.effectRef step ∈ completion.durable) ∧
    driverMoves plan (newSettlement completed) events ≤
      38 * events.countP SettlementEvent.isStart ∧
    ((settlementRun plan completed events).point ≠ .idle →
      ∃ event : SettlementEvent, event.isMove = true ∧
        (settlementStep plan (settlementRun plan completed events) event).isSome = true) := by
  have sound := settlementRun_sound plan completed events
  refine ⟨?_, ?_, sound.completions, ?_, exists_move plan _⟩
  · intro execution hexecution
    obtain ⟨href, hfresh, hearlier⟩ := sound.executions execution hexecution
    refine ⟨href, hfresh, ?_, ?_⟩
    · intro hspend
      exact hearlier _ (by simp [hspend, ProviderStepKind.rank])
    · intro hterminal
      exact ⟨hearlier _ (by simp [hterminal, ProviderStepKind.rank]),
        hearlier _ (by simp [hterminal, ProviderStepKind.rank])⟩
  · intro step hmade
    rcases sound.recorded.kept step hmade with hsome | hattempt
    · exact .inl (sound.recorded.settled step hsome)
    · exact .inr hattempt
  · have initial := settlementRun_sound plan completed []
    simpa [DriverPoint.remaining, newSettlement, settlementRun] using driverMoves_le initial events

-- A writeback whose response is lost is found by the next start, and not executed again.
example :
    let plan : SettlementPlan := ⟨.ok ⟨"turn-1", none⟩,
      ["host_execute", "typed_result", "validation", "durable_writeback", "quota_spend"]⟩
    let call : SettlementCall := ⟨none, false, none, false⟩
    let payload : Payload := [("ok", .bool true), ("appended", .bool true)]
    let s := settlementRun plan ["host_execute", "typed_result", "validation"]
      [.start call, .reduce, .prepare, .invoke true none, .start call, .reduce,
        .readback [("kind", .string "committed"), ("payload", .object payload)], .reduce, .persist,
        .reduce, .prepare, .invoke true (some payload), .reduce, .persist, .reduce]
    s.executions.map SettlementExecution.effectRef =
      ["turn-1#durable_writeback", "turn-1#quota_spend"] ∧ s.completions.length = 1 := by
  decide

end Loopx.Turn
