/- GID: Loopx/Turn/SettlementAdmission
   generality: I
   source: loopx/control_plane/turn_driver/settlement.ts, settlement_provider.ts, effect_program.ts
   digest: What a settlement request shows when its reduction authorizes an effect or is complete. -/

import Loopx.Turn.Settlement

set_option autoImplicit false
set_option relaxedAutoImplicit false

namespace Loopx.Turn

open Loopx.Lib.KeyedList

section Inversion

/-- The order in which the providers run. -/
def ProviderStepKind.rank : ProviderStepKind → Nat
  | .durableWriteback => 0
  | .quotaSpend => 1
  | .terminalCloseout => 2

/-- The request shows the base step as checkpointed. -/
def TurnSettlementRequest.Checkpointed (request : TurnSettlementRequest)
    (step : ProviderStepKind) : Prop :=
  step.text ∈ request.completedPhases ∧ (request.payload step).any isCommittedPayload = true

/-- The facts about the prepared attempt that authorize the action. -/
def TurnSettlementRequest.Evidence (request : TurnSettlementRequest) (effect : ProviderEffect) :
    Prop :=
  let prepared := request.effectAttempts = [(effect.stepKind, effect.effectRef)] ∧
    ∀ entry ∈ request.providerObservations, entry.1 = effect.stepKind
  match effect.action with
  | .prepareAndExecute =>
    request.effectAttempts = [] ∧ request.providerObservations = [] ∧
      request.returnedProviderAttempt = none
  | .resolvePrepared =>
    prepared ∧ request.providerObservations.lookup effect.stepKind = none ∧
      request.returnedProviderAttempt = none
  | .executePrepared =>
    prepared ∧ request.returnedProviderAttempt = none ∧
      ∃ observation, request.providerObservations.lookup effect.stepKind = some observation ∧
        observation.kind = .absent
  | .checkpoint payload =>
    prepared ∧ isCommittedPayload payload = true ∧
      providerPayloadMatchesRef (some payload) effect.effectRef = true ∧
      ((∃ attempt, request.returnedProviderAttempt = some attempt ∧
          attempt.stepKind = effect.stepKind ∧ isCommittedPayload attempt.payload = true) ∨
        ∃ observation, request.providerObservations.lookup effect.stepKind = some observation ∧
          observation.kind = .committed)
  | .abortPrepared _ =>
    prepared ∧ ∃ attempt, request.returnedProviderAttempt = some attempt ∧
      attempt.stepKind = effect.stepKind ∧ isCommittedPayload attempt.payload = false

/-- Everything a request shows when the reduction authorizes an effect. -/
structure TurnSettlementRequest.Authorizes (request : TurnSettlementRequest)
    (identity : BoundSettlementIdentity) (effect : ProviderEffect) : Prop where
  identified : request.identity = .ok identity
  unfailed : request.failedProviderAttempt = none
  effectRef : effect.effectRef = effectRefOf identity.effectId effect.stepKind
  ordered : request.completedPhases <+: request.transactionPhases
  missing : effect.stepKind ≠ .terminalCloseout → effect.stepKind.text ∉ request.completedPhases
  phases : effect.stepKind ≠ .terminalCloseout →
    effect.stepKind.text ∈ request.transactionPhases ∧
      effect.completedPhases =
        request.transactionPhases.take (request.transactionPhases.idxOf effect.stepKind.text + 1)
  unclosed : effect.stepKind = .terminalCloseout → request.terminalCloseoutPayload = none
  earlier : ∀ step : ProviderStepKind, step.rank < effect.stepKind.rank → request.Checkpointed step
  evidence : request.Evidence effect

/-- Everything a request shows when the reduction is complete. -/
structure TurnSettlementRequest.Completes (request : TurnSettlementRequest)
    (identity : BoundSettlementIdentity) : Prop where
  identified : request.identity = .ok identity
  matching : effectIdsMatch request.committedEffectId identity.effectId = true
  bound : ∀ step, providerPayloadMatchesRef (request.payload step)
    (effectRefOf identity.effectId step) = true
  writeback : request.Checkpointed .durableWriteback
  quotaSpend : request.Checkpointed .quotaSpend
  terminal : request.terminalCloseoutRequired = true →
    request.terminalCloseoutPayload.any isCommittedPayload = true

variable {identity : BoundSettlementIdentity}

private theorem seedSteps_committed {committed : SettlementStepKind → Option Payload}
    {completedPhases : List String} {steps : List SettlementStepKind}
    {receipts seeded : List SettlementReceipt}
    (h : seedSteps identity committed completedPhases true steps receipts = .ok seeded)
    {step : SettlementStepKind} (mem : step ∈ steps) (provider : step ≠ .validation)
    (completed : step.text ∈ completedPhases) : (committed step).any isCommittedPayload = true := by
  induction steps generalizing receipts with
  | nil => simp at mem
  | cons first steps ih =>
    simp only [seedSteps] at h
    split at h
    · rename_i hvalidation
      have hne : step ≠ first := fun heq => provider (heq ▸ hvalidation.1)
      split at h
      · exact ih h ((List.mem_cons.mp mem).resolve_left hne)
      · simp at h
    · split at h
      · split at h
        · rename_i hcommitted
          rcases List.mem_cons.mp mem with rfl | mem
          · exact hcommitted
          · exact ih h mem
        · simp at h
      · rename_i hmissing
        rcases List.mem_cons.mp mem with rfl | mem
        · exact absurd completed hmissing
        · exact ih h mem

private theorem seedCommittedSteps_ok {orderedSteps : List SettlementStepKind}
    {committed : SettlementStepKind → Option Payload} {completedPhases transactionPhases : List String}
    {seeded : List SettlementReceipt}
    (h : seedCommittedSteps identity orderedSteps committed completedPhases transactionPhases true =
      .ok seeded) :
    completedPhases <+: transactionPhases ∧
      ∀ step ∈ orderedSteps, step ≠ .validation → step.text ∈ completedPhases →
        (committed step).any isCommittedPayload = true := by
  unfold seedCommittedSteps at h
  split at h
  · simp at h
  rename_i hstarts
  split at h
  · simp at h
  refine ⟨?_, fun step mem provider completed => seedSteps_committed h mem provider completed⟩
  rw [not_not.mp hstarts]
  exact List.take_prefix _ _

private theorem nextAction_ok {orderedSteps : List SettlementStepKind}
    {committed : SettlementStepKind → Option Payload} {completedPhases transactionPhases : List String}
    {action : SettlementNextAction} (unfailed : ∀ failure receipts, action ≠ .failed failure receipts)
    (h : settlementNextAction identity orderedSteps committed completedPhases transactionPhases true =
      action) :
    (completedPhases <+: transactionPhases ∧
      ∀ step ∈ orderedSteps, step ≠ .validation → step.text ∈ completedPhases →
        (committed step).any isCommittedPayload = true) ∧
      ((∃ step receipts, action = .execute step receipts ∧
        orderedSteps.find? (fun step => step ≠ .validation && step.text ∉ completedPhases) =
          some step) ∨
        ∃ receipts, action = .complete receipts ∧
          orderedSteps.find? (fun step => step ≠ .validation && step.text ∉ completedPhases) =
            none) := by
  unfold settlementNextAction at h
  split at h
  · rename_i failure receipts _
    exact absurd h.symm (unfailed failure receipts)
  rename_i receipts hseed
  refine ⟨seedCommittedSteps_ok hseed, ?_⟩
  split at h
  · rename_i step hfind
    exact .inl ⟨step, receipts, h.symm, hfind⟩
  · rename_i hfind
    exact .inr ⟨receipts, h.symm, hfind⟩

private theorem providerAction_evidence {request : TurnSettlementRequest}
    {context : ProviderEffectContext} {next : ProviderEffect}
    (h : settlementProviderAction context request.effectAttempts request.providerObservations
      request.returnedProviderAttempt = .ok next) :
    next.toProviderEffectContext = context ∧ request.Evidence next := by
  unfold settlementProviderAction at h
  dsimp only at h
  split at h
  · rename_i hattempts
    split at h
    · simp at h
    · rename_i hfacts
      obtain rfl := Except.ok.inj h
      have hobs : request.providerObservations = [] := by
        by_contra hne
        exact hfacts (.inl hne)
      have hreturned : request.returnedProviderAttempt = none := by
        cases hr : request.returnedProviderAttempt with
        | none => rfl
        | some attempt => exact absurd (.inr (by simp [hr])) hfacts
      exact ⟨rfl, hattempts, hobs, hreturned⟩
  rename_i prepared preparedRef others hattempts
  split at h
  · simp at h
  rename_i hfirst
  split at h
  · simp at h
  rename_i href
  split at h
  · simp at h
  rename_i hforeign
  push Not at hfirst href
  obtain ⟨rfl, rfl⟩ := hfirst
  have hprepared : request.effectAttempts = [(context.stepKind, context.effectRef)] ∧
      ∀ entry ∈ request.providerObservations, entry.1 = context.stepKind := by
    refine ⟨by rw [hattempts, href], ?_⟩
    intro entry mem
    by_contra hne
    exact hforeign (.inl (List.any_eq_true.mpr ⟨entry, mem, by simpa using hne⟩))
  split at h
  · simp at h
  · rename_i hreturned hlookup
    obtain rfl := Except.ok.inj h
    exact ⟨rfl, hprepared, hlookup, hreturned⟩
  · rename_i attempt hreturned hlookup
    have hstep : attempt.stepKind = context.stepKind := by
      by_contra hne
      exact hforeign (.inr (by simpa [hreturned] using hne))
    split at h
    · simp at h
    rename_i hmatches
    simp only [Bool.not_eq_true', Bool.not_eq_false] at hmatches
    split at h
    · rename_i hcommitted
      obtain rfl := Except.ok.inj h
      exact ⟨rfl, hprepared, hcommitted, hmatches, .inl ⟨attempt, hreturned, hstep, hcommitted⟩⟩
    · rename_i hrejected
      obtain rfl := Except.ok.inj h
      exact ⟨rfl, hprepared, attempt, hreturned, hstep, by simpa using hrejected⟩
  · rename_i observation hreturned hlookup
    split at h
    · simp at h
    · rename_i hkind
      split at h
      · simp at h
      · obtain rfl := Except.ok.inj h
        exact ⟨rfl, hprepared, hreturned, observation, hlookup, hkind⟩
    · rename_i hkind
      split at h
      · simp at h
      rename_i hmatches
      simp only [Bool.not_eq_true', Bool.not_eq_false] at hmatches
      split at h
      · rename_i payload hpayload
        split at h
        · rename_i hcommitted
          obtain rfl := Except.ok.inj h
          rw [hpayload] at hmatches
          exact ⟨rfl, hprepared, hcommitted, hmatches, .inr ⟨observation, hlookup, hkind⟩⟩
        · simp at h
      · simp at h

private theorem lookup_completion (payload : Payload) (completion : Json) {key : String}
    (other : key ≠ "completion") :
    (setKey payload "completion" completion).lookup key = payload.lookup key := by
  rw [lookup_setKey, if_neg other]

/-- The completion of a payload says nothing about whether it is committed, or under which ref. -/
theorem isCommittedPayload_setCompletion (payload : Payload) (completion : Json) :
    isCommittedPayload (setKey payload "completion" completion) = isCommittedPayload payload := by
  rw [isCommittedPayload, lookup_completion payload completion (by decide),
    lookup_completion payload completion (by decide), isCommittedPayload]

theorem matchesRef_setCompletion (payload : Payload) (completion : Json) (effectRef : String) :
    providerPayloadMatchesRef (some (setKey payload "completion" completion)) effectRef =
      providerPayloadMatchesRef (some payload) effectRef := by
  simp only [providerPayloadMatchesRef]
  rw [lookup_completion payload completion (by decide)]

private theorem admitCheckpoint_ok {request : TurnSettlementRequest} {step : ProviderStepKind}
    {payload admitted : Payload} (h : admitCheckpoint request identity step payload = .ok admitted) :
    admitted = payload ∨ ∃ completion, admitted = setKey payload "completion" completion := by
  have compacted : ∀ checked : Except String Payload,
      checked.map (fun completion => setKey payload "completion" (compactCompletion completion)) =
        .ok admitted → ∃ completion, admitted = setKey payload "completion" completion := by
    intro checked hmap
    cases checked with
    | error reason => simp [Except.map] at hmap
    | ok completion =>
      simp only [Except.map, Except.ok.injEq] at hmap
      exact ⟨_, hmap.symm⟩
  unfold admitCheckpoint at h
  dsimp only at h
  split at h
  · exact .inr (compacted _ h)
  split at h
  · exact .inr (compacted _ h)
  · exact .inl (Except.ok.inj h).symm

private theorem providerExecution_execute {request : TurnSettlementRequest}
    {context : ProviderEffectContext} {receipts : List SettlementReceipt} {effect : ProviderEffect}
    (h : providerExecution request identity context receipts = .execute effect) :
    effect.toProviderEffectContext = context ∧ request.Evidence effect := by
  unfold providerExecution at h
  split at h
  · simp at h
  rename_i next hnext
  obtain ⟨hcontext, hevidence⟩ := providerAction_evidence hnext
  split at h
  · rename_i payload haction
    split at h
    · simp at h
    rename_i admitted hallowed
    obtain rfl := TurnSettlementReduction.execute.inj h
    refine ⟨hcontext, ?_⟩
    have hkept : isCommittedPayload admitted = isCommittedPayload payload ∧
        providerPayloadMatchesRef (some admitted) next.effectRef =
          providerPayloadMatchesRef (some payload) next.effectRef := by
      rcases admitCheckpoint_ok hallowed with rfl | ⟨completion, rfl⟩
      · exact ⟨rfl, rfl⟩
      · exact ⟨isCommittedPayload_setCompletion payload completion,
          matchesRef_setCompletion payload completion next.effectRef⟩
    simp only [TurnSettlementRequest.Evidence, haction] at hevidence ⊢
    rw [hkept.1, hkept.2]
    exact hevidence
  · obtain rfl := TurnSettlementReduction.execute.inj h
    exact ⟨hcontext, hevidence⟩

private theorem providerAction_execute {request : TurnSettlementRequest}
    {context : ProviderEffectContext} {receipts : List SettlementReceipt} {effect : ProviderEffect}
    (h : reduceProviderAction request identity context receipts = .ok (.execute effect)) :
    request.failedProviderAttempt = none ∧ effect.toProviderEffectContext = context ∧
      request.Evidence effect := by
  unfold reduceProviderAction at h
  split at h
  · rename_i hfailed
    exact ⟨hfailed, providerExecution_execute (Except.ok.inj h)⟩
  · unfold providerFailure at h
    split at h
    · simp at h
    split at h <;> simp at h

private theorem baseProviderAction_execute {request : TurnSettlementRequest}
    {step : ProviderStepKind} {receipts : List SettlementReceipt} {effect : ProviderEffect}
    (h : reduceBaseProviderAction request identity step receipts = .ok (.execute effect)) :
    request.failedProviderAttempt = none ∧ request.Evidence effect ∧
      step.text ∈ request.transactionPhases ∧
      effect.toProviderEffectContext = ⟨step, effectRefOf identity.effectId step,
        request.transactionPhases.take (request.transactionPhases.idxOf step.text + 1)⟩ := by
  unfold reduceBaseProviderAction at h
  split at h
  · simp at h
  rename_i hphase
  obtain ⟨hfailed, hcontext, hevidence⟩ := providerAction_execute h
  exact ⟨hfailed, hevidence, not_not.mp hphase, hcontext⟩

private theorem reduceTerminalCloseout_execute {request : TurnSettlementRequest}
    {receipts : List SettlementReceipt} {effect : ProviderEffect}
    (h : reduceTerminalCloseout request identity receipts = .ok (.inl (.execute effect))) :
    request.failedProviderAttempt = none ∧ request.Evidence effect ∧
      request.terminalCloseoutPayload = none ∧
      effect.toProviderEffectContext = ⟨.terminalCloseout,
        effectRefOf identity.effectId .terminalCloseout, request.completedPhases⟩ := by
  unfold reduceTerminalCloseout at h
  split at h
  · split at h <;> simp at h
  split at h
  · rename_i hpayload
    cases haction : reduceProviderAction request identity
        ⟨.terminalCloseout, effectRefOf identity.effectId .terminalCloseout,
          request.completedPhases⟩ receipts with
    | error reason => simp [haction, Except.map] at h
    | ok reduction =>
      simp only [haction, Except.map, Except.ok.injEq, Sum.inl.injEq] at h
      subst h
      obtain ⟨hfailed, hcontext, hevidence⟩ := providerAction_execute haction
      exact ⟨hfailed, hevidence, hpayload, hcontext⟩
  · split at h
    · simp at h
    split at h
    · simp at h
    split at h <;> simp at h

private theorem reduceCommitted_ne_execute (request : TurnSettlementRequest)
    (receipts : List SettlementReceipt) (effect : ProviderEffect) :
    reduceCommitted request receipts ≠ .ok (.execute effect) := by
  intro h
  unfold reduceCommitted at h
  split at h
  · simp at h
  split at h
  · simp at h
  split at h
  · simp at h
  unfold reductionWithTurnOutcome at h
  cases hkind : validateTurnOutcomeKind request.turnResultKind with
  | error reason => simp [hkind, bind, Except.bind] at h
  | ok => simp [hkind, bind, Except.bind] at h

/-- A reduction that did not fail has read its identity and found nothing against the request. -/
private theorem reduceTransaction_admitted {request : TurnSettlementRequest}
    {reduction : TurnSettlementReduction}
    (h : reduceTurnSettlementTransaction request = .ok reduction)
    (unfailed : ∀ failure receipts outcome, reduction ≠ .failed failure receipts outcome) :
    ∃ identity, (request.identity = .ok identity ∧ requestFailure request identity = none) ∧
      reduceAdmitted request identity = .ok reduction := by
  have plain : reduceTurnSettlementRequest request = .ok reduction := by
    unfold reduceTurnSettlementTransaction at h
    cases hreduce : reduceTurnSettlementRequest request with
    | error reason => simp [hreduce, Except.map] at h
    | ok found =>
      simp only [hreduce, Except.map, Except.ok.injEq] at h
      cases found with
      | failed failure receipts outcome =>
        simp only [withTurnOutcome] at h
        exact absurd h.symm (unfailed _ _ _)
      | execute effect =>
        rw [← h]
        rfl
      | complete state receipts outcome =>
        rw [← h]
        rfl
  unfold reduceTurnSettlementRequest at plain
  split at plain
  · exact absurd (Except.ok.inj plain).symm (unfailed _ _ _)
  rename_i identity hidentity
  split at plain
  · exact absurd (Except.ok.inj plain).symm (unfailed _ _ _)
  rename_i hadmitted
  exact ⟨identity, ⟨hidentity, hadmitted⟩, plain⟩

private theorem base_checkpointed {request : TurnSettlementRequest}
    (seeded : ∀ step ∈ baseSettlementSteps, step ≠ .validation →
      step.text ∈ request.completedPhases →
        (baseCommittedPayloads request step).any isCommittedPayload = true)
    {step : ProviderStepKind} (base : step ≠ .terminalCloseout)
    (completed : step.text ∈ request.completedPhases) : request.Checkpointed step := by
  refine ⟨completed, ?_⟩
  refine seeded (.provider step) ?_ (by simp) completed
  cases step with
  | durableWriteback => simp [baseSettlementSteps]
  | quotaSpend => simp [baseSettlementSteps]
  | terminalCloseout => exact absurd rfl base

/-- What the search for the next base step says about both of them. -/
private theorem find_base (completedPhases : List String) :
    (baseSettlementSteps.find? (fun step => step ≠ .validation && step.text ∉ completedPhases) =
        some (.provider .durableWriteback) ∧ "durable_writeback" ∉ completedPhases) ∨
      (baseSettlementSteps.find? (fun step => step ≠ .validation && step.text ∉ completedPhases) =
        some (.provider .quotaSpend) ∧ "durable_writeback" ∈ completedPhases ∧
          "quota_spend" ∉ completedPhases) ∨
      (baseSettlementSteps.find? (fun step => step ≠ .validation && step.text ∉ completedPhases) =
        none ∧ "durable_writeback" ∈ completedPhases ∧ "quota_spend" ∈ completedPhases) := by
  by_cases hwriteback : "durable_writeback" ∈ completedPhases
  · by_cases hspend : "quota_spend" ∈ completedPhases
    · simp [baseSettlementSteps, SettlementStepKind.text, ProviderStepKind.text, hwriteback, hspend]
    · simp [baseSettlementSteps, SettlementStepKind.text, ProviderStepKind.text, hwriteback, hspend]
  · simp [baseSettlementSteps, SettlementStepKind.text, ProviderStepKind.text, hwriteback]

private theorem reduceAdmitted_execute {request : TurnSettlementRequest} {effect : ProviderEffect}
    (identified : request.identity = .ok identity)
    (h : reduceAdmitted request identity = .ok (.execute effect)) :
    request.Authorizes identity effect := by
  unfold reduceAdmitted at h
  cases haction : settlementNextAction identity baseSettlementSteps (baseCommittedPayloads request)
      request.completedPhases request.transactionPhases true with
  | failed failure receipts => simp [haction] at h
  | execute step receipts =>
    obtain ⟨⟨hordered, hseeded⟩, ⟨found, receipts', heq, hfind⟩ | ⟨_, heq, _⟩⟩ :=
      nextAction_ok (by simp) haction
    · obtain ⟨rfl, rfl⟩ := SettlementNextAction.execute.inj heq
      have base : ∀ (next : ProviderStepKind), next.text ∉ request.completedPhases →
          next ≠ .terminalCloseout →
          (∀ earlier : ProviderStepKind, earlier.rank < next.rank → request.Checkpointed earlier) →
          reduceBaseProviderAction request identity next receipts = .ok (.execute effect) →
          request.Authorizes identity effect := by
        intro next hmissing hbase hearlier hreduce
        obtain ⟨hfailed, hevidence, hphase, hcontext⟩ := baseProviderAction_execute hreduce
        obtain ⟨context, action⟩ := effect
        dsimp only at hcontext
        subst hcontext
        exact ⟨identified, hfailed, rfl, hordered, fun _ => hmissing, fun _ => ⟨hphase, rfl⟩,
          fun hterminal => absurd hterminal hbase, hearlier, hevidence⟩
      rcases find_base request.completedPhases with ⟨hnext, hmissing⟩ | ⟨hnext, hdone, hmissing⟩ |
        ⟨hnext, _⟩
      · rw [hnext] at hfind
        obtain rfl := Option.some.inj hfind
        simp only [haction] at h
        refine base .durableWriteback hmissing (by simp) ?_ h
        intro earlier hrank
        cases earlier <;> simp [ProviderStepKind.rank] at hrank
      · rw [hnext] at hfind
        obtain rfl := Option.some.inj hfind
        simp only [haction] at h
        split at h
        · simp at h
        refine base .quotaSpend hmissing (by simp) ?_ h
        intro earlier hrank
        cases earlier with
        | durableWriteback => exact base_checkpointed hseeded (by simp) hdone
        | quotaSpend => simp [ProviderStepKind.rank] at hrank
        | terminalCloseout => simp [ProviderStepKind.rank] at hrank
      · rw [hnext] at hfind
        simp at hfind
    · simp at heq
  | complete receipts =>
    obtain ⟨⟨hordered, hseeded⟩, ⟨_, _, heq, _⟩ | ⟨_, heq, hfind⟩⟩ := nextAction_ok (by simp) haction
    · simp at heq
    rcases find_base request.completedPhases with ⟨hnext, _⟩ | ⟨hnext, _⟩ | ⟨_, hdone, hspent⟩
    · rw [hnext] at hfind
      simp at hfind
    · rw [hnext] at hfind
      simp at hfind
    simp only [haction] at h
    split at h
    · simp at h
    split at h
    · simp at h
    · rename_i outcome hterminal
      obtain rfl := Except.ok.inj h
      obtain ⟨hfailed, hevidence, hpayload, hcontext⟩ := reduceTerminalCloseout_execute hterminal
      obtain ⟨context, action⟩ := effect
      dsimp only at hcontext
      subst hcontext
      refine ⟨identified, hfailed, rfl, hordered, fun hbase => absurd rfl hbase,
        fun hbase => absurd rfl hbase, fun _ => hpayload, ?_, hevidence⟩
      intro earlier hrank
      cases earlier with
      | durableWriteback => exact base_checkpointed hseeded (by simp) hdone
      | quotaSpend => exact base_checkpointed hseeded (by simp) hspent
      | terminalCloseout => simp [ProviderStepKind.rank] at hrank
    · exact absurd h (reduceCommitted_ne_execute request _ effect)

private theorem reduceTerminalCloseout_receipts {request : TurnSettlementRequest}
    {receipts receipts' : List SettlementReceipt}
    (h : reduceTerminalCloseout request identity receipts = .ok (.inr receipts')) :
    request.terminalCloseoutRequired = true →
      request.terminalCloseoutPayload.any isCommittedPayload = true := by
  intro hrequired
  unfold reduceTerminalCloseout at h
  simp only [hrequired, Bool.not_true, Bool.false_eq_true, if_false] at h
  split at h
  · cases haction : reduceProviderAction request identity
        ⟨.terminalCloseout, effectRefOf identity.effectId .terminalCloseout,
          request.completedPhases⟩ receipts with
    | error reason => simp [haction, Except.map] at h
    | ok reduction => simp [haction, Except.map] at h
  · rename_i payload hpayload
    by_cases hcommitted : isCommittedPayload payload = true
    · simpa [hpayload] using hcommitted
    · simp [seedCommittedSteps, seedSteps, SettlementStepKind.text, ProviderStepKind.text,
        hcommitted] at h

private theorem requestFailure_none {request : TurnSettlementRequest}
    (h : requestFailure request identity = none) :
    effectIdsMatch request.committedEffectId identity.effectId = true ∧
      ∀ step, providerPayloadMatchesRef (request.payload step)
        (effectRefOf identity.effectId step) = true := by
  unfold requestFailure at h
  dsimp only at h
  split at h
  · simp at h
  rename_i hmatch
  refine ⟨by simpa using hmatch, ?_⟩
  split at h
  · simp at h
  all_goals
    rename_i hfind _
    simp only [List.find?_eq_none, List.mem_cons, List.not_mem_nil, or_false, Bool.not_eq_true',
      Bool.not_eq_false] at hfind
    intro step
    exact hfind step (by cases step <;> simp)

private theorem providerAction_ne_complete (request : TurnSettlementRequest)
    (identity : BoundSettlementIdentity) (context : ProviderEffectContext)
    (receipts receipts' : List SettlementReceipt) (state : TurnSettlementState)
    (outcome : Option TurnOutcome) :
    reduceProviderAction request identity context receipts ≠
      .ok (.complete state receipts' outcome) := by
  intro h
  unfold reduceProviderAction at h
  split at h
  · have hcomplete := Except.ok.inj h
    unfold providerExecution at hcomplete
    split at hcomplete
    · simp at hcomplete
    split at hcomplete
    · split at hcomplete <;> simp at hcomplete
    · simp at hcomplete
  · unfold providerFailure at h
    split at h
    · simp at h
    split at h <;> simp at h

private theorem baseProviderAction_ne_complete (request : TurnSettlementRequest)
    (identity : BoundSettlementIdentity) (step : ProviderStepKind)
    (receipts receipts' : List SettlementReceipt) (state : TurnSettlementState)
    (outcome : Option TurnOutcome) :
    reduceBaseProviderAction request identity step receipts ≠
      .ok (.complete state receipts' outcome) := by
  intro h
  unfold reduceBaseProviderAction at h
  split at h
  · simp at h
  · exact providerAction_ne_complete _ _ _ _ _ _ _ h

private theorem reduceTerminalCloseout_ne_complete (request : TurnSettlementRequest)
    (identity : BoundSettlementIdentity) (receipts receipts' : List SettlementReceipt)
    (state : TurnSettlementState) (outcome : Option TurnOutcome) :
    reduceTerminalCloseout request identity receipts ≠
      .ok (.inl (.complete state receipts' outcome)) := by
  intro h
  unfold reduceTerminalCloseout at h
  split at h
  · split at h <;> simp at h
  split at h
  · cases haction : reduceProviderAction request identity
        ⟨.terminalCloseout, effectRefOf identity.effectId .terminalCloseout,
          request.completedPhases⟩ receipts with
    | error reason => simp [haction, Except.map] at h
    | ok reduction =>
      simp only [haction, Except.map, Except.ok.injEq, Sum.inl.injEq] at h
      exact providerAction_ne_complete _ _ _ _ _ _ _ (h ▸ haction)
  · split at h
    · simp at h
    split at h
    · simp at h
    split at h <;> simp at h

private theorem reduceAdmitted_complete {request : TurnSettlementRequest}
    {state : TurnSettlementState} {receipts : List SettlementReceipt} {outcome : Option TurnOutcome}
    (h : reduceAdmitted request identity = .ok (.complete state receipts outcome)) :
    request.Checkpointed .durableWriteback ∧ request.Checkpointed .quotaSpend ∧
      (request.terminalCloseoutRequired = true →
        request.terminalCloseoutPayload.any isCommittedPayload = true) := by
  unfold reduceAdmitted at h
  cases haction : settlementNextAction identity baseSettlementSteps (baseCommittedPayloads request)
      request.completedPhases request.transactionPhases true with
  | failed failure receipts => simp [haction] at h
  | execute step receipts =>
    simp only [haction] at h
    split at h
    · simp_all
    · exact absurd h (baseProviderAction_ne_complete _ _ _ _ _ _ _)
    · split at h
      · simp at h
      · exact absurd h (baseProviderAction_ne_complete _ _ _ _ _ _ _)
    · simp at h
    · simp_all
  | complete receipts =>
    obtain ⟨⟨_, hseeded⟩, ⟨_, _, heq, _⟩ | ⟨_, heq, hfind⟩⟩ := nextAction_ok (by simp) haction
    · simp at heq
    rcases find_base request.completedPhases with ⟨hnext, _⟩ | ⟨hnext, _⟩ | ⟨_, hdone, hspent⟩
    · rw [hnext] at hfind
      simp at hfind
    · rw [hnext] at hfind
      simp at hfind
    simp only [haction] at h
    split at h
    · simp at h
    split at h
    · simp at h
    · rename_i reduction hterminal
      exact absurd (Except.ok.inj h ▸ hterminal)
        (reduceTerminalCloseout_ne_complete _ _ _ _ _ _)
    · rename_i hterminal
      exact ⟨base_checkpointed hseeded (by simp) hdone, base_checkpointed hseeded (by simp) hspent,
        reduceTerminalCloseout_receipts hterminal⟩

theorem reduceTurnSettlementTransaction_execute {request : TurnSettlementRequest}
    {effect : ProviderEffect}
    (h : reduceTurnSettlementTransaction request = .ok (.execute effect)) :
    ∃ identity, request.Authorizes identity effect := by
  obtain ⟨identity, hidentity, hreduce⟩ := reduceTransaction_admitted h (by simp)
  exact ⟨identity, reduceAdmitted_execute hidentity.1 hreduce⟩

theorem reduceTurnSettlementTransaction_complete {request : TurnSettlementRequest}
    {state : TurnSettlementState} {receipts : List SettlementReceipt} {outcome : Option TurnOutcome}
    (h : reduceTurnSettlementTransaction request = .ok (.complete state receipts outcome)) :
    ∃ identity, request.Completes identity := by
  obtain ⟨identity, ⟨hidentity, hadmitted⟩, hreduce⟩ := reduceTransaction_admitted h (by simp)
  obtain ⟨hmatch, hbound⟩ := requestFailure_none hadmitted
  obtain ⟨hwriteback, hspend, hterminal⟩ := reduceAdmitted_complete hreduce
  exact ⟨identity, hidentity, hmatch, hbound, hwriteback, hspend, hterminal⟩

end Inversion

end Loopx.Turn
