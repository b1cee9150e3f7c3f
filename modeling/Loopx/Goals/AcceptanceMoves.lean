/- GID: Loopx/Goals/AcceptanceMoves
   generality: I
   source: loopx/control_plane/goals/acceptance_authority.ts
   digest: Everything one accepted acceptance operation may do to what a head shows. -/

import Loopx.Goals.AcceptanceAuthority
import Loopx.Goals.AcceptanceViews

set_option autoImplicit false
set_option relaxedAutoImplicit false

namespace Loopx.Goals.Acceptance

open Loopx.Lib.KeyedList
open Loopx.Lib.Fallible (bind_eq_ok throwWhen throwWhen_eq_ok)
open Loopx.Json (JsNumber Protocol canonicalAuthorityJson canonicalEntries)

/-! ## The moves of a view -/

/-- A mutation for `goalRef` is admitted: nothing is bound, or exactly this instance, active. -/
def AcceptanceView.Admits (view : AcceptanceView) (goalRef : Option WireExactGoalRef) : Prop :=
  ∀ lifecycle, view.lifecycle = some lifecycle →
    lifecycle.state = .active ∧ goalRef = some lifecycle.goalRef

/-- The lifecycle after a mutation: a first exact one binds its instance. -/
def AcceptanceView.firstBound (view : AcceptanceView) (goalRef : Option WireExactGoalRef) :
    Option GoalAcceptanceLifecycle :=
  match view.lifecycle with
  | some lifecycle => some lifecycle
  | none => goalRef.map fun goalRef => ⟨.active, goalRef⟩

/-- What a commit is about. `other` stands for the writers that leave the acceptance alone. -/
inductive Move where
  | configured (goalRef : Option WireExactGoalRef)
  | verified (goalRef : Option WireExactGoalRef)
  | transition (transition : GoalAcceptanceLifecycleTransition)
  | other
deriving DecidableEq

def Move.isMutation : Move → Bool
  | .configured _ => true
  | .verified _ => true
  | _ => false

/-- The owner a first binding gives to a state, where there is one. -/
def AcceptanceView.givenOwner (view : AcceptanceView) (owner : WireExactGoalRef) :
    Option WireExactGoalRef :=
  if view.revision = 0 then none else some owner

inductive Moves : Move → AcceptanceView → AcceptanceView → Prop where
  | configured {view : AcceptanceView} {goalRef : Option WireExactGoalRef}
      {checks : Option ChecksView} (admits : view.Admits goalRef)
      (kept : ∀ c receipt, checks = some c → c.verification = some receipt →
        ∃ usable, view.usable = some usable ∧ usable.verification = some receipt) :
      Moves (.configured goalRef) view
        ⟨view.firstBound goalRef, goalRef, view.configurationRevision + 1, checks⟩
  | verified {view : AcceptanceView} {goalRef : Option WireExactGoalRef} {usable : ChecksView}
      {receipt : VerificationView} (admits : view.Admits goalRef)
      (checked : view.usable = some usable) :
      Moves (.verified goalRef) view ⟨view.firstBound goalRef, goalRef,
        view.configurationRevision, some { usable with verification := some receipt }⟩
  | bound {view : AcceptanceView} {goalRef : WireExactGoalRef}
      (unbound : view.lifecycle = none) :
      Moves (.transition (.bindExisting goalRef)) view
        ⟨some ⟨.active, goalRef⟩, view.givenOwner goalRef, view.revision, view.checks⟩
  | recreated {view : AcceptanceView} {retired goalRef : WireExactGoalRef}
      (unbound : view.lifecycle = none) :
      Moves (.transition (.reconcileRecreated retired goalRef)) view
        ⟨some ⟨.active, goalRef⟩, view.givenOwner retired, view.revision, view.checks⟩
  | retired {view : AcceptanceView} {goalRef : WireExactGoalRef}
      (active : view.lifecycle = some ⟨.active, goalRef⟩) :
      Moves (.transition (.retire goalRef)) view
        { view with lifecycle := some ⟨.retiring, goalRef⟩ }
  | succeeded {view : AcceptanceView} {transition : GoalAcceptanceLifecycleTransition}
      {retired : WireExactGoalRef} (named : transition.retiredGoalRef? = some retired)
      (retiring : view.lifecycle = some ⟨.retiring, retired⟩) :
      Moves (.transition transition) view
        { view with lifecycle := some ⟨.active, transition.goalRef⟩ }
  | unchanged {move : Move} {view : AcceptanceView} (quiet : move.isMutation = false) :
      Moves move view view

variable {host : AcceptanceHost} {head next : Fields} {goalId : String}

/-! ## From heads to views -/

theorem exists_shows_of_project {projected : Json}
    (h : projectGoalAcceptance host head goalId = .ok projected) :
    ∃ view, Shows host head goalId view := by
  obtain ⟨authority, read, _⟩ := bind_eq_ok.mp h
  exact exists_shows read

theorem Shows.lifecycle_written {view : AcceptanceView} (h : Shows host head goalId view)
    {lifecycle : GoalAcceptanceLifecycle}
    (written : head.lookup "goal_acceptance_lifecycle" = some lifecycle.toJson) :
    view.lifecycle = some lifecycle := by
  obtain ⟨_, _, _, hlifecycle, _⟩ := h
  exact readGoalAcceptanceLifecycle_written written hlifecycle

theorem Shows.lifecycle_kept {view view' : AcceptanceView} (h : Shows host head goalId view)
    (h' : Shows host next goalId view')
    (lifecycle : next.lookup "goal_acceptance_lifecycle" =
      head.lookup "goal_acceptance_lifecycle")
    (goal : next.lookup "goal_id" = head.lookup "goal_id") : view'.lifecycle = view.lifecycle := by
  obtain ⟨_, _, _, hlifecycle, _⟩ := h
  obtain ⟨_, _, _, hlifecycle', _⟩ := h'
  rw [readGoalAcceptanceLifecycle_congr (agreeAt_of_lookup lifecycle) (agreeAt_of_lookup goal)]
    at hlifecycle'
  exact Except.ok.inj (hlifecycle'.symm.trans hlifecycle)

theorem Shows.stored_kept {view view' : AcceptanceView} (h : Shows host head goalId view)
    (h' : Shows host next goalId view')
    (acceptance : next.lookup "goal_acceptance" = head.lookup "goal_acceptance")
    (goal : next.lookup "goal_id" = head.lookup "goal_id") :
    view'.owner = view.owner ∧ view'.revision = view.revision ∧ view'.checks = view.checks := by
  obtain ⟨_, active, _, _, stored, hchecks, _⟩ := h
  obtain ⟨_, active', _, _, stored', hchecks', _⟩ := h'
  have moved := stored'.congr (agreeAt_of_lookup acceptance) (agreeAt_of_lookup goal)
  obtain ⟨sameOwner, sameRevision, rfl⟩ := moved.unique stored
  exact ⟨sameOwner, sameRevision, hchecks'.trans hchecks.symm⟩

theorem Shows.of_state {view : AcceptanceView} (h : Shows host head goalId view)
    {written : AcceptanceState}
    (stored : head.lookup "goal_acceptance" = some written.toJson) :
    view.owner = written.ownerGoalRef ∧ view.revision = written.revision ∧
      view.checks = some written.view := by
  obtain ⟨_, active, _, _, storedAs, hchecks, _⟩ := h
  obtain ⟨sameOwner, sameRevision, _, same⟩ := storedAs.of_state stored
  exact ⟨sameOwner, sameRevision, hchecks.trans same⟩

theorem Shows.of_cleared {view : AcceptanceView} (h : Shows host head goalId view)
    {written : Nat} {goalRef : Option WireExactGoalRef}
    (stored : head.lookup "goal_acceptance" = some (clearedGoalAcceptance written goalRef)) :
    view.owner = goalRef ∧ view.revision = written ∧ view.checks = none := by
  obtain ⟨_, active, _, _, storedAs, hchecks, _⟩ := h
  obtain ⟨sameOwner, sameRevision, _, rfl⟩ := storedAs.of_cleared stored
  exact ⟨sameOwner, sameRevision, hchecks⟩

theorem Shows.atomic {view : AcceptanceView} (h : Shows host head goalId view)
    (checked : view.checks ≠ none) : view.owner.isSome = view.lifecycle.isSome := by
  obtain ⟨_, active, _, _, stored, hchecks, atomic, _⟩ := h
  apply atomic
  intro unstored
  obtain ⟨_, _, rfl⟩ := stored.unstored unstored
  exact checked hchecks

/-- What `readGoalAcceptance` returns is the usable part of the view. -/
theorem Shows.read {view : AcceptanceView} (h : Shows host head goalId view)
    {state : Option AcceptanceState} (read : readGoalAcceptance host head goalId = .ok state) :
    state.map AcceptanceState.view = view.usable ∧
      ∀ st, state = some st → st.ownerGoalRef = view.owner ∧ st.revision = view.revision := by
  obtain ⟨authority, active, hread, _, stored, hchecks, _, hauthority⟩ := h
  obtain ⟨authority', hread', read⟩ := bind_eq_ok.mp read
  obtain rfl := Except.ok.inj (hread.symm.trans hread')
  rw [hauthority, usable_authorityOf] at read
  have owned : ∀ st, active = some st →
      st.ownerGoalRef = view.owner ∧ st.revision = view.revision := by
    intro st hst
    exact stored.owned hst
  obtain rfl := Except.ok.inj read
  unfold AcceptanceView.usable
  split
  · exact ⟨hchecks.symm, owned⟩
  · simp

/-! ## Mutations -/

section Mutations

variable {request : MutationRequest} {loaded : LoadedHead}

theorem admits_of_ok {view : AcceptanceView} {expected : String}
    (shows : Shows host loaded.head request.goalId view)
    (h : admits host loaded request expected = .ok true) : view.Admits request.goalRef := by
  obtain ⟨_, _, _, hlifecycle, _⟩ := shows
  unfold admits at h
  split at h
  · cases Except.ok.inj h
  · obtain ⟨_, _, h⟩ := bind_eq_ok.mp h
    obtain ⟨refusal, hrefusal, h⟩ := bind_eq_ok.mp h
    rw [validateCurrentLifecycle, hlifecycle, Lib.Fallible.ok_bind] at hrefusal
    intro lifecycle bound
    simp only [bound] at hrefusal
    cases hgoal : request.goalRef with
    | none =>
      simp only [hgoal] at hrefusal
      obtain rfl := Except.ok.inj hrefusal
      cases Except.ok.inj h
    | some goalRef =>
      simp only [hgoal] at hrefusal
      by_cases same : sameExactGoalRef lifecycle.goalRef goalRef = true
      · by_cases active : lifecycle.state = .active
        · exact ⟨active, by rw [sameExactGoalRef_iff.mp same]⟩
        · have retiring : lifecycle.state = .retiring := by
            cases hs : lifecycle.state <;> simp_all
          simp only [same, not_true_eq_false, if_false, retiring, if_true] at hrefusal
          obtain rfl := Except.ok.inj hrefusal
          cases Except.ok.inj h
      · simp only [same, Bool.false_eq_true, not_false_eq_true, if_true] at hrefusal
        obtain rfl := Except.ok.inj hrefusal
        cases Except.ok.inj h

/-- The two ways a commit prepares its head: a first exact binding, or nothing at all. -/
private theorem committedHead_eq_ok {state committed : Option AcceptanceState} {base : Fields}
    (h : committedHead host request head state = .ok (base, committed)) :
    (∃ goalRef, request.goalRef = some goalRef ∧
      readGoalAcceptanceLifecycle head request.goalId = .ok none ∧
      base.lookup "goal_acceptance_lifecycle" =
        some (GoalAcceptanceLifecycle.toJson ⟨.active, goalRef⟩) ∧
      base.lookup "goal_id" = head.lookup "goal_id" ∧
      (state = none ∧ committed = none ∨ ∃ st bound, state = some st ∧ committed = some bound ∧
        bindGoalAcceptanceStateOwner st goalRef = .ok bound)) ∨
    (base = head ∧ committed = state ∧ ∃ lifecycle,
      readGoalAcceptanceLifecycle head request.goalId = .ok lifecycle ∧
      (request.goalRef = none ∨ lifecycle.isSome)) := by
  obtain ⟨lifecycle, hlifecycle, h⟩ := bind_eq_ok.mp h
  split at h
  · rename_i goalRef hgoal
    obtain ⟨bound, hbound, h⟩ := bind_eq_ok.mp h
    obtain ⟨written, hwritten, h⟩ := bind_eq_ok.mp h
    obtain ⟨outcomes, _, hwritten⟩ := bind_eq_ok.mp hwritten
    obtain ⟨rfl, rfl⟩ := Prod.mk.inj (Except.ok.inj h)
    left
    refine ⟨goalRef, hgoal, hlifecycle, ?_, ?_, ?_⟩
    · rw [← Except.ok.inj hwritten]
      cases outcomes <;> simp [lookup_setKey]
    · rw [← Except.ok.inj hwritten]
      cases outcomes <;> simp [lookup_setKey]
    · cases state with
      | none => exact Or.inl ⟨rfl, (Except.ok.inj hbound).symm⟩
      | some st =>
        obtain ⟨owned, howned, hbound⟩ := bind_eq_ok.mp hbound
        exact Or.inr ⟨st, owned, rfl, (Except.ok.inj hbound).symm, howned⟩
  · rename_i hother
    obtain ⟨rfl, rfl⟩ := Prod.mk.inj (Except.ok.inj h)
    right
    refine ⟨rfl, rfl, _, hlifecycle, ?_⟩
    cases hgoal : request.goalRef with
    | none => exact Or.inl rfl
    | some goalRef =>
      exact Or.inr (Option.isSome_iff_ne_none.mpr (hother goalRef hgoal))

private theorem bindOwner_eq_ok {state bound : AcceptanceState} {owner : WireExactGoalRef}
    (h : bindGoalAcceptanceStateOwner state owner = .ok bound) :
    bound = { state with ownerGoalRef := some owner } := by
  unfold bindGoalAcceptanceStateOwner at h
  split at h
  · split at h
    · exact (Except.ok.inj h).symm
    · cases h
  · exact (Except.ok.inj h).symm

/-- What a commit writes and that its own projection could read it. -/
private theorem commit_eq_ok {state : Option AcceptanceState} {reviewed : Bool}
    (h : commit host request head state reviewed = .ok (some next)) :
    ∃ base committed value projected, committedHead host request head state = .ok (base, committed) ∧
      acceptanceValue host request head committed = .ok value ∧
      next = setKey base "goal_acceptance" value ∧
      projectGoalAcceptance host next request.goalId = .ok projected := by
  obtain ⟨⟨base, committed⟩, hcommitted, h⟩ := bind_eq_ok.mp h
  obtain ⟨value, hvalue, h⟩ := bind_eq_ok.mp h
  obtain ⟨projected, hprojected, h⟩ := bind_eq_ok.mp h
  refine ⟨base, committed, value, projected, hcommitted, hvalue, ?_⟩
  have same : setKey base "goal_acceptance" value = next := by
    split at h
    · split at h
      · obtain ⟨_, _, h⟩ := bind_eq_ok.mp h
        have h := Except.ok.inj h
        split at h
        · cases h
        · exact Option.some.inj h
      · have h := Except.ok.inj h
        split at h
        · cases h
        · exact Option.some.inj h
    · have h := Except.ok.inj h
      split at h
      · cases h
      · exact Option.some.inj h
  subst same
  exact ⟨rfl, hprojected⟩

/-- A commit of `state` shows the lifecycle it may bind, the owner of the request and the state. -/
theorem commit_shows {view : AcceptanceView} {state : Option AcceptanceState} {reviewed : Bool}
    (shows : Shows host head request.goalId view)
    (owned : ∀ st, state = some st → request.goalRef = none ∨ view.lifecycle.isSome →
      st.ownerGoalRef = request.goalRef)
    (h : commit host request head state reviewed = .ok (some next)) :
    Shows host next request.goalId ⟨view.firstBound request.goalRef, request.goalRef,
        (state.map (·.revision)).getD (view.configurationRevision + 1),
        state.map AcceptanceState.view⟩ ∧
      next.lookup "goal_id" = head.lookup "goal_id" := by
  obtain ⟨base, committed, value, projected, hcommitted, hvalue, rfl, hprojected⟩ :=
    commit_eq_ok h
  obtain ⟨view', shows'⟩ := exists_shows_of_project hprojected
  have stored : (setKey base "goal_acceptance" value).lookup "goal_acceptance" = some value := by
    simp [lookup_setKey]
  have kept (key : String) (other : key ≠ "goal_acceptance") :
      (setKey base "goal_acceptance" value).lookup key = base.lookup key := by
    rw [lookup_setKey, if_neg other]
  obtain ⟨_, _, _, hlifecycle, _⟩ := (show Shows host head request.goalId view from shows)
  -- the lifecycle and the owner first, then the state or its removal
  have bound : view'.lifecycle = view.firstBound request.goalRef ∧
      base.lookup "goal_id" = head.lookup "goal_id" ∧
      (∀ st, committed = some st → st.ownerGoalRef = request.goalRef) ∧
      committed.map (fun st => (st.revision, st.view)) =
        state.map (fun st => (st.revision, st.view)) := by
    rcases committedHead_eq_ok hcommitted with
      ⟨goalRef, hgoal, hunbound, hwritten, hgoalId, hstate⟩ | ⟨rfl, rfl, lifecycle, hl, hcase⟩
    · have unbound : view.lifecycle = none := Except.ok.inj (hlifecycle.symm.trans hunbound)
      refine ⟨?_, hgoalId, ?_, ?_⟩
      · rw [shows'.lifecycle_written (by rw [kept _ (by decide), hwritten])]
        simp [AcceptanceView.firstBound, unbound, hgoal]
      · intro st hst
        rcases hstate with ⟨_, hnone⟩ | ⟨st', bound, _, hbound, hok⟩
        · simp [hnone] at hst
        · obtain rfl := Option.some.inj (hst.symm.trans hbound)
          rw [bindOwner_eq_ok hok, hgoal]
      · rcases hstate with ⟨rfl, rfl⟩ | ⟨st', bound, rfl, rfl, hok⟩
        · rfl
        · rw [bindOwner_eq_ok hok]
          rfl
    · have same : lifecycle = view.lifecycle := Except.ok.inj (hl.symm.trans hlifecycle)
      subst same
      refine ⟨?_, rfl, ?_, rfl⟩
      · rw [shows.lifecycle_kept shows' (kept _ (by decide)) (kept _ (by decide))]
        unfold AcceptanceView.firstBound
        split
        · assumption
        · rename_i unbound
          rcases hcase with hgoal | hbound
          · simp [hgoal, unbound]
          · simp [unbound] at hbound
      · intro st hst
        exact owned st hst hcase
  obtain ⟨boundLifecycle, sameGoal, ownedCommitted, sameState⟩ := bound
  refine ⟨?_, (kept _ (by decide)).trans sameGoal⟩
  suffices same : view' = ⟨view.firstBound request.goalRef, request.goalRef,
      (state.map (·.revision)).getD (view.configurationRevision + 1),
      state.map AcceptanceState.view⟩ by
    rw [← same]
    exact shows'
  cases committed with
  | some st =>
    obtain rfl := Except.ok.inj hvalue
    obtain ⟨howner, hrevision, hchecks⟩ := shows'.of_state stored
    cases state with
    | none => simp at sameState
    | some state =>
      simp only [Option.map_some, Option.some.injEq, Prod.mk.injEq] at sameState
      cases view'
      simp_all
  | none =>
    obtain ⟨authority, hauthority, hvalue⟩ := bind_eq_ok.mp hvalue
    obtain rfl := Except.ok.inj hvalue
    obtain ⟨howner, hrevision, hchecks⟩ := shows'.of_cleared stored
    rw [shows.configurationRevision hauthority] at hrevision
    cases state with
    | some state => simp at sameState
    | none =>
      cases view'
      simp_all

/-- The request's owner is the state's wherever the commit does not bind it. -/
private theorem usable_owner {view : AcceptanceView} {goalRef : Option WireExactGoalRef}
    (admits : view.Admits goalRef) (matched : view.ownerMatches = true)
    (atomic : view.owner.isSome = view.lifecycle.isSome)
    (unbinding : goalRef = none ∨ view.lifecycle.isSome) : view.owner = goalRef := by
  cases hl : view.lifecycle with
  | some lifecycle =>
    have owner : view.owner = some lifecycle.goalRef := by
      simpa [AcceptanceView.ownerMatches, hl] using matched
    rw [owner, (admits lifecycle hl).2]
  | none =>
    have unowned : view.owner = none := by simpa [hl] using atomic
    have unbound : goalRef = none := by simpa [hl] using unbinding
    rw [unowned, unbound]

theorem configuredState_eq_ok {document : AcceptanceDocument} {previous : Option AcceptanceState}
    {state : AcceptanceState} {view : AcceptanceView}
    (shows : Shows host head request.goalId view)
    (h : configuredState host request head document previous = .ok state) :
    state.ownerGoalRef = request.goalRef ∧ state.revision = view.configurationRevision + 1 ∧
      state.verification = keptVerification document previous := by
  obtain ⟨_, _, h⟩ := bind_eq_ok.mp h
  obtain ⟨_, _, h⟩ := bind_eq_ok.mp h
  obtain ⟨authority, hauthority, h⟩ := bind_eq_ok.mp h
  obtain ⟨_, _, h⟩ := bind_eq_ok.mp h
  obtain ⟨bindings, _, h⟩ := bind_eq_ok.mp h
  obtain rfl := Except.ok.inj h
  exact ⟨rfl, by rw [shows.configurationRevision hauthority], rfl⟩

private theorem kept_of_keptVerification {document : AcceptanceDocument}
    {previous : Option AcceptanceState} {receipt : AcceptanceVerification}
    (h : keptVerification document previous = some receipt) :
    ∃ state, previous = some state ∧ state.verification = some receipt := by
  simp only [keptVerification] at h
  split at h
  · cases h
  · exact Option.bind_eq_some_iff.mp h

/-- A commit for another Goal than that of the head is never readable. -/
private theorem goal_of_commit {state : Option AcceptanceState} {reviewed : Bool}
    (goal : head.lookup "goal_id" = some (.string goalId))
    (h : commit host request head state reviewed = .ok (some next)) : request.goalId = goalId := by
  obtain ⟨base, committed, value, projected, hcommitted, _, rfl, hprojected⟩ := commit_eq_ok h
  obtain ⟨view, _, _, _, _, stored, _⟩ := exists_shows_of_project hprojected
  have kept : (setKey base "goal_acceptance" value).lookup "goal_id" = head.lookup "goal_id" := by
    rw [lookup_setKey, if_neg (by decide)]
    rcases committedHead_eq_ok hcommitted with ⟨_, _, _, _, hgoal, _⟩ | ⟨rfl, _⟩
    · exact hgoal
    · rfl
  have written := stored.goal (by simp [lookup_setKey])
  rw [kept, goal] at written
  simpa using written.symm

/-- An accepted configure call is a `configured` move for the instance it names. -/
theorem configure_moves {value : Option Json} {view : AcceptanceView}
    (shows : Shows host loaded.head goalId view)
    (goal : loaded.head.lookup "goal_id" = some (.string goalId))
    (h : configureGoalAcceptance host loaded value = .ok (some next)) :
    ∃ request view', mutationRequest value false = .ok request ∧ Shows host next goalId view' ∧
      next.lookup "goal_id" = some (.string goalId) ∧
      Moves (.configured request.goalRef) view view' := by
  obtain ⟨request, hrequest, h⟩ := bind_eq_ok.mp h
  obtain ⟨_, _, h⟩ := bind_eq_ok.mp h
  obtain ⟨document, _, h⟩ := bind_eq_ok.mp h
  obtain ⟨admission, _, h⟩ := bind_eq_ok.mp h
  cases admission with
  | none => cases Except.ok.inj h
  | some expected =>
    obtain ⟨admitted, hadmitted, h⟩ := bind_eq_ok.mp h
    cases admitted with
    | false => cases Except.ok.inj h
    | true =>
      obtain ⟨previous, hprevious, h⟩ := bind_eq_ok.mp h
      cases document with
      | none =>
        obtain rfl := goal_of_commit goal h
        obtain ⟨shows', goal'⟩ := commit_shows shows (by simp) h
        refine ⟨request, _, hrequest, shows', goal'.trans goal, ?_⟩
        exact .configured (admits_of_ok shows hadmitted) (by simp)
      | some document =>
        simp only at h
        split at h
        · cases Except.ok.inj h
        · obtain ⟨state, hstate, h⟩ := bind_eq_ok.mp h
          obtain rfl := goal_of_commit goal h
          obtain ⟨howner, hrevision, hverification⟩ := configuredState_eq_ok shows hstate
          obtain ⟨shows', goal'⟩ := commit_shows shows
            (fun st hst _ => by rw [← Option.some.inj hst, howner]) h
          rw [Option.map_some, Option.map_some, Option.getD_some, hrevision] at shows'
          refine ⟨request, _, hrequest, shows', goal'.trans goal, ?_⟩
          refine .configured (admits_of_ok shows hadmitted) ?_
          intro c receipt hc hreceipt
          obtain rfl := Option.some.inj hc
          obtain ⟨kept, hkept, rfl⟩ := Option.map_eq_some_iff.mp hreceipt
          rw [hverification] at hkept
          obtain ⟨before, rfl, hbefore⟩ := kept_of_keptVerification hkept
          refine ⟨before.view, ?_, by simp [AcceptanceState.view, hbefore]⟩
          rw [← (shows.read hprevious).1, Option.map_some]

/-- An accepted verification is a `verified` move for the instance it names. -/
theorem verify_moves {value : Option Json} {view : AcceptanceView}
    (shows : Shows host loaded.head goalId view)
    (goal : loaded.head.lookup "goal_id" = some (.string goalId))
    (h : commitGoalAcceptanceVerification host loaded value = .ok (some next)) :
    ∃ request view', mutationRequest value true = .ok request ∧ Shows host next goalId view' ∧
      next.lookup "goal_id" = some (.string goalId) ∧
      Moves (.verified request.goalRef) view view' := by
  obtain ⟨request, hrequest, h⟩ := bind_eq_ok.mp h
  obtain ⟨_, _, h⟩ := bind_eq_ok.mp h
  obtain ⟨todoId, _, h⟩ := bind_eq_ok.mp h
  obtain ⟨results, _, h⟩ := bind_eq_ok.mp h
  obtain ⟨admitted, hadmitted, h⟩ := bind_eq_ok.mp h
  cases admitted with
  | false => cases Except.ok.inj h
  | true =>
    obtain ⟨read, hread, h⟩ := bind_eq_ok.mp h
    cases read with
    | none => cases h
    | some state =>
      simp only at h
      split at h
      · cases Except.ok.inj h
      · obtain ⟨_, _, h⟩ := bind_eq_ok.mp h
        obtain ⟨_, _, h⟩ := bind_eq_ok.mp h
        obtain ⟨_, _, h⟩ := bind_eq_ok.mp h
        obtain ⟨work, _, h⟩ := bind_eq_ok.mp h
        obtain rfl := goal_of_commit goal h
        obtain ⟨usable, owned⟩ := shows.read hread
        obtain ⟨howner, hrevision⟩ := owned state rfl
        have admits := admits_of_ok shows hadmitted
        rw [Option.map_some] at usable
        have matched : view.ownerMatches = true := by
          by_contra unmatched
          simp [AcceptanceView.usable, unmatched] at usable
        have atomic := shows.atomic (by
          intro cleared
          simp [AcceptanceView.usable, cleared] at usable)
        obtain ⟨shows', goal'⟩ := commit_shows shows (by
          intro st hst unbinding
          rw [← Option.some.inj hst]
          exact howner.trans (usable_owner admits matched atomic unbinding)) h
        refine ⟨request, _, hrequest, shows', goal'.trans goal, ?_⟩
        have move := @Moves.verified _ _ _
          ⟨request.operationId, state.revision, state.digest, work, todoId⟩ admits usable.symm
        simpa [AcceptanceView.configurationRevision, matched, hrevision, AcceptanceState.view,
          AcceptanceVerification.view] using move

private theorem nodup_commit {state : Option AcceptanceState} {reviewed : Bool}
    (nodup : (keys head).Nodup) (h : commit host request head state reviewed = .ok (some next)) :
    (keys next).Nodup := by
  obtain ⟨base, committed, value, projected, hcommitted, _, rfl, _⟩ := commit_eq_ok h
  apply nodup_keys_setKey
  obtain ⟨lifecycle, _, hcommitted⟩ := bind_eq_ok.mp hcommitted
  split at hcommitted
  · obtain ⟨bound, _, hcommitted⟩ := bind_eq_ok.mp hcommitted
    obtain ⟨written, hwritten, hcommitted⟩ := bind_eq_ok.mp hcommitted
    obtain ⟨rfl, _⟩ := Prod.mk.inj (Except.ok.inj hcommitted)
    obtain ⟨outcomes, _, hwritten⟩ := bind_eq_ok.mp hwritten
    rw [← Except.ok.inj hwritten]
    cases outcomes with
    | none => exact nodup_keys_setKey nodup _ _
    | some outcomes => exact nodup_keys_setKey (nodup_keys_setKey nodup _ _) _ _
  · obtain ⟨rfl, _⟩ := Prod.mk.inj (Except.ok.inj hcommitted)
    exact nodup

theorem nodup_configure {value : Option Json} (nodup : (keys loaded.head).Nodup)
    (h : configureGoalAcceptance host loaded value = .ok (some next)) : (keys next).Nodup := by
  obtain ⟨request, _, h⟩ := bind_eq_ok.mp h
  obtain ⟨_, _, h⟩ := bind_eq_ok.mp h
  obtain ⟨document, _, h⟩ := bind_eq_ok.mp h
  obtain ⟨admission, _, h⟩ := bind_eq_ok.mp h
  cases admission with
  | none => cases Except.ok.inj h
  | some expected =>
    obtain ⟨admitted, _, h⟩ := bind_eq_ok.mp h
    cases admitted with
    | false => cases Except.ok.inj h
    | true =>
      obtain ⟨previous, _, h⟩ := bind_eq_ok.mp h
      cases document with
      | none => exact nodup_commit nodup h
      | some document =>
        simp only at h
        split at h
        · cases Except.ok.inj h
        · obtain ⟨state, _, h⟩ := bind_eq_ok.mp h
          exact nodup_commit nodup h

theorem nodup_verify {value : Option Json} (nodup : (keys loaded.head).Nodup)
    (h : commitGoalAcceptanceVerification host loaded value = .ok (some next)) :
    (keys next).Nodup := by
  obtain ⟨request, _, h⟩ := bind_eq_ok.mp h
  obtain ⟨_, _, h⟩ := bind_eq_ok.mp h
  obtain ⟨todoId, _, h⟩ := bind_eq_ok.mp h
  obtain ⟨results, _, h⟩ := bind_eq_ok.mp h
  obtain ⟨admitted, _, h⟩ := bind_eq_ok.mp h
  cases admitted with
  | false => cases Except.ok.inj h
  | true =>
    obtain ⟨read, _, h⟩ := bind_eq_ok.mp h
    cases read with
    | none => cases h
    | some state =>
      simp only at h
      split at h
      · cases Except.ok.inj h
      · obtain ⟨_, _, h⟩ := bind_eq_ok.mp h
        obtain ⟨_, _, h⟩ := bind_eq_ok.mp h
        obtain ⟨_, _, h⟩ := bind_eq_ok.mp h
        obtain ⟨work, _, h⟩ := bind_eq_ok.mp h
        exact nodup_commit nodup h

end Mutations

/-! ## Transitions -/

section Transitions

variable {loaded : LoadedHead}

private theorem lookup_plannedHead (lifecycle : GoalAcceptanceLifecycle)
    (acceptance : Option Json) (key : String) :
    (plannedHead head lifecycle acceptance).lookup key =
      if key = "goal_acceptance" ∧ acceptance.isSome then acceptance
      else if key = "goal_acceptance_lifecycle" then some lifecycle.toJson
      else head.lookup key := by
  unfold plannedHead
  cases acceptance with
  | none => simp [lookup_setKey]
  | some value => simp [lookup_setKey]

private theorem lookup_bindOutcomes {request : LifecycleRequest} {base : Fields}
    (h : bindOutcomes host head request base = .ok next) {key : String}
    (other : key ≠ "goal_outcomes") : next.lookup key = base.lookup key := by
  obtain ⟨lifecycle, _, h⟩ := bind_eq_ok.mp h
  split at h
  · obtain ⟨outcomes, _, h⟩ := bind_eq_ok.mp h
    rw [← Except.ok.inj h]
    cases outcomes with
    | none => rfl
    | some outcomes => simp [lookup_setKey, other]
  · rw [Except.ok.inj h]

/-- How a planned head reads: the lifecycle it names over the acceptance it may rewrite. -/
private theorem planned_shows {view : AcceptanceView} {lifecycle : GoalAcceptanceLifecycle}
    {acceptance : Option Json} {projected : Json} {goalId' : String}
    (shows : Shows host head goalId view)
    (goal : head.lookup "goal_id" = some (.string goalId))
    (planned : ∀ key, key ≠ "goal_outcomes" →
      next.lookup key = (plannedHead head lifecycle acceptance).lookup key)
    (h : projectGoalAcceptance host next goalId' = .ok projected) :
    goalId' = goalId ∧ next.lookup "goal_id" = some (.string goalId) ∧
      ∃ view', Shows host next goalId view' ∧ view'.lifecycle = some lifecycle ∧
        next.lookup "goal_acceptance" = acceptance.or (head.lookup "goal_acceptance") ∧
        (acceptance = none → view'.owner = view.owner ∧ view'.revision = view.revision ∧
          view'.checks = view.checks) := by
  obtain ⟨view', shows'⟩ := exists_shows_of_project h
  have hgoal : next.lookup "goal_id" = some (.string goalId) := by
    rw [planned _ (by decide), lookup_plannedHead]
    simpa using goal
  have hlifecycle : next.lookup "goal_acceptance_lifecycle" = some lifecycle.toJson := by
    rw [planned _ (by decide), lookup_plannedHead]
    simp
  have hacceptance : next.lookup "goal_acceptance" =
      acceptance.or (head.lookup "goal_acceptance") := by
    rw [planned _ (by decide), lookup_plannedHead]
    cases acceptance <;> simp
  have bound := shows'.lifecycle_written hlifecycle
  have sameGoal : goalId' = goalId := by
    obtain ⟨_, _, _, hread, _⟩ := (show Shows host next goalId' view' from shows')
    rw [bound] at hread
    have written := (goalId_of_readGoalAcceptanceLifecycle hread).2
    rw [hgoal] at written
    simpa using written.symm
  subst sameGoal
  refine ⟨rfl, hgoal, view', shows', bound, hacceptance, ?_⟩
  rintro rfl
  exact shows.stored_kept shows' (by simpa using hacceptance) (hgoal.trans goal.symm)

/-- Rewriting the usable checks under their own owner shows what was stored. -/
private theorem rewritten_stored {view view' : AcceptanceView} {state : Option AcceptanceState}
    (shows : Shows host head goalId view) (shows' : Shows host next goalId view')
    (hread : readGoalAcceptance host head goalId = .ok state)
    (hnext : next.lookup "goal_acceptance" =
      (state.map AcceptanceState.toJson).or (head.lookup "goal_acceptance"))
    (kept : state.map AcceptanceState.toJson = none → view'.owner = view.owner ∧
      view'.revision = view.revision ∧ view'.checks = view.checks) :
    view'.owner = view.owner ∧ view'.revision = view.revision ∧ view'.checks = view.checks := by
  cases state with
  | none => exact kept rfl
  | some st =>
    obtain ⟨usable, owned⟩ := shows.read hread
    obtain ⟨howner, hrevision⟩ := owned st rfl
    obtain ⟨howner', hrevision', hchecks'⟩ := shows'.of_state (by simpa using hnext)
    refine ⟨howner'.trans howner, hrevision'.trans hrevision, ?_⟩
    rw [hchecks', ← Option.map_some, usable]
    unfold AcceptanceView.usable at usable ⊢
    split
    · rfl
    · rename_i unmatched
      rw [if_neg unmatched] at usable
      cases usable

/-- A first binding gives a stored state its owner and shows the rest as it was. -/
private theorem initial_stored {view view' : AcceptanceView} {owner : WireExactGoalRef}
    {acceptance : Option Json} (shows : Shows host head goalId view)
    (shows' : Shows host next goalId view') (unbound : view.lifecycle = none)
    (hinitial : initialAcceptance host head goalId owner = .ok acceptance)
    (hnext : next.lookup "goal_acceptance" = acceptance.or (head.lookup "goal_acceptance"))
    (kept : acceptance = none → view'.owner = view.owner ∧ view'.revision = view.revision ∧
      view'.checks = view.checks) :
    view'.owner = view.givenOwner owner ∧ view'.revision = view.revision ∧
      view'.checks = view.checks := by
  obtain ⟨authority, hauthority, hinitial⟩ := bind_eq_ok.mp hinitial
  have hread : readGoalAcceptance host head goalId = .ok authority.usable := by
    rw [readGoalAcceptance, hauthority, Lib.Fallible.ok_bind]
  have hrevision := shows.configurationRevision hauthority
  have matched : view.ownerMatches = true := by simp [AcceptanceView.ownerMatches, unbound]
  rw [AcceptanceView.configurationRevision, if_pos matched] at hrevision
  obtain ⟨husable, owned⟩ := shows.read hread
  rw [AcceptanceView.usable, if_pos matched] at husable
  cases husage : authority.usable with
  | none =>
    rw [husage, Option.map_none] at husable
    simp only [husage, hrevision] at hinitial
    by_cases unstored : view.revision = 0
    · rw [if_pos unstored] at hinitial
      obtain ⟨howner', hrevision', hchecks'⟩ := kept (Except.ok.inj hinitial).symm
      refine ⟨?_, hrevision', hchecks'⟩
      rw [howner', AcceptanceView.givenOwner, if_pos unstored]
      obtain ⟨_, _, _, _, stored, _⟩ := shows
      exact (stored.unstored (stored.revision_eq_zero.mp unstored)).1
    · rw [if_neg unstored] at hinitial
      rw [← Except.ok.inj hinitial, Option.some_or] at hnext
      obtain ⟨howner', hrevision', hchecks'⟩ := shows'.of_cleared hnext
      refine ⟨?_, hrevision', hchecks'.trans husable⟩
      rw [howner', AcceptanceView.givenOwner, if_neg unstored]
  | some state =>
    rw [husage, Option.map_some] at husable
    simp only [husage] at hinitial
    obtain ⟨bound, hbound, hinitial⟩ := bind_eq_ok.mp hinitial
    rw [← Except.ok.inj hinitial, Option.some_or] at hnext
    obtain ⟨howner', hrevision', hchecks'⟩ := shows'.of_state hnext
    obtain ⟨_, stateRevision⟩ := owned state husage
    rw [bindOwner_eq_ok hbound] at howner' hrevision' hchecks'
    refine ⟨?_, hrevision'.trans stateRevision, hchecks'.trans husable⟩
    have stored : view.revision ≠ 0 := by
      intro unstored
      obtain ⟨_, active, _, _, storedAs, hchecks, _⟩ := shows
      obtain ⟨_, _, rfl⟩ := storedAs.unstored (storedAs.revision_eq_zero.mp unstored)
      rw [← husable] at hchecks
      cases hchecks
    rw [howner', AcceptanceView.givenOwner, if_neg stored]

/-- What each plan says of the head it was made for. -/
private inductive PlanOf (host : AcceptanceHost) (head : Fields) (goalId : String)
    (view : AcceptanceView) : GoalAcceptanceLifecycleTransition → LifecyclePlan → Prop where
  | bound {goalRef : WireExactGoalRef} {acceptance : Option Json}
      (unbound : view.lifecycle = none)
      (initial : initialAcceptance host head goalId goalRef = .ok acceptance) :
      PlanOf host head goalId view (.bindExisting goalRef) (.commit ⟨.active, goalRef⟩ acceptance)
  | recreated {retired goalRef : WireExactGoalRef} {acceptance : Option Json}
      (unbound : view.lifecycle = none)
      (initial : initialAcceptance host head goalId retired = .ok acceptance) :
      PlanOf host head goalId view (.reconcileRecreated retired goalRef)
        (.commit ⟨.active, goalRef⟩ acceptance)
  | retired {goalRef : WireExactGoalRef} {state : Option AcceptanceState}
      (active : view.lifecycle = some ⟨.active, goalRef⟩)
      (read : readGoalAcceptance host head goalId = .ok state) :
      PlanOf host head goalId view (.retire goalRef)
        (.commit ⟨.retiring, goalRef⟩ (state.map AcceptanceState.toJson))
  | succeeded {transition : GoalAcceptanceLifecycleTransition} {retired : WireExactGoalRef}
      {state : Option AcceptanceState} (named : transition.retiredGoalRef? = some retired)
      (retiring : view.lifecycle = some ⟨.retiring, retired⟩)
      (read : readGoalAcceptance host head goalId = .ok state) :
      PlanOf host head goalId view transition
        (.commit ⟨.active, transition.goalRef⟩ (state.map AcceptanceState.toJson))
  | noChange {transition : GoalAcceptanceLifecycleTransition}
      {lifecycle : GoalAcceptanceLifecycle} (same : view.lifecycle = some lifecycle) :
      PlanOf host head goalId view transition (.noChange lifecycle)
  | failure {transition : GoalAcceptanceLifecycleTransition} {code : String} :
      PlanOf host head goalId view transition (.failure code)

private theorem planSuccessor_planOf {view : AcceptanceView} {lifecycle : GoalAcceptanceLifecycle}
    {retired : WireExactGoalRef} (transition : GoalAcceptanceLifecycleTransition)
    {plan : LifecyclePlan} (named : transition.retiredGoalRef? = some retired)
    (same : view.lifecycle = some lifecycle)
    (h : planSuccessor host head goalId lifecycle retired transition.goalRef = .ok plan) :
    PlanOf host head goalId view transition plan := by
  unfold planSuccessor at h
  split at h
  · rw [← Except.ok.inj h]
    exact .failure
  · rename_i retiring
    obtain ⟨state, hstate, h⟩ := bind_eq_ok.mp h
    simp only [ne_eq, not_or, not_not, sameExactGoalRef_iff] at retiring
    rw [← Except.ok.inj h]
    refine .succeeded named ?_ hstate
    rw [same, ← retiring.1, ← retiring.2]

private theorem planOf_of_ok {view : AcceptanceView} {plan : LifecyclePlan}
    {transition : GoalAcceptanceLifecycleTransition} (shows : Shows host head goalId view)
    (h : planLifecycleTransition host head goalId transition = .ok plan) :
    PlanOf host head goalId view transition plan := by
  obtain ⟨_, _, _, hlifecycle, _⟩ := (show Shows host head goalId view from shows)
  rw [planLifecycleTransition, hlifecycle, Lib.Fallible.ok_bind] at h
  cases hl : view.lifecycle with
  | none =>
    rw [hl] at h
    cases transition with
    | bindExisting goalRef =>
      obtain ⟨acceptance, hacceptance, h⟩ := bind_eq_ok.mp h
      rw [← Except.ok.inj h]
      exact .bound hl hacceptance
    | reconcileRecreated retired goalRef =>
      obtain ⟨acceptance, hacceptance, h⟩ := bind_eq_ok.mp h
      rw [← Except.ok.inj h]
      exact .recreated hl hacceptance
    | retire goalRef =>
      rw [← Except.ok.inj h]
      exact .failure
    | activateSuccessor retired goalRef =>
      rw [← Except.ok.inj h]
      exact .failure
  | some lifecycle =>
    rw [hl] at h
    cases transition with
    | bindExisting goalRef =>
      rw [← Except.ok.inj h]
      split
      · exact .failure
      · split
        · exact .noChange hl
        · exact .failure
    | retire goalRef =>
      obtain ⟨authority, hauthority, h⟩ := bind_eq_ok.mp h
      rw [← Except.ok.inj h]
      split
      · exact .failure
      · rename_i same
        split
        · exact .noChange hl
        · rename_i active
          have hread : readGoalAcceptance host head goalId = .ok authority.usable := by
            rw [readGoalAcceptance, hauthority, Lib.Fallible.ok_bind]
          have ref := sameExactGoalRef_iff.mp (not_not.mp same)
          have state : lifecycle.state = .active := by
            cases hs : lifecycle.state <;> simp_all
          subst ref
          exact .retired (by rw [hl, ← state]) hread
    | activateSuccessor retired goalRef =>
      obtain ⟨_, _, h⟩ := bind_eq_ok.mp h
      exact planSuccessor_planOf (.activateSuccessor retired goalRef) rfl hl h
    | reconcileRecreated retired goalRef =>
      obtain ⟨_, _, h⟩ := bind_eq_ok.mp h
      split at h
      · rw [← Except.ok.inj h]
        exact .noChange hl
      · exact planSuccessor_planOf _ rfl hl h

private theorem noChange_same {view : AcceptanceView} {lifecycle : GoalAcceptanceLifecycle}
    {transition : GoalAcceptanceLifecycleTransition}
    (h : PlanOf host head goalId view transition (.noChange lifecycle)) :
    view.lifecycle = some lifecycle := by
  cases h with
  | noChange same => exact same

/-- A committed plan moves the view the way its transition is defined. -/
private theorem commit_moves {view view' : AcceptanceView} {lifecycle : GoalAcceptanceLifecycle}
    {acceptance : Option Json} {transition : GoalAcceptanceLifecycleTransition}
    (plan : PlanOf host head goalId view transition (.commit lifecycle acceptance))
    (shows : Shows host head goalId view) (shows' : Shows host next goalId view')
    (hlifecycle : view'.lifecycle = some lifecycle)
    (hnext : next.lookup "goal_acceptance" = acceptance.or (head.lookup "goal_acceptance"))
    (kept : acceptance = none → view'.owner = view.owner ∧ view'.revision = view.revision ∧
      view'.checks = view.checks) : Moves (.transition transition) view view' := by
  cases plan with
  | @bound goalRef _ unbound initial =>
    obtain ⟨howner, hrevision, hchecks⟩ :=
      initial_stored shows shows' unbound initial hnext kept
    rw [AcceptanceView.ext_iff (x := view')
      (y := ⟨some ⟨.active, goalRef⟩, view.givenOwner goalRef, view.revision, view.checks⟩)
      |>.mpr ⟨hlifecycle, howner, hrevision, hchecks⟩]
    exact .bound unbound
  | @recreated retired goalRef _ unbound initial =>
    obtain ⟨howner, hrevision, hchecks⟩ :=
      initial_stored shows shows' unbound initial hnext kept
    rw [AcceptanceView.ext_iff (x := view')
      (y := ⟨some ⟨.active, goalRef⟩, view.givenOwner retired, view.revision, view.checks⟩)
      |>.mpr ⟨hlifecycle, howner, hrevision, hchecks⟩]
    exact .recreated unbound
  | @retired goalRef _ active read =>
    obtain ⟨howner, hrevision, hchecks⟩ := rewritten_stored shows shows' read hnext kept
    rw [AcceptanceView.ext_iff (x := view')
      (y := { view with lifecycle := some ⟨.retiring, goalRef⟩ })
      |>.mpr ⟨hlifecycle, howner, hrevision, hchecks⟩]
    exact .retired active
  | succeeded named retiring read =>
    obtain ⟨howner, hrevision, hchecks⟩ := rewritten_stored shows shows' read hnext kept
    rw [AcceptanceView.ext_iff (x := view')
      (y := { view with lifecycle := some ⟨.active, transition.goalRef⟩ })
      |>.mpr ⟨hlifecycle, howner, hrevision, hchecks⟩]
    exact .succeeded named retiring

/-- An accepted transition is a move of the transition its request names. -/
theorem transition_moves {value : Option Json} {view : AcceptanceView}
    (shows : Shows host loaded.head goalId view)
    (goal : loaded.head.lookup "goal_id" = some (.string goalId))
    (h : transitionGoalAcceptanceLifecycle host loaded value = .ok (some next)) :
    ∃ request view', lifecycleRequest value = .ok request ∧ Shows host next goalId view' ∧
      next.lookup "goal_id" = some (.string goalId) ∧
      Moves (.transition request.transition) view view' := by
  obtain ⟨request, hrequest, h⟩ := bind_eq_ok.mp h
  obtain ⟨_, _, h⟩ := bind_eq_ok.mp h
  obtain ⟨plan, hplan, h⟩ := bind_eq_ok.mp h
  cases plan with
  | failure code => cases Except.ok.inj h
  | noChange lifecycle =>
    obtain ⟨projected, hprojected, h⟩ := bind_eq_ok.mp h
    obtain rfl := Option.some.inj (Except.ok.inj h)
    obtain ⟨sameGoal, goal', view', shows', hlifecycle, _, kept⟩ :=
      planned_shows shows goal (fun _ _ => rfl) hprojected
    rw [sameGoal] at hplan
    obtain ⟨howner, hrevision, hchecks⟩ := kept rfl
    have same := noChange_same (planOf_of_ok shows hplan)
    refine ⟨request, view', hrequest, shows', goal', ?_⟩
    rw [AcceptanceView.ext_iff.mpr ⟨hlifecycle.trans same.symm, howner, hrevision, hchecks⟩]
    exact .unchanged rfl
  | commit lifecycle acceptance =>
    obtain ⟨next', hnext, h⟩ := bind_eq_ok.mp h
    obtain ⟨projected, hprojected, h⟩ := bind_eq_ok.mp h
    obtain rfl := Option.some.inj (Except.ok.inj h)
    obtain ⟨sameGoal, goal', view', shows', hlifecycle, hacceptance, kept⟩ :=
      planned_shows shows goal (fun _ other => lookup_bindOutcomes hnext other) hprojected
    rw [sameGoal] at hplan
    exact ⟨request, view', hrequest, shows', goal',
      commit_moves (planOf_of_ok shows hplan) shows shows' hlifecycle hacceptance kept⟩

private theorem nodup_plannedHead (nodup : (keys head).Nodup)
    (lifecycle : GoalAcceptanceLifecycle) (acceptance : Option Json) :
    (keys (plannedHead head lifecycle acceptance)).Nodup := by
  cases acceptance with
  | none => exact nodup_keys_setKey nodup _ _
  | some value => exact nodup_keys_setKey (nodup_keys_setKey nodup _ _) _ _

theorem nodup_transition {value : Option Json} (nodup : (keys loaded.head).Nodup)
    (h : transitionGoalAcceptanceLifecycle host loaded value = .ok (some next)) :
    (keys next).Nodup := by
  obtain ⟨request, _, h⟩ := bind_eq_ok.mp h
  obtain ⟨_, _, h⟩ := bind_eq_ok.mp h
  obtain ⟨plan, _, h⟩ := bind_eq_ok.mp h
  cases plan with
  | failure code => cases Except.ok.inj h
  | noChange lifecycle =>
    obtain ⟨_, _, h⟩ := bind_eq_ok.mp h
    obtain rfl := Option.some.inj (Except.ok.inj h)
    exact nodup_plannedHead nodup _ _
  | commit lifecycle acceptance =>
    obtain ⟨next', hnext, h⟩ := bind_eq_ok.mp h
    obtain ⟨_, _, h⟩ := bind_eq_ok.mp h
    obtain rfl := Option.some.inj (Except.ok.inj h)
    obtain ⟨current, _, hnext⟩ := bind_eq_ok.mp hnext
    split at hnext
    · obtain ⟨outcomes, _, hnext⟩ := bind_eq_ok.mp hnext
      rw [← Except.ok.inj hnext]
      cases outcomes with
      | none => exact nodup_plannedHead nodup _ _
      | some outcomes => exact nodup_keys_setKey (nodup_plannedHead nodup _ _) _ _
    · rw [← Except.ok.inj hnext]
      exact nodup_plannedHead nodup _ _

end Transitions

end Loopx.Goals.Acceptance
