/- GID: Loopx/Goals/AcceptanceRuns
   generality: I
   source: loopx/control_plane/goals/acceptance_authority.ts
   digest: The acceptance authority over every run of its operations on one Goal. -/

import Loopx.Goals.AcceptanceMoves

set_option autoImplicit false
set_option relaxedAutoImplicit false

namespace Loopx.Goals.Acceptance

open Loopx.Lib.KeyedList
open Loopx.Lib.Fallible (bind_eq_ok throwWhen throwWhen_eq_ok)
open Loopx.Json (JsNumber Protocol canonicalAuthorityJson canonicalEntries)

/-! ## Operations and runs -/

inductive AcceptanceOperation where
  | configure (request : Json)
  | verify (request : Json)
  | lifecycle (request : Json)
deriving DecidableEq

namespace AcceptanceOperation

/-- The next projection an operation hands to the store over the head it observed. -/
def plan (host : AcceptanceHost) (observed : LoadedHead) :
    AcceptanceOperation → Protocol (Option Fields)
  | .configure request => configureGoalAcceptance host observed (some request)
  | .verify request => commitGoalAcceptanceVerification host observed (some request)
  | .lifecycle request => transitionGoalAcceptanceLifecycle host observed (some request)

/-- The instance or the transition that the request itself names. -/
def move : AcceptanceOperation → Protocol Move
  | .configure request => do
    let request ← mutationRequest (some request) false
    .ok (.configured request.goalRef)
  | .verify request => do
    let request ← mutationRequest (some request) true
    .ok (.verified request.goalRef)
  | .lifecycle request => do
    let request ← lifecycleRequest (some request)
    .ok (.transition request.transition)

end AcceptanceOperation

/-- What the store keeps of a projection. -/
def storedHead (next : Fields) : Fields :=
  canonicalEntries (next.map fun f => (f.1, canonicalAuthorityJson f.2))

/-- One commit on the Goal, by an acceptance operation or by another writer. -/
structure Commit where
  before : LoadedHead
  operation : Option AcceptanceOperation
  after : LoadedHead
deriving DecidableEq

/-- Whether the commit belongs to a mutation, and the instance its request names. -/
def Commit.names (commit : Commit) (move : Move) : Prop :=
  match commit.operation with
  | some operation => operation.move = .ok move
  | none => move = .other

/-- The commits of one Goal. An operation plans over any head that was current once; the store
takes its projection only while that head's revision is still the current one, under a revision
it has not given out before. Other writers of the Goal leave the acceptance fields alone. -/
inductive Runs (host : AcceptanceHost) (goalId : String) (first : LoadedHead) :
    List Commit → LoadedHead → Prop where
  | start : Runs host goalId first [] first
  | accepted {commits : List Commit} {current observed : LoadedHead}
      {operation : AcceptanceOperation} {next : Fields} {revision : String}
      (run : Runs host goalId first commits current)
      (seen : observed = first ∨ ∃ commit ∈ commits, observed = commit.after)
      (planned : operation.plan host observed = .ok (some next))
      (swapped : observed.providerRevision = current.providerRevision)
      (fresh : revision ≠ first.providerRevision ∧
        ∀ commit ∈ commits, revision ≠ commit.after.providerRevision) :
      Runs host goalId first
        (commits ++ [⟨current, some operation, ⟨storedHead next, revision⟩⟩])
        ⟨storedHead next, revision⟩
  | other {commits : List Commit} {current : LoadedHead} {next : Fields} {revision : String}
      (run : Runs host goalId first commits current) (object : (keys next).Nodup)
      (goal : AgreeAt "goal_id" next current.head)
      (acceptance : AgreeAt "goal_acceptance" next current.head)
      (lifecycle : AgreeAt "goal_acceptance_lifecycle" next current.head)
      (fresh : revision ≠ first.providerRevision ∧
        ∀ commit ∈ commits, revision ≠ commit.after.providerRevision) :
      Runs host goalId first
        (commits ++ [⟨current, none, ⟨storedHead next, revision⟩⟩])
        ⟨storedHead next, revision⟩

variable {host : AcceptanceHost} {goalId : String} {first current : LoadedHead}
  {commits : List Commit}

/-! ## Every commit is a move -/

theorem Shows.congr {left right : Fields} {view : AcceptanceView}
    (h : Shows host left goalId view) (goal : AgreeAt "goal_id" left right)
    (acceptance : AgreeAt "goal_acceptance" left right)
    (lifecycle : AgreeAt "goal_acceptance_lifecycle" left right) :
    Shows host right goalId view := by
  obtain ⟨authority, active, hread, hlifecycle, stored, hchecks, atomic, hauthority⟩ := h
  refine ⟨authority, active, ?_, ?_, stored.congr acceptance goal, hchecks, ?_, hauthority⟩
  · rw [← readGoalAcceptanceAuthority_congr lifecycle acceptance goal, hread]
  · rw [← readGoalAcceptanceLifecycle_congr lifecycle goal, hlifecycle]
  · intro present
    exact atomic (fun hnone => present (acceptance.isNone.mp hnone))

/-- The store keeps what a projection shows. -/
theorem Shows.stored {next : Fields} {view : AcceptanceView} (h : Shows host next goalId view)
    (object : (keys next).Nodup) : Shows host (storedHead next) goalId view :=
  h.congr (agreeAt_stored object _).symm (agreeAt_stored object _).symm
    (agreeAt_stored object _).symm

theorem nodup_storedHead (next : Fields) : (keys (storedHead next)).Nodup :=
  nodup_keys_of_pairwise (Json.pairwise_canonicalEntries _)

theorem goal_storedHead {next : Fields} (object : (keys next).Nodup)
    (goal : next.lookup "goal_id" = some (.string goalId)) :
    (storedHead next).lookup "goal_id" = some (.string goalId) :=
  (agreeAt_stored object "goal_id").string.mpr goal

/-- A head of the run: an object of this Goal that the reader accepts. -/
structure Readable (host : AcceptanceHost) (goalId : String) (head : Fields) : Prop where
  object : (keys head).Nodup
  goal : head.lookup "goal_id" = some (.string goalId)
  shows : ∃ view, Shows host head goalId view

/-- An accepted operation leads from a readable head to a readable one by the move it names. -/
theorem plan_moves {operation : AcceptanceOperation} {observed : LoadedHead} {next : Fields}
    (readable : Readable host goalId observed.head)
    (planned : operation.plan host observed = .ok (some next)) :
    Readable host goalId (storedHead next) ∧ ∃ move view view',
      operation.move = .ok move ∧ Shows host observed.head goalId view ∧
      Shows host (storedHead next) goalId view' ∧ Moves move view view' := by
  obtain ⟨object, goal, view, shows⟩ := readable
  have settle {move : Move} {view' : AcceptanceView} (hmove : operation.move = .ok move)
      (object' : (keys next).Nodup) (shows' : Shows host next goalId view')
      (goal' : next.lookup "goal_id" = some (.string goalId)) (moves : Moves move view view') :
      Readable host goalId (storedHead next) ∧ ∃ move view view',
        operation.move = .ok move ∧ Shows host observed.head goalId view ∧
        Shows host (storedHead next) goalId view' ∧ Moves move view view' :=
    ⟨⟨nodup_storedHead next, goal_storedHead object' goal', view', shows'.stored object'⟩,
      move, view, view', hmove, shows, shows'.stored object', moves⟩
  cases operation with
  | configure value =>
    obtain ⟨request, view', hrequest, shows', goal', moves⟩ := configure_moves shows goal planned
    exact settle (by rw [AcceptanceOperation.move, hrequest]; rfl)
      (nodup_configure object planned) shows' goal' moves
  | verify value =>
    obtain ⟨request, view', hrequest, shows', goal', moves⟩ := verify_moves shows goal planned
    exact settle (by rw [AcceptanceOperation.move, hrequest]; rfl)
      (nodup_verify object planned) shows' goal' moves
  | lifecycle value =>
    obtain ⟨request, view', hrequest, shows', goal', moves⟩ := transition_moves shows goal planned
    exact settle (by rw [AcceptanceOperation.move, hrequest]; rfl)
      (nodup_transition object planned) shows' goal' moves

/-- What a commit of a run is: its move between the views of its two heads. -/
def Commit.Steps (host : AcceptanceHost) (goalId : String) (commit : Commit) : Prop :=
  ∃ move view view', commit.names move ∧ Shows host commit.before.head goalId view ∧
    Shows host commit.after.head goalId view' ∧ Moves move view view'

/-- Revisions are given out once, so a swapped head is the current one. -/
structure RunInvariant (host : AcceptanceHost) (goalId : String) (first : LoadedHead)
    (commits : List Commit) (current : LoadedHead) : Prop where
  readable : ∀ head, head = first ∨ (∃ commit ∈ commits, head = commit.after) →
    Readable host goalId head.head
  steps : ∀ commit ∈ commits, commit.Steps host goalId
  seen : current = first ∨ ∃ commit ∈ commits, current = commit.after
  distinct : ∀ left right, (left = first ∨ ∃ commit ∈ commits, left = commit.after) →
    (right = first ∨ ∃ commit ∈ commits, right = commit.after) →
    left.providerRevision = right.providerRevision → left = right
  linked : commits.IsChain fun left right => right.before = left.after
  last : ∀ commit ∈ commits.getLast?, commit.after = current

/-- One commit of a run, whoever makes it, keeps the invariant. -/
private theorem runInvariant_snoc {operation : Option AcceptanceOperation} {next : LoadedHead}
    (h : RunInvariant host goalId first commits current)
    (readable : Readable host goalId next.head)
    (steps : Commit.Steps host goalId ⟨current, operation, next⟩)
    (fresh : next.providerRevision ≠ first.providerRevision ∧
      ∀ commit ∈ commits, next.providerRevision ≠ commit.after.providerRevision) :
    RunInvariant host goalId first (commits ++ [⟨current, operation, next⟩]) next := by
  have split (head : LoadedHead) (seen : head = first ∨
      ∃ commit ∈ commits ++ [⟨current, operation, next⟩], head = commit.after) :
      head = next ∨ head = first ∨ ∃ commit ∈ commits, head = commit.after := by
    rcases seen with hfirst | ⟨commit, hcommit, hhead⟩
    · exact Or.inr (Or.inl hfirst)
    · rcases List.mem_append.mp hcommit with hcommit | hcommit
      · exact Or.inr (Or.inr ⟨commit, hcommit, hhead⟩)
      · rw [List.mem_singleton.mp hcommit] at hhead
        exact Or.inl hhead
  have apart (head : LoadedHead) (seen : head = first ∨ ∃ commit ∈ commits, head = commit.after) :
      next.providerRevision ≠ head.providerRevision := by
    rcases seen with rfl | ⟨commit, hcommit, rfl⟩
    · exact fresh.1
    · exact fresh.2 commit hcommit
  constructor
  · intro head seen
    rcases split head seen with rfl | seen
    · exact readable
    · exact h.readable head seen
  · intro commit hcommit
    rcases List.mem_append.mp hcommit with hcommit | hcommit
    · exact h.steps commit hcommit
    · rw [List.mem_singleton.mp hcommit]
      exact steps
  · exact Or.inr ⟨_, List.mem_append_right _ (List.mem_singleton.mpr rfl), rfl⟩
  · intro left right hleft hright same
    rcases split left hleft with hl | hl <;> rcases split right hright with hr | hr
    · exact hl.trans hr.symm
    · exact absurd (hl ▸ same) (apart right hr)
    · exact absurd (hr ▸ same.symm) (apart left hl)
    · exact h.distinct left right hl hr same
  · refine List.isChain_append.mpr ⟨h.linked, List.isChain_singleton _, ?_⟩
    intro left hleft right hright
    obtain rfl : ⟨current, operation, next⟩ = right := by simpa using hright
    exact (h.last left hleft).symm
  · intro commit hcommit
    obtain rfl : ⟨current, operation, next⟩ = commit := by simpa using hcommit
    rfl

theorem runInvariant_of_runs (readable : Readable host goalId first.head)
    (run : Runs host goalId first commits current) :
    RunInvariant host goalId first commits current := by
  induction run with
  | start =>
    constructor
    · rintro head (rfl | ⟨commit, hcommit, _⟩)
      · exact readable
      · cases hcommit
    · simp
    · exact Or.inl rfl
    · rintro left right (rfl | ⟨_, hcommit, _⟩) (rfl | ⟨_, hcommit', _⟩) _
      · rfl
      · cases hcommit'
      · cases hcommit
      · cases hcommit
    · exact List.isChain_nil
    · simp
  | @accepted commits current observed operation next revision _ seen planned swapped fresh ih =>
    obtain rfl := ih.distinct observed current seen ih.seen swapped
    obtain ⟨readable', move, view, view', named, shows, shows', moves⟩ :=
      plan_moves (ih.readable _ seen) planned
    exact runInvariant_snoc ih readable' ⟨move, view, view', named, shows, shows', moves⟩ fresh
  | @other commits current next revision _ object goal acceptance lifecycle fresh ih =>
    obtain ⟨_, hgoal, view, shows⟩ := ih.readable current ih.seen
    have shows' := (shows.congr goal.symm acceptance.symm lifecycle.symm).stored object
    refine runInvariant_snoc ih ⟨nodup_storedHead next,
      goal_storedHead object (goal.string.mpr hgoal), view, shows'⟩ ?_ fresh
    exact ⟨.other, view, view, rfl, shows, shows', .unchanged rfl⟩

/-! ## What a move keeps -/

variable {move : Move} {view view' : AcceptanceView}

theorem AcceptanceView.bound_firstBound {goalRef : Option WireExactGoalRef}
    (admits : view.Admits goalRef) : (view.firstBound goalRef).map (·.goalRef) = goalRef := by
  unfold AcceptanceView.firstBound
  split
  · rename_i lifecycle hl
    rw [Option.map_some, (admits lifecycle hl).2]
  · cases goalRef <;> rfl

/-- Whatever a mutation writes belongs to the instance that it leaves bound. -/
theorem ownerMatches_of_mutation {goalRef : Option WireExactGoalRef} {revision : Nat}
    {checks : Option ChecksView} (admits : view.Admits goalRef) :
    AcceptanceView.ownerMatches ⟨view.firstBound goalRef, goalRef, revision, checks⟩ = true := by
  have bound := AcceptanceView.bound_firstBound admits
  unfold AcceptanceView.ownerMatches
  cases hl : view.firstBound goalRef with
  | none => rfl
  | some lifecycle =>
    rw [hl, Option.map_some] at bound
    simp [← bound]

/-- The bound instance stays, or a retiring one makes way for the successor named with it. -/
theorem Moves.bound_moves (moves : Moves move view view') {before : GoalAcceptanceLifecycle}
    (bound : view.lifecycle = some before) :
    view'.bound = some before.goalRef ∨ ∃ transition, move = .transition transition ∧
      transition.retiredGoalRef? = some before.goalRef ∧ before.state = .retiring ∧
      view'.bound = some transition.goalRef := by
  cases moves with
  | configured admits _ => simp [AcceptanceView.bound, AcceptanceView.firstBound, bound]
  | verified admits _ => simp [AcceptanceView.bound, AcceptanceView.firstBound, bound]
  | bound unbound => simp [bound] at unbound
  | recreated unbound => simp [bound] at unbound
  | retired active =>
    rw [bound, Option.some.injEq] at active
    simp [AcceptanceView.bound, active]
  | succeeded named retiring =>
    rw [bound, Option.some.injEq] at retiring
    subst retiring
    exact Or.inr ⟨_, rfl, named, rfl, rfl⟩
  | unchanged => simp [AcceptanceView.bound, bound]

def Move.configures : Move → Bool
  | .configured _ => true
  | _ => false

/-- While the binding stays, a configure call adds one to the revision and nothing else does. -/
theorem Moves.revision_moves (moves : Moves move view view') (kept : view'.bound = view.bound) :
    view'.configurationRevision =
      view.configurationRevision + (if move.configures then 1 else 0) := by
  cases moves with
  | configured admits _ =>
    rw [AcceptanceView.configurationRevision, if_pos (ownerMatches_of_mutation admits)]
    rfl
  | verified admits _ =>
    rw [AcceptanceView.configurationRevision, if_pos (ownerMatches_of_mutation admits)]
    rfl
  | bound unbound => simp [AcceptanceView.bound, unbound] at kept
  | recreated unbound => simp [AcceptanceView.bound, unbound] at kept
  | retired active =>
    simp [AcceptanceView.configurationRevision, AcceptanceView.ownerMatches, active,
      Move.configures]
  | succeeded named retiring =>
    simp only [AcceptanceView.bound, retiring, Option.map_some, Option.some.injEq] at kept
    simp [AcceptanceView.configurationRevision, AcceptanceView.ownerMatches, retiring,
      Move.configures, kept]
  | unchanged quiet =>
    cases move <;> simp_all [Move.configures, Move.isMutation]

/-- Binding a head for the first time keeps the revision of the checks it had. -/
theorem Moves.revision_bound {goalRef : WireExactGoalRef}
    (moves : Moves (.transition (.bindExisting goalRef)) view view')
    (unbound : view.lifecycle = none) :
    view'.configurationRevision = view.configurationRevision := by
  cases moves with
  | bound _ =>
    simp only [AcceptanceView.configurationRevision, AcceptanceView.ownerMatches, unbound,
      AcceptanceView.givenOwner, if_true]
    by_cases unstored : view.revision = 0
    · simp [unstored]
    · simp [unstored]
  | succeeded named _ => cases named
  | unchanged => rfl

/-- No mutation commits for another instance, nor while the bound one is retiring. -/
theorem Moves.admits {goalRef : Option WireExactGoalRef}
    (moves : Moves move view view')
    (mutation : move = .configured goalRef ∨ move = .verified goalRef) : view.Admits goalRef := by
  rcases mutation with rfl | rfl
  · cases moves with
    | configured admits _ => exact admits
    | unchanged quiet => cases quiet
  · cases moves with
    | verified admits _ => exact admits
    | unchanged quiet => cases quiet

/-- Usable checks are nobody's, or the instance's that a mutation is admitted for. -/
private theorem usable_owned {goalRef : Option WireExactGoalRef} {usable : ChecksView}
    (atomic : view.checks ≠ none → view.owner.isSome = view.lifecycle.isSome)
    (admits : view.Admits goalRef) (checked : view.usable = some usable) :
    view.checks = some usable ∧ (view.owner = none ∨ view.owner = goalRef) := by
  unfold AcceptanceView.usable at checked
  split at checked
  · rename_i matched
    refine ⟨checked, ?_⟩
    have owned := atomic (by simp [checked])
    unfold AcceptanceView.ownerMatches at matched
    cases hl : view.lifecycle with
    | none =>
      rw [hl] at owned
      exact Or.inl (Option.isNone_iff_eq_none.mp (by simpa using owned))
    | some lifecycle =>
      rw [hl] at matched
      right
      rw [of_decide_eq_true matched, ← (admits lifecycle hl).2]
  · cases checked

/-- What a view holds for `owner`: checks that are its own or nobody's. -/
def AcceptanceView.HeldFor (view : AcceptanceView) (owner : WireExactGoalRef)
    (checks : ChecksView) : Prop :=
  view.checks = some checks ∧ (view.owner = none ∨ view.owner = some owner)

private theorem heldFor_of_unbound {owner : WireExactGoalRef} {checks : ChecksView}
    (atomic : view.checks ≠ none → view.owner.isSome = view.lifecycle.isSome)
    (unbound : view.lifecycle = none) (checked : view.checks = some checks) :
    view.HeldFor owner checks := by
  have unowned := atomic (by simp [checked])
  rw [unbound] at unowned
  exact ⟨checked, Or.inl (Option.isNone_iff_eq_none.mp (by simpa using unowned))⟩

/-- The checks of an owner come from a configure call in its name, or it, or nobody, held them. -/
theorem Moves.checks_inherited (moves : Moves move view view')
    (atomic : view.checks ≠ none → view.owner.isSome = view.lifecycle.isSome)
    {owner : WireExactGoalRef} {checks : ChecksView} (owned : view'.owner = some owner)
    (checked : view'.checks = some checks) :
    move = .configured (some owner) ∨
      ∃ before, view.HeldFor owner before ∧ before.digest = checks.digest := by
  cases moves with
  | @configured _ goalRef _ admits _ =>
    obtain rfl : goalRef = some owner := owned
    exact Or.inl rfl
  | @verified _ goalRef usable receipt admits hchecked =>
    obtain rfl : goalRef = some owner := owned
    obtain rfl := Option.some.inj checked
    exact Or.inr ⟨usable, usable_owned atomic admits hchecked, rfl⟩
  | bound unbound => exact Or.inr ⟨checks, heldFor_of_unbound atomic unbound checked, rfl⟩
  | recreated unbound => exact Or.inr ⟨checks, heldFor_of_unbound atomic unbound checked, rfl⟩
  | retired _ => exact Or.inr ⟨checks, ⟨checked, Or.inr owned⟩, rfl⟩
  | succeeded _ _ => exact Or.inr ⟨checks, ⟨checked, Or.inr owned⟩, rfl⟩
  | unchanged _ => exact Or.inr ⟨checks, ⟨checked, Or.inr owned⟩, rfl⟩

/-- A verification of an owner comes from a verify call in its name, or it, or nobody, held it. -/
theorem Moves.verification_inherited (moves : Moves move view view')
    (atomic : view.checks ≠ none → view.owner.isSome = view.lifecycle.isSome)
    {owner : WireExactGoalRef} {checks : ChecksView} {receipt : VerificationView}
    (owned : view'.owner = some owner) (checked : view'.checks = some checks)
    (verified : checks.verification = some receipt) :
    move = .verified (some owner) ∨
      ∃ before, view.HeldFor owner before ∧ before.verification = some receipt := by
  cases moves with
  | @configured _ goalRef _ admits kept =>
    obtain rfl : goalRef = some owner := owned
    obtain ⟨usable, husable, hkept⟩ := kept checks receipt checked verified
    exact Or.inr ⟨usable, usable_owned atomic admits husable, hkept⟩
  | @verified _ goalRef usable receipt' admits hchecked =>
    obtain rfl : goalRef = some owner := owned
    exact Or.inl rfl
  | bound unbound =>
    exact Or.inr ⟨checks, heldFor_of_unbound atomic unbound checked, verified⟩
  | recreated unbound =>
    exact Or.inr ⟨checks, heldFor_of_unbound atomic unbound checked, verified⟩
  | retired _ => exact Or.inr ⟨checks, ⟨checked, Or.inr owned⟩, verified⟩
  | succeeded _ _ => exact Or.inr ⟨checks, ⟨checked, Or.inr owned⟩, verified⟩
  | unchanged _ => exact Or.inr ⟨checks, ⟨checked, Or.inr owned⟩, verified⟩

/-! ## The laws of a run -/

/-- The instance that a head is bound to, as its lifecycle record says. -/
def boundInstance (head : Fields) (goalId : String) : Protocol (Option WireExactGoalRef) := do
  let lifecycle ← readGoalAcceptanceLifecycle head goalId
  .ok (lifecycle.map (·.goalRef))

/-- The revision that the next configure call of the bound instance counts from. -/
def contractRevision (host : AcceptanceHost) (head : Fields) (goalId : String) : Protocol Nat := do
  let authority ← readGoalAcceptanceAuthority host head goalId
  .ok authority.configurationRevision

/-- The stored checks of a head, whoever owns them. -/
def storedChecks (host : AcceptanceHost) (head : Fields) (goalId : String) :
    Protocol (Option AcceptanceState) := do
  let authority ← readGoalAcceptanceAuthority host head goalId
  .ok authority.state

def Commit.configures (commit : Commit) : Bool :=
  match commit.operation with
  | some (.configure _) => true
  | _ => false

/-- The checks `state` of `owner` were there before the commit, as its own or as nobody's. -/
def HeldBefore (host : AcceptanceHost) (goalId : String) (commit : Commit)
    (owner : WireExactGoalRef) (same : AcceptanceState → Prop) : Prop :=
  ∃ before, storedChecks host commit.before.head goalId = .ok (some before) ∧
    (before.ownerGoalRef = none ∨ before.ownerGoalRef = some owner) ∧ same before

structure RunLaws (host : AcceptanceHost) (goalId : String) (commits : List Commit) : Prop where
  /-- Every resulting head is accepted by the reader. -/
  accepted : ∀ commit ∈ commits, ∃ authority,
    readGoalAcceptanceAuthority host commit.after.head goalId = .ok authority
  /-- While one instance stays bound, the revision grows by one at each configure call and stays
  the same at every other commit. -/
  counted : ∀ before segment after bound, commits = before ++ segment ++ after →
    (∀ commit ∈ segment, boundInstance commit.before.head goalId = .ok bound ∧
      boundInstance commit.after.head goalId = .ok bound) →
    ∀ start ∈ segment.head?, ∀ stop ∈ segment.getLast?, ∃ revision,
      contractRevision host start.before.head goalId = .ok revision ∧
      contractRevision host stop.after.head goalId =
        .ok (revision + segment.countP Commit.configures)
  /-- Binding an unbound head keeps the revision of the checks it had. -/
  bound_kept : ∀ commit ∈ commits, ∀ goalRef,
    commit.names (.transition (.bindExisting goalRef)) →
    readGoalAcceptanceLifecycle commit.before.head goalId = .ok none → ∃ revision,
      contractRevision host commit.before.head goalId = .ok revision ∧
      contractRevision host commit.after.head goalId = .ok revision
  /-- Only the bound instance's own checks are returned. -/
  separate : ∀ commit ∈ commits, ∀ bound state,
    boundInstance commit.after.head goalId = .ok (some bound) →
    readGoalAcceptance host commit.after.head goalId = .ok (some state) →
    state.ownerGoalRef = some bound
  /-- No commit hands checks from one instance to another. -/
  checks_inherited : ∀ commit ∈ commits, ∀ state owner,
    storedChecks host commit.after.head goalId = .ok (some state) →
    state.ownerGoalRef = some owner → commit.names (.configured (some owner)) ∨
      HeldBefore host goalId commit owner fun before => before.digest = state.digest
  /-- No commit hands a verification from one instance to another. -/
  verification_inherited : ∀ commit ∈ commits, ∀ state owner receipt,
    storedChecks host commit.after.head goalId = .ok (some state) →
    state.ownerGoalRef = some owner → state.verification = some receipt →
    commit.names (.verified (some owner)) ∨ HeldBefore host goalId commit owner fun before =>
      before.verification.map AcceptanceVerification.view = some receipt.view
  /-- A configure or verify call commits for the bound instance alone, and while it is active. -/
  fenced : ∀ commit ∈ commits, ∀ goalRef lifecycle,
    commit.names (.configured goalRef) ∨ commit.names (.verified goalRef) →
    readGoalAcceptanceLifecycle commit.before.head goalId = .ok (some lifecycle) →
    lifecycle.state = .active ∧ goalRef = some lifecycle.goalRef
  /-- The bound instance stays, or it is retiring and its named successor takes over. -/
  moved : ∀ commit ∈ commits, ∀ lifecycle,
    readGoalAcceptanceLifecycle commit.before.head goalId = .ok (some lifecycle) →
    boundInstance commit.after.head goalId = .ok (some lifecycle.goalRef) ∨
      ∃ transition, commit.names (.transition transition) ∧
        transition.retiredGoalRef? = some lifecycle.goalRef ∧ lifecycle.state = .retiring ∧
        boundInstance commit.after.head goalId = .ok (some transition.goalRef)

theorem Shows.boundInstance (h : Shows host first.head goalId view) :
    boundInstance first.head goalId = .ok view.bound := by
  obtain ⟨_, _, _, hlifecycle, _⟩ := h
  rw [Acceptance.boundInstance, hlifecycle]
  rfl

theorem Shows.contractRevision (h : Shows host first.head goalId view) :
    contractRevision host first.head goalId = .ok view.configurationRevision := by
  obtain ⟨authority, _, hread, _⟩ := (show Shows host first.head goalId view from h)
  rw [Acceptance.contractRevision, hread, Lib.Fallible.ok_bind, h.configurationRevision hread]

theorem names_unique {commit : Commit} {move move' : Move} (h : commit.names move)
    (h' : commit.names move') : move = move' := by
  unfold Commit.names at h h'
  cases hop : commit.operation with
  | none =>
    rw [hop] at h h'
    exact h.trans h'.symm
  | some operation =>
    rw [hop] at h h'
    exact Except.ok.inj (h.symm.trans h')

private theorem configures_of_names {commit : Commit} {move : Move} (h : commit.names move) :
    move.configures = commit.configures := by
  unfold Commit.names at h
  unfold Commit.configures
  cases hop : commit.operation with
  | none =>
    rw [hop] at h
    subst h
    rfl
  | some operation =>
    rw [hop] at h
    cases operation with
    | configure value =>
      obtain ⟨request, _, h⟩ := bind_eq_ok.mp h
      rw [← Except.ok.inj h]
      rfl
    | verify value =>
      obtain ⟨request, _, h⟩ := bind_eq_ok.mp h
      rw [← Except.ok.inj h]
      rfl
    | lifecycle value =>
      obtain ⟨request, _, h⟩ := bind_eq_ok.mp h
      rw [← Except.ok.inj h]
      rfl

/-- One commit under a binding that stays. -/
private theorem Commit.Steps.revision {commit : Commit} (h : commit.Steps host goalId)
    {bound : Option WireExactGoalRef}
    (before : Acceptance.boundInstance commit.before.head goalId = .ok bound)
    (after : Acceptance.boundInstance commit.after.head goalId = .ok bound) : ∃ revision,
      Acceptance.contractRevision host commit.before.head goalId = .ok revision ∧
      Acceptance.contractRevision host commit.after.head goalId =
        .ok (revision + (if commit.configures then 1 else 0)) := by
  obtain ⟨move, view, view', named, shows, shows', moves⟩ := h
  have kept : view'.bound = view.bound :=
    (Except.ok.inj (shows'.boundInstance.symm.trans after)).trans
      (Except.ok.inj (shows.boundInstance.symm.trans before)).symm
  refine ⟨view.configurationRevision, shows.contractRevision, ?_⟩
  rw [shows'.contractRevision, moves.revision_moves kept, configures_of_names named]

/-- A linked segment under one binding counts its configure calls. -/
private theorem counted_segment {bound : Option WireExactGoalRef} (segment : List Commit)
    (steps : ∀ commit ∈ segment, commit.Steps host goalId)
    (linked : segment.IsChain fun left right => right.before = left.after)
    (kept : ∀ commit ∈ segment, Acceptance.boundInstance commit.before.head goalId = .ok bound ∧
      Acceptance.boundInstance commit.after.head goalId = .ok bound) :
    ∀ start ∈ segment.head?, ∀ stop ∈ segment.getLast?, ∃ revision,
      Acceptance.contractRevision host start.before.head goalId = .ok revision ∧
      Acceptance.contractRevision host stop.after.head goalId =
        .ok (revision + segment.countP Commit.configures) := by
  induction segment with
  | nil => simp
  | cons commit rest ih =>
    intro start hstart stop hstop
    obtain rfl : commit = start := by simpa using hstart
    obtain ⟨revision, hbefore, hafter⟩ := (steps commit (by simp)).revision
      (kept commit (by simp)).1 (kept commit (by simp)).2
    refine ⟨revision, hbefore, ?_⟩
    cases rest with
    | nil =>
      obtain rfl : commit = stop := by simpa using hstop
      rw [hafter]
      simp [List.countP_cons]
    | cons second rest =>
      obtain ⟨link, linked⟩ := List.isChain_cons_cons.mp linked
      obtain ⟨revision', hbefore', hafter'⟩ := ih
        (fun c hc => steps c (List.mem_cons_of_mem _ hc)) linked
        (fun c hc => kept c (List.mem_cons_of_mem _ hc)) second (by simp) stop
        (by simpa using hstop)
      rw [link, hafter] at hbefore'
      obtain rfl := Except.ok.inj hbefore'
      rw [hafter', List.countP_cons (a := commit)]
      congr 1
      omega

private theorem checks_of_stored {state : AcceptanceState}
    (h : Shows host first.head goalId view)
    (stored : storedChecks host first.head goalId = .ok (some state)) :
    view.checks = some state.view ∧ view.owner = state.ownerGoalRef := by
  obtain ⟨authority, active, hread, _, storedAs, hchecks, _, hauthority⟩ := h
  obtain ⟨authority', hread', hstate⟩ := bind_eq_ok.mp stored
  obtain rfl := Except.ok.inj (hread.symm.trans hread')
  have same : active = some state := by
    have hstate := Except.ok.inj hstate
    rw [hauthority] at hstate
    unfold authorityOf at hstate
    split at hstate <;> exact hstate
  subst same
  exact ⟨hchecks, (storedAs.owned rfl).1.symm⟩

private theorem exists_storedChecks {checks : ChecksView}
    (h : Shows host first.head goalId view) (checked : view.checks = some checks) :
    ∃ state, storedChecks host first.head goalId = .ok (some state) ∧ state.view = checks ∧
      state.ownerGoalRef = view.owner := by
  obtain ⟨authority, active, hread, _, storedAs, hchecks, _, hauthority⟩ := h
  rw [checked] at hchecks
  obtain ⟨state, rfl, hstate⟩ := Option.map_eq_some_iff.mp hchecks.symm
  refine ⟨state, ?_, hstate, (storedAs.owned rfl).1⟩
  rw [storedChecks, hread, hauthority, Lib.Fallible.ok_bind]
  unfold authorityOf
  split <;> rfl

theorem usable_of_read {state : AcceptanceState} (h : Shows host first.head goalId view)
    (read : readGoalAcceptance host first.head goalId = .ok (some state)) :
    view.ownerMatches = true ∧ state.ownerGoalRef = view.owner := by
  obtain ⟨usable, owned⟩ := h.read read
  refine ⟨?_, (owned state rfl).1⟩
  by_contra unmatched
  simp [AcceptanceView.usable, unmatched] at usable

/-- The commit of an operation over the current head, where it is accepted. -/
def acceptedCommit (host : AcceptanceHost) (current : LoadedHead)
    (operation : AcceptanceOperation) (revision : String) : Option Commit :=
  match operation.plan host current with
  | .ok (some next) => some ⟨current, some operation, ⟨storedHead next, revision⟩⟩
  | _ => none

/-- The commits of operations that each observe the head before them. -/
def replay (host : AcceptanceHost) :
    LoadedHead → List (AcceptanceOperation × String) → Option (List Commit)
  | _, [] => some []
  | current, (operation, revision) :: rest => do
    let commit ← acceptedCommit host current operation revision
    let commits ← replay host commit.after rest
    some (commit :: commits)

theorem acceptedCommit_eq_some {operation : AcceptanceOperation} {revision : String}
    {commit : Commit} (h : acceptedCommit host current operation revision = some commit) :
    ∃ next, operation.plan host current = .ok (some next) ∧
      commit = ⟨current, some operation, ⟨storedHead next, revision⟩⟩ := by
  unfold acceptedCommit at h
  split at h
  · rename_i next hnext
    exact ⟨next, hnext, (Option.some.inj h).symm⟩
  · cases h

private theorem runs_append {operations : List (AcceptanceOperation × String)}
    {done commits : List Commit} (run : Runs host goalId first done current)
    (seen : current = first ∨ ∃ commit ∈ done, current = commit.after)
    (distinct : (first.providerRevision :: done.map (·.after.providerRevision) ++
      operations.map Prod.snd).Nodup)
    (h : replay host current operations = some commits) :
    ∃ last, Runs host goalId first (done ++ commits) last := by
  induction operations generalizing current done commits with
  | nil =>
    obtain rfl := Option.some.inj h
    exact ⟨current, by simpa using run⟩
  | cons row operations ih =>
    obtain ⟨operation, revision⟩ := row
    obtain ⟨commit, hcommit, h⟩ := Option.bind_eq_some_iff.mp h
    obtain ⟨rest, hrest, h⟩ := Option.bind_eq_some_iff.mp h
    obtain rfl := Option.some.inj h
    obtain ⟨next, planned, rfl⟩ := acceptedCommit_eq_some hcommit
    have fresh : revision ≠ first.providerRevision ∧
        ∀ commit ∈ done, revision ≠ commit.after.providerRevision := by
      have apart := (List.nodup_append.mp distinct).2.2
      constructor
      · exact fun same => apart first.providerRevision (by simp) revision (by simp) same.symm
      · intro commit hcommit same
        exact apart commit.after.providerRevision
          (by simpa using Or.inr ⟨commit, hcommit, rfl⟩) revision (by simp) same.symm
    have step := run.accepted seen planned rfl fresh
    obtain ⟨last, hlast⟩ := ih step
      (Or.inr ⟨_, List.mem_append_right _ (List.mem_singleton.mpr rfl), rfl⟩)
      (by simpa [List.append_assoc] using distinct) hrest
    exact ⟨last, by simpa [List.append_assoc] using hlast⟩

/-- Operations that each see the head before them make a run. -/
theorem runs_of_replay {operations : List (AcceptanceOperation × String)}
    {commits : List Commit}
    (distinct : (first.providerRevision :: operations.map Prod.snd).Nodup)
    (h : replay host first operations = some commits) :
    ∃ last, Runs host goalId first commits last := by
  have origin : Runs host goalId first [] first := .start
  obtain ⟨last, run⟩ := runs_append origin (Or.inl rfl) (by simpa using distinct) h
  exact ⟨last, by simpa using run⟩

/-! ## An instance that is bound a second time -/

/-- The modules around a Goal without Todos, outcomes, oracles or an objective. -/
def plainHost : AcceptanceHost where
  sha := Authority.Sha256.node
  normalizeAcceptanceOracle := fun _ _ => .error "acceptance oracle must be an object"
  normalizeOracleEvidence := fun _ => .error "oracle execution evidence must be an object"
  validateOracleResults := fun _ _ => .ok ()
  acceptanceTodos := fun _ _ => .ok []
  goalAcceptanceTodoDigest := fun todo =>
    Authority.canonicalAuthoritySha256 Authority.Sha256.node (.object todo)
  acceptanceBindingMatches := fun todo digest => decide
    (Authority.canonicalAuthoritySha256 Authority.Sha256.node (.object todo) = digest)
  goalAcceptanceWorkDigest := fun _ _ _ =>
    .ok (Authority.canonicalAuthoritySha256 Authority.Sha256.node (.array []))
  goalOutcomeCheckBasis := fun _ _ _ => .error "goal outcome is unknown"
  bindGoalOutcomesStateOwner := fun _ _ _ => .ok none
  projectContract := fun _ _ => .ok (.object [])

def plainHead : LoadedHead := ⟨[("goal_id", .string "goal")], "revision-0"⟩

def instanceA : WireExactGoalRef := ⟨"goal", "ginst_aaaaaaaaaaaaaaaaaaaaaaaaaaaaaaaa"⟩

def instanceB : WireExactGoalRef := ⟨"goal", "ginst_bbbbbbbbbbbbbbbbbbbbbbbbbbbbbbbb"⟩

/-- A configure call that removes the checks of an instance. -/
def removeChecks (operationId expected : String) (goalRef : WireExactGoalRef) :
    AcceptanceOperation :=
  .configure (.object [("goal_id", .string "goal"), ("operation_id", .string operationId),
    ("actor_agent_id", .null), ("expected_provider_revision", .string expected),
    ("document", .null), ("goal_ref", goalRef.toJson)])

def changeLifecycle (operationId : String) (transition : Fields) : AcceptanceOperation :=
  .lifecycle (.object [("goal_id", .string "goal"), ("operation_id", .string operationId),
    ("actor_agent_id", .null), ("transition", .object transition)])

def retireInstance (operationId : String) (goalRef : WireExactGoalRef) : AcceptanceOperation :=
  changeLifecycle operationId [("kind", .string "retire"), ("goal_ref", goalRef.toJson)]

def activateSuccessor (operationId : String) (retired goalRef : WireExactGoalRef) :
    AcceptanceOperation :=
  changeLifecycle operationId [("kind", .string "activate_successor"),
    ("retired_goal_ref", retired.toJson), ("goal_ref", goalRef.toJson)]

/-- The instance `A` makes way for `B`, and `B` for `A` again. -/
def roundTrip : List (AcceptanceOperation × String) :=
  [(removeChecks "op-1" "revision-0" instanceA, "revision-1"),
    (retireInstance "op-2" instanceA, "revision-2"),
    (activateSuccessor "op-3" instanceA instanceB, "revision-3"),
    (removeChecks "op-4" "revision-3" instanceB, "revision-4"),
    (retireInstance "op-5" instanceB, "revision-5"),
    (activateSuccessor "op-6" instanceB instanceA, "revision-6"),
    (removeChecks "op-7" "revision-6" instanceA, "revision-7")]

/-- The head with a first contract of one instance while the same or another one lives. -/
private def contractHead (owner living : WireExactGoalRef) (state revision : String) : LoadedHead :=
  ⟨[("goal_acceptance", .object [("bindings", .array []), ("digest", .null), ("document", .null),
      ("owner_goal_ref", owner.toJson), ("revision", .number (JsNumber.ofNat 1)),
      ("schema_version", .string "loopx_goal_acceptance_v2"), ("verification", .null)]),
    ("goal_acceptance_lifecycle", .object [("goal_ref", living.toJson),
      ("schema_version", .string "loopx_goal_acceptance_lifecycle_v0"),
      ("state", .string state)]),
    ("goal_id", .string "goal")], revision⟩

private theorem replay_cons_of_after {operation : AcceptanceOperation} {revision : String}
    {after : LoadedHead} {rest : List (AcceptanceOperation × String)}
    (h : (acceptedCommit host current operation revision).map Commit.after = some after) :
    replay host current ((operation, revision) :: rest) =
      (replay host after rest).map (⟨current, some operation, after⟩ :: ·) := by
  obtain ⟨commit, hcommit, hafter⟩ := Option.map_eq_some_iff.mp h
  obtain ⟨next, _, rfl⟩ := acceptedCommit_eq_some hcommit
  rw [replay, hcommit, ← hafter]
  simp only [Option.bind_eq_bind, Option.bind_some]
  cases replay host _ rest <;> rfl

/-- Every operation of the round trip is accepted on the head the one before it leaves. -/
private structure RoundTrip : Prop where
  configured :
    (acceptedCommit plainHost plainHead (removeChecks "op-1" "revision-0" instanceA)
        "revision-1").map Commit.after =
      some (contractHead instanceA instanceA "active" "revision-1")
  retired :
    (acceptedCommit plainHost (contractHead instanceA instanceA "active" "revision-1")
        (retireInstance "op-2" instanceA) "revision-2").map Commit.after =
      some (contractHead instanceA instanceA "retiring" "revision-2")
  succeeded :
    (acceptedCommit plainHost (contractHead instanceA instanceA "retiring" "revision-2")
        (activateSuccessor "op-3" instanceA instanceB) "revision-3").map Commit.after =
      some (contractHead instanceA instanceB "active" "revision-3")
  rebound :
    (acceptedCommit plainHost (contractHead instanceA instanceB "active" "revision-3")
        (removeChecks "op-4" "revision-3" instanceB) "revision-4").map Commit.after =
      some (contractHead instanceB instanceB "active" "revision-4")
  retiredAgain :
    (acceptedCommit plainHost (contractHead instanceB instanceB "active" "revision-4")
        (retireInstance "op-5" instanceB) "revision-5").map Commit.after =
      some (contractHead instanceB instanceB "retiring" "revision-5")
  returned :
    (acceptedCommit plainHost (contractHead instanceB instanceB "retiring" "revision-5")
        (activateSuccessor "op-6" instanceB instanceA) "revision-6").map Commit.after =
      some (contractHead instanceB instanceA "active" "revision-6")
  restarted :
    (acceptedCommit plainHost (contractHead instanceB instanceA "active" "revision-6")
        (removeChecks "op-7" "revision-6" instanceA) "revision-7").map Commit.after =
      some (contractHead instanceA instanceA "active" "revision-7")

private theorem roundTrip_accepted : RoundTrip :=
  ⟨by decide +kernel, by decide +kernel, by decide +kernel, by decide +kernel, by decide +kernel,
    by decide +kernel, by decide +kernel⟩

/-- The first half of the round trip and what follows it. -/
private theorem replay_roundTrip (rest : List (AcceptanceOperation × String)) :
    ∃ c2 c3 c4, replay plainHost plainHead (roundTrip.take 4 ++ rest) =
      (replay plainHost (contractHead instanceB instanceB "active" "revision-4") rest).map
        fun commits => ⟨plainHead, some (removeChecks "op-1" "revision-0" instanceA),
          contractHead instanceA instanceA "active" "revision-1"⟩ :: c2 :: c3 :: c4 ::
            commits := by
  refine ⟨⟨contractHead instanceA instanceA "active" "revision-1",
      some (retireInstance "op-2" instanceA),
      contractHead instanceA instanceA "retiring" "revision-2"⟩,
    ⟨contractHead instanceA instanceA "retiring" "revision-2",
      some (activateSuccessor "op-3" instanceA instanceB),
      contractHead instanceA instanceB "active" "revision-3"⟩,
    ⟨contractHead instanceA instanceB "active" "revision-3",
      some (removeChecks "op-4" "revision-3" instanceB),
      contractHead instanceB instanceB "active" "revision-4"⟩, ?_⟩
  simp only [roundTrip, List.take_succ_cons, List.take_zero, List.cons_append, List.nil_append]
  rw [replay_cons_of_after roundTrip_accepted.configured,
    replay_cons_of_after roundTrip_accepted.retired,
    replay_cons_of_after roundTrip_accepted.succeeded,
    replay_cons_of_after roundTrip_accepted.rebound]
  simp only [Option.map_map, Function.comp_def]

/-- The second half, on the head the first one leaves. -/
private theorem replay_returns : ∃ c5 c6,
    replay plainHost (contractHead instanceB instanceB "active" "revision-4") (roundTrip.drop 4) =
      some [c5, c6, ⟨contractHead instanceB instanceA "active" "revision-6",
        some (removeChecks "op-7" "revision-6" instanceA),
        contractHead instanceA instanceA "active" "revision-7"⟩] := by
  refine ⟨⟨contractHead instanceB instanceB "active" "revision-4",
      some (retireInstance "op-5" instanceB),
      contractHead instanceB instanceB "retiring" "revision-5"⟩,
    ⟨contractHead instanceB instanceB "retiring" "revision-5",
      some (activateSuccessor "op-6" instanceB instanceA),
      contractHead instanceB instanceA "active" "revision-6"⟩, ?_⟩
  simp only [roundTrip, List.drop_succ_cons, List.drop_zero]
  rw [replay_cons_of_after roundTrip_accepted.retiredAgain,
    replay_cons_of_after roundTrip_accepted.returned,
    replay_cons_of_after roundTrip_accepted.restarted]
  rfl

/-- Every later configure call in the name of an instance leaves a higher revision. -/
def StrictlyIncreases (host : AcceptanceHost) (goalId : String) (commits : List Commit) : Prop :=
  ∀ (i j : Nat) (earlier later : Commit) (owner : WireExactGoalRef) (revision revision' : Nat),
    i < j → commits[i]? = some earlier → commits[j]? = some later →
    earlier.names (.configured (some owner)) → later.names (.configured (some owner)) →
    contractRevision host earlier.after.head goalId = .ok revision →
    contractRevision host later.after.head goalId = .ok revision' → revision < revision'

private theorem names_of_move {commit : Commit} {move : Move}
    (h : commit.operation.map AcceptanceOperation.move = some (.ok move)) : commit.names move := by
  obtain ⟨operation, hoperation, hmove⟩ := Option.map_eq_some_iff.mp h
  simp only [Commit.names, hoperation]
  exact hmove

end Loopx.Goals.Acceptance
