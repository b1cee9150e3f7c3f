/- GID: Loopx/Lease/TerminalDecision
   generality: I
   source: loopx/control_plane/coordination/todo_lifecycle_decision.ts
   digest: Authority and lease fence of a terminal Todo transition. -/

import Loopx.Lease.TerminalFence

set_option autoImplicit false
set_option relaxedAutoImplicit false

namespace Loopx.Lease

open Loopx.Authority (trim)

/-! ## The request -/

structure DecisionScope where
  kind : String
  granularity : String
  scopeKey : String
deriving DecidableEq, Repr

inductive DecisionOutcome where
  | approve
  | reject
  | cancel
deriving DecidableEq, Repr

inductive AuthorityAction where
  | complete
  | reassign
  | supersede
  | update
deriving DecidableEq, Repr

structure LifecycleGrant where
  agentId : String
  actions : List AuthorityAction
  requiresReason : Bool
deriving DecidableEq, Repr

/-- `TodoFact`: the record with the decisions that it stands for and waits for. -/
structure TerminalTodo extends TodoRecord where
  decisionScope : Option DecisionScope
  requiredDecisionScopes : List DecisionScope
  unblocksTodoId : Option String
deriving DecidableEq, Repr

/-- `LifecycleDecisionRequest` once its fields are decoded. The grants are decoded only where the
decision resolves them. -/
structure LifecycleDecisionRequest where
  command : TodoCommand
  handoffMode : HandoffMode
  registeredAgents : List String
  resolveLifecycleGrants : Except String (List LifecycleGrant)
  todo : Option TerminalTodo
  decisionTarget : Option TerminalTodo
  lease : Option DecisionLease
  actorAgentId : Option String
  authorityAction : AuthorityAction
  authorityReason : Option String
  decisionOutcome : Option DecisionOutcome
  leaseIdempotencyKey : Option String
  leaseExpectedVersion : Option Nat
  allowUserGateAutoAcquire : Bool
  requestedClaimedBy : Option String

/-- The code of an answer: the fence's, or a text of the decision itself. -/
inductive DecisionCode where
  | fence (code : FenceCode)
  | text (code : String)
deriving DecidableEq, Repr

/-- `CoordinationTodoTerminalDecisionResult`. Its `ownership_gate` is never required here. -/
structure TerminalDecisionResult where
  outcome : Outcome
  code : DecisionCode
  authorityMode : Option AuthorityMode := none
  leaseFence : LeaseFence := .notRequired
  idempotent : Bool := false
  nextTodoDone : Bool := false
  nextLease : Option DecisionLease := none
deriving DecidableEq, Repr

namespace LifecycleDecisionRequest

variable (request : LifecycleDecisionRequest)

/-- The part of the request that the fence reads. -/
def fenceRequest (todo : TerminalTodo) : FenceRequest where
  command := some request.command
  todo := todo.toTodoRecord
  lease := request.lease
  registeredAgents := request.registeredAgents
  handoffMode := request.handoffMode
  actorAgentId := request.actorAgentId
  leaseIdempotencyKey := request.leaseIdempotencyKey
  leaseExpectedVersion := request.leaseExpectedVersion
  allowUserGateAutoAcquire := request.allowUserGateAutoAcquire

def invalidLease : Bool :=
  request.lease.any fun lease =>
    lease.active && (!lease.present || decide (lease.status = some .released))

end LifecycleDecisionRequest

/-! ## Authority -/

/-- `scopeKey`. -/
def DecisionScope.key (scope : DecisionScope) : String :=
  scope.kind ++ "\x00" ++ scope.granularity ++ "\x00" ++ scope.scopeKey

def exactUserGateOverride (request : LifecycleDecisionRequest) (todo : TerminalTodo) : Bool :=
  match request.decisionTarget, todo.decisionScope with
  | some target, some scope =>
    decide (request.command = .complete ∧ todo.role = "user" ∧
        todo.taskClass = some "user_gate" ∧ request.decisionOutcome.isSome ∧
        todo.unblocksTodoId = some target.todoId) &&
      target.requiredDecisionScopes.any fun required => required.key = scope.key
  | _, _ => false

/-- A grant of its own lets an actor pass another agent's claim. -/
def delegatedAuthority (request : LifecycleDecisionRequest) :
    Except String (Except String AuthorityMode) := do
  let grants ← request.resolveLifecycleGrants
  match grants.find? fun grant => some grant.agentId = request.actorAgentId with
  | none => .ok (.error "claim_owner_mismatch")
  | some grant =>
    if request.authorityAction ∉ grant.actions then .ok (.error "delegation_action_not_granted")
    else if grant.requiresReason && decide (trim (request.authorityReason.getD "") = "") then
      .ok (.error "delegation_reason_required")
    else .ok (.ok .delegatedOrchestrationOverride)

/-- Without an actor only a record that nobody owns may change. -/
def isUnowned (todo : TerminalTodo) : Bool :=
  todo.claimedBy.isNone && todo.boundAgent.isNone && todo.blocksAgent.isNone &&
    todo.excludedAgents.isEmpty

/-- The mode in which the actor may act, or the code of the refusal. -/
def authority (request : LifecycleDecisionRequest) (todo : TerminalTodo) :
    Except String (Except String AuthorityMode) :=
  if request.handoffMode = .legacy then .ok (.error "handoff_mode_retired")
  else if request.registeredAgents.length ≤ 1 then
    match request.actorAgentId with
    | some actor =>
      match registeredTodoMutationRejection todo.toTodoRecord (some actor) request.registeredAgents with
      | some code => .ok (.error code)
      | none => .ok (.ok .singleAgentCompatibility)
    | none =>
      if isUnowned todo then .ok (.ok .singleAgentCompatibility)
      else .ok (.error "actor_required")
  else if exactUserGateOverride request todo then
    .ok (.ok .exactUserGateDecisionScopeOverride)
  else
    match registeredTodoMutationRejection todo.toTodoRecord request.actorAgentId request.registeredAgents with
    | some code =>
      if code = "claim_owner_mismatch" then delegatedAuthority request else .ok (.error code)
    | none =>
      if request.command = .claim ∧ request.requestedClaimedBy ≠ request.actorAgentId then
        .ok (.error "claim_actor_mismatch")
      else .ok (.ok .registeredPeerActor)

/-! ## The decision -/

/-- The fence's answer as the decision's: a fence that applies makes the Todo done. -/
def FenceResult.decision (fence : FenceResult) : TerminalDecisionResult :=
  { outcome := fence.outcome
    code := if fence.outcome = .apply then .text "terminal_transition" else .fence fence.code
    authorityMode := fence.authorityMode
    leaseFence := fence.leaseFence
    nextTodoDone := decide (fence.outcome = .apply)
    nextLease := fence.nextLease }

def evaluateCoordinationTodoTerminalDecision (host : HostText)
    (request : LifecycleDecisionRequest) : Except String TerminalDecisionResult :=
  if request.invalidLease then
    .ok { outcome := .rejected, code := .text "invalid_lease_snapshot" }
  else
    match request.todo with
    | none => .ok { outcome := .rejected, code := .text "todo_not_found" }
    | some todo => do
      match ← authority request todo with
      | .error code => .ok { outcome := .rejected, code := .text code }
      | .ok mode =>
        if todo.status = "done" then
          .ok { outcome := .noChange, code := .text "terminal_replay", authorityMode := some mode
                idempotent := true }
        else
          .ok (terminalFence host (request.fenceRequest todo) (some mode) true).decision

/-! ## Past a lease -/

variable {host : HostText} {request : FenceRequest} {authorityMode : Option AuthorityMode}
  {requireActive : Bool}

private theorem timeActive_of_effective (effective : request.effective = true) :
    request.timeActive = true := (Bool.and_eq_true_iff.mp effective).1

private theorem needsNoFence_of_timeActive (active : request.timeActive = true)
    (delegated : Bool) : request.needsNoFence delegated = false := by
  simp [FenceRequest.needsNoFence, active]

/-- Against an effective lease the fence is verified. -/
theorem terminalFence_of_effective {lease : DecisionLease} (held : request.lease = some lease)
    (effective : request.effective = true) (current : request.handoffMode ≠ .legacy) :
    terminalFence host request authorityMode requireActive =
      verifyFence host request authorityMode lease := by
  have active := timeActive_of_effective effective
  simp [terminalFence, current, needsNoFence_of_timeActive active, held, effective]

/-- A lease that is active while its holder is not eligible is passed only by a delegation, or
where no lease is required. -/
theorem terminalFence_past_ineligible (active : request.timeActive = true)
    (ineligible : request.effective = false)
    (h : (terminalFence host request authorityMode requireActive).outcome = .apply) :
    authorityMode = some .delegatedOrchestrationOverride ∨ request.handoffMode = .softClaim := by
  by_contra other
  obtain ⟨undelegated, hard⟩ := not_or.mp other
  have unfenced : ∀ mode, (answerUnfenced request authorityMode mode).outcome = .apply →
      request.handoffMode = .legacy := by
    intro mode applies
    cases hmode : request.handoffMode with
    | legacy => rfl
    | softClaim => exact absurd hmode hard
    | hardLease => simp [answerUnfenced, hmode, undelegated] at applies
  unfold terminalFence at h
  simp only [needsNoFence_of_timeActive active, active, Bool.not_true, Bool.and_false,
    ineligible, Bool.false_eq_true, if_false] at h
  split at h
  · simp at h
  · rename_i current
    split at h
    · exact current (unfenced requireActive h)
    · exact current (unfenced requireActive h)

/-- What an actor shows of a lease to pass it. -/
structure Proves (request : LifecycleDecisionRequest) (lease : DecisionLease) : Prop where
  owner : request.actorAgentId.isSome = true ∧ lease.owner = request.actorAgentId
  key : request.leaseIdempotencyKey.isSome = true ∧
    lease.idempotencyKey = request.leaseIdempotencyKey
  version : request.leaseExpectedVersion = some lease.version

private theorem verifyFence_apply {lease : DecisionLease}
    (h : (verifyFence host request authorityMode lease).outcome = .apply) :
    request.leaseIdempotencyKey ≠ none ∧ lease.owner = request.actorAgentId ∧
      lease.idempotencyKey = request.leaseIdempotencyKey ∧
      request.leaseExpectedVersion = some lease.version := by
  unfold verifyFence at h
  simp only at h
  split at h
  · simp at h
  split at h
  · simp at h
  rename_i supplied
  split at h
  · simp at h
  rename_i held
  split at h
  · simp at h
  split at h
  · simp at h
  rename_i version
  rw [not_or, not_not, not_not] at held
  exact ⟨supplied, held.1, held.2, not_not.mp version⟩

private theorem eligible_isSome {owner : Option String}
    (h : request.ownerEligible owner = true) : owner.isSome = true := by
  cases owner with
  | none => simp [FenceRequest.ownerEligible, FenceRequest.ownerIdentityEligible] at h
  | some owner => rfl

/-- A decision that applies has passed the fence. -/
private theorem fence_of_apply {decision : LifecycleDecisionRequest} {todo : TerminalTodo}
    {result : TerminalDecisionResult} (stands : decision.todo = some todo)
    (h : evaluateCoordinationTodoTerminalDecision host decision = .ok result)
    (applies : result.outcome = .apply) :
    ∃ mode, (terminalFence host (decision.fenceRequest todo) (some mode) true).outcome =
      .apply := by
  unfold evaluateCoordinationTodoTerminalDecision at h
  split at h
  · obtain rfl := Except.ok.inj h
    cases applies
  · rw [stands] at h
    simp only at h
    obtain ⟨answer, _, h⟩ := Lib.Fallible.bind_eq_ok.mp h
    cases answer with
    | error code =>
      obtain rfl := Except.ok.inj h
      cases applies
    | ok mode =>
      simp only at h
      split at h
      · obtain rfl := Except.ok.inj h
        cases applies
      · obtain rfl := Except.ok.inj h
        exact ⟨mode, applies⟩

/-- While a lease of an eligible holder is active, a terminal decision applies only for the actor
that holds it and names its key and version. No mode of authority, delegation included, and no
other field of the request lets it pass. -/
theorem terminalDecision_fenced (host : HostText) (request : LifecycleDecisionRequest)
    (todo : TerminalTodo) (result : TerminalDecisionResult) (stands : request.todo = some todo)
    (effective : (request.fenceRequest todo).effective = true)
    (h : evaluateCoordinationTodoTerminalDecision host request = .ok result)
    (applies : result.outcome = .apply) :
    ∃ lease, request.lease = some lease ∧ lease.present = true ∧ lease.active = true ∧
      Proves request lease := by
  obtain ⟨mode, fence⟩ := fence_of_apply stands h applies
  have active := timeActive_of_effective effective
  cases held : request.lease with
  | none => simp [FenceRequest.timeActive, LifecycleDecisionRequest.fenceRequest, held] at active
  | some lease =>
    have current : (request.fenceRequest todo).handoffMode ≠ .legacy := by
      intro legacy
      simp [terminalFence, legacy] at fence
    rw [terminalFence_of_effective held effective current] at fence
    obtain ⟨supplied, owner, key, version⟩ := verifyFence_apply fence
    have there : lease.present = true ∧ lease.active = true := by
      simpa [FenceRequest.timeActive, LifecycleDecisionRequest.fenceRequest, held] using active
    have eligible : (request.fenceRequest todo).ownerEligible lease.owner = true := by
      have owned := (Bool.and_eq_true_iff.mp effective).2
      simpa [LifecycleDecisionRequest.fenceRequest, held] using owned
    refine ⟨lease, rfl, there.1, there.2, ⟨?_, owner⟩, ⟨?_, key⟩, version⟩
    · rw [← show lease.owner = request.actorAgentId from owner]
      exact eligible_isSome eligible
    · exact Option.isSome_iff_ne_none.mpr supplied

private def heldTodo : TerminalTodo where
  todoId := "todo_review"
  archiveState := "active"
  status := "open"
  role := "agent"
  taskClass := none
  taskRepository := none
  claimedBy := some "alice"
  boundAgent := none
  blocksAgent := none
  excludedAgents := []
  removedContinuationPolicy := none
  decisionScope := none
  requiredDecisionScopes := []
  unblocksTodoId := none

private def heldLease : DecisionLease where
  present := true
  active := true
  status := some .active
  owner := some "alice"
  idempotencyKey := some "turn-1"
  version := 3
  leaseEpoch := 1
  writeScopes := []
  writeRepository := none
  writeWorkspace := none
  acquireTtlSeconds := some 600

private def heldRequest (actor : String) (key : Option String) : LifecycleDecisionRequest where
  command := .complete
  handoffMode := .hardLease
  registeredAgents := ["alice", "bob"]
  resolveLifecycleGrants := .ok [⟨"bob", [.complete], false⟩]
  todo := some heldTodo
  decisionTarget := none
  lease := some heldLease
  actorAgentId := some actor
  authorityAction := .complete
  authorityReason := none
  decisionOutcome := none
  leaseIdempotencyKey := key
  leaseExpectedVersion := some 3
  allowUserGateAutoAcquire := false
  requestedClaimedBy := none

private def plainText : HostText := ⟨id, id, fun _ _ => .eq⟩

/-- The holder completes its Todo under its lease. -/
theorem terminalDecision_fenced_holder :
    Proves (heldRequest "alice" (some "turn-1")) heldLease := by
  obtain ⟨result, h, applies⟩ : ∃ result, evaluateCoordinationTodoTerminalDecision plainText
      (heldRequest "alice" (some "turn-1")) = .ok result ∧ result.outcome = .apply :=
    ⟨_, rfl, rfl⟩
  obtain ⟨lease, held, _, _, proves⟩ := terminalDecision_fenced plainText
    (heldRequest "alice" (some "turn-1")) heldTodo result rfl (by decide) h applies
  obtain rfl : heldLease = lease := Option.some.inj held
  exact proves

-- A delegate may pass the claim, but not the lease.
example : evaluateCoordinationTodoTerminalDecision plainText (heldRequest "bob" (some "turn-1")) =
    .ok { outcome := .rejected, code := .fence .leaseCasMismatch
          authorityMode := some .delegatedOrchestrationOverride, leaseFence := .required } := by
  rfl

end Loopx.Lease
