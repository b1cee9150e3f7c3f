/- GID: Loopx/Lease/TerminalFence
   generality: I
   source: loopx/control_plane/coordination/todo_lifecycle_decision.ts
   digest: The lease fence of a terminal Todo transition. -/

import Loopx.Lease.Commands

set_option autoImplicit false
set_option relaxedAutoImplicit false

namespace Loopx.Lease

inductive TodoCommand where
  | complete
  | supersede
  | claim
  | update
  deriving DecidableEq, Repr

inductive AuthorityMode where
  | singleAgentCompatibility
  | exactUserGateDecisionScopeOverride
  | delegatedOrchestrationOverride
  | registeredPeerActor
  deriving DecidableEq, Repr

inductive LeaseFence where
  | notRequired
  | required
  | autoAcquire
  | delegatedOverride
  deriving DecidableEq, Repr

inductive FenceCode where
  | handoffModeRetired
  | terminalFenceNotRequired
  | terminalFenceVerified
  | handoffModeRequiresLease
  | handoffModeLeaseClaimDivergence
  | leaseNotActive
  | leaseRepositoryDivergence
  | leaseFenceRequired
  | leaseCasMismatch
  | versionRequired
  | versionMismatch
  deriving DecidableEq, Repr

structure FenceRequest where
  command : Option TodoCommand
  todo : TodoRecord
  lease : Option DecisionLease
  registeredAgents : List String
  handoffMode : HandoffMode
  actorAgentId : Option String
  leaseIdempotencyKey : Option String
  leaseExpectedVersion : Option Nat
  allowUserGateAutoAcquire : Bool

structure FenceResult where
  outcome : Outcome
  code : FenceCode
  authorityMode : Option AuthorityMode := none
  leaseFence : LeaseFence := .notRequired
  nextLease : Option DecisionLease := none
  deriving DecidableEq, Repr

namespace FenceRequest

variable (request : FenceRequest)

def ownerIdentityEligible (owner : Option String) : Bool :=
  match owner with
  | none => false
  | some owner =>
    decide (owner ∈ request.registeredAgents ∧ owner ∉ request.todo.excludedAgents) &&
      request.todo.claimedBy.all (fun claim => decide (claim = owner))

def ownerEligible (owner : Option String) : Bool :=
  decide (request.todo.status = "open") && request.ownerIdentityEligible owner

def timeActive : Bool := request.lease.any (fun lease => lease.present && lease.active)

def effective : Bool :=
  request.timeActive && request.ownerEligible (request.lease.bind DecisionLease.owner)

def explicitFence : Bool :=
  request.leaseIdempotencyKey.isSome || request.leaseExpectedVersion.isSome

/-- The history that a transition without a fence retires. -/
def retiredHistory : Option DecisionLease :=
  match request.lease with
  | some lease =>
    if lease.present && lease.status != some .released then
      some { lease with active := false, status := some .released }
    else none
  | none => none

/-- A bound actor closes its own reminder, or a deferred wait is superseded: neither is
execution, and neither passes an active holder or a supplied fence. -/
def needsNoFence (delegated : Bool) : Bool :=
  decide (request.handoffMode = .hardLease) && !delegated && !request.timeActive &&
    !request.explicitFence && request.ownerIdentityEligible request.actorAgentId &&
    (decide (request.command = some .complete ∧ request.todo.role = "user" ∧
        request.todo.taskClass = some "user_action" ∧ request.todo.boundAgent.isSome ∧
        request.todo.boundAgent = request.actorAgentId) ||
      decide (request.command = some .supersede ∧ request.todo.role = "agent" ∧
        request.todo.status = "deferred"))

def autoAcquires (delegated : Bool) : Bool :=
  decide (request.handoffMode = .hardLease) && !delegated && request.allowUserGateAutoAcquire &&
    decide (request.todo.role = "user" ∧ request.todo.taskClass = some "user_gate")

/-- The lease that a user gate acquires and releases in one go. -/
def gateLease : DecisionLease where
  present := true
  active := false
  status := some .released
  owner := request.actorAgentId
  idempotencyKey := some (request.leaseIdempotencyKey.getD ("auto-" ++ request.todo.todoId))
  version := actualVersion request.lease + 1
  leaseEpoch := (request.lease.map DecisionLease.leaseEpoch).getD 0 + 1
  writeScopes := []
  writeRepository := none
  writeWorkspace := none
  acquireTtlSeconds := some 2700

end FenceRequest

/-- The fence against a lease that is active and whose holder is eligible. -/
def verifyFence (host : HostText) (request : FenceRequest) (authorityMode : Option AuthorityMode)
    (lease : DecisionLease) : FenceResult :=
  let refused (outcome : Outcome) (code : FenceCode) : FenceResult :=
    { outcome, code, authorityMode, leaseFence := .required }
  if (leaseRepositoryRejection host request.todo.taskRepository lease.writeRepository).isSome then
    refused .rejected .leaseRepositoryDivergence
  else if request.leaseIdempotencyKey = none then refused .rejected .leaseFenceRequired
  else if lease.owner ≠ request.actorAgentId ∨
      lease.idempotencyKey ≠ request.leaseIdempotencyKey then
    refused .rejected .leaseCasMismatch
  else if request.leaseExpectedVersion = none then refused .rejected .versionRequired
  else if request.leaseExpectedVersion ≠ some lease.version then
    refused .conflict .versionMismatch
  else
    { outcome := .apply, code := .terminalFenceVerified, authorityMode, leaseFence := .required
      nextLease := some { lease with active := false, status := some .released } }

/-- The answer where no lease is active with an eligible holder. -/
def answerUnfenced (request : FenceRequest) (authorityMode : Option AuthorityMode)
    (requireActiveWhenFenceSupplied : Bool) : FenceResult :=
  let delegated := authorityMode = some .delegatedOrchestrationOverride
  if request.handoffMode = .hardLease ∧ ¬ delegated then
    { outcome := .rejected, authorityMode, leaseFence := .required
      code := if request.timeActive then .handoffModeLeaseClaimDivergence
        else .handoffModeRequiresLease }
  else if request.explicitFence && requireActiveWhenFenceSupplied then
    { outcome := .rejected, code := .leaseNotActive, authorityMode }
  else
    { outcome := .apply, code := .terminalFenceNotRequired, authorityMode
      leaseFence := if delegated ∧ request.handoffMode = .hardLease then .delegatedOverride
        else .notRequired }

def terminalFence (host : HostText) (request : FenceRequest)
    (authorityMode : Option AuthorityMode) (requireActiveWhenFenceSupplied : Bool) :
    FenceResult :=
  let delegated := decide (authorityMode = some .delegatedOrchestrationOverride)
  if request.handoffMode = .legacy then { outcome := .rejected, code := .handoffModeRetired }
  else if request.needsNoFence delegated then
    { outcome := .apply, code := .terminalFenceNotRequired, authorityMode
      nextLease := request.retiredHistory }
  else if request.autoAcquires delegated && !request.effective && !request.timeActive then
    if request.ownerEligible request.actorAgentId then
      { outcome := .apply, code := .terminalFenceVerified, authorityMode
        leaseFence := .autoAcquire, nextLease := some request.gateLease }
    else
      { outcome := .rejected, code := .handoffModeRequiresLease, authorityMode
        leaseFence := .autoAcquire }
  else
    match request.lease with
    | some lease =>
      if request.effective then verifyFence host request authorityMode lease
      else answerUnfenced request authorityMode requireActiveWhenFenceSupplied
    | none => answerUnfenced request authorityMode requireActiveWhenFenceSupplied

/-- The fence passed because the request named the lease that is active. -/
def FenceResult.verified (result : FenceResult) : Prop :=
  result.outcome = .apply ∧ result.leaseFence = .required

instance (result : FenceResult) : Decidable result.verified :=
  inferInstanceAs (Decidable (_ ∧ _))

private theorem answerUnfenced_not_verified (request : FenceRequest)
    (authorityMode : Option AuthorityMode) (requireActive : Bool) :
    ¬ (answerUnfenced request authorityMode requireActive).verified := by
  unfold answerUnfenced FenceResult.verified
  simp only
  split
  · simp
  split
  · simp
  · rintro ⟨-, hfence⟩
    simp only at hfence
    split at hfence <;> simp at hfence

private theorem verifyFence_verified {host : HostText} {request : FenceRequest}
    {authorityMode : Option AuthorityMode} {lease : DecisionLease}
    (h : (verifyFence host request authorityMode lease).verified) :
    lease.owner = request.actorAgentId ∧ lease.idempotencyKey = request.leaseIdempotencyKey ∧
      request.leaseExpectedVersion = some lease.version := by
  unfold verifyFence FenceResult.verified at h
  simp only at h
  split at h
  · simp at h
  split at h
  · simp at h
  split at h
  · simp at h
  rename_i hheld
  split at h
  · simp at h
  split at h
  · simp at h
  rename_i hversion
  rw [not_or, not_not, not_not] at hheld
  exact ⟨hheld.1, hheld.2, not_not.mp hversion⟩

/-- A verified fence names the owner, the key and the version of a lease that is active. -/
theorem terminalFence_verified {host : HostText} {request : FenceRequest}
    {authorityMode : Option AuthorityMode} {requireActive : Bool}
    (h : (terminalFence host request authorityMode requireActive).verified) :
    ∃ lease, request.lease = some lease ∧ lease.active = true ∧
      lease.owner = request.actorAgentId ∧ lease.idempotencyKey = request.leaseIdempotencyKey ∧
      request.leaseExpectedVersion = some lease.version := by
  unfold terminalFence at h
  simp only at h
  split at h
  · simp [FenceResult.verified] at h
  split at h
  · simp [FenceResult.verified] at h
  split at h
  · split at h <;> simp [FenceResult.verified] at h
  split at h
  · rename_i lease hlease
    split at h
    · rename_i heffective
      have hactive : lease.active = true := by
        simp [FenceRequest.effective, FenceRequest.timeActive, hlease] at heffective
        exact heffective.1.2
      exact ⟨lease, hlease, hactive, verifyFence_verified h⟩
    · exact absurd h (answerUnfenced_not_verified request authorityMode requireActive)
  · exact absurd h (answerUnfenced_not_verified request authorityMode requireActive)

end Loopx.Lease
