/- GID: Loopx/Lease/Decision
   generality: I
   source: loopx/control_plane/work_items/task_lease_acquire_decision.ts,
     loopx/control_plane/work_items/task_lease_lifecycle_decision.ts,
     loopx/control_plane/work_items/task_lease_eligibility.ts
   digest: The pure lease decisions and the records that they materialize. -/

import Loopx.Lease.WriteScope

set_option autoImplicit false
set_option relaxedAutoImplicit false

namespace Loopx.Lease

/-- `Number.MAX_SAFE_INTEGER`. -/
def maxSafeInteger : Nat := 2 ^ 53 - 1

inductive HandoffMode where
  | legacy
  | softClaim
  | hardLease
  deriving DecidableEq, Repr

inductive LeaseStatus where
  | active
  | released
  deriving DecidableEq, Repr

/-- The Todo as lease admission reads it; the repository is its normalized identity. -/
structure TodoFact where
  todoId : String
  status : String
  taskClass : Option String
  claimedBy : Option String
  excludedAgents : List String
  taskRepository : Option String
  deriving DecidableEq, Repr

structure LeaseWorkspace where
  host : String
  commonDirectory : String
  worktree : String
  repository : String
  deriving DecidableEq, Repr

/-- A retained lease. Instants are milliseconds; older records may lack a version or an epoch. -/
structure LeaseRecord where
  owner : String
  idempotencyKey : String
  writeWorkspace : Option LeaseWorkspace
  writeScopes : List String
  acquireTtlSeconds : Option Nat
  writeRepository : Option String
  version : Option Nat
  leaseEpoch : Option Nat
  acquiredAt : Nat
  updatedAt : Nat
  expiresAt : Option Nat
  releasedAt : Option Nat
  status : LeaseStatus
  deriving DecidableEq, Repr

inductive LeaseOwnerRejection where
  | todoNotFound
  | todoNotOpen
  | invalidOwner
  | ownerNotRegistered
  | ownerExcludedFromTodo
  | ownerConflictsWithClaim
  | todoNotExecutable
  deriving DecidableEq, Repr

inductive Outcome where
  | apply
  | noChange
  | conflict
  | rejected
  deriving DecidableEq, Repr

inductive LeaseCode where
  | invalidLeaseSnapshot
  | handoffModeForbidsLease
  | handoffModeRetired
  | owner (rejection : LeaseOwnerRejection)
  | versionRequired
  | versionMismatch
  | leaseRepositoryDivergence
  | leaseWorkspaceRepositoryMismatch
  | idempotencyKeyReuse
  | todoLeaseConflict
  | writeScopeConflict
  | leaseGenerationExhausted
  | leaseNotActive
  | leaseCasMismatch
  | leaseMissing
  | leaseAcquireReplay
  | leaseReleaseReplay
  | leaseAcquire
  | leaseRenew
  | leaseTransfer
  | leaseRelease
  deriving DecidableEq, Repr

/-- User actions are administrative reminders, never executable work. -/
def leaseExecutionTargetRejection (taskClass : Option String) : Option LeaseOwnerRejection :=
  if taskClass = some "user_action" then some .todoNotExecutable else none

/-- Owner eligibility, shared by acquisition, renewal, transfer and observation. -/
def leaseOwnerRejection (todo : Option TodoFact) (owner : Option String)
    (registered : List String) : Option LeaseOwnerRejection :=
  match todo with
  | none => some .todoNotFound
  | some todo =>
    if todo.status ≠ "open" then some .todoNotOpen
    else
      match owner with
      | none => some .invalidOwner
      | some owner =>
        if owner = "" then some .invalidOwner
        else if owner ∉ registered then some .ownerNotRegistered
        else if owner ∈ todo.excludedAgents then some .ownerExcludedFromTodo
        else if todo.claimedBy.any (fun claim => decide (claim ≠ "" ∧ claim ≠ owner)) then
          some .ownerConflictsWithClaim
        else leaseExecutionTargetRejection todo.taskClass

/-- Historical ownership is readable and releasable, never present execution. -/
def retiredHandoffModeRejection : HandoffMode → Option LeaseCode
  | .legacy => some .handoffModeRetired
  | _ => none

variable (host : HostText)

def sameRepository (left right : String) : Bool :=
  decide (host.toLowerCase left.toList = host.toLowerCase right.toList)

/-- An unknown repository may be any repository. -/
def repositoryScopesMayOverlap : Option String → Option String → Bool
  | some left, some right => sameRepository host left right
  | _, _ => true

/-- The repository that a lease froze must still be its Todo's. -/
def leaseRepositoryRejection (current frozen : Option String) : Option LeaseCode :=
  match frozen, current with
  | none, _ => none
  | some frozen, some current =>
    if sameRepository host frozen current then none else some .leaseRepositoryDivergence
  | some _, none => some .leaseRepositoryDivergence

/-- Two leases are known to stand in one physical checkout. -/
def sameLeaseCheckout : Option LeaseWorkspace → Option LeaseWorkspace → Bool
  | some left, some right => decide (left.host = right.host ∧ left.worktree = right.worktree)
  | _, _ => false

def leaseVersion : Option LeaseRecord → Nat
  | none => 0
  | some lease => lease.version.getD 0

def leaseEpoch : Option LeaseRecord → Nat
  | none => 0
  | some lease => lease.leaseEpoch.getD 1

inductive LeaseError where
  | corruptLease
  deriving DecidableEq, Repr

def leaseIsActive (lease : LeaseRecord) (now : Nat) : Except LeaseError Bool :=
  match lease.status, lease.expiresAt with
  | .released, _ => .ok false
  | .active, none => .error .corruptLease
  | .active, some expires => .ok (decide (now < expires))

/-- `utcIsoformat` keeps whole seconds. -/
def utcIsoformat (instant : Nat) : Nat := instant / 1000 * 1000

/-- The lease as both decisions read it. -/
structure DecisionLease where
  present : Bool
  active : Bool
  status : Option LeaseStatus
  owner : Option String
  idempotencyKey : Option String
  version : Nat
  leaseEpoch : Nat
  writeScopes : List String
  writeRepository : Option String
  writeWorkspace : Option LeaseWorkspace
  acquireTtlSeconds : Option Nat
  deriving DecidableEq, Repr

structure OtherLease where
  todoId : String
  owner : String
  active : Bool
  effective : Bool
  writeScopes : List String
  writeRepository : Option String
  writeWorkspace : Option LeaseWorkspace
  deriving DecidableEq, Repr

structure AcquireCommand where
  owner : String
  idempotencyKey : String
  ttlSeconds : Nat
  writeScopes : List String
  expectedVersion : Option Nat
  writeWorkspace : Option LeaseWorkspace
  deriving DecidableEq, Repr

structure AcquireDecisionInput where
  handoffMode : HandoffMode
  registeredAgents : List String
  todo : Option TodoFact
  lease : Option DecisionLease
  otherLeases : List OtherLease
  command : AcquireCommand

structure AcquireDecision where
  outcome : Outcome
  code : LeaseCode
  idempotent : Bool := false
  nextLease : Option DecisionLease := none
  conflictIndexes : List Nat := []
  overlapAdvisoryIndexes : List Nat := []
  deriving DecidableEq, Repr

def acquireDecisionResult (outcome : Outcome) (code : LeaseCode) : AcquireDecision :=
  { outcome, code }

/-- The snapshot calls a lease active that is absent or released. -/
def DecisionLease.invalid (lease : DecisionLease) : Bool :=
  lease.active && (!lease.present || lease.status == some .released)

def actualVersion (lease : Option DecisionLease) : Nat :=
  match lease with
  | some lease => if lease.present then lease.version else 0
  | none => 0

/-- The scopes of a comparison view in the order of the host's collation. -/
def sortedScopes (scopes : List String) : List String :=
  (comparisonWriteScopes scopes).mergeSort (fun a b => host.localeCompare a b != .gt)

def equalScopeSets (left right : List String) : Bool :=
  decide (sortedScopes host left = sortedScopes host right)

/-- Whether a requested grant reaches into another lease's scopes. -/
def scopesReach (repository : Option String) (workspace : Option LeaseWorkspace)
    (scopes : List String) (other : OtherLease) : Bool :=
  (sameLeaseCheckout workspace other.writeWorkspace ||
      repositoryScopesMayOverlap host repository other.writeRepository) &&
    writeScopesOverlap host scopes other.writeScopes

/-- Active and effective leases whose scopes the request reaches, with their positions. -/
def overlapIndexes (repository : Option String) (workspace : Option LeaseWorkspace)
    (scopes : List String) (others : List OtherLease) : List (OtherLease × Nat) :=
  others.zipIdx.filter fun entry =>
    entry.1.active && entry.1.effective && scopesReach host repository workspace scopes entry.1

/-- A verified worktree of its own turns the overlap into an advisory. -/
def isAdvisory (workspace : Option LeaseWorkspace) (other : OtherLease) : Bool :=
  workspace.isSome && !sameLeaseCheckout workspace other.writeWorkspace

/-- The part of the acquire decision after the lease of the Todo itself has been settled. -/
def admitScopes (input : AcquireDecisionInput) : AcquireDecision :=
  let command := input.command
  let repository := input.todo.bind TodoFact.taskRepository
  let workspace := command.writeWorkspace
  if workspace.any (fun w => !repository.any (sameRepository host w.repository)) then
    acquireDecisionResult .rejected .leaseWorkspaceRepositoryMismatch
  else
    let overlaps := overlapIndexes host repository workspace command.writeScopes input.otherLeases
    let conflicts := overlaps.filter (fun entry => !isAdvisory workspace entry.1)
    let epoch := (input.lease.map DecisionLease.leaseEpoch).getD 0
    if conflicts ≠ [] then
      { outcome := .conflict, code := .writeScopeConflict,
        conflictIndexes := conflicts.map Prod.snd }
    else if maxSafeInteger ≤ actualVersion input.lease ∨ maxSafeInteger ≤ epoch then
      acquireDecisionResult .rejected .leaseGenerationExhausted
    else
      { outcome := .apply, code := .leaseAcquire,
        overlapAdvisoryIndexes := overlaps.map Prod.snd
        nextLease := some
          { present := true, active := true, status := some .active, owner := some command.owner,
            idempotencyKey := some command.idempotencyKey,
            version := actualVersion input.lease + 1, leaseEpoch := epoch + 1,
            writeScopes := comparisonWriteScopes command.writeScopes,
            writeRepository := repository, writeWorkspace := workspace,
            acquireTtlSeconds := some command.ttlSeconds } }

/-- The answer to a request for a Todo whose lease is active and whose holder is eligible. -/
def answerHeld (input : AcquireDecisionInput) (lease : DecisionLease) : AcquireDecision :=
  let command := input.command
  match leaseRepositoryRejection host (input.todo.bind TodoFact.taskRepository)
      lease.writeRepository with
  | some code => acquireDecisionResult .rejected code
  | none =>
    if lease.owner = some command.owner ∧ lease.idempotencyKey = some command.idempotencyKey then
      if equalScopeSets host lease.writeScopes command.writeScopes ∧
          lease.acquireTtlSeconds.all (fun ttl => decide (ttl = command.ttlSeconds)) ∧
          lease.writeWorkspace = command.writeWorkspace then
        { outcome := .noChange, code := .leaseAcquireReplay, idempotent := true }
      else acquireDecisionResult .rejected .idempotencyKeyReuse
    else acquireDecisionResult .conflict .todoLeaseConflict

def decideTaskLeaseAcquire (input : AcquireDecisionInput) : AcquireDecision :=
  let command := input.command
  if input.lease.any DecisionLease.invalid then
    acquireDecisionResult .rejected .invalidLeaseSnapshot
  else if input.handoffMode = .softClaim then
    acquireDecisionResult .rejected .handoffModeForbidsLease
  else
    match leaseOwnerRejection input.todo (some command.owner) input.registeredAgents with
    | some rejection => acquireDecisionResult .rejected (.owner rejection)
    | none =>
      match retiredHandoffModeRejection input.handoffMode with
      | some code => acquireDecisionResult .rejected code
      | none =>
        if command.expectedVersion.any (fun v => decide (v ≠ actualVersion input.lease)) then
          acquireDecisionResult .conflict .versionMismatch
        else
          match input.lease.filter DecisionLease.present with
          | none => admitScopes host input
          | some lease =>
            if lease.active ∧
                leaseOwnerRejection input.todo lease.owner input.registeredAgents = none then
              answerHeld host input lease
            else if lease.idempotencyKey = some command.idempotencyKey then
              acquireDecisionResult .rejected .idempotencyKeyReuse
            else admitScopes host input

/-- The record of the one admitted generation. -/
def materializeTaskLeaseAcquire (command : AcquireCommand) (next : DecisionLease) (now : Nat) :
    LeaseRecord where
  owner := command.owner
  idempotencyKey := command.idempotencyKey
  writeWorkspace := next.writeWorkspace
  writeScopes := comparisonWriteScopes command.writeScopes
  acquireTtlSeconds := some command.ttlSeconds
  writeRepository := next.writeRepository
  version := some next.version
  leaseEpoch := some next.leaseEpoch
  acquiredAt := utcIsoformat now
  updatedAt := utcIsoformat now
  expiresAt := some (utcIsoformat (now + command.ttlSeconds * 1000))
  releasedAt := none
  status := .active

inductive LifecycleOperation where
  | renew
  | transfer
  | release
  deriving DecidableEq, Repr

structure LifecycleCommand where
  operation : LifecycleOperation
  owner : String
  idempotencyKey : String
  expectedVersion : Option Nat
  ttlSeconds : Option Nat
  newOwner : Option String
  newIdempotencyKey : Option String
  deriving DecidableEq, Repr

structure LifecycleDecisionInput where
  handoffMode : HandoffMode
  registeredAgents : List String
  todo : Option TodoFact
  lease : Option DecisionLease
  command : LifecycleCommand

structure LifecycleDecision where
  outcome : Outcome
  code : LeaseCode
  idempotent : Bool := false
  nextLease : Option DecisionLease := none
  deriving DecidableEq, Repr

def lifecycleResult (outcome : Outcome) (code : LeaseCode) : LifecycleDecision :=
  { outcome, code }

/-- Renewal and transfer need an eligible owner and the repository that the lease froze. -/
def lifecycleAdmission (input : LifecycleDecisionInput) : Option LeaseCode :=
  let command := input.command
  if command.operation = .release then none
  else if command.operation = .transfer ∧ command.owner ∉ input.registeredAgents then
    some (.owner .ownerNotRegistered)
  else
    let owner := if command.operation = .transfer then command.newOwner else some command.owner
    match leaseOwnerRejection input.todo owner input.registeredAgents with
    | some rejection => some (.owner rejection)
    | none =>
      leaseRepositoryRejection host (input.todo.bind TodoFact.taskRepository)
        (input.lease.bind DecisionLease.writeRepository)

def DecisionLease.heldBy (lease : DecisionLease) (command : LifecycleCommand) : Bool :=
  decide (lease.owner = some command.owner ∧ lease.idempotencyKey = some command.idempotencyKey)

def decideRelease (command : LifecycleCommand) : Option DecisionLease → LifecycleDecision
  | none => { outcome := .noChange, code := .leaseMissing, idempotent := true }
  | some lease =>
    if !lease.heldBy command then lifecycleResult .rejected .leaseCasMismatch
    else if lease.status = some .released then
      { outcome := .noChange, code := .leaseReleaseReplay, idempotent := true,
        nextLease := some lease }
    else
      { outcome := .apply, code := .leaseRelease,
        nextLease := some { lease with active := false, status := some .released } }

def decideTransfer (command : LifecycleCommand) (lease : DecisionLease) : LifecycleDecision :=
  match command.newOwner, command.newIdempotencyKey with
  | some newOwner, some newKey =>
    if newKey = command.idempotencyKey then lifecycleResult .rejected .idempotencyKeyReuse
    else if maxSafeInteger < lease.version + 1 ∨ maxSafeInteger < lease.leaseEpoch + 1 then
      lifecycleResult .rejected .leaseGenerationExhausted
    else
      { outcome := .apply, code := .leaseTransfer,
        nextLease := some { lease with
          owner := some newOwner, idempotencyKey := some newKey,
          version := lease.version + 1, leaseEpoch := lease.leaseEpoch + 1 } }
  | _, _ => lifecycleResult .rejected .idempotencyKeyReuse

def decideRenew (lease : DecisionLease) : LifecycleDecision :=
  if maxSafeInteger < lease.version + 1 then lifecycleResult .rejected .leaseGenerationExhausted
  else
    { outcome := .apply, code := .leaseRenew,
      nextLease := some { lease with version := lease.version + 1 } }

/-- Renewal and transfer of the lease that is active and held by the caller. -/
def decideExtension (input : LifecycleDecisionInput) : LifecycleDecision :=
  match retiredHandoffModeRejection input.handoffMode, input.lease with
  | some code, _ => lifecycleResult .rejected code
  | none, none => lifecycleResult .rejected .leaseNotActive
  | none, some lease =>
    if !lease.present || !lease.active then lifecycleResult .rejected .leaseNotActive
    else if !lease.heldBy input.command then lifecycleResult .rejected .leaseCasMismatch
    else if input.command.operation = .transfer then decideTransfer input.command lease
    else decideRenew lease

def decideTaskLeaseLifecycle (input : LifecycleDecisionInput) : LifecycleDecision :=
  let command := input.command
  if input.lease.any DecisionLease.invalid then lifecycleResult .rejected .invalidLeaseSnapshot
  else if command.operation ≠ .release ∧ input.handoffMode = .softClaim then
    lifecycleResult .rejected .handoffModeForbidsLease
  else
    match command.expectedVersion with
    | none => lifecycleResult .rejected .versionRequired
    | some expected =>
      match lifecycleAdmission host input with
      | some code => lifecycleResult .rejected code
      | none =>
        if actualVersion input.lease ≠ expected then lifecycleResult .conflict .versionMismatch
        else if command.operation = .release then
          decideRelease command (input.lease.filter DecisionLease.present)
        else decideExtension input

/-- Release keeps the generation as evidence. -/
def releasedTaskLeaseRecord (lease : LeaseRecord) (now : Nat) : LeaseRecord :=
  { lease with
    leaseEpoch := some (leaseEpoch (some lease)), status := .released,
    releasedAt := some (utcIsoformat now), updatedAt := utcIsoformat now }

def materializeTaskLeaseLifecycle (lease : LeaseRecord) (command : LifecycleCommand)
    (next : DecisionLease) (now : Nat) : LeaseRecord :=
  match command.operation with
  | .release => releasedTaskLeaseRecord lease now
  | .transfer =>
    { lease with
      owner := next.owner.getD lease.owner
      idempotencyKey := next.idempotencyKey.getD lease.idempotencyKey
      leaseEpoch := some next.leaseEpoch, version := some next.version
      updatedAt := utcIsoformat now
      expiresAt := some (utcIsoformat (now + command.ttlSeconds.getD 0 * 1000)) }
  | .renew =>
    { lease with
      version := some next.version, updatedAt := utcIsoformat now
      expiresAt := some (utcIsoformat (now + command.ttlSeconds.getD 0 * 1000)) }

variable {host}

/-- What an applied acquisition has established. -/
structure Admitted (host : HostText) (input : AcquireDecisionInput) (decision : AcquireDecision)
    (next : DecisionLease) : Prop where
  nextLease : decision.nextLease = some next
  version : next.version = actualVersion input.lease + 1
  epoch : next.leaseEpoch = (input.lease.map DecisionLease.leaseEpoch).getD 0 + 1
  repository : next.writeRepository = input.todo.bind TodoFact.taskRepository
  workspace : next.writeWorkspace = input.command.writeWorkspace
  freshKey : ∀ lease, input.lease = some lease → lease.present = true →
    lease.idempotencyKey ≠ some input.command.idempotencyKey
  clear : ∀ (i : Nat) (other : OtherLease), input.otherLeases[i]? = some other →
    other.active = true → other.effective = true →
    scopesReach host (input.todo.bind TodoFact.taskRepository) input.command.writeWorkspace
      input.command.writeScopes other = true →
    i ∈ decision.overlapAdvisoryIndexes

private theorem admitScopes_admitted {input : AcquireDecisionInput}
    (freshKey : ∀ lease, input.lease = some lease → lease.present = true →
      lease.idempotencyKey ≠ some input.command.idempotencyKey)
    (h : (admitScopes host input).outcome = .apply) :
    ∃ next, Admitted host input (admitScopes host input) next := by
  unfold admitScopes at h ⊢
  simp only at h ⊢
  split at h
  · simp [acquireDecisionResult] at h
  rename_i hworkspace
  rw [if_neg hworkspace]
  split at h
  · simp at h
  rename_i hclear
  rw [if_neg hclear]
  split at h
  · simp [acquireDecisionResult] at h
  rename_i hgeneration
  rw [if_neg hgeneration]
  refine ⟨_, rfl, rfl, rfl, rfl, rfl, freshKey, ?_⟩
  intro i other hother hactive heffective hreach
  simp only [List.mem_map]
  refine ⟨(other, i), ?_, rfl⟩
  unfold overlapIndexes
  rw [List.mem_filter]
  exact ⟨List.mem_zipIdx_iff_getElem?.mpr hother, by simp [hactive, heffective, hreach]⟩

/-- An applied acquisition is a fresh generation that no overlapping lease stands against. -/
theorem admitted_of_apply {input : AcquireDecisionInput}
    (h : (decideTaskLeaseAcquire host input).outcome = .apply) :
    ∃ next, Admitted host input (decideTaskLeaseAcquire host input) next := by
  unfold decideTaskLeaseAcquire at h ⊢
  simp only at h ⊢
  split at h
  · simp [acquireDecisionResult] at h
  rename_i hvalid
  rw [if_neg hvalid]
  split at h
  · simp [acquireDecisionResult] at h
  rename_i hmode
  rw [if_neg hmode]
  split at h
  · simp [acquireDecisionResult] at h
  split at h
  · simp [acquireDecisionResult] at h
  split at h
  · simp [acquireDecisionResult] at h
  rename_i hversion
  rw [if_neg hversion]
  cases hlease : input.lease.filter DecisionLease.present with
  | none =>
    simp only [hlease] at h ⊢
    refine admitScopes_admitted ?_ h
    intro lease hinput hpresent
    simp [hinput, Option.filter, hpresent] at hlease
  | some lease =>
    simp only [hlease] at h ⊢
    obtain ⟨hinput, -⟩ := Option.filter_eq_some_iff.mp hlease
    split at h
    · -- a held lease answers with a replay, a refusal or a conflict, never with a grant
      unfold answerHeld at h
      simp only at h
      split at h
      · simp [acquireDecisionResult] at h
      · split at h
        · split at h <;> simp [acquireDecisionResult] at h
        · simp [acquireDecisionResult] at h
    rename_i hheld
    rw [if_neg hheld]
    split at h
    · simp [acquireDecisionResult] at h
    rename_i hkey
    rw [if_neg hkey]
    refine admitScopes_admitted ?_ h
    intro lease' hinput' hpresent
    rw [hinput] at hinput'
    obtain rfl := Option.some.inj hinput'
    exact hkey

/-- Everything that a lifecycle decision can be. -/
inductive LifecycleVerdict (input : LifecycleDecisionInput) : LifecycleDecision → Prop where
  | refused {decision : LifecycleDecision}
      (outcome : decision.outcome = .rejected ∨ decision.outcome = .conflict) :
      LifecycleVerdict input decision
  | missing {decision : LifecycleDecision} (operation : input.command.operation = .release)
      (absent : input.lease.filter DecisionLease.present = none)
      (outcome : decision.outcome = .noChange) : LifecycleVerdict input decision
  | replayed {lease : DecisionLease} {decision : LifecycleDecision}
      (operation : input.command.operation = .release) (current : input.lease = some lease)
      (present : lease.present = true) (held : lease.heldBy input.command = true)
      (version : input.command.expectedVersion = some lease.version)
      (status : lease.status = some .released) (outcome : decision.outcome = .noChange)
      (code : decision.code = .leaseReleaseReplay) : LifecycleVerdict input decision
  | released {lease : DecisionLease} {decision : LifecycleDecision}
      (operation : input.command.operation = .release) (current : input.lease = some lease)
      (held : lease.heldBy input.command = true)
      (version : input.command.expectedVersion = some lease.version)
      (status : lease.status ≠ some .released) (outcome : decision.outcome = .apply)
      (next : decision.nextLease = some { lease with active := false, status := some .released }) :
      LifecycleVerdict input decision
  | renewed {lease : DecisionLease} {decision : LifecycleDecision}
      (operation : input.command.operation = .renew) (current : input.lease = some lease)
      (active : lease.active = true) (held : lease.heldBy input.command = true)
      (version : input.command.expectedVersion = some lease.version)
      (outcome : decision.outcome = .apply)
      (next : decision.nextLease = some { lease with version := lease.version + 1 }) :
      LifecycleVerdict input decision
  | transferred {lease : DecisionLease} {decision : LifecycleDecision} {newOwner newKey : String}
      (operation : input.command.operation = .transfer) (current : input.lease = some lease)
      (active : lease.active = true) (held : lease.heldBy input.command = true)
      (version : input.command.expectedVersion = some lease.version)
      (newKey_ne : newKey ≠ input.command.idempotencyKey)
      (outcome : decision.outcome = .apply)
      (next : decision.nextLease = some { lease with
        owner := some newOwner, idempotencyKey := some newKey,
        version := lease.version + 1, leaseEpoch := lease.leaseEpoch + 1 }) :
      LifecycleVerdict input decision

private theorem decideRelease_verdict {input : LifecycleDecisionInput} {expected : Nat}
    (operation : input.command.operation = .release)
    (requested : input.command.expectedVersion = some expected)
    (version : actualVersion input.lease = expected) :
    LifecycleVerdict input
      (decideRelease input.command (input.lease.filter DecisionLease.present)) := by
  cases hlease : input.lease.filter DecisionLease.present with
  | none => exact .missing operation hlease rfl
  | some lease =>
    obtain ⟨current, present⟩ := Option.filter_eq_some_iff.mp hlease
    have hversion : input.command.expectedVersion = some lease.version := by
      rw [requested, ← version, current]
      simp [actualVersion, present]
    unfold decideRelease
    simp only
    split
    · exact .refused (.inl rfl)
    rename_i held
    rw [Bool.not_eq_true, Bool.not_eq_false'] at held
    split
    · rename_i status
      exact .replayed operation current present held hversion status rfl rfl
    · rename_i status
      exact .released operation current held hversion status rfl rfl

private theorem decideExtension_verdict {input : LifecycleDecisionInput} {expected : Nat}
    (operation : input.command.operation ≠ .release)
    (requested : input.command.expectedVersion = some expected)
    (version : actualVersion input.lease = expected) :
    LifecycleVerdict input (decideExtension input) := by
  unfold decideExtension
  split
  · exact .refused (.inl rfl)
  · exact .refused (.inl rfl)
  rename_i lease _ current
  split
  · exact .refused (.inl rfl)
  rename_i hactive
  rw [Bool.or_eq_true, not_or, Bool.not_eq_true, Bool.not_eq_true, Bool.not_eq_false',
    Bool.not_eq_false'] at hactive
  split
  · exact .refused (.inl rfl)
  rename_i held
  rw [Bool.not_eq_true, Bool.not_eq_false'] at held
  have hversion : input.command.expectedVersion = some lease.version := by
    rw [requested, ← version, current]
    simp [actualVersion, hactive.1]
  split
  · rename_i htransfer
    unfold decideTransfer
    split
    · split
      · exact .refused (.inl rfl)
      rename_i hkey
      split
      · exact .refused (.inl rfl)
      · exact .transferred htransfer current hactive.2 held hversion hkey rfl rfl
    · exact .refused (.inl rfl)
  · rename_i htransfer
    have hrenew : input.command.operation = .renew := by
      cases hop : input.command.operation with
      | renew => rfl
      | transfer => exact absurd hop htransfer
      | release => exact absurd hop operation
    unfold decideRenew
    split
    · exact .refused (.inl rfl)
    · exact .renewed hrenew current hactive.2 held hversion rfl rfl

theorem lifecycleVerdict (input : LifecycleDecisionInput) :
    LifecycleVerdict input (decideTaskLeaseLifecycle host input) := by
  unfold decideTaskLeaseLifecycle
  simp only
  split
  · exact .refused (.inl rfl)
  split
  · exact .refused (.inl rfl)
  split
  · exact .refused (.inl rfl)
  rename_i requested
  split
  · exact .refused (.inl rfl)
  split
  · exact .refused (.inr rfl)
  rename_i version
  rw [not_not] at version
  split
  · rename_i operation
    exact decideRelease_verdict operation requested version
  · rename_i operation
    exact decideExtension_verdict operation requested version

end Loopx.Lease
