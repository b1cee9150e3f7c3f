/- GID: Loopx/Lease/Commands
   generality: I
   source: loopx/control_plane/coordination/task_lease_state.ts,
     loopx/control_plane/coordination/task_lease_acquire.ts,
     loopx/control_plane/coordination/task_lease_lifecycle.ts,
     loopx/control_plane/coordination/lease_claim_transfer.ts
   digest: The canonical lease commands as steps on the coordination head and its receipts. -/

import Loopx.Lib.Fallible
import Loopx.Lease.Decision

set_option autoImplicit false
set_option relaxedAutoImplicit false

namespace Loopx.Lease

open Loopx.Lib.KeyedList
open Loopx.Lib.Fallible (bind_eq_ok)

/-- The fields of a Todo record that the lease commands read. -/
structure TodoRecord where
  todoId : String
  archiveState : String
  status : String
  role : String
  taskClass : Option String
  taskRepository : Option String
  claimedBy : Option String
  boundAgent : Option String
  blocksAgent : Option String
  excludedAgents : List String
  removedContinuationPolicy : Option String
  deriving DecidableEq, Repr

/-- The coordination head as far as leases go. -/
structure Head where
  handoffMode : HandoffMode
  todos : List (String × TodoRecord)
  leases : List (String × LeaseRecord)

/-- An archived Todo is no Todo for leases. -/
def canonicalLeaseTodoFact (todo : Option TodoRecord) : Option TodoFact :=
  match todo with
  | none => none
  | some todo =>
    if todo.archiveState ≠ "active" then none
    else some
      { todoId := todo.todoId, status := todo.status, taskClass := todo.taskClass
        claimedBy := todo.claimedBy, excludedAgents := todo.excludedAgents
        taskRepository := todo.taskRepository }

def Head.todoFact (head : Head) (todoId : String) : Option TodoFact :=
  canonicalLeaseTodoFact (head.todos.lookup todoId)

/-- The holder may still execute its Todo. -/
def Head.eligible (head : Head) (registered : List String) (todoId owner : String) : Bool :=
  decide (leaseOwnerRejection (head.todoFact todoId) (some owner) registered = none)

def decisionLease (lease : LeaseRecord) (active : Bool) : DecisionLease where
  present := true
  active := active
  status := some lease.status
  owner := some lease.owner
  idempotencyKey := some lease.idempotencyKey
  version := leaseVersion (some lease)
  leaseEpoch := leaseEpoch (some lease)
  writeScopes := lease.writeScopes
  writeRepository := lease.writeRepository
  writeWorkspace := lease.writeWorkspace
  acquireTtlSeconds := lease.acquireTtlSeconds

/-- The lifecycle decision reads neither the workspace nor the requested time to live. -/
def lifecycleLease (lease : LeaseRecord) (active : Bool) : DecisionLease :=
  { decisionLease lease active with writeWorkspace := none, acquireTtlSeconds := none }

def otherLease (head : Head) (registered : List String) (now : Nat)
    (entry : String × LeaseRecord) : Except LeaseError OtherLease := do
  let active ← leaseIsActive entry.2 now
  .ok
    { todoId := entry.1, owner := entry.2.owner, active
      effective := active && head.eligible registered entry.1 entry.2.owner
      writeScopes := comparisonWriteScopes entry.2.writeScopes
      writeRepository := entry.2.writeRepository, writeWorkspace := entry.2.writeWorkspace }

def currentLease (lease : Option LeaseRecord) (now : Nat)
    (view : LeaseRecord → Bool → DecisionLease) : Except LeaseError (Option DecisionLease) :=
  match lease with
  | none => .ok none
  | some lease => do
    let active ← leaseIsActive lease now
    .ok (some (view lease active))

structure AcquireInput extends AcquireCommand where
  todoId : String
  registeredAgents : List String
  now : Nat

/-- Every retained lease is paired with its current Todo. -/
def canonicalTaskLeaseAcquireFacts (head : Head) (input : AcquireInput) :
    Except LeaseError AcquireDecisionInput := do
  let lease ← currentLease (head.leases.lookup input.todoId) input.now decisionLease
  let otherLeases ← (head.leases.filter (fun entry => decide (entry.1 ≠ input.todoId))).mapM
    (otherLease head input.registeredAgents input.now)
  .ok
    { handoffMode := head.handoffMode, registeredAgents := input.registeredAgents
      todo := head.todoFact input.todoId, lease, otherLeases
      command := input.toAcquireCommand }

/-- What a receipt's operation id is a digest of. -/
inductive OperationIdentity where
  | acquire (todoId owner idempotencyKey : String)
  | lifecycle (operation : LifecycleOperation) (todoId owner idempotencyKey : String)
      (expectedVersion : Nat)
  deriving DecidableEq, Repr

/-- What a receipt's request digest is taken of, besides the identity. -/
inductive OperationRequest where
  | acquire (expectedVersion : Option Nat) (writeWorkspace : Option LeaseWorkspace)
      (ttlSeconds : Nat) (writeScopes : List String)
  | lifecycle (ttlSeconds : Option Nat) (newOwner newIdempotencyKey : Option String)
      (transferClaim : Bool)
  deriving DecidableEq, Repr

structure State where
  head : Head
  receipts : List (OperationIdentity × OperationRequest)

inductive Reply where
  /-- A retained receipt answers, or names another request under the same operation. -/
  | receipt (matching : Bool)
  | failed (code : LeaseCode)
  | refused (reason : String)
  | corrupt (error : LeaseError)
  | noChange (code : LeaseCode)
  | applied
  deriving DecidableEq, Repr

/-- What the objective, acceptance and dependency guards say about the observed head. -/
structure WorkGuards where
  objective : Option String
  acceptance : Option String
  dependency : Option String

def AcquireInput.identity (input : AcquireInput) : OperationIdentity :=
  .acquire input.todoId input.owner input.idempotencyKey

def AcquireInput.request (input : AcquireInput) : OperationRequest :=
  .acquire input.expectedVersion input.writeWorkspace input.ttlSeconds
    (Json.sortKeys input.writeScopes)

def State.withLease (s : State) (todoId : String) (lease : LeaseRecord) : State :=
  { s with head := { s.head with leases := setKey s.head.leases todoId lease } }

def State.withReceipt (s : State) (identity : OperationIdentity) (request : OperationRequest) :
    State :=
  { s with receipts := s.receipts ++ [(identity, request)] }

/-- The first guard that speaks against a decided acquisition. -/
def WorkGuards.rejectAcquire (guards : WorkGuards) (outcome : Outcome) : Option String :=
  ((if outcome = .apply then guards.objective else none).or guards.acceptance).or guards.dependency

/-- `executeCanonicalTaskLeaseAcquire`: the command observes one head and commits against it. -/
def executeAcquire (host : HostText) (guards : WorkGuards) (s : State) (input : AcquireInput) :
    State × Reply :=
  match s.receipts.lookup input.identity with
  | some request => (s, .receipt (decide (request = input.request)))
  | none =>
    match canonicalTaskLeaseAcquireFacts s.head input with
    | .error error => (s, .corrupt error)
    | .ok facts =>
      let decision := decideTaskLeaseAcquire host facts
      match decision.outcome with
      | .rejected | .conflict => (s, .failed decision.code)
      | outcome =>
        match guards.rejectAcquire outcome with
        | some reason => (s, .refused reason)
        | none =>
          match outcome, decision.nextLease with
          | .apply, some next =>
            let lease := materializeTaskLeaseAcquire input.toAcquireCommand next input.now
            ((s.withLease input.todoId lease).withReceipt input.identity input.request, .applied)
          | _, _ => (s.withReceipt input.identity input.request, .noChange decision.code)

structure LifecycleInput extends LifecycleCommand where
  todoId : String
  transferClaim : Bool
  registeredAgents : List String
  now : Nat

/-- The command layer refuses a lifecycle request without a version. -/
def LifecycleInput.identity (input : LifecycleInput) (expectedVersion : Nat) :
    OperationIdentity :=
  .lifecycle input.operation input.todoId input.owner input.idempotencyKey expectedVersion

def LifecycleInput.request (input : LifecycleInput) : OperationRequest :=
  .lifecycle input.ttlSeconds input.newOwner input.newIdempotencyKey input.transferClaim

/-- A registered actor that the Todo is neither closed to nor reserved from. -/
def registeredTodoMutationRejection (todo : TodoRecord) (actor : Option String)
    (registered : List String) : Option String :=
  match actor with
  | none => some "actor_required"
  | some actor =>
    if actor ∉ registered then some "actor_not_registered"
    else if actor ∈ todo.excludedAgents then some "actor_excluded"
    else if (todo.boundAgent.or (if todo.role = "user" then todo.blocksAgent else none)).any
        (fun bound => decide (bound ≠ actor)) then some "bound_agent_mismatch"
    else if todo.claimedBy.any (fun claim => decide (claim ≠ actor)) then
      some "claim_owner_mismatch"
    else none

/-- The Todo half of a lease transfer: the Todo as it is or with its claim moved. -/
def planLeaseClaimTransfer (head : Head) (input : LifecycleInput) :
    Except String (Option TodoRecord × Bool) :=
  let todo := head.todos.lookup input.todoId
  if !input.transferClaim then .ok (todo, false)
  else if head.handoffMode ≠ .hardLease then .error "claim_transfer_requires_hard_lease"
  else
    match todo with
    | none => .error "claim_transfer_requires_open_agent_todo"
    | some todo =>
      if todo.archiveState ≠ "active" ∨ todo.status ≠ "open" ∨ todo.role ≠ "agent" then
        .error "claim_transfer_requires_open_agent_todo"
      else if todo.claimedBy ≠ some input.owner then .error "claim_transfer_owner_mismatch"
      else if todo.removedContinuationPolicy.any (fun policy => decide (policy ≠ "")) then
        .error "removed_continuation_policy"
      else
        let next := { todo with claimedBy := input.newOwner }
        match registeredTodoMutationRejection todo (some input.owner) input.registeredAgents,
            registeredTodoMutationRejection next input.newOwner input.registeredAgents with
        | some code, _ => .error code
        | none, some code => .error code
        | none, none =>
          if input.newOwner = some input.owner then .ok (some todo, false)
          else .ok (some next, true)

def State.withTodo (s : State) (todoId : String) (todo : TodoRecord) : State :=
  { s with head := { s.head with todos := setKey s.head.todos todoId todo } }

/-- The head after an applied lifecycle decision: the lease, and the Todo when its claim moves. -/
def State.withLifecycle (s : State) (input : LifecycleInput) (lease : LeaseRecord)
    (claim : Option TodoRecord × Bool) : State :=
  match claim with
  | (some todo, true) => (s.withLease input.todoId lease).withTodo input.todoId todo
  | _ => s.withLease input.todoId lease

/-- `executeCanonicalTaskLeaseLifecycle`. -/
def executeLifecycle (host : HostText) (guards : WorkGuards) (s : State)
    (input : LifecycleInput) : State × Reply :=
  match input.expectedVersion with
  | none => (s, .failed .versionRequired)
  | some expectedVersion =>
  match s.receipts.lookup (input.identity expectedVersion) with
  | some request => (s, .receipt (decide (request = input.request)))
  | none =>
    match planLeaseClaimTransfer s.head input with
    | .error reason => (s, .refused reason)
    | .ok claim =>
      let lease := s.head.leases.lookup input.todoId
      match currentLease lease input.now lifecycleLease with
      | .error error => (s, .corrupt error)
      | .ok current =>
        let decision := decideTaskLeaseLifecycle host
          { handoffMode := s.head.handoffMode, registeredAgents := input.registeredAgents
            todo := canonicalLeaseTodoFact claim.1, lease := current
            command := input.toLifecycleCommand }
        match decision.outcome with
        | .rejected | .conflict => (s, .failed decision.code)
        | outcome =>
          match if input.operation = .release then none else guards.dependency with
          | some reason => (s, .refused reason)
          | none =>
            match outcome, lease, decision.nextLease with
            | .apply, some lease, some next =>
              let record :=
                materializeTaskLeaseLifecycle lease input.toLifecycleCommand next input.now
              ((s.withLifecycle input record claim).withReceipt (input.identity expectedVersion)
                input.request, .applied)
            | _, _, _ =>
              (s.withReceipt (input.identity expectedVersion) input.request,
                .noChange decision.code)

variable {host : HostText} {guards : WorkGuards} {s : State}

/-- What a lifecycle operation does to the record that it finds. -/
inductive LeaseChange (now : Nat) (lease : LeaseRecord) : LifecycleOperation → LeaseRecord → Prop
  | released (status : lease.status = .active) :
      LeaseChange now lease .release (releasedTaskLeaseRecord lease now)
  | renewed {ttl : Nat} (active : leaseIsActive lease now = .ok true) :
      LeaseChange now lease .renew { lease with
        version := some (leaseVersion (some lease) + 1), updatedAt := utcIsoformat now
        expiresAt := some (utcIsoformat (now + ttl * 1000)) }
  | transferred {ttl : Nat} {newOwner newKey : String}
      (active : leaseIsActive lease now = .ok true) (newKey_ne : newKey ≠ lease.idempotencyKey) :
      LeaseChange now lease .transfer { lease with
        owner := newOwner, idempotencyKey := newKey
        leaseEpoch := some (leaseEpoch (some lease) + 1)
        version := some (leaseVersion (some lease) + 1), updatedAt := utcIsoformat now
        expiresAt := some (utcIsoformat (now + ttl * 1000)) }

/-- Everything that an acquisition can do to the head. -/
inductive AcquireEffect (host : HostText) (s : State) (input : AcquireInput) :
    State × Reply → Prop where
  | unchanged {s' : State} {reply : Reply} (head : s'.head = s.head) (reply_ne : reply ≠ .applied) :
      AcquireEffect host s input (s', reply)
  | applied {s' : State} {facts : AcquireDecisionInput} {next : DecisionLease}
      (observed : canonicalTaskLeaseAcquireFacts s.head input = .ok facts)
      (admitted : Admitted host facts (decideTaskLeaseAcquire host facts) next)
      (head : s'.head = (s.withLease input.todoId
        (materializeTaskLeaseAcquire input.toAcquireCommand next input.now)).head) :
      AcquireEffect host s input (s', .applied)

theorem executeAcquire_effect (input : AcquireInput) :
    AcquireEffect host s input (executeAcquire host guards s input) := by
  unfold executeAcquire
  split
  · exact .unchanged rfl (by simp)
  split
  · exact .unchanged rfl (by simp)
  rename_i facts observed
  simp only
  split
  · exact .unchanged rfl (by simp)
  · exact .unchanged rfl (by simp)
  split
  · exact .unchanged rfl (by simp)
  split
  · rename_i next houtcome hnext
    obtain ⟨next', admitted⟩ := admitted_of_apply houtcome
    obtain rfl : next = next' := Option.some.inj (hnext.symm.trans admitted.nextLease)
    exact .applied observed admitted rfl
  · exact .unchanged rfl (by simp)

/-- Everything that a lifecycle command can do to the leases. -/
inductive LifecycleEffect (s : State) (input : LifecycleInput) : State × Reply → Prop where
  | unchanged {s' : State} {reply : Reply} (head : s'.head = s.head) (reply_ne : reply ≠ .applied) :
      LifecycleEffect s input (s', reply)
  | applied {s' : State} {lease next : LeaseRecord}
      (current : s.head.leases.lookup input.todoId = some lease)
      (change : LeaseChange input.now lease input.operation next)
      (leases : s'.head.leases = setKey s.head.leases input.todoId next) :
      LifecycleEffect s input (s', .applied)

private theorem currentLease_eq_ok {lease : Option LeaseRecord} {now : Nat}
    {view : LeaseRecord → Bool → DecisionLease} {current : DecisionLease}
    (h : currentLease lease now view = .ok (some current)) :
    ∃ record active, lease = some record ∧ leaseIsActive record now = .ok active ∧
      current = view record active := by
  cases lease with
  | none => simp [currentLease] at h
  | some record =>
    obtain ⟨active, hactive, heq⟩ := bind_eq_ok.mp h
    exact ⟨record, active, rfl, hactive, (Option.some.inj (Except.ok.inj heq)).symm⟩

private theorem heldBy_lifecycleLease {lease : LeaseRecord} {active : Bool}
    {command : LifecycleCommand} (h : (lifecycleLease lease active).heldBy command = true) :
    lease.owner = command.owner ∧ lease.idempotencyKey = command.idempotencyKey := by
  simpa [DecisionLease.heldBy, lifecycleLease, decisionLease] using h

@[simp] theorem withLifecycle_leases (input : LifecycleInput) (lease : LeaseRecord)
    (claim : Option TodoRecord × Bool) :
    (s.withLifecycle input lease claim).head.leases =
      setKey s.head.leases input.todoId lease := by
  unfold State.withLifecycle
  split <;> rfl

/-- The record that an applied lifecycle decision leaves behind. -/
private theorem leaseChange_of_apply {input : LifecycleDecisionInput} {lease : LeaseRecord}
    {next : DecisionLease} {now : Nat}
    (current : currentLease (some lease) now lifecycleLease = .ok input.lease)
    (houtcome : (decideTaskLeaseLifecycle host input).outcome = .apply)
    (hnext : (decideTaskLeaseLifecycle host input).nextLease = some next) :
    LeaseChange now lease input.command.operation
      (materializeTaskLeaseLifecycle lease input.command next now) := by
  have verdict := @lifecycleVerdict host input
  cases verdict with
  | refused outcome => rcases outcome with h | h <;> simp [h] at houtcome
  | missing _ _ outcome => simp [outcome] at houtcome
  | replayed _ _ _ _ _ _ outcome => simp [outcome] at houtcome
  | @released found _ operation hcurrent held version status outcome hreleased =>
    rw [hcurrent] at current
    obtain ⟨record, active, hrecord, -, rfl⟩ := currentLease_eq_ok current
    obtain rfl := Option.some.inj hrecord
    simp only [operation, materializeTaskLeaseLifecycle]
    apply LeaseChange.released
    cases hstatus : lease.status with
    | active => rfl
    | released => simp [lifecycleLease, decisionLease, hstatus] at status
  | @renewed found _ operation hcurrent active held version outcome hrenewed =>
    rw [hcurrent] at current
    obtain ⟨record, active', hrecord, hactive, rfl⟩ := currentLease_eq_ok current
    obtain rfl := Option.some.inj hrecord
    obtain rfl : active' = true := active
    rw [hnext] at hrenewed
    obtain rfl := Option.some.inj hrenewed
    simp only [operation, materializeTaskLeaseLifecycle]
    exact .renewed hactive
  | @transferred found _ newOwner newKey operation hcurrent active held version newKey_ne outcome
      htransferred =>
    rw [hcurrent] at current
    obtain ⟨record, active', hrecord, hactive, rfl⟩ := currentLease_eq_ok current
    obtain rfl := Option.some.inj hrecord
    obtain rfl : active' = true := active
    rw [hnext] at htransferred
    obtain rfl := Option.some.inj htransferred
    simp only [operation, materializeTaskLeaseLifecycle]
    refine .transferred hactive ?_
    rw [(heldBy_lifecycleLease held).2]
    exact newKey_ne

theorem executeLifecycle_effect (input : LifecycleInput) :
    LifecycleEffect s input (executeLifecycle host guards s input) := by
  unfold executeLifecycle
  split
  · exact .unchanged rfl (by simp)
  split
  · exact .unchanged rfl (by simp)
  split
  · exact .unchanged rfl (by simp)
  simp only
  split
  · exact .unchanged rfl (by simp)
  rename_i current hcurrent
  split
  · exact .unchanged rfl (by simp)
  · exact .unchanged rfl (by simp)
  split
  · exact .unchanged rfl (by simp)
  split
  · rename_i lease next houtcome hlease hnext
    rw [hlease] at hcurrent
    refine .applied hlease ?_ (withLifecycle_leases input _ _)
    exact leaseChange_of_apply hcurrent houtcome hnext
  · exact .unchanged rfl (by simp)

/-- One step of a run: a command, or a change of the facts that eligibility is read from. -/
inductive Event where
  | acquire (guards : WorkGuards) (input : AcquireInput)
  | lifecycle (guards : WorkGuards) (input : LifecycleInput)
  | facts (handoffMode : HandoffMode) (todos : List (String × TodoRecord))

def Event.now : Event → Option Nat
  | .acquire _ input => some input.now
  | .lifecycle _ input => some input.now
  | .facts _ _ => none

def step (host : HostText) (s : State) : Event → State
  | .acquire guards input => (executeAcquire host guards s input).1
  | .lifecycle guards input => (executeLifecycle host guards s input).1
  | .facts handoffMode todos => { s with head := { s.head with handoffMode, todos } }

def run (host : HostText) (s : State) (events : List Event) : State := events.foldl (step host) s

/-- The instants at which the commands of a run read the clock. -/
def instants (events : List Event) : List Nat := events.filterMap Event.now

end Loopx.Lease
