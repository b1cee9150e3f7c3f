/- GID: Loopx/Lease/Generations
   generality: I
   source: loopx/control_plane/coordination/task_lease_acquire.ts,
     loopx/control_plane/coordination/task_lease_lifecycle.ts
   digest: Lease versions and epochs over whole runs, and the fence against retired proofs. -/

import Loopx.Lease.Exclusion
import Loopx.Lease.TerminalFence

set_option autoImplicit false
set_option relaxedAutoImplicit false

namespace Loopx.Lease

open Loopx.Lib.KeyedList
open Loopx.Lib.Fallible (bind_eq_ok)

/-- The owner, key and version that a caller proves its execution with. -/
structure LeaseProof where
  owner : String
  idempotencyKey : String
  expectedVersion : Nat
  deriving DecidableEq, Repr

def LeaseRecord.proof (lease : LeaseRecord) : LeaseProof where
  owner := lease.owner
  idempotencyKey := lease.idempotencyKey
  expectedVersion := leaseVersion (some lease)

def State.lease (s : State) (todoId : String) : Option LeaseRecord := s.head.leases.lookup todoId

/-- The execution that a lease stands for. -/
def execution (lease : Option LeaseRecord) : Option (String × String) :=
  lease.map (fun lease => (lease.owner, lease.idempotencyKey))

/-- The proof names the current, unreleased lease of the Todo. -/
def State.Holds (s : State) (todoId : String) (proof : LeaseProof) : Prop :=
  ∃ lease, s.lease todoId = some lease ∧ lease.status = .active ∧ lease.proof = proof

/-- What one step of a run can do to the lease of one Todo. -/
inductive Succeeds (before : Option LeaseRecord) : Option LeaseRecord → Prop where
  | same : Succeeds before before
  | granted {next : LeaseRecord} (version : leaseVersion (some next) = leaseVersion before + 1)
      (epoch : leaseEpoch (some next) = leaseEpoch before + 1)
      (freshKey : ∀ lease, before = some lease → next.idempotencyKey ≠ lease.idempotencyKey) :
      Succeeds before (some next)
  | renewed {lease next : LeaseRecord} (current : before = some lease)
      (version : leaseVersion (some next) = leaseVersion before + 1)
      (epoch : leaseEpoch (some next) = leaseEpoch before)
      (owner : next.owner = lease.owner) (key : next.idempotencyKey = lease.idempotencyKey) :
      Succeeds before (some next)
  | released {lease next : LeaseRecord} (current : before = some lease)
      (version : leaseVersion (some next) = leaseVersion before)
      (epoch : leaseEpoch (some next) = leaseEpoch before)
      (owner : next.owner = lease.owner) (key : next.idempotencyKey = lease.idempotencyKey)
      (status : next.status = .released) : Succeeds before (some next)

variable {host : HostText} {guards : WorkGuards} {s : State}

theorem LeaseChange.succeeds {now : Nat} {lease next : LeaseRecord}
    {operation : LifecycleOperation} (h : LeaseChange now lease operation next) :
    Succeeds (some lease) (some next) := by
  cases h with
  | released _ => exact .released rfl rfl rfl rfl rfl rfl
  | renewed _ => exact .renewed rfl rfl rfl rfl rfl
  | transferred _ newKey_ne =>
    refine .granted rfl rfl ?_
    intro lease' hlease
    obtain rfl := Option.some.inj hlease
    exact newKey_ne

/-- An admitted acquisition is the next version and the next epoch, under a key of its own. -/
private theorem acquire_generation {input : AcquireInput} {facts : AcquireDecisionInput}
    {next : DecisionLease} (observed : canonicalTaskLeaseAcquireFacts s.head input = .ok facts)
    (admitted : Admitted host facts (decideTaskLeaseAcquire host facts) next) :
    next.version = leaseVersion (s.lease input.todoId) + 1 ∧
      next.leaseEpoch = leaseEpoch (s.lease input.todoId) + 1 ∧
      ∀ lease, s.lease input.todoId = some lease →
        input.idempotencyKey ≠ lease.idempotencyKey := by
  unfold canonicalTaskLeaseAcquireFacts at observed
  obtain ⟨current, hcurrent, observed⟩ := bind_eq_ok.mp observed
  obtain ⟨others, -, observed⟩ := bind_eq_ok.mp observed
  obtain rfl := Except.ok.inj observed
  have hversion := admitted.version
  have hepoch := admitted.epoch
  have hfresh := admitted.freshKey
  unfold State.lease
  cases hlease : s.head.leases.lookup input.todoId with
  | none =>
    rw [hlease] at hcurrent
    obtain rfl := Except.ok.inj hcurrent
    exact ⟨hversion, hepoch, by simp⟩
  | some lease =>
    rw [hlease] at hcurrent
    obtain ⟨active, -, hcurrent⟩ := bind_eq_ok.mp hcurrent
    obtain rfl := Except.ok.inj hcurrent
    refine ⟨hversion, hepoch, ?_⟩
    intro lease' heq hkey
    obtain rfl := Option.some.inj heq
    exact hfresh _ rfl rfl (congrArg some hkey.symm)

theorem executeAcquire_succeeds (input : AcquireInput) (todoId : String) :
    Succeeds (s.lease todoId) ((executeAcquire host guards s input).1.lease todoId) := by
  have effect := @executeAcquire_effect host guards s input
  generalize executeAcquire host guards s input = result at effect
  unfold State.lease
  cases effect with
  | unchanged head _ =>
    simp only [head]
    exact .same
  | @applied s' facts next observed admitted head =>
    simp only [head, State.withLease, lookup_setKey]
    by_cases htodo : todoId = input.todoId
    · subst htodo
      rw [if_pos rfl]
      obtain ⟨version, epoch, freshKey⟩ := acquire_generation observed admitted
      exact .granted version epoch freshKey
    · rw [if_neg htodo]
      exact .same

theorem executeLifecycle_succeeds (input : LifecycleInput) (todoId : String) :
    Succeeds (s.lease todoId) ((executeLifecycle host guards s input).1.lease todoId) := by
  have effect := @executeLifecycle_effect host guards s input
  generalize executeLifecycle host guards s input = result at effect
  unfold State.lease
  cases effect with
  | unchanged head _ =>
    simp only [head]
    exact .same
  | @applied s' lease next current change leases =>
    simp only [leases, lookup_setKey]
    by_cases htodo : todoId = input.todoId
    · subst htodo
      rw [if_pos rfl, current]
      exact change.succeeds
    · rw [if_neg htodo]
      exact .same

theorem step_succeeds (s : State) (event : Event) (todoId : String) :
    Succeeds (s.lease todoId) ((step host s event).lease todoId) := by
  cases event with
  | acquire guards input => exact executeAcquire_succeeds input todoId
  | lifecycle guards input => exact executeLifecycle_succeeds input todoId
  | facts handoffMode todos => exact .same

/-- The epoch moves exactly with the execution. -/
theorem Succeeds.epoch_execution {before after : Option LeaseRecord} (h : Succeeds before after) :
    leaseEpoch before ≤ leaseEpoch after ∧
      (leaseEpoch before < leaseEpoch after ↔ execution before ≠ execution after) := by
  cases h with
  | same => simp
  | @granted next version epoch freshKey =>
    have hne : execution before ≠ execution (some next) := by
      cases before with
      | none => simp [execution]
      | some lease =>
        intro heq
        simp only [execution, Option.map_some, Option.some.injEq, Prod.mk.injEq] at heq
        exact freshKey lease rfl heq.2.symm
    constructor
    · omega
    · exact ⟨fun _ => hne, fun _ => by omega⟩
  | renewed current _ epoch owner key =>
    subst current
    simp [epoch, execution, owner, key]
  | released current _ epoch owner key _ =>
    subst current
    simp [epoch, execution, owner, key]

/-- Versions never fall; at the same version the execution is the same, and released stays so. -/
structure Follows (before after : Option LeaseRecord) : Prop where
  version_le : leaseVersion before ≤ leaseVersion after
  same_version : leaseVersion before = leaseVersion after → ∀ lease, before = some lease →
    ∃ lease', after = some lease' ∧ lease'.owner = lease.owner ∧
      lease'.idempotencyKey = lease.idempotencyKey ∧
      (lease.status = .released → lease'.status = .released)

theorem Follows.refl (lease : Option LeaseRecord) : Follows lease lease where
  version_le := Nat.le_refl _
  same_version _ lease hlease := ⟨lease, hlease, rfl, rfl, id⟩

theorem Follows.trans {before mid after : Option LeaseRecord} (h : Follows before mid)
    (h' : Follows mid after) : Follows before after where
  version_le := Nat.le_trans h.version_le h'.version_le
  same_version := by
    intro hversion lease hlease
    have hmid := h.version_le
    have hafter := h'.version_le
    obtain ⟨lease', hlease', howner, hkey, hstatus⟩ := h.same_version (by omega) lease hlease
    obtain ⟨lease'', hlease'', howner', hkey', hstatus'⟩ :=
      h'.same_version (by omega) lease' hlease'
    exact ⟨lease'', hlease'', howner'.trans howner, hkey'.trans hkey, hstatus' ∘ hstatus⟩

theorem Succeeds.follows {before after : Option LeaseRecord} (h : Succeeds before after) :
    Follows before after := by
  cases h with
  | same => exact .refl _
  | granted version _ _ => exact ⟨by omega, fun hversion => absurd hversion (by omega)⟩
  | renewed _ version _ _ _ => exact ⟨by omega, fun hversion => absurd hversion (by omega)⟩
  | @released lease next current version _ owner key status =>
    constructor
    · omega
    · intro _ lease' hlease'
      rw [current] at hlease'
      obtain rfl := Option.some.inj hlease'
      exact ⟨next, rfl, owner, key, fun _ => status⟩

theorem run_follows (s : State) (events : List Event) (todoId : String) :
    Follows (s.lease todoId) ((run host s events).lease todoId) := by
  induction events using List.reverseRecOn with
  | nil => exact .refl _
  | append_singleton events event ih =>
    rw [run_append]
    exact ih.trans (step_succeeds _ event todoId).follows

/-- The proof was superseded, transferred away or released: no later lease of the Todo carries it,
unless as a released record. -/
def Retired (lease : Option LeaseRecord) (proof : LeaseProof) : Prop :=
  ∀ record, lease = some record → record.proof = proof → record.status = .released

theorem retired_of_follows {before mid after : Option LeaseRecord} {lease : LeaseRecord}
    (hbefore : before = some lease) (h : Follows before mid)
    (lost : ∀ record, mid = some record → record.proof = lease.proof → record.status = .released)
    (h' : Follows mid after) : Retired after lease.proof := by
  intro record hrecord hproof
  have hversion : leaseVersion after = leaseVersion before := by
    rw [hrecord, hbefore]
    exact congrArg LeaseProof.expectedVersion hproof
  have hle := h.version_le
  have hle' := h'.version_le
  -- between the two equal versions nothing but a release can have happened
  obtain ⟨between, hbetween, howner, hkey, -⟩ := h.same_version (by omega) lease hbefore
  obtain ⟨record', hrecord', howner', hkey', hstatus⟩ :=
    h'.same_version (by omega) between hbetween
  rw [hrecord] at hrecord'
  obtain rfl := Option.some.inj hrecord'
  refine hstatus (lost between hbetween ?_)
  rw [← hproof]
  have hbetweenVersion : leaseVersion (some between) = leaseVersion (some record) := by
    rw [← hbetween, ← hrecord]
    omega
  simp only [LeaseRecord.proof, howner', hkey', hbetweenVersion]

/-- The lease and the proof as a lifecycle decision at `now` reads them. -/
structure PresentsProof (lease : LeaseRecord) (now : Nat) (proof : LeaseProof)
    (input : LifecycleDecisionInput) : Prop where
  lease : ∃ active, leaseIsActive lease now = .ok active ∧
    input.lease = some (lifecycleLease lease active)
  owner : input.command.owner = proof.owner
  key : input.command.idempotencyKey = proof.idempotencyKey
  version : input.command.expectedVersion = some proof.expectedVersion

/-- The lease and the proof as a terminal fence at `now` reads them. -/
structure FencesProof (lease : LeaseRecord) (now : Nat) (proof : LeaseProof)
    (request : FenceRequest) : Prop where
  lease : ∃ active, leaseIsActive lease now = .ok active ∧
    request.lease = some (decisionLease lease active)
  owner : request.actorAgentId = some proof.owner
  key : request.leaseIdempotencyKey = some proof.idempotencyKey
  version : request.leaseExpectedVersion = some proof.expectedVersion

theorem not_active_of_released {lease : LeaseRecord} {now : Nat} {active : Bool}
    (released : lease.status = .released) (h : leaseIsActive lease now = .ok active) :
    active = false := by
  unfold leaseIsActive at h
  rw [released] at h
  exact (Except.ok.inj h).symm

/-- A retired proof is refused by every lifecycle operation; only the release of a lease that
the same proof has already released answers that nothing changes. -/
theorem lifecycle_refuses_retired {lease : LeaseRecord} {now : Nat} {proof : LeaseProof}
    {input : LifecycleDecisionInput} (retired : Retired (some lease) proof)
    (h : PresentsProof lease now proof input) :
    (decideTaskLeaseLifecycle host input).outcome = .rejected ∨
    (decideTaskLeaseLifecycle host input).outcome = .conflict ∨
    (input.command.operation = .release ∧ lease.status = .released ∧
      (decideTaskLeaseLifecycle host input).outcome = .noChange ∧
      (decideTaskLeaseLifecycle host input).code = .leaseReleaseReplay) := by
  obtain ⟨active, hactive, hlease⟩ := h.lease
  -- a lease that the command names by owner, key and version is the retired one, so released
  have released_of_held : ∀ found, input.lease = some found →
      found.heldBy input.command = true → input.command.expectedVersion = some found.version →
      lease.status = .released := by
    intro found hfound held version
    rw [hlease] at hfound
    obtain rfl := Option.some.inj hfound
    simp only [DecisionLease.heldBy, lifecycleLease, decisionLease, decide_eq_true_eq,
      Option.some.injEq] at held
    rw [h.version] at version
    have hversion : leaseVersion (some lease) = proof.expectedVersion :=
      (Option.some.inj version).symm
    apply retired lease rfl
    rw [LeaseRecord.proof, held.1, held.2, h.owner, h.key, hversion]
  cases @lifecycleVerdict host input with
  | refused outcome =>
    rcases outcome with outcome | outcome
    · exact .inl outcome
    · exact .inr (.inl outcome)
  | missing _ absent _ =>
    rw [hlease] at absent
    simp [Option.filter, lifecycleLease, decisionLease] at absent
  | replayed operation current _ held version _ outcome code =>
    exact .inr (.inr ⟨operation, released_of_held _ current held version, outcome, code⟩)
  | @released found _ _ current held version status _ _ =>
    have hreleased := released_of_held found current held version
    rw [hlease] at current
    obtain rfl := Option.some.inj current
    exact absurd (congrArg some hreleased) status
  | @renewed found _ _ current hfound held version _ _ =>
    have hreleased := released_of_held found current held version
    rw [hlease] at current
    obtain rfl := Option.some.inj current
    rw [not_active_of_released hreleased hactive] at hfound
    simp [lifecycleLease, decisionLease] at hfound
  | @transferred found _ _ _ _ current hfound held version _ _ _ =>
    have hreleased := released_of_held found current held version
    rw [hlease] at current
    obtain rfl := Option.some.inj current
    rw [not_active_of_released hreleased hactive] at hfound
    simp [lifecycleLease, decisionLease] at hfound

/-- A retired proof never verifies the fence of a terminal transition. -/
theorem terminalFence_refuses_retired {lease : LeaseRecord} {now : Nat} {proof : LeaseProof}
    {request : FenceRequest} (retired : Retired (some lease) proof)
    (h : FencesProof lease now proof request) (authorityMode : Option AuthorityMode)
    (requireActive : Bool) :
    ¬ (terminalFence host request authorityMode requireActive).verified := by
  intro hverified
  obtain ⟨found, hfound, hactive, howner, hkey, hversion⟩ := terminalFence_verified hverified
  obtain ⟨active, hisActive, hlease⟩ := h.lease
  rw [hlease] at hfound
  obtain rfl := Option.some.inj hfound
  rw [h.owner] at howner
  rw [h.key] at hkey
  rw [h.version] at hversion
  have hversion' : leaseVersion (some lease) = proof.expectedVersion :=
    (Option.some.inj hversion).symm
  have hreleased : lease.status = .released := by
    apply retired lease rfl
    rw [LeaseRecord.proof, Option.some.inj howner, Option.some.inj hkey, hversion']
  rw [not_active_of_released hreleased hisActive] at hactive
  simp [decisionLease] at hactive

theorem executeAcquire_version {input : AcquireInput}
    (h : (executeAcquire host guards s input).2 = .applied) :
    leaseVersion (s.lease input.todoId) <
      leaseVersion ((executeAcquire host guards s input).1.lease input.todoId) := by
  have effect := @executeAcquire_effect host guards s input
  generalize executeAcquire host guards s input = result at effect h ⊢
  cases effect with
  | unchanged _ reply_ne => exact absurd h reply_ne
  | @applied s' facts next observed admitted head =>
    have hafter : leaseVersion (s'.lease input.todoId) = next.version := by
      rw [State.lease, head]
      simp [State.withLease, lookup_setKey, leaseVersion, materializeTaskLeaseAcquire]
    have hversion := (acquire_generation observed admitted).1
    change _ < leaseVersion (s'.lease input.todoId)
    omega

/-- Renewal and transfer count one version; release keeps the version and the epoch. -/
theorem executeLifecycle_version {input : LifecycleInput}
    (h : (executeLifecycle host guards s input).2 = .applied) :
    (input.operation ≠ .release → leaseVersion (s.lease input.todoId) <
      leaseVersion ((executeLifecycle host guards s input).1.lease input.todoId)) ∧
    (input.operation = .release →
      leaseVersion ((executeLifecycle host guards s input).1.lease input.todoId) =
        leaseVersion (s.lease input.todoId) ∧
      leaseEpoch ((executeLifecycle host guards s input).1.lease input.todoId) =
        leaseEpoch (s.lease input.todoId)) := by
  have effect := @executeLifecycle_effect host guards s input
  generalize executeLifecycle host guards s input = result at effect h ⊢
  cases effect with
  | unchanged _ reply_ne => exact absurd h reply_ne
  | @applied s' lease next current change leases =>
    have hafter : s'.lease input.todoId = some next := by
      rw [State.lease, leases, lookup_setKey, if_pos rfl]
    rw [hafter, State.lease, current]
    generalize input.operation = operation at change
    cases change with
    | released _ => exact ⟨fun hne => absurd rfl hne, fun _ => ⟨rfl, rfl⟩⟩
    | renewed _ => exact ⟨fun _ => Nat.lt_succ_self _, by simp⟩
    | transferred _ _ => exact ⟨fun _ => Nat.lt_succ_self _, by simp⟩

theorem run_run (s : State) (events later : List Event) :
    run host s (events ++ later) = run host (run host s events) later := by
  simp [run]

/-- Over every run: versions rise with every applied acquisition, renewal and transfer, the epoch
rises exactly when the execution changes, release keeps both, and a proof that was lost is refused
from then on by renewal, transfer and the terminal fence, and by release up to the answer that the
same proof has already released its lease. -/
theorem lease_generations_fenced (host : HostText) (s : State) (events : List Event) :
    (∀ guards input, (executeAcquire host guards (run host s events) input).2 = .applied →
      leaseVersion ((run host s events).lease input.todoId) <
        leaseVersion ((run host s (events ++ [.acquire guards input])).lease input.todoId)) ∧
    (∀ guards input, (executeLifecycle host guards (run host s events) input).2 = .applied →
      (input.operation ≠ .release → leaseVersion ((run host s events).lease input.todoId) <
        leaseVersion ((run host s (events ++ [.lifecycle guards input])).lease input.todoId)) ∧
      (input.operation = .release →
        leaseVersion ((run host s (events ++ [.lifecycle guards input])).lease input.todoId) =
          leaseVersion ((run host s events).lease input.todoId) ∧
        leaseEpoch ((run host s (events ++ [.lifecycle guards input])).lease input.todoId) =
          leaseEpoch ((run host s events).lease input.todoId))) ∧
    (∀ event todoId,
      leaseEpoch ((run host s events).lease todoId) ≤
        leaseEpoch ((run host s (events ++ [event])).lease todoId) ∧
      (leaseEpoch ((run host s events).lease todoId) <
          leaseEpoch ((run host s (events ++ [event])).lease todoId) ↔
        execution ((run host s events).lease todoId) ≠
          execution ((run host s (events ++ [event])).lease todoId))) ∧
    (∀ later latest todoId proof, (run host s events).Holds todoId proof →
      ¬ (run host s (events ++ later)).Holds todoId proof →
      ∀ lease now, (run host s (events ++ later ++ latest)).lease todoId = some lease →
        (∀ input, PresentsProof lease now proof input →
          (decideTaskLeaseLifecycle host input).outcome = .rejected ∨
          (decideTaskLeaseLifecycle host input).outcome = .conflict ∨
          (input.command.operation = .release ∧ lease.status = .released ∧
            (decideTaskLeaseLifecycle host input).outcome = .noChange ∧
            (decideTaskLeaseLifecycle host input).code = .leaseReleaseReplay)) ∧
        (∀ request authorityMode requireActive, FencesProof lease now proof request →
          ¬ (terminalFence host request authorityMode requireActive).verified)) := by
  refine ⟨?_, ?_, ?_, ?_⟩
  · intro guards input happlied
    rw [run_append]
    exact executeAcquire_version happlied
  · intro guards input happlied
    rw [run_append]
    exact executeLifecycle_version happlied
  · intro event todoId
    rw [run_append]
    exact (step_succeeds _ event todoId).epoch_execution
  · intro later latest todoId proof hholds hlost lease now hlease
    obtain ⟨held, hheld, -, rfl⟩ := hholds
    have hretired : Retired (some lease) held.proof := by
      rw [← hlease, run_run]
      refine retired_of_follows hheld ?_ ?_ (run_follows _ latest todoId)
      · rw [run_run]
        exact run_follows _ later todoId
      · intro record hrecord hproof
        cases hstatus : record.status with
        | active => exact absurd ⟨record, hrecord, hstatus, hproof⟩ hlost
        | released => rfl
    constructor
    · intro input hpresents
      exact lifecycle_refuses_retired hretired hpresents
    · intro request authorityMode requireActive hfences
      exact terminalFence_refuses_retired hretired hfences authorityMode requireActive

/-- `a` presents its first proof to a lifecycle operation. -/
def firstProofCommand (operation : LifecycleOperation) : LifecycleCommand where
  operation := operation
  owner := "a"
  idempotencyKey := "k1"
  expectedVersion := some 1
  ttlSeconds := none
  newOwner := none
  newIdempotencyKey := none

def firstProofRelease : Event :=
  .lifecycle ⟨none, none, none⟩
    { toLifecycleCommand := firstProofCommand .release, todoId := "todo_a", transferClaim := false
      registeredAgents := ["a"], now := 1000 }

def firstGrant : List Event := [srcRequest "todo_a" "a" "k1" ["a"] 0]

/-- The decision that the same proof meets after its release. -/
def afterRelease (operation : LifecycleOperation) : LifecycleDecisionInput where
  handoffMode := .hardLease
  registeredAgents := ["a"]
  todo := none
  lease := some (lifecycleLease (releasedTaskLeaseRecord (srcLease "a" "k1" 0) 1000) false)
  command := firstProofCommand operation

/-- A released proof still passes the fence of release, which answers that nothing changes. -/
theorem released_proof_passes_release_again :
    (run asciiText twoOpenTodos firstGrant).lease "todo_a" = some (srcLease "a" "k1" 0) ∧
    (run asciiText twoOpenTodos (firstGrant ++ [firstProofRelease])).lease "todo_a" =
      some (releasedTaskLeaseRecord (srcLease "a" "k1" 0) 1000) ∧
    leaseIsActive (releasedTaskLeaseRecord (srcLease "a" "k1" 0) 1000) 2000 = .ok false ∧
    (decideTaskLeaseLifecycle asciiText (afterRelease .release)).outcome = .noChange := by
  decide

theorem lease_generations_fenced_after_release :
    (decideTaskLeaseLifecycle asciiText (afterRelease .renew)).outcome = .rejected ∨
    (decideTaskLeaseLifecycle asciiText (afterRelease .renew)).outcome = .conflict ∨
    ((afterRelease .renew).command.operation = .release ∧
      (releasedTaskLeaseRecord (srcLease "a" "k1" 0) 1000).status = .released ∧
      (decideTaskLeaseLifecycle asciiText (afterRelease .renew)).outcome = .noChange ∧
      (decideTaskLeaseLifecycle asciiText (afterRelease .renew)).code = .leaseReleaseReplay) := by
  have hbefore : (run asciiText twoOpenTodos firstGrant).lease "todo_a" =
      some (srcLease "a" "k1" 0) := by decide
  have hafter : (run asciiText twoOpenTodos (firstGrant ++ [firstProofRelease])).lease "todo_a" =
      some (releasedTaskLeaseRecord (srcLease "a" "k1" 0) 1000) := by decide
  have hlost : ¬ (run asciiText twoOpenTodos (firstGrant ++ [firstProofRelease])).Holds "todo_a"
      (srcLease "a" "k1" 0).proof := by
    rintro ⟨lease, hlease, hstatus, -⟩
    rw [hafter] at hlease
    obtain rfl := Option.some.inj hlease
    simp [releasedTaskLeaseRecord] at hstatus
  refine ((lease_generations_fenced asciiText twoOpenTodos firstGrant).2.2.2 [firstProofRelease] []
    "todo_a" (srcLease "a" "k1" 0).proof ⟨_, hbefore, rfl, rfl⟩ hlost
    (releasedTaskLeaseRecord (srcLease "a" "k1" 0) 1000) 2000 hafter).1 _ ?_
  exact ⟨⟨false, rfl, rfl⟩, rfl, rfl, rfl⟩

end Loopx.Lease
