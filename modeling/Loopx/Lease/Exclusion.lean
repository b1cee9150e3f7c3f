/- GID: Loopx/Lease/Exclusion
   generality: I
   source: loopx/control_plane/work_items/task_lease_acquire_decision.ts
   digest: Which leases with overlapping write scopes a run can leave side by side. -/

import Loopx.Lease.Commands

set_option autoImplicit false
set_option relaxedAutoImplicit false

namespace Loopx.Lease

open Loopx.Lib.KeyedList
open Loopx.Lib.Fallible (bind_eq_ok getElem?_of_mapM_ok)

/-- An applied acquisition with the head that it was admitted on and the Todos that it named as
integration overlaps of its own worktree. -/
structure Admission where
  head : Head
  input : AcquireInput
  advised : List String
  lease : LeaseRecord

def Admission.todoId (a : Admission) : String := a.input.todoId

def admission (host : HostText) (guards : WorkGuards) (s : State) (input : AcquireInput) :
    Option Admission :=
  match executeAcquire host guards s input, canonicalTaskLeaseAcquireFacts s.head input with
  | (s', .applied), .ok facts =>
    (s'.head.leases.lookup input.todoId).map fun lease =>
      { head := s.head, input, lease
        advised := (decideTaskLeaseAcquire host facts).overlapAdvisoryIndexes.filterMap
          (fun i => facts.otherLeases[i]?.map OtherLease.todoId) }
  | _, _ => none

/-- The acquisitions of a run in the order in which they were applied. -/
def admissions (host : HostText) : State → List Event → List Admission
  | _, [] => []
  | s, event :: events =>
    (match event with
      | .acquire guards input => (admission host guards s input).toList
      | _ => []) ++ admissions host (step host s event) events

/-- Two leases write to one repository or checkout, and their scopes overlap. -/
def leasesOverlap (host : HostText) (lease lease' : LeaseRecord) : Bool :=
  (sameLeaseCheckout lease.writeWorkspace lease'.writeWorkspace ||
      repositoryScopesMayOverlap host lease.writeRepository lease'.writeRepository) &&
    writeScopesOverlap host lease.writeScopes lease'.writeScopes

/-- The recorded scopes are read back as they were recorded. -/
def LeaseRecord.ScopesStable (lease : LeaseRecord) : Prop :=
  comparisonWriteScopes lease.writeScopes = lease.writeScopes

instance (lease : LeaseRecord) : Decidable lease.ScopesStable :=
  inferInstanceAs (Decidable (_ = _))

/-- The lease of `todoId` that was active when `a` was admitted had a holder who was not eligible
for its Todo, so that it did not stand against `a`. -/
def Admission.Bypasses (a : Admission) (todoId : String) : Prop :=
  ∃ lease, a.head.leases.lookup todoId = some lease ∧
    leaseIsActive lease a.input.now = .ok true ∧
    a.head.eligible a.input.registeredAgents todoId lease.owner = false

variable {host : HostText} {guards : WorkGuards} {s : State}

theorem run_append (s : State) (events : List Event) (event : Event) :
    run host s (events ++ [event]) = step host (run host s events) event := by
  simp [run]

theorem admissions_append (s : State) (events : List Event) (event : Event) :
    admissions host s (events ++ [event]) =
      admissions host s events ++ admissions host (run host s events) [event] := by
  induction events generalizing s with
  | nil => rfl
  | cons e events ih => simp [admissions, ih, run]

private theorem sameLeaseCheckout_comm (w w' : Option LeaseWorkspace) :
    sameLeaseCheckout w w' = sameLeaseCheckout w' w := by
  cases w <;> cases w' <;> simp [sameLeaseCheckout, eq_comm]

private theorem repositoryScopesMayOverlap_comm (r r' : Option String) :
    repositoryScopesMayOverlap host r r' = repositoryScopesMayOverlap host r' r := by
  cases r <;> cases r' <;> simp [repositoryScopesMayOverlap, sameRepository, eq_comm]

theorem leasesOverlap_comm (lease lease' : LeaseRecord) :
    leasesOverlap host lease lease' = leasesOverlap host lease' lease := by
  unfold leasesOverlap
  rw [sameLeaseCheckout_comm, repositoryScopesMayOverlap_comm, writeScopesOverlap_comm]

/-- The comparison view of a non-empty list is non-empty. -/
private theorem comparisonWriteScopes_eq_nil {scopes : List String}
    (h : comparisonWriteScopes scopes = []) : scopes = [] := by
  cases scopes with
  | nil => rfl
  | cons scope scopes =>
    unfold comparisonWriteScopes at h
    split at h
    · simp at h
    · rename_i canonical hcanonical
      rw [List.mapM_cons] at hcanonical
      cases hscope : canonicalWriteScope scope with
      | none => simp [hscope] at hcanonical
      | some first =>
        cases hscopes : scopes.mapM canonicalWriteScope with
        | none => simp [hscope, hscopes] at hcanonical
        | some rest =>
          simp [hscope, hscopes] at hcanonical
          subst hcanonical
          simp [List.eraseDups_cons] at h

/-- Scopes are compared through their comparison views. -/
private theorem writeScopesOverlap_views {scopes scopes' left right : List String}
    (hleft : comparisonWriteScopes left = comparisonWriteScopes scopes)
    (hright : comparisonWriteScopes right = comparisonWriteScopes scopes')
    (h : writeScopesOverlap host left right = true) :
    writeScopesOverlap host scopes scopes' = true := by
  unfold writeScopesOverlap at h ⊢
  split at h
  · simp at h
  rename_i hne
  rw [not_or] at hne
  rw [if_neg, ← hleft, ← hright]
  · exact h
  · rintro (rfl | rfl)
    · exact hne.1 (comparisonWriteScopes_eq_nil (hleft.trans rfl))
    · exact hne.2 (comparisonWriteScopes_eq_nil (hright.trans rfl))

/-- The same grant: neither renewal, transfer nor release changes what a lease may write. -/
def SameGrant (lease lease' : LeaseRecord) : Prop :=
  lease'.writeScopes = lease.writeScopes ∧ lease'.writeRepository = lease.writeRepository ∧
    lease'.writeWorkspace = lease.writeWorkspace

theorem LeaseChange.sameGrant {now : Nat} {lease next : LeaseRecord}
    {operation : LifecycleOperation} (h : LeaseChange now lease operation next) :
    SameGrant lease next := by
  cases h <;> exact ⟨rfl, rfl, rfl⟩

theorem SameGrant.leasesOverlap_eq {lease lease' other other' : LeaseRecord}
    (h : SameGrant lease lease') (h' : SameGrant other other') :
    leasesOverlap host lease' other' = leasesOverlap host lease other := by
  unfold leasesOverlap
  rw [h.1, h.2.1, h.2.2, h'.1, h'.2.1, h'.2.2]

theorem SameGrant.scopesStable {lease lease' : LeaseRecord} (h : SameGrant lease lease')
    (stable : lease'.ScopesStable) : lease.ScopesStable := by
  unfold LeaseRecord.ScopesStable at stable ⊢
  rwa [h.1] at stable

/-- No lease with an eligible holder stood against the admission, advisories apart. -/
structure Admission.Sound (host : HostText) (a : Admission) : Prop where
  clear : ∀ (todoId : String) (lease : LeaseRecord), todoId ≠ a.todoId →
    a.head.leases.lookup todoId = some lease → leaseIsActive lease a.input.now = .ok true →
    a.head.eligible a.input.registeredAgents todoId lease.owner = true →
    a.lease.ScopesStable → lease.ScopesStable → leasesOverlap host a.lease lease = true →
    todoId ∈ a.advised

private theorem sound_of_admitted {input : AcquireInput} {facts : AcquireDecisionInput}
    {next : DecisionLease} (observed : canonicalTaskLeaseAcquireFacts s.head input = .ok facts)
    (admitted : Admitted host facts (decideTaskLeaseAcquire host facts) next) :
    Admission.Sound host
      { head := s.head, input
        lease := materializeTaskLeaseAcquire input.toAcquireCommand next input.now
        advised := (decideTaskLeaseAcquire host facts).overlapAdvisoryIndexes.filterMap
          (fun i => facts.otherLeases[i]?.map OtherLease.todoId) } := by
  constructor
  intro todoId lease hother hlookup hactive heligible hstable hstable' hoverlap
  unfold canonicalTaskLeaseAcquireFacts at observed
  obtain ⟨current, -, observed⟩ := bind_eq_ok.mp observed
  obtain ⟨others, hothers, observed⟩ := bind_eq_ok.mp observed
  obtain rfl := Except.ok.inj observed
  -- the lease was among those that the request was compared with
  have hmem : (todoId, lease) ∈
      s.head.leases.filter (fun entry => decide (entry.1 ≠ input.todoId)) :=
    List.mem_filter.mpr ⟨mem_of_lookup hlookup, decide_eq_true hother⟩
  obtain ⟨i, hi⟩ := List.mem_iff_getElem?.mp hmem
  obtain ⟨other, hget, hother'⟩ := getElem?_of_mapM_ok hothers hi
  unfold otherLease at hother'
  simp only [hactive, heligible, Lib.Fallible.ok_bind, Bool.and_self, Except.ok.injEq] at hother'
  subst hother'
  rw [List.mem_filterMap]
  refine ⟨i, admitted.clear i _ hget rfl rfl ?_, by simp [hget]⟩
  unfold leasesOverlap at hoverlap
  unfold scopesReach
  rw [Bool.and_eq_true] at hoverlap ⊢
  constructor
  · rw [← admitted.repository, ← admitted.workspace]
    exact hoverlap.1
  · refine writeScopesOverlap_views hstable ?_ hoverlap.2
    rw [hstable', hstable']

/-- An acquisition leaves the leases alone, or it is a sound admission of its own Todo. -/
theorem admission_cases (input : AcquireInput) :
    (admission host guards s input = none ∧
      (executeAcquire host guards s input).1.head.leases = s.head.leases) ∨
    ∃ a, admission host guards s input = some a ∧ a.head = s.head ∧ a.input = input ∧
      a.Sound host ∧ (executeAcquire host guards s input).1.head.leases =
        setKey s.head.leases input.todoId a.lease := by
  have effect := @executeAcquire_effect host guards s input
  unfold admission
  generalize executeAcquire host guards s input = result at effect
  cases effect with
  | @unchanged s' reply head reply_ne =>
    left
    refine ⟨?_, by rw [head]⟩
    cases reply <;> first | rfl | exact absurd rfl reply_ne
  | @applied s' facts next observed admitted head =>
    right
    have hleases : s'.head.leases = setKey s.head.leases input.todoId
        (materializeTaskLeaseAcquire input.toAcquireCommand next input.now) := by
      rw [head]
      rfl
    refine ⟨_, ?_, rfl, rfl, sound_of_admitted observed admitted, hleases⟩
    simp only [observed, hleases, lookup_setKey, if_true, Option.map_some]

/-- The lease comes from an admission of the history, and every later admission met it while it
was active. -/
def Traced (host : HostText) (history : List Admission) (todoId : String) (lease : LeaseRecord) :
    Prop :=
  ∃ older a newer, history = older ++ a :: newer ∧ a.todoId = todoId ∧ a.Sound host ∧
    SameGrant a.lease lease ∧ ∀ b ∈ newer, b.todoId ≠ todoId ∧ b.Sound host ∧
      ∃ earlier, b.head.leases.lookup todoId = some earlier ∧
        leaseIsActive earlier b.input.now = .ok true ∧ SameGrant earlier lease

theorem SameGrant.refl (lease : LeaseRecord) : SameGrant lease lease := ⟨rfl, rfl, rfl⟩

theorem SameGrant.trans {lease lease' lease'' : LeaseRecord} (h : SameGrant lease lease')
    (h' : SameGrant lease' lease'') : SameGrant lease lease'' :=
  ⟨h'.1.trans h.1, h'.2.1.trans h.2.1, h'.2.2.trans h.2.2⟩

theorem Traced.sameGrant {history : List Admission} {todoId : String} {lease lease' : LeaseRecord}
    (h : Traced host history todoId lease) (hsame : SameGrant lease lease') :
    Traced host history todoId lease' := by
  obtain ⟨older, a, newer, rfl, htodo, hsound, hgrant, hnewer⟩ := h
  refine ⟨older, a, newer, rfl, htodo, hsound, hgrant.trans hsame, ?_⟩
  intro b hb
  obtain ⟨hne, hsound', earlier, hlookup, hactive, hgrant'⟩ := hnewer b hb
  exact ⟨hne, hsound', earlier, hlookup, hactive, hgrant'.trans hsame⟩

/-- A later admission of another Todo met the lease as it stands now. -/
theorem Traced.append {history : List Admission} {todoId : String} {lease : LeaseRecord}
    (h : Traced host history todoId lease) {b : Admission} (hne : b.todoId ≠ todoId)
    (hsound : b.Sound host) (hlookup : b.head.leases.lookup todoId = some lease)
    (hactive : leaseIsActive lease b.input.now = .ok true) :
    Traced host (history ++ [b]) todoId lease := by
  obtain ⟨older, a, newer, rfl, htodo, hsound', hgrant, hnewer⟩ := h
  refine ⟨older, a, newer ++ [b], by simp, htodo, hsound', hgrant, ?_⟩
  intro c hc
  rcases List.mem_append.mp hc with hc | hc
  · exact hnewer c hc
  · obtain rfl := List.mem_singleton.mp hc
    exact ⟨hne, hsound, lease, hlookup, hactive, SameGrant.refl lease⟩

/-- A lease that is active now was active at every earlier instant since it was recorded. -/
theorem leaseIsActive_mono {lease : LeaseRecord} {earlier now : Nat} (le : earlier ≤ now)
    (h : leaseIsActive lease now = .ok true) : leaseIsActive lease earlier = .ok true := by
  unfold leaseIsActive at h ⊢
  split at h
  · simp at h
  · simp at h
  · rename_i expires _ _
    simp only [Except.ok.injEq, decide_eq_true_eq] at h ⊢
    omega

private theorem leaseIsActive_released (lease : LeaseRecord) (instant now : Nat) :
    leaseIsActive (releasedTaskLeaseRecord lease instant) now = .ok false := rfl

/-- Every active lease of a run is traced to its admission. -/
theorem traced_run {s : State} (empty : s.head.leases = []) {events : List Event}
    (ordered : (instants events).Pairwise (· ≤ ·)) {now : Nat}
    (le : ∀ t ∈ instants events, t ≤ now) {todoId : String} {lease : LeaseRecord}
    (hlookup : (run host s events).head.leases.lookup todoId = some lease)
    (hactive : leaseIsActive lease now = .ok true) :
    Traced host (admissions host s events) todoId lease := by
  -- over the events of the run, for every later instant and every lease at once
  induction events using List.reverseRecOn generalizing now todoId lease with
  | nil => simp [run, empty] at hlookup
  | append_singleton events event ih =>
    rw [run_append] at hlookup
    rw [admissions_append]
    unfold instants at ordered le
    rw [List.filterMap_append, List.pairwise_append] at ordered
    simp only [List.filterMap_append, List.mem_append] at le
    replace ih := @ih ordered.1
    have before : ∀ t ∈ instants events, t ≤ now := fun t ht => le t (.inl ht)
    cases event with
    | facts handoffMode todos =>
      simpa [admissions] using ih before hlookup hactive
    | acquire guards input =>
      have hnow : input.now ≤ now := le _ (.inr (by simp [Event.now]))
      rcases @admission_cases host guards (run host s events) input with
        ⟨hnone, hleases⟩ | ⟨a, hsome, hhead, hinput, hsound, hleases⟩
      · simp only [step, hleases] at hlookup
        simpa [admissions, hnone] using ih before hlookup hactive
      · simp only [step, hleases, lookup_setKey] at hlookup
        simp only [admissions, hsome, Option.toList_some, List.append_nil]
        split at hlookup
        · rename_i htodo
          obtain rfl := Option.some.inj hlookup
          exact ⟨admissions host s events, a, [], rfl, by rw [Admission.todoId, hinput, htodo],
            hsound, SameGrant.refl _, by simp⟩
        · rename_i htodo
          refine (ih before hlookup hactive).append ?_ hsound ?_ ?_
          · rw [Admission.todoId, hinput]
            exact Ne.symm htodo
          · rw [hhead]
            exact hlookup
          · rw [hinput]
            exact leaseIsActive_mono hnow hactive
    | lifecycle guards input =>
      have hinput : ∀ t ∈ instants events, t ≤ input.now := by
        intro t ht
        exact ordered.2.2 t ht input.now (by simp [Event.now])
      have effect := @executeLifecycle_effect host guards (run host s events) input
      simp only [step] at hlookup
      simp only [admissions, List.append_nil]
      generalize executeLifecycle host guards (run host s events) input = result at effect hlookup
      cases effect with
      | unchanged head _ =>
        rw [head] at hlookup
        exact ih before hlookup hactive
      | @applied s' old next current change leases =>
        rw [leases, lookup_setKey] at hlookup
        split at hlookup
        · rename_i htodo
          obtain rfl := Option.some.inj hlookup
          subst htodo
          refine Traced.sameGrant ?_ change.sameGrant
          -- renewal and transfer find the lease active, and a released lease stays inactive
          cases hop : input.operation with
          | release =>
            rw [hop] at change
            cases change
            simp [leaseIsActive_released] at hactive
          | renew =>
            rw [hop] at change
            cases change with
            | renewed active => exact ih hinput current active
          | transfer =>
            rw [hop] at change
            cases change with
            | transferred active _ => exact ih hinput current active
        · exact ih before hlookup hactive

/-- The later of two admissions either named the earlier lease's Todo as an integration overlap or
met that lease with a holder who was not eligible. -/
private theorem advised_or_bypasses {b : Admission} {todoId : String}
    {lease lease' earlier : LeaseRecord} (hne : b.todoId ≠ todoId) (hsound : b.Sound host)
    (hgrant' : SameGrant b.lease lease') (hlookup : b.head.leases.lookup todoId = some earlier)
    (hactive : leaseIsActive earlier b.input.now = .ok true) (hgrant : SameGrant earlier lease)
    (stable : lease.ScopesStable) (stable' : lease'.ScopesStable)
    (overlap : leasesOverlap host lease' lease = true) :
    todoId ∈ b.advised ∨ b.Bypasses todoId := by
  by_cases heligible : b.head.eligible b.input.registeredAgents todoId earlier.owner = true
  · left
    refine hsound.clear todoId earlier hne.symm hlookup hactive heligible ?_ ?_ ?_
    · exact hgrant'.scopesStable stable'
    · exact hgrant.scopesStable stable
    · rwa [hgrant'.leasesOverlap_eq hgrant] at overlap
  · right
    exact ⟨earlier, hlookup, hactive, by simpa using heligible⟩

/-- The host's text functions where every text is ASCII. -/
def asciiText : HostText where
  toUpperCase := List.map Char.toUpper
  toLowerCase := List.map Char.toLower
  localeCompare := compare

/-- Two open, unclaimed Todos under hard leases. -/
def twoOpenTodos : State where
  head :=
    { handoffMode := .hardLease
      todos := ["todo_a", "todo_b"].map fun id => (id,
        { todoId := id, archiveState := "active", status := "open", role := "agent"
          taskClass := none, taskRepository := none, claimedBy := none, boundAgent := none
          blocksAgent := none, excludedAgents := [], removedContinuationPolicy := none })
      leases := [] }
  receipts := []

def srcRequest (todoId owner key : String) (registeredAgents : List String) (now : Nat) : Event :=
  .acquire ⟨none, none, none⟩
    { todoId, owner, idempotencyKey := key, ttlSeconds := 60, writeScopes := ["src/"]
      expectedVersion := none, writeWorkspace := none, registeredAgents, now }

/-- `b` acquires while `a`, who holds the same scope, is not registered. -/
def acquiredPastUnregistered : List Event :=
  [srcRequest "todo_a" "a" "k1" ["a", "b"] 0, srcRequest "todo_b" "b" "k2" ["b"] 1000]

/-- The lease that such a request is granted. -/
def srcLease (owner key : String) (now : Nat) : LeaseRecord where
  owner := owner
  idempotencyKey := key
  writeWorkspace := none
  writeScopes := ["src/"]
  acquireTtlSeconds := some 60
  writeRepository := none
  version := some 1
  leaseEpoch := some 1
  acquiredAt := now
  updatedAt := now
  expiresAt := some (now + 60000)
  releasedAt := none
  status := .active

end Loopx.Lease
