/- GID: Loopx/Goals/AcceptanceViews
   generality: I
   source: loopx/control_plane/goals/acceptance_contract.ts
   digest: What a stored acceptance state shows to the authority, and what a written one reads as. -/

import Loopx.Goals.AcceptanceContract

set_option autoImplicit false
set_option relaxedAutoImplicit false

namespace Loopx.Goals.Acceptance

open Loopx.Lib.KeyedList
open Loopx.Lib.Fallible (bind_eq_ok throwWhen throwWhen_eq_ok)
open Loopx.Json (JsNumber Protocol canonicalAuthorityJson)
open Loopx.Authority (canonicalAuthoritySha256 isBareSha256)

/-- A verification by its identity; its results are read afresh every time. -/
structure VerificationView where
  operationId : String
  contractRevision : Nat
  contractDigest : String
  workDigest : String
  todoId : Option String
deriving DecidableEq

def AcceptanceVerification.view (receipt : AcceptanceVerification) : VerificationView :=
  ⟨receipt.operationId, receipt.contractRevision, receipt.contractDigest, receipt.workDigest,
    receipt.todoId⟩

/-- Active checks by the digest of their contract. -/
structure ChecksView where
  digest : String
  verification : Option VerificationView
deriving DecidableEq

def AcceptanceState.view (state : AcceptanceState) : ChecksView :=
  ⟨state.digest, state.verification.map AcceptanceVerification.view⟩

/-- The lifecycle record of a head beside the owner, the revision and the checks it stores. -/
@[ext] structure AcceptanceView where
  lifecycle : Option GoalAcceptanceLifecycle
  owner : Option WireExactGoalRef
  revision : Nat
  checks : Option ChecksView
deriving DecidableEq

namespace AcceptanceView

/-- The instance that the head is bound to. -/
def bound (view : AcceptanceView) : Option WireExactGoalRef := view.lifecycle.map (·.goalRef)

def ownerMatches (view : AcceptanceView) : Bool :=
  match view.lifecycle with
  | none => true
  | some lifecycle => decide (view.owner = some lifecycle.goalRef)

def configurationRevision (view : AcceptanceView) : Nat :=
  if view.ownerMatches then view.revision else 0

def usable (view : AcceptanceView) : Option ChecksView :=
  if view.ownerMatches then view.checks else none

end AcceptanceView

variable {host : AcceptanceHost} {head : Fields} {goalId : String}

/-- The head reads, and this is what it shows. -/
def Shows (host : AcceptanceHost) (head : Fields) (goalId : String) (view : AcceptanceView) :
    Prop :=
  ∃ authority active, readGoalAcceptanceAuthority host head goalId = .ok authority ∧
    readGoalAcceptanceLifecycle head goalId = .ok view.lifecycle ∧
    StoredAs host head goalId view.owner view.revision active ∧
    view.checks = active.map AcceptanceState.view ∧
    (head.lookup "goal_acceptance" ≠ none → view.owner.isSome = view.lifecycle.isSome) ∧
    authority = authorityOf view.lifecycle view.owner view.revision active

theorem exists_shows {authority : GoalAcceptanceAuthority}
    (h : readGoalAcceptanceAuthority host head goalId = .ok authority) :
    ∃ view, Shows host head goalId view := by
  obtain ⟨lifecycle, owner, revision, active, hlifecycle, stored, atomic, rfl⟩ :=
    readGoalAcceptanceAuthority_eq_ok h
  exact ⟨⟨lifecycle, owner, revision, active.map AcceptanceState.view⟩, _, active, h, hlifecycle,
    stored, rfl, atomic, rfl⟩

theorem Shows.unique {view view' : AcceptanceView} (h : Shows host head goalId view)
    (h' : Shows host head goalId view') : view = view' := by
  obtain ⟨_, active, _, hlifecycle, stored, hchecks, -⟩ := h
  obtain ⟨_, active', _, hlifecycle', stored', hchecks', -⟩ := h'
  have sameLifecycle := Except.ok.inj (hlifecycle.symm.trans hlifecycle')
  obtain ⟨sameOwner, sameRevision, rfl⟩ := stored.unique stored'
  cases view
  cases view'
  simp_all

theorem sameExactGoalRef_owner (lifecycle : GoalAcceptanceLifecycle)
    (owner : Option WireExactGoalRef) :
    (owner.any fun owner => sameExactGoalRef lifecycle.goalRef owner) =
      decide (owner = some lifecycle.goalRef) := by
  cases owner with
  | none => simp
  | some owner =>
    rw [Bool.eq_iff_iff, Option.any_some, sameExactGoalRef_iff, decide_eq_true_eq,
      Option.some.injEq]
    exact eq_comm

theorem configurationRevision_authorityOf (view : AcceptanceView)
    (active : Option AcceptanceState) :
    (authorityOf view.lifecycle view.owner view.revision active).configurationRevision =
      view.configurationRevision := by
  unfold authorityOf AcceptanceView.configurationRevision AcceptanceView.ownerMatches
  cases view.lifecycle with
  | none => rfl
  | some lifecycle =>
    simp only [GoalAcceptanceAuthority.configurationRevision, sameExactGoalRef_owner]

theorem usable_authorityOf (view : AcceptanceView) (active : Option AcceptanceState) :
    (authorityOf view.lifecycle view.owner view.revision active).usable =
      if view.ownerMatches then active else none := by
  unfold authorityOf AcceptanceView.ownerMatches
  cases view.lifecycle with
  | none => rfl
  | some lifecycle => simp only [GoalAcceptanceAuthority.usable, sameExactGoalRef_owner]

theorem Shows.configurationRevision {view : AcceptanceView} (h : Shows host head goalId view)
    {authority : GoalAcceptanceAuthority}
    (read : readGoalAcceptanceAuthority host head goalId = .ok authority) :
    authority.configurationRevision = view.configurationRevision := by
  obtain ⟨_, active, hread, _, _, _, _, rfl⟩ := h
  rw [← Except.ok.inj (hread.symm.trans read), configurationRevision_authorityOf]

/-! ## Written states -/

theorem positiveRevision_ofNat {n revision : Nat}
    (h : positiveRevision (some (.number (JsNumber.ofNat n))) = some revision) :
    revision = n ∧ 0 < n := by
  simp only [positiveRevision, JsNumber.safeInteger?, JsNumber.toInt?_ofNat] at h
  by_cases safe : (n : Int).natAbs ≤ JsNumber.maxSafeInteger
  · rw [if_pos safe] at h
    change (if (0 : Int) < n then some (n : Int).toNat else none) = some revision at h
    by_cases positive : (0 : Int) < n
    · rw [if_pos positive, Option.some.injEq] at h
      omega
    · rw [if_neg positive] at h
      cases h
  · rw [if_neg safe] at h
    cases h

theorem positiveRevision_pos {value : Option Json} {revision : Nat}
    (h : positiveRevision value = some revision) : 0 < revision := by
  unfold positiveRevision at h
  split at h
  · split at h
    · split at h
      · have := Option.some.inj h
        omega
      · cases h
    · cases h
  · cases h

private theorem canonical_optionalRef (owner : Option WireExactGoalRef) :
    canonicalAuthorityJson (optionalRef owner) = .null ↔ owner = none := by
  cases owner with
  | none => simp [optionalRef, canonicalAuthorityJson]
  | some ref => simp [optionalRef, WireExactGoalRef.toJson, canonicalAuthorityJson]

section Written

variable {owner : Option WireExactGoalRef} {revision : Nat} {digest document : Json}
  {bindings : List Json} {verification : Json} {state : Fields}

private theorem nodup_stateFields :
    (keys (stateFields owner revision digest document bindings verification)).Nodup := by
  simp [stateFields, keys]

/-- How each field of a written state reads. -/
private theorem lookup_written (key : String) (h : authorityFields (some (.object
      (stateFields owner revision digest document bindings verification))) "goal_acceptance" =
        .ok state) :
    state.lookup key = ((stateFields owner revision digest document bindings verification).lookup
      key).map canonicalAuthorityJson :=
  lookup_of_authorityFields h nodup_stateFields key

private theorem written_current (h : authorityFields (some (.object
      (stateFields owner revision digest document bindings verification))) "goal_acceptance" =
        .ok state) : isLegacyState state = false := by
  have version := lookup_written "schema_version" h
  simp only [isLegacyState, version]
  simp [stateFields, canonicalAuthorityJson, GOAL_ACCEPTANCE_SCHEMA]

private theorem written_owned (h : authorityFields (some (.object
      (stateFields owner revision digest document bindings verification))) "goal_acceptance" =
        .ok state) : isOwnedState state = owner.isSome := by
  have field : state.lookup "owner_goal_ref" =
      some (canonicalAuthorityJson (optionalRef owner)) := by
    rw [lookup_written _ h]
    simp [stateFields, List.lookup_cons]
  rw [isOwnedState, written_current h, field]
  simp only [Bool.false_eq_true, if_false, ne_eq, Option.some.injEq, canonical_optionalRef]
  cases owner <;> simp

private theorem written_revision {read : Nat} (h : authorityFields (some (.object
      (stateFields owner revision digest document bindings verification))) "goal_acceptance" =
        .ok state) (hread : stateRevision state = .ok read) : read = revision ∧ 0 < revision := by
  have field : state.lookup "revision" = some (.number (JsNumber.ofNat revision)) := by
    rw [lookup_written _ h]
    simp [stateFields, List.lookup_cons, canonicalAuthorityJson]
  unfold stateRevision at hread
  rw [field] at hread
  split at hread
  · rename_i n hn
    split at hread
    · rw [← Except.ok.inj hread]
      exact positiveRevision_ofNat hn
    · cases hread
  · cases hread

private theorem written_owner {read : Option WireExactGoalRef} (h : authorityFields (some (.object
      (stateFields owner revision digest document bindings verification))) "goal_acceptance" =
        .ok state) (hread : stateOwner state goalId = .ok read) : read = owner := by
  have field : state.lookup "owner_goal_ref" =
      some (canonicalAuthorityJson (optionalRef owner)) := by
    rw [lookup_written _ h]
    simp [stateFields, List.lookup_cons]
  unfold stateOwner at hread
  rw [written_owned h] at hread
  cases owner with
  | none => exact (Except.ok.inj hread).symm
  | some ref =>
    obtain ⟨parsed, hparsed, hread⟩ := bind_eq_ok.mp hread
    obtain ⟨_, _, hread⟩ := bind_eq_ok.mp hread
    rw [field] at hparsed
    rw [← Except.ok.inj hread, parseWireExactGoalRef_written hparsed]

private theorem readChecks_eq_ok {read : AcceptanceState} (h : readChecks host state owner revision =
      .ok read) : read.ownerGoalRef = owner ∧ read.revision = revision ∧
      state.lookup "digest" = some (.string read.digest) ∧
      (state.lookup "verification" = some .null → read.verification = none) ∧
      ∀ value, state.lookup "verification" = some value → value ≠ .null →
        ∃ receipt, read.verification = some receipt ∧
          readVerification host revision (state.lookup "digest") read.document read.bindings value =
            .ok receipt := by
  obtain ⟨document, _, h⟩ := bind_eq_ok.mp h
  obtain ⟨_, hdigest, h⟩ := bind_eq_ok.mp h
  obtain ⟨rows, _, h⟩ := bind_eq_ok.mp h
  obtain ⟨read, _, h⟩ := bind_eq_ok.mp h
  obtain ⟨_, _, h⟩ := bind_eq_ok.mp h
  obtain ⟨_, _, h⟩ := bind_eq_ok.mp h
  have digest := not_not.mp (throwWhen_eq_ok.mp hdigest)
  split at h
  · rename_i hnone
    obtain rfl := Except.ok.inj h
    exact ⟨rfl, rfl, digest, fun _ => rfl, by simp [hnone]⟩
  · rename_i hnull
    obtain rfl := Except.ok.inj h
    refine ⟨rfl, rfl, digest, fun _ => rfl, ?_⟩
    intro value hvalue nonnull
    exact absurd (Option.some.inj (hvalue.symm.trans hnull)) nonnull
  · rename_i value nonnull hvalue
    obtain ⟨receipt, hreceipt, h⟩ := bind_eq_ok.mp h
    obtain rfl := Except.ok.inj h
    refine ⟨rfl, rfl, digest, ?_, ?_⟩
    · intro hnull
      exact (nonnull (Option.some.inj (hvalue.symm.trans hnull))).elim
    · intro value' hvalue' _
      obtain rfl := Option.some.inj (hvalue.symm.trans hvalue')
      exact ⟨receipt, rfl, hreceipt⟩

private theorem bareSha256_string {s read : String}
    (h : bareSha256 (some (.string s)) = some read) : read = s := by
  simp only [bareSha256] at h
  split at h
  · exact (Option.some.inj h).symm
  · cases h

private theorem verificationTodo_written {todoId read : Option String}
    (h : verificationTodo (some (canonicalAuthorityJson (optionalText todoId))) = .ok read) :
    read = todoId := by
  cases todoId with
  | none =>
    simp only [optionalText, canonicalAuthorityJson, verificationTodo] at h
    exact (Except.ok.inj h).symm
  | some s =>
    simp only [optionalText, canonicalAuthorityJson, verificationTodo] at h
    obtain ⟨todo, htodo, h⟩ := bind_eq_ok.mp h
    obtain ⟨result, _, htodo⟩ := bind_eq_ok.mp htodo
    obtain ⟨_, hsame, htodo⟩ := bind_eq_ok.mp htodo
    have same := (not_not.mp (throwWhen_eq_ok.mp hsame)).1
    obtain rfl := Except.ok.inj htodo
    rw [← Except.ok.inj h]
    simpa [eq_comm] using same

/-- A verification that reads has the identity it was written with. -/
theorem readVerification_written {receipt read : AcceptanceVerification} {current : Option Json}
    {revision : Nat} {document : AcceptanceDocument} {bindings : List AcceptanceBinding}
    (h : readVerification host revision current document bindings
      (canonicalAuthorityJson receipt.toJson) = .ok read) : read.view = receipt.view := by
  obtain ⟨fields, hfields, h⟩ := bind_eq_ok.mp h
  have canonical := authorityFields_canonical (some receipt.toJson) "acceptance verification"
  rw [Option.map_some] at canonical
  rw [canonical, AcceptanceVerification.toJson] at hfields
  have field := lookup_of_authorityFields hfields (by simp [keys])
  obtain ⟨_, _, h⟩ := bind_eq_ok.mp h
  obtain ⟨operationId, _, h⟩ := bind_eq_ok.mp h
  obtain ⟨_, hoperation, h⟩ := bind_eq_ok.mp h
  have sameOperation : operationId = receipt.operationId := by
    have written := not_not.mp (throwWhen_eq_ok.mp hoperation)
    rw [field] at written
    simpa [List.lookup_cons, canonicalAuthorityJson, eq_comm] using written
  split at h
  · rename_i contractRevision contractDigest workDigest hrevision hdigest hwork
    have sameRevision : contractRevision = receipt.contractRevision := by
      rw [field] at hrevision
      exact (positiveRevision_ofNat
        (by simpa [List.lookup_cons, canonicalAuthorityJson] using hrevision)).1
    have sameDigest : contractDigest = receipt.contractDigest := by
      rw [field] at hdigest
      exact bareSha256_string (by simpa [List.lookup_cons, canonicalAuthorityJson] using hdigest)
    have sameWork : workDigest = receipt.workDigest := by
      rw [field] at hwork
      exact bareSha256_string (by simpa [List.lookup_cons, canonicalAuthorityJson] using hwork)
    obtain ⟨_, _, h⟩ := bind_eq_ok.mp h
    obtain ⟨todoId, htodo, h⟩ := bind_eq_ok.mp h
    have sameTodo : todoId = receipt.todoId := by
      rw [field] at htodo
      exact verificationTodo_written (by simpa [List.lookup_cons] using htodo)
    subst sameOperation sameRevision sameDigest sameWork sameTodo
    split at h
    · obtain ⟨_, _, h⟩ := bind_eq_ok.mp h
      obtain ⟨_, _, h⟩ := bind_eq_ok.mp h
      obtain ⟨_, _, h⟩ := bind_eq_ok.mp h
      obtain ⟨_, _, h⟩ := bind_eq_ok.mp h
      obtain rfl := Except.ok.inj h
      rfl
    · obtain ⟨_, _, h⟩ := bind_eq_ok.mp h
      obtain rfl := Except.ok.inj h
      rfl
  · cases h

private theorem written_verification {receipt : Option AcceptanceVerification}
    {read : AcceptanceState} (h : authorityFields (some (.object
      (stateFields owner revision digest document bindings (optionalVerification receipt))))
        "goal_acceptance" = .ok state) {owner' : Option WireExactGoalRef} {revision' : Nat}
    (hread : readChecks host state owner' revision' = .ok read) :
    read.verification.map AcceptanceVerification.view =
      receipt.map AcceptanceVerification.view := by
  have field : state.lookup "verification" =
      some (canonicalAuthorityJson (optionalVerification receipt)) := by
    rw [lookup_written _ h]
    simp [stateFields, List.lookup_cons]
  obtain ⟨_, _, _, hnull, hsome⟩ := readChecks_eq_ok hread
  cases receipt with
  | none => rw [hnull field]
  | some receipt =>
    obtain ⟨read', hread', same⟩ := hsome _ field
      (by simp [optionalVerification, AcceptanceVerification.toJson, canonicalAuthorityJson])
    rw [hread', Option.map_some, Option.map_some, readVerification_written same]

end Written

/-- Active checks carry the owner and the revision they are stored under. -/
theorem StoredAs.owned {owner : Option WireExactGoalRef} {revision : Nat}
    {active : Option AcceptanceState} (h : StoredAs host head goalId owner revision active)
    {state : AcceptanceState} (hstate : active = some state) :
    state.ownerGoalRef = owner ∧ state.revision = revision := by
  cases h with
  | absent _ => cases hstate
  | present _ _ _ _ _ hactive =>
    unfold readActive at hactive
    split at hactive
    · obtain ⟨_, _, hactive⟩ := bind_eq_ok.mp hactive
      obtain rfl := Except.ok.inj hactive
      cases hstate
    · obtain ⟨checks, hchecks, hactive⟩ := bind_eq_ok.mp hactive
      obtain rfl := Except.ok.inj hactive
      obtain ⟨howner, hrevision, _⟩ := readChecks_eq_ok hchecks
      split at hstate
      · cases hstate
      · rw [← Option.some.inj hstate]
        exact ⟨howner, hrevision⟩

/-- A state that is there has a positive revision. -/
theorem StoredAs.revision_eq_zero {owner : Option WireExactGoalRef} {revision : Nat}
    {active : Option AcceptanceState} (h : StoredAs host head goalId owner revision active) :
    revision = 0 ↔ head.lookup "goal_acceptance" = none := by
  cases h with
  | absent hnone => simp [hnone]
  | present stored _ _ hrevision _ _ =>
    rw [stored]
    unfold stateRevision at hrevision
    split at hrevision
    · rename_i n hn
      split at hrevision
      · obtain rfl := Except.ok.inj hrevision
        have positive := positiveRevision_pos hn
        simp only [reduceCtorEq, iff_false]
        omega
      · cases hrevision
    · cases hrevision

/-- A written state shows its owner, its revision and its checks. -/
theorem StoredAs.of_state {written : AcceptanceState} {owner : Option WireExactGoalRef}
    {revision : Nat} {active : Option AcceptanceState}
    (h : StoredAs host head goalId owner revision active)
    (stored : head.lookup "goal_acceptance" = some written.toJson) :
    owner = written.ownerGoalRef ∧ revision = written.revision ∧ 0 < revision ∧
      active.map AcceptanceState.view = some written.view := by
  cases h with
  | absent hnone => simp [hnone] at stored
  | @present _ state _ _ _ stored' _ fields hrevision howner hactive =>
    obtain rfl := Option.some.inj (stored'.symm.trans stored)
    rw [AcceptanceState.toJson] at fields
    obtain ⟨sameRevision, positive⟩ := written_revision fields hrevision
    have sameOwner := written_owner fields howner
    refine ⟨sameOwner, sameRevision, by omega, ?_⟩
    have document : state.lookup "document" = some (canonicalAuthorityJson written.document.toJson) := by
      rw [lookup_written "document" fields]
      simp [stateFields, List.lookup_cons]
    have filled : isCleared state = false := by
      rw [isCleared, written_current fields, document]
      simp [AcceptanceDocument.toJson, canonicalAuthorityJson]
    rw [readActive, filled] at hactive
    obtain ⟨checks, hchecks, hactive⟩ := bind_eq_ok.mp hactive
    rw [written_current fields] at hactive
    have hactive := Except.ok.inj hactive
    simp only [Bool.false_eq_true, false_and, if_false] at hactive
    have digest : state.lookup "digest" = some (Json.string written.digest) := by
      rw [lookup_written "digest" fields]
      simp [stateFields, List.lookup_cons, canonicalAuthorityJson]
    obtain ⟨_, _, hdigest, _⟩ := readChecks_eq_ok hchecks
    have sameDigest : checks.digest = written.digest := by
      simpa using hdigest.symm.trans digest
    rw [← hactive, Option.map_some, AcceptanceState.view, AcceptanceState.view, sameDigest,
      written_verification fields hchecks]

/-- Removed checks show their owner and their revision alone. -/
theorem StoredAs.of_cleared {written : Nat} {goalRef owner : Option WireExactGoalRef}
    {revision : Nat} {active : Option AcceptanceState}
    (h : StoredAs host head goalId owner revision active)
    (stored : head.lookup "goal_acceptance" = some (clearedGoalAcceptance written goalRef)) :
    owner = goalRef ∧ revision = written ∧ 0 < revision ∧ active = none := by
  cases h with
  | absent hnone => simp [hnone] at stored
  | @present _ state _ _ _ stored' _ fields hrevision howner hactive =>
    obtain rfl := Option.some.inj (stored'.symm.trans stored)
    rw [clearedGoalAcceptance] at fields
    obtain ⟨sameRevision, positive⟩ := written_revision fields hrevision
    refine ⟨written_owner fields howner, sameRevision, by omega, ?_⟩
    have document : state.lookup "document" = some Json.null := by
      rw [lookup_written "document" fields]
      simp [stateFields, List.lookup_cons, canonicalAuthorityJson]
    have cleared : isCleared state = true := by
      rw [isCleared, written_current fields, document]
      simp
    rw [readActive, cleared] at hactive
    obtain ⟨_, _, hactive⟩ := bind_eq_ok.mp hactive
    exact (Except.ok.inj hactive).symm

end Loopx.Goals.Acceptance
