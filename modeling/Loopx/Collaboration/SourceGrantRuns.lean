/- GID: Loopx/Collaboration/SourceGrantRuns
   generality: I
   source: loopx/control_plane/collaboration/source_grants.ts
   digest: Which revocations outlast every later change of a channel policy. -/

import Loopx.Collaboration.BriefRoundTrip
import Loopx.Collaboration.SourceGrants

set_option autoImplicit false
set_option relaxedAutoImplicit false

namespace Loopx.Collaboration

open Loopx.Lib.KeyedList
open Loopx.Lib.Fallible
open Loopx.Json (OwnOrdered ownOrdered_array ownOrdered_literal stringify stringify_injective)
open Loopx.Authority (trim)

variable {source : Fields} {g updated : Grants} {target row : Recipient} {rows : List Recipient}
  {label : String} {grant exact : Bool}

/-! ## Rows that read back -/

def Recipient.Named (row : Recipient) : Prop :=
  trim row.goalId ≠ "" ∧ ∀ agent, row.agentId = some agent → trim agent ≠ ""

def Grants.Named (g : Grants) : Prop :=
  (∀ row ∈ g.targets, row.Named) ∧ ∀ row ∈ g.blocked, row.Named

theorem requireNonEmptyString_eq_ok {value : Option Json} {s : String} :
    requireNonEmptyString value label = .ok s ↔ value = some (.string s) ∧ trim s ≠ "" := by
  unfold requireNonEmptyString
  split
  · next t =>
    split
    · next blank =>
      constructor
      · intro h
        cases h
      · rintro ⟨⟨⟩, named⟩
        exact absurd blank named
    · next named =>
      constructor
      · intro h
        obtain rfl := Except.ok.inj h
        exact ⟨rfl, named⟩
      · rintro ⟨⟨⟩, -⟩
        rfl
  · next other =>
    constructor
    · intro h
      cases h
    · rintro ⟨rfl, -⟩
      exact absurd rfl (other s)

theorem recipientRow_named {json : Json} (h : recipientRow label exact json = .ok row) :
    row.Named ∧ (exact = true → row.agentId ≠ none) := by
  obtain ⟨item, -, h⟩ := bind_eq_ok.mp h
  obtain ⟨goalId, goal, h⟩ := bind_eq_ok.mp h
  have goal := (requireNonEmptyString_eq_ok.1 goal).2
  split at h
  · next whole =>
    obtain rfl := Except.ok.inj h
    exact ⟨⟨goal, by simp⟩, by simp [whole.1]⟩
  · obtain ⟨agentId, agent, h⟩ := bind_eq_ok.mp h
    have agent := (requireNonEmptyString_eq_ok.1 agent).2
    obtain rfl := Except.ok.inj h
    exact ⟨⟨goal, by simpa using agent⟩, by simp⟩

theorem recipientRow_toJson (named : row.Named) :
    recipientRow label false row.toJson = .ok row := by
  rcases row with ⟨goalId, _ | agentId⟩
  · simp [recipientRow, Recipient.toJson, requireJsonObject, requireNonEmptyString, named.1,
      List.lookup_cons]
  · simp [recipientRow, Recipient.toJson, requireJsonObject, requireNonEmptyString, named.1,
      named.2 agentId rfl, List.lookup_cons]

theorem recipients_eq_ok {value : Option Json} :
    recipients value label exact = .ok rows ↔
      ∃ items, value = some (.array items) ∧ items.mapM (recipientRow label exact) = .ok rows := by
  unfold recipients
  split
  · next items => simp
  · next other =>
    constructor
    · intro h
      cases h
    · rintro ⟨items, rfl, -⟩
      exact absurd rfl (other items)

theorem recipients_named {value : Option Json} (h : recipients value label exact = .ok rows)
    (mem : row ∈ rows) : row.Named ∧ (exact = true → row.agentId ≠ none) := by
  obtain ⟨items, -, h⟩ := recipients_eq_ok.1 h
  obtain ⟨i, found⟩ := List.getElem?_of_mem mem
  have paired := mapM_eq_ok.mp h
  have bound : i < items.length := by
    rw [paired.length_eq]
    exact (List.getElem?_eq_some_iff.mp found).1
  obtain ⟨row', found', read⟩ := getElem?_of_mapM_ok h (List.getElem?_eq_getElem bound)
  rw [found] at found'
  obtain rfl := Option.some.inj found'
  exact recipientRow_named read

theorem recipients_rowsJson (named : ∀ row ∈ rows, row.Named) :
    recipients (some (rowsJson rows)) label false = .ok rows := by
  refine recipients_eq_ok.2 ⟨rows.map Recipient.toJson, rfl, ?_⟩
  rw [mapM_eq_ok, List.forall₂_map_left_iff, List.forall₂_same]
  exact fun row mem => recipientRow_toJson (named row mem)

theorem ownOrdered_rowsJson : OwnOrdered (rowsJson rows) := by
  refine (ownOrdered_array _).mpr ?_
  intro json mem
  obtain ⟨row, -, rfl⟩ := List.mem_map.mp mem
  rcases row with ⟨goalId, _ | agentId⟩
  · exact ownOrdered_literal ["goal_id"] rfl (by decide) (by decide) (by simp [OwnOrdered])
  · exact ownOrdered_literal ["goal_id", "agent_id"] rfl (by decide) (by decide)
      (by simp [OwnOrdered])

theorem Recipient.toJson_injective : Function.Injective Recipient.toJson := by
  rintro ⟨goalId, _ | agentId⟩ ⟨goalId', _ | agentId'⟩ h
  all_goals simp [Recipient.toJson] at h
  · rw [h]
  · rw [h.1, h.2]

theorem rowsJson_injective {rows' : List Recipient}
    (h : stringify (rowsJson rows) = stringify (rowsJson rows')) : rows = rows' := by
  have same := stringify_injective ownOrdered_rowsJson ownOrdered_rowsJson h
  exact List.map_injective_iff.mpr Recipient.toJson_injective (Json.array.inj same)

/-! ## Reading a policy back -/

theorem grants_eq_ok :
    grants source = .ok g ↔
      recipients (ownOr source "targets" (.array [])) "context delivery targets" false =
          .ok g.targets ∧
        recipients (ownOr source "blocked_targets" (.array [])) "blocked context recipients"
          false = .ok g.blocked ∧
        localScope source = .ok g.scope := by
  unfold grants
  constructor
  · intro h
    obtain ⟨targets, htargets, h⟩ := bind_eq_ok.mp h
    obtain ⟨blocked, hblocked, h⟩ := bind_eq_ok.mp h
    obtain ⟨scope, hscope, h⟩ := bind_eq_ok.mp h
    obtain rfl := Except.ok.inj h
    exact ⟨htargets, hblocked, hscope⟩
  · rintro ⟨htargets, hblocked, hscope⟩
    simp only [htargets, hblocked, hscope, ok_bind]

theorem grants_named (h : grants source = .ok g) : g.Named := by
  obtain ⟨targets, blocked, -⟩ := grants_eq_ok.1 h
  exact ⟨fun row mem => (recipients_named targets mem).1,
    fun row mem => (recipients_named blocked mem).1⟩

theorem lookup_writeGrants_of_ne {k : String} (targets : k ≠ "targets")
    (blocked : k ≠ "blocked_targets") :
    (writeGrants source updated).lookup k = source.lookup k := by
  unfold writeGrants
  split
  · rw [lookup_eraseKey, if_neg blocked, lookup_setKey, if_neg targets]
  · rw [lookup_setKey, if_neg blocked, lookup_setKey, if_neg targets]

theorem ownOr_targets_writeGrants :
    ownOr (writeGrants source updated) "targets" (.array []) =
      some (rowsJson updated.targets) := by
  unfold ownOr writeGrants
  split
  · rw [lookup_eraseKey, if_neg (by decide), lookup_setKey, if_pos rfl, Option.getD_some]
  · rw [lookup_setKey, if_neg (by decide), lookup_setKey, if_pos rfl, Option.getD_some]

theorem ownOr_blocked_writeGrants :
    ownOr (writeGrants source updated) "blocked_targets" (.array []) =
      some (rowsJson updated.blocked) := by
  unfold ownOr writeGrants
  split
  · next none => rw [lookup_eraseKey, if_pos rfl, none, Option.getD_none, rowsJson, List.map_nil]
  · rw [lookup_setKey, if_pos rfl, Option.getD_some]

theorem grants_writeGrants (h : grants source = .ok g) (named : updated.Named)
    (scope : updated.scope = g.scope) : grants (writeGrants source updated) = .ok updated := by
  rw [grants_eq_ok, ownOr_targets_writeGrants, ownOr_blocked_writeGrants]
  refine ⟨recipients_rowsJson named.1, recipients_rowsJson named.2, ?_⟩
  rw [scope, ← (grants_eq_ok.1 h).2.2, localScope, localScope, ownOr, ownOr,
    lookup_writeGrants_of_ne (by decide) (by decide)]

theorem scopeOf_text (scope : LocalDeliveryScope) :
    scopeOf (some (.string scope.text)) = .ok scope := by
  cases scope <;> rfl

theorem grants_setScope (h : grants source = .ok g) (scope : LocalDeliveryScope) :
    grants (setKey source "local_delivery_scope" (.string scope.text)) =
      .ok { g with scope := scope } := by
  obtain ⟨targets, blocked, -⟩ := grants_eq_ok.1 h
  refine grants_eq_ok.2 ⟨?_, ?_, ?_⟩
  · rwa [ownOr, lookup_setKey, if_neg (by decide)]
  · rwa [ownOr, lookup_setKey, if_neg (by decide)]
  · rw [localScope, ownOr, lookup_setKey, if_pos rfl, Option.getD_some, scopeOf_text]

/-! ## One change of the grants -/

theorem Grants.updated_cases (h : g.updated target grant = .ok updated) :
    grant = true ∧ updated = g.restored target ∧
        (target.agentId ≠ none → ⟨target.goalId, none⟩ ∉ g.blocked) ∨
      grant = false ∧ updated = g.revokeGoal target ∧ target.agentId = none ∨
      grant = false ∧ updated = g.revokeAgent target ∧ target.agentId ≠ none := by
  unfold Grants.updated at h
  split at h
  · next granting =>
    obtain ⟨_, open', h⟩ := bind_eq_ok.mp h
    have open' := ensure_eq_ok.mp open'
    exact .inl ⟨granting, (Except.ok.inj h).symm, fun agent mem => open' ⟨agent, mem⟩⟩
  · next revoking =>
    have revoking := Bool.eq_false_iff.mpr revoking
    split at h
    · next whole => exact .inr (.inl ⟨revoking, (Except.ok.inj h).symm, whole⟩)
    · next agent => exact .inr (.inr ⟨revoking, (Except.ok.inj h).symm, agent⟩)

theorem Grants.updated_scope (h : g.updated target grant = .ok updated) :
    updated.scope = g.scope := by
  obtain ⟨-, rfl, -⟩ | ⟨-, rfl, -⟩ | ⟨-, rfl, -⟩ := updated_cases h <;> rfl

theorem mem_ite_concat {p : Prop} [Decidable p] :
    row ∈ (if p then rows ++ [target] else rows) ↔ row ∈ rows ∨ p ∧ row = target := by
  split
  · next h => simp [h]
  · next h => simp [h]

theorem Grants.updated_named (h : g.updated target grant = .ok updated) (named : g.Named)
    (htarget : target.Named) : updated.Named := by
  obtain ⟨-, rfl, -⟩ | ⟨-, rfl, -⟩ | ⟨-, rfl, -⟩ := updated_cases h
  · refine ⟨fun row mem => ?_, fun row mem => named.2 row (List.mem_of_mem_filter mem)⟩
    obtain old | ⟨-, rfl⟩ := mem_ite_concat.1 mem
    · exact named.1 row old
    · exact htarget
  all_goals
    refine ⟨fun row mem => named.1 row (List.mem_of_mem_filter mem), fun row mem => ?_⟩
    obtain old | ⟨-, rfl⟩ := mem_ite_concat.1 mem
    · exact named.2 row old
    · exact htarget

/-- An unchanged text is an unchanged policy. -/
theorem Grants.eq_of_not_differs (h : g.updated target grant = .ok updated)
    (same : updated.differs g = false) : updated = g := by
  simp only [Grants.differs, Bool.or_eq_false_iff, decide_eq_false_iff_not, not_not, ne_eq] at same
  have targets := rowsJson_injective same.1
  have blocked := rowsJson_injective same.2
  have scope := updated_scope h
  cases updated
  cases g
  simp_all

theorem Grants.differs_self : g.differs g = false := by simp [Grants.differs]

@[simp] theorem Recipient.covers_iff {grant : Recipient} :
    grant.covers row = true ↔
      grant.goalId = row.goalId ∧ (grant.agentId = none ∨ grant.agentId = row.agentId) := by
  simp [Recipient.covers]

theorem Recipient.covers_self : row.covers row = true := by simp

/-- An Agent covers itself alone. -/
theorem Recipient.eq_of_covers (agent : target.agentId ≠ none) (h : target.covers row = true) :
    row = target := by
  obtain ⟨goal, same⟩ := covers_iff.1 h
  have same := same.resolve_left agent
  cases row
  cases target
  simp_all

theorem Grants.granted_iff : g.granted target = true ↔
    (g.scope = .allRegistered ∨ ∃ row ∈ g.targets, row.covers target = true) ∧
      ∀ row ∈ g.blocked, row.covers target = false := by
  simp only [Grants.granted, Bool.and_eq_true, Bool.or_eq_true, decide_eq_true_eq, List.any_eq_true,
    Bool.not_eq_true', List.any_eq_false, Bool.not_eq_true]

theorem any_covers_filter {keep : Recipient → Bool}
    (h : ∀ row ∈ rows, keep row = false → row.covers target = false) :
    (rows.filter keep).any (·.covers target) = rows.any (·.covers target) := by
  rw [Bool.eq_iff_iff, List.any_eq_true, List.any_eq_true]
  constructor
  · rintro ⟨row, mem, covers⟩
    exact ⟨row, List.mem_of_mem_filter mem, covers⟩
  · rintro ⟨row, mem, covers⟩
    refine ⟨row, List.mem_filter.mpr ⟨mem, ?_⟩, covers⟩
    by_contra dropped
    rw [h row mem (Bool.eq_false_iff.mpr dropped)] at covers
    cases covers

theorem any_covers_concat {p : Prop} [Decidable p] {added : Recipient}
    (h : added.covers target = false) :
    (if p then rows ++ [added] else rows).any (·.covers target) =
      rows.any (·.covers target) := by
  split
  · simp [h]
  · rfl

/-- A change leaves every recipient alone that it does not cover. -/
theorem Grants.granted_apart (h : g.updated target grant = .ok updated)
    (apart : target.covers row = false) : updated.granted row = g.granted row := by
  have own : ∀ r, r = target → r.covers row = false := by
    rintro _ rfl
    exact apart
  unfold Grants.granted
  obtain ⟨-, rfl, -⟩ | ⟨-, rfl, whole⟩ | ⟨-, rfl, agent⟩ := updated_cases h
  · rw [restored, any_covers_concat apart, any_covers_filter]
    intro r _ dropped
    exact own r (by simpa using dropped)
  · rw [revokeGoal, any_covers_concat apart, any_covers_filter]
    intro r _ dropped
    have goal : r.goalId = target.goalId := by simpa using dropped
    rw [← Bool.not_eq_true, Recipient.covers_iff] at apart ⊢
    rintro ⟨same, -⟩
    exact apart ⟨goal ▸ same, .inl whole⟩
  · rw [revokeAgent, any_covers_concat apart, any_covers_filter]
    intro r _ dropped
    exact own r (Recipient.eq_of_covers agent (by simpa using dropped))

/-- What an Agent-level change reports is what holds of the Agent. -/
theorem Grants.granted_target (h : g.updated target grant = .ok updated)
    (agent : target.agentId ≠ none) : updated.granted target = grant := by
  obtain ⟨rfl, rfl, open'⟩ | ⟨-, -, whole⟩ | ⟨rfl, rfl, -⟩ := updated_cases h
  · refine granted_iff.2 ⟨?_, ?_⟩
    · by_cases all : g.scope = .allRegistered
      · exact .inl all
      · right
        by_cases found : g.targets.any (·.covers target) = true
        · obtain ⟨row, mem, covers⟩ := List.any_eq_true.mp found
          exact ⟨row, mem_ite_concat.2 (.inl mem), covers⟩
        · have selected : g.scope = .selected := by
            cases scope : g.scope
            · exact absurd scope all
            · rfl
          exact ⟨target, mem_ite_concat.2 (.inr ⟨⟨selected, Bool.eq_false_iff.mpr found⟩, rfl⟩),
            Recipient.covers_self⟩
    · intro row mem
      obtain ⟨old, ne⟩ := List.mem_filter.mp mem
      rw [← Bool.not_eq_true, Recipient.covers_iff]
      rintro ⟨goal, whole | same⟩
      · refine open' agent ?_
        rwa [← goal, ← whole]
      · refine absurd ne ?_
        cases row
        cases target
        simp_all
  · exact absurd whole agent
  · rw [← Bool.not_eq_true, granted_iff]
    rintro ⟨-, none⟩
    have mem : target ∈ (g.revokeAgent target).blocked := by
      by_cases blocked : target ∈ g.blocked
      · exact mem_ite_concat.2 (.inl blocked)
      · exact mem_ite_concat.2 (.inr ⟨blocked, rfl⟩)
    have := none target mem
    rw [Recipient.covers_self] at this
    cases this

/-- Under either scope a change that was made is there already. -/
theorem Grants.updated_updated (h : g.updated target grant = .ok updated) :
    updated.updated target grant = .ok updated := by
  obtain ⟨rfl, rfl, open'⟩ | ⟨rfl, rfl, whole⟩ | ⟨rfl, rfl, agent⟩ := updated_cases h
  · have again : (g.restored target).restored target = g.restored target := by
      have enrolled : ¬((g.restored target).scope = .selected ∧
          (g.restored target).targets.any (·.covers target) = false) := by
        rintro ⟨selected, none⟩
        rw [List.any_eq_false] at none
        by_cases found : g.targets.any (·.covers target) = true
        · obtain ⟨row, mem, covers⟩ := List.any_eq_true.mp found
          exact none row (mem_ite_concat.2 (.inl mem)) covers
        · exact none target (mem_ite_concat.2
            (.inr ⟨⟨selected, Bool.eq_false_iff.mpr found⟩, rfl⟩)) Recipient.covers_self
      rw [restored, if_neg enrolled]
      simp [restored, List.filter_filter]
    have open'' : ¬(target.agentId ≠ none ∧ ⟨target.goalId, none⟩ ∈ (g.restored target).blocked) :=
      fun ⟨agent, mem⟩ => open' agent (List.mem_of_mem_filter mem)
    simp only [updated, if_true, restore, ensure_of open'', ok_bind, again]
  · have again : (g.revokeGoal target).revokeGoal target = g.revokeGoal target := by
      have recorded : ¬((g.revokeGoal target).scope = .allRegistered ∧
          target ∉ (g.revokeGoal target).blocked) := by
        rintro ⟨all, fresh⟩
        by_cases blocked : target ∈ g.blocked
        · exact fresh (mem_ite_concat.2 (.inl blocked))
        · exact fresh (mem_ite_concat.2 (.inr ⟨⟨all, blocked⟩, rfl⟩))
      rw [revokeGoal, if_neg recorded]
      simp [revokeGoal, List.filter_filter]
    simp only [updated, Bool.false_eq_true, if_false, if_pos whole, again]
  · have again : (g.revokeAgent target).revokeAgent target = g.revokeAgent target := by
      have recorded : ¬(target ∉ (g.revokeAgent target).blocked) := by
        intro fresh
        by_cases blocked : target ∈ g.blocked
        · exact fresh (mem_ite_concat.2 (.inl blocked))
        · exact fresh (mem_ite_concat.2 (.inr ⟨blocked, rfl⟩))
      rw [revokeAgent, if_neg recorded]
      simp [revokeAgent, List.filter_filter]
    simp only [updated, Bool.false_eq_true, if_false, if_neg agent, again]

/-- Only the grant of a recipient takes its revocation back. -/
theorem Grants.mem_blocked_updated (h : g.updated target grant = .ok updated)
    (mem : row ∈ g.blocked) (kept : row ≠ target ∨ grant = false) : row ∈ updated.blocked := by
  obtain ⟨rfl, rfl, -⟩ | ⟨-, rfl, -⟩ | ⟨-, rfl, -⟩ := updated_cases h
  · exact List.mem_filter.mpr ⟨mem, by simpa using kept⟩
  · exact mem_ite_concat.2 (.inl mem)
  · exact mem_ite_concat.2 (.inl mem)

/-- Only a grant enrolls, and what it enrolls is its own target. -/
theorem Grants.mem_targets_updated (h : g.updated target grant = .ok updated)
    (mem : row ∈ updated.targets) : row ∈ g.targets ∨ grant = true ∧ row = target := by
  obtain ⟨rfl, rfl, -⟩ | ⟨-, rfl, -⟩ | ⟨-, rfl, -⟩ := updated_cases h
  · obtain old | ⟨-, rfl⟩ := mem_ite_concat.1 mem
    · exact .inl old
    · exact .inr ⟨rfl, rfl⟩
  · exact .inl (List.mem_of_mem_filter mem)
  · exact .inl (List.mem_of_mem_filter mem)

/-! ## One accepted change of a policy -/

theorem requireBoolean_eq_ok {value : Option Json} {b : Bool} :
    requireBoolean value label = .ok b ↔ value = some (.bool b) := by
  unfold requireBoolean
  split
  · simp
  · next other =>
    constructor
    · intro h
      cases h
    · rintro rfl
      exact absurd rfl (other b)

theorem targetAgent_named {value : Option Json} {agentId : Option String}
    (h : targetAgent value = .ok agentId) :
    ∀ agent, agentId = some agent → trim agent ≠ "" := by
  unfold targetAgent at h
  split at h
  · obtain rfl := Except.ok.inj h
    simp
  · obtain rfl := Except.ok.inj h
    simp
  · obtain ⟨agent, named, h⟩ := bind_eq_ok.mp h
    obtain rfl := Except.ok.inj h
    simpa using (requireNonEmptyString_eq_ok.1 named).2

theorem recipientRequest_spec {params : Fields} {request : RecipientRequest}
    (h : recipientRequest params = .ok request) :
    request.target.Named ∧
      recipients (params.lookup "available") "registered recipients" true =
        .ok request.available := by
  obtain ⟨goalId, goal, h⟩ := bind_eq_ok.mp h
  obtain ⟨agentId, agent, h⟩ := bind_eq_ok.mp h
  obtain ⟨grant, -, h⟩ := bind_eq_ok.mp h
  obtain ⟨available, registered, h⟩ := bind_eq_ok.mp h
  obtain ⟨activeGoals, -, h⟩ := bind_eq_ok.mp h
  obtain rfl := Except.ok.inj h
  exact ⟨⟨(requireNonEmptyString_eq_ok.1 goal).2, targetAgent_named agent⟩, registered⟩

/-- What a call asks for does not depend on the policy it is made on. -/
theorem recipientRequest_setKey (params : Fields) (policy : Json) :
    recipientRequest (setKey params "source" policy) = recipientRequest params := by
  have other : ∀ {k : String}, k ≠ "source" →
      (setKey params "source" policy).lookup k = params.lookup k := by
    intro k ne
    rw [lookup_setKey, if_neg ne]
  unfold recipientRequest
  rw [other (by decide), other (by decide), other (by decide), other (by decide),
    other (by decide)]

/-- The policy that a change of the grants leaves. -/
def Grants.write (source : Fields) (g updated : Grants) : Fields :=
  if updated.differs g then writeGrants source updated else source

structure Planned (source : Fields) (g : Grants) (request : RecipientRequest) (updated : Grants)
    (result : RecipientResult) : Prop where
  admitted : admitGrant source g.scope request = .ok ()
  moved : g.updated request.target request.grant = .ok updated
  target : result.target = request.target
  after : result.grantedAfter = request.grant
  change : result.wouldChange = updated.differs g
  source : result.source = Grants.write source g updated

theorem planRecipient_eq_ok {request : RecipientRequest} {result : RecipientResult}
    (h : planRecipient source g request = .ok result) :
    ∃ updated, Planned source g request updated result := by
  obtain ⟨_, admitted, h⟩ := bind_eq_ok.mp h
  obtain ⟨updated, moved, h⟩ := bind_eq_ok.mp h
  obtain rfl := Except.ok.inj h
  exact ⟨updated, admitted, moved, rfl, rfl, rfl, rfl⟩

theorem configureSourceRecipient_eq_ok {params : Fields} {result : RecipientResult}
    (given : params.lookup "source" = some (.object source))
    (h : configureSourceRecipient params = .ok result) :
    ∃ g request updated, grants source = .ok g ∧ recipientRequest params = .ok request ∧
      Planned source g request updated result := by
  obtain ⟨source', read, h⟩ := bind_eq_ok.mp h
  obtain ⟨g, hg, h⟩ := bind_eq_ok.mp h
  obtain ⟨request, asked, h⟩ := bind_eq_ok.mp h
  have same := requireJsonObject_eq_ok.mp read
  rw [given] at same
  obtain rfl := Json.object.inj (Option.some.inj same)
  obtain ⟨updated, planned⟩ := planRecipient_eq_ok h
  exact ⟨g, request, updated, hg, asked, planned⟩

theorem grants_write (h : grants source = .ok g) (htarget : target.Named)
    (moved : g.updated target grant = .ok updated) :
    grants (Grants.write source g updated) = .ok updated := by
  unfold Grants.write
  split
  · exact grants_writeGrants h (Grants.updated_named moved (grants_named h) htarget)
      (Grants.updated_scope moved)
  · next same =>
    rw [Grants.eq_of_not_differs moved (Bool.eq_false_iff.mpr same)]
    exact h

theorem lookup_write {k : String} (targets : k ≠ "targets") (blocked : k ≠ "blocked_targets") :
    (Grants.write source g updated).lookup k = source.lookup k := by
  unfold Grants.write
  split
  · exact lookup_writeGrants_of_ne targets blocked
  · rfl

/-- Neither the senders nor the read scope of a policy change with its grants. -/
theorem admitGrant_write (scope : LocalDeliveryScope) (request : RecipientRequest) :
    admitGrant (Grants.write source g updated) scope request = admitGrant source scope request := by
  unfold admitGrant hasSenders withinReadScope
  rw [lookup_write (by decide) (by decide), lookup_write (by decide) (by decide)]

theorem Planned.again {request : RecipientRequest} {result : RecipientResult}
    (planned : Planned source g request updated result) :
    ∃ again, planRecipient result.source updated request = .ok again ∧
      again.wouldChange = false ∧ again.source = result.source := by
  have admitted : admitGrant result.source updated.scope request = .ok () := by
    rw [planned.source, admitGrant_write, Grants.updated_scope planned.moved, planned.admitted]
  have still : updated.differs updated = false := Grants.differs_self
  refine ⟨_, by rw [planRecipient, admitted, ok_bind, Grants.updated_updated planned.moved,
    ok_bind], still, ?_⟩
  simp only [still, Bool.false_eq_true, if_false]

/-! ## Who a policy delivers to -/

/-- The resolution of a sender's query under a policy. -/
def resolution (collation : Collation) (query policy : Fields) : Checked (List Recipient) :=
  resolveSourceRecipients collation (setKey query "source" (.object policy))

def Receives (collation : Collation) (query policy : Fields) (row : Recipient) : Prop :=
  ∃ targets, resolution collation query policy = .ok targets ∧ row ∈ targets

variable {collation : Collation} {query policy : Fields}

theorem resolution_eq_ok {targets : List Recipient} :
    resolution collation query policy = .ok targets ↔
      requireSender policy query = .ok () ∧ ∃ g available, grants policy = .ok g ∧
        recipients (query.lookup "available") "registered recipients" true = .ok available ∧
          targets = (available.filter g.granted).eraseDups.mergeSort collation.rowLe := by
  have sender : requireSender policy (setKey query "source" (.object policy)) =
      requireSender policy query := by
    unfold requireSender
    rw [lookup_setKey, if_neg (by decide)]
  unfold resolution resolveSourceRecipients
  rw [lookup_setKey, if_pos rfl, lookup_setKey, if_neg (by decide), requireJsonObject, ok_bind,
    sender]
  constructor
  · intro h
    obtain ⟨_, authorized, h⟩ := bind_eq_ok.mp h
    obtain ⟨g, hg, h⟩ := bind_eq_ok.mp h
    obtain ⟨available, registered, h⟩ := bind_eq_ok.mp h
    exact ⟨authorized, g, available, hg, registered, (Except.ok.inj h).symm⟩
  · rintro ⟨authorized, g, available, hg, registered, rfl⟩
    simp only [authorized, hg, registered, ok_bind]

theorem receives_iff (hg : grants policy = .ok g) :
    Receives collation query policy row ↔
      requireSender policy query = .ok () ∧ (∃ available,
        recipients (query.lookup "available") "registered recipients" true = .ok available ∧
          row ∈ available) ∧ g.granted row = true := by
  constructor
  · rintro ⟨targets, h, mem⟩
    obtain ⟨sender, g', available, hg', registered, rfl⟩ := resolution_eq_ok.1 h
    obtain rfl := Except.ok.inj (hg.symm.trans hg')
    rw [List.mem_mergeSort, List.mem_eraseDups, List.mem_filter] at mem
    exact ⟨sender, ⟨available, registered, mem.1⟩, mem.2⟩
  · rintro ⟨sender, ⟨available, registered, mem⟩, granted⟩
    refine ⟨_, resolution_eq_ok.2 ⟨sender, g, available, hg, registered, rfl⟩, ?_⟩
    rw [List.mem_mergeSort, List.mem_eraseDups, List.mem_filter]
    exact ⟨mem, granted⟩

theorem requireSender_write : requireSender (Grants.write source g updated) query =
    requireSender source query := by
  unfold requireSender
  rw [lookup_write (by decide) (by decide)]

/-- A resolved recipient is one Agent. -/
theorem Receives.agent (h : Receives collation query policy row) : row.agentId ≠ none := by
  obtain ⟨targets, h, mem⟩ := h
  obtain ⟨-, g, available, -, registered, rfl⟩ := resolution_eq_ok.1 h
  rw [List.mem_mergeSort, List.mem_eraseDups, List.mem_filter] at mem
  exact (recipients_named registered mem.1).2 rfl

/-! ## Logs of accepted changes -/

inductive Change where
  | recipient (result : RecipientResult)
  | scope (result : ScopeResult)

/-- The policy a change leaves. -/
def Change.after : Change → Fields
  | .recipient result => result.source
  | .scope result => result.source

/-- Whether a change grants or revokes exactly this recipient. -/
def Change.about (row : Recipient) : Change → Option Bool
  | .recipient result => if result.target = row then some result.grantedAfter else none
  | .scope _ => none

/-- The last change of exactly this recipient, in a log with its latest entry first. -/
def lastChange (log : List Change) (row : Recipient) : Option Bool := log.findSome? (·.about row)

def Recipient.goal (row : Recipient) : Recipient := ⟨row.goalId, none⟩

/-- The Agent was granted after the last change of its Goal. -/
def grantedSince (log : List Change) (row : Recipient) : Bool :=
  (log.takeWhile fun change => (change.about row.goal).isNone).any fun change =>
    change.about row = some true

def AgentRevoked (log : List Change) (row : Recipient) : Prop := lastChange log row = some false

def GoalRevoked (log : List Change) (row : Recipient) : Prop :=
  lastChange log row.goal = some false ∧ grantedSince log row = false

/-- An accepted change of a policy. -/
inductive Accepts (policy : Fields) : Change → Prop
  | recipient {params : Fields} {result : RecipientResult}
      (given : params.lookup "source" = some (.object policy))
      (accepted : configureSourceRecipient params = .ok result) : Accepts policy (.recipient result)
  | scope {params : Fields} {result : ScopeResult}
      (given : params.lookup "source" = some (.object policy))
      (accepted : configureSourceScope params = .ok result) : Accepts policy (.scope result)

/-- The policies that allowed changes lead to, with the log of the changes. -/
inductive Reaches (allowed : List Change → Fields → Change → Prop) (first : Fields) :
    List Change → Fields → Prop
  | start : Reaches allowed first [] first
  | step {log : List Change} {policy : Fields} {change : Change}
      (before : Reaches allowed first log policy) (accepted : Accepts policy change)
      (fits : allowed log policy change) : Reaches allowed first (change :: log) change.after

/-- A policy is opened to every registered recipient only when each Goal that was last revoked is
blocked in it. -/
def KeepsRevocations (log : List Change) (policy : Fields) : Change → Prop
  | .recipient _ => True
  | .scope result => result.localDeliveryScope = .allRegistered → ∀ g goalId,
      grants policy = .ok g → lastChange log ⟨goalId, none⟩ = some false →
        ⟨goalId, none⟩ ∈ g.blocked

/-- What holds of a policy after a log of changes, whoever asks. -/
structure Durable (collation : Collation) (log : List Change) (policy : Fields) : Prop where
  agentRevoked : ∀ query row, AgentRevoked log row → ¬Receives collation query policy row
  goalRevoked : ∀ query row, GoalRevoked log row → ¬Receives collation query policy row
  /-- A change leaves the resolution of every recipient alone that it does not cover. -/
  apart : ∀ params result query row, params.lookup "source" = some (.object policy) →
    configureSourceRecipient params = .ok result → result.target.covers row = false →
      (Receives collation query result.source row ↔ Receives collation query policy row)
  /-- A change of an Agent is what a sender then finds of it in the same registry. -/
  reported : ∀ params result query targets, params.lookup "source" = some (.object policy) →
    configureSourceRecipient params = .ok result → result.target.agentId ≠ none →
      query.lookup "available" = params.lookup "available" →
        resolution collation query result.source = .ok targets →
          (result.target ∈ targets ↔ result.grantedAfter = true)
  recipientRepeated : ∀ params result, params.lookup "source" = some (.object policy) →
    configureSourceRecipient params = .ok result → ∃ again,
      configureSourceRecipient (setKey params "source" (.object result.source)) = .ok again ∧
        again.wouldChange = false ∧ again.source = result.source
  scopeRepeated : ∀ params result, params.lookup "source" = some (.object policy) →
    configureSourceScope params = .ok result → ∃ again,
      configureSourceScope (setKey params "source" (.object result.source)) = .ok again ∧
        again.wouldChange = false ∧ again.source = result.source

/-! ## Single changes -/

theorem recipient_apart {params : Fields} {result : RecipientResult}
    (given : params.lookup "source" = some (.object policy))
    (accepted : configureSourceRecipient params = .ok result)
    (apart : result.target.covers row = false) :
    Receives collation query result.source row ↔ Receives collation query policy row := by
  obtain ⟨g, request, updated, hg, asked, planned⟩ := configureSourceRecipient_eq_ok given accepted
  have hnext : grants (Grants.write policy g updated) = .ok updated :=
    grants_write hg (recipientRequest_spec asked).1 planned.moved
  rw [planned.target] at apart
  rw [planned.source, receives_iff hnext, receives_iff hg, requireSender_write,
    Grants.granted_apart planned.moved apart]

theorem recipient_reported {params : Fields} {result : RecipientResult} {targets : List Recipient}
    (given : params.lookup "source" = some (.object policy))
    (accepted : configureSourceRecipient params = .ok result)
    (agent : result.target.agentId ≠ none)
    (registry : query.lookup "available" = params.lookup "available")
    (resolved : resolution collation query result.source = .ok targets) :
    result.target ∈ targets ↔ result.grantedAfter = true := by
  obtain ⟨g, request, updated, hg, asked, planned⟩ := configureSourceRecipient_eq_ok given accepted
  obtain ⟨-, g', available, hg', registered, rfl⟩ := resolution_eq_ok.1 resolved
  have hnext := grants_write hg (recipientRequest_spec asked).1 planned.moved
  rw [planned.source] at hg'
  obtain rfl := Except.ok.inj (hnext.symm.trans hg')
  rw [registry, (recipientRequest_spec asked).2] at registered
  obtain rfl := Except.ok.inj registered
  have agent' : request.target.agentId ≠ none := planned.target ▸ agent
  have granted := Grants.granted_target planned.moved agent'
  rw [List.mem_mergeSort, List.mem_eraseDups, List.mem_filter, planned.target, planned.after,
    granted]
  refine ⟨And.right, fun grant => ⟨?_, grant⟩⟩
  -- only a registered Agent can be granted
  have admitted := planned.admitted
  rw [admitGrant, if_pos grant] at admitted
  obtain ⟨_, -, admitted⟩ := bind_eq_ok.mp admitted
  obtain ⟨_, registered, -⟩ := bind_eq_ok.mp admitted
  obtain ⟨row, mem, covers⟩ :=
    List.any_eq_true.mp ((ensure_eq_ok.mp registered).2.resolve_left agent')
  exact Recipient.eq_of_covers agent' covers ▸ mem

theorem recipient_repeated {params : Fields} {result : RecipientResult}
    (given : params.lookup "source" = some (.object policy))
    (accepted : configureSourceRecipient params = .ok result) : ∃ again,
      configureSourceRecipient (setKey params "source" (.object result.source)) = .ok again ∧
        again.wouldChange = false ∧ again.source = result.source := by
  obtain ⟨g, request, updated, hg, asked, planned⟩ := configureSourceRecipient_eq_ok given accepted
  obtain ⟨again, done, same⟩ := planned.again
  have hnext := grants_write hg (recipientRequest_spec asked).1 planned.moved
  rw [← planned.source] at hnext
  refine ⟨again, ?_, same⟩
  rw [configureSourceRecipient, lookup_setKey, if_pos rfl, requireJsonObject, ok_bind, hnext,
    ok_bind, recipientRequest_setKey, asked, ok_bind, done]

theorem configureSourceScope_eq_ok {params : Fields} {result : ScopeResult}
    (given : params.lookup "source" = some (.object policy))
    (accepted : configureSourceScope params = .ok result) :
    (∃ g, grants policy = .ok g) ∧ hasSenders policy = .ok () ∧
      scopeOf (params.lookup "local_delivery_scope") = .ok result.localDeliveryScope ∧
      result.source =
        setKey policy "local_delivery_scope" (.string result.localDeliveryScope.text) := by
  obtain ⟨source', read, h⟩ := bind_eq_ok.mp accepted
  obtain ⟨g, hg, h⟩ := bind_eq_ok.mp h
  obtain ⟨scope, hscope, h⟩ := bind_eq_ok.mp h
  obtain ⟨_, senders, h⟩ := bind_eq_ok.mp h
  have same := requireJsonObject_eq_ok.mp read
  rw [given] at same
  obtain rfl := Json.object.inj (Option.some.inj same)
  obtain rfl := Except.ok.inj h
  exact ⟨⟨g, hg⟩, senders, hscope, rfl⟩

theorem scope_repeated {params : Fields} {result : ScopeResult}
    (given : params.lookup "source" = some (.object policy))
    (accepted : configureSourceScope params = .ok result) : ∃ again,
      configureSourceScope (setKey params "source" (.object result.source)) = .ok again ∧
        again.wouldChange = false ∧ again.source = result.source := by
  obtain ⟨⟨g, hg⟩, senders, hscope, source⟩ := configureSourceScope_eq_ok given accepted
  have hnext := grants_setScope hg result.localDeliveryScope
  rw [← source] at hnext
  have senders' : hasSenders result.source = .ok () := by
    rw [hasSenders, source, lookup_setKey, if_neg (by decide)]
    exact senders
  have still : setKey result.source "local_delivery_scope"
      (.string result.localDeliveryScope.text) = result.source := by
    rw [source, setKey_setKey]
  refine ⟨_, by rw [configureSourceScope, lookup_setKey, if_pos rfl, requireJsonObject, ok_bind,
    hnext, ok_bind, lookup_setKey, if_neg (by decide), hscope, ok_bind, senders', ok_bind], ?_, ?_⟩
  · simp only [still, ne_eq, not_true_eq_false, decide_false]
  · exact still

/-! ## What the lists record of a log -/

theorem lastChange_cons (change : Change) (log : List Change) :
    lastChange (change :: log) row = (change.about row).or (lastChange log row) := by
  rw [lastChange, List.findSome?_cons]
  cases change.about row <;> rfl

theorem grantedSince_cons_of_none {change : Change} {log : List Change}
    (other : change.about row.goal = none) :
    grantedSince (change :: log) row =
      (decide (change.about row = some true) || grantedSince log row) := by
  rw [grantedSince, List.takeWhile_cons_of_pos (by rw [other, Option.isNone_none]), List.any_cons,
    grantedSince]

/-- A revocation that a later grant has not taken back stands in the lists. -/
structure Recorded (log : List Change) (g : Grants) : Prop where
  agent : ∀ row, row.agentId ≠ none → lastChange log row = some false → row ∈ g.blocked
  goal : ∀ goalId, lastChange log ⟨goalId, none⟩ = some false → ⟨goalId, none⟩ ∈ g.blocked ∨
    g.scope = .selected ∧ ∀ row ∈ g.targets, row.goalId = goalId →
      row.agentId ≠ none ∧ grantedSince log row = true

theorem recorded_nil (g : Grants) : Recorded [] g where
  agent _ _ h := by cases h
  goal _ h := by cases h

theorem recorded_recipient {log : List Change} {result : RecipientResult}
    (recorded : Recorded log g)
    (moved : g.updated result.target result.grantedAfter = .ok updated) :
    Recorded (.recipient result :: log) updated where
  agent row agent last := by
    rw [lastChange_cons, Change.about] at last
    split at last
    · next same =>
      subst same
      obtain ⟨granting, -⟩ | ⟨-, -, whole⟩ | ⟨-, rfl, -⟩ := Grants.updated_cases moved
      · rw [granting] at last
        cases last
      · exact absurd whole agent
      · by_cases blocked : result.target ∈ g.blocked
        · exact mem_ite_concat.2 (.inl blocked)
        · exact mem_ite_concat.2 (.inr ⟨blocked, rfl⟩)
    · next other =>
      exact Grants.mem_blocked_updated moved (recorded.agent row agent last) (.inl (Ne.symm other))
  goal goalId last := by
    rw [lastChange_cons, Change.about] at last
    split at last
    · next same =>
      have revoking : result.grantedAfter = false := Option.some.inj last
      rw [same, revoking] at moved
      obtain ⟨granting, -⟩ | ⟨-, rfl, -⟩ | ⟨-, -, agent⟩ := Grants.updated_cases moved
      · cases granting
      · by_cases all : g.scope = .allRegistered
        · left
          by_cases blocked : ⟨goalId, none⟩ ∈ g.blocked
          · exact mem_ite_concat.2 (.inl blocked)
          · exact mem_ite_concat.2 (.inr ⟨⟨all, blocked⟩, rfl⟩)
        · right
          refine ⟨?_, fun row mem goal => ?_⟩
          · cases scope : g.scope
            · exact absurd scope all
            · exact scope
          · exact absurd goal (of_decide_eq_true (List.mem_filter.mp mem).2)
      · exact absurd rfl agent
    · next other =>
      obtain blocked | ⟨selected, enrolled⟩ := recorded.goal goalId last
      · exact .inl (Grants.mem_blocked_updated moved blocked (.inl (Ne.symm other)))
      · refine .inr ⟨(Grants.updated_scope moved).trans selected, fun row mem goal => ?_⟩
        have untouched : (Change.recipient result).about row.goal = none := by
          rw [Change.about, Recipient.goal, goal, if_neg other]
        rw [grantedSince_cons_of_none untouched, Change.about]
        obtain old | ⟨granting, rfl⟩ := Grants.mem_targets_updated moved mem
        · obtain ⟨agent, since⟩ := enrolled row old goal
          exact ⟨agent, by rw [since, Bool.or_true]⟩
        · refine ⟨fun whole => other ?_, by simp [granting]⟩
          rw [← goal, ← whole]

theorem recorded_scope {log : List Change} {result : ScopeResult} (recorded : Recorded log g)
    (fits : result.localDeliveryScope = .allRegistered → ∀ goalId,
      lastChange log ⟨goalId, none⟩ = some false → ⟨goalId, none⟩ ∈ g.blocked) :
    Recorded (.scope result :: log) { g with scope := result.localDeliveryScope } where
  agent row agent last := recorded.agent row agent (by rwa [lastChange_cons] at last)
  goal goalId last := by
    rw [lastChange_cons] at last
    obtain blocked | ⟨selected, enrolled⟩ := recorded.goal goalId last
    · exact .inl blocked
    · cases scope : result.localDeliveryScope with
      | allRegistered => exact .inl (fits scope goalId last)
      | selected =>
        refine .inr ⟨rfl, fun row mem goal => ?_⟩
        obtain ⟨agent, since⟩ := enrolled row mem goal
        exact ⟨agent, by rw [grantedSince_cons_of_none rfl, since, Bool.or_true]⟩

theorem reaches_recorded {first : Fields} {log : List Change}
    (run : Reaches KeepsRevocations first log policy) (hg : grants policy = .ok g) :
    Recorded log g := by
  induction run generalizing g with
  | start => exact recorded_nil g
  | step before accepted fits ih =>
    cases accepted with
    | recipient given accepted =>
      obtain ⟨g', request, updated, hg', asked, planned⟩ :=
        configureSourceRecipient_eq_ok given accepted
      have hnext := grants_write hg' (recipientRequest_spec asked).1 planned.moved
      rw [← planned.source] at hnext
      obtain rfl := Except.ok.inj (hnext.symm.trans hg)
      refine recorded_recipient (ih hg') ?_
      rw [planned.target, planned.after]
      exact planned.moved
    | @scope params result given accepted =>
      obtain ⟨⟨g', hg'⟩, -, -, source⟩ := configureSourceScope_eq_ok given accepted
      have hnext := grants_setScope hg' result.localDeliveryScope
      rw [← source] at hnext
      obtain rfl := Except.ok.inj (hnext.symm.trans hg)
      exact recorded_scope (ih hg') fun all goalId => fits all g' goalId hg'

theorem Receives.grants (h : Receives collation query policy row) :
    ∃ g, grants policy = .ok g ∧ g.granted row = true := by
  obtain ⟨targets, h, mem⟩ := h
  obtain ⟨-, g, available, hg, registered, rfl⟩ := resolution_eq_ok.1 h
  rw [List.mem_mergeSort, List.mem_eraseDups, List.mem_filter] at mem
  exact ⟨g, hg, mem.2⟩

/-! ## Whole runs -/

/-- In every run that opens a policy only where its Goal revocations are recorded as blocks, no
revocation is undone by anything but a later grant. -/
theorem recipientRevocations_durable {first : Fields} {log : List Change}
    (run : Reaches KeepsRevocations first log policy) : Durable collation log policy where
  agentRevoked query row revoked receives := by
    obtain ⟨g, hg, granted⟩ := receives.grants
    have blocked := (reaches_recorded run hg).agent row receives.agent revoked
    have free := (Grants.granted_iff.1 granted).2 row blocked
    rw [Recipient.covers_self] at free
    cases free
  goalRevoked query row revoked receives := by
    obtain ⟨g, hg, granted⟩ := receives.grants
    obtain ⟨open', free⟩ := Grants.granted_iff.1 granted
    obtain blocked | ⟨selected, enrolled⟩ := (reaches_recorded run hg).goal row.goalId revoked.1
    · have covers : Recipient.covers ⟨row.goalId, none⟩ row = true :=
        Recipient.covers_iff.2 ⟨rfl, .inl rfl⟩
      rw [free _ blocked] at covers
      cases covers
    · rw [selected] at open'
      obtain ⟨target, mem, covers⟩ := open'.resolve_left (by decide)
      obtain ⟨goal, whole | same⟩ := Recipient.covers_iff.1 covers
      · exact (enrolled target mem goal).1 whole
      · have : target = row := by
          cases target
          cases row
          simp_all
        have since := (enrolled target mem goal).2
        rw [this, revoked.2] at since
        cases since
  apart _ _ _ _ given accepted apart := recipient_apart given accepted apart
  reported _ _ _ _ given accepted agent registry resolved :=
    recipient_reported given accepted agent registry resolved
  recipientRepeated _ _ given accepted := recipient_repeated given accepted
  scopeRepeated _ _ given accepted := scope_repeated given accepted

/-! ## A revocation that stays and one that comes back -/

/-- Texts compared by their code points. -/
def plainCollation : Collation := ⟨compare⟩

def registered : Json := .array [.object [("goal_id", .string "goal"), ("agent_id", .string "a")]]

def recipientParams (policy : Fields) (grant : Bool) : Fields :=
  [("source", .object policy), ("goal_id", .string "goal"), ("grant", .bool grant),
    ("available", registered), ("active_goal_ids", .array [.string "goal"])]

def scopeParams (policy : Fields) (scope : LocalDeliveryScope) : Fields :=
  [("source", .object policy), ("local_delivery_scope", .string scope.text)]

def goalRow : Json := .object [("goal_id", .string "goal")]

/-- A channel with these rows of Goals. -/
def channel (scope : LocalDeliveryScope) (rows : Fields) : Fields :=
  [("sender_ids", .array [.string "sender"]), ("local_delivery_scope", .string scope.text)] ++ rows

/-- What a Goal revocation leaves under `all_registered`: the Goal is blocked. -/
def blockedChannel (scope : LocalDeliveryScope) : Fields :=
  channel scope [("targets", .array []), ("blocked_targets", .array [goalRow])]

private def goalRevocation (scope : LocalDeliveryScope) (after : Fields) (before : Nat) :
    RecipientResult :=
  ⟨after, ⟨"goal", none⟩, scope, true, true, false, before, 0, false⟩

/-- The Goal is revoked, the channel is narrowed and opened again. -/
def blockedLog : List Change :=
  [.scope ⟨blockedChannel .allRegistered, .allRegistered, true⟩,
    .scope ⟨blockedChannel .selected, .selected, true⟩,
    .recipient (goalRevocation .allRegistered (blockedChannel .allRegistered) 0)]

private theorem keepsRevocations_blocked {result : ScopeResult} {log : List Change}
    (only : ∀ goalId, lastChange log ⟨goalId, none⟩ = some false → goalId = "goal") :
    KeepsRevocations log (blockedChannel .selected) (.scope result) := by
  intro _ g goalId hg revoked
  have read : grants (blockedChannel .selected) = .ok ⟨[], [⟨"goal", none⟩], .selected⟩ :=
    ok_of_toOption (by decide)
  obtain rfl := Except.ok.inj (read.symm.trans hg)
  rw [only goalId revoked]
  exact List.mem_singleton.mpr rfl

theorem recipientRevocations_durable_blocked :
    GoalRevoked blockedLog ⟨"goal", some "a"⟩ ∧
      Durable plainCollation blockedLog (blockedChannel .allRegistered) := by
  have revoked : Reaches KeepsRevocations (channel .allRegistered []) _ _ :=
    .step .start (.recipient rfl (show configureSourceRecipient
      (recipientParams (channel .allRegistered []) false) = .ok (goalRevocation .allRegistered
        (blockedChannel .allRegistered) 0) by decide)) trivial
  have narrowed : Reaches KeepsRevocations (channel .allRegistered []) _ _ :=
    .step revoked (.scope rfl (show configureSourceScope
      (scopeParams (blockedChannel .allRegistered) .selected) =
        .ok ⟨blockedChannel .selected, .selected, true⟩ by decide)) (fun all => by cases all)
  have opened : Reaches KeepsRevocations (channel .allRegistered []) blockedLog _ :=
    .step narrowed (.scope rfl (show configureSourceScope
      (scopeParams (blockedChannel .selected) .allRegistered) =
        .ok ⟨blockedChannel .allRegistered, .allRegistered, true⟩ by decide))
      (keepsRevocations_blocked fun goalId last => by
        rw [lastChange_cons, lastChange_cons, Change.about, Change.about] at last
        split at last
        · next same => exact (Recipient.mk.inj same).1.symm
        · cases last)
  exact ⟨⟨by decide, by decide⟩, recipientRevocations_durable opened⟩

/-- The Goal is revoked while the channel is narrow, and the channel is opened. -/
private def openedLog : List Change :=
  [.scope ⟨channel .allRegistered [("targets", .array [])], .allRegistered, true⟩,
    .recipient (goalRevocation .selected (channel .selected [("targets", .array [])]) 1)]

/-- Under `selected` the revocation of a Goal is only the end of its enrollment, so opening the
policy delivers to the Goal again. -/
theorem goalRevocation_reopened : ¬∀ (collation : Collation) (first : Fields) (log : List Change)
    (policy : Fields), Reaches (fun _ _ _ => True) first log policy →
      Durable collation log policy := by
  intro durable
  have revoked : Reaches (fun _ _ _ => True) (channel .selected [("targets", .array [goalRow])])
      _ _ :=
    .step .start (.recipient rfl (show configureSourceRecipient
      (recipientParams (channel .selected [("targets", .array [goalRow])]) false) =
        .ok (goalRevocation .selected (channel .selected [("targets", .array [])]) 1) by
          decide)) trivial
  have opened : Reaches (fun _ _ _ => True) (channel .selected [("targets", .array [goalRow])])
      openedLog _ :=
    .step revoked (.scope rfl (show configureSourceScope
      (scopeParams (channel .selected [("targets", .array [])]) .allRegistered) =
        .ok ⟨channel .allRegistered [("targets", .array [])], .allRegistered, true⟩ by
          decide)) trivial
  refine (durable plainCollation _ _ _ opened).goalRevoked
    [("sender_id", .string "sender"), ("available", registered)] ⟨"goal", some "a"⟩
    ⟨by decide, by decide⟩ ?_
  have read : grants (channel .allRegistered [("targets", .array [])]) =
      .ok ⟨[], [], .allRegistered⟩ := ok_of_toOption (by decide)
  have available : recipients (some registered) "registered recipients" true =
      .ok [⟨"goal", some "a"⟩] := ok_of_toOption (by decide)
  exact (receives_iff read).mpr
    ⟨ok_of_toOption (by decide), ⟨_, available, List.mem_singleton.mpr rfl⟩, by decide⟩

end Loopx.Collaboration
