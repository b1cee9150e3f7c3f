/- GID: Loopx/Goals/AcceptanceLifecycle
   generality: I
   source: loopx/control_plane/goals/goal_instance_identity.ts, acceptance_lifecycle.ts
   digest: Exact Goal references, the lifecycle record of a head and its transitions. -/

import Loopx.Authority.Codec

set_option autoImplicit false
set_option relaxedAutoImplicit false

namespace Loopx.Goals

open Loopx.Lib.KeyedList
open Loopx.Lib.Fallible (bind_eq_ok throwWhen)
open Loopx.Json (Protocol canonicalAuthorityJson canonicalEntries)
open Loopx.Authority (canonicalAuthorityObject isHexDigit)

/-- A plain object. -/
abbrev Fields := List (String × Json)

/-- The fields of `canonicalAuthorityObject`. -/
def authorityFields (value : Option Json) (name : String) : Protocol Fields := do
  let canonical ← canonicalAuthorityObject value name
  match canonical with
  | .object fields => .ok fields
  | _ => .ok []

theorem authorityFields_eq_ok {value : Option Json} {name : String} {fields : Fields} :
    authorityFields value name = .ok fields ↔ ∃ raw, value = some (.object raw) ∧
      fields = canonicalEntries (raw.map (fun f => (f.1, canonicalAuthorityJson f.2))) := by
  constructor
  · intro h
    obtain ⟨canonical, hcanonical, h⟩ := bind_eq_ok.mp h
    rcases value with _ | value
    · simp [canonicalAuthorityObject] at hcanonical
    · cases value with
      | object raw =>
        obtain rfl := Except.ok.inj hcanonical
        rw [Json.canonicalAuthorityJson_object] at h
        exact ⟨raw, rfl, (Except.ok.inj h).symm⟩
      | _ => simp [canonicalAuthorityObject] at hcanonical
  · rintro ⟨raw, rfl, rfl⟩
    simp only [authorityFields, canonicalAuthorityObject, Lib.Fallible.ok_bind,
      Json.canonicalAuthorityJson_object]

theorem authorityFields_canonical (value : Option Json) (name : String) :
    authorityFields (value.map canonicalAuthorityJson) name = authorityFields value name := by
  rw [authorityFields, authorityFields, Authority.canonicalAuthorityObject_canonical]

/-- What a literal object with distinct keys reads at a key, once it is canonical. -/
theorem lookup_of_authorityFields {raw fields : Fields} {name : String}
    (h : authorityFields (some (.object raw)) name = .ok fields) (nodup : (keys raw).Nodup)
    (key : String) : fields.lookup key = (raw.lookup key).map canonicalAuthorityJson := by
  obtain ⟨raw', hraw, rfl⟩ := authorityFields_eq_ok.1 h
  obtain rfl : raw = raw' := by simpa using hraw
  exact Json.lookup_canonicalFields nodup key

/-! ## Goal references -/

structure WireExactGoalRef where
  goalId : String
  goalInstanceId : String
deriving DecidableEq

/-- `GOAL_ID`. -/
def isGoalId (s : String) : Bool :=
  decide (1 ≤ s.toList.length) && decide (s.toList.length ≤ 200) &&
    s.toList.all fun c => c.isAlphanum || c = '.' || c = '_' || c = ':' || c = '-'

/-- `GOAL_INSTANCE_ID`. -/
def isGoalInstanceId (s : String) : Bool :=
  s.toList.take 6 = "ginst_".toList && decide ((s.toList.drop 6).length = 32) &&
    (s.toList.drop 6).all isHexDigit

inductive ExactGoalRefIssue where
  | invalidGoalId
  | missingGoalInstanceId
  | invalidGoalInstanceId
deriving DecidableEq

def parseExactGoalRef (value : Option Json) : Except ExactGoalRefIssue WireExactGoalRef :=
  match value with
  | some (.object raw) =>
    match raw.lookup "goal_id" with
    | some (.string goalId) =>
      if isGoalId goalId then
        match raw.lookup "goal_instance_id" with
        | none => .error .missingGoalInstanceId
        | some (.string instanceId) =>
          if isGoalInstanceId instanceId then .ok ⟨goalId, instanceId⟩
          else .error .invalidGoalInstanceId
        | some _ => .error .invalidGoalInstanceId
      else .error .invalidGoalId
    | _ => .error .invalidGoalId
  | _ => .error .invalidGoalId

def parseWireExactGoalRef (value : Option Json) (label : String) : Protocol WireExactGoalRef :=
  match parseExactGoalRef value with
  | .ok parsed => .ok parsed
  | .error _ => .error (label ++ " must be an exact Goal reference")

/-- Equality of both names is equality of the references. -/
def sameExactGoalRef (left right : WireExactGoalRef) : Bool :=
  left.goalId = right.goalId && left.goalInstanceId = right.goalInstanceId

@[simp] theorem sameExactGoalRef_iff {left right : WireExactGoalRef} :
    sameExactGoalRef left right = true ↔ left = right := by
  cases left
  cases right
  simp [sameExactGoalRef]

def WireExactGoalRef.toJson (ref : WireExactGoalRef) : Json :=
  .object [("goal_id", .string ref.goalId), ("goal_instance_id", .string ref.goalInstanceId)]

theorem parseExactGoalRef_eq_ok {value : Option Json} {ref : WireExactGoalRef}
    (h : parseExactGoalRef value = .ok ref) : ∃ raw, value = some (.object raw) ∧
      raw.lookup "goal_id" = some (.string ref.goalId) ∧
      raw.lookup "goal_instance_id" = some (.string ref.goalInstanceId) := by
  unfold parseExactGoalRef at h
  split at h
  · rename_i raw
    split at h
    · rename_i goalId hgoal
      split at h
      · split at h
        · cases h
        · rename_i instanceId hinstance
          split at h
          · obtain rfl := Except.ok.inj h
            exact ⟨raw, rfl, hgoal, hinstance⟩
          · cases h
        · cases h
      · cases h
    · cases h
  · cases h

theorem parseWireExactGoalRef_eq_ok {value : Option Json} {label : String}
    {ref : WireExactGoalRef} (h : parseWireExactGoalRef value label = .ok ref) :
    parseExactGoalRef value = .ok ref := by
  unfold parseWireExactGoalRef at h
  split at h
  · rename_i parsed hparsed
    rw [hparsed, Except.ok.inj h]
  · cases h

/-- A reference that parses is the one that was written. -/
theorem parseWireExactGoalRef_written {ref parsed : WireExactGoalRef} {label : String}
    (h : parseWireExactGoalRef (some (canonicalAuthorityJson ref.toJson)) label = .ok parsed) :
    parsed = ref := by
  obtain ⟨raw, hraw, goal, goalInstance⟩ :=
    parseExactGoalRef_eq_ok (parseWireExactGoalRef_eq_ok h)
  rw [WireExactGoalRef.toJson, Json.canonicalAuthorityJson_object, Option.some.injEq,
    Json.object.injEq] at hraw
  subst hraw
  rw [Json.lookup_canonicalFields (by simp [keys])] at goal goalInstance
  have sameGoal : ref.goalId = parsed.goalId := by
    simpa [List.lookup_cons, canonicalAuthorityJson] using goal
  have sameInstance : ref.goalInstanceId = parsed.goalInstanceId := by
    simpa [List.lookup_cons, canonicalAuthorityJson] using goalInstance
  cases ref
  cases parsed
  simp_all

/-! ## The lifecycle record -/

def GOAL_ACCEPTANCE_LIFECYCLE_SCHEMA : String := "loopx_goal_acceptance_lifecycle_v0"

inductive LifecycleState where
  | active
  | retiring
deriving DecidableEq

def LifecycleState.text : LifecycleState → String
  | .active => "active"
  | .retiring => "retiring"

structure GoalAcceptanceLifecycle where
  state : LifecycleState
  goalRef : WireExactGoalRef
deriving DecidableEq

def GoalAcceptanceLifecycle.toJson (lifecycle : GoalAcceptanceLifecycle) : Json :=
  .object [("schema_version", .string GOAL_ACCEPTANCE_LIFECYCLE_SCHEMA),
    ("state", .string lifecycle.state.text), ("goal_ref", lifecycle.goalRef.toJson)]

def lifecycleState (value : Option Json) : Protocol LifecycleState :=
  match value with
  | some (.string "active") => .ok .active
  | some (.string "retiring") => .ok .retiring
  | _ => .error "invalid goal acceptance lifecycle state"

def readGoalAcceptanceLifecycle (head : Fields) (goalId : String) :
    Protocol (Option GoalAcceptanceLifecycle) :=
  match head.lookup "goal_acceptance_lifecycle" with
  | none => .ok none
  | some value => do
    let raw ← authorityFields (some value) "goal acceptance lifecycle"
    throwWhen (¬(raw.length = 3 ∧ (raw.lookup "schema_version").isSome ∧
      (raw.lookup "state").isSome ∧ (raw.lookup "goal_ref").isSome))
      "goal acceptance lifecycle fields are missing or unsupported"
    throwWhen (raw.lookup "schema_version" ≠ some (.string GOAL_ACCEPTANCE_LIFECYCLE_SCHEMA))
      "unsupported goal acceptance lifecycle version"
    let state ← lifecycleState (raw.lookup "state")
    let goalRef ← parseWireExactGoalRef (raw.lookup "goal_ref")
      "goal acceptance lifecycle goal_ref"
    throwWhen (¬(goalRef.goalId = goalId ∧ head.lookup "goal_id" = some (.string goalId)))
      "goal acceptance lifecycle Goal identity mismatch"
    .ok (some ⟨state, goalRef⟩)

/-- Two heads that hold the same value at a key, up to its canonical form. -/
def AgreeAt (key : String) (left right : Fields) : Prop :=
  (left.lookup key).map canonicalAuthorityJson = (right.lookup key).map canonicalAuthorityJson

theorem agreeAt_of_lookup {key : String} {left right : Fields}
    (h : left.lookup key = right.lookup key) : AgreeAt key left right :=
  congrArg (Option.map canonicalAuthorityJson) h

theorem AgreeAt.symm {key : String} {left right : Fields} (h : AgreeAt key left right) :
    AgreeAt key right left := Eq.symm h

theorem AgreeAt.trans {key : String} {left middle right : Fields} (h : AgreeAt key left middle)
    (h' : AgreeAt key middle right) : AgreeAt key left right := Eq.trans h h'

/-- A stored head agrees everywhere with the one that was handed to the store. -/
theorem agreeAt_stored {fields : Fields} (nodup : (keys fields).Nodup) (key : String) :
    AgreeAt key (canonicalEntries (fields.map (fun f => (f.1, canonicalAuthorityJson f.2))))
      fields := by
  rw [AgreeAt, Json.lookup_canonicalFields nodup, Option.map_map]
  congr 1
  funext v
  exact Json.canonical_canonicalAuthorityJson v

theorem AgreeAt.authorityFields {key : String} {left right : Fields} (h : AgreeAt key left right)
    (name : String) :
    authorityFields (left.lookup key) name = authorityFields (right.lookup key) name := by
  rw [← authorityFields_canonical (left.lookup key), h, authorityFields_canonical]

theorem AgreeAt.isNone {key : String} {left right : Fields} (h : AgreeAt key left right) :
    left.lookup key = none ↔ right.lookup key = none := by
  rw [← Option.map_eq_none_iff (f := canonicalAuthorityJson), h, Option.map_eq_none_iff]

private theorem lookup_string_of_agree {key s : String} {left right : Fields}
    (h : AgreeAt key left right) (hl : left.lookup key = some (.string s)) :
    right.lookup key = some (.string s) := by
  rw [AgreeAt, hl] at h
  cases hr : right.lookup key with
  | none => simp [hr] at h
  | some v =>
    cases v <;> simp_all [canonicalAuthorityJson]

theorem AgreeAt.string {key s : String} {left right : Fields} (h : AgreeAt key left right) :
    left.lookup key = some (.string s) ↔ right.lookup key = some (.string s) :=
  ⟨lookup_string_of_agree h, lookup_string_of_agree h.symm⟩

theorem readGoalAcceptanceLifecycle_congr {left right : Fields} {goalId : String}
    (lifecycle : AgreeAt "goal_acceptance_lifecycle" left right)
    (goal : AgreeAt "goal_id" left right) :
    readGoalAcceptanceLifecycle left goalId = readGoalAcceptanceLifecycle right goalId := by
  have fields := lifecycle.authorityFields "goal acceptance lifecycle"
  unfold readGoalAcceptanceLifecycle
  simp only [goal.string]
  cases hl : left.lookup "goal_acceptance_lifecycle" with
  | none =>
    rw [lifecycle.isNone.1 hl]
  | some value =>
    cases hr : right.lookup "goal_acceptance_lifecycle" with
    | none => simp [lifecycle.isNone.2 hr] at hl
    | some value' =>
      rw [hl, hr] at fields
      simp only [fields]

/-- A record that reads at all reads as it was written. -/
theorem readGoalAcceptanceLifecycle_written {head : Fields} {goalId : String}
    {lifecycle : GoalAcceptanceLifecycle} {read : Option GoalAcceptanceLifecycle}
    (written : head.lookup "goal_acceptance_lifecycle" = some lifecycle.toJson)
    (h : readGoalAcceptanceLifecycle head goalId = .ok read) : read = some lifecycle := by
  simp only [readGoalAcceptanceLifecycle, written] at h
  obtain ⟨raw, hraw, h⟩ := bind_eq_ok.mp h
  obtain ⟨_, _, h⟩ := bind_eq_ok.mp h
  obtain ⟨_, _, h⟩ := bind_eq_ok.mp h
  obtain ⟨state, hstate, h⟩ := bind_eq_ok.mp h
  obtain ⟨goalRef, hgoalRef, h⟩ := bind_eq_ok.mp h
  obtain ⟨_, _, h⟩ := bind_eq_ok.mp h
  have field := lookup_of_authorityFields hraw (by simp [keys])
  have sameState : state = lifecycle.state := by
    rw [field] at hstate
    cases hl : lifecycle.state <;>
      simpa [List.lookup_cons, hl, lifecycleState, LifecycleState.text, canonicalAuthorityJson,
        eq_comm] using hstate
  have sameRef : goalRef = lifecycle.goalRef := by
    rw [field] at hgoalRef
    exact parseWireExactGoalRef_written (by simpa [List.lookup_cons] using hgoalRef)
  rw [← Except.ok.inj h, sameState, sameRef]

/-- The Goal of a record that reads is the Goal of the head and the one it is read for. -/
theorem goalId_of_readGoalAcceptanceLifecycle {head : Fields} {goalId : String}
    {lifecycle : GoalAcceptanceLifecycle}
    (h : readGoalAcceptanceLifecycle head goalId = .ok (some lifecycle)) :
    lifecycle.goalRef.goalId = goalId ∧ head.lookup "goal_id" = some (.string goalId) := by
  unfold readGoalAcceptanceLifecycle at h
  split at h
  · cases h
  · obtain ⟨raw, _, h⟩ := bind_eq_ok.mp h
    obtain ⟨_, _, h⟩ := bind_eq_ok.mp h
    obtain ⟨_, _, h⟩ := bind_eq_ok.mp h
    obtain ⟨state, _, h⟩ := bind_eq_ok.mp h
    obtain ⟨goalRef, _, h⟩ := bind_eq_ok.mp h
    obtain ⟨_, hidentity, h⟩ := bind_eq_ok.mp h
    have identity := not_not.mp (Lib.Fallible.throwWhen_eq_ok.mp hidentity)
    obtain rfl := Option.some.inj (Except.ok.inj h)
    exact identity

/-! ## Transitions -/

inductive GoalAcceptanceLifecycleTransition where
  | bindExisting (goalRef : WireExactGoalRef)
  | retire (goalRef : WireExactGoalRef)
  | activateSuccessor (retiredGoalRef goalRef : WireExactGoalRef)
  | reconcileRecreated (retiredGoalRef goalRef : WireExactGoalRef)
deriving DecidableEq

namespace GoalAcceptanceLifecycleTransition

def goalRef : GoalAcceptanceLifecycleTransition → WireExactGoalRef
  | .bindExisting goalRef => goalRef
  | .retire goalRef => goalRef
  | .activateSuccessor _ goalRef => goalRef
  | .reconcileRecreated _ goalRef => goalRef

/-- The predecessor that a transition names with its successor. -/
def retiredGoalRef? : GoalAcceptanceLifecycleTransition → Option WireExactGoalRef
  | .bindExisting _ => none
  | .retire _ => none
  | .activateSuccessor retired _ => some retired
  | .reconcileRecreated retired _ => some retired

end GoalAcceptanceLifecycleTransition

def transitionFieldsError : String :=
  "goal acceptance lifecycle transition fields are missing or unsupported"

/-- The two transitions that name one reference. -/
def parseSingleTransition (raw : Fields)
    (kind : WireExactGoalRef → GoalAcceptanceLifecycleTransition) :
    Protocol GoalAcceptanceLifecycleTransition := do
  throwWhen (¬(raw.length = 2 ∧ (raw.lookup "goal_ref").isSome)) transitionFieldsError
  let goalRef ← parseWireExactGoalRef (raw.lookup "goal_ref") "transition goal_ref"
  .ok (kind goalRef)

/-- The two transitions that name a predecessor and its successor. -/
def parseSuccessorTransition (raw : Fields)
    (kind : WireExactGoalRef → WireExactGoalRef → GoalAcceptanceLifecycleTransition) :
    Protocol GoalAcceptanceLifecycleTransition := do
  throwWhen (¬(raw.length = 3 ∧ (raw.lookup "retired_goal_ref").isSome ∧
    (raw.lookup "goal_ref").isSome)) transitionFieldsError
  let retired ← parseWireExactGoalRef (raw.lookup "retired_goal_ref") "transition retired_goal_ref"
  let goalRef ← parseWireExactGoalRef (raw.lookup "goal_ref") "transition goal_ref"
  throwWhen (retired.goalId ≠ goalRef.goalId)
    "goal acceptance successor must preserve the Goal alias"
  throwWhen (sameExactGoalRef retired goalRef)
    "goal acceptance successor must use a new Goal instance"
  .ok (kind retired goalRef)

def parseGoalAcceptanceLifecycleTransition (value : Option Json) :
    Protocol GoalAcceptanceLifecycleTransition := do
  let raw ← authorityFields value "goal acceptance lifecycle transition"
  match raw.lookup "kind" with
  | some (.string "bind_existing") => parseSingleTransition raw .bindExisting
  | some (.string "retire") => parseSingleTransition raw .retire
  | some (.string "activate_successor") => parseSuccessorTransition raw .activateSuccessor
  | some (.string "reconcile_recreated") => parseSuccessorTransition raw .reconcileRecreated
  | _ => .error "unsupported goal acceptance lifecycle transition"

end Loopx.Goals
