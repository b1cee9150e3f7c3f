/- GID: Loopx/Goals/AcceptanceContract
   generality: I
   source: loopx/control_plane/goals/acceptance_contract.ts
   digest: The strict reader of a Goal's acceptance state, and what a written state reads as. -/

import Loopx.Goals.AcceptanceDocument

set_option autoImplicit false
set_option relaxedAutoImplicit false

namespace Loopx.Goals.Acceptance

open Loopx.Lib.KeyedList
open Loopx.Lib.Fallible (bind_eq_ok throwWhen throwWhen_eq_ok)
open Loopx.Json (JsNumber Protocol canonicalAuthorityJson)
open Loopx.Authority (canonicalAuthoritySha256 isBareSha256)

def GOAL_ACCEPTANCE_SCHEMA : String := "loopx_goal_acceptance_v2"

/-- A confirmed binding. Its criteria stay the value that was stored. -/
structure AcceptanceBinding where
  todoId : String
  todoSemanticDigest : String
  revision : Nat
  criterionIds : Json
deriving DecidableEq

structure AcceptanceVerification where
  operationId : String
  contractRevision : Nat
  contractDigest : String
  workDigest : String
  todoId : Option String
  results : List AcceptanceResult
deriving DecidableEq

structure AcceptanceState where
  ownerGoalRef : Option WireExactGoalRef
  revision : Nat
  digest : String
  document : AcceptanceDocument
  bindings : List AcceptanceBinding
  verification : Option AcceptanceVerification
deriving DecidableEq

inductive GoalAcceptanceAuthority where
  | legacy (state : Option AcceptanceState) (configurationRevision : Nat)
  | exact (lifecycle : GoalAcceptanceLifecycle) (state : Option AcceptanceState)
      (configurationRevision : Nat) (ownerMatches : Bool)
deriving DecidableEq

namespace GoalAcceptanceAuthority

def configurationRevision : GoalAcceptanceAuthority → Nat
  | .legacy _ revision => revision
  | .exact _ _ revision _ => revision

/-- The stored checks, whoever owns them. -/
def state : GoalAcceptanceAuthority → Option AcceptanceState
  | .legacy state _ => state
  | .exact _ state _ _ => state

def lifecycle : GoalAcceptanceAuthority → Option GoalAcceptanceLifecycle
  | .legacy _ _ => none
  | .exact lifecycle _ _ _ => some lifecycle

/-- The checks that the bound instance may use. -/
def usable : GoalAcceptanceAuthority → Option AcceptanceState
  | .legacy state _ => state
  | .exact _ state _ ownerMatches => if ownerMatches then state else none

end GoalAcceptanceAuthority

def optionalRef : Option WireExactGoalRef → Json
  | none => .null
  | some ref => ref.toJson

def optionalText : Option String → Json
  | none => .null
  | some s => .string s

def AcceptanceBinding.toJson (binding : AcceptanceBinding) : Json :=
  .object [("todo_id", .string binding.todoId),
    ("todo_semantic_digest", .string binding.todoSemanticDigest),
    ("revision", .number (JsNumber.ofNat binding.revision)),
    ("criterion_ids", binding.criterionIds), ("confirmed_by", .string "owner")]

def AcceptanceVerification.toJson (receipt : AcceptanceVerification) : Json :=
  .object [("operation_id", .string receipt.operationId),
    ("contract_revision", .number (JsNumber.ofNat receipt.contractRevision)),
    ("contract_digest", .string receipt.contractDigest),
    ("work_digest", .string receipt.workDigest), ("todo_id", optionalText receipt.todoId),
    ("results", .array (receipt.results.map AcceptanceResult.toJson))]

def optionalVerification : Option AcceptanceVerification → Json
  | none => .null
  | some receipt => receipt.toJson

/-- The seven fields of a stored state. -/
def stateFields (owner : Option WireExactGoalRef) (revision : Nat)
    (digest document : Json) (bindings : List Json) (verification : Json) : Fields :=
  [("schema_version", .string GOAL_ACCEPTANCE_SCHEMA), ("owner_goal_ref", optionalRef owner),
    ("revision", .number (JsNumber.ofNat revision)), ("digest", digest), ("document", document),
    ("bindings", .array bindings), ("verification", verification)]

def AcceptanceState.toJson (state : AcceptanceState) : Json :=
  .object (stateFields state.ownerGoalRef state.revision (.string state.digest)
    state.document.toJson (state.bindings.map AcceptanceBinding.toJson)
    (optionalVerification state.verification))

def clearedGoalAcceptance (revision : Nat) (goalRef : Option WireExactGoalRef) : Json :=
  .object (stateFields goalRef revision .null .null [] .null)

/-! ## The reader -/

variable (host : AcceptanceHost)

def positiveRevision (value : Option Json) : Option Nat :=
  match value with
  | some (.number n) =>
    match n.safeInteger? with
    | some i => if 0 < i then some i.toNat else none
    | none => none
  | _ => none

def bareSha256 (value : Option Json) : Option String :=
  match value with
  | some (.string s) => if isBareSha256 s then some s else none
  | _ => none

def readBinding (state : Fields) (document : AcceptanceDocument) (value : Json) :
    Protocol AcceptanceBinding := do
  let binding ← authorityFields (some value) "canonical binding"
  acceptanceKeys binding
    ["todo_id", "todo_semantic_digest", "revision", "criterion_ids", "confirmed_by"] []
  let declared := document.bindings.find? fun declared =>
    decide (binding.lookup "todo_id" = some (.string declared.todoId))
  match declared, bareSha256 (binding.lookup "todo_semantic_digest"),
      positiveRevision (binding.lookup "revision") with
  | some declared, some digest, some revision =>
    if binding.lookup "confirmed_by" = some (.string "owner") ∧
        binding.lookup "revision" = state.lookup "revision" ∧
        canonicalAuthoritySha256 host.sha ((binding.lookup "criterion_ids").getD .null) =
          canonicalAuthoritySha256 host.sha (strings declared.criterionIds) then
      .ok ⟨declared.todoId, digest, revision, (binding.lookup "criterion_ids").getD .null⟩
    else .error "invalid owner-confirmed acceptance binding"
  | _, _, _ => .error "invalid owner-confirmed acceptance binding"

/-- The criteria of a stored binding as texts; its digest has been compared with a list of texts. -/
def criterionTexts (value : Json) : List String :=
  (items (some value)).filterMap fun item => match item with
    | .string s => some s
    | _ => none

/-- What a verification of the current contract has to cover. -/
def expectedCriteria (document : AcceptanceDocument) (bindings : List AcceptanceBinding)
    (todoId : Option String) : Protocol (List String) :=
  match todoId with
  | none => .ok (document.criteria.map (·.id))
  | some todoId =>
    match bindings.find? (fun binding => binding.todoId = todoId) with
    | some binding => .ok (criterionTexts binding.criterionIds)
    | none => .error "current verification references an unbound Todo"

def verificationTodo (value : Option Json) : Protocol (Option String) :=
  match value with
  | some .null => .ok none
  | value => do
    let todoId ← id value
    .ok (some todoId)

def readVerification (revision : Nat) (digest : Option Json) (document : AcceptanceDocument)
    (bindings : List AcceptanceBinding) (value : Json) : Protocol AcceptanceVerification := do
  let receipt ← authorityFields (some value) "acceptance verification"
  acceptanceKeys receipt ["operation_id", "contract_revision", "contract_digest", "work_digest",
    "todo_id", "results"] []
  let operationId ← acceptanceText (receipt.lookup "operation_id") "verification operation id" 256
  throwWhen (receipt.lookup "operation_id" ≠ some (.string operationId))
    "verification operation id must be trimmed"
  match positiveRevision (receipt.lookup "contract_revision"),
      bareSha256 (receipt.lookup "contract_digest"), bareSha256 (receipt.lookup "work_digest") with
  | some contractRevision, some contractDigest, some workDigest => do
    throwWhen (revision < contractRevision) "invalid verification basis"
    let todoId ← verificationTodo (receipt.lookup "todo_id")
    if contractRevision = revision then do
      throwWhen (receipt.lookup "contract_digest" ≠ digest)
        "current verification contract digest mismatch"
      let expected ← expectedCriteria document bindings todoId
      let results ← normalizeAcceptanceResults host (receipt.lookup "results") (some expected)
      host.validateOracleResults document.criteria results
      .ok ⟨operationId, contractRevision, contractDigest, workDigest, todoId, results⟩
    else do
      let results ← normalizeAcceptanceResults host (receipt.lookup "results") none
      .ok ⟨operationId, contractRevision, contractDigest, workDigest, todoId, results⟩
  | _, _, _ => .error "invalid verification basis"

/-- `v0` and `v1` are the stored forms from before the current one. -/
def isLegacyState (state : Fields) : Bool :=
  state.lookup "schema_version" = some (.string "loopx_goal_acceptance_v0") ||
    state.lookup "schema_version" = some (.string "loopx_goal_acceptance_v1")

def isOwnedState (state : Fields) : Bool :=
  if isLegacyState state then
    decide (state.lookup "schema_version" = some (.string "loopx_goal_acceptance_v1"))
  else decide (state.lookup "owner_goal_ref" ≠ some .null)

def stateKeys (state : Fields) : List String :=
  ["schema_version", "revision", "digest", "document", "bindings", "verification"] ++
    (if isLegacyState state then ["enabled"] else []) ++
    (if !isLegacyState state || isOwnedState state then ["owner_goal_ref"] else [])

def stateRevision (state : Fields) : Protocol Nat :=
  match positiveRevision (state.lookup "revision") with
  | some revision =>
    if (isLegacyState state ∨
          state.lookup "schema_version" = some (.string GOAL_ACCEPTANCE_SCHEMA)) ∧
        (isLegacyState state → state.lookup "enabled" = some (.bool true) ∨
          state.lookup "enabled" = some (.bool false)) then .ok revision
    else .error "invalid acceptance state version"
  | none => .error "invalid acceptance state version"

def stateOwner (state : Fields) (goalId : String) : Protocol (Option WireExactGoalRef) :=
  if isOwnedState state then do
    let owner ← parseWireExactGoalRef (state.lookup "owner_goal_ref")
      "goal acceptance owner_goal_ref"
    throwWhen (owner.goalId ≠ goalId) "acceptance owner Goal identity mismatch"
    .ok (some owner)
  else .ok none

/-- `authority` of the reader: a revision counts only for the instance that owns the state. -/
def authorityOf (lifecycle : Option GoalAcceptanceLifecycle) (owner : Option WireExactGoalRef)
    (revision : Nat) (active : Option AcceptanceState) : GoalAcceptanceAuthority :=
  match lifecycle with
  | none => .legacy active revision
  | some lifecycle =>
    let ownerMatches := owner.any fun owner => sameExactGoalRef lifecycle.goalRef owner
    .exact lifecycle active (if ownerMatches then revision else 0) ownerMatches

/-- The checks of a state that has a document. -/
def readChecks (state : Fields) (owner : Option WireExactGoalRef) (revision : Nat) :
    Protocol AcceptanceState := do
  let document ← normalizeGoalAcceptanceDocument host (state.lookup "document")
  let digest := canonicalAuthoritySha256 host.sha document.toJson
  throwWhen (state.lookup "digest" ≠ some (.string digest)) "acceptance contract digest mismatch"
  let rows ← list (state.lookup "bindings") "canonical bindings" 4096 0
  let bindings ← rows.mapM (readBinding host state document)
  let _ ← unique (bindings.map (·.todoId)) "canonical bindings"
  throwWhen (bindings.length ≠ document.bindings.length)
    "canonical bindings omit declared work"
  match state.lookup "verification" with
  | none => .ok ⟨owner, revision, digest, document, bindings, none⟩
  | some .null => .ok ⟨owner, revision, digest, document, bindings, none⟩
  | some value => do
    let receipt ← readVerification host revision (state.lookup "digest") document bindings value
    .ok ⟨owner, revision, digest, document, bindings, some receipt⟩

def isCleared (state : Fields) : Bool :=
  !isLegacyState state && decide (state.lookup "document" = some .null)

/-- The active checks of a stored state: none once they were removed or switched off. -/
def readActive (state : Fields) (owner : Option WireExactGoalRef) (revision : Nat) :
    Protocol (Option AcceptanceState) :=
  if isCleared state then do
    throwWhen (¬(state.lookup "digest" = some .null ∧ state.lookup "bindings" = some (.array []) ∧
      state.lookup "verification" = some .null))
      "removed checks must not retain active commands or verification"
    .ok none
  else do
    let checks ← readChecks host state owner revision
    .ok (if isLegacyState state ∧ state.lookup "enabled" = some (.bool false) then none
      else some checks)

def readGoalAcceptanceAuthority (head : Fields) (goalId : String) :
    Protocol GoalAcceptanceAuthority := do
  let lifecycle ← readGoalAcceptanceLifecycle head goalId
  match head.lookup "goal_acceptance" with
  | none => .ok (authorityOf lifecycle none 0 none)
  | some value => do
    throwWhen (head.lookup "goal_id" ≠ some (.string goalId)) "acceptance Goal identity mismatch"
    let state ← authorityFields (some value) "goal_acceptance"
    acceptanceKeys state (stateKeys state) []
    let revision ← stateRevision state
    throwWhen (lifecycle.isNone ≠ !isOwnedState state)
      "goal acceptance state and lifecycle versions must be migrated atomically"
    let owner ← stateOwner state goalId
    let active ← readActive host state owner revision
    .ok (authorityOf lifecycle owner revision active)

def readGoalAcceptance (head : Fields) (goalId : String) : Protocol (Option AcceptanceState) := do
  let authority ← readGoalAcceptanceAuthority host head goalId
  .ok authority.usable

def bindGoalAcceptanceStateOwner (state : AcceptanceState) (owner : WireExactGoalRef) :
    Protocol AcceptanceState :=
  match state.ownerGoalRef with
  | some previous =>
    if sameExactGoalRef previous owner then .ok { state with ownerGoalRef := some owner }
    else .error "goal acceptance state belongs to another Goal instance"
  | none => .ok { state with ownerGoalRef := some owner }

/-! ## What the reader has seen -/

section Stored

variable {host : AcceptanceHost} {head : Fields} {goalId : String}

/-- The owner, the revision and the active checks of the state that a head stores. -/
inductive StoredAs (host : AcceptanceHost) (head : Fields) (goalId : String) :
    Option WireExactGoalRef → Nat → Option AcceptanceState → Prop where
  | absent (none_stored : head.lookup "goal_acceptance" = none) :
      StoredAs host head goalId none 0 none
  | present {value : Json} {state : Fields} {owner : Option WireExactGoalRef} {revision : Nat}
      {active : Option AcceptanceState} (stored : head.lookup "goal_acceptance" = some value)
      (goal : head.lookup "goal_id" = some (.string goalId))
      (fields : authorityFields (some value) "goal_acceptance" = .ok state)
      (hrevision : stateRevision state = .ok revision)
      (howner : stateOwner state goalId = .ok owner)
      (hactive : readActive host state owner revision = .ok active) :
      StoredAs host head goalId owner revision active

theorem isSome_of_stateOwner {state : Fields} {owner : Option WireExactGoalRef}
    (h : stateOwner state goalId = .ok owner) : owner.isSome = isOwnedState state := by
  unfold stateOwner at h
  split at h
  · rename_i howned
    obtain ⟨ref, _, h⟩ := bind_eq_ok.mp h
    obtain ⟨_, _, h⟩ := bind_eq_ok.mp h
    rw [← Except.ok.inj h, howned]
    rfl
  · rename_i howned
    rw [← Except.ok.inj h]
    simpa using howned

/-- Everything a successful read says about its head. -/
theorem readGoalAcceptanceAuthority_eq_ok {authority : GoalAcceptanceAuthority}
    (h : readGoalAcceptanceAuthority host head goalId = .ok authority) :
    ∃ lifecycle owner revision active,
      readGoalAcceptanceLifecycle head goalId = .ok lifecycle ∧
      StoredAs host head goalId owner revision active ∧
      (head.lookup "goal_acceptance" ≠ none → owner.isSome = lifecycle.isSome) ∧
      authority = authorityOf lifecycle owner revision active := by
  obtain ⟨lifecycle, hlifecycle, h⟩ := bind_eq_ok.mp h
  split at h
  · rename_i hnone
    exact ⟨lifecycle, none, 0, none, hlifecycle, .absent hnone,
      fun stored => absurd hnone stored, (Except.ok.inj h).symm⟩
  · rename_i value hvalue
    obtain ⟨_, hgoal, h⟩ := bind_eq_ok.mp h
    obtain ⟨state, hstate, h⟩ := bind_eq_ok.mp h
    obtain ⟨_, _, h⟩ := bind_eq_ok.mp h
    obtain ⟨revision, hrevision, h⟩ := bind_eq_ok.mp h
    obtain ⟨_, hatomic, h⟩ := bind_eq_ok.mp h
    obtain ⟨owner, howner, h⟩ := bind_eq_ok.mp h
    obtain ⟨active, hactive, h⟩ := bind_eq_ok.mp h
    refine ⟨lifecycle, owner, revision, active, hlifecycle, ?_, ?_, (Except.ok.inj h).symm⟩
    · exact .present hvalue (not_not.mp (throwWhen_eq_ok.mp hgoal)) hstate hrevision howner hactive
    · intro _
      have atomic := not_not.mp (throwWhen_eq_ok.mp hatomic)
      rw [isSome_of_stateOwner howner]
      cases lifecycle <;> simp_all

theorem StoredAs.unique {owner owner' : Option WireExactGoalRef} {revision revision' : Nat}
    {active active' : Option AcceptanceState} (h : StoredAs host head goalId owner revision active)
    (h' : StoredAs host head goalId owner' revision' active') :
    owner = owner' ∧ revision = revision' ∧ active = active' := by
  cases h with
  | absent hnone =>
    cases h' with
    | absent _ => exact ⟨rfl, rfl, rfl⟩
    | present stored _ _ _ _ _ => simp [hnone] at stored
  | present stored _ fields hrevision howner hactive =>
    cases h' with
    | absent hnone => simp [hnone] at stored
    | present stored' _ fields' hrevision' howner' hactive' =>
      obtain rfl := Option.some.inj (stored.symm.trans stored')
      obtain rfl := Except.ok.inj (fields.symm.trans fields')
      obtain rfl := Except.ok.inj (hrevision.symm.trans hrevision')
      obtain rfl := Except.ok.inj (howner.symm.trans howner')
      exact ⟨rfl, rfl, Except.ok.inj (hactive.symm.trans hactive')⟩

theorem StoredAs.goal {owner : Option WireExactGoalRef} {revision : Nat}
    {active : Option AcceptanceState} (h : StoredAs host head goalId owner revision active)
    (stored : head.lookup "goal_acceptance" ≠ none) :
    head.lookup "goal_id" = some (.string goalId) := by
  cases h with
  | absent hnone => exact absurd hnone stored
  | present _ goal _ _ _ _ => exact goal

theorem StoredAs.unstored {owner : Option WireExactGoalRef} {revision : Nat}
    {active : Option AcceptanceState} (h : StoredAs host head goalId owner revision active)
    (none_stored : head.lookup "goal_acceptance" = none) :
    owner = none ∧ revision = 0 ∧ active = none := by
  cases h with
  | absent _ => exact ⟨rfl, rfl, rfl⟩
  | present stored _ _ _ _ _ => simp [none_stored] at stored

theorem StoredAs.congr {other : Fields} {owner : Option WireExactGoalRef} {revision : Nat}
    {active : Option AcceptanceState} (h : StoredAs host head goalId owner revision active)
    (acceptance : AgreeAt "goal_acceptance" head other) (goal : AgreeAt "goal_id" head other) :
    StoredAs host other goalId owner revision active := by
  cases h with
  | absent hnone => exact .absent (acceptance.isNone.mp hnone)
  | present stored hgoal fields hrevision howner hactive =>
    have same := acceptance.authorityFields "goal_acceptance"
    rw [stored] at same
    cases hother : other.lookup "goal_acceptance" with
    | none => simp [acceptance.isNone.mpr hother] at stored
    | some value =>
      rw [hother] at same
      exact .present hother (goal.string.mp hgoal) (same.symm.trans fields) hrevision howner hactive

/-- Two heads that agree on the three fields of the authority read the same. -/
theorem readGoalAcceptanceAuthority_congr {left right : Fields}
    (lifecycle : AgreeAt "goal_acceptance_lifecycle" left right)
    (acceptance : AgreeAt "goal_acceptance" left right) (goal : AgreeAt "goal_id" left right) :
    readGoalAcceptanceAuthority host left goalId = readGoalAcceptanceAuthority host right goalId := by
  have fields := acceptance.authorityFields "goal_acceptance"
  unfold readGoalAcceptanceAuthority
  rw [readGoalAcceptanceLifecycle_congr lifecycle goal]
  congr 1
  funext lifecycle
  cases hl : left.lookup "goal_acceptance" with
  | none => rw [acceptance.isNone.mp hl]
  | some value =>
    cases hr : right.lookup "goal_acceptance" with
    | none => simp [acceptance.isNone.mpr hr] at hl
    | some value' =>
      rw [hl, hr] at fields
      simp only [fields, ne_eq, goal.string]

end Stored

end Loopx.Goals.Acceptance
