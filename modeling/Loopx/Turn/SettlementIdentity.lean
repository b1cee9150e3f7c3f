/- GID: Loopx/Turn/SettlementIdentity
   generality: I
   source: loopx/control_plane/effect_program.ts
   digest: The identity of a settlement, its two payloads, and how far its effect id tells it. -/

import Loopx.Turn.Settlement
import Loopx.Lib.Delimited
import Loopx.Lib.Fallible

set_option autoImplicit false
set_option relaxedAutoImplicit false

namespace Loopx.Turn

open Loopx.Lib.Delimited (append_cons_inj)
open Loopx.Lib.Fallible
open Loopx.Lib.Strip (stripEnds stripEnds_eq_self_iff stripEnds_ne_nil)
open Loopx.Json (JsNumber)
open Loopx.Authority (Sha256 canonicalAuthoritySha256 isBareSha256 isJsSpace trim trim_trim)

def SETTLEMENT_IDENTITY_SCHEMA_VERSION : String := "quota_settlement_identity_v0"

def SCOPED_SETTLEMENT_IDENTITY_SCHEMA_VERSION : String := "quota_settlement_identity_v1"

inductive SettlementBindingKind where
  | todo
  | autonomousReplan
  | request
  | unbound
deriving DecidableEq, Repr

def SettlementBindingKind.text : SettlementBindingKind → String
  | .todo => "todo"
  | .autonomousReplan => "autonomous_replan"
  | .request => "request"
  | .unbound => "unbound"

/-- Identity of already admitted work. -/
structure ExecutionRequestSubject where
  requestId : String
  requestRevision : Nat
  requestDigest : String
  executionScopeSha256 : String
deriving DecidableEq, Repr

def ExecutionRequestSubject.fields (subject : ExecutionRequestSubject) : Payload :=
  [("request_id", .string subject.requestId),
    ("request_revision", .number (JsNumber.ofNat subject.requestRevision)),
    ("request_digest", .string subject.requestDigest),
    ("execution_scope_sha256", .string subject.executionScopeSha256)]

def ExecutionRequestSubject.toJson (subject : ExecutionRequestSubject) : Json :=
  .object subject.fields

/-- A field that is the hex digest of a text. -/
def bareDigest : Option Json → Option String
  | some (.string s) => if isBareSha256 s then some s else none
  | _ => none

def positiveRevision : Option Json → Option Nat
  | some (.number n) =>
    match n.safeInteger? with
    | some revision => if 1 ≤ revision then some revision.toNat else none
    | none => none
  | _ => none

def readSubject (subject : Payload) : Option ExecutionRequestSubject := do
  let requestId ← bareDigest (subject.lookup "request_id")
  let requestDigest ← bareDigest (subject.lookup "request_digest")
  let executionScope ← bareDigest (subject.lookup "execution_scope_sha256")
  let revision ← positiveRevision (subject.lookup "request_revision")
  if subject.length ≠ 4 then none
  else some ⟨requestId, revision, requestDigest, executionScope⟩

def executionRequestSubject : Option Json → Except String (Option ExecutionRequestSubject)
  | none => .ok none
  | some .null => .ok none
  | some (.object subject) =>
    match readSubject subject with
    | some subject => .ok (some subject)
    | none => .error "request subject requires exact request/revision/digest/scope identity"
  | some _ => .error "request subject must be an object"

structure SettlementIdentityInput where
  goalId : String
  agentId : String
  turnInstanceId : String
  todoId : Option String
  replanObligationId : Option String
  requestSubject : Option Json

structure SettlementIdentity where
  goalId : String
  agentId : String
  turnInstanceId : String
  requestSubject : Option ExecutionRequestSubject
  todoId : Option String
  replanObligationId : Option String
  bindingKind : SettlementBindingKind
  bindingId : String
  effectId : String
deriving DecidableEq, Repr

/-- An identity given to a function that builds it again. -/
def SettlementIdentity.toInput (identity : SettlementIdentity) : SettlementIdentityInput :=
  ⟨identity.goalId, identity.agentId, identity.turnInstanceId, identity.todoId,
    identity.replanObligationId, identity.requestSubject.map ExecutionRequestSubject.toJson⟩

/-- `truthyString(value).trim()` of an optional text. -/
def trimmedText (value : Option String) : String := trim (value.getD "")

/-- `${goal}:${agent}:${binding}:${turn}`. -/
def joinEffectId (goalId agentId binding turnInstanceId : String) : String :=
  goalId ++ ":" ++ agentId ++ ":" ++ binding ++ ":" ++ turnInstanceId

/-- `value || null` of a text. -/
def textOrNone (value : String) : Option String := if value = "" then none else some value

/-- More than one of the bindings is there. -/
def ambiguousBinding (todoId replanObligationId : String)
    (requestSubject : Option ExecutionRequestSubject) : Bool :=
  1 < [decide (todoId ≠ ""), decide (replanObligationId ≠ ""), requestSubject.isSome].countP id

variable (sha : Sha256)

def settlementIdentity (input : SettlementIdentityInput) : Except String SettlementIdentity := do
  let todoId := trimmedText input.todoId
  let replanObligationId := trimmedText input.replanObligationId
  let requestSubject ← executionRequestSubject input.requestSubject
  if ambiguousBinding todoId replanObligationId requestSubject then
    .error (if requestSubject.isSome then
        "settlement identity requires one Todo, replan obligation or request subject"
      else "settlement identity cannot bind both todo_id and replan_obligation_id")
  else
    let build := fun todo replan kind bindingId binding =>
      (⟨input.goalId, input.agentId, input.turnInstanceId, requestSubject, todo, replan, kind,
        bindingId, joinEffectId input.goalId input.agentId binding input.turnInstanceId⟩ :
        SettlementIdentity)
    if todoId ≠ "" then .ok (build (some todoId) none .todo todoId todoId)
    else if replanObligationId ≠ "" then
      .ok (build none (some replanObligationId) .autonomousReplan replanObligationId
        ("autonomous_replan:" ++ replanObligationId))
    else
      match requestSubject with
      | some subject =>
        let bindingId := canonicalAuthoritySha256 sha subject.toJson
        .ok (build none none .request bindingId ("request:" ++ bindingId))
      | none => .ok (build none none .unbound "" "")

def settlementIdentityPayload (value : SettlementIdentityInput) : Except String Payload := do
  let identity ← settlementIdentity sha value
  if identity.todoId.isSome ∨ identity.bindingKind = .unbound then
    .ok [("schema_version", .string SETTLEMENT_IDENTITY_SCHEMA_VERSION),
      ("effect_id", .string identity.effectId), ("goal_id", .string identity.goalId),
      ("agent_id", .string identity.agentId),
      ("todo_id", .string (identity.todoId.getD "")),
      ("turn_instance_id", .string identity.turnInstanceId)]
  else
    .ok ([("schema_version", .string SCOPED_SETTLEMENT_IDENTITY_SCHEMA_VERSION),
      ("effect_id", .string identity.effectId), ("goal_id", .string identity.goalId),
      ("agent_id", .string identity.agentId),
      ("turn_instance_id", .string identity.turnInstanceId),
      ("binding_kind", .string identity.bindingKind.text),
      ("binding_id", .string identity.bindingId)] ++
      match identity.requestSubject with
      | some subject => [("request_subject", subject.toJson)]
      | none =>
        [("replan_obligation_id",
          (identity.replanObligationId.map Json.string).getD .null)])

def invalidIdentity (reason : String) : SettlementFailure :=
  ⟨.invalidIdentity, .validation, reason⟩

/-- A text that is not blank. -/
def nonBlank : Option Json → Option String
  | some (.string s) => if trim s = "" then none else some s
  | _ => none

/-- A binding field of a plan: a text, or nothing. -/
def optionalBinding : Option Json → Option (Option String)
  | none => some none
  | some .null => some none
  | some (.string s) => some (some s)
  | _ => none

/-- The identity object of a plan. -/
def planIdentityObject (transactionPlan : Json) : Except SettlementFailure Payload :=
  let plan := match transactionPlan with
    | .object fields => fields
    | _ => []
  match plan.lookup "settlement_plan" with
  | some (.object settlementPlan) =>
    match settlementPlan.lookup "identity" with
    | some (.object identity) => .ok identity
    | _ => .error (invalidIdentity "Turn settlement plan has no identity")
  | _ => .error ⟨.receiptMissing, .validation, "Turn transaction has no typed settlement plan"⟩

/-- What the plan says it is about, before anything is derived from it. -/
def planIdentityInput (identity : Payload) : Except SettlementFailure SettlementIdentityInput :=
  match nonBlank (identity.lookup "goal_id"), nonBlank (identity.lookup "agent_id"),
      nonBlank (identity.lookup "turn_instance_id"), optionalBinding (identity.lookup "todo_id"),
      optionalBinding (identity.lookup "replan_obligation_id") with
  | some goalId, some agentId, some turnInstanceId, some todoId, some replanObligationId => do
    let requestSubject ← match executionRequestSubject (identity.lookup "request_subject") with
      | .ok subject => Except.ok subject
      | .error reason => .error (invalidIdentity reason)
    if ambiguousBinding (trimmedText todoId) (trimmedText replanObligationId) requestSubject then
      .error (invalidIdentity
        "Turn settlement plan requires exactly one Todo or autonomous replan obligation binding")
    else
      .ok ⟨goalId, agentId, turnInstanceId, textOrNone (trimmedText todoId),
        textOrNone (trimmedText replanObligationId),
        requestSubject.map ExecutionRequestSubject.toJson⟩
  | _, _, _, _, _ =>
    .error (invalidIdentity "Turn settlement plan identity requires string identifiers")

/-- A field that disagrees, or is missing where the payload has to declare it. -/
def disagrees (identity : Payload) (field expected : String) : Bool :=
  (identity.lookup "schema_version" =
      some (.string SCOPED_SETTLEMENT_IDENTITY_SCHEMA_VERSION) ||
    (identity.lookup field).isSome) && identity.lookup field ≠ some (.string expected)

/-- The declared schema does not go with the binding. -/
def unsupportedSchema (identity : Payload) (kind : SettlementBindingKind) : Bool :=
  match identity.lookup "schema_version" with
  | none => false
  | some version =>
    (version ≠ .string SETTLEMENT_IDENTITY_SCHEMA_VERSION &&
      version ≠ .string SCOPED_SETTLEMENT_IDENTITY_SCHEMA_VERSION) ||
    (version = .string SETTLEMENT_IDENTITY_SCHEMA_VERSION && kind ≠ .todo)

def checkPlanIdentity (identity : Payload) (built : SettlementIdentity) :
    Except SettlementFailure Unit := do
  throwWhen (built.bindingKind = .unbound)
    (invalidIdentity "Turn settlement plan has no binding")
  throwWhen (unsupportedSchema identity built.bindingKind = true)
    (invalidIdentity "Turn settlement plan identity schema is unsupported for its binding")
  throwWhen (disagrees identity "binding_kind" built.bindingKind.text = true ∨
      disagrees identity "binding_id" built.bindingId = true)
    (invalidIdentity "Turn settlement plan binding does not match its identity")
  match nonBlank (identity.lookup "effect_id") with
  | none => .error (invalidIdentity "Turn settlement plan has no effect id")
  | some effectId =>
    throwWhen (trim effectId ≠ built.effectId)
      (invalidIdentity "Turn settlement plan effect id does not match its identity")

def settlementIdentityFromPlan (transactionPlan : Json) :
    Except SettlementFailure SettlementIdentity := do
  let identity ← planIdentityObject transactionPlan
  let input ← planIdentityInput identity
  match settlementIdentity sha input with
  -- the bindings have been counted, and nothing else is refused here
  | .error reason => .error (invalidIdentity reason)
  | .ok built => do
    checkPlanIdentity identity built
    .ok built

/-! ## What an identity is built of -/

section
variable {sha}

/-- The binding as it stands in the effect id. -/
def SettlementIdentity.label (identity : SettlementIdentity) : String :=
  match identity.bindingKind with
  | .todo => identity.bindingId
  | .autonomousReplan => "autonomous_replan:" ++ identity.bindingId
  | .request => "request:" ++ identity.bindingId
  | .unbound => ""

/-- The binding fields of an identity, for each kind of binding. -/
def SettlementIdentity.Formed (sha : Sha256) (identity : SettlementIdentity) : Prop :=
  match identity.bindingKind with
  | .todo => identity.bindingId ≠ "" ∧ trim identity.bindingId = identity.bindingId ∧
      identity.todoId = some identity.bindingId ∧ identity.replanObligationId = none ∧
      identity.requestSubject = none
  | .autonomousReplan => identity.bindingId ≠ "" ∧
      trim identity.bindingId = identity.bindingId ∧ identity.todoId = none ∧
      identity.replanObligationId = some identity.bindingId ∧ identity.requestSubject = none
  | .request => ∃ subject, identity.requestSubject = some subject ∧
      readSubject subject.fields = some subject ∧ identity.todoId = none ∧
      identity.replanObligationId = none ∧
      identity.bindingId = canonicalAuthoritySha256 sha subject.toJson
  | .unbound => identity.bindingId = "" ∧ identity.todoId = none ∧
      identity.replanObligationId = none ∧ identity.requestSubject = none

private theorem bareDigest_eq_some {value : Option Json} {s : String} :
    bareDigest value = some s ↔ value = some (.string s) ∧ isBareSha256 s = true := by
  unfold bareDigest
  split
  · next text =>
    split
    · next bare =>
      constructor
      · rintro ⟨rfl⟩
        exact ⟨rfl, bare⟩
      · rintro ⟨same, _⟩
        exact congrArg some (Json.string.inj (Option.some.inj same))
    · next bare =>
      constructor
      · intro h
        cases h
      · rintro ⟨same, holds⟩
        rw [Json.string.inj (Option.some.inj same)] at bare
        exact absurd holds bare
  · next other =>
    constructor
    · intro h
      cases h
    · rintro ⟨same, _⟩
      exact absurd same (other s)

private theorem positiveRevision_ofNat {value : Option Json} {revision : Nat}
    (h : positiveRevision value = some revision) :
    positiveRevision (some (.number (JsNumber.ofNat revision))) = some revision := by
  unfold positiveRevision at h
  split at h
  · next n =>
    split at h
    · next i safe =>
      split at h
      · next positive =>
        obtain rfl := Option.some.inj h
        unfold JsNumber.safeInteger? at safe
        split at safe
        · next j _ =>
          split at safe
          · next small =>
            obtain rfl := Option.some.inj safe
            have bounded : j.toNat ≤ JsNumber.maxSafeInteger := by omega
            have positive' : (1 : Int) ≤ (j.toNat : Int) := by omega
            simp only [positiveRevision, JsNumber.safeInteger?_ofNat bounded]
            rw [if_pos positive']
            rfl
          · cases safe
        · cases safe
      · cases h
    · cases h
  · cases h

/-- A subject that was read is read again from its own fields. -/
theorem readSubject_fields {fields : Payload} {subject : ExecutionRequestSubject}
    (h : readSubject fields = some subject) : readSubject subject.fields = some subject := by
  unfold readSubject at h
  obtain ⟨requestId, id, h⟩ := Option.bind_eq_some_iff.mp h
  obtain ⟨requestDigest, digest, h⟩ := Option.bind_eq_some_iff.mp h
  obtain ⟨executionScope, scope, h⟩ := Option.bind_eq_some_iff.mp h
  obtain ⟨revision, positive, h⟩ := Option.bind_eq_some_iff.mp h
  split at h
  · cases h
  · obtain rfl := Option.some.inj h
    have reads : ∀ {s : String} {value : Option Json}, bareDigest value = some s →
        bareDigest (some (.string s)) = some s := fun found =>
      bareDigest_eq_some.2 ⟨rfl, (bareDigest_eq_some.1 found).2⟩
    simp only [readSubject, ExecutionRequestSubject.fields, List.lookup_cons]
    simp [reads id, reads digest, reads scope, positiveRevision_ofNat positive]

theorem executionRequestSubject_toJson {value : Option Json} {subject : ExecutionRequestSubject}
    (h : executionRequestSubject value = .ok (some subject)) :
    readSubject subject.fields = some subject := by
  unfold executionRequestSubject at h
  split at h
  · cases h
  · cases h
  · split at h
    · next read =>
      obtain rfl := Option.some.inj (Except.ok.inj h)
      exact readSubject_fields read
    · cases h
  · cases h

private theorem trim_trimmedText (value : Option String) :
    trim (trimmedText value) = trimmedText value := trim_trim _

theorem settlementIdentity_formed {input : SettlementIdentityInput}
    {identity : SettlementIdentity} (built : settlementIdentity sha input = .ok identity) :
    identity.Formed sha ∧ identity.goalId = input.goalId ∧ identity.agentId = input.agentId ∧
      identity.turnInstanceId = input.turnInstanceId ∧
      identity.effectId =
        joinEffectId input.goalId input.agentId identity.label input.turnInstanceId := by
  unfold settlementIdentity at built
  obtain ⟨subject, read, built⟩ := bind_eq_ok.mp built
  split at built
  · cases built
  · next single =>
    simp only [ambiguousBinding, Bool.not_eq_true, decide_eq_false_iff_not] at single
    split at built
    · next todo =>
      obtain rfl := Except.ok.inj built
      have alone : subject = none := by
        cases subject with
        | none => rfl
        | some s => simp [todo] at single
      exact ⟨⟨todo, trim_trimmedText _, rfl, rfl, alone⟩, rfl, rfl, rfl, rfl⟩
    · next noTodo =>
      split at built
      · next replan =>
        obtain rfl := Except.ok.inj built
        have alone : subject = none := by
          cases subject with
          | none => rfl
          | some s => simp [replan, not_not.mp noTodo] at single
        exact ⟨⟨replan, trim_trimmedText _, rfl, rfl, alone⟩, rfl, rfl, rfl, rfl⟩
      · split at built
        · next s =>
          obtain rfl := Except.ok.inj built
          exact ⟨⟨s, rfl, executionRequestSubject_toJson read, rfl, rfl, rfl⟩, rfl, rfl, rfl, rfl⟩
        · obtain rfl := Except.ok.inj built
          exact ⟨⟨rfl, rfl, rfl, rfl⟩, rfl, rfl, rfl, rfl⟩

/-- An identity is built again from its own fields. -/
theorem settlementIdentity_toInput {identity : SettlementIdentity} (formed : identity.Formed sha)
    (joined : identity.effectId = joinEffectId identity.goalId identity.agentId identity.label
      identity.turnInstanceId) : settlementIdentity sha identity.toInput = .ok identity := by
  obtain ⟨goalId, agentId, turnInstanceId, subject, todo, replan, kind, bindingId, effectId⟩ :=
    identity
  have blank : trim "" = "" := by decide
  cases kind with
  | todo =>
    dsimp only [SettlementIdentity.Formed] at formed
    dsimp only [SettlementIdentity.label] at joined
    obtain ⟨nonempty, trimmed, rfl, rfl, rfl⟩ := formed
    obtain rfl := joined
    simp [settlementIdentity, SettlementIdentity.toInput, executionRequestSubject, trimmedText,
      ambiguousBinding, blank, trimmed, nonempty]
  | autonomousReplan =>
    dsimp only [SettlementIdentity.Formed] at formed
    dsimp only [SettlementIdentity.label] at joined
    obtain ⟨nonempty, trimmed, rfl, rfl, rfl⟩ := formed
    obtain rfl := joined
    simp [settlementIdentity, SettlementIdentity.toInput, executionRequestSubject, trimmedText,
      ambiguousBinding, blank, trimmed, nonempty]
  | request =>
    dsimp only [SettlementIdentity.Formed] at formed
    dsimp only [SettlementIdentity.label] at joined
    obtain ⟨s, rfl, read, rfl, rfl, rfl⟩ := formed
    obtain rfl := joined
    simp [settlementIdentity, SettlementIdentity.toInput, executionRequestSubject, trimmedText,
      ambiguousBinding, blank, read, ExecutionRequestSubject.toJson]
  | unbound =>
    dsimp only [SettlementIdentity.Formed] at formed
    dsimp only [SettlementIdentity.label] at joined
    obtain ⟨rfl, rfl, rfl, rfl⟩ := formed
    obtain rfl := joined
    simp [settlementIdentity, SettlementIdentity.toInput, executionRequestSubject, trimmedText,
      ambiguousBinding, blank]

private theorem nonBlank_string {s : String} (h : trim s ≠ "") :
    nonBlank (some (.string s)) = some s := if_neg h

/-- The payload of a bound identity says what the identity was built of, and only its effect id is
left to check. -/
theorem payload_reads {identity : SettlementIdentity} {payload : Payload}
    (formed : identity.Formed sha) (bound : identity.bindingKind ≠ .unbound)
    (rebuilt : settlementIdentity sha identity.toInput = .ok identity)
    (goal : trim identity.goalId ≠ "") (agent : trim identity.agentId ≠ "")
    (turn : trim identity.turnInstanceId ≠ "")
    (written : settlementIdentityPayload sha identity.toInput = .ok payload) :
    planIdentityInput payload = .ok identity.toInput ∧
      payload.lookup "effect_id" = some (.string identity.effectId) ∧
      unsupportedSchema payload identity.bindingKind = false ∧
      disagrees payload "binding_kind" identity.bindingKind.text = false ∧
      disagrees payload "binding_id" identity.bindingId = false := by
  rw [settlementIdentityPayload, rebuilt, ok_bind] at written
  obtain ⟨goalId, agentId, turnInstanceId, subject, todo, replan, kind, bindingId, effectId⟩ :=
    identity
  have blank : trim "" = "" := by decide
  have versions : SETTLEMENT_IDENTITY_SCHEMA_VERSION ≠
    SCOPED_SETTLEMENT_IDENTITY_SCHEMA_VERSION := by decide
  dsimp only at goal agent turn
  cases kind with
  | todo =>
    dsimp only [SettlementIdentity.Formed] at formed
    obtain ⟨nonempty, trimmed, rfl, rfl, rfl⟩ := formed
    obtain rfl := Except.ok.inj written
    refine ⟨?_, rfl, ?_, ?_, ?_⟩
    · simp [planIdentityInput, List.lookup_cons, nonBlank_string goal, nonBlank_string agent,
        nonBlank_string turn, optionalBinding, executionRequestSubject, trimmedText,
        ambiguousBinding, blank, trimmed, nonempty, textOrNone, SettlementIdentity.toInput]
    · simp [unsupportedSchema]
    · simp [disagrees, List.lookup_cons, versions]
    · simp [disagrees, List.lookup_cons, versions]
  | autonomousReplan =>
    dsimp only [SettlementIdentity.Formed] at formed
    obtain ⟨nonempty, trimmed, rfl, rfl, rfl⟩ := formed
    obtain rfl := Except.ok.inj written
    refine ⟨?_, rfl, ?_, ?_, ?_⟩
    · simp [planIdentityInput, List.lookup_cons, nonBlank_string goal, nonBlank_string agent,
        nonBlank_string turn, optionalBinding, executionRequestSubject, trimmedText,
        ambiguousBinding, blank, trimmed, nonempty, textOrNone, SettlementIdentity.toInput]
    · simp [unsupportedSchema, versions.symm]
    · simp [disagrees, List.lookup_cons, SettlementBindingKind.text]
    · simp [disagrees, List.lookup_cons]
  | request =>
    dsimp only [SettlementIdentity.Formed] at formed
    obtain ⟨s, rfl, read, rfl, rfl, rfl⟩ := formed
    obtain rfl := Except.ok.inj written
    refine ⟨?_, rfl, ?_, ?_, ?_⟩
    · simp [planIdentityInput, List.lookup_cons, nonBlank_string goal, nonBlank_string agent,
        nonBlank_string turn, optionalBinding, executionRequestSubject, trimmedText,
        ambiguousBinding, blank, read, textOrNone, SettlementIdentity.toInput,
        ExecutionRequestSubject.toJson]
    · simp [unsupportedSchema, versions.symm]
    · simp [disagrees, List.lookup_cons, SettlementBindingKind.text]
    · simp [disagrees, List.lookup_cons]
  | unbound => exact absurd rfl bound

/-! ## Reading a payload back -/

private theorem toList_joinEffectId (goalId agentId binding turnInstanceId : String) :
    (joinEffectId goalId agentId binding turnInstanceId).toList =
      goalId.toList ++ ':' :: (agentId.toList ++ ':' :: (binding.toList ++ ':' ::
        turnInstanceId.toList)) := by
  have colon : (":" : String).toList = [':'] := rfl
  simp only [joinEffectId, String.toList_append, colon, List.append_assoc, List.cons_append,
    List.nil_append]

/-- No white space at the two ends of an effect id. -/
def Flush (goalId turnInstanceId : String) : Prop :=
  (∀ c ∈ goalId.toList.head?, isJsSpace c = false) ∧
    ∀ c ∈ turnInstanceId.toList.getLast?, isJsSpace c = false

private theorem toList_ne_nil {s : String} (h : trim s ≠ "") : s.toList ≠ [] := by
  intro empty
  refine h ?_
  rw [trim, empty]
  rfl

theorem trim_joinEffectId {goalId agentId binding turnInstanceId : String}
    (goal : trim goalId ≠ "") (turn : trim turnInstanceId ≠ "") :
    trim (joinEffectId goalId agentId binding turnInstanceId) =
        joinEffectId goalId agentId binding turnInstanceId ↔ Flush goalId turnInstanceId := by
  have asLists : ∀ s : String, trim s = s ↔ stripEnds isJsSpace s.toList = s.toList := by
    intro s
    constructor
    · intro same
      have lists := congrArg String.toList same
      rwa [trim, String.toList_ofList] at lists
    · intro same
      refine String.toList_injective ?_
      rw [trim, String.toList_ofList]
      exact same
  obtain ⟨first, rest, starts⟩ := List.exists_cons_of_ne_nil (toList_ne_nil goal)
  have ends := List.getLast?_eq_some_getLast (toList_ne_nil turn)
  rw [asLists, stripEnds_eq_self_iff, toList_joinEffectId, Flush, starts]
  simp [List.getLast?_append, List.getLast?_cons, ends]

private theorem checkPlanIdentity_ok {payload : Payload} {identity : SettlementIdentity}
    (bound : identity.bindingKind ≠ .unbound)
    (schema : unsupportedSchema payload identity.bindingKind = false)
    (kind : disagrees payload "binding_kind" identity.bindingKind.text = false)
    (id : disagrees payload "binding_id" identity.bindingId = false)
    (effect : payload.lookup "effect_id" = some (.string identity.effectId))
    (filled : trim identity.effectId ≠ "") :
    checkPlanIdentity payload identity = .ok () ↔
      trim identity.effectId = identity.effectId := by
  rw [checkPlanIdentity, throwWhen_of_not bound, ok_bind, throwWhen_of_not (by simp [schema]),
    ok_bind, throwWhen_of_not (by simp [kind, id]), ok_bind, effect, nonBlank_string filled]
  simp

/-- A plan that holds the payload of a bound identity is read as that identity, unless the ends of
its effect id are trimmed away. -/
theorem settlementIdentityFromPlan_payload {input : SettlementIdentityInput}
    {identity : SettlementIdentity} {payload : Payload} {plan : Json}
    (built : settlementIdentity sha input = .ok identity) (goal : trim input.goalId ≠ "")
    (agent : trim input.agentId ≠ "") (turn : trim input.turnInstanceId ≠ "")
    (bound : identity.bindingKind ≠ .unbound)
    (written : settlementIdentityPayload sha identity.toInput = .ok payload)
    (holds : planIdentityObject plan = .ok payload) :
    settlementIdentityFromPlan sha plan = .ok identity ↔
      Flush input.goalId input.turnInstanceId := by
  obtain ⟨formed, sameGoal, sameAgent, sameTurn, joined⟩ := settlementIdentity_formed built
  rw [← sameGoal] at goal joined ⊢
  rw [← sameAgent] at agent joined
  rw [← sameTurn] at turn joined ⊢
  have rebuilt := settlementIdentity_toInput formed joined
  obtain ⟨reads, effect, schema, kind, id⟩ :=
    payload_reads formed bound rebuilt goal agent turn written
  have filled : trim identity.effectId ≠ "" := by
    intro blank
    have lists := congrArg String.toList blank
    rw [trim, String.toList_ofList, joined, toList_joinEffectId] at lists
    exact stripEnds_ne_nil (List.mem_append_right _ List.mem_cons_self) (by decide) lists
  rw [← trim_joinEffectId goal turn, ← joined,
    ← checkPlanIdentity_ok bound schema kind id effect filled, settlementIdentityFromPlan, holds,
    ok_bind, reads, ok_bind, rebuilt]
  dsimp only
  cases checked : checkPlanIdentity payload identity with
  | error e => simp [error_bind]
  | ok u => simp [ok_bind]

/-! ## Two plans with one effect id -/

def colons (s : String) : Nat := s.toList.count ':'

/-- What a plan says it is about. -/
def planInput (plan : Json) : Except SettlementFailure SettlementIdentityInput := do
  let identity ← planIdentityObject plan
  planIdentityInput identity

def BindsTodo (input : SettlementIdentityInput) : Prop := trimmedText input.todoId ≠ ""

/-- The binding of an input as it stands in the effect id, up to the digest of a request. -/
def bindingText (input : SettlementIdentityInput) : String :=
  if trimmedText input.todoId ≠ "" then trimmedText input.todoId
  else if trimmedText input.replanObligationId ≠ "" then
    "autonomous_replan:" ++ trimmedText input.replanObligationId
  else
    match executionRequestSubject input.requestSubject with
    | .ok (some _) => "request:"
    | _ => ""

/-- A Todo id that looks like another kind of binding. -/
def LabelledTodo (input : SettlementIdentityInput) : Prop :=
  BindsTodo input ∧ ("autonomous_replan:".toList <+: (trimmedText input.todoId).toList ∨
    "request:".toList <+: (trimmedText input.todoId).toList)

/-- The delimiters of two effect ids stand for the same boundaries. -/
structure SameBoundaries (left right : SettlementIdentityInput) : Prop where
  goal : colons left.goalId = colons right.goalId
  agent : colons left.agentId = colons right.agentId
  binding : colons (bindingText left) = colons (bindingText right)
  kind : BindsTodo left ∧ BindsTodo right ∨ ¬LabelledTodo left ∧ ¬LabelledTodo right

/-- The goal, agent, turn and binding that an identity denotes. -/
structure SameSubject (left right : SettlementIdentity) : Prop where
  goal : left.goalId = right.goalId
  agent : left.agentId = right.agentId
  turn : left.turnInstanceId = right.turnInstanceId
  kind : left.bindingKind = right.bindingKind
  binding : left.bindingId = right.bindingId

private theorem colons_append (left right : String) :
    colons (left ++ right) = colons left + colons right := by
  rw [colons, String.toList_append, List.count_append]
  rfl

private theorem colons_digest (value : Json) : colons (canonicalAuthoritySha256 sha value) = 0 := by
  refine List.count_eq_zero.mpr fun mem => ?_
  have bare := sha.bare (Loopx.Json.canonicalAuthorityBytes value)
  simp only [isBareSha256, Bool.and_eq_true, List.all_eq_true] at bare
  exact absurd (bare.2 _ mem) (by decide)

/-- How the binding of an identity comes from what it was built of. -/
theorem settlementIdentity_binding {input : SettlementIdentityInput}
    {identity : SettlementIdentity} (built : settlementIdentity sha input = .ok identity) :
    colons identity.label = colons (bindingText input) ∧
      (identity.bindingKind = .todo ↔ BindsTodo input) ∧
      (BindsTodo input → identity.label = trimmedText input.todoId) := by
  unfold settlementIdentity at built
  obtain ⟨subject, read, built⟩ := bind_eq_ok.mp built
  split at built
  · cases built
  · split at built
    · next todo =>
      obtain rfl := Except.ok.inj built
      exact ⟨by rw [bindingText, if_pos todo]; rfl, ⟨fun _ => todo, fun _ => rfl⟩, fun _ => rfl⟩
    · next noTodo =>
      refine ⟨?_, ⟨fun isTodo => ?_, fun binds => absurd binds noTodo⟩,
        fun binds => absurd binds noTodo⟩
      · rw [bindingText, if_neg noTodo]
        split at built
        · next replan =>
          obtain rfl := Except.ok.inj built
          rw [if_pos replan]
          rfl
        · next noReplan =>
          rw [if_neg noReplan, read]
          split at built
          · obtain rfl := Except.ok.inj built
            show colons ("request:" ++ _) = _
            rw [colons_append, colons_digest]
            rfl
          · obtain rfl := Except.ok.inj built
            rfl
      · split at built
        · obtain rfl := Except.ok.inj built
          cases isTodo
        · split at built
          · obtain rfl := Except.ok.inj built
            cases isTodo
          · obtain rfl := Except.ok.inj built
            cases isTodo

theorem settlementIdentityFromPlan_eq_ok {plan : Json} {identity : SettlementIdentity}
    (accepted : settlementIdentityFromPlan sha plan = .ok identity) :
    ∃ input, planInput plan = .ok input ∧ settlementIdentity sha input = .ok identity ∧
      identity.bindingKind ≠ .unbound := by
  unfold settlementIdentityFromPlan at accepted
  obtain ⟨object, holds, accepted⟩ := bind_eq_ok.mp accepted
  obtain ⟨input, reads, accepted⟩ := bind_eq_ok.mp accepted
  split at accepted
  · cases accepted
  · next built made =>
    obtain ⟨_, checked, accepted⟩ := bind_eq_ok.mp accepted
    obtain rfl := Except.ok.inj accepted
    obtain ⟨_, bound, _⟩ := bind_eq_ok.mp checked
    exact ⟨input, by rw [planInput, holds]; exact reads, made, throwWhen_eq_ok.mp bound⟩

/-- The label tells the kind and the id of a binding, where a Todo id is not labelled. -/
private theorem binding_of_label {left right : SettlementIdentity}
    (same : left.label = right.label) (bound : left.bindingKind ≠ .unbound)
    (bound' : right.bindingKind ≠ .unbound)
    (kinds : left.bindingKind = .todo ∧ right.bindingKind = .todo ∨
      (left.bindingKind = .todo → ¬("autonomous_replan:".toList <+: left.label.toList ∨
        "request:".toList <+: left.label.toList)) ∧
      (right.bindingKind = .todo → ¬("autonomous_replan:".toList <+: right.label.toList ∨
        "request:".toList <+: right.label.toList))) :
    left.bindingKind = right.bindingKind ∧ left.bindingId = right.bindingId := by
  have starts : ∀ front back : String, front.toList <+: (front ++ back).toList := by
    intro front back
    rw [String.toList_append]
    exact List.prefix_append _ _
  have apart : ∀ back back' : String, "autonomous_replan:" ++ back ≠ "request:" ++ back' := by
    intro back back' equal
    have lists := congrArg (fun s => s.toList.head?) equal
    simp only [String.toList_append] at lists
    cases lists
  unfold SettlementIdentity.label at same kinds
  cases kind : left.bindingKind <;> cases kind' : right.bindingKind <;>
    simp only [kind, kind'] at same kinds bound bound'
  case todo.todo => exact ⟨rfl, same⟩
  case todo.autonomousReplan =>
    rcases kinds with ⟨_, impossible⟩ | ⟨plain, _⟩
    · cases impossible
    · exact absurd (.inl (same ▸ starts _ _)) (plain trivial)
  case todo.request =>
    rcases kinds with ⟨_, impossible⟩ | ⟨plain, _⟩
    · cases impossible
    · exact absurd (.inr (same ▸ starts _ _)) (plain trivial)
  case autonomousReplan.todo =>
    rcases kinds with ⟨impossible, _⟩ | ⟨_, plain⟩
    · cases impossible
    · exact absurd (.inl (same ▸ starts _ _)) (plain trivial)
  case request.todo =>
    rcases kinds with ⟨impossible, _⟩ | ⟨_, plain⟩
    · cases impossible
    · exact absurd (.inr (same ▸ starts _ _)) (plain trivial)
  case autonomousReplan.autonomousReplan =>
    exact ⟨rfl, String.append_right_inj _ |>.mp same⟩
  case request.request => exact ⟨rfl, String.append_right_inj _ |>.mp same⟩
  case autonomousReplan.request => exact absurd same (apart _ _)
  case request.autonomousReplan => exact absurd same.symm (apart _ _)
  all_goals exact absurd rfl (by assumption)

/-- With one effect id, two accepted plans are about the same turn exactly where its delimiters
stand for the same boundaries. -/
theorem sameSubject_iff {input input' : SettlementIdentityInput}
    {identity identity' : SettlementIdentity}
    (built : settlementIdentity sha input = .ok identity)
    (built' : settlementIdentity sha input' = .ok identity')
    (bound : identity.bindingKind ≠ .unbound) (bound' : identity'.bindingKind ≠ .unbound)
    (effect : identity.effectId = identity'.effectId) :
    SameSubject identity identity' ↔ SameBoundaries input input' := by
  obtain ⟨_, goal, agent, turn, joined⟩ := settlementIdentity_formed built
  obtain ⟨_, goal', agent', turn', joined'⟩ := settlementIdentity_formed built'
  obtain ⟨counts, isTodo, todoLabel⟩ := settlementIdentity_binding built
  obtain ⟨counts', isTodo', todoLabel'⟩ := settlementIdentity_binding built'
  constructor
  · intro same
    have labels : identity.label = identity'.label := by
      unfold SettlementIdentity.label
      rw [same.kind, same.binding]
    refine ⟨?_, ?_, ?_, ?_⟩
    · rw [← goal, ← goal', same.goal]
    · rw [← agent, ← agent', same.agent]
    · rw [← counts, ← counts', labels]
    · by_cases binds : BindsTodo input
      · exact .inl ⟨binds, isTodo'.mp (same.kind ▸ isTodo.mpr binds)⟩
      · have plain : ¬BindsTodo input' := fun binds' =>
          binds (isTodo.mp (same.kind ▸ isTodo'.mpr binds'))
        exact .inr ⟨fun labelled => binds labelled.1, fun labelled => plain labelled.1⟩
  · intro boundaries
    rw [joined, joined'] at effect
    have lists := congrArg String.toList effect
    rw [toList_joinEffectId, toList_joinEffectId] at lists
    obtain ⟨sameGoal, lists⟩ := append_cons_inj lists boundaries.goal
    obtain ⟨sameAgent, lists⟩ := append_cons_inj lists boundaries.agent
    obtain ⟨sameLabel, sameTurn⟩ := append_cons_inj lists
      (counts.trans (boundaries.binding.trans counts'.symm))
    have kinds := binding_of_label (String.toList_injective sameLabel) bound bound' <| by
      rcases boundaries.kind with ⟨binds, binds'⟩ | ⟨plain, plain'⟩
      · exact .inl ⟨isTodo.mpr binds, isTodo'.mpr binds'⟩
      · refine .inr ⟨fun todo => ?_, fun todo => ?_⟩
        · rw [todoLabel (isTodo.mp todo)]
          exact fun labelled => plain ⟨isTodo.mp todo, labelled⟩
        · rw [todoLabel' (isTodo'.mp todo)]
          exact fun labelled => plain' ⟨isTodo'.mp todo, labelled⟩
    refine ⟨?_, ?_, ?_, kinds.1, kinds.2⟩
    · rw [goal, goal']
      exact String.toList_injective sameGoal
    · rw [agent, agent']
      exact String.toList_injective sameAgent
    · rw [turn, turn']
      exact String.toList_injective sameTurn

end

/-- When a settlement identity is a faithful key: its payload reads back as it where the ends of
its effect id are flush, and two accepted plans with one effect id are about one turn where its
delimiters stand for the same boundaries. -/
theorem settlementIdentity_faithful (sha : Sha256) :
    (∀ input identity payload plan, settlementIdentity sha input = .ok identity →
      trim input.goalId ≠ "" → trim input.agentId ≠ "" → trim input.turnInstanceId ≠ "" →
      identity.bindingKind ≠ .unbound →
      settlementIdentityPayload sha identity.toInput = .ok payload →
      planIdentityObject plan = .ok payload →
      (settlementIdentityFromPlan sha plan = .ok identity ↔
        Flush input.goalId input.turnInstanceId)) ∧
    ∀ plan plan' identity identity', settlementIdentityFromPlan sha plan = .ok identity →
      settlementIdentityFromPlan sha plan' = .ok identity' →
      identity.effectId = identity'.effectId →
      ∃ input input', planInput plan = .ok input ∧ planInput plan' = .ok input' ∧
        (SameSubject identity identity' ↔ SameBoundaries input input') := by
  constructor
  · intro input identity payload plan built goal agent turn bound written holds
    exact settlementIdentityFromPlan_payload built goal agent turn bound written holds
  · intro plan plan' identity identity' accepted accepted' effect
    obtain ⟨input, reads, built, bound⟩ := settlementIdentityFromPlan_eq_ok accepted
    obtain ⟨input', reads', built', bound'⟩ := settlementIdentityFromPlan_eq_ok accepted'
    exact ⟨input, input', reads, reads', sameSubject_iff built built' bound bound' effect⟩

/-- The plan of a Todo's turn. -/
def todoPlan (agentId todoId turnInstanceId effectId : String) : Json :=
  .object [("settlement_plan", .object [("identity", .object
    [("schema_version", .string SETTLEMENT_IDENTITY_SCHEMA_VERSION), ("effect_id", .string effectId),
      ("goal_id", .string "goal"), ("agent_id", .string agentId), ("todo_id", .string todoId),
      ("turn_instance_id", .string turnInstanceId)])])]

def todoInput : SettlementIdentityInput :=
  ⟨"goal", "codex", "t1", some "todo_abc", none, none⟩

def todoIdentity : SettlementIdentity :=
  ⟨"goal", "codex", "t1", none, some "todo_abc", none, .todo, "todo_abc",
    "goal:codex:todo_abc:t1"⟩

def onePlan : Json := todoPlan "codex" "todo_abc" "t1" "goal:codex:todo_abc:t1"

/-- A plan without delimiters in its ids reads back, and what has its effect id is about its
turn. -/
theorem settlementIdentity_faithful_todo :
    settlementIdentityFromPlan .node onePlan = .ok todoIdentity ∧
      ∃ input input', planInput onePlan = .ok input ∧ planInput onePlan = .ok input' ∧
        SameBoundaries input input' := by
  obtain ⟨readsBack, denotes⟩ := settlementIdentity_faithful .node
  have flush : Flush "goal" "t1" := by
    constructor
    · intro c first
      obtain rfl : 'g' = c := Option.some.inj first
      decide
    · intro c last
      obtain rfl : '1' = c := Option.some.inj last
      decide
  have accepted : settlementIdentityFromPlan .node onePlan = .ok todoIdentity :=
    (readsBack todoInput todoIdentity _ onePlan (ok_of_toOption (by decide))
      (by decide) (by decide) (by decide) (by decide) rfl rfl).mpr flush
  obtain ⟨input, input', reads, reads', same⟩ := denotes _ _ _ _ accepted accepted rfl
  exact ⟨accepted, input, input', reads, reads', same.mp ⟨rfl, rfl, rfl, rfl, rfl⟩⟩

/-- Two agents, two Todos and two turns, and one effect id. -/
theorem settlementIdentityFromPlan_collides :
    ∃ plan plan' identity identity', settlementIdentityFromPlan .node plan = .ok identity ∧
      settlementIdentityFromPlan .node plan' = .ok identity' ∧
      identity.effectId = identity'.effectId ∧ identity.agentId ≠ identity'.agentId ∧
      identity.turnInstanceId ≠ identity'.turnInstanceId ∧
      identity.bindingId ≠ identity'.bindingId := by
  refine ⟨todoPlan "codex" "todo_abc" "todo_xyz:t1" "goal:codex:todo_abc:todo_xyz:t1",
    todoPlan "codex:todo_abc" "todo_xyz" "t1" "goal:codex:todo_abc:todo_xyz:t1",
    ⟨"goal", "codex", "todo_xyz:t1", none, some "todo_abc", none, .todo, "todo_abc",
      "goal:codex:todo_abc:todo_xyz:t1"⟩,
    ⟨"goal", "codex:todo_abc", "t1", none, some "todo_xyz", none, .todo, "todo_xyz",
      "goal:codex:todo_abc:todo_xyz:t1"⟩, ok_of_toOption (by decide),
    ok_of_toOption (by decide), rfl, by decide, by decide, by decide⟩

end Loopx.Turn
