/- GID: Loopx/Collaboration/BriefRoundTrip
   generality: I
   source: loopx/control_plane/collaboration/semantic_request.ts
   digest: A normalized brief is read back as it is, and is no longer than what it was read from. -/

import Loopx.Collaboration.SemanticRequest
import Loopx.Json.ByteBudget

set_option autoImplicit false
set_option relaxedAutoImplicit false

namespace Loopx.Collaboration

open Loopx.Lib.KeyedList
open Loopx.Lib.Fallible (bind_eq_ok ok_bind throwWhen throwWhen_eq_ok mapM_eq_ok)
open Loopx.Json (byteLength byteLength_object_le byteLength_array_le charBytes quoteString)
open Loopx.Authority (isBareSha256 trim trim_trim)

theorem ensure_eq_ok {condition : Prop} [Decidable condition] {message : String} {u : Unit} :
    ensure condition message = .ok u ↔ condition := by
  rw [ensure, throwWhen_eq_ok, not_not]

theorem ensure_of {condition : Prop} [Decidable condition] (h : condition) (message : String) :
    ensure condition message = .ok () :=
  ensure_eq_ok.2 h

/-- Text as `boundedText` returns it. -/
def IsBounded (limit : Nat) (s : String) : Prop := trim s = s ∧ s ≠ "" ∧ stringLength s ≤ limit

instance (limit : Nat) (s : String) : Decidable (IsBounded limit s) :=
  inferInstanceAs (Decidable (trim s = s ∧ s ≠ "" ∧ stringLength s ≤ limit))

theorem boundedText_eq_ok {value : Option Json} {label s : String} {limit : Nat} :
    boundedText value label limit = .ok s ↔
      ∃ raw, value = some (.string raw) ∧ trim raw = s ∧ s ≠ "" ∧ stringLength s ≤ limit := by
  constructor
  · intro h
    obtain ⟨raw, hraw, h⟩ := bind_eq_ok.mp h
    obtain ⟨_, hlimit, h⟩ := bind_eq_ok.mp h
    obtain rfl := Except.ok.inj h
    unfold requireNonEmptyString at hraw
    split at hraw
    · next text =>
      split at hraw
      · cases hraw
      · next filled =>
        obtain rfl := Except.ok.inj hraw
        exact ⟨text, rfl, rfl, filled, ensure_eq_ok.1 hlimit⟩
    · cases hraw
  · rintro ⟨raw, rfl, rfl, filled, within⟩
    rw [boundedText, requireNonEmptyString, if_neg filled, ok_bind]
    simp only [ensure_of within, ok_bind]

theorem boundedText_self {label s : String} {limit : Nat} (h : IsBounded limit s) :
    boundedText (some (.string s)) label limit = .ok s :=
  boundedText_eq_ok.2 ⟨s, rfl, h.1, h.2⟩

theorem isBounded_of_boundedText {value : Option Json} {label s : String} {limit : Nat}
    (h : boundedText value label limit = .ok s) : IsBounded limit s := by
  obtain ⟨raw, _, rfl, rest⟩ := boundedText_eq_ok.1 h
  exact ⟨trim_trim raw, rest⟩

theorem exactKeys_eq_ok {value : Fields} {allowed required : List String} {u : Unit} :
    exactKeys value allowed required = .ok u ↔
      (∀ field ∈ value, field.1 ∈ allowed) ∧ ∀ key ∈ required, (value.lookup key).isSome := by
  rw [exactKeys, ensure_eq_ok, List.all_eq_true, List.all_eq_true]
  simp only [List.contains_iff_mem]

theorem exactKeys_of {value : Fields} {allowed required : List String}
    (h : (∀ field ∈ value, field.1 ∈ allowed) ∧ ∀ key ∈ required, (value.lookup key).isSome) :
    exactKeys value allowed required = .ok () :=
  exactKeys_eq_ok.2 h

/-! ## Reading back -/

structure BriefDelegation.Normal (delegation : BriefDelegation) : Prop where
  operationId : isId delegation.operationId = true
  ref : IsBounded 512 delegation.ref ∧ isWorkspaceRef delegation.ref = true
  relation : isRelation delegation.relation = true

structure BriefInput.Normal (input : BriefInput) : Prop where
  ref : IsBounded 512 input.ref ∧ isWorkspaceRef input.ref = true
  description : IsBounded 1000 input.description
  sha256 : ∀ s ∈ input.sha256, isBareSha256 s = true
  delegation : ∀ d ∈ input.delegation, d.Normal ∧ input.sha256.isSome

/-- What normalization promises of a brief. -/
structure CollaborationBrief.Normal (brief : CollaborationBrief) : Prop where
  purpose : IsBounded 2000 brief.purpose
  context : IsBounded 6000 brief.context
  constraints : brief.constraints.length ≤ 12 ∧ ∀ s ∈ brief.constraints, IsBounded 1000 s
  inputs : brief.inputs.length ≤ 12 ∧ ∀ input ∈ brief.inputs, input.Normal
  acceptance : brief.acceptance.length ≤ 12 ∧ ∀ s ∈ brief.acceptance, IsBounded 1000 s
  observable : brief.acceptance ≠ []
  returnRequirement : IsBounded 2000 brief.returnRequirement
  bytes : byteLength brief.toJson ≤ 16000

private theorem workspaceRef_eq_ok {value : Option Json} {ref : String} :
    workspaceRef value = .ok ref ↔
      boundedText value "input.ref" 512 = .ok ref ∧ isWorkspaceRef ref = true := by
  constructor
  · intro h
    obtain ⟨text, htext, h⟩ := bind_eq_ok.mp h
    obtain ⟨_, relative, h⟩ := bind_eq_ok.mp h
    obtain rfl := Except.ok.inj h
    exact ⟨htext, ensure_eq_ok.1 relative⟩
  · rintro ⟨htext, relative⟩
    rw [workspaceRef, htext, ok_bind, ensure_of relative, ok_bind]

private theorem workspaceRef_self {ref : String}
    (h : IsBounded 512 ref ∧ isWorkspaceRef ref = true) :
    workspaceRef (some (.string ref)) = .ok ref :=
  workspaceRef_eq_ok.2 ⟨boundedText_self h.1, h.2⟩

private theorem inputDelegation_toJson {delegation : BriefDelegation} {sha256 : Option String}
    (h : delegation.Normal) (digest : sha256.isSome) :
    inputDelegation (some delegation.toJson) sha256 = .ok (some delegation) := by
  have names : exactKeys [("operation_id", .string delegation.operationId),
      ("ref", .string delegation.ref), ("relation", delegation.relation)]
      ["operation_id", "ref", "relation"] ["operation_id", "ref", "relation"] = .ok () := by
    rw [exactKeys_eq_ok]
    simp [lookup_cons_ite]
  have facts : delegationFacts [("operation_id", .string delegation.operationId),
      ("ref", .string delegation.ref), ("relation", delegation.relation)] sha256 =
        .ok (delegation.operationId, delegation.relation) := by
    simp [delegationFacts, lookup_cons_ite, h.operationId, h.relation, digest]
  rw [inputDelegation, BriefDelegation.toJson, requireJsonObject, ok_bind]
  simp only [names, ok_bind, facts, lookup_cons_ite]
  simp [workspaceRef_self h.ref]

/-- The fields of an input, looked up. -/
private theorem lookup_inputFields (input : BriefInput) :
    ∃ fields, input.toJson = .object fields ∧ fields.lookup "ref" = some (.string input.ref) ∧
      fields.lookup "description" = some (.string input.description) ∧
      fields.lookup "sha256" = input.sha256.map Json.string ∧
      fields.lookup "delegation" = input.delegation.map BriefDelegation.toJson ∧
      ∀ field ∈ fields, field.1 ∈ ["ref", "description", "sha256", "delegation"] := by
  refine ⟨_, rfl, ?_⟩
  cases input.sha256 <;> cases input.delegation <;> simp [lookup_cons_ite]

private theorem briefInput_toJson {input : BriefInput} (h : input.Normal) :
    briefInput input.toJson = .ok input := by
  obtain ⟨fields, same, ref, description, sha256, delegation, names⟩ := lookup_inputFields input
  have allowed : exactKeys fields ["ref", "description", "sha256", "delegation"]
      ["ref", "description"] = .ok () := by
    rw [exactKeys_eq_ok]
    refine ⟨names, ?_⟩
    intro key mem
    rcases List.mem_cons.mp mem with rfl | mem
    · rw [ref, Option.isSome_some]
    · rw [List.mem_singleton.mp mem, description, Option.isSome_some]
  have digest : inputSha256 (input.sha256.map Json.string) = .ok input.sha256 := by
    cases known : input.sha256 with
    | none => rfl
    | some s => rw [Option.map_some, inputSha256, if_pos (h.sha256 s known)]
  have source : inputDelegation (input.delegation.map BriefDelegation.toJson) input.sha256 =
      .ok input.delegation := by
    cases known : input.delegation with
    | none => rfl
    | some d =>
      obtain ⟨normal, some⟩ := h.delegation d known
      exact inputDelegation_toJson normal some
  rw [briefInput, same, requireJsonObject, ok_bind, allowed, ok_bind, ref, description, sha256,
    delegation, workspaceRef_self h.ref, ok_bind, boundedText_self h.description, ok_bind, digest,
    ok_bind, source, ok_bind]

private theorem mapM_lines {texts : List String} (h : ∀ s ∈ texts, IsBounded 1000 s)
    (label : String) (start : Nat) :
    ((texts.map Json.string).zipIdx start).mapM (fun (item, index) =>
      boundedText (some item) (label ++ "[" ++ index.repr ++ "]") 1000) = .ok texts := by
  induction texts generalizing start with
  | nil => rfl
  | cons s texts ih =>
    obtain ⟨here, later⟩ := List.forall_mem_cons.mp h
    rw [List.map_cons, List.zipIdx_cons, List.mapM_cons]
    simp only [boundedText_self here, ok_bind, ih later]
    rfl

private theorem lines_self {texts : List String}
    (h : texts.length ≤ 12 ∧ ∀ s ∈ texts, IsBounded 1000 s) (label : String) :
    lines (some (linesJson texts)) label = .ok texts := by
  rw [linesJson, lines, List.length_map, if_neg (Nat.not_lt.mpr h.1)]
  exact mapM_lines h.2 label 0

/-- A normal brief is read back as it is. -/
theorem normalizeCollaborationBrief_toJson {brief : CollaborationBrief} (h : brief.Normal) :
    normalizeCollaborationBrief (some brief.toJson) = .ok brief := by
  have inputs : (brief.inputs.map BriefInput.toJson).mapM briefInput = .ok brief.inputs := by
    rw [mapM_eq_ok]
    refine List.forall₂_map_left_iff.mpr ?_
    exact List.forall₂_same.mpr fun input mem => briefInput_toJson (h.inputs.2 input mem)
  have items : briefInputs (some (.array (brief.inputs.map BriefInput.toJson))) =
      .ok (brief.inputs.map BriefInput.toJson) := by
    rw [briefInputs, List.length_map, if_neg (Nat.not_lt.mpr h.inputs.1)]
  have size := h.bytes
  unfold CollaborationBrief.toJson at size
  rw [normalizeCollaborationBrief, CollaborationBrief.toJson, requireJsonObject, ok_bind,
    ensure_of size, ok_bind, exactKeys_of (by simp [briefKeys, lookup_cons_ite]), ok_bind]
  simp only [lookup_cons_ite, if_true, if_false, String.reduceEq]
  rw [ensure_of trivial, ok_bind, items, ok_bind, inputs, ok_bind, lines_self h.acceptance, ok_bind,
    ensure_of h.observable, ok_bind, boundedText_self h.purpose, ok_bind,
    boundedText_self h.context, ok_bind, lines_self h.constraints, ok_bind,
    boundedText_self h.returnRequirement, ok_bind]

/-! ## The length of a normalized brief -/

private theorem trim_sublist (s : String) : (trim s).toList.Sublist s.toList := by
  rw [trim, String.toList_ofList]
  have inner := (List.dropWhile_suffix (l := s.toList) Loopx.Authority.isJsSpace).sublist
  have outer := (List.dropWhile_suffix (l := (s.toList.dropWhile Loopx.Authority.isJsSpace).reverse)
    Loopx.Authority.isJsSpace).sublist.reverse
  rw [List.reverse_reverse] at outer
  exact outer.trans inner

private theorem byteLength_trim (s : String) :
    byteLength (.string (trim s)) ≤ byteLength (.string s) := by
  have quoted : ∀ {a b : List Char}, a.Sublist b →
      charBytes (a.flatMap Json.quoteChar) ≤ charBytes (b.flatMap Json.quoteChar) := by
    intro a b h
    induction h with
    | slnil => exact Nat.le_refl _
    | cons c _ ih =>
      rw [List.flatMap_cons, Json.charBytes_append]
      omega
    | cons_cons c _ ih =>
      rw [List.flatMap_cons, List.flatMap_cons, Json.charBytes_append, Json.charBytes_append]
      omega
  have sizes := quoted (trim_sublist s)
  simp only [Json.byteLength_eq, Json.text, quoteString, Json.charBytes_cons,
    Json.charBytes_append]
  omega

private theorem boundedText_bytes {value : Option Json} {label s : String} {limit : Nat}
    (h : boundedText value label limit = .ok s) :
    ∃ v, value = some v ∧ byteLength (.string s) ≤ byteLength v := by
  obtain ⟨raw, rfl, rfl, _⟩ := boundedText_eq_ok.1 h
  exact ⟨_, rfl, byteLength_trim raw⟩

private theorem lines_mapM {items : List Json} {texts : List String} {label : String}
    {start : Nat} (h : (items.zipIdx start).mapM (fun (item, index) =>
      boundedText (some item) (label ++ "[" ++ index.repr ++ "]") 1000) = .ok texts) :
    (∀ s ∈ texts, IsBounded 1000 s) ∧
      List.Forall₂ (fun v w => byteLength v ≤ byteLength w) (texts.map Json.string) items := by
  induction items generalizing start texts with
  | nil =>
    obtain rfl := Except.ok.inj h
    exact ⟨by simp, .nil⟩
  | cons item items ih =>
    rw [List.zipIdx_cons, List.mapM_cons] at h
    obtain ⟨s, hs, h⟩ := bind_eq_ok.mp h
    obtain ⟨rest, hrest, h⟩ := bind_eq_ok.mp h
    obtain rfl := Except.ok.inj h
    obtain ⟨v, same, le⟩ := boundedText_bytes hs
    obtain rfl := Option.some.inj same
    obtain ⟨bounded, shorter⟩ := ih hrest
    exact ⟨List.forall_mem_cons.mpr ⟨isBounded_of_boundedText hs, bounded⟩, .cons le shorter⟩

private theorem lines_normal {value : Option Json} {label : String} {texts : List String}
    (h : lines value label = .ok texts) :
    (texts.length ≤ 12 ∧ ∀ s ∈ texts, IsBounded 1000 s) ∧
      ∃ v, value = some v ∧ byteLength (linesJson texts) ≤ byteLength v := by
  unfold lines at h
  split at h
  · next items =>
    split at h
    · cases h
    · next few =>
      obtain ⟨bounded, shorter⟩ := lines_mapM h
      have same := shorter.length_eq
      rw [List.length_map] at same
      exact ⟨⟨by omega, bounded⟩, _, rfl, byteLength_array_le shorter⟩
  · cases h

private theorem workspaceRef_normal {value : Option Json} {ref : String}
    (h : workspaceRef value = .ok ref) :
    (IsBounded 512 ref ∧ isWorkspaceRef ref = true) ∧
      ∃ v, value = some v ∧ byteLength (.string ref) ≤ byteLength v := by
  obtain ⟨text, relative⟩ := workspaceRef_eq_ok.1 h
  exact ⟨⟨isBounded_of_boundedText text, relative⟩, boundedText_bytes text⟩

theorem requireJsonObject_eq_ok {value : Option Json} {label : String} {fields : Fields} :
    requireJsonObject value label = .ok fields ↔ value = some (.object fields) := by
  unfold requireJsonObject
  split
  · next found => simp
  · next other =>
    constructor
    · intro h
      cases h
    · intro h
      exact absurd h (other fields)

private theorem delegationFacts_eq_ok {source : Fields} {sha256 : Option String}
    {facts : String × Json} (h : delegationFacts source sha256 = .ok facts) :
    source.lookup "operation_id" = some (.string facts.1) ∧
      source.lookup "relation" = some facts.2 ∧ isId facts.1 = true ∧
      isRelation facts.2 = true ∧ sha256.isSome := by
  unfold delegationFacts at h
  split at h
  · next operationId relation hoperation hrelation =>
    split at h
    · next valid =>
      obtain rfl := Except.ok.inj h
      exact ⟨hoperation, hrelation, valid⟩
    · cases h
  · cases h

private theorem inputDelegation_normal {value : Option Json} {sha256 : Option String}
    {delegation : Option BriefDelegation} (h : inputDelegation value sha256 = .ok delegation) :
    ∀ d ∈ delegation, (d.Normal ∧ sha256.isSome) ∧
      ∃ v, value = some v ∧ byteLength d.toJson ≤ byteLength v := by
  unfold inputDelegation at h
  split at h
  · obtain rfl := Except.ok.inj h
    simp
  · next value =>
    obtain ⟨source, hsource, h⟩ := bind_eq_ok.mp h
    obtain ⟨_, _, h⟩ := bind_eq_ok.mp h
    obtain ⟨facts, hfacts, h⟩ := bind_eq_ok.mp h
    obtain ⟨ref, href, h⟩ := bind_eq_ok.mp h
    obtain rfl := Except.ok.inj h
    obtain rfl := Option.some.inj (requireJsonObject_eq_ok.1 hsource)
    obtain ⟨operation, relation, id, related, digest⟩ := delegationFacts_eq_ok hfacts
    obtain ⟨valid, v, looked, le⟩ := workspaceRef_normal href
    intro d same
    obtain rfl := Option.some.inj same
    refine ⟨⟨⟨id, valid, related⟩, digest⟩, _, rfl, byteLength_object_le (by simp [keys]) ?_⟩
    simp only [List.forall_mem_cons, List.not_mem_nil, false_implies, implies_true, and_true]
    exact ⟨⟨_, operation, Nat.le_refl _⟩, ⟨v, looked, le⟩, ⟨_, relation, Nat.le_refl _⟩⟩

private theorem inputSha256_normal {value : Option Json} {sha256 : Option String}
    (h : inputSha256 value = .ok sha256) :
    (∀ s ∈ sha256, isBareSha256 s = true) ∧ value = sha256.map Json.string := by
  unfold inputSha256 at h
  split at h
  · obtain rfl := Except.ok.inj h
    simp
  · split at h
    · next bare =>
      obtain rfl := Except.ok.inj h
      exact ⟨fun s same => Option.some.inj same ▸ bare, rfl⟩
    · cases h
  · cases h

private theorem briefInput_normal {raw : Json} {input : BriefInput}
    (h : briefInput raw = .ok input) :
    input.Normal ∧ byteLength input.toJson ≤ byteLength raw := by
  obtain ⟨fields, hfields, h⟩ := bind_eq_ok.mp h
  obtain ⟨_, _, h⟩ := bind_eq_ok.mp h
  obtain ⟨ref, href, h⟩ := bind_eq_ok.mp h
  obtain ⟨description, hdescription, h⟩ := bind_eq_ok.mp h
  obtain ⟨sha256, hsha256, h⟩ := bind_eq_ok.mp h
  obtain ⟨delegation, hdelegation, h⟩ := bind_eq_ok.mp h
  obtain rfl := Except.ok.inj h
  obtain rfl := Option.some.inj (requireJsonObject_eq_ok.1 hfields)
  obtain ⟨valid, v, looked, le⟩ := workspaceRef_normal href
  obtain ⟨w, described, shorter⟩ := boundedText_bytes hdescription
  obtain ⟨bare, digest⟩ := inputSha256_normal hsha256
  have source := inputDelegation_normal hdelegation
  refine ⟨⟨valid, isBounded_of_boundedText hdescription, bare, fun d mem => (source d mem).1⟩,
    byteLength_object_le ?_ ?_⟩
  · cases sha256 <;> cases delegation <;> simp [keys]
  · intro entry mem
    simp only [List.mem_append, List.mem_cons, List.not_mem_nil, or_false, Option.mem_toList,
      Option.map_eq_some_iff] at mem
    rcases mem with ((rfl | rfl) | ⟨s, rfl, rfl⟩) | ⟨d, rfl, rfl⟩
    · exact ⟨v, looked, le⟩
    · exact ⟨w, described, shorter⟩
    · exact ⟨_, digest, Nat.le_refl _⟩
    · obtain ⟨_, x, given, le⟩ := source d rfl
      exact ⟨x, given, le⟩

private theorem briefInputs_eq_ok {value : Option Json} {items : List Json}
    (h : briefInputs value = .ok items) : value = some (.array items) ∧ items.length ≤ 12 := by
  unfold briefInputs at h
  split at h
  · split at h
    · cases h
    · next few =>
      obtain rfl := Except.ok.inj h
      exact ⟨rfl, Nat.not_lt.mp few⟩
  · cases h

private theorem mapM_briefInput {items : List Json} {inputs : List BriefInput}
    (h : items.mapM briefInput = .ok inputs) :
    (∀ input ∈ inputs, input.Normal) ∧ List.Forall₂ (fun v w => byteLength v ≤ byteLength w)
      (inputs.map BriefInput.toJson) items := by
  have each := mapM_eq_ok.mp h
  clear h
  induction each with
  | nil => exact ⟨by simp, .nil⟩
  | cons read _ ih =>
    obtain ⟨normal, le⟩ := briefInput_normal read
    exact ⟨List.forall_mem_cons.mpr ⟨normal, ih.1⟩, .cons le ih.2⟩

/-- A brief that is read is normal. -/
theorem normal_of_normalizeCollaborationBrief {value : Option Json} {brief : CollaborationBrief}
    (h : normalizeCollaborationBrief value = .ok brief) : brief.Normal := by
  obtain ⟨fields, hfields, h⟩ := bind_eq_ok.mp h
  obtain ⟨_, size, h⟩ := bind_eq_ok.mp h
  obtain ⟨_, _, h⟩ := bind_eq_ok.mp h
  obtain ⟨_, schema, h⟩ := bind_eq_ok.mp h
  obtain ⟨items, hitems, h⟩ := bind_eq_ok.mp h
  obtain ⟨inputs, hinputs, h⟩ := bind_eq_ok.mp h
  obtain ⟨acceptance, hacceptance, h⟩ := bind_eq_ok.mp h
  obtain ⟨_, observable, h⟩ := bind_eq_ok.mp h
  obtain ⟨purpose, hpurpose, h⟩ := bind_eq_ok.mp h
  obtain ⟨context, hcontext, h⟩ := bind_eq_ok.mp h
  obtain ⟨constraints, hconstraints, h⟩ := bind_eq_ok.mp h
  obtain ⟨returnRequirement, hreturn, h⟩ := bind_eq_ok.mp h
  obtain rfl := Except.ok.inj h
  obtain ⟨listed, few⟩ := briefInputs_eq_ok hitems
  obtain ⟨normal, inputBytes⟩ := mapM_briefInput hinputs
  obtain ⟨accepted, acceptanceBytes⟩ := lines_normal hacceptance
  obtain ⟨constrained, constraintBytes⟩ := lines_normal hconstraints
  have count := inputBytes.length_eq
  rw [List.length_map] at count
  refine ⟨isBounded_of_boundedText hpurpose, isBounded_of_boundedText hcontext, constrained,
    ⟨count.le.trans few, normal⟩, accepted, ensure_eq_ok.1 observable, isBounded_of_boundedText hreturn, ?_⟩
  refine (byteLength_object_le (by simp [keys]) ?_).trans (ensure_eq_ok.1 size)
  simp only [List.forall_mem_cons, List.not_mem_nil, false_implies, implies_true, and_true]
  exact ⟨⟨_, ensure_eq_ok.1 schema, Nat.le_refl _⟩, boundedText_bytes hpurpose,
    boundedText_bytes hcontext, constraintBytes, ⟨_, listed, byteLength_array_le inputBytes⟩,
    acceptanceBytes, boundedText_bytes hreturn⟩

end Loopx.Collaboration
