/- GID: Loopx/Goals/DirectionRegistry
   generality: I
   source: loopx/control_plane/goals/direction_authority.ts
   digest: The declared materials of a Goal as a registry, and the scope that binds them. -/

import Loopx.Goals.AcceptanceLifecycle
import Loopx.Json.ByteLength
import Loopx.Scheduler.HeartbeatCommit

set_option autoImplicit false
set_option relaxedAutoImplicit false

namespace Loopx.Goals.Direction

open Loopx.Lib.KeyedList
open Loopx.Lib.Fallible (bind_eq_ok throwWhen throwWhen_eq_ok throwWhen_of_not)
open Loopx.Json (JsNumber Protocol byteLength canonicalAuthorityJson canonicalEntries Distinct)
open Loopx.Authority (Sha256 canonicalAuthoritySha256 isBareSha256 isHexDigit trim)
open Loopx.Scheduler (jsString utf16Units)

/-- `GOAL_DIRECTION_LIMITS`. -/
def maxRequirements : Nat := 64

def maxReceipts : Nat := 4096

def inputBytes : Nat := 2 * 1024 * 1024

def outputBytes : Nat := 256 * 1024

def USAGE_SCHEMA : String := "goal_material_usage_record_v0"

def SCOPE_SCHEMA : String := "goal_direction_scope_v0"

/-- `keys`. -/
def directionKeys (value : Fields) (required optional : List String) : Protocol Unit :=
  throwWhen (¬(required.all (fun key => (value.lookup key).isSome) ∧
      (keys value).all (fun key => required.contains key || optional.contains key)))
    "direction fields missing or unsupported"

/-- `/^[A-Za-z0-9][A-Za-z0-9_.:-]{0,127}$/`. -/
def isToken (s : String) : Bool :=
  match s.toList with
  | [] => false
  | c :: rest => c.isAlphanum && decide (rest.length ≤ 127) &&
    rest.all fun c => c.isAlphanum || c = '_' || c = '.' || c = ':' || c = '-'

def token (value : Option Json) (label : String) : Protocol String :=
  match value with
  | some (.string s) =>
    if isToken s then .ok s else .error (label ++ " must be a bounded identifier")
  | _ => .error (label ++ " must be a bounded identifier")

/-- `ENVELOPED_SHA256_PATTERN`. -/
def isEnvelopedSha256 (s : String) : Bool :=
  s.toList.take 7 = "sha256:".toList && decide ((s.toList.drop 7).length = 64) &&
    (s.toList.drop 7).all isHexDigit

def hash (value : Option Json) : Protocol String :=
  match value with
  | some (.string s) =>
    if isBareSha256 s then .ok s else .error "direction digest must be SHA-256"
  | _ => .error "direction digest must be SHA-256"

/-- `safe`, where `isPrivate` are the patterns of private text. -/
def isSafe (isPrivate : String → Bool) (s : String) : Bool :=
  decide (trim s = s) && s ≠ "" && decide (s.toList.length ≤ 220) &&
    s.toList.all (fun c => c ≠ '\r' && c ≠ '\n' && c ≠ '\t' && c ≠ '\x00') &&
    decide (s.toList.head? ≠ some '/') && !decide ("://".toList <:+: s.toList) && !isPrivate s

def safe (isPrivate : String → Bool) (value : Option Json) (label : String) : Protocol String :=
  match value with
  | some (.string s) =>
    if isSafe isPrivate s then .ok s else .error (label ++ " must be bounded public-safe text")
  | _ => .error (label ++ " must be bounded public-safe text")

/-! ## Declared materials -/

/-- One declared material that passed its checks. Its boundary is the value that was given. -/
structure Material where
  id : String
  purpose : String
  topics : List String
  required : Bool
  boundary : Json
  sourceRefSha256 : String
  revision : String
deriving DecidableEq

def materialKeys : List String :=
  ["material_id", "purpose", "topics", "required", "boundary", "source_ref_sha256", "revision"]

def requiredFlag (value : Option Json) : Protocol Bool :=
  match value with
  | some (.bool b) => .ok b
  | _ => .error "required must be boolean"

def sourceBoundary (value : Option Json) : Protocol Json :=
  match value with
  | some value =>
    if jsString value ∈ ["public", "public_safe", "local_private"] then .ok value
    else .error "direction source boundary is unsupported"
  | none => .error "direction source boundary is unsupported"

def topicItems (value : Option Json) : Protocol (List Json) :=
  match value with
  | some (.array items) =>
    if items.length ≤ 16 then .ok items else .error "material topics must be bounded"
  | _ => .error "material topics must be bounded"

def materialRevision (value : Option Json) : Protocol String :=
  match value with
  | some (.string s) =>
    if isEnvelopedSha256 s then .ok s else .error "local material revision must be content SHA-256"
  | _ => .error "local material revision must be content SHA-256"

variable (isPrivate : String → Bool)

/-- One round of the loop of `policyRegistry`, over the identities it has seen. -/
def directionMaterial (seen : List String) (item : Fields) : Protocol Material := do
  directionKeys item materialKeys []
  let id ← token (item.lookup "material_id") "material_id"
  throwWhen (id ∈ seen) "duplicate direction material"
  let required ← requiredFlag (item.lookup "required")
  let boundary ← sourceBoundary (item.lookup "boundary")
  let topics ← topicItems (item.lookup "topics")
  let revision ← materialRevision (item.lookup "revision")
  let source ← hash (item.lookup "source_ref_sha256")
  let names ← topics.mapM fun topic => token (some topic) "topic"
  throwWhen (¬names.Nodup) "duplicate material topic"
  let purpose ← safe isPrivate (item.lookup "purpose") "purpose"
  .ok ⟨id, purpose, names, required, boundary, source, revision⟩

def directionMaterials : List String → List Fields → Protocol (List Material)
  | _, [] => .ok []
  | seen, item :: items => do
    let material ← directionMaterial isPrivate seen item
    let materials ← directionMaterials (material.id :: seen) items
    .ok (material :: materials)

def Material.toJson (material : Material) : Json :=
  .object [("id", .string material.id), ("source_ref_sha256", .string material.sourceRefSha256),
    ("source_ref_redacted", .bool true), ("source_kind", .string "document"),
    ("role", .string "direction"), ("owner_status", .string "reviewed"),
    ("conflict_rule", .string "owner_wins"), ("freshness", .string "current"),
    ("gate_status", .string "readable"), ("boundary", material.boundary),
    ("revision", .string material.revision)]

def requirementId (id : String) : String := "direction:" ++ id

def Material.requirement (material : Material) : Json :=
  .object [("requirement_id", .string (requirementId material.id)),
    ("material_id", .string material.id), ("purpose", .string material.purpose),
    ("required", .bool material.required)]

/-- `topics[t].push(id)`. -/
def pushTopic (id : String) (topics : List (String × List String)) (topic : String) :
    List (String × List String) :=
  setKey topics topic ((topics.lookup topic).getD [] ++ [id])

def topicAuthority (materials : List Material) : List (String × List String) :=
  materials.foldl (fun topics material => material.topics.foldl (pushTopic material.id) topics) []

def texts (items : List String) : Json := .array (items.map Json.string)

def registryFields (materials : List Material) : Fields :=
  [("project_materials", .object (materials.map fun m => (m.id, m.toJson))),
    ("topic_authority", .object ((topicAuthority materials).map fun t => (t.1, texts t.2))),
    ("goal_direction_requirements", .array (materials.map Material.requirement))]

def registryJson (materials : List Material) : Json := .object (registryFields materials)

/-- `String(a.material_id)`. -/
def materialIdText (item : Fields) : String :=
  match item.lookup "material_id" with
  | some value => jsString value
  | none => "undefined"

/-- The items in the order of their identities. -/
def orderedItems (items : List Fields) : List Fields :=
  items.insertionSort fun a b => utf16Units (materialIdText a) ≤ utf16Units (materialIdText b)

def declaredItems (value : Option Json) : Protocol (List Json) :=
  match value with
  | some (.array items) =>
    if 0 < items.length ∧ items.length ≤ maxRequirements then .ok items
    else .error "direction material declaration capacity exceeded"
  | _ => .error "direction material declaration capacity exceeded"

/-- `policyRegistry`, as the materials whose registry it returns. -/
def policyMaterials (value : Option Json) : Protocol (List Material) := do
  let items ← declaredItems value
  let objects ← items.mapM fun item => authorityFields (some item) "direction material"
  let materials ← directionMaterials isPrivate [] (orderedItems objects)
  throwWhen (¬materials.any (·.required))
    "direction declaration needs at least one required material"
  throwWhen (outputBytes < byteLength (registryJson materials))
    "direction declaration byte capacity exceeded"
  .ok materials

/-! ## The scope -/

structure DirectionScope where
  enabled : Bool
  authorityDigest : String
  /-- The stored value, which may also be null. -/
  usageGeneration : Option Json
deriving DecidableEq

/-- `Number(usage_generation ?? 0)`. -/
def DirectionScope.generation (scope : DirectionScope) : Nat :=
  match scope.usageGeneration with
  | some (.number n) => (n.safeInteger?.getD 0).toNat
  | _ => 0

def DirectionScope.toJson (scope : DirectionScope) (goalRef : WireExactGoalRef) : Json :=
  .object ([("schema_version", .string SCOPE_SCHEMA), ("goal_ref", goalRef.toJson),
    ("enabled", .bool scope.enabled), ("authority_digest", .string scope.authorityDigest)] ++
    (scope.usageGeneration.map fun value => ("usage_generation", value)).toList)

def usageGeneration (value : Option Json) : Protocol (Option Json) :=
  match value with
  | none => .ok none
  | some .null => .ok (some .null)
  | some (.number n) =>
    match n.safeInteger? with
    | some i =>
      if 0 ≤ i then .ok (some (.number n)) else .error "invalid material usage generation"
    | none => .error "invalid material usage generation"
  | some _ => .error "invalid material usage generation"

def enabledFlag (value : Option Json) : Protocol Bool :=
  match value with
  | some (.bool b) => .ok b
  | _ => .error "invalid direction scope"

/-- The topics under which a material is stored, in the order of the stored object. -/
def storedTopics (topics : Fields) (id : String) : Protocol (List String) := do
  throwWhen (¬topics.all fun topic => match topic.2 with
      | .array _ => true
      | _ => false) "stored topic must be a complete list"
  .ok ((topics.filter fun topic => match topic.2 with
      | .array ids => ids.contains (.string id)
      | _ => false).map Prod.fst)

/-- The declaration that a stored requirement was made from. -/
def storedDeclaration (materials topics : Fields) (value : Json) : Protocol Json := do
  let required ← authorityFields (some value) "stored requirement"
  directionKeys required ["requirement_id", "material_id", "purpose", "required"] []
  let id ← token (required.lookup "material_id") "material id"
  let material ← authorityFields (materials.lookup id) "stored material"
  throwWhen (required.lookup "requirement_id" ≠ some (.string (requirementId id)))
    "direction requirement identity changed"
  let names ← storedTopics topics id
  .ok (.object ([("material_id", .string id), ("purpose", (required.lookup "purpose").getD .null),
    ("required", (required.lookup "required").getD .null), ("topics", texts names)] ++
    ((material.lookup "boundary").map fun v => ("boundary", v)).toList ++
    ((material.lookup "source_ref_sha256").map fun v => ("source_ref_sha256", v)).toList ++
    ((material.lookup "revision").map fun v => ("revision", v)).toList))

def storedRequirements (value : Option Json) : Protocol (List Json) :=
  match value with
  | some (.array items) => .ok items
  | _ => .error "direction requirements are unavailable"

/-- The stored registry, checked against the registry of its own declarations. -/
def storedRegistry (head : Fields) (sha : Sha256) : Protocol Fields := do
  let registry ← authorityFields (head.lookup "authority_registry") "canonical authority registry"
  directionKeys registry ["project_materials", "topic_authority", "goal_direction_requirements"] []
  let materials ← authorityFields (registry.lookup "project_materials") "registered materials"
  let topics ← authorityFields (registry.lookup "topic_authority") "registered topics"
  let requirements ← storedRequirements (registry.lookup "goal_direction_requirements")
  let declared ← requirements.mapM (storedDeclaration materials topics)
  let normalized ← policyMaterials isPrivate (some (.array declared))
  throwWhen (canonicalAuthoritySha256 sha (registryJson normalized) ≠
      canonicalAuthoritySha256 sha (.object registry))
    "stored direction authority is malformed or contains unsupported fields"
  .ok registry

/-- `canonicalAuthoritySha256({goal_ref, authority_registry})`. -/
def authorityDigest (sha : Sha256) (goalRef : WireExactGoalRef) (registry : Json) : String :=
  canonicalAuthoritySha256 sha
    (.object [("goal_ref", goalRef.toJson), ("authority_registry", registry)])

def scope (sha : Sha256) (head : Fields) (goalRef : WireExactGoalRef) :
    Protocol (Option DirectionScope) :=
  match head.lookup "goal_direction_scope" with
  | none => .ok none
  | some stored => do
    let value ← authorityFields (some stored) "direction scope"
    directionKeys value ["schema_version", "goal_ref", "enabled", "authority_digest"]
      ["usage_generation"]
    let generation ← usageGeneration (value.lookup "usage_generation")
    throwWhen (value.lookup "schema_version" ≠ some (.string SCOPE_SCHEMA))
      "invalid direction scope"
    let enabled ← enabledFlag (value.lookup "enabled")
    let storedRef ← parseWireExactGoalRef (value.lookup "goal_ref") "direction scope"
    throwWhen (¬sameExactGoalRef storedRef goalRef) "direction belongs to a different Goal lifetime"
    let registry ← storedRegistry isPrivate head sha
    let digest := authorityDigest sha goalRef (.object registry)
    throwWhen (value.lookup "authority_digest" ≠ some (.string digest))
      "direction authority digest mismatch"
    .ok (some ⟨enabled, digest, generation⟩)

/-! ## What the checks promise -/

variable {isPrivate}

/-- Everything `directionMaterial` checks of a material. -/
structure Material.Checked (isPrivate : String → Bool) (material : Material) : Prop where
  id : isToken material.id = true
  boundary : jsString material.boundary ∈ ["public", "public_safe", "local_private"]
  canonical : Json.Canonical material.boundary
  topics : material.topics.length ≤ 16
  tokens : ∀ topic ∈ material.topics, isToken topic = true
  distinct : material.topics.Nodup
  revision : isEnvelopedSha256 material.revision = true
  source : isBareSha256 material.sourceRefSha256 = true
  purpose : isSafe isPrivate material.purpose = true

theorem token_eq_ok {value : Option Json} {label s : String} :
    token value label = .ok s ↔ value = some (.string s) ∧ isToken s = true := by
  unfold token
  split
  · rename_i t
    split
    · rename_i ht
      simp only [Except.ok.injEq, Option.some.injEq, Json.string.injEq]
      constructor
      · rintro rfl
        exact ⟨rfl, ht⟩
      · exact fun h => h.1
    · rename_i ht
      simp only [reduceCtorEq, Option.some.injEq, Json.string.injEq, false_iff]
      rintro ⟨rfl, h⟩
      exact ht h
  · rename_i hother
    simp only [reduceCtorEq, false_iff]
    rintro ⟨rfl, _⟩
    exact hother s rfl

theorem mapM_tokens {items : List Json} {names : List String} {label : String} :
    items.mapM (fun item => token (some item) label) = .ok names ↔
      items = names.map Json.string ∧ ∀ name ∈ names, isToken name = true := by
  induction items generalizing names with
  | nil =>
    simp only [List.mapM_nil]
    constructor
    · intro h
      obtain rfl := Except.ok.inj h
      simp
    · rintro ⟨h, _⟩
      rw [List.map_eq_nil_iff.mp h.symm]
      rfl
  | cons item items ih =>
    rw [List.mapM_cons]
    constructor
    · intro h
      obtain ⟨name, hname, h⟩ := bind_eq_ok.mp h
      obtain ⟨rest, hrest, h⟩ := bind_eq_ok.mp h
      obtain rfl := Except.ok.inj h
      obtain ⟨hitem, htoken⟩ := token_eq_ok.1 hname
      obtain ⟨rfl, hall⟩ := ih.mp hrest
      refine ⟨by rw [Option.some.inj hitem]; rfl, ?_⟩
      simpa using ⟨htoken, hall⟩
    · rintro ⟨h, hall⟩
      cases names with
      | nil => cases h
      | cons name rest =>
        rw [List.map_cons, List.cons.injEq] at h
        obtain ⟨rfl, rfl⟩ := h
        obtain ⟨htoken, hrest⟩ := List.forall_mem_cons.mp hall
        rw [token_eq_ok.2 ⟨rfl, htoken⟩, Lib.Fallible.ok_bind, ih.mpr ⟨rfl, hrest⟩]
        rfl

/-- A read item gives a checked material under a new identity, its own. -/
theorem directionMaterial_eq_ok {seen : List String} {item : Fields} {material : Material}
    (canonical : ∀ key value, item.lookup key = some value → Json.Canonical value)
    (h : directionMaterial isPrivate seen item = .ok material) :
    item.lookup "material_id" = some (.string material.id) ∧ material.id ∉ seen ∧
      material.Checked isPrivate := by
  obtain ⟨_, _, h⟩ := bind_eq_ok.mp h
  obtain ⟨id, hid, h⟩ := bind_eq_ok.mp h
  obtain ⟨_, hseen, h⟩ := bind_eq_ok.mp h
  obtain ⟨required, _, h⟩ := bind_eq_ok.mp h
  obtain ⟨boundary, hboundary, h⟩ := bind_eq_ok.mp h
  obtain ⟨topics, htopics, h⟩ := bind_eq_ok.mp h
  obtain ⟨revision, hrevision, h⟩ := bind_eq_ok.mp h
  obtain ⟨source, hsource, h⟩ := bind_eq_ok.mp h
  obtain ⟨names, hnames, h⟩ := bind_eq_ok.mp h
  obtain ⟨_, hdistinct, h⟩ := bind_eq_ok.mp h
  obtain ⟨purpose, hpurpose, h⟩ := bind_eq_ok.mp h
  obtain rfl := Except.ok.inj h
  obtain ⟨hid, idToken⟩ := token_eq_ok.1 hid
  obtain ⟨rfl, hall⟩ := mapM_tokens.1 hnames
  refine ⟨hid, throwWhen_eq_ok.mp hseen, idToken, ?_, ?_, ?_, hall,
    not_not.mp (throwWhen_eq_ok.mp hdistinct), ?_, ?_, ?_⟩
  · unfold sourceBoundary at hboundary
    split at hboundary
    · split at hboundary
      · rename_i member
        rwa [← Except.ok.inj hboundary]
      · cases hboundary
    · cases hboundary
  · unfold sourceBoundary at hboundary
    split at hboundary
    · rename_i value hvalue
      split at hboundary
      · rw [← Except.ok.inj hboundary]
        exact canonical _ _ hvalue
      · cases hboundary
    · cases hboundary
  · unfold topicItems at htopics
    split at htopics
    · split at htopics
      · rename_i bounded
        rw [Except.ok.inj htopics] at bounded
        simpa using bounded
      · cases htopics
    · cases htopics
  · unfold materialRevision at hrevision
    split at hrevision
    · split at hrevision
      · rename_i enveloped
        rwa [← Except.ok.inj hrevision]
      · cases hrevision
    · cases hrevision
  · unfold hash at hsource
    split at hsource
    · split at hsource
      · rename_i bare
        rwa [← Except.ok.inj hsource]
      · cases hsource
    · cases hsource
  · unfold safe at hpurpose
    split at hpurpose
    · split at hpurpose
      · rename_i isSafe
        rwa [← Except.ok.inj hpurpose]
      · cases hpurpose
    · cases hpurpose

/-- A registry of checked materials, in the order of their identities. -/
structure Declared (isPrivate : String → Bool) (materials : List Material) : Prop where
  each : ∀ material ∈ materials, material.Checked isPrivate
  nodup : (materials.map (·.id)).Nodup
  ordered : materials.Pairwise fun a b => utf16Units a.id ≤ utf16Units b.id
  nonempty : 0 < materials.length
  bounded : materials.length ≤ maxRequirements
  required : materials.any (·.required) = true
  fits : byteLength (registryJson materials) ≤ outputBytes

theorem directionMaterials_eq_ok {seen : List String} {items : List Fields}
    {materials : List Material}
    (canonical : ∀ item ∈ items, ∀ key value, item.lookup key = some value →
      Json.Canonical value)
    (h : directionMaterials isPrivate seen items = .ok materials) :
    materials.map (·.id) = items.map materialIdText ∧
      (∀ material ∈ materials, material.Checked isPrivate ∧ material.id ∉ seen) ∧
      (materials.map (·.id)).Nodup := by
  induction items generalizing seen materials with
  | nil =>
    obtain rfl := Except.ok.inj h
    simp
  | cons item items ih =>
    obtain ⟨material, hmaterial, h⟩ := bind_eq_ok.mp h
    obtain ⟨rest, hrest, h⟩ := bind_eq_ok.mp h
    obtain rfl := Except.ok.inj h
    obtain ⟨hid, fresh, checked⟩ :=
      directionMaterial_eq_ok (canonical item (by simp)) hmaterial
    obtain ⟨same, each, nodup⟩ :=
      ih (fun item hitem => canonical item (List.mem_cons_of_mem _ hitem)) hrest
    refine ⟨?_, ?_, ?_⟩
    · rw [List.map_cons, List.map_cons, same, materialIdText, hid]
      rfl
    · intro m hm
      rcases List.mem_cons.mp hm with rfl | hm
      · exact ⟨checked, fresh⟩
      · exact ⟨(each m hm).1, fun hseen => (each m hm).2 (List.mem_cons_of_mem _ hseen)⟩
    · refine List.nodup_cons.mpr ⟨?_, nodup⟩
      intro hmem
      obtain ⟨m, hm, same⟩ := List.mem_map.mp hmem
      exact (each m hm).2 (by rw [same]; exact List.mem_cons_self)

theorem pairwise_orderedItems (items : List Fields) :
    (orderedItems items).Pairwise fun a b =>
      utf16Units (materialIdText a) ≤ utf16Units (materialIdText b) := by
  have : Std.Total fun a b : Fields =>
      utf16Units (materialIdText a) ≤ utf16Units (materialIdText b) := ⟨fun _ _ => le_total _ _⟩
  have : IsTrans Fields fun a b =>
      utf16Units (materialIdText a) ≤ utf16Units (materialIdText b) :=
    ⟨fun _ _ _ => le_trans⟩
  exact List.pairwise_insertionSort _ _

end Loopx.Goals.Direction
