/- GID: Loopx/Goals/DirectionRoundTrip
   generality: I
   source: loopx/control_plane/goals/direction_authority.ts
   digest: A stored declaration reads back as the registry that was declared. -/

import Loopx.Goals.DirectionRegistry

set_option autoImplicit false
set_option relaxedAutoImplicit false

namespace Loopx.Goals.Direction

open Loopx.Lib.KeyedList
open Loopx.Lib.Fallible (bind_eq_ok ok_bind throwWhen throwWhen_eq_ok throwWhen_of_not)
open Loopx.Json (JsNumber Protocol byteLength byteLength_canonical canonicalAuthorityJson
  canonicalEntries canonicalAuthorityJson_object canonicalAuthorityJson_array Distinct)
open Loopx.Authority (Sha256 canonicalAuthoritySha256)
open Loopx.Scheduler (jsString utf16Units)

variable {isPrivate : String → Bool}

/-- A digest is taken of the canonical form alone. -/
theorem canonicalAuthoritySha256_congr (sha : Sha256) {v w : Json}
    (h : canonicalAuthorityJson v = canonicalAuthorityJson w) :
    canonicalAuthoritySha256 sha v = canonicalAuthoritySha256 sha w := by
  rw [canonicalAuthoritySha256, canonicalAuthoritySha256,
    (Json.canonicalAuthorityBytes_eq_iff v w).mpr h]

/-! ## What a declaration leaves -/

private theorem canonical_of_authorityFields {value : Option Json} {name : String}
    {fields : Fields} (h : authorityFields value name = .ok fields) :
    ∀ key v, fields.lookup key = some v → Json.Canonical v := by
  obtain ⟨raw, rfl, rfl⟩ := authorityFields_eq_ok.mp h
  intro key v hv
  have canonical := Json.canonical_canonicalAuthorityJson (.object raw)
  rw [canonicalAuthorityJson_object] at canonical
  exact canonical.lookup hv

private theorem forall_mem_mapM {items : List Json} {objects : List Fields} {name : String}
    (h : items.mapM (fun item => authorityFields (some item) name) = .ok objects) :
    ∀ fields ∈ objects, ∀ key v, fields.lookup key = some v → Json.Canonical v := by
  induction items generalizing objects with
  | nil =>
    rw [List.mapM_nil] at h
    obtain rfl := Except.ok.inj h
    simp
  | cons item items ih =>
    rw [List.mapM_cons] at h
    obtain ⟨fields, hfields, h⟩ := bind_eq_ok.mp h
    obtain ⟨rest, hrest, h⟩ := bind_eq_ok.mp h
    obtain rfl := Except.ok.inj h
    exact List.forall_mem_cons.mpr ⟨canonical_of_authorityFields hfields, ih hrest⟩

/-- What `policyRegistry` accepts is declared: checked, ordered and small enough. -/
theorem declared_of_policyMaterials {value : Option Json} {materials : List Material}
    (h : policyMaterials isPrivate value = .ok materials) : Declared isPrivate materials := by
  obtain ⟨items, hitems, h⟩ := bind_eq_ok.mp h
  obtain ⟨objects, hobjects, h⟩ := bind_eq_ok.mp h
  obtain ⟨read, hread, h⟩ := bind_eq_ok.mp h
  obtain ⟨_, hrequired, h⟩ := bind_eq_ok.mp h
  obtain ⟨_, hbytes, h⟩ := bind_eq_ok.mp h
  obtain rfl := Except.ok.inj h
  have canonical := forall_mem_mapM hobjects
  have each' : ∀ item ∈ orderedItems objects, ∀ key v, item.lookup key = some v →
      Json.Canonical v :=
    fun item hitem => canonical item ((List.perm_insertionSort _ _).mem_iff.mp hitem)
  obtain ⟨same, each, nodup⟩ := directionMaterials_eq_ok each' hread
  have length : read.length = items.length := by
    have hmapM := (Lib.Fallible.mapM_eq_ok.mp hobjects).length_eq
    have hsame := congrArg List.length same
    rw [List.length_map, List.length_map, orderedItems, List.length_insertionSort] at hsame
    omega
  have bounds : 0 < items.length ∧ items.length ≤ maxRequirements := by
    unfold declaredItems at hitems
    split at hitems
    · split at hitems
      · rename_i hbounds
        rwa [Except.ok.inj hitems] at hbounds
      · cases hitems
    · cases hitems
  refine ⟨fun m hm => (each m hm).1, nodup, ?_, by omega, by omega,
    not_not.mp (throwWhen_eq_ok.mp hrequired), Nat.not_lt.mp (throwWhen_eq_ok.mp hbytes)⟩
  have ordered := pairwise_orderedItems objects
  rw [← List.pairwise_map (f := materialIdText)
    (R := fun a b => utf16Units a ≤ utf16Units b), ← same, List.pairwise_map] at ordered
  exact ordered

/-! ## Topics -/

/-- The identities of the materials that name a topic, in order. -/
def namedBy (materials : List Material) (topic : String) : List String :=
  (materials.filter fun material => topic ∈ material.topics).map (·.id)

private theorem lookup_foldl_pushTopic (id : String) (names : List String)
    (nodup : names.Nodup) (topics : List (String × List String)) (topic : String) :
    (names.foldl (pushTopic id) topics).lookup topic =
      if topic ∈ names then some ((topics.lookup topic).getD [] ++ [id])
      else topics.lookup topic := by
  induction names generalizing topics with
  | nil => simp
  | cons name names ih =>
    obtain ⟨fresh, rest⟩ := List.nodup_cons.mp nodup
    rw [List.foldl_cons, ih rest, pushTopic, lookup_setKey]
    by_cases same : topic = name
    · subst same
      simp [fresh]
    · simp [same]

private theorem lookup_foldl_material (materials : List Material)
    (nodup : ∀ material ∈ materials, material.topics.Nodup)
    (topics : List (String × List String)) (topic : String) :
    (materials.foldl (fun topics material => material.topics.foldl (pushTopic material.id) topics)
        topics).lookup topic =
      if namedBy materials topic = [] then topics.lookup topic
      else some ((topics.lookup topic).getD [] ++ namedBy materials topic) := by
  induction materials generalizing topics with
  | nil => simp [namedBy]
  | cons material materials ih =>
    obtain ⟨first, rest⟩ := List.forall_mem_cons.mp nodup
    rw [List.foldl_cons, ih rest, lookup_foldl_pushTopic _ _ first]
    by_cases member : topic ∈ material.topics
    · have head : namedBy (material :: materials) topic =
          material.id :: namedBy materials topic := by
        simp [namedBy, member]
      by_cases none : namedBy materials topic = []
      · simp [head, member, none]
      · simp [head, member, none]
    · have same : namedBy (material :: materials) topic = namedBy materials topic := by
        simp [namedBy, member]
      simp [same, member]

/-- The registry holds each named topic with the materials that name it. -/
theorem lookup_topicAuthority {materials : List Material}
    (nodup : ∀ material ∈ materials, material.topics.Nodup) (topic : String) :
    (topicAuthority materials).lookup topic =
      if namedBy materials topic = [] then none else some (namedBy materials topic) := by
  rw [topicAuthority, lookup_foldl_material materials nodup]
  simp

private theorem nodup_foldl_pushTopic (id : String) (names : List String)
    {topics : List (String × List String)} (nodup : (keys topics).Nodup) :
    (keys (names.foldl (pushTopic id) topics)).Nodup := by
  induction names generalizing topics with
  | nil => exact nodup
  | cons name names ih => exact ih (nodup_keys_setKey nodup _ _)

theorem nodup_topicAuthority (materials : List Material) :
    (keys (topicAuthority materials)).Nodup := by
  have keep : ∀ topics : List (String × List String), (keys topics).Nodup →
      (keys (materials.foldl (fun topics material =>
        material.topics.foldl (pushTopic material.id) topics) topics)).Nodup := by
    induction materials with
    | nil => exact fun _ h => h
    | cons material materials ih =>
      exact fun topics h => ih _ (nodup_foldl_pushTopic _ _ h)
  exact keep [] List.nodup_nil

theorem mem_namedBy {materials : List Material} {topic id : String} :
    id ∈ namedBy materials topic ↔
      ∃ material ∈ materials, topic ∈ material.topics ∧ material.id = id := by
  simp only [namedBy, List.mem_map, List.mem_filter, decide_eq_true_eq, and_assoc]

/-! ## Reading what was stored -/

/-- The fields of an object as the store keeps them. -/
def storedFields (fields : Fields) : Fields :=
  canonicalEntries (fields.map fun f => (f.1, canonicalAuthorityJson f.2))

theorem authorityFields_object (fields : Fields) (name : String) :
    authorityFields (some (.object fields)) name = .ok (storedFields fields) :=
  authorityFields_eq_ok.mpr ⟨fields, rfl, rfl⟩

theorem authorityFields_of_canonical {value : Option Json} {fields : Fields}
    (h : value.map canonicalAuthorityJson = some (canonicalAuthorityJson (.object fields)))
    (name : String) : authorityFields value name = .ok (storedFields fields) := by
  rw [← authorityFields_canonical, h, ← Option.map_some, authorityFields_canonical,
    authorityFields_object]

theorem object_storedFields (fields : Fields) :
    Json.object (storedFields fields) = canonicalAuthorityJson (.object fields) :=
  (canonicalAuthorityJson_object fields).symm

theorem directionKeys_eq_ok {fields : Fields} {required optional : List String} :
    directionKeys fields required optional = .ok () ↔
      (∀ key ∈ required, key ∈ keys fields) ∧
        ∀ key ∈ keys fields, key ∈ required ∨ key ∈ optional := by
  rw [directionKeys, throwWhen_eq_ok, not_not]
  simp only [List.all_eq_true, lookup_isSome, Bool.or_eq_true, List.contains_iff_mem]

/-- Storing an object keeps its field names. -/
theorem directionKeys_stored {fields : Fields} (nodup : (keys fields).Nodup)
    {required optional : List String} (h : directionKeys fields required optional = .ok ()) :
    directionKeys (storedFields fields) required optional = .ok () := by
  obtain ⟨first, second⟩ := directionKeys_eq_ok.1 h
  have perm := Json.perm_keys_canonicalFields nodup
  refine directionKeys_eq_ok.2 ⟨fun key hkey => perm.mem_iff.mpr (first key hkey), ?_⟩
  exact fun key hkey => second key (perm.mem_iff.mp hkey)

theorem canonical_texts (items : List String) :
    canonicalAuthorityJson (texts items) = texts items := by
  rw [texts, canonicalAuthorityJson_array, List.map_map]
  rfl

/-! ## Declaring a material again -/

/-- The item that declares a material. -/
def Material.declarationFields (material : Material) : Fields :=
  [("material_id", .string material.id), ("purpose", .string material.purpose),
    ("required", .bool material.required), ("topics", texts material.topics),
    ("boundary", material.boundary), ("source_ref_sha256", .string material.sourceRefSha256),
    ("revision", .string material.revision)]

def Material.declaration (material : Material) : Json := .object material.declarationFields

private theorem nodup_declarationFields (material : Material) :
    (keys material.declarationFields).Nodup := by
  have names : keys material.declarationFields =
      ["material_id", "purpose", "required", "topics", "boundary", "source_ref_sha256",
        "revision"] := rfl
  rw [names]
  decide

private theorem lookup_declaration (material : Material) (key : String) :
    (storedFields material.declarationFields).lookup key =
      (material.declarationFields.lookup key).map canonicalAuthorityJson :=
  Json.lookup_canonicalFields (nodup_declarationFields material) key

private theorem declaration_reads (material : Material)
    (canonical : Json.Canonical material.boundary) :
    (storedFields material.declarationFields).lookup "material_id" = some (.string material.id) ∧
    (storedFields material.declarationFields).lookup "purpose" = some (.string material.purpose) ∧
    (storedFields material.declarationFields).lookup "required" =
      some (.bool material.required) ∧
    (storedFields material.declarationFields).lookup "topics" = some (texts material.topics) ∧
    (storedFields material.declarationFields).lookup "boundary" = some material.boundary ∧
    (storedFields material.declarationFields).lookup "source_ref_sha256" =
      some (.string material.sourceRefSha256) ∧
    (storedFields material.declarationFields).lookup "revision" =
      some (.string material.revision) := by
  have boundary : canonicalAuthorityJson material.boundary = material.boundary := canonical
  refine ⟨?_, ?_, ?_, ?_, ?_, ?_, ?_⟩ <;> rw [lookup_declaration] <;>
    simp [Material.declarationFields, List.lookup_cons, canonical_texts, canonicalAuthorityJson,
      boundary]

/-- A checked material is read back from its declaration. -/
theorem directionMaterial_declaration {material : Material} {seen : List String}
    (h : material.Checked isPrivate) (fresh : material.id ∉ seen) :
    directionMaterial isPrivate seen (storedFields material.declarationFields) =
      .ok material := by
  obtain ⟨hid, hpurpose, hrequired, htopics, hboundary, hsource, hrevision⟩ :=
    declaration_reads material h.canonical
  have known : directionKeys (storedFields material.declarationFields) materialKeys [] =
      .ok () := by
    refine directionKeys_stored (nodup_declarationFields material) (directionKeys_eq_ok.2 ?_)
    have names : keys material.declarationFields =
        ["material_id", "purpose", "required", "topics", "boundary", "source_ref_sha256",
          "revision"] := rfl
    rw [names, materialKeys]
    decide
  have tokens : (material.topics.map Json.string).mapM (fun topic => token (some topic) "topic") =
      .ok material.topics := mapM_tokens.mpr ⟨rfl, h.tokens⟩
  rw [directionMaterial, known, ok_bind, hid, token_eq_ok.mpr ⟨rfl, h.id⟩, ok_bind,
    throwWhen_of_not fresh, ok_bind, hrequired, hboundary, htopics, hrevision, hsource, hpurpose]
  simp only [requiredFlag, sourceBoundary, topicItems, texts, materialRevision, hash, safe,
    h.boundary, h.revision, h.source, h.purpose, if_true, ok_bind, List.length_map,
    if_pos h.topics, tokens, throwWhen_of_not (not_not.mpr h.distinct)]

theorem directionMaterials_declaration {materials : List Material} {seen : List String}
    (each : ∀ material ∈ materials, material.Checked isPrivate ∧ material.id ∉ seen)
    (nodup : (materials.map (·.id)).Nodup) :
    directionMaterials isPrivate seen
      (materials.map fun material => storedFields material.declarationFields) =
        .ok materials := by
  induction materials generalizing seen with
  | nil => rfl
  | cons material materials ih =>
    obtain ⟨⟨checked, fresh⟩, rest⟩ := List.forall_mem_cons.mp each
    obtain ⟨other, nodup⟩ := List.nodup_cons.mp nodup
    have later : ∀ m ∈ materials, m.Checked isPrivate ∧ m.id ∉ material.id :: seen := by
      intro m hm
      refine ⟨(rest m hm).1, fun hmem => ?_⟩
      rcases List.mem_cons.mp hmem with same | hmem
      · exact other (List.mem_map.mpr ⟨m, hm, same⟩)
      · exact (rest m hm).2 hmem
    rw [List.map_cons, directionMaterials, directionMaterial_declaration checked fresh, ok_bind,
      ih later nodup, ok_bind]

private theorem orderedItems_declaration {materials : List Material}
    (ordered : materials.Pairwise fun a b => utf16Units a.id ≤ utf16Units b.id)
    (each : ∀ material ∈ materials, material.Checked isPrivate) :
    orderedItems (materials.map fun material => storedFields material.declarationFields) =
      materials.map fun material => storedFields material.declarationFields := by
  refine List.Pairwise.insertionSort_eq ?_
  rw [List.pairwise_map]
  refine ordered.imp_of_mem ?_
  intro a b ha hb le
  obtain ⟨hid, _⟩ := declaration_reads a (each a ha).canonical
  obtain ⟨hid', _⟩ := declaration_reads b (each b hb).canonical
  rw [materialIdText, materialIdText, hid, hid']
  exact le

/-- Declaring the materials of a registry again gives the registry again. -/
theorem policyMaterials_declaration {materials : List Material}
    (h : Declared isPrivate materials) :
    policyMaterials isPrivate (some (.array (materials.map Material.declaration))) =
      .ok materials := by
  have items : declaredItems (some (.array (materials.map Material.declaration))) =
      .ok (materials.map Material.declaration) := by
    rw [declaredItems, List.length_map, if_pos ⟨h.nonempty, h.bounded⟩]
  have objects : (materials.map Material.declaration).mapM
      (fun item => authorityFields (some item) "direction material") =
        .ok (materials.map fun material => storedFields material.declarationFields) := by
    rw [Lib.Fallible.mapM_eq_ok, List.forall₂_map_left_iff, List.forall₂_map_right_iff,
      List.forall₂_same]
    exact fun material _ => authorityFields_object _ _
  have read : directionMaterials isPrivate []
      (materials.map fun material => storedFields material.declarationFields) = .ok materials :=
    directionMaterials_declaration (fun m hm => ⟨h.each m hm, List.not_mem_nil⟩) h.nodup
  rw [policyMaterials, items, ok_bind, objects, ok_bind,
    orderedItems_declaration h.ordered h.each, read, ok_bind,
    throwWhen_of_not (not_not.mpr h.required), ok_bind,
    throwWhen_of_not (Nat.not_lt.mpr h.fits), ok_bind]

/-- A request hands the declaration over in its canonical form. -/
theorem policyMaterials_canonical (value : Option Json) :
    policyMaterials isPrivate (value.map canonicalAuthorityJson) =
      policyMaterials isPrivate value := by
  have items : declaredItems (value.map canonicalAuthorityJson) =
      (declaredItems value).map (List.map canonicalAuthorityJson) := by
    cases value with
    | none => rfl
    | some value =>
      cases value with
      | array items =>
        rw [Option.map_some, Json.canonicalAuthorityJson_array, declaredItems, declaredItems,
          List.length_map]
        split <;> rfl
      | _ => rfl
  have read : ∀ items : List Json, (items.map canonicalAuthorityJson).mapM (fun item =>
      authorityFields (some item) "direction material") =
        items.mapM fun item => authorityFields (some item) "direction material" := by
    intro items
    rw [List.mapM_map]
    congr
    ext item
    exact authorityFields_canonical (some item) "direction material"
  rw [policyMaterials, policyMaterials, items]
  cases declaredItems value with
  | error error => rfl
  | ok items =>
    rw [Except.map, ok_bind, ok_bind, read]

/-! ## Restoring the topics -/

/-- The stored topics under which a material stands. -/
def restoredTopics (materials : List Material) (id : String) : List String :=
  ((storedFields ((topicAuthority materials).map fun t => (t.1, texts t.2))).filter fun topic =>
    match topic.2 with
    | .array ids => ids.contains (.string id)
    | _ => false).map Prod.fst

/-- A material with its topics as the stored registry lists them. -/
def Material.restored (materials : List Material) (material : Material) : Material :=
  { material with topics := restoredTopics materials material.id }

private theorem nodup_storedTopics (materials : List Material) :
    (keys ((topicAuthority materials).map fun t => (t.1, texts t.2))).Nodup := by
  rw [keys_map_snd (topicAuthority materials) texts]
  exact nodup_topicAuthority materials

private theorem lookup_storedTopics (materials : List Material) (topic : String) :
    (storedFields ((topicAuthority materials).map fun t => (t.1, texts t.2))).lookup topic =
      ((topicAuthority materials).lookup topic).map texts := by
  rw [storedFields, Json.lookup_canonicalFields (nodup_storedTopics materials),
    lookup_map_snd (topicAuthority materials) texts, Option.map_map]
  congr 1
  funext ids
  exact canonical_texts ids

private theorem nodup_keys_storedFields (fields : Fields) : (keys (storedFields fields)).Nodup :=
  nodup_keys_of_pairwise (Json.pairwise_canonicalEntries _)

private theorem mem_restoredTopics {materials : List Material}
    (nodup : ∀ material ∈ materials, material.topics.Nodup) {id topic : String} :
    topic ∈ restoredTopics materials id ↔ id ∈ namedBy materials topic := by
  have stored := nodup_keys_storedFields ((topicAuthority materials).map fun t => (t.1, texts t.2))
  have entry : ∀ value, (topic, value) ∈
      storedFields ((topicAuthority materials).map fun t => (t.1, texts t.2)) ↔
        ((topicAuthority materials).lookup topic).map texts = some value := by
    intro value
    rw [← lookup_iff_mem stored, lookup_storedTopics]
  simp only [restoredTopics, List.mem_map, List.mem_filter, Prod.exists]
  constructor
  · rintro ⟨key, value, ⟨hmem, held⟩, rfl⟩
    rw [entry, lookup_topicAuthority nodup] at hmem
    split at hmem
    · simp at hmem
    · obtain rfl := Option.some.inj hmem
      simpa [texts] using held
  · intro hmem
    refine ⟨topic, texts (namedBy materials topic), ⟨?_, ?_⟩, rfl⟩
    · rw [entry, lookup_topicAuthority nodup, if_neg (List.ne_nil_of_mem hmem), Option.map_some]
    · simpa [texts] using hmem

private theorem nodup_restoredTopics (materials : List Material) (id : String) :
    (restoredTopics materials id).Nodup :=
  (nodup_keys_storedFields _).sublist (List.filter_sublist.map Prod.fst)

/-- A restored material has its topics back, in the order of the store. -/
theorem restored_perm {materials : List Material} (h : Declared isPrivate materials)
    {material : Material} (hm : material ∈ materials) :
    (material.restored materials).topics.Perm material.topics := by
  have distinct : ∀ m ∈ materials, m.topics.Nodup := fun m hm => (h.each m hm).distinct
  refine (List.perm_ext_iff_of_nodup (nodup_restoredTopics _ _) (distinct _ hm)).mpr ?_
  intro topic
  rw [mem_restoredTopics distinct, mem_namedBy]
  constructor
  · rintro ⟨m, hmem, named, same⟩
    rwa [← List.inj_on_of_nodup_map h.nodup hmem hm same]
  · exact fun named => ⟨material, hm, named, rfl⟩

private theorem namedBy_restored {materials : List Material} (h : Declared isPrivate materials)
    (topic : String) :
    namedBy (materials.map (Material.restored materials)) topic = namedBy materials topic := by
  have same : ∀ material ∈ materials,
      (topic ∈ (material.restored materials).topics) = (topic ∈ material.topics) :=
    fun material hm => propext (restored_perm h hm).mem_iff
  rw [namedBy, List.filter_map, List.map_map, namedBy]
  congr 1
  refine List.filter_congr fun material hm => ?_
  simp only [Function.comp, same material hm]

private theorem checked_restored {materials : List Material} (h : Declared isPrivate materials)
    {material : Material} (hm : material ∈ materials) :
    (material.restored materials).Checked isPrivate := by
  have checked := h.each material hm
  have perm := restored_perm h hm
  exact {
    id := checked.id
    boundary := checked.boundary
    canonical := checked.canonical
    topics := perm.length_eq.symm ▸ checked.topics
    tokens := fun topic htopic => checked.tokens topic (perm.mem_iff.mp htopic)
    distinct := nodup_restoredTopics _ _
    revision := checked.revision
    source := checked.source
    purpose := checked.purpose }

theorem distinct_registry {materials : List Material}
    (each : ∀ material ∈ materials, material.Checked isPrivate)
    (nodup : (materials.map (·.id)).Nodup) : Distinct (registryJson materials) := by
  have outer : keys (registryFields materials) =
      ["project_materials", "topic_authority", "goal_direction_requirements"] := rfl
  rw [registryJson, Json.distinct_object, outer]
  refine ⟨by decide, ?_⟩
  rw [registryFields]
  simp only [List.forall_mem_cons, List.not_mem_nil, false_implies, implies_true, and_true]
  refine ⟨?_, ?_, ?_⟩
  · rw [Json.distinct_object]
    refine ⟨by simpa [keys, Function.comp_def] using nodup, ?_⟩
    intro f hf
    obtain ⟨material, hm, rfl⟩ := List.mem_map.mp hf
    have boundary := (each material hm).canonical.distinct
    simp [Material.toJson, Json.distinct_object, keys, boundary, Distinct]
  · rw [Json.distinct_object]
    refine ⟨nodup_storedTopics materials, ?_⟩
    intro f hf
    obtain ⟨topic, _, rfl⟩ := List.mem_map.mp hf
    rw [texts, Json.distinct_array]
    intro v hv
    obtain ⟨id, _, rfl⟩ := List.mem_map.mp hv
    trivial
  · rw [Json.distinct_array]
    intro v hv
    obtain ⟨material, _, rfl⟩ := List.mem_map.mp hv
    simp [Material.requirement, Json.distinct_object, keys, Distinct]

/-- The restored materials have the registry they were restored from. -/
theorem canonical_registry_restored {materials : List Material}
    (h : Declared isPrivate materials) :
    canonicalAuthorityJson (registryJson (materials.map (Material.restored materials))) =
      canonicalAuthorityJson (registryJson materials) := by
  have distinct : ∀ m ∈ materials, m.topics.Nodup := fun m hm => (h.each m hm).distinct
  have distinct' : ∀ m ∈ materials.map (Material.restored materials), m.topics.Nodup := by
    intro m hm
    obtain ⟨material, hm, rfl⟩ := List.mem_map.mp hm
    exact nodup_restoredTopics _ _
  have topics : canonicalAuthorityJson (.object
      ((topicAuthority (materials.map (Material.restored materials))).map
        fun t => (t.1, texts t.2))) =
      canonicalAuthorityJson (.object ((topicAuthority materials).map
        fun t => (t.1, texts t.2))) := by
    refine Json.canonicalAuthorityJson_congr (nodup_storedTopics _) (nodup_storedTopics _) ?_
    intro topic
    rw [lookup_map_snd _ texts, lookup_map_snd _ texts, lookup_topicAuthority distinct',
      lookup_topicAuthority distinct, namedBy_restored h]
  have materials' : (materials.map (Material.restored materials)).map
      (fun m => (m.id, m.toJson)) = materials.map fun m => (m.id, m.toJson) := by
    rw [List.map_map]
    rfl
  have requirements : (materials.map (Material.restored materials)).map Material.requirement =
      materials.map Material.requirement := by
    rw [List.map_map]
    rfl
  rw [registryJson, registryJson, registryFields, registryFields, materials', requirements,
    canonicalAuthorityJson_object, canonicalAuthorityJson_object]
  simp only [List.map_cons, List.map_nil, topics]

/-- The restored materials are declared as well. -/
theorem declared_restored {materials : List Material} (h : Declared isPrivate materials) :
    Declared isPrivate (materials.map (Material.restored materials)) := by
  have names : (materials.map (Material.restored materials)).map (·.id) =
      materials.map (·.id) := by
    rw [List.map_map]
    rfl
  have each : ∀ m ∈ materials.map (Material.restored materials), m.Checked isPrivate := by
    intro m hm
    obtain ⟨material, member, rfl⟩ := List.mem_map.mp hm
    exact checked_restored h member
  have nodup : ((materials.map (Material.restored materials)).map (·.id)).Nodup := names ▸ h.nodup
  refine ⟨each, nodup, ?_, ?_, ?_, ?_, ?_⟩
  · rw [List.pairwise_map]
    exact h.ordered
  · rw [List.length_map]
    exact h.nonempty
  · rw [List.length_map]
    exact h.bounded
  · rw [List.any_map]
    exact h.required
  · rw [← byteLength_canonical (distinct_registry each nodup), canonical_registry_restored h,
      byteLength_canonical (distinct_registry h.each h.nodup)]
    exact h.fits

/-! ## Reading a declared registry -/

/-- The head holds the registry of the materials. -/
def Registered (head : Fields) (materials : List Material) : Prop :=
  (head.lookup "authority_registry").map canonicalAuthorityJson =
    some (canonicalAuthorityJson (registryJson materials))

private theorem nodup_registryFields (materials : List Material) :
    (keys (registryFields materials)).Nodup := by
  have names : keys (registryFields materials) =
      ["project_materials", "topic_authority", "goal_direction_requirements"] := rfl
  rw [names]
  decide

theorem lookup_registry (materials : List Material) (key : String) :
    (storedFields (registryFields materials)).lookup key =
      ((registryFields materials).lookup key).map canonicalAuthorityJson :=
  Json.lookup_canonicalFields (nodup_registryFields materials) key

private def requirementFields (material : Material) : Fields :=
  [("requirement_id", .string (requirementId material.id)),
    ("material_id", .string material.id), ("purpose", .string material.purpose),
    ("required", .bool material.required)]

private theorem requirement_reads (material : Material) :
    directionKeys (storedFields (requirementFields material))
      ["requirement_id", "material_id", "purpose", "required"] [] = .ok () ∧
    (storedFields (requirementFields material)).lookup "requirement_id" =
      some (.string (requirementId material.id)) ∧
    (storedFields (requirementFields material)).lookup "material_id" =
      some (.string material.id) ∧
    (storedFields (requirementFields material)).lookup "purpose" =
      some (.string material.purpose) ∧
    (storedFields (requirementFields material)).lookup "required" =
      some (.bool material.required) := by
  have names : keys (requirementFields material) =
      ["requirement_id", "material_id", "purpose", "required"] := rfl
  have nodup : (keys (requirementFields material)).Nodup := by
    rw [names]
    decide
  have known : directionKeys (storedFields (requirementFields material))
      ["requirement_id", "material_id", "purpose", "required"] [] = .ok () := by
    refine directionKeys_stored nodup (directionKeys_eq_ok.2 ?_)
    rw [names]
    decide
  have reads : ∀ key, (storedFields (requirementFields material)).lookup key =
      ((requirementFields material).lookup key).map canonicalAuthorityJson :=
    fun key => Json.lookup_canonicalFields nodup key
  refine ⟨known, ?_, ?_, ?_, ?_⟩ <;> rw [reads] <;>
    simp [requirementFields, List.lookup_cons, canonicalAuthorityJson]

def materialFields (material : Material) : Fields :=
  [("id", .string material.id), ("source_ref_sha256", .string material.sourceRefSha256),
    ("source_ref_redacted", .bool true), ("source_kind", .string "document"),
    ("role", .string "direction"), ("owner_status", .string "reviewed"),
    ("conflict_rule", .string "owner_wins"), ("freshness", .string "current"),
    ("gate_status", .string "readable"), ("boundary", material.boundary),
    ("revision", .string material.revision)]

/-- What a stored material reads at a key. -/
theorem lookup_storedMaterial (material : Material) (key : String) :
    (storedFields (materialFields material)).lookup key =
      ((materialFields material).lookup key).map canonicalAuthorityJson := by
  have nodup : (keys (materialFields material)).Nodup := by
    have names : keys (materialFields material) =
        ["id", "source_ref_sha256", "source_ref_redacted", "source_kind", "role", "owner_status",
          "conflict_rule", "freshness", "gate_status", "boundary", "revision"] := rfl
    rw [names]
    decide
  exact Json.lookup_canonicalFields nodup key

theorem material_reads (material : Material)
    (canonical : Json.Canonical material.boundary) :
    (storedFields (materialFields material)).lookup "boundary" = some material.boundary ∧
    (storedFields (materialFields material)).lookup "source_ref_sha256" =
      some (.string material.sourceRefSha256) ∧
    (storedFields (materialFields material)).lookup "revision" =
      some (.string material.revision) := by
  have boundary : canonicalAuthorityJson material.boundary = material.boundary := canonical
  refine ⟨?_, ?_, ?_⟩ <;> rw [lookup_storedMaterial] <;>
    simp [materialFields, List.lookup_cons, canonicalAuthorityJson, boundary]

/-- The stored materials hold each declared one under its identity. -/
theorem authorityFields_storedMaterial {materials : List Material}
    (nodup : (materials.map (·.id)).Nodup) {material : Material} (hm : material ∈ materials)
    (name : String) :
    authorityFields ((storedFields (materials.map fun m => (m.id, m.toJson))).lookup material.id)
      name = .ok (storedFields (materialFields material)) := by
  have distinct : (keys (materials.map fun m => (m.id, m.toJson))).Nodup := by
    simpa [keys, Function.comp_def] using nodup
  have held : (materials.map fun m => (m.id, m.toJson)).lookup material.id =
      some material.toJson :=
    lookup_of_mem distinct (List.mem_map.mpr ⟨material, hm, rfl⟩)
  refine authorityFields_of_canonical ?_ name
  rw [storedFields, Json.lookup_canonicalFields distinct, held, Option.map_some, Option.map_some,
    Json.canonical_canonicalAuthorityJson]
  rfl

private theorem all_storedTopics (materials : List Material) :
    (storedFields ((topicAuthority materials).map fun t => (t.1, texts t.2))).all
      (fun topic => match topic.2 with
        | .array _ => true
        | _ => false) = true := by
  rw [List.all_eq_true]
  intro topic htopic
  obtain ⟨name, value⟩ := topic
  have held := lookup_of_mem (nodup_keys_storedFields _) htopic
  rw [lookup_storedTopics] at held
  obtain ⟨ids, _, rfl⟩ := Option.map_eq_some_iff.mp held
  rfl

private theorem storedDeclaration_eq {materials : List Material}
    (h : Declared isPrivate materials) {material : Material} (hm : material ∈ materials) :
    storedDeclaration (storedFields (materials.map fun m => (m.id, m.toJson)))
      (storedFields ((topicAuthority materials).map fun t => (t.1, texts t.2)))
      (canonicalAuthorityJson material.requirement) =
        .ok (material.restored materials).declaration := by
  obtain ⟨known, hidentity, hid, hpurpose, hrequired⟩ := requirement_reads material
  obtain ⟨hboundary, hsource, hrevision⟩ := material_reads material (h.each material hm).canonical
  have required : authorityFields (some (canonicalAuthorityJson material.requirement))
      "stored requirement" = .ok (storedFields (requirementFields material)) := by
    refine authorityFields_of_canonical ?_ _
    rw [Option.map_some, Json.canonical_canonicalAuthorityJson]
    rfl
  have topics : storedTopics
      (storedFields ((topicAuthority materials).map fun t => (t.1, texts t.2))) material.id =
        .ok (restoredTopics materials material.id) := by
    rw [storedTopics, throwWhen_of_not, ok_bind]
    · rfl
    · exact not_not.mpr (all_storedTopics materials)
  rw [storedDeclaration, required, ok_bind, known, ok_bind, hid,
    token_eq_ok.mpr ⟨rfl, (h.each material hm).id⟩, ok_bind,
    authorityFields_storedMaterial h.nodup hm, ok_bind, hidentity,
    throwWhen_of_not (not_not.mpr rfl), ok_bind, topics, ok_bind, hpurpose, hrequired, hboundary,
    hsource, hrevision]
  rfl

/-- A stored declaration is accepted again, as the registry that was written. -/
theorem storedRegistry_of_registered {head : Fields} {materials : List Material}
    (h : Declared isPrivate materials) (registered : Registered head materials) (sha : Sha256) :
    storedRegistry isPrivate head sha = .ok (storedFields (registryFields materials)) := by
  have names : keys (registryFields materials) =
      ["project_materials", "topic_authority", "goal_direction_requirements"] := rfl
  have known : directionKeys (storedFields (registryFields materials))
      ["project_materials", "topic_authority", "goal_direction_requirements"] [] = .ok () := by
    refine directionKeys_stored (nodup_registryFields materials) (directionKeys_eq_ok.2 ?_)
    rw [names]
    decide
  have hmaterials : authorityFields
      ((storedFields (registryFields materials)).lookup "project_materials")
      "registered materials" = .ok (storedFields (materials.map fun m => (m.id, m.toJson))) := by
    rw [lookup_registry, authorityFields_canonical]
    exact authorityFields_object _ _
  have htopics : authorityFields
      ((storedFields (registryFields materials)).lookup "topic_authority") "registered topics" =
        .ok (storedFields ((topicAuthority materials).map fun t => (t.1, texts t.2))) := by
    rw [lookup_registry, authorityFields_canonical]
    exact authorityFields_object _ _
  have hrequirements : (storedFields (registryFields materials)).lookup
      "goal_direction_requirements" =
        some (.array (materials.map fun m => canonicalAuthorityJson m.requirement)) := by
    rw [lookup_registry]
    simp [registryFields, List.lookup_cons, canonicalAuthorityJson_array, Function.comp_def]
  have declared : (materials.map fun m => canonicalAuthorityJson m.requirement).mapM
      (storedDeclaration (storedFields (materials.map fun m => (m.id, m.toJson)))
        (storedFields ((topicAuthority materials).map fun t => (t.1, texts t.2)))) =
      .ok ((materials.map (Material.restored materials)).map Material.declaration) := by
    rw [Lib.Fallible.mapM_eq_ok, List.map_map, List.forall₂_map_left_iff,
      List.forall₂_map_right_iff, List.forall₂_same]
    exact fun material hm => storedDeclaration_eq h hm
  have digest : canonicalAuthoritySha256 sha
      (registryJson (materials.map (Material.restored materials))) =
        canonicalAuthoritySha256 sha (.object (storedFields (registryFields materials))) := by
    refine canonicalAuthoritySha256_congr sha ?_
    rw [canonical_registry_restored h, object_storedFields, Json.canonical_canonicalAuthorityJson]
    rfl
  rw [storedRegistry, authorityFields_of_canonical registered, ok_bind, known, ok_bind,
    hmaterials, ok_bind, htopics, ok_bind, hrequirements, storedRequirements, ok_bind, declared,
    ok_bind, policyMaterials_declaration (declared_restored h), ok_bind,
    throwWhen_of_not (not_not.mpr digest), ok_bind]

/-! ## Reading the scope -/

/-- The names of the reference have the form that its parser asks for. -/
def ExactRef (ref : WireExactGoalRef) : Prop :=
  isGoalId ref.goalId = true ∧ isGoalInstanceId ref.goalInstanceId = true

theorem exactRef_of_parse {value : Option Json} {label : String} {ref : WireExactGoalRef}
    (h : parseWireExactGoalRef value label = .ok ref) : ExactRef ref := by
  have parsed := parseWireExactGoalRef_eq_ok h
  unfold parseExactGoalRef at parsed
  split at parsed
  · split at parsed
    · split at parsed
      · rename_i goal
        split at parsed
        · cases parsed
        · split at parsed
          · rename_i goalInstance
            obtain rfl := Except.ok.inj parsed
            exact ⟨goal, goalInstance⟩
          · cases parsed
        · cases parsed
      · cases parsed
    · cases parsed
  · cases parsed

theorem parseWireExactGoalRef_stored {ref : WireExactGoalRef} (h : ExactRef ref)
    (label : String) :
    parseWireExactGoalRef (some (canonicalAuthorityJson ref.toJson)) label = .ok ref := by
  have nodup : (keys [("goal_id", Json.string ref.goalId),
      ("goal_instance_id", Json.string ref.goalInstanceId)]).Nodup := by
    simp [keys]
  have goal := Json.lookup_canonicalFields nodup "goal_id"
  have goalInstance := Json.lookup_canonicalFields nodup "goal_instance_id"
  simp only [List.lookup_cons, beq_self_eq_true, Option.map_some, canonicalAuthorityJson]
    at goal goalInstance
  rw [show ("goal_instance_id" == "goal_id") = false from rfl] at goalInstance
  rw [parseWireExactGoalRef, WireExactGoalRef.toJson, canonicalAuthorityJson_object,
    parseExactGoalRef]
  simp only [goal, goalInstance, h.1, h.2, if_true, Option.map_some, canonicalAuthorityJson]

theorem authorityDigest_congr (sha : Sha256) (goalRef : WireExactGoalRef) {v w : Json}
    (h : canonicalAuthorityJson v = canonicalAuthorityJson w) :
    authorityDigest sha goalRef v = authorityDigest sha goalRef w := by
  refine canonicalAuthoritySha256_congr sha ?_
  rw [canonicalAuthorityJson_object, canonicalAuthorityJson_object]
  simp only [List.map_cons, List.map_nil, h]

/-- The head holds the scope of the materials for the instance. -/
structure Scoped (isPrivate : String → Bool) (sha : Sha256) (head : Fields)
    (goalRef : WireExactGoalRef) (materials : List Material) (scope : DirectionScope) : Prop where
  stored : (head.lookup "goal_direction_scope").map canonicalAuthorityJson =
    some (canonicalAuthorityJson (scope.toJson goalRef))
  registered : Registered head materials
  declared : Declared isPrivate materials
  digest : scope.authorityDigest = authorityDigest sha goalRef (registryJson materials)
  generation : usageGeneration scope.usageGeneration = .ok scope.usageGeneration
  exact : ExactRef goalRef

theorem canonical_usageGeneration {value : Option Json}
    (h : usageGeneration value = .ok value) : value.map canonicalAuthorityJson = value := by
  unfold usageGeneration at h
  split at h
  · rfl
  · rfl
  · rfl
  · cases h

private def scopeFields (scope : DirectionScope) (goalRef : WireExactGoalRef) : Fields :=
  [("schema_version", .string SCOPE_SCHEMA), ("goal_ref", goalRef.toJson),
    ("enabled", .bool scope.enabled), ("authority_digest", .string scope.authorityDigest)] ++
    (scope.usageGeneration.map fun value => ("usage_generation", value)).toList

private theorem scope_reads (scope : DirectionScope) (goalRef : WireExactGoalRef)
    (h : usageGeneration scope.usageGeneration = .ok scope.usageGeneration) :
    directionKeys (storedFields (scopeFields scope goalRef))
      ["schema_version", "goal_ref", "enabled", "authority_digest"] ["usage_generation"] =
        .ok () ∧
    (storedFields (scopeFields scope goalRef)).lookup "usage_generation" =
      scope.usageGeneration ∧
    (storedFields (scopeFields scope goalRef)).lookup "schema_version" =
      some (.string SCOPE_SCHEMA) ∧
    (storedFields (scopeFields scope goalRef)).lookup "enabled" = some (.bool scope.enabled) ∧
    (storedFields (scopeFields scope goalRef)).lookup "goal_ref" =
      some (canonicalAuthorityJson goalRef.toJson) ∧
    (storedFields (scopeFields scope goalRef)).lookup "authority_digest" =
      some (.string scope.authorityDigest) := by
  have names : keys (scopeFields scope goalRef) =
      ["schema_version", "goal_ref", "enabled", "authority_digest"] ++
        (scope.usageGeneration.map fun _ => "usage_generation").toList := by
    cases hgen : scope.usageGeneration <;> simp [scopeFields, keys, hgen]
  have nodup : (keys (scopeFields scope goalRef)).Nodup := by
    rw [names]
    cases scope.usageGeneration <;> simp
  have known : directionKeys (storedFields (scopeFields scope goalRef))
      ["schema_version", "goal_ref", "enabled", "authority_digest"] ["usage_generation"] =
        .ok () := by
    refine directionKeys_stored nodup (directionKeys_eq_ok.2 ?_)
    rw [names]
    cases scope.usageGeneration <;> simp
  have reads : ∀ key, (storedFields (scopeFields scope goalRef)).lookup key =
      ((scopeFields scope goalRef).lookup key).map canonicalAuthorityJson :=
    fun key => Json.lookup_canonicalFields nodup key
  refine ⟨known, ?_, ?_, ?_, ?_, ?_⟩
  · rw [reads, ← canonical_usageGeneration h]
    cases hgen : scope.usageGeneration <;> simp [scopeFields, List.lookup_cons, hgen]
  all_goals
    rw [reads]
    simp [scopeFields, List.lookup_cons, canonicalAuthorityJson]

/-- Under the stored scope only its own instance is read, and read as it was written. -/
theorem scope_of_scoped {head : Fields} {sha : Sha256} {goalRef : WireExactGoalRef}
    {materials : List Material} {stored : DirectionScope}
    (h : Scoped isPrivate sha head goalRef materials stored) (requested : WireExactGoalRef) :
    scope isPrivate sha head requested =
      if goalRef = requested then .ok (some stored)
      else .error "direction belongs to a different Goal lifetime" := by
  obtain ⟨known, hgeneration, hschema, henabled, hgoal, hdigest⟩ :=
    scope_reads stored goalRef h.generation
  obtain ⟨value, hvalue⟩ : ∃ value, head.lookup "goal_direction_scope" = some value := by
    cases hlookup : head.lookup "goal_direction_scope" with
    | none => simpa [hlookup] using h.stored
    | some value => exact ⟨value, rfl⟩
  have fields : authorityFields (some value) "direction scope" =
      .ok (storedFields (scopeFields stored goalRef)) :=
    authorityFields_of_canonical (by rw [← hvalue]; exact h.stored) _
  have registry := storedRegistry_of_registered h.declared h.registered sha
  have digest : authorityDigest sha goalRef
      (.object (storedFields (registryFields materials))) = stored.authorityDigest := by
    rw [h.digest]
    refine authorityDigest_congr sha goalRef ?_
    rw [object_storedFields, Json.canonical_canonicalAuthorityJson, registryJson]
  simp only [scope, hvalue]
  rw [fields, ok_bind, known, ok_bind, hgeneration, h.generation, ok_bind, hschema,
    throwWhen_of_not (not_not.mpr rfl), ok_bind, henabled, enabledFlag, ok_bind, hgoal,
    parseWireExactGoalRef_stored h.exact, ok_bind]
  by_cases same : goalRef = requested
  · subst same
    rw [throwWhen_of_not (by simp), ok_bind, registry, ok_bind, digest, hdigest, if_pos rfl,
      throwWhen_of_not (not_not.mpr rfl), ok_bind]
  · rw [if_neg same, throwWhen, if_pos (by simpa using same)]
    rfl

end Loopx.Goals.Direction
