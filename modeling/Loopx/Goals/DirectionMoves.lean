/- GID: Loopx/Goals/DirectionMoves
   generality: I
   source: loopx/control_plane/goals/direction_authority.ts
   digest: What one committed operation does to the scope and the retained usage of a Goal. -/

import Loopx.Goals.Direction

set_option autoImplicit false
set_option relaxedAutoImplicit false

namespace Loopx.Goals.Direction

open Loopx.Lib.KeyedList
open Loopx.Lib.Fallible (bind_eq_ok ok_bind throwWhen throwWhen_eq_ok throwWhen_of_not)
open Loopx.Json (JsNumber Protocol byteLength canonicalAuthorityJson)
open Loopx.Authority (Sha256 canonicalAuthoritySha256)

/-- The rows stand in the strict order of their recorded instants. -/
def Increasing (dateParse : String → Option Int) (rows : List Receipt) : Prop :=
  rows.Pairwise fun a b => ∃ i j, dateParse a.recordedAt = some i ∧
    dateParse b.recordedAt = some j ∧ i < j

/-- The receipt was recorded after every one of the rows. -/
def Later (dateParse : String → Option Int) (rows : List Receipt) (receipt : Receipt) : Prop :=
  ∃ j, dateParse receipt.recordedAt = some j ∧
    ∀ row ∈ rows, ∀ i, dateParse row.recordedAt = some i → i < j

/-- What a head shows of the direction authority. -/
structure DirectionView where
  materials : List Material
  scope : DirectionScope
  rows : List Receipt

/-- The head is read as the view, by both readers. -/
structure Live (host : DirectionHost) (goalRef : WireExactGoalRef) (head : Fields)
    (view : DirectionView) : Prop where
  held : Scoped host.isPrivate host.sha head goalRef view.materials view.scope
  read : usage host.dateParse head goalRef = .ok view.rows
  increasing : Increasing host.dateParse view.rows
  object : (keys head).Nodup

variable {host : DirectionHost} {goalRef : WireExactGoalRef} {head : Fields}
  {view : DirectionView}

/-! ## Heads that are read alike -/

theorem Scoped.congr {left right : Fields} {materials : List Material} {stored : DirectionScope}
    (h : Scoped host.isPrivate host.sha left goalRef materials stored)
    (scopeKey : AgreeAt "goal_direction_scope" left right)
    (registry : AgreeAt "authority_registry" left right) :
    Scoped host.isPrivate host.sha right goalRef materials stored where
  stored := scopeKey ▸ h.stored
  registered := by
    rw [Registered, ← registry]
    exact h.registered
  declared := h.declared
  digest := h.digest
  generation := h.generation
  exact := h.exact

theorem Live.congr {right : Fields} (h : Live host goalRef head view)
    (scopeKey : AgreeAt "goal_direction_scope" head right)
    (registry : AgreeAt "authority_registry" head right)
    (receipts : AgreeAt "material_usage_receipts" head right) (object : (keys right).Nodup) :
    Live host goalRef right view :=
  ⟨h.held.congr scopeKey registry, usage_of_agree receipts h.read, h.increasing, object⟩

/-- The store keeps what a projection shows. -/
theorem Live.stored (h : Live host goalRef head view) :
    Live host goalRef (storedFields head) view :=
  h.congr (agreeAt_stored h.object _).symm (agreeAt_stored h.object _).symm
    (agreeAt_stored h.object _).symm (nodup_keys_of_pairwise (Json.pairwise_canonicalEntries _))

theorem Live.scope_eq (h : Live host goalRef head view) (requested : WireExactGoalRef) :
    scope host.isPrivate host.sha head requested =
      if goalRef = requested then .ok (some view.scope)
      else .error "direction belongs to a different Goal lifetime" :=
  scope_of_scoped h.held requested

/-- A head that reads for an instance is the head of that instance. -/
theorem Live.scope_eq_ok (h : Live host goalRef head view) {requested : WireExactGoalRef}
    {stored : Option DirectionScope}
    (hscope : scope host.isPrivate host.sha head requested = .ok stored) :
    requested = goalRef ∧ stored = some view.scope := by
  rw [h.scope_eq] at hscope
  split at hscope
  · rename_i same
    exact ⟨same.symm, (Except.ok.inj hscope).symm⟩
  · cases hscope

/-! ## The material of a read -/

/-- The scope is enabled, its digest is the offer's, and the material stands at the offer's
revision. -/
structure RegisteredIn (view : DirectionView) (offer : Offer) : Prop where
  enabled : view.scope.enabled = true
  digest : view.scope.authorityDigest = offer.authorityDigest
  material : ∃ material ∈ view.materials, material.id = offer.materialId ∧
    material.revision = offer.requiredRevision ∧
    material.sourceRefSha256 = offer.sourceRefSha256

private theorem stringField_eq_ok {value : Option Json} {error s : String}
    (h : stringField value error = .ok s) : value = some (.string s) := by
  unfold stringField at h
  split at h
  · rw [Except.ok.inj h]
  · cases h

private theorem registered_of_lookup {materials : List Material}
    (nodup : (materials.map (·.id)).Nodup) {id : String} {item : Fields} {name : String}
    (h : authorityFields ((storedFields (materials.map fun m => (m.id, m.toJson))).lookup id)
      name = .ok item) : ∃ material ∈ materials, material.id = id := by
  have distinct : (keys (materials.map fun m => (m.id, m.toJson))).Nodup := by
    simpa [keys, Function.comp_def] using nodup
  obtain ⟨raw, hraw, _⟩ := authorityFields_eq_ok.mp h
  rw [storedFields, Json.lookup_canonicalFields distinct] at hraw
  obtain ⟨value, hvalue, _⟩ := Option.map_eq_some_iff.mp hraw
  obtain ⟨material, hm, same⟩ := List.mem_map.mp (mem_of_lookup hvalue)
  exact ⟨material, hm, congrArg Prod.fst same⟩

/-- A read is admitted on the registered revision of a material under the current digest. -/
theorem currentMaterial_eq_ok (live : Live host goalRef head view)
    {requested : WireExactGoalRef} {request : Fields} {basis : MaterialBasis}
    (h : currentMaterial host head requested request = .ok basis) :
    requested = goalRef ∧ view.scope.enabled = true ∧
      basis.authorityDigest = view.scope.authorityDigest ∧
      request.lookup "authority_digest" = some (.string basis.authorityDigest) ∧
      request.lookup "material_id" = some (.string basis.materialId) ∧
      request.lookup "required_revision" = some (.string basis.revision) ∧
      request.lookup "source_ref_sha256" = some (.string basis.sourceRefSha256) ∧
      ∃ material ∈ view.materials, material.id = basis.materialId ∧
        material.revision = basis.revision ∧
        material.sourceRefSha256 = basis.sourceRefSha256 := by
  obtain ⟨stored, hstored, h⟩ := bind_eq_ok.mp h
  obtain ⟨configured, hconfigured, h⟩ := bind_eq_ok.mp h
  obtain ⟨_, hdigest, h⟩ := bind_eq_ok.mp h
  obtain ⟨registry, hregistry, h⟩ := bind_eq_ok.mp h
  obtain ⟨materials, hmaterials, h⟩ := bind_eq_ok.mp h
  obtain ⟨id, hid, h⟩ := bind_eq_ok.mp h
  obtain ⟨item, hitem, h⟩ := bind_eq_ok.mp h
  obtain ⟨revision, hrevision, h⟩ := bind_eq_ok.mp h
  obtain ⟨source, hsource, h⟩ := bind_eq_ok.mp h
  obtain ⟨_, hsame, h⟩ := bind_eq_ok.mp h
  obtain ⟨_, _, h⟩ := bind_eq_ok.mp h
  obtain rfl := Except.ok.inj h
  obtain ⟨rfl, rfl⟩ := live.scope_eq_ok hstored
  have enabled : view.scope.enabled = true ∧ configured = view.scope := by
    rw [enabledScope] at hconfigured
    split at hconfigured
    · rename_i on
      exact ⟨on, (Except.ok.inj hconfigured).symm⟩
    · cases hconfigured
  obtain ⟨on, rfl⟩ := enabled
  obtain ⟨sameRevision, sameSource⟩ := not_or.mp (throwWhen_eq_ok.mp hsame)
  rw [authorityFields_of_canonical live.held.registered] at hregistry
  obtain rfl := Except.ok.inj hregistry
  have stored : authorityFields
      ((storedFields (registryFields view.materials)).lookup "project_materials") "materials" =
        .ok (storedFields (view.materials.map fun m => (m.id, m.toJson))) := by
    rw [lookup_registry, authorityFields_canonical]
    exact authorityFields_object _ _
  rw [stored] at hmaterials
  obtain rfl := Except.ok.inj hmaterials
  obtain ⟨material, hm, rfl⟩ := registered_of_lookup live.held.declared.nodup hitem
  rw [authorityFields_storedMaterial live.held.declared.nodup hm] at hitem
  obtain rfl := Except.ok.inj hitem
  obtain ⟨_, heldSource, heldRevision⟩ :=
    material_reads material (live.held.declared.each material hm).canonical
  have atRevision : material.revision = revision := by
    simpa using heldRevision.symm.trans (stringField_eq_ok hrevision)
  have atSource : material.sourceRefSha256 = source := by
    simpa using heldSource.symm.trans (stringField_eq_ok hsource)
  exact ⟨rfl, on, rfl, not_not.mp (throwWhen_eq_ok.mp hdigest), (token_eq_ok.mp hid).1,
    not_not.mp sameRevision, not_not.mp sameSource, material, hm, rfl, atRevision, atSource⟩

theorem offer_reads (offer : Offer) :
    offer.fields.lookup "authority_digest" = some (.string offer.authorityDigest) ∧
    offer.fields.lookup "material_id" = some (.string offer.materialId) ∧
    offer.fields.lookup "required_revision" = some (.string offer.requiredRevision) ∧
    offer.fields.lookup "source_ref_sha256" = some (.string offer.sourceRefSha256) := by
  refine ⟨?_, ?_, ?_, ?_⟩ <;> simp [Offer.fields, List.lookup_cons]

/-- The material of an offer is still registered as the offer says. -/
theorem registeredIn_of_currentMaterial (live : Live host goalRef head view)
    {requested : WireExactGoalRef} {offer : Offer} {basis : MaterialBasis}
    (h : currentMaterial host head requested offer.fields = .ok basis) :
    RegisteredIn view offer := by
  obtain ⟨_, enabled, digest, askedDigest, askedId, askedRevision, askedSource, material, hm,
    sameId, sameRevision, sameSource⟩ := currentMaterial_eq_ok live h
  obtain ⟨offeredDigest, offeredId, offeredRevision, offeredSource⟩ := offer_reads offer
  rw [askedDigest, Option.some.injEq, Json.string.injEq] at offeredDigest
  rw [askedId, Option.some.injEq, Json.string.injEq] at offeredId
  rw [askedRevision, Option.some.injEq, Json.string.injEq] at offeredRevision
  rw [askedSource, Option.some.injEq, Json.string.injEq] at offeredSource
  exact ⟨enabled, digest.symm.trans offeredDigest, material, hm, sameId.trans offeredId,
    sameRevision.trans offeredRevision, sameSource.trans offeredSource⟩

/-! ## The instant of a record -/

variable {dateParse : String → Option Int} {rows rows' : List Receipt} {receipt : Receipt}
  {displaced : Option Receipt}

theorem lt_recordingInstant {now : String} {instant : Int}
    (h : recordingInstant dateParse rows now = some instant) :
    ∀ row ∈ rows, ∀ i, dateParse row.recordedAt = some i → i < instant := by
  intro row hrow i hi
  obtain ⟨milliseconds, _, rfl⟩ := Option.map_eq_some_iff.mp h
  have member : i ∈ rows.filterMap fun row => dateParse row.recordedAt :=
    List.mem_filterMap.mpr ⟨row, hrow, hi⟩
  cases latest : latestRecorded dateParse rows with
  | none =>
    rw [latestRecorded, List.max?_eq_none_iff] at latest
    rw [latest] at member
    cases member
  | some prior =>
    have le : i ≤ prior := (List.max?_eq_some_iff.mp latest).2 i member
    simp only
    omega

/-- `Date.parse` reads back the instants that the head can record. -/
def ReadsBack (dateParse : String → Option Int) (rows : List Receipt) : Prop :=
  ∀ now instant text, recordingInstant dateParse rows now = some instant →
    toISOString instant = some text → dateParse text = some instant

theorem later_of_usageRecordedAt (reads : ReadsBack dateParse rows) {now : String}
    (h : usageRecordedAt dateParse rows now = .ok receipt.recordedAt) :
    Later dateParse rows receipt := by
  unfold usageRecordedAt at h
  split at h
  · rename_i text htext
    split at h
    · obtain ⟨instant, hinstant, written⟩ := Option.bind_eq_some_iff.mp htext
      have parsed := reads now instant text hinstant written
      rw [Except.ok.inj h] at parsed
      exact ⟨instant, parsed, lt_recordingInstant hinstant⟩
    · cases h
  · cases h

private theorem later_subset {rows : List Receipt} (h : Later dateParse rows receipt)
    {part : List Receipt} (sub : part ⊆ rows) : Later dateParse part receipt := by
  obtain ⟨j, hj, before⟩ := h
  exact ⟨j, hj, fun row hrow => before row (sub hrow)⟩

private theorem increasing_snoc (increasing : Increasing dateParse rows)
    (parses : ∀ row ∈ rows, (dateParse row.recordedAt).isSome = true)
    (later : Later dateParse rows receipt) : Increasing dateParse (rows ++ [receipt]) := by
  obtain ⟨j, hj, before⟩ := later
  refine List.pairwise_append.mpr ⟨increasing, List.pairwise_singleton _ _, ?_⟩
  intro row hrow last hlast
  rw [List.mem_singleton.mp hlast]
  obtain ⟨i, hi⟩ := Option.isSome_iff_exists.mp (parses row hrow)
  exact ⟨i, j, hi, hj, before row hrow i hi⟩

/-- A record in its turn keeps the order of the instants. -/
theorem Retained.increasing (h : Retained rows receipt displaced rows')
    (increasing : Increasing dateParse rows)
    (parses : ∀ row ∈ rows, (dateParse row.recordedAt).isSome = true)
    (later : Later dateParse rows receipt) : Increasing dateParse rows' := by
  cases h with
  | appended _ => exact increasing_snoc increasing parses later
  | @displaced front back oldest split pair first =>
    subst split
    have part : List.Sublist (front ++ back) (front ++ oldest :: back) :=
      (List.Sublist.refl front).append (List.sublist_cons_self oldest back)
    exact increasing_snoc (increasing.sublist part) (fun row hrow => parses row (part.subset hrow))
      (later_subset later part.subset)

theorem parses_of_usage (h : usage dateParse head goalRef = .ok rows) :
    ∀ row ∈ rows, (dateParse row.recordedAt).isSome = true := by
  obtain ⟨items, _, read, _⟩ := usage_eq_ok.mp h
  intro row hrow
  obtain ⟨i, hi, rfl⟩ := List.mem_iff_getElem.mp hrow
  exact isSome_of_readReceipt
    (read.get (by rw [read.length_eq]; exact hi) hi)

/-! ## What an operation performs -/

/-- One more record of the rows, and the generation that an archived one costs. -/
structure Recorded (host : DirectionHost) (view view' : DirectionView) (receipt : Receipt)
    (displaced : Option Receipt) : Prop where
  retained : Retained view.rows receipt displaced view'.rows
  later : Later host.dateParse view.rows receipt
  generation : view'.scope.generation = view.scope.generation + displaced.toList.length
  materials : view'.materials = view.materials

/-- Whether the offer's fence is the one that the rows give. -/
def Stands (host : DirectionHost) (goalRef : WireExactGoalRef) (view : DirectionView)
    (offer : Offer) : Prop :=
  match offer.usageBasisSha256 with
  | none => view.scope.generation = 0 ∧
      (pairRows view.rows offer.agentId offer.materialId).length = offer.usageCount
  | some basis =>
    basis = usageBasis host.sha goalRef view.rows offer.agentId offer.materialId

/-- What a committed operation makes of a view, with the result it leaves. -/
inductive Performs (host : DirectionHost) (goalRef : WireExactGoalRef) (request : DirectionRequest)
    (operationId : String) (journal : List (String × JournalEntry)) (view : DirectionView) :
    DirectionResult → DirectionView → Prop
  | configured {materials : List Material} {scope : DirectionScope} {changed : Bool}
      {digest : String} (generation : scope.generation = view.scope.generation) :
      Performs host goalRef request operationId journal view (.configured goalRef changed digest)
        ⟨materials, scope, view.rows⟩
  | disabled {scope : DirectionScope} {changed : Bool} {digest : String}
      (generation : scope.generation = view.scope.generation) :
      Performs host goalRef request operationId journal view (.disabled goalRef changed digest)
        ⟨view.materials, scope, view.rows⟩
  | offered {offer : Offer} {agentId digest : String} (own : offer.goalRef = goalRef)
      (named : offer.readOperationId = operationId) (registered : RegisteredIn view offer)
      (fence : offer.usageBasisSha256 =
        some (usageBasis host.sha goalRef view.rows offer.agentId offer.materialId))
      (count : offer.usageCount = (pairRows view.rows offer.agentId offer.materialId).length) :
      Performs host goalRef request operationId journal view
        (.offered goalRef agentId offer digest) view
  | unavailable {view' : DirectionView} {receipt : Receipt} {displaced : Option Receipt}
      {archived : Option Json} (recorded : Recorded host view view' receipt displaced)
      (unread : receipt.observedRevision = none) :
      Performs host goalRef request operationId journal view
        (.unavailable goalRef receipt.agentId receipt archived) view'
  | repeated {offer : Offer} {existing : Receipt} {agentId digest : String}
      {offeredRef : WireExactGoalRef}
      (asked : request.fields.lookup "read_operation_id" = some (.string offer.readOperationId))
      (original : journal.lookup offer.readOperationId =
        some (.direction (.offered offeredRef agentId offer digest)))
      (registered : RegisteredIn view offer) (held : existing ∈ view.rows)
      (identity : existing.receiptId =
        readReceiptId host goalRef offer.agentId offer.readOperationId) :
      Performs host goalRef request operationId journal view
        (.acknowledged goalRef offer.agentId false existing none) view
  | recorded {offer : Offer} {view' : DirectionView} {receipt : Receipt}
      {displaced : Option Receipt} {archived : Option Json} {agentId digest : String}
      {offeredRef : WireExactGoalRef}
      (asked : request.fields.lookup "read_operation_id" = some (.string offer.readOperationId))
      (original : journal.lookup offer.readOperationId =
        some (.direction (.offered offeredRef agentId offer digest)))
      (registered : RegisteredIn view offer) (stands : Stands host goalRef view offer)
      (pair : receipt.agentId = offer.agentId ∧ receipt.materialId = offer.materialId)
      (revision : receipt.observedRevision = some offer.requiredRevision)
      (recorded : Recorded host view view' receipt displaced) :
      Performs host goalRef request operationId journal view
        (.acknowledged goalRef offer.agentId true receipt archived) view'

/-! ## Each operation performs its result -/

theorem generation_of_eq {scope scope' : DirectionScope}
    (h : scope'.usageGeneration = scope.usageGeneration) :
    scope'.generation = scope.generation := by
  rw [DirectionScope.generation, DirectionScope.generation, h]

private theorem usageGeneration_ofNat {generation : Nat}
    (safe : generation ≤ JsNumber.maxSafeInteger) :
    usageGeneration (some (.number (JsNumber.ofNat generation))) =
      .ok (some (.number (JsNumber.ofNat generation))) := by
  rw [usageGeneration]
  simp [JsNumber.safeInteger?_ofNat safe]

private theorem nextGeneration_eq_ok {scope : DirectionScope} {generation : Nat}
    (h : nextGeneration scope = .ok generation) :
    generation = scope.generation + 1 ∧ generation ≤ JsNumber.maxSafeInteger := by
  unfold nextGeneration at h
  split at h
  · rename_i safe
    rw [← Except.ok.inj h]
    exact ⟨rfl, safe⟩
  · cases h

private theorem generation_advanced {scope : DirectionScope} {generation : Nat}
    (safe : generation ≤ JsNumber.maxSafeInteger) :
    (scope.advanced generation).generation = generation := by
  simp [DirectionScope.advanced, DirectionScope.generation, JsNumber.safeInteger?_ofNat safe]

/-- A declaration leaves its own scope over the rows that were there. -/
theorem live_declared {next : Fields} {materials : List Material} {scope : DirectionScope}
    (object : (keys next).Nodup) (declared : Declared host.isPrivate materials)
    (exact : ExactRef goalRef)
    (registry : next.lookup "authority_registry" = some (registryJson materials))
    (stored : next.lookup "goal_direction_scope" = some (scope.toJson goalRef))
    (digest : scope.authorityDigest = authorityDigest host.sha goalRef (registryJson materials))
    (generation : usageGeneration scope.usageGeneration = .ok scope.usageGeneration)
    (read : usage host.dateParse next goalRef = .ok rows)
    (increasing : Increasing host.dateParse rows) :
    Live host goalRef next ⟨materials, scope, rows⟩ where
  held := {
    stored := by rw [stored, Option.map_some]
    registered := by rw [Registered, registry, Option.map_some]
    declared := declared
    digest := digest
    generation := generation
    exact := exact }
  read := read
  increasing := increasing
  object := object

/-- A scope of the same digest may replace the stored one. -/
theorem Live.rescoped (live : Live host goalRef head view) {next : Fields}
    {scope : DirectionScope} (object : (keys next).Nodup)
    (registry : next.lookup "authority_registry" = head.lookup "authority_registry")
    (stored : next.lookup "goal_direction_scope" = some (scope.toJson goalRef))
    (digest : scope.authorityDigest = view.scope.authorityDigest)
    (generation : usageGeneration scope.usageGeneration = .ok scope.usageGeneration)
    (read : usage host.dateParse next goalRef = .ok rows)
    (increasing : Increasing host.dateParse rows) :
    Live host goalRef next ⟨view.materials, scope, rows⟩ where
  held := {
    stored := by rw [stored, Option.map_some]
    registered := by
      rw [Registered, registry]
      exact live.held.registered
    declared := live.held.declared
    digest := digest.trans live.held.digest
    generation := generation
    exact := live.held.exact }
  read := read
  increasing := increasing
  object := object

/-- What a configuration writes, over any head that it accepts. -/
theorem configure_eq_ok {request : DirectionRequest} {revision : String} {next : Fields}
    {result : DirectionResult} (h : configure host request head revision = .ok (next, result)) :
    ∃ prior materials rows digest changed,
      scope host.isPrivate host.sha head request.goalRef = .ok prior ∧
      policyMaterials host.isPrivate (request.fields.lookup "materials") = .ok materials ∧
      usage host.dateParse head request.goalRef = .ok rows ∧
      digest = authorityDigest host.sha request.goalRef (registryJson materials) ∧
      next = setKey (setKey head "authority_registry" (registryJson materials))
        "goal_direction_scope"
        ((DirectionScope.mk true digest (prior.bind (·.usageGeneration))).toJson
          request.goalRef) ∧
      result = .configured request.goalRef changed digest := by
  obtain ⟨_, _, h⟩ := bind_eq_ok.mp h
  obtain ⟨prior, hprior, h⟩ := bind_eq_ok.mp h
  obtain ⟨_, _, h⟩ := bind_eq_ok.mp h
  obtain ⟨materials, hmaterials, h⟩ := bind_eq_ok.mp h
  obtain ⟨_, _, h⟩ := bind_eq_ok.mp h
  obtain ⟨rows, hrows, h⟩ := bind_eq_ok.mp h
  obtain ⟨_, _, h⟩ := bind_eq_ok.mp h
  obtain ⟨_, _, h⟩ := bind_eq_ok.mp h
  obtain ⟨rfl, rfl⟩ := Prod.mk.inj (Except.ok.inj h)
  exact ⟨prior, materials, rows, _, _, hprior, hmaterials, hrows, rfl, rfl, rfl⟩

private theorem configured_reads (head : Fields) (scope registry : Json) :
    (setKey (setKey head "authority_registry" registry) "goal_direction_scope" scope).lookup
        "authority_registry" = some registry ∧
      (setKey (setKey head "authority_registry" registry) "goal_direction_scope" scope).lookup
        "goal_direction_scope" = some scope ∧
      AgreeAt "material_usage_receipts" head
        (setKey (setKey head "authority_registry" registry) "goal_direction_scope" scope) := by
  refine ⟨?_, ?_, agreeAt_of_lookup ?_⟩
  · rw [lookup_setKey, if_neg (by decide), lookup_setKey, if_pos rfl]
  · rw [lookup_setKey, if_pos rfl]
  · rw [lookup_setKey, if_neg (by decide), lookup_setKey, if_neg (by decide)]

private theorem configure_performs (live : Live host goalRef head view)
    {request : DirectionRequest} {revision operationId : String} {next : Fields}
    {result : DirectionResult} {journal : List (String × JournalEntry)}
    (h : configure host request head revision = .ok (next, result)) :
    request.goalRef = goalRef ∧ ∃ view', Live host goalRef next view' ∧
      Performs host goalRef request operationId journal view result view' := by
  obtain ⟨prior, materials, rows, digest, changed, hprior, hmaterials, hrows, hdigest, rfl, rfl⟩ :=
    configure_eq_ok h
  obtain ⟨same, rfl⟩ := live.scope_eq_ok hprior
  rw [same] at hrows hdigest ⊢
  obtain rfl := Except.ok.inj (live.read.symm.trans hrows)
  obtain ⟨registry, stored, receipts⟩ := configured_reads head
    ((DirectionScope.mk true digest view.scope.usageGeneration).toJson goalRef)
    (registryJson materials)
  refine ⟨rfl, _, live_declared ?_ (declared_of_policyMaterials hmaterials) live.held.exact
    registry stored hdigest live.held.generation (usage_of_agree receipts live.read)
    live.increasing, Performs.configured (generation_of_eq rfl)⟩
  exact nodup_keys_setKey (nodup_keys_setKey live.object _ _) _ _

private theorem disable_performs (live : Live host goalRef head view)
    {request : DirectionRequest} {revision operationId : String} {next : Fields}
    {result : DirectionResult} {journal : List (String × JournalEntry)}
    (h : disable host request head revision = .ok (next, result)) :
    request.goalRef = goalRef ∧ ∃ view', Live host goalRef next view' ∧
      Performs host goalRef request operationId journal view result view' := by
  obtain ⟨_, _, h⟩ := bind_eq_ok.mp h
  obtain ⟨stored, hstored, h⟩ := bind_eq_ok.mp h
  obtain ⟨prior, hprior, h⟩ := bind_eq_ok.mp h
  obtain ⟨rfl, rfl⟩ := Prod.mk.inj (Except.ok.inj h)
  obtain ⟨same, rfl⟩ := live.scope_eq_ok hstored
  obtain rfl := Except.ok.inj hprior
  rw [same]
  have others : ∀ key, key ≠ "goal_direction_scope" → (setKey head "goal_direction_scope"
      (view.scope.disabled.toJson goalRef)).lookup key = head.lookup key := by
    intro key other
    rw [lookup_setKey, if_neg other]
  have stored : (setKey head "goal_direction_scope"
      (view.scope.disabled.toJson goalRef)).lookup "goal_direction_scope" =
        some (view.scope.disabled.toJson goalRef) := by
    rw [lookup_setKey, if_pos rfl]
  have receipts := usage_of_agree
    (agreeAt_of_lookup (others "material_usage_receipts" (by decide)).symm) live.read
  exact ⟨rfl, _, live.rescoped (nodup_keys_setKey live.object _ _) (others _ (by decide)) stored rfl
    live.held.generation receipts live.increasing, Performs.disabled (generation_of_eq rfl)⟩

/-- A head that retained one more record is live again. -/
theorem RetainedHead.live (live : Live host goalRef head view) {next : Fields}
    (retained : RetainedHead host.dateParse host.isPrivate host.sha goalRef head next receipt
      displaced rows rows') (accepted : usage host.dateParse next goalRef = .ok rows')
    (later : Later host.dateParse view.rows receipt) :
    ∃ view', Live host goalRef next view' ∧ view'.rows = rows' ∧
      Recorded host view view' receipt displaced := by
  obtain rfl := Except.ok.inj (live.read.symm.trans retained.read)
  have increasing := retained.retained.increasing live.increasing (parses_of_usage live.read)
    later
  have registry : next.lookup "authority_registry" = head.lookup "authority_registry" :=
    retained.others _ (by decide) (by decide)
  have stored := retained.scope
  cases displaced with
  | none =>
    have held := live.held.congr (agreeAt_of_lookup stored.symm) (agreeAt_of_lookup registry.symm)
    exact ⟨⟨view.materials, view.scope, rows'⟩, ⟨held, accepted, increasing,
      retained.nodup live.object⟩, rfl, retained.retained, later, rfl, rfl⟩
  | some oldest =>
    obtain ⟨configured, generation, hscope, hgeneration, stored⟩ := stored
    obtain ⟨_, same⟩ := live.scope_eq_ok hscope
    obtain rfl := Option.some.inj same
    obtain ⟨advanced, safe⟩ := nextGeneration_eq_ok hgeneration
    refine ⟨⟨view.materials, view.scope.advanced generation, rows'⟩,
      live.rescoped (retained.nodup live.object) registry stored rfl (usageGeneration_ofNat safe)
        accepted increasing, rfl, retained.retained, later, ?_, rfl⟩
    exact (generation_advanced safe).trans advanced

private theorem currentMaterial_offered (live : Live host goalRef head view)
    {requested : WireExactGoalRef} {request : Fields} {basis : MaterialBasis} {offer : Offer}
    (h : currentMaterial host head requested request = .ok basis)
    (digest : offer.authorityDigest = basis.authorityDigest)
    (id : offer.materialId = basis.materialId) (revision : offer.requiredRevision = basis.revision)
    (source : offer.sourceRefSha256 = basis.sourceRefSha256) :
    requested = goalRef ∧ RegisteredIn view offer := by
  obtain ⟨same, enabled, sameDigest, _, _, _, _, material, hm, sameId, sameRevision, sameSource⟩ :=
    currentMaterial_eq_ok live h
  exact ⟨same, enabled, (digest.trans sameDigest).symm, material, hm, sameId.trans id.symm,
    sameRevision.trans revision.symm, sameSource.trans source.symm⟩

private theorem offerAvailable_performs (live : Live host goalRef head view)
    {request : DirectionRequest} {agent operationId : String} {basis : MaterialBasis}
    {observation next : Fields} {result : DirectionResult}
    (journal : List (String × JournalEntry))
    (hbasis : currentMaterial host head request.goalRef request.fields = .ok basis)
    (h : offerAvailable host request head agent operationId basis observation =
      .ok (next, result)) :
    request.goalRef = goalRef ∧ next = head ∧
      Performs host goalRef request operationId journal view result view := by
  obtain ⟨_, _, h⟩ := bind_eq_ok.mp h
  obtain ⟨_, _, h⟩ := bind_eq_ok.mp h
  obtain ⟨content, _, h⟩ := bind_eq_ok.mp h
  obtain ⟨_, _, h⟩ := bind_eq_ok.mp h
  obtain ⟨bytes, _, h⟩ := bind_eq_ok.mp h
  obtain ⟨rows, hrows, h⟩ := bind_eq_ok.mp h
  obtain ⟨rfl, rfl⟩ := Prod.mk.inj (Except.ok.inj h)
  have same : request.goalRef = goalRef := (currentMaterial_eq_ok live hbasis).1
  rw [same] at hrows ⊢
  obtain rfl := Except.ok.inj (live.read.symm.trans hrows)
  refine ⟨rfl, rfl, ?_⟩
  apply Performs.offered
  · rfl
  · rfl
  · exact (currentMaterial_offered live hbasis rfl rfl rfl rfl).2
  · rfl
  · rfl

private theorem offerUnavailable_performs (live : Live host goalRef head view)
    (reads : ReadsBack host.dateParse view.rows) {request : DirectionRequest}
    {agent operationId : String} {basis : MaterialBasis} {observation next : Fields}
    {result : DirectionResult} {journal : List (String × JournalEntry)}
    (hbasis : currentMaterial host head request.goalRef request.fields = .ok basis)
    (h : offerUnavailable host request head agent operationId basis observation =
      .ok (next, result))
    (accepted : usage host.dateParse next request.goalRef = .ok rows') :
    request.goalRef = goalRef ∧ ∃ view', Live host goalRef next view' ∧
      Performs host goalRef request operationId journal view result view' := by
  obtain ⟨_, _, h⟩ := bind_eq_ok.mp h
  obtain ⟨rows, hrows, h⟩ := bind_eq_ok.mp h
  obtain ⟨recorded, hrecorded, h⟩ := bind_eq_ok.mp h
  obtain ⟨retained, hretained, h⟩ := bind_eq_ok.mp h
  obtain ⟨rfl, rfl⟩ := Prod.mk.inj (Except.ok.inj h)
  have same : request.goalRef = goalRef := (currentMaterial_eq_ok live hbasis).1
  rw [same] at hrows hretained accepted ⊢
  obtain rfl := Except.ok.inj (live.read.symm.trans hrows)
  obtain ⟨displaced, rows, written, _⟩ := retainUsage_eq_ok hretained accepted
  obtain ⟨view', live', _, recorded⟩ :=
    written.live live accepted (later_of_usageRecordedAt reads hrecorded)
  exact ⟨rfl, view', live', Performs.unavailable recorded rfl⟩

private theorem offerRead_performs (live : Live host goalRef head view)
    (reads : ReadsBack host.dateParse view.rows) {request : DirectionRequest}
    {operationId : String} {next : Fields} {result : DirectionResult}
    {journal : List (String × JournalEntry)}
    (h : offerRead host request head operationId = .ok (next, result))
    (accepted : usage host.dateParse next request.goalRef = .ok rows') :
    request.goalRef = goalRef ∧ ∃ view', Live host goalRef next view' ∧
      Performs host goalRef request operationId journal view result view' := by
  obtain ⟨agent, _, h⟩ := bind_eq_ok.mp h
  obtain ⟨basis, hbasis, h⟩ := bind_eq_ok.mp h
  obtain ⟨observation, _, h⟩ := bind_eq_ok.mp h
  split at h
  · exact offerUnavailable_performs live reads hbasis h accepted
  · obtain ⟨same, rfl, performs⟩ := offerAvailable_performs live journal hbasis h
    exact ⟨same, view, live, performs⟩

private theorem originalOffer_eq_ok {journal : List (String × JournalEntry)} {readId digest : String}
    {offer : Offer} (h : originalOffer journal readId = .ok (offer, digest)) :
    ∃ offeredRef agentId, journal.lookup readId =
      some (.direction (.offered offeredRef agentId offer digest)) := by
  unfold originalOffer at h
  split at h
  · rename_i offeredRef agentId offer' digest' hlookup
    obtain ⟨rfl, rfl⟩ := Prod.mk.inj (Except.ok.inj h)
    exact ⟨offeredRef, agentId, hlookup⟩
  · cases h
  · cases h

private theorem stands_of_offerStands (live : Live host goalRef head view) {offer : Offer}
    {stands : Bool} (h : offerStands host head goalRef view.rows offer = .ok stands)
    (accepted : stands = true) : Stands host goalRef view offer := by
  rw [offerStands] at h
  rw [Stands]
  cases fence : offer.usageBasisSha256 with
  | none =>
    rw [fence] at h
    obtain ⟨stored, hstored, h⟩ := bind_eq_ok.mp h
    obtain ⟨_, rfl⟩ := live.scope_eq_ok hstored
    rw [accepted, Except.ok.injEq, Bool.and_eq_true, decide_eq_true_eq, decide_eq_true_eq] at h
    exact h
  | some basis =>
    rw [fence] at h
    obtain ⟨checked, hchecked, h⟩ := bind_eq_ok.mp h
    have same : basis = checked := by
      unfold hash at hchecked
      simp only at hchecked
      split at hchecked
      · exact Except.ok.inj hchecked
      · cases hchecked
    rw [accepted, Except.ok.injEq, decide_eq_true_eq, ← same] at h
    exact h

private theorem recordRead_performs (live : Live host goalRef head view)
    (reads : ReadsBack host.dateParse view.rows) {request : DirectionRequest} {offer : Offer}
    {receiptId digest operationId agentId : String} {next : Fields} {result : DirectionResult}
    {offeredRef : WireExactGoalRef} {journal : List (String × JournalEntry)}
    (same : request.goalRef = goalRef)
    (asked : request.fields.lookup "read_operation_id" = some (.string offer.readOperationId))
    (original : journal.lookup offer.readOperationId =
      some (.direction (.offered offeredRef agentId offer digest)))
    (registered : RegisteredIn view offer)
    (h : recordRead host request head offer receiptId digest view.rows = .ok (next, result))
    (accepted : usage host.dateParse next goalRef = .ok rows') :
    ∃ view', Live host goalRef next view' ∧
      Performs host goalRef request operationId journal view result view' := by
  rw [recordRead, same] at h
  obtain ⟨stands, hstands, h⟩ := bind_eq_ok.mp h
  obtain ⟨_, hholds, h⟩ := bind_eq_ok.mp h
  obtain ⟨recorded, hrecorded, h⟩ := bind_eq_ok.mp h
  obtain ⟨retained, hretained, h⟩ := bind_eq_ok.mp h
  obtain ⟨rfl, rfl⟩ := Prod.mk.inj (Except.ok.inj h)
  have holds : stands = true := by simpa using throwWhen_eq_ok.mp hholds
  obtain ⟨displaced, rows, written, _⟩ := retainUsage_eq_ok hretained accepted
  obtain ⟨view', live', _, recorded⟩ :=
    written.live live accepted (later_of_usageRecordedAt reads hrecorded)
  exact ⟨view', live', Performs.recorded asked original registered
    (stands_of_offerStands live hstands holds) ⟨rfl, rfl⟩ rfl recorded⟩

private theorem acknowledge_performs {state : DirectionState}
    (live : Live host goalRef state.head view) (reads : ReadsBack host.dateParse view.rows) {request : DirectionRequest}
    {operationId : String} {next : Fields} {result : DirectionResult}
    (h : acknowledge host request state = .ok (next, result))
    (accepted : usage host.dateParse next request.goalRef = .ok rows') :
    request.goalRef = goalRef ∧ ∃ view', Live host goalRef next view' ∧
      Performs host goalRef request operationId state.journal view result view' := by
  obtain ⟨agent, _, h⟩ := bind_eq_ok.mp h
  obtain ⟨readId, hreadId, h⟩ := bind_eq_ok.mp h
  obtain ⟨⟨offer, digest⟩, horiginal, h⟩ := bind_eq_ok.mp h
  obtain ⟨_, hown, h⟩ := bind_eq_ok.mp h
  obtain ⟨delivered, _, h⟩ := bind_eq_ok.mp h
  obtain ⟨_, _, h⟩ := bind_eq_ok.mp h
  obtain ⟨basis, hbasis, h⟩ := bind_eq_ok.mp h
  obtain ⟨rows, hrows, h⟩ := bind_eq_ok.mp h
  obtain ⟨_, rfl, rfl⟩ := not_not.mp (throwWhen_eq_ok.mp hown)
  obtain ⟨offeredRef, agentId, original⟩ := originalOffer_eq_ok horiginal
  have asked := (token_eq_ok.mp hreadId).1
  have same : request.goalRef = goalRef := (currentMaterial_eq_ok live hbasis).1
  have registered := registeredIn_of_currentMaterial live hbasis
  rw [same] at hrows accepted
  obtain rfl := Except.ok.inj (live.read.symm.trans hrows)
  refine ⟨same, ?_⟩
  simp only at h
  split at h
  · rename_i existing hexisting
    obtain ⟨rfl, rfl⟩ := Prod.mk.inj (Except.ok.inj h)
    have identity := List.find?_some hexisting
    rw [decide_eq_true_eq, same] at identity
    rw [same]
    exact ⟨view, live, Performs.repeated asked original registered
      (List.mem_of_find?_eq_some hexisting) identity⟩
  · exact recordRead_performs live reads same asked original registered h accepted

/-- A planned operation that the reader accepts again performs its result. -/
theorem planOperation_performs {state : DirectionState} (live : Live host goalRef state.head view)
    (reads : ReadsBack host.dateParse view.rows) {request : DirectionRequest}
    {operationId revision : String} {next : Fields} {result : DirectionResult}
    (h : planOperation host request operationId state revision = .ok (next, result))
    (accepted : usage host.dateParse next request.goalRef = .ok rows') :
    request.goalRef = goalRef ∧ ∃ view', Live host goalRef next view' ∧
      Performs host goalRef request operationId state.journal view result view' := by
  unfold planOperation at h
  split at h
  · exact configure_performs live h
  · exact disable_performs live h
  · exact offerRead_performs live reads h accepted
  · exact acknowledge_performs live reads h accepted

/-! ## One call -/

/-- What a call that hands over a commit has read and planned. -/
structure Calls (host : DirectionHost) (call : DirectionCall) (state : DirectionState)
    (revision : String) (commit : DirectionCommit) (request : DirectionRequest) : Prop where
  parsed : directionRequest host call.request = .ok request
  fresh : state.journal.lookup commit.operationId = none
  planned : planOperation host request commit.operationId state revision =
    .ok (commit.next, commit.result)
  accepted : ∃ rows, usage host.dateParse commit.next request.goalRef = .ok rows
  exact : ExactRef request.goalRef

private theorem exact_of_directionRequest {value : Json} {request : DirectionRequest}
    (h : directionRequest host value = .ok request) : ExactRef request.goalRef := by
  obtain ⟨_, _, h⟩ := bind_eq_ok.mp h
  obtain ⟨_, _, h⟩ := bind_eq_ok.mp h
  obtain ⟨_, _, h⟩ := bind_eq_ok.mp h
  obtain ⟨_, _, h⟩ := bind_eq_ok.mp h
  obtain ⟨parsed, hparsed, h⟩ := bind_eq_ok.mp h
  obtain ⟨_, _, h⟩ := bind_eq_ok.mp h
  obtain ⟨_, _, h⟩ := bind_eq_ok.mp h
  obtain ⟨_, _, h⟩ := bind_eq_ok.mp h
  obtain ⟨_, _, h⟩ := bind_eq_ok.mp h
  obtain ⟨_, _, h⟩ := bind_eq_ok.mp h
  obtain ⟨_, _, h⟩ := bind_eq_ok.mp h
  obtain ⟨_, _, h⟩ := bind_eq_ok.mp h
  obtain ⟨_, _, h⟩ := bind_eq_ok.mp h
  obtain ⟨_, _, h⟩ := bind_eq_ok.mp h
  obtain rfl := Except.ok.inj h
  exact exactRef_of_parse hparsed

theorem calls_of_execute {call : DirectionCall} {state : DirectionState} {revision : String}
    {commit : DirectionCommit}
    (h : executeDirectionOperation host call state revision = .ok (some commit)) :
    ∃ request, Calls host call state revision commit request := by
  obtain ⟨request, hrequest, h⟩ := bind_eq_ok.mp h
  split at h
  · cases h
  · obtain ⟨operationId, _, h⟩ := bind_eq_ok.mp h
    split at h
    · cases h
    · rename_i fresh
      obtain ⟨_, _, h⟩ := bind_eq_ok.mp h
      obtain ⟨_, _, h⟩ := bind_eq_ok.mp h
      obtain ⟨_, _, h⟩ := bind_eq_ok.mp h
      obtain ⟨_, _, h⟩ := bind_eq_ok.mp h
      obtain ⟨_, _, h⟩ := bind_eq_ok.mp h
      obtain ⟨⟨next, result⟩, hplanned, h⟩ := bind_eq_ok.mp h
      obtain ⟨_, _, h⟩ := bind_eq_ok.mp h
      obtain ⟨rows, hrows, h⟩ := bind_eq_ok.mp h
      obtain ⟨_, _, h⟩ := bind_eq_ok.mp h
      split at h
      · cases h
      · obtain rfl := Option.some.inj (Except.ok.inj h)
        exact ⟨request, hrequest, Option.not_isSome_iff_eq_none.mp fresh, hplanned, ⟨rows, hrows⟩,
          exact_of_directionRequest hrequest⟩

/-- A commit over a live head leaves a live head. -/
theorem Calls.performs {call : DirectionCall} {state : DirectionState} {revision : String}
    {commit : DirectionCommit} {request : DirectionRequest}
    (calls : Calls host call state revision commit request)
    (live : Live host goalRef state.head view) (reads : ReadsBack host.dateParse view.rows) :
    ∃ view', Live host goalRef (storedFields commit.next) view' ∧
      Performs host goalRef request commit.operationId state.journal view commit.result view' := by
  obtain ⟨rows, accepted⟩ := calls.accepted
  obtain ⟨_, view', live', performs⟩ :=
    planOperation_performs live reads calls.planned accepted
  exact ⟨view', live'.stored, performs⟩

/-! ## The first declaration -/

/-- Nothing of the direction authority stands in the head yet. -/
structure Untouched (head : Fields) : Prop where
  unscoped : head.lookup "goal_direction_scope" = none
  receipts : usageItems head = .ok []
  object : (keys head).Nodup

theorem Untouched.scope_eq (h : Untouched head) (requested : WireExactGoalRef) :
    scope host.isPrivate host.sha head requested = .ok none := by
  rw [scope, h.unscoped]

theorem Untouched.usage_eq (h : Untouched head) (requested : WireExactGoalRef) :
    usage dateParse head requested = .ok [] := by
  rw [usage, h.receipts]
  rfl

theorem Untouched.congr {right : Fields} (h : Untouched head)
    (scopeKey : AgreeAt "goal_direction_scope" head right)
    (receipts : AgreeAt "material_usage_receipts" head right) (object : (keys right).Nodup) :
    Untouched right := by
  refine ⟨scopeKey.isNone.mp h.unscoped, ?_, object⟩
  obtain ⟨items, hitems, same⟩ := usageItems_of_canonical receipts h.receipts
  rw [hitems, List.map_eq_nil_iff.mp same]

theorem untouched_currentMaterial (h : Untouched head) {requested : WireExactGoalRef}
    {request : Fields} {basis : MaterialBasis} :
    currentMaterial host head requested request ≠ .ok basis := by
  intro hbasis
  obtain ⟨stored, hstored, hbasis⟩ := bind_eq_ok.mp hbasis
  rw [h.scope_eq] at hstored
  obtain rfl := Except.ok.inj hstored
  obtain ⟨_, hconfigured, _⟩ := bind_eq_ok.mp hbasis
  cases hconfigured

/-- The first commit on a Goal is a declaration. -/
theorem Calls.declares {call : DirectionCall} {state : DirectionState} {revision : String}
    {commit : DirectionCommit} {request : DirectionRequest}
    (calls : Calls host call state revision commit request) (untouched : Untouched state.head) :
    ∃ goalRef view changed digest, Live host goalRef (storedFields commit.next) view ∧
      commit.result = .configured goalRef changed digest := by
  have planned := calls.planned
  unfold planOperation at planned
  split at planned
  · obtain ⟨prior, materials, rows, digest, changed, hprior, hmaterials, hrows, hdigest, hnext,
      hresult⟩ := configure_eq_ok planned
    rw [untouched.scope_eq] at hprior
    rw [untouched.usage_eq] at hrows
    obtain rfl := Except.ok.inj hprior
    obtain rfl := Except.ok.inj hrows
    obtain ⟨registry, stored, receipts⟩ := configured_reads state.head
      ((DirectionScope.mk true digest none).toJson request.goalRef) (registryJson materials)
    rw [hnext]
    have live : Live host request.goalRef _ ⟨materials, ⟨true, digest, none⟩, []⟩ :=
      live_declared (nodup_keys_setKey (nodup_keys_setKey untouched.object _ _) _ _)
        (declared_of_policyMaterials hmaterials) calls.exact registry stored hdigest rfl
        (usage_of_agree receipts (untouched.usage_eq _)) List.Pairwise.nil
    exact ⟨_, _, changed, digest, live.stored, hresult⟩
  · obtain ⟨_, _, planned⟩ := bind_eq_ok.mp planned
    obtain ⟨stored, hstored, planned⟩ := bind_eq_ok.mp planned
    rw [untouched.scope_eq] at hstored
    obtain rfl := Except.ok.inj hstored
    obtain ⟨_, hprior, _⟩ := bind_eq_ok.mp planned
    cases hprior
  · obtain ⟨_, _, planned⟩ := bind_eq_ok.mp planned
    obtain ⟨_, hbasis, _⟩ := bind_eq_ok.mp planned
    exact absurd hbasis (untouched_currentMaterial untouched)
  · obtain ⟨_, _, planned⟩ := bind_eq_ok.mp planned
    obtain ⟨_, _, planned⟩ := bind_eq_ok.mp planned
    obtain ⟨_, _, planned⟩ := bind_eq_ok.mp planned
    obtain ⟨_, _, planned⟩ := bind_eq_ok.mp planned
    obtain ⟨_, _, planned⟩ := bind_eq_ok.mp planned
    obtain ⟨_, _, planned⟩ := bind_eq_ok.mp planned
    obtain ⟨_, hbasis, _⟩ := bind_eq_ok.mp planned
    exact absurd hbasis (untouched_currentMaterial untouched)

end Loopx.Goals.Direction
