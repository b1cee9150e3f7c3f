/- GID: Loopx/Goals/DirectionAdmission
   generality: I
   source: loopx/control_plane/goals/direction_authority.ts
   digest: What the direction authority admits: declarations, offers and standing acknowledgements. -/

import Loopx.Goals.DirectionMoves

set_option autoImplicit false
set_option relaxedAutoImplicit false

namespace Loopx.Goals.Direction

open Loopx.Lib.KeyedList
open Loopx.Lib.Fallible (ok_bind throwWhen_of_not)
open Loopx.Json (JsNumber Protocol byteLength byteLength_canonical Distinct canonicalAuthorityJson)
open Loopx.Authority (Sha256 canonicalAuthoritySha256 isBareSha256 isHexDigit)

variable {host : DirectionHost} {goalRef : WireExactGoalRef} {head : Fields}
  {view : DirectionView}

/-! ## Reading a request -/

/-- A request in the form that its reader accepts. -/
structure Formed (host : DirectionHost) (raw source : Fields) (operation : DirectionOperation)
    (goalRef : WireExactGoalRef) (agents : List String) (actor : Option String) (now : String)
    (dryRun : Bool) : Prop where
  distinct : Distinct (.object raw)
  small : byteLength (.object raw) ≤ inputBytes
  named : directionOperation (storedFields raw) = .ok operation
  known : directionKeys raw (["operation", "goal_ref", "actor_agent_id", "source", "observed_at",
    "dry_run"] ++ operation.fields) operation.optional = .ok ()
  goal : raw.lookup "goal_ref" = some goalRef.toJson
  exact : ExactRef goalRef
  valid : host.validIdentity goalRef.goalId = true
  facts : raw.lookup "source" = some (.object source)
  dry : raw.lookup "dry_run" = some (.bool dryRun)
  registered : (storedFields source).lookup "registered_agents" = some (texts agents)
  few : agents.length ≤ 128
  tokens : ∀ agent ∈ agents, isToken agent = true
  apart : agents.Nodup
  acting : requestActor (raw.lookup "actor_agent_id") = .ok actor
  member : ∀ agent ∈ actor, agent ∈ agents
  observed : raw.lookup "observed_at" = some (.string now)
  instant : (host.dateParse now).isSome = true

private theorem nodup_of_distinct {raw : Fields} (h : Distinct (.object raw)) :
    (keys raw).Nodup := ((Json.distinct_object raw).mp h).1

private theorem requestActor_stored (value : Option Json) :
    requestActor (value.map canonicalAuthorityJson) = requestActor value := by
  cases value with
  | none => rfl
  | some value => cases value <;> rfl

/-- A formed request is read. -/
theorem Formed.read {raw source : Fields} {operation : DirectionOperation} {agents : List String}
    {actor : Option String} {now : String} {dryRun : Bool}
    (h : Formed host raw source operation goalRef agents actor now dryRun) :
    directionRequest host (.object raw) = .ok ⟨storedFields raw, operation, goalRef,
      storedFields source, agents, actor, now, dryRun⟩ := by
  have nodup := nodup_of_distinct h.distinct
  have reads : ∀ key, (storedFields raw).lookup key =
      (raw.lookup key).map canonicalAuthorityJson :=
    fun key => Json.lookup_canonicalFields nodup key
  have small : ¬inputBytes < byteLength (.object (storedFields raw)) := by
    rw [object_storedFields, byteLength_canonical h.distinct]
    exact Nat.not_lt.mpr h.small
  have source : authorityFields ((storedFields raw).lookup "source") "source facts" =
      .ok (storedFields source) := by
    rw [reads, h.facts, authorityFields_canonical, authorityFields_object]
  have items : (agents.map Json.string).mapM (fun item => token (some item) "registered Agent") =
      .ok agents := mapM_tokens.mpr ⟨rfl, h.tokens⟩
  have acting : (actor.all fun agent => agents.contains agent) = true := by
    cases actor with
    | none => rfl
    | some agent => simpa using h.member agent rfl
  have observed : observedAt (storedFields raw) = now := by
    rw [observedAt, reads, h.observed]
    rfl
  rw [directionRequest, authorityFields_object, ok_bind, throwWhen_of_not small, ok_bind,
    h.named, ok_bind, directionKeys_stored nodup h.known, ok_bind, reads, h.goal,
    Option.map_some, parseWireExactGoalRef_stored h.exact, ok_bind, source, ok_bind,
    throwWhen_of_not (not_not.mpr h.valid), ok_bind, reads, h.dry]
  simp only [Option.map_some, canonicalAuthorityJson, dryRunFlag, ok_bind, h.registered, texts,
    agentItems, List.length_map, if_pos h.few, items, throwWhen_of_not (not_not.mpr h.apart),
    reads, requestActor_stored, h.acting, throwWhen_of_not (not_not.mpr acting), observed]
  have instant : ¬(host.dateParse now).isNone = true := by
    rw [Option.isNone_iff_eq_none]
    exact Option.isSome_iff_ne_none.mp h.instant
  rw [throwWhen_of_not instant, ok_bind]

/-! ## Admitting an operation -/

/-- A registered material may be read. -/
theorem currentMaterial_of_registered (live : Live host goalRef head view) {request : Fields}
    {material : Material} (enabled : view.scope.enabled = true) (hm : material ∈ view.materials)
    (digest : request.lookup "authority_digest" = some (.string view.scope.authorityDigest))
    (id : request.lookup "material_id" = some (.string material.id))
    (revision : request.lookup "required_revision" = some (.string material.revision))
    (source : request.lookup "source_ref_sha256" = some (.string material.sourceRefSha256)) :
    currentMaterial host head goalRef request = .ok ⟨material.id, material.revision,
      material.sourceRefSha256, view.scope.authorityDigest⟩ := by
  have checked := live.held.declared.each material hm
  have stored : authorityFields
      ((storedFields (registryFields view.materials)).lookup "project_materials") "materials" =
        .ok (storedFields (view.materials.map fun m => (m.id, m.toJson))) := by
    rw [lookup_registry, authorityFields_canonical]
    exact authorityFields_object _ _
  obtain ⟨boundary, heldSource, heldRevision⟩ := material_reads material checked.canonical
  have readable : (storedFields (materialFields material)).lookup "owner_status" =
        some (.string "reviewed") ∧
      (storedFields (materialFields material)).lookup "conflict_rule" =
        some (.string "owner_wins") ∧
      (storedFields (materialFields material)).lookup "freshness" = some (.string "current") ∧
      (storedFields (materialFields material)).lookup "gate_status" =
        some (.string "readable") ∧
      readableBoundary ((storedFields (materialFields material)).lookup "boundary") = true := by
    rw [boundary]
    refine ⟨?_, ?_, ?_, ?_, decide_eq_true checked.boundary⟩ <;> rw [lookup_storedMaterial] <;>
      simp [materialFields, List.lookup_cons, canonicalAuthorityJson]
  rw [currentMaterial, live.scope_eq, if_pos rfl, ok_bind, enabledScope]
  simp only [enabled, if_true]
  rw [ok_bind, throwWhen_of_not (not_not.mpr digest), ok_bind,
    authorityFields_of_canonical live.held.registered, ok_bind, stored, ok_bind, id,
    token_eq_ok.mpr ⟨rfl, checked.id⟩, ok_bind,
    authorityFields_storedMaterial live.held.declared.nodup hm, ok_bind, heldRevision,
    heldSource, stringField, ok_bind, stringField, ok_bind,
    throwWhen_of_not (by simp [revision, source]), ok_bind,
    throwWhen_of_not (not_not.mpr readable), ok_bind]

/-- A declaration over an untouched head. -/
theorem configure_of_untouched (untouched : Untouched head) {request : DirectionRequest}
    {revision agent : String} {agents : List String} {materials : List Material}
    (owner : request.actor = none)
    (basis : request.fields.lookup "expected_provider_revision" = some (.string revision))
    (free : head.lookup "authority_registry" = none)
    (declared : policyMaterials host.isPrivate (request.fields.lookup "materials") =
      .ok materials) (registered : request.agents = agent :: agents)
    (readable : host.readable request.goalRef.goalId agent request.now (registryJson materials)
      [] = true) (unreviewed : request.fields.lookup "expected_authority_digest" = none) :
    configure host request head revision =
      .ok (setKey (setKey head "authority_registry" (registryJson materials))
          "goal_direction_scope"
          ((DirectionScope.mk true
            (authorityDigest host.sha request.goalRef (registryJson materials)) none).toJson
              request.goalRef),
        .configured request.goalRef true
          (authorityDigest host.sha request.goalRef (registryJson materials))) := by
  rw [configure, ownerBasis, owner, throwWhen_of_not (by simp), ok_bind, basis,
    throwWhen_of_not (by simp), ok_bind, untouched.scope_eq, ok_bind,
    throwWhen_of_not (by simp [free]), ok_bind, declared, ok_bind, registered, firstAgent, ok_bind,
    untouched.usage_eq, ok_bind, throwWhen_of_not (not_not.mpr readable), ok_bind, unreviewed]
  rfl

/-- The offer of a registered material that was read at its revision. -/
def Material.offer (material : Material) (goalRef : WireExactGoalRef) (sha : Sha256)
    (digest content agent operationId : String) (bytes : Nat) (rows : List Receipt) : Offer :=
  ⟨goalRef, agent, material.id, digest, material.revision, material.sourceRefSha256, content,
    bytes, operationId, (pairRows rows agent material.id).length,
    some (usageBasis sha goalRef rows agent material.id)⟩

/-- A read at the registered revision is offered. -/
theorem offerRead_of_registered (live : Live host goalRef head view)
    {request : DirectionRequest} {material : Material} {agent operationId content : String}
    {observation : Fields} {bytes : Nat} (same : request.goalRef = goalRef)
    (actor : request.actor = some agent) (enabled : view.scope.enabled = true)
    (hm : material ∈ view.materials)
    (digest : request.fields.lookup "authority_digest" =
      some (.string view.scope.authorityDigest))
    (id : request.fields.lookup "material_id" = some (.string material.id))
    (revision : request.fields.lookup "required_revision" = some (.string material.revision))
    (source : request.fields.lookup "source_ref_sha256" =
      some (.string material.sourceRefSha256))
    (observed : authorityFields (request.source.lookup "material_observation")
      "actual material read" = .ok observation)
    (read : observation.lookup "available" = none)
    (known : directionKeys observation ["revision", "source_ref_sha256", "byte_count",
      "content_sha256"] [] = .ok ())
    (atRevision : observation.lookup "revision" = some (.string material.revision))
    (atSource : observation.lookup "source_ref_sha256" =
      some (.string material.sourceRefSha256))
    (atContent : hash (observation.lookup "content_sha256") = .ok content)
    (sized : byteCount (observation.lookup "byte_count") = .ok bytes)
    (addressed : material.revision = "sha256:" ++ content) :
    offerRead host request head operationId =
      .ok (head, .offered goalRef agent
        (material.offer goalRef host.sha view.scope.authorityDigest content agent operationId bytes
          view.rows)
        ((material.offer goalRef host.sha view.scope.authorityDigest content agent operationId
          bytes view.rows).deliveryDigest host.sha)) := by
  rw [offerRead, actor, actingAgent, ok_bind, same,
    currentMaterial_of_registered live enabled hm digest id revision source, ok_bind, observed,
    ok_bind, read, if_neg (by simp), offerAvailable, known, ok_bind,
    throwWhen_of_not (by simp [atRevision, atSource]), ok_bind, atContent, ok_bind,
    throwWhen_of_not (not_not.mpr addressed), ok_bind, sized, ok_bind, same, live.read, ok_bind]
  rfl

/-- A record in the form that the reader accepts. -/
structure UsageRecord.Formed (dateParse : String → Option Int) (goalRef : WireExactGoalRef)
    (record : UsageRecord) : Prop where
  exact : ExactRef goalRef
  operation : isToken record.readOperationId = true
  delivery : isBareSha256 record.deliveryDigest = true
  agent : isToken record.receipt.agentId = true
  material : isToken record.receipt.materialId = true
  id : isToken record.receipt.receiptId = true
  recorded : isRecordedAt record.receipt.recordedAt = true
  parses : (dateParse record.receipt.recordedAt).isSome = true
  revision : ∀ revision ∈ record.receipt.observedRevision, isEnvelopedSha256 revision = true

private theorem record_texts (record : UsageRecord) (goalRef : WireExactGoalRef) :
    (storedFields (record.fields goalRef)).lookup "schema_version" =
      some (.string USAGE_SCHEMA) ∧
    (storedFields (record.fields goalRef)).lookup "goal_ref" =
      some (canonicalAuthorityJson goalRef.toJson) ∧
    (storedFields (record.fields goalRef)).lookup "read_operation_id" =
      some (.string record.readOperationId) ∧
    (storedFields (record.fields goalRef)).lookup "delivery_digest" =
      some (.string record.deliveryDigest) ∧
    (storedFields (record.fields goalRef)).lookup "receipt" =
      some (canonicalAuthorityJson (record.receipt.toJson goalRef)) := by
  refine ⟨?_, ?_, ?_, ?_, ?_⟩ <;> rw [record_reads] <;>
    simp [UsageRecord.fields, List.lookup_cons, canonicalAuthorityJson]

private theorem receipt_kinds (receipt : Receipt) (goalRef : WireExactGoalRef) :
    (storedFields (receipt.fields goalRef)).lookup "schema_version" =
      some (.string "material_usage_receipt_v0") ∧
    (storedFields (receipt.fields goalRef)).lookup "goal_id" = some (.string goalRef.goalId) ∧
    (storedFields (receipt.fields goalRef)).lookup "todo_id" = some .null ∧
    ((storedFields (receipt.fields goalRef)).lookup "outcome" = some (.string "read") ∨
      (storedFields (receipt.fields goalRef)).lookup "outcome" =
        some (.string "unavailable")) := by
  refine ⟨?_, ?_, ?_, ?_⟩
  · rw [receipt_reads]
    simp [Receipt.fields, canonicalAuthorityJson]
  · rw [receipt_reads]
    simp [Receipt.fields, List.lookup_cons, canonicalAuthorityJson]
  · rw [receipt_reads]
    simp [Receipt.fields, List.lookup_cons, canonicalAuthorityJson]
  · rw [receipt_reads]
    cases hrevision : receipt.observedRevision <;>
      simp [Receipt.fields, Receipt.outcome, List.lookup_cons, hrevision, canonicalAuthorityJson]

private theorem observedRevision_formed {receipt : Receipt} (goalRef : WireExactGoalRef)
    (h : ∀ revision ∈ receipt.observedRevision, isEnvelopedSha256 revision = true) :
    observedRevision (storedFields (receipt.fields goalRef)) = .ok receipt.observedRevision := by
  rw [observedRevision, receipt_reads, receipt_reads]
  cases hrevision : receipt.observedRevision with
  | none =>
    simp [Receipt.fields, Receipt.outcome, List.lookup_cons, hrevision, canonicalAuthorityJson]
  | some revision =>
    have enveloped := h revision (by simp [hrevision])
    simp [Receipt.fields, Receipt.outcome, List.lookup_cons, hrevision, canonicalAuthorityJson,
      enveloped]

/-- A formed record is read as its receipt. -/
theorem readReceipt_of_formed {dateParse : String → Option Int} {record : UsageRecord}
    (h : record.Formed dateParse goalRef) :
    readReceipt dateParse goalRef (record.toJson goalRef) = .ok record.receipt := by
  obtain ⟨schema, goal, operation, delivery, receipt⟩ := record_texts record goalRef
  obtain ⟨kind, goalId, todo, outcome⟩ := receipt_kinds record.receipt goalRef
  obtain ⟨agent, material, id, recorded⟩ := receipt_texts record.receipt goalRef
  have outer : directionKeys (storedFields (record.fields goalRef)) ["schema_version", "goal_ref",
      "receipt", "read_operation_id", "delivery_digest"] [] = .ok () := by
    have names : keys (record.fields goalRef) = ["schema_version", "goal_ref", "receipt",
        "read_operation_id", "delivery_digest"] := rfl
    refine directionKeys_stored (by rw [names]; decide) (directionKeys_eq_ok.mpr ?_)
    rw [names]
    decide
  have inner : directionKeys (storedFields (record.receipt.fields goalRef)) receiptKeys [] =
      .ok () := by
    have names : keys (record.receipt.fields goalRef) = receiptKeys := rfl
    refine directionKeys_stored (by rw [names]; decide) (directionKeys_eq_ok.mpr ?_)
    rw [names]
    decide
  have fields : authorityFields ((storedFields (record.fields goalRef)).lookup "receipt")
      "material usage receipt" = .ok (storedFields (record.receipt.fields goalRef)) := by
    rw [receipt, ← Option.map_some (f := canonicalAuthorityJson), authorityFields_canonical,
      Receipt.toJson, authorityFields_object]
  have delivered : hash (some (.string record.deliveryDigest)) = .ok record.deliveryDigest :=
    if_pos h.delivery
  have instant : recordedAt dateParse (some (.string record.receipt.recordedAt)) =
      .ok record.receipt.recordedAt := by
    rw [recordedAt, h.recorded, h.parses]
    rfl
  rw [readReceipt, UsageRecord.toJson, authorityFields_object, ok_bind, outer, ok_bind, schema,
    throwWhen_of_not (not_not.mpr rfl), ok_bind, goal, parseWireExactGoalRef_stored h.exact,
    ok_bind, throwWhen_of_not (by simp), ok_bind, operation,
    token_eq_ok.mpr ⟨rfl, h.operation⟩, ok_bind, delivery, delivered, ok_bind, fields, ok_bind,
    inner, ok_bind, throwWhen_of_not (not_not.mpr ⟨kind, goalId, todo, outcome⟩), ok_bind, agent,
    token_eq_ok.mpr ⟨rfl, h.agent⟩, ok_bind, material, token_eq_ok.mpr ⟨rfl, h.material⟩, ok_bind,
    id, token_eq_ok.mpr ⟨rfl, h.id⟩, ok_bind, recorded, instant, ok_bind,
    observedRevision_formed goalRef h.revision, ok_bind]

/-- While there is room a formed record under a new identity is retained, and the head is read
with it. -/
theorem retainUsage_of_room {next : Fields} {record : UsageRecord} {rows : List Receipt}
    (read : usage host.dateParse next goalRef = .ok rows) (room : rows.length < maxReceipts)
    (formed : record.Formed host.dateParse goalRef)
    (fresh : record.receipt.receiptId ∉ rows.map (·.receiptId)) :
    ∃ head, retainUsage host.dateParse host.isPrivate host.sha next goalRef record =
        .ok (head, none) ∧ usage host.dateParse head goalRef = .ok (rows ++ [record.receipt]) ∧
      head.lookup "authority_registry" = next.lookup "authority_registry" := by
  obtain ⟨items, hitems, each, nodup⟩ := usage_eq_ok.mp read
  refine ⟨setKey next "material_usage_receipts" (.array (items ++ [record.toJson goalRef])), ?_,
    ?_, ?_⟩
  · rw [retainUsage, read, ok_bind, hitems, ok_bind, if_neg (by omega)]
  · refine usage_eq_ok.mpr ⟨items ++ [record.toJson goalRef], ?_, ?_, ?_⟩
    · rw [usageItems, lookup_setKey, if_pos rfl]
      refine if_pos ?_
      rw [List.length_append, List.length_singleton, each.length_eq]
      omega
    · exact List.rel_append each
        (List.Forall₂.cons (readReceipt_of_formed formed) List.Forall₂.nil)
    · rw [List.map_append, List.nodup_append]
      refine ⟨nodup, by simp, fun id hid last hlast => ?_⟩
      rw [List.map_singleton, List.mem_singleton] at hlast
      rintro rfl
      exact fresh (hlast ▸ hid)
  · exact (lookup_setKey _ _ _ _).trans (if_neg (by decide))

private theorem offerStands_of_stands (live : Live host goalRef head view) {offer : Offer}
    (stands : Stands host goalRef view offer)
    (bare : ∀ basis ∈ offer.usageBasisSha256, isBareSha256 basis = true) :
    offerStands host head goalRef view.rows offer = .ok true := by
  rw [Stands] at stands
  rw [offerStands]
  cases fence : offer.usageBasisSha256 with
  | none =>
    rw [fence] at stands
    simp only [live.scope_eq, if_true, ok_bind, Option.map_some, Option.getD_some, stands.1,
      stands.2, decide_true, Bool.and_self]
  | some basis =>
    rw [fence] at stands
    have checked : hash (some (.string basis)) = .ok basis := if_pos (bare basis (by simp [fence]))
    simp only [checked, ok_bind, ← stands, decide_true]

/-- An offer that stands is acknowledged, and its read recorded. -/
theorem acknowledge_of_stands {state : DirectionState} (live : Live host goalRef state.head view)
    {request : DirectionRequest} {offer : Offer} {offeredRef : WireExactGoalRef}
    {agentId recorded : String} (same : request.goalRef = goalRef)
    (actor : request.actor = some offer.agentId)
    (asked : request.fields.lookup "read_operation_id" = some (.string offer.readOperationId))
    (delivered : request.fields.lookup "delivery_digest" =
      some (.string (offer.deliveryDigest host.sha)))
    (original : state.journal.lookup offer.readOperationId =
      some (.direction (.offered offeredRef agentId offer (offer.deliveryDigest host.sha))))
    (own : offer.goalRef = goalRef) (registered : RegisteredIn view offer)
    (stands : Stands host goalRef view offer)
    (bare : ∀ basis ∈ offer.usageBasisSha256, isBareSha256 basis = true)
    (room : view.rows.length < maxReceipts)
    (fresh : readReceiptId host goalRef offer.agentId offer.readOperationId ∉
      view.rows.map (·.receiptId))
    (timed : usageRecordedAt host.dateParse view.rows request.now = .ok recorded)
    (formed : (UsageRecord.mk ⟨readReceiptId host goalRef offer.agentId offer.readOperationId,
      offer.agentId, offer.materialId, some offer.requiredRevision, recorded⟩
      offer.readOperationId (offer.deliveryDigest host.sha)).Formed host.dateParse goalRef) :
    ∃ head, acknowledge host request state = .ok (head, .acknowledged goalRef offer.agentId true
        ⟨readReceiptId host goalRef offer.agentId offer.readOperationId, offer.agentId,
          offer.materialId, some offer.requiredRevision, recorded⟩ none) ∧
      usage host.dateParse head goalRef = .ok (view.rows ++
        [⟨readReceiptId host goalRef offer.agentId offer.readOperationId, offer.agentId,
          offer.materialId, some offer.requiredRevision, recorded⟩]) ∧
      head.lookup "authority_registry" = state.head.lookup "authority_registry" := by
  obtain ⟨digest, id, revision, source⟩ := offer_reads offer
  obtain ⟨material, hm, sameId, sameRevision, sameSource⟩ := registered.material
  have current := currentMaterial_of_registered live registered.enabled hm
    (registered.digest ▸ digest) (sameId ▸ id) (sameRevision ▸ revision) (sameSource ▸ source)
  obtain ⟨head, retained, read, registry⟩ := retainUsage_of_room live.read room formed fresh
  have unrecorded : view.rows.find? (fun row => row.receiptId =
      readReceiptId host goalRef offer.agentId offer.readOperationId) = none := by
    rw [List.find?_eq_none]
    intro row hrow identity
    exact fresh (List.mem_map.mpr ⟨row, hrow, of_decide_eq_true identity⟩)
  have checked : hash (some (.string (offer.deliveryDigest host.sha))) =
      .ok (offer.deliveryDigest host.sha) := if_pos (host.sha.bare _)
  refine ⟨head, ?_, read, registry⟩
  rw [acknowledge, actor, actingAgent, ok_bind, asked, token_eq_ok.mpr ⟨rfl, formed.operation⟩,
    ok_bind, originalOffer, original, ok_bind, throwWhen_of_not (by simp [own, same]), ok_bind,
    delivered, checked, ok_bind, throwWhen_of_not (by simp), ok_bind, same, current, ok_bind,
    live.read, ok_bind]
  simp only [unrecorded, recordRead, same, offerStands_of_stands live stands bare, ok_bind,
    timed, retained]
  rw [throwWhen_of_not (by simp), ok_bind]

/-- A planned operation whose head is read again is handed to the store. -/
theorem admittedCommit_of_planned {call : DirectionCall} {request : DirectionRequest}
    {operationId revision : String} {state : DirectionState} {next : Fields}
    {result : DirectionResult} {rows : List Receipt} (before : call.sourceBefore = true)
    (after : call.sourceAfter = true) (ready : host.ready request.source request.goalRef = true)
    (unclaimed : request.source.lookup "legacy_authority_present" = some (.bool false))
    (unretired : state.head.lookup "goal_acceptance_lifecycle" = none)
    (planned : planOperation host request operationId state revision = .ok (next, result))
    (read : usage host.dateParse next request.goalRef = .ok rows)
    (small : byteLength (projectionInput request next rows) ≤ inputBytes)
    (wet : request.dryRun = false) :
    admittedCommit host call request operationId state revision =
      .ok (some ⟨operationId, next, result⟩) := by
  have lifecycle : readGoalAcceptanceLifecycle state.head request.goalRef.goalId = .ok none := by
    rw [readGoalAcceptanceLifecycle, unretired]
  rw [admittedCommit, throwWhen_of_not (by simp [before]), ok_bind,
    throwWhen_of_not (not_not.mpr ready), ok_bind, throwWhen_of_not (by simp [unclaimed]), ok_bind,
    lifecycle, ok_bind, throwWhen_of_not (by simp [lifecycleAdmits]), ok_bind, planned, ok_bind,
    throwWhen_of_not (by simp [after]), ok_bind, read, ok_bind,
    throwWhen_of_not (Nat.not_lt.mpr small), ok_bind, wet]
  rfl

end Loopx.Goals.Direction
