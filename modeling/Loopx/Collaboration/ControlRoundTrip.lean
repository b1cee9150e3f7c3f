/- GID: Loopx/Collaboration/ControlRoundTrip
   generality: I
   source: loopx/control_plane/collaboration/request_control.ts
   digest: The strict reader accepts exactly the valid records, and reads them back as they are. -/

import Loopx.Collaboration.BriefRoundTrip
import Loopx.Collaboration.RequestControl

set_option autoImplicit false
set_option relaxedAutoImplicit false

namespace Loopx.Collaboration

open Loopx.Lib.KeyedList
open Loopx.Lib.Fallible (bind_eq_ok ok_bind mapM_eq_ok)
open Loopx.Authority (canonicalAuthoritySha256 isBareSha256)

/-! ## Checked values -/

theorem controlText_eq_ok {value : Option Json} {name s : String} {max : Nat} :
    controlText value name max = .ok s ↔ value = some (.string s) ∧ isControlText max s = true := by
  unfold controlText
  split
  · next text =>
    constructor
    · intro h
      split at h
      · next valid =>
        obtain rfl := Except.ok.inj h
        exact ⟨rfl, valid⟩
      · cases h
    · rintro ⟨same, valid⟩
      obtain rfl := Json.string.inj (Option.some.inj same)
      rw [if_pos valid]
  · next other =>
    constructor
    · intro h
      cases h
    · rintro ⟨same, _⟩
      exact absurd same (other s)

/-- An identifier as `controlId` accepts it. -/
def IsSafeId (s : String) : Prop := isControlText 160 s = true ∧ isSafeIdentifier s = true

theorem controlId_eq_ok {value : Option Json} {name s : String} :
    controlId value name = .ok s ↔ value = some (.string s) ∧ IsSafeId s := by
  constructor
  · intro h
    obtain ⟨text, htext, h⟩ := bind_eq_ok.mp h
    obtain ⟨_, safe, h⟩ := bind_eq_ok.mp h
    obtain rfl := Except.ok.inj h
    obtain ⟨same, valid⟩ := controlText_eq_ok.1 htext
    exact ⟨same, valid, ensure_eq_ok.mp safe⟩
  · rintro ⟨same, valid, safe⟩
    rw [controlId, controlText_eq_ok.2 ⟨same, valid⟩, ok_bind, ensure_of safe, ok_bind]

theorem controlDigest_eq_ok {value : Option Json} {name s : String} :
    controlDigest value name = .ok s ↔ value = some (.string s) ∧ isBareSha256 s = true := by
  unfold controlDigest
  split
  · next text =>
    constructor
    · intro h
      split at h
      · next valid =>
        obtain rfl := Except.ok.inj h
        exact ⟨rfl, valid⟩
      · cases h
    · rintro ⟨same, valid⟩
      obtain rfl := Json.string.inj (Option.some.inj same)
      rw [if_pos valid]
  · next other =>
    constructor
    · intro h
      cases h
    · rintro ⟨same, _⟩
      exact absurd same (other s)

theorem boundedArray_eq_ok {value : Option Json} {max : Nat} {items : List Json} :
    boundedArray value max = .ok items ↔ value = some (.array items) ∧ items.length ≤ max := by
  unfold boundedArray
  split
  · next found =>
    constructor
    · intro h
      split at h
      · next few =>
        obtain rfl := Except.ok.inj h
        exact ⟨rfl, few⟩
      · cases h
    · rintro ⟨same, few⟩
      obtain rfl := Json.array.inj (Option.some.inj same)
      rw [if_pos few]
  · next other =>
    constructor
    · intro h
      cases h
    · rintro ⟨same, _⟩
      exact absurd same (other items)

theorem controlKeys_eq_ok {value : Fields} {fields : List String} {u : Unit} :
    controlKeys value fields = .ok u ↔
      value.length = fields.length ∧ ∀ key ∈ fields, (value.lookup key).isSome := by
  rw [controlKeys, ensure_eq_ok, List.all_eq_true]

theorem controlKeys_of {value : Fields} {fields : List String}
    (h : value.length = fields.length ∧ ∀ key ∈ fields, (value.lookup key).isSome) :
    controlKeys value fields = .ok () :=
  controlKeys_eq_ok.2 h

theorem receiverDecision_text (decision : ReceiverDecision) :
    receiverDecision (some (.string decision.text)) = some decision := by
  cases decision <;> rfl

section

variable (host : ControlHost)

/-- A time as `timestamp` accepts it. -/
def IsTime (s : String) : Prop := isControlText 64 s = true ∧ (host.dateParse s).isSome

variable {host}

theorem timestamp_eq_ok {value : Option Json} {s : String} :
    timestamp host value = .ok s ↔ value = some (.string s) ∧ IsTime host s := by
  constructor
  · intro h
    obtain ⟨text, htext, h⟩ := bind_eq_ok.mp h
    obtain ⟨_, parsed, h⟩ := bind_eq_ok.mp h
    obtain rfl := Except.ok.inj h
    obtain ⟨same, valid⟩ := controlText_eq_ok.1 htext
    exact ⟨same, valid, ensure_eq_ok.mp parsed⟩
  · rintro ⟨same, valid, parsed⟩
    rw [timestamp, controlText_eq_ok.2 ⟨same, valid⟩, ok_bind, ensure_of parsed, ok_bind]

theorem sameJson_self (v : Json) : sameJson host v v = true := decide_eq_true rfl

/-! ## The entry without its control -/

theorem lookup_withControl {entry : Fields} {control : Control} (key : String)
    (other : key ≠ "request_control" := by decide) :
    (withControl entry control).lookup key = entry.lookup key := by
  rw [withControl, lookup_setKey, if_neg other]

theorem lookup_withControl_self (entry : Fields) (control : Control) :
    (withControl entry control).lookup "request_control" = some control.toJson := by
  rw [withControl, lookup_setKey, if_pos rfl]

theorem withControl_withControl (entry : Fields) (control next : Control) :
    withControl (withControl entry control) next = withControl entry next :=
  setKey_setKey entry "request_control" control.toJson next.toJson

private theorem filter_setKey (keep : String → Bool) {k : String} (dropped : keep k = false)
    (fields : Fields) (v : Json) :
    (setKey fields k v).filter (fun field => keep field.1) =
      fields.filter fun field => keep field.1 := by
  induction fields with
  | nil => simp [setKey, dropped]
  | cons field fields ih =>
    simp only [setKey]
    split
    · next same => simp [same, dropped]
    · rw [List.filter_cons, List.filter_cons, ih]

@[simp] theorem requestOriginalDigest_withControl (entry : Fields) (control : Control) :
    requestOriginalDigest host (withControl entry control) = requestOriginalDigest host entry := by
  rw [requestOriginalDigest, withControl, filter_setKey
    (fun key =>
      !(["instruction", "delivered_at", "source_channel", "request_control"].contains key))
    (by decide)]
  rfl

@[simp] theorem isConversation_withControl (entry : Fields) (control : Control) :
    isConversation (withControl entry control) = isConversation entry := by
  rw [isConversation, lookup_withControl "schema_version", isConversation]

private theorem checkProfile_withControl (entry : Fields) (control : Control) :
    checkProfile (withControl entry control) = checkProfile entry := by
  have absent : (["goal_id", "goal_ref", "agent_id", "execution_binding_id"].all
        fun key => ((withControl entry control).lookup key).isNone) =
      ["goal_id", "goal_ref", "agent_id", "execution_binding_id"].all
        fun key => (entry.lookup key).isNone := by
    simp only [List.all_cons, lookup_withControl "goal_id", lookup_withControl "goal_ref",
      lookup_withControl "agent_id", lookup_withControl "execution_binding_id"]
    rfl
  unfold checkProfile
  rw [absent, isConversation_withControl, lookup_withControl "recipient",
    lookup_withControl "requester", lookup_withControl "source_kind",
    lookup_withControl "source_agent_id", lookup_withControl "goal_id",
    lookup_withControl "goal_ref", lookup_withControl "agent_id",
    lookup_withControl "execution_binding_id", lookup_withControl "schema_version"]

@[simp] theorem initial_withControl (entry : Fields) (control : Control) :
    initial host (withControl entry control) = initial host entry := by
  rw [initial, checkProfile_withControl, requestOriginalDigest_withControl,
    lookup_withControl "request_id", lookup_withControl "source_id", lookup_withControl "brief",
    lookup_withControl "delivered_at", initial]

@[simp] theorem requestRevisionDigest_withControl (entry : Fields) (control : Control)
    (revision : Revision) : requestRevisionDigest host (withControl entry control) revision =
      requestRevisionDigest host entry revision := by
  simp [requestRevisionDigest]

@[simp] theorem amendmentBinding_withControl (value : Option Json) (entry : Fields)
    (control : Control) (revisions : List Revision) (epoch : Nat) :
    amendmentBinding host value (withControl entry control) revisions epoch =
      amendmentBinding host value entry revisions epoch := by
  simp only [amendmentBinding, requestRevisionDigest_withControl]
  rw [lookup_withControl "request_id", lookup_withControl "agent_id",
    lookup_withControl "goal_ref"]

@[simp] theorem readControlFields_withControl (entry raw : Fields) (control original : Control) :
    readControlFields host (withControl entry control) raw original =
      readControlFields host entry raw original := by
  have each : readReservation host (withControl entry control) = readReservation host entry := by
    funext revisions value index
    simp [readReservation]
  simp [readControlFields, each]

/-! ## Valid records -/

structure Assessment.Valid (host : ControlHost) (assessment : Assessment) : Prop where
  reason : isControlText 2000 assessment.reason = true
  assessedAt : IsTime host assessment.assessedAt

structure Revision.Valid (host : ControlHost) (index : Nat) (row : Revision) : Prop where
  revision : row.revision = index + 1
  brief : row.brief.Normal
  reason : isControlText 2000 row.reason = true
  createdAt : IsTime host row.createdAt
  readAt : ∀ t ∈ row.readAt, IsTime host t
  assessment : ∀ a ∈ row.assessment, a.Valid host

/-- A reservation whose parts pass their own readers. -/
structure Reservation.Valid (host : ControlHost) (entry : Fields) (revisions : List Revision)
    (index : Nat) (reservation : Reservation) : Prop where
  binding : amendmentBinding host (some (.object reservation.binding)) entry revisions
    (index + 1) = .ok reservation.binding
  digest : reservation.digest =
    canonicalAuthoritySha256 host.sha (.object reservation.binding)
  terminal : ∀ t ∈ reservation.terminal,
    requestTerminalSummary host (some (.object t)) reservation = .ok t

structure Cancellation.Valid (host : ControlHost) (cancellation : Cancellation) : Prop where
  operationId : IsSafeId cancellation.operationId
  reason : isControlText 2000 cancellation.reason = true
  requestedAt : IsTime host cancellation.requestedAt

structure OperationReceipt.Valid (receipt : OperationReceipt) : Prop where
  operationId : IsSafeId receipt.operationId
  requestSha256 : isBareSha256 receipt.requestSha256 = true

/-- A record the strict reader accepts, beside the declaration of its entry. -/
structure Control.Valid (host : ControlHost) (entry : Fields) (control original : Control) :
    Prop where
  requestSha256 : control.requestSha256 = original.requestSha256
  revisions : control.revisions.length ≤ MAX_REVISIONS ∧
    ∀ i (r : Revision), control.revisions[i]? = some r → r.Valid host i
  declared : keepsOriginal host control.revisions original = true
  reservations : control.reservations.length ≤ MAX_RESERVATIONS ∧
    ∀ i (r : Reservation), control.reservations[i]? = some r →
      r.Valid host entry control.revisions i
  conversation : isConversation entry = true → control.reservations = []
  ordered : reservationsOrdered control.reservations
  cancellation : ∀ c ∈ control.cancellation, c.Valid host
  operations : control.operations.length ≤ MAX_OPERATIONS ∧ ∀ o ∈ control.operations, o.Valid
  distinct : (control.operations.map OperationReceipt.operationId).Nodup

private theorem readAssessment_toJson {assessment : Option Assessment}
    (h : ∀ a ∈ assessment, a.Valid host) :
    readAssessment host (some ((assessment.map Assessment.toJson).getD .null)) =
      .ok assessment := by
  cases assessment with
  | none => rfl
  | some a =>
    obtain ⟨reason, assessedAt⟩ := h a rfl
    have time : timestamp host (some (.string a.assessedAt)) = .ok a.assessedAt :=
      timestamp_eq_ok.2 ⟨rfl, assessedAt⟩
    rw [Option.map_some, Option.getD_some, readAssessment, Assessment.toJson,
      if_neg (by simp), requireJsonObject, ok_bind,
      controlKeys_of (by simp [lookup_cons_ite]), ok_bind]
    simp only [lookup_cons_ite, String.reduceEq, if_true, if_false]
    rw [receiverDecision_text]
    simp only [controlText_eq_ok.2 ⟨rfl, reason⟩, time, ok_bind]

private theorem valid_of_readAssessment {value : Option Json} {assessment : Option Assessment}
    (h : readAssessment host value = .ok assessment) : ∀ a ∈ assessment, a.Valid host := by
  unfold readAssessment at h
  split at h
  · obtain rfl := Except.ok.inj h
    simp
  · obtain ⟨row, _, h⟩ := bind_eq_ok.mp h
    obtain ⟨_, _, h⟩ := bind_eq_ok.mp h
    split at h
    · cases h
    · obtain ⟨reason, hreason, h⟩ := bind_eq_ok.mp h
      obtain ⟨assessedAt, hassessed, h⟩ := bind_eq_ok.mp h
      obtain rfl := Except.ok.inj h
      rintro _ ⟨⟩
      exact ⟨(controlText_eq_ok.1 hreason).2, (timestamp_eq_ok.1 hassessed).2⟩

private theorem readReadAt_optionJson {readAt : Option String} (h : ∀ t ∈ readAt, IsTime host t) :
    readReadAt host (some (optionJson readAt)) = .ok readAt := by
  cases readAt with
  | none => rfl
  | some t =>
    have time : timestamp host (some (optionJson (some t))) = .ok t :=
      timestamp_eq_ok.2 ⟨rfl, h t rfl⟩
    rw [readReadAt, if_neg (by simp [optionJson]), time, ok_bind]

private theorem readReadAt_eq_ok {value : Option Json} {readAt : Option String}
    (h : readReadAt host value = .ok readAt) : ∀ t ∈ readAt, IsTime host t := by
  unfold readReadAt at h
  split at h
  · obtain rfl := Except.ok.inj h
    simp
  · obtain ⟨t, ht, h⟩ := bind_eq_ok.mp h
    obtain rfl := Except.ok.inj h
    rintro _ ⟨⟩
    exact (timestamp_eq_ok.1 ht).2

private theorem readRevision_toJson {index : Nat} {row : Revision} (h : row.Valid host index) :
    readRevision host row.toJson index = .ok row := by
  rw [readRevision, Revision.toJson, requireJsonObject, ok_bind,
    controlKeys_of (by simp [lookup_cons_ite]), ok_bind]
  simp only [lookup_cons_ite, String.reduceEq, if_true, if_false]
  rw [ensure_of (by rw [h.revision]), ok_bind, normalizeCollaborationBrief_toJson h.brief, ok_bind,
    ensure_of (by rw [orNull, Option.getD_some]; exact sameJson_self _), ok_bind,
    readAssessment_toJson h.assessment, ok_bind, controlText_eq_ok.2 ⟨rfl, h.reason⟩, ok_bind,
    timestamp_eq_ok.2 ⟨rfl, h.createdAt⟩, ok_bind, readReadAt_optionJson h.readAt, ok_bind,
    ← h.revision]

private theorem valid_of_readRevision {value : Json} {index : Nat} {row : Revision}
    (h : readRevision host value index = .ok row) : row.Valid host index := by
  obtain ⟨_, _, h⟩ := bind_eq_ok.mp h
  obtain ⟨_, _, h⟩ := bind_eq_ok.mp h
  obtain ⟨_, _, h⟩ := bind_eq_ok.mp h
  obtain ⟨brief, hbrief, h⟩ := bind_eq_ok.mp h
  obtain ⟨_, _, h⟩ := bind_eq_ok.mp h
  obtain ⟨assessment, hassessment, h⟩ := bind_eq_ok.mp h
  obtain ⟨reason, hreason, h⟩ := bind_eq_ok.mp h
  obtain ⟨createdAt, hcreated, h⟩ := bind_eq_ok.mp h
  obtain ⟨readAt, hread, h⟩ := bind_eq_ok.mp h
  obtain rfl := Except.ok.inj h
  exact ⟨rfl, normal_of_normalizeCollaborationBrief hbrief, (controlText_eq_ok.1 hreason).2,
    (timestamp_eq_ok.1 hcreated).2, readReadAt_eq_ok hread, valid_of_readAssessment hassessment⟩

/-- A binding that is read is the one that was given. -/
theorem amendmentBinding_self {value : Option Json} {entry row : Fields}
    {revisions : List Revision} {epoch : Nat}
    (h : amendmentBinding host value entry revisions epoch = .ok row) :
    value = some (.object row) := by
  obtain ⟨_, hrow, h⟩ := bind_eq_ok.mp h
  iterate 4 obtain ⟨_, _, h⟩ := bind_eq_ok.mp h
  iterate 7 obtain ⟨_, _, h⟩ := bind_eq_ok.mp h
  obtain rfl := Except.ok.inj h
  exact requireJsonObject_eq_ok.mp hrow

/-- A terminal receipt that is read is the one that was given. -/
theorem requestTerminalSummary_self {value : Option Json} {reservation : Reservation}
    {row : Fields} (h : requestTerminalSummary host value reservation = .ok row) :
    value = some (.object row) := by
  obtain ⟨_, hrow, h⟩ := bind_eq_ok.mp h
  iterate 5 obtain ⟨_, _, h⟩ := bind_eq_ok.mp h
  obtain rfl := Except.ok.inj h
  exact requireJsonObject_eq_ok.mp hrow

private theorem readReservation_toJson {entry : Fields} {revisions : List Revision} {index : Nat}
    {row : Reservation} (h : row.Valid host entry revisions index) :
    readReservation host entry revisions row.toJson index = .ok row := by
  rw [readReservation, Reservation.toJson, Reservation.fields, requireJsonObject, ok_bind,
    controlKeys_of (by simp [lookup_cons_ite]), ok_bind]
  simp only [lookup_cons_ite, String.reduceEq, if_true, if_false]
  rw [h.binding, ok_bind, ensure_of (by rw [h.digest]), ok_bind, ← h.digest]
  cases known : row.terminal with
  | none =>
    rw [Option.map_none, Option.getD_none, if_pos rfl, ← known]
  | some terminal =>
    have same : requestTerminalSummary host (some (.object terminal))
        ⟨row.binding, row.digest, none⟩ = .ok terminal := h.terminal terminal known
    rw [Option.map_some, Option.getD_some, if_neg (by simp), same, ok_bind, ← known]

private theorem valid_of_readReservation {entry : Fields} {revisions : List Revision}
    {value : Json} {index : Nat} {row : Reservation}
    (h : readReservation host entry revisions value index = .ok row) :
    row.Valid host entry revisions index := by
  obtain ⟨_, _, h⟩ := bind_eq_ok.mp h
  obtain ⟨_, _, h⟩ := bind_eq_ok.mp h
  obtain ⟨bound, hbound, h⟩ := bind_eq_ok.mp h
  obtain ⟨_, _, h⟩ := bind_eq_ok.mp h
  have given := amendmentBinding_self hbound
  rw [given] at hbound
  split at h
  · obtain rfl := Except.ok.inj h
    exact ⟨hbound, rfl, by simp⟩
  · obtain ⟨terminal, hterminal, h⟩ := bind_eq_ok.mp h
    obtain rfl := Except.ok.inj h
    refine ⟨hbound, rfl, ?_⟩
    rintro _ ⟨⟩
    rw [requestTerminalSummary_self hterminal] at hterminal
    exact hterminal

private theorem readCancellation_toJson {cancellation : Option Cancellation}
    (h : ∀ c ∈ cancellation, c.Valid host) :
    readCancellation host (some ((cancellation.map Cancellation.toJson).getD .null)) =
      .ok cancellation := by
  cases cancellation with
  | none => rfl
  | some c =>
    obtain ⟨operationId, reason, requestedAt⟩ := h c rfl
    rw [Option.map_some, Option.getD_some, readCancellation, Cancellation.toJson,
      if_neg (by simp), requireJsonObject, ok_bind,
      controlKeys_of (by simp [lookup_cons_ite]), ok_bind]
    simp only [lookup_cons_ite, String.reduceEq, if_true, if_false]
    rw [controlId_eq_ok.2 ⟨rfl, operationId⟩, ok_bind, controlText_eq_ok.2 ⟨rfl, reason⟩,
      ok_bind, timestamp_eq_ok.2 ⟨rfl, requestedAt⟩, ok_bind]

private theorem valid_of_readCancellation {value : Option Json}
    {cancellation : Option Cancellation} (h : readCancellation host value = .ok cancellation) :
    ∀ c ∈ cancellation, c.Valid host := by
  unfold readCancellation at h
  split at h
  · obtain rfl := Except.ok.inj h
    simp
  · obtain ⟨_, _, h⟩ := bind_eq_ok.mp h
    obtain ⟨_, _, h⟩ := bind_eq_ok.mp h
    obtain ⟨operationId, hoperation, h⟩ := bind_eq_ok.mp h
    obtain ⟨reason, hreason, h⟩ := bind_eq_ok.mp h
    obtain ⟨requestedAt, hrequested, h⟩ := bind_eq_ok.mp h
    obtain rfl := Except.ok.inj h
    rintro _ ⟨⟩
    exact ⟨(controlId_eq_ok.1 hoperation).2, (controlText_eq_ok.1 hreason).2,
      (timestamp_eq_ok.1 hrequested).2⟩

private theorem readOperation_toJson {receipt : OperationReceipt} (h : receipt.Valid) :
    readOperation receipt.toJson = .ok receipt := by
  rw [readOperation, OperationReceipt.toJson, requireJsonObject, ok_bind,
    controlKeys_of (by simp [lookup_cons_ite]), ok_bind]
  simp only [lookup_cons_ite, String.reduceEq, if_true, if_false]
  rw [controlId_eq_ok.2 ⟨rfl, h.operationId⟩, ok_bind,
    controlDigest_eq_ok.2 ⟨rfl, h.requestSha256⟩, ok_bind, requireJsonObject, ok_bind]

private theorem valid_of_readOperation {value : Json} {receipt : OperationReceipt}
    (h : readOperation value = .ok receipt) : receipt.Valid := by
  obtain ⟨_, _, h⟩ := bind_eq_ok.mp h
  obtain ⟨_, _, h⟩ := bind_eq_ok.mp h
  obtain ⟨operationId, hoperation, h⟩ := bind_eq_ok.mp h
  obtain ⟨requestSha256, hsha, h⟩ := bind_eq_ok.mp h
  obtain ⟨result, _, h⟩ := bind_eq_ok.mp h
  obtain rfl := Except.ok.inj h
  exact ⟨(controlId_eq_ok.1 hoperation).2, (controlDigest_eq_ok.1 hsha).2⟩

/-! ## The whole record -/

/-- Rows that are read with their positions are read each at its own. -/
private theorem mapM_zipIdx_toJson {A : Type} {row : Json → Nat → Checked A} {encode : A → Json}
    {items : List A} (h : ∀ i a, items[i]? = some a → row (encode a) i = .ok a) :
    ((items.map encode).zipIdx.mapM fun (value, index) => row value index) = .ok items := by
  rw [mapM_eq_ok, List.forall₂_iff_get]
  refine ⟨by simp, fun i _ inside => ?_⟩
  have here := h i items[i] (List.getElem?_eq_getElem inside)
  simpa using here

private theorem of_mapM_zipIdx {A : Type} {row : Json → Nat → Checked A} {values : List Json}
    {items : List A}
    (h : (values.zipIdx.mapM fun (value, index) => row value index) = .ok items) :
    items.length = values.length ∧
      ∀ i a, items[i]? = some a → ∃ value, row value i = .ok a := by
  obtain ⟨count, each⟩ := List.forall₂_iff_get.mp (mapM_eq_ok.mp h)
  rw [List.length_zipIdx] at count
  refine ⟨count.symm, fun i a found => ?_⟩
  obtain ⟨inside, rfl⟩ := List.getElem?_eq_some_iff.mp found
  have here := each i (by rw [List.length_zipIdx]; omega) inside
  simp only [List.get_eq_getElem, List.getElem_zipIdx, Nat.zero_add] at here
  exact ⟨_, here⟩

def Control.fields (control : Control) : Fields :=
  [("schema_version", .string REQUEST_CONTROL_SCHEMA),
    ("request_sha256", .string control.requestSha256),
    ("revisions", .array (control.revisions.map Revision.toJson)),
    ("cancellation", (control.cancellation.map Cancellation.toJson).getD .null),
    ("reservations", .array (control.reservations.map Reservation.toJson)),
    ("operations", .array (control.operations.map OperationReceipt.toJson))]

private theorem readControlFields_fields {entry : Fields} {original control : Control}
    (h : control.Valid host entry original) :
    readControlFields host entry control.fields original = .ok control := by
  have revisions : ((control.revisions.map Revision.toJson).zipIdx.mapM
      fun (value, index) => readRevision host value index) = .ok control.revisions :=
    mapM_zipIdx_toJson fun i r found => readRevision_toJson (h.revisions.2 i r found)
  have reservations : ((control.reservations.map Reservation.toJson).zipIdx.mapM
      fun (value, index) => readReservation host entry control.revisions value index) =
        .ok control.reservations :=
    mapM_zipIdx_toJson fun i r found => readReservation_toJson (h.reservations.2 i r found)
  have operations : (control.operations.map OperationReceipt.toJson).mapM readOperation =
      .ok control.operations :=
    mapM_eq_ok.mpr (List.forall₂_map_left_iff.mpr (List.forall₂_same.mpr fun o mem =>
      readOperation_toJson (h.operations.2 o mem)))
  have conversation : !isConversation entry ∨ control.reservations = [] := by
    cases known : isConversation entry with
    | false => exact Or.inl rfl
    | true => exact Or.inr (h.conversation known)
  rw [readControlFields, controlKeys_of (by simp [Control.fields, lookup_cons_ite]), ok_bind]
  simp only [Control.fields, lookup_cons_ite, String.reduceEq, if_true, if_false]
  rw [ensure_of (by rw [h.requestSha256]; exact ⟨trivial, rfl⟩), ok_bind,
    boundedArray_eq_ok.2 ⟨rfl, by rw [List.length_map]; exact h.revisions.1⟩, ok_bind, revisions,
    ok_bind, ensure_of h.declared, ok_bind,
    boundedArray_eq_ok.2 ⟨rfl, by rw [List.length_map]; exact h.reservations.1⟩, ok_bind,
    reservations, ok_bind, ensure_of conversation, ok_bind, ensure_of h.ordered, ok_bind,
    readCancellation_toJson h.cancellation, ok_bind,
    boundedArray_eq_ok.2 ⟨rfl, by rw [List.length_map]; exact h.operations.1⟩, ok_bind,
    operations, ok_bind, ensure_of h.distinct, ok_bind, ← h.requestSha256]

private theorem valid_of_readControlFields {entry raw : Fields} {original control : Control}
    (h : readControlFields host entry raw original = .ok control) :
    control.Valid host entry original := by
  obtain ⟨_, _, h⟩ := bind_eq_ok.mp h
  obtain ⟨_, _, h⟩ := bind_eq_ok.mp h
  obtain ⟨items, hitems, h⟩ := bind_eq_ok.mp h
  obtain ⟨revisions, hrevisions, h⟩ := bind_eq_ok.mp h
  obtain ⟨_, declared, h⟩ := bind_eq_ok.mp h
  obtain ⟨rows, hrows, h⟩ := bind_eq_ok.mp h
  obtain ⟨reservations, hreservations, h⟩ := bind_eq_ok.mp h
  obtain ⟨_, conversation, h⟩ := bind_eq_ok.mp h
  obtain ⟨_, ordered, h⟩ := bind_eq_ok.mp h
  obtain ⟨cancellation, hcancellation, h⟩ := bind_eq_ok.mp h
  obtain ⟨receipts, hreceipts, h⟩ := bind_eq_ok.mp h
  obtain ⟨operations, hoperations, h⟩ := bind_eq_ok.mp h
  obtain ⟨_, distinct, h⟩ := bind_eq_ok.mp h
  obtain rfl := Except.ok.inj h
  obtain ⟨count, eachRevision⟩ := of_mapM_zipIdx hrevisions
  obtain ⟨count', eachReservation⟩ := of_mapM_zipIdx hreservations
  have eachOperation := mapM_eq_ok.mp hoperations
  refine ⟨rfl, ⟨count.le.trans (boundedArray_eq_ok.1 hitems).2, fun i r found => ?_⟩,
    ensure_eq_ok.mp declared, ⟨count'.le.trans (boundedArray_eq_ok.1 hrows).2,
      fun i r found => ?_⟩, fun known => ?_, ensure_eq_ok.mp ordered,
    valid_of_readCancellation hcancellation,
    ⟨eachOperation.length_eq.ge.trans (boundedArray_eq_ok.1 hreceipts).2, fun o mem => ?_⟩,
    ensure_eq_ok.mp distinct⟩
  · obtain ⟨value, read⟩ := eachRevision i r found
    exact valid_of_readRevision read
  · obtain ⟨value, read⟩ := eachReservation i r found
    exact valid_of_readReservation read
  · rcases ensure_eq_ok.mp conversation with not | none
    · rw [known] at not
      cases not
    · exact none
  · obtain ⟨i, inside, rfl⟩ := List.mem_iff_getElem.mp mem
    obtain ⟨size, each⟩ := List.forall₂_iff_get.mp eachOperation
    exact valid_of_readOperation (each i (size.trans_gt inside) inside)

private theorem initial_valid {entry : Fields} {original : Control}
    (h : initial host entry = .ok original) : original.Valid host entry original := by
  obtain ⟨_, _, h⟩ := bind_eq_ok.mp h
  obtain ⟨_, _, h⟩ := bind_eq_ok.mp h
  obtain ⟨_, _, h⟩ := bind_eq_ok.mp h
  obtain ⟨brief, hbrief, h⟩ := bind_eq_ok.mp h
  obtain ⟨createdAt, hcreated, h⟩ := bind_eq_ok.mp h
  obtain rfl := Except.ok.inj h
  have reason : isControlText 2000 "Original request" = true := by decide
  have first : (⟨1, brief, "Original request", createdAt, none, none⟩ : Revision).Valid host 0 :=
    ⟨rfl, normal_of_normalizeCollaborationBrief hbrief, reason, (timestamp_eq_ok.1 hcreated).2,
      by simp, by simp⟩
  refine ⟨rfl, ⟨by simp [MAX_REVISIONS], fun i r found => ?_⟩, ?_, ⟨Nat.zero_le _, by simp⟩,
    fun _ => rfl, by simp [reservationsOrdered], by simp, ⟨Nat.zero_le _, by simp⟩, by simp⟩
  · cases i with
    | zero =>
      obtain rfl := Option.some.inj found
      exact first
    | succ i => simp at found
  · simp [keepsOriginal, sameJson_self]

/-- A valid record is written and read back as it is. -/
theorem readRequestControl_withControl {entry : Fields} {original control : Control}
    (declared : initial host entry = .ok original) (h : control.Valid host entry original) :
    readRequestControl host (withControl entry control) = .ok control := by
  rw [readRequestControl, initial_withControl, declared, ok_bind, lookup_withControl_self]
  simp only [Control.toJson, requireJsonObject, ok_bind, readControlFields_withControl]
  exact readControlFields_fields h

/-- What the strict reader accepts is valid. -/
theorem valid_of_readRequestControl {entry : Fields} {control : Control}
    (h : readRequestControl host entry = .ok control) :
    ∃ original, initial host entry = .ok original ∧ control.Valid host entry original := by
  obtain ⟨original, declared, h⟩ := bind_eq_ok.mp h
  refine ⟨original, declared, ?_⟩
  split at h
  · obtain rfl := Except.ok.inj h
    exact initial_valid declared
  · obtain ⟨raw, _, h⟩ := bind_eq_ok.mp h
    exact valid_of_readControlFields h

end

end Loopx.Collaboration
