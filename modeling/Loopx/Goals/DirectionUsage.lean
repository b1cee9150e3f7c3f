/- GID: Loopx/Goals/DirectionUsage
   generality: I
   source: loopx/control_plane/goals/direction_authority.ts
   digest: The retained material usage of a Goal: its reader, its clock and its capacity rule. -/

import Loopx.Goals.DirectionRoundTrip
import Loopx.Todos.Timestamp

set_option autoImplicit false
set_option relaxedAutoImplicit false

namespace Loopx.Goals.Direction

open Loopx.Lib.KeyedList
open Loopx.Lib.Fallible (bind_eq_ok ok_bind throwWhen throwWhen_eq_ok throwWhen_of_not mapM_eq_ok)
open Loopx.Json (JsNumber Protocol canonicalAuthorityJson canonicalAuthorityJson_object
  canonicalAuthorityJson_array)
open Loopx.Authority (Sha256 canonicalAuthoritySha256)
open Loopx.Todos (civilFromDays padded isLineTerminator)

/-- One observation of a material by an agent. It was read exactly when it has a revision. -/
structure Receipt where
  receiptId : String
  agentId : String
  materialId : String
  observedRevision : Option String
  recordedAt : String
deriving DecidableEq

namespace Receipt

def outcome (receipt : Receipt) : String :=
  if receipt.observedRevision.isSome then "read" else "unavailable"

def fields (receipt : Receipt) (goalRef : WireExactGoalRef) : Fields :=
  [("schema_version", .string "material_usage_receipt_v0"),
    ("receipt_id", .string receipt.receiptId), ("goal_id", .string goalRef.goalId),
    ("agent_id", .string receipt.agentId), ("material_id", .string receipt.materialId),
    ("todo_id", .null),
    ("observed_revision", match receipt.observedRevision with
      | some revision => .string revision
      | none => .null),
    ("outcome", .string receipt.outcome), ("recorded_at", .string receipt.recordedAt)]

def toJson (receipt : Receipt) (goalRef : WireExactGoalRef) : Json :=
  .object (receipt.fields goalRef)

end Receipt

/-- A receipt under the read operation it came from. -/
structure UsageRecord where
  receipt : Receipt
  readOperationId : String
  deliveryDigest : String
deriving DecidableEq

namespace UsageRecord

def fields (record : UsageRecord) (goalRef : WireExactGoalRef) : Fields :=
  [("schema_version", .string USAGE_SCHEMA), ("goal_ref", goalRef.toJson),
    ("receipt", record.receipt.toJson goalRef),
    ("read_operation_id", .string record.readOperationId),
    ("delivery_digest", .string record.deliveryDigest)]

def toJson (record : UsageRecord) (goalRef : WireExactGoalRef) : Json :=
  .object (record.fields goalRef)

end UsageRecord

/-! ## The reader -/

/-- `/^\d{4}-\d{2}-\d{2}T/`, with what follows it. -/
def datePrefix? (cs : List Char) : Option (List Char) :=
  if (cs.take 11).length = 11 ∧ (cs.take 4).all Char.isDigit ∧ cs[4]? = some '-' ∧
      ((cs.drop 5).take 2).all Char.isDigit ∧ cs[7]? = some '-' ∧
      ((cs.drop 8).take 2).all Char.isDigit ∧ cs[10]? = some 'T' then some (cs.drop 11)
  else none

/-- `/.*(?:Z|[+-]\d{2}:\d{2})$/`, from the front. -/
def isZonedTime (cs : List Char) : Bool :=
  let offset := cs.drop (cs.length - 6)
  (cs.getLast? = some 'Z' && cs.dropLast.all fun c => !isLineTerminator c) ||
    (decide (offset.length = 6) && (offset[0]? = some '+' || offset[0]? = some '-') &&
      ((offset.drop 1).take 2).all Char.isDigit && offset[3]? = some ':' &&
      (offset.drop 4).all Char.isDigit &&
      (cs.take (cs.length - 6)).all fun c => !isLineTerminator c)

def isRecordedAt (s : String) : Bool :=
  match datePrefix? s.toList with
  | some rest => isZonedTime rest
  | none => false

variable (dateParse : String → Option Int)

def recordedAt (value : Option Json) : Protocol String :=
  match value with
  | some (.string s) =>
    if isRecordedAt s && (dateParse s).isSome then .ok s
    else .error "usage receipt timestamp invalid"
  | _ => .error "usage receipt timestamp invalid"

def observedRevision (receipt : Fields) : Protocol (Option String) :=
  match receipt.lookup "outcome", receipt.lookup "observed_revision" with
  | some (.string "unavailable"), some .null => .ok none
  | some (.string "read"), some (.string s) =>
    if isEnvelopedSha256 s then .ok (some s) else .error "usage receipt revision invalid"
  | _, _ => .error "usage receipt revision invalid"

def receiptKeys : List String :=
  ["schema_version", "receipt_id", "goal_id", "agent_id", "material_id", "todo_id",
    "observed_revision", "outcome", "recorded_at"]

/-- What the reader returns of a row. -/
def readReceipt (goalRef : WireExactGoalRef) (row : Json) : Protocol Receipt := do
  let value ← authorityFields (some row) "scoped material usage"
  directionKeys value ["schema_version", "goal_ref", "receipt", "read_operation_id",
    "delivery_digest"] []
  throwWhen (value.lookup "schema_version" ≠ some (.string USAGE_SCHEMA))
    "usage receipt belongs to another Goal lifetime"
  let rowRef ← parseWireExactGoalRef (value.lookup "goal_ref") "usage scope"
  throwWhen (¬sameExactGoalRef rowRef goalRef) "usage receipt belongs to another Goal lifetime"
  let _ ← token (value.lookup "read_operation_id") "read operation"
  let _ ← hash (value.lookup "delivery_digest")
  let receipt ← authorityFields (value.lookup "receipt") "material usage receipt"
  directionKeys receipt receiptKeys []
  throwWhen (¬(receipt.lookup "schema_version" = some (.string "material_usage_receipt_v0") ∧
      receipt.lookup "goal_id" = some (.string goalRef.goalId) ∧
      receipt.lookup "todo_id" = some .null ∧
      (receipt.lookup "outcome" = some (.string "read") ∨
        receipt.lookup "outcome" = some (.string "unavailable"))))
    "invalid material observation receipt"
  let agent ← token (receipt.lookup "agent_id") "receipt Agent"
  let material ← token (receipt.lookup "material_id") "receipt material"
  let id ← token (receipt.lookup "receipt_id") "receipt id"
  let recorded ← recordedAt dateParse (receipt.lookup "recorded_at")
  let observed ← observedRevision receipt
  .ok ⟨id, agent, material, observed, recorded⟩

/-- The loop over the rows, over the identities it has seen. -/
def usageRows (goalRef : WireExactGoalRef) : List String → List Json → Protocol (List Receipt)
  | _, [] => .ok []
  | seen, row :: rows => do
    let receipt ← readReceipt dateParse goalRef row
    throwWhen (receipt.receiptId ∈ seen) "duplicate usage receipt identity"
    let receipts ← usageRows goalRef (receipt.receiptId :: seen) rows
    .ok (receipt :: receipts)

/-- `head.material_usage_receipts ?? []`. -/
def usageItems (head : Fields) : Protocol (List Json) :=
  match head.lookup "material_usage_receipts" with
  | none => .ok []
  | some .null => .ok []
  | some (.array items) =>
    if items.length ≤ maxReceipts then .ok items
    else .error "material usage receipt capacity exceeded"
  | some _ => .error "material usage receipt capacity exceeded"

def usage (head : Fields) (goalRef : WireExactGoalRef) : Protocol (List Receipt) := do
  let items ← usageItems head
  usageRows dateParse goalRef [] items

/-! ## Retaining one more record -/

variable (isPrivate : String → Bool)

def samePair (receipt : Receipt) (agentId materialId : String) : Bool :=
  receipt.agentId = agentId && receipt.materialId = materialId

/-- The next generation of the scope, within the safe integers. -/
def nextGeneration (scope : DirectionScope) : Protocol Nat :=
  if scope.generation + 1 ≤ JsNumber.maxSafeInteger then .ok (scope.generation + 1)
  else .error "material usage generation capacity exceeded"

/-- The first retained row of the record's pair. -/
def archiveIndex (rows : List Receipt) (receipt : Receipt) : Protocol Nat :=
  match rows.findIdx? fun row => samePair row receipt.agentId receipt.materialId with
  | some index => .ok index
  | none => .error ("material usage capacity exceeded; no retained observation for this " ++
      "Agent/material can be archived")

/-- `scope(next, goalRef)!`. -/
def configuredScope (sha : Sha256) (head : Fields) (goalRef : WireExactGoalRef) :
    Protocol DirectionScope := do
  match ← scope isPrivate sha head goalRef with
  | some configured => .ok configured
  | none => .error "Cannot read properties of null (reading 'usage_generation')"

/-- The scope that an archived record leaves. -/
def DirectionScope.advanced (scope : DirectionScope) (generation : Nat) : DirectionScope :=
  { scope with usageGeneration := some (.number (JsNumber.ofNat generation)) }

/-- The head that retains the record, and the row that was archived for it. -/
def retainUsage (sha : Sha256) (next : Fields) (goalRef : WireExactGoalRef)
    (record : UsageRecord) : Protocol (Fields × Option Json) := do
  let rows ← usage dateParse next goalRef
  let retained ← usageItems next
  if rows.length = maxReceipts then do
    let index ← archiveIndex rows record.receipt
    let configured ← configuredScope isPrivate sha next goalRef
    let generation ← nextGeneration configured
    .ok (setKey (setKey next "goal_direction_scope"
        ((configured.advanced generation).toJson goalRef)) "material_usage_receipts"
      (.array (retained.eraseIdx index ++ [record.toJson goalRef])), retained[index]?)
  else
    .ok (setKey next "material_usage_receipts"
      (.array (retained ++ [record.toJson goalRef])), none)

/-- The retained receipts of one agent and material, in order. -/
def pairRows (rows : List Receipt) (agentId materialId : String) : List Receipt :=
  rows.filter fun row => samePair row agentId materialId

/-- What `usageBasis` takes its digest of. -/
def usageBasisJson (goalRef : WireExactGoalRef) (rows : List Receipt)
    (agentId materialId : String) : Json :=
  .array ((pairRows rows agentId materialId).map fun row => row.toJson goalRef)

def usageBasis (sha : Sha256) (goalRef : WireExactGoalRef) (rows : List Receipt)
    (agentId materialId : String) : String :=
  canonicalAuthoritySha256 sha (usageBasisJson goalRef rows agentId materialId)

/-! ## The clock of the records -/

/-- The latest recorded instant. -/
def latestRecorded (rows : List Receipt) : Option Int :=
  (rows.filterMap fun row => dateParse row.recordedAt).max?

/-- `Math.max(Date.parse(now), prior + 1)`. -/
def recordingInstant (rows : List Receipt) (now : String) : Option Int :=
  (dateParse now).map fun milliseconds =>
    match latestRecorded dateParse rows with
    | some prior => max milliseconds (prior + 1)
    | none => milliseconds

/-- `new Date(milliseconds).toISOString()`, `none` where it throws a `RangeError`. -/
def toISOString (milliseconds : Int) : Option String :=
  if 8640000000000000 < milliseconds.natAbs then none
  else
    let date := civilFromDays (milliseconds / 86400000)
    let ofDay := (milliseconds % 86400000).toNat
    some ((if 0 ≤ date.1 ∧ date.1 ≤ 9999 then padded 4 date.1.toNat
        else (if date.1 < 0 then "-" else "+") ++ padded 6 date.1.natAbs) ++
      "-" ++ padded 2 date.2.1 ++ "-" ++ padded 2 date.2.2 ++ "T" ++
      padded 2 (ofDay / 3600000) ++ ":" ++ padded 2 (ofDay / 60000 % 60) ++ ":" ++
      padded 2 (ofDay / 1000 % 60) ++ "." ++ padded 3 (ofDay % 1000) ++ "Z")

example : toISOString 1893459600000 = some "2030-01-01T01:00:00.000Z" := by decide +kernel

/-- The text starts with a year of four digits. -/
def hasPlainYear (s : String) : Bool :=
  decide ((s.toList.take 4).length = 4) && (s.toList.take 4).all Char.isDigit &&
    s.toList[4]? = some '-'

def usageRecordedAt (rows : List Receipt) (now : String) : Protocol String :=
  match (recordingInstant dateParse rows now).bind toISOString with
  | some recorded =>
    if hasPlainYear recorded then .ok recorded
    else .error "material usage timestamp capacity exceeded"
  | none => .error "Invalid time value"

/-! ## Reading rows -/

variable {dateParse} {isPrivate}

/-- The reader accepts the rows that it can read one by one under identities of their own. -/
theorem usageRows_eq_ok {goalRef : WireExactGoalRef} {seen : List String} {items : List Json}
    {rows : List Receipt} :
    usageRows dateParse goalRef seen items = .ok rows ↔
      List.Forall₂ (fun item row => readReceipt dateParse goalRef item = .ok row) items rows ∧
        (∀ row ∈ rows, row.receiptId ∉ seen) ∧ (rows.map (·.receiptId)).Nodup := by
  induction items generalizing seen rows with
  | nil =>
    rw [usageRows, List.forall₂_nil_left_iff]
    constructor
    · intro h
      obtain rfl := Except.ok.inj h
      simp
    · rintro ⟨rfl, _⟩
      rfl
  | cons item items ih =>
    rw [usageRows, List.forall₂_cons_left_iff]
    constructor
    · intro h
      obtain ⟨row, hrow, h⟩ := bind_eq_ok.mp h
      obtain ⟨_, hfresh, h⟩ := bind_eq_ok.mp h
      obtain ⟨rest, hrest, h⟩ := bind_eq_ok.mp h
      obtain rfl := Except.ok.inj h
      have fresh := throwWhen_eq_ok.mp hfresh
      obtain ⟨read, unseen, nodup⟩ := ih.mp hrest
      refine ⟨⟨row, rest, hrow, read, rfl⟩, ?_, ?_⟩
      · refine List.forall_mem_cons.mpr ⟨fresh, fun r hr hseen => ?_⟩
        exact unseen r hr (List.mem_cons_of_mem _ hseen)
      · refine List.nodup_cons.mpr ⟨fun hmem => ?_, nodup⟩
        obtain ⟨r, hr, same⟩ := List.mem_map.mp hmem
        exact unseen r hr (same ▸ List.mem_cons_self)
    · rintro ⟨⟨row, rest, hrow, read, rfl⟩, unseen, nodup⟩
      obtain ⟨fresh, later⟩ := List.forall_mem_cons.mp unseen
      obtain ⟨other, nodup⟩ := List.nodup_cons.mp nodup
      have hrest : usageRows dateParse goalRef (row.receiptId :: seen) items = .ok rest := by
        refine ih.mpr ⟨read, fun r hr hmem => ?_, nodup⟩
        rcases List.mem_cons.mp hmem with same | hseen
        · exact other (List.mem_map.mpr ⟨r, hr, same⟩)
        · exact later r hr hseen
      rw [hrow, ok_bind, throwWhen_of_not fresh, ok_bind, hrest, ok_bind]

theorem usage_eq_ok {head : Fields} {goalRef : WireExactGoalRef} {rows : List Receipt} :
    usage dateParse head goalRef = .ok rows ↔ ∃ items, usageItems head = .ok items ∧
      List.Forall₂ (fun item row => readReceipt dateParse goalRef item = .ok row) items rows ∧
        (rows.map (·.receiptId)).Nodup := by
  rw [usage, bind_eq_ok]
  constructor
  · rintro ⟨items, hitems, h⟩
    obtain ⟨read, _, nodup⟩ := usageRows_eq_ok.1 h
    exact ⟨items, hitems, read, nodup⟩
  · rintro ⟨items, hitems, read, nodup⟩
    exact ⟨items, hitems, usageRows_eq_ok.2 ⟨read, fun _ _ => List.not_mem_nil, nodup⟩⟩

/-- A row reads as its canonical form does. -/
theorem readReceipt_canonical (goalRef : WireExactGoalRef) (row : Json) :
    readReceipt dateParse goalRef (canonicalAuthorityJson row) =
      readReceipt dateParse goalRef row := by
  rw [readReceipt, readReceipt, ← Option.map_some (f := canonicalAuthorityJson),
    authorityFields_canonical]

theorem usageItems_of_canonical {left right : Fields}
    (h : AgreeAt "material_usage_receipts" left right) {items : List Json}
    (hitems : usageItems left = .ok items) :
    ∃ items', usageItems right = .ok items' ∧
      items'.map canonicalAuthorityJson = items.map canonicalAuthorityJson := by
  unfold usageItems at hitems
  rw [AgreeAt] at h
  split at hitems
  · rename_i absent
    have absent' : right.lookup "material_usage_receipts" = none := by
      simpa [absent] using h.symm
    exact ⟨[], by rw [usageItems, absent'], by rw [← Except.ok.inj hitems]⟩
  · rename_i null
    cases hr : right.lookup "material_usage_receipts" with
    | none => simp [null, hr] at h
    | some value =>
      cases value <;> simp [null, hr, canonicalAuthorityJson] at h
      exact ⟨[], by rw [usageItems, hr], by rw [← Except.ok.inj hitems]⟩
  · rename_i array
    split at hitems
    · rename_i bounded
      rw [Except.ok.inj hitems] at bounded array
      cases hr : right.lookup "material_usage_receipts" with
      | none => simp [array, hr] at h
      | some value =>
        rw [array, hr, Option.map_some, Option.map_some, Option.some.injEq] at h
        cases value with
        | array items' =>
          rw [canonicalAuthorityJson_array, canonicalAuthorityJson_array, Json.array.injEq] at h
          have length := congrArg List.length h
          rw [List.length_map, List.length_map] at length
          refine ⟨items', ?_, h.symm⟩
          rw [usageItems, hr]
          exact if_pos (length ▸ bounded)
        | _ => simp [canonicalAuthorityJson] at h
    · cases hitems
  · cases hitems

/-- The usage of a head is read from its rows alone, up to their canonical form. -/
theorem usage_of_agree {left right : Fields} (h : AgreeAt "material_usage_receipts" left right)
    {goalRef : WireExactGoalRef} {rows : List Receipt}
    (hrows : usage dateParse left goalRef = .ok rows) :
    usage dateParse right goalRef = .ok rows := by
  obtain ⟨items, hitems, read, nodup⟩ := usage_eq_ok.1 hrows
  obtain ⟨items', hitems', same⟩ := usageItems_of_canonical h hitems
  refine usage_eq_ok.2 ⟨items', hitems', ?_, nodup⟩
  have read' : List.Forall₂ (fun item row => readReceipt dateParse goalRef item = .ok row)
      (items.map canonicalAuthorityJson) rows := by
    rw [List.forall₂_map_left_iff]
    exact read.imp fun item row hrow => (readReceipt_canonical goalRef item).trans hrow
  rw [← same, List.forall₂_map_left_iff] at read'
  exact read'.imp fun item row hrow => (readReceipt_canonical goalRef item).symm.trans hrow

/-! ## Reading what was written -/

theorem receipt_reads (receipt : Receipt) (goalRef : WireExactGoalRef) (key : String) :
    (storedFields (receipt.fields goalRef)).lookup key =
      ((receipt.fields goalRef).lookup key).map canonicalAuthorityJson := by
  have names : keys (receipt.fields goalRef) = receiptKeys := rfl
  have nodup : (keys (receipt.fields goalRef)).Nodup := by
    rw [names]
    decide
  exact Json.lookup_canonicalFields nodup key

theorem record_reads (record : UsageRecord) (goalRef : WireExactGoalRef) (key : String) :
    (storedFields (record.fields goalRef)).lookup key =
      ((record.fields goalRef).lookup key).map canonicalAuthorityJson := by
  have names : keys (record.fields goalRef) = ["schema_version", "goal_ref", "receipt",
      "read_operation_id", "delivery_digest"] := rfl
  have nodup : (keys (record.fields goalRef)).Nodup := by
    rw [names]
    decide
  exact Json.lookup_canonicalFields nodup key

private theorem recordedAt_eq_ok {value : Option Json} {s : String}
    (h : recordedAt dateParse value = .ok s) :
    value = some (.string s) ∧ (dateParse s).isSome = true := by
  unfold recordedAt at h
  split at h
  · split at h
    · rename_i accepted
      obtain rfl := Except.ok.inj h
      rw [Bool.and_eq_true] at accepted
      exact ⟨rfl, accepted.2⟩
    · cases h
  · cases h

/-- What the reader took from a row that it accepts. -/
private theorem readReceipt_eq_ok {goalRef : WireExactGoalRef} {row : Json} {receipt : Receipt}
    (h : readReceipt dateParse goalRef row = .ok receipt) :
    ∃ value fields, authorityFields (some row) "scoped material usage" = .ok value ∧
      authorityFields (value.lookup "receipt") "material usage receipt" = .ok fields ∧
      fields.lookup "agent_id" = some (.string receipt.agentId) ∧
      fields.lookup "material_id" = some (.string receipt.materialId) ∧
      fields.lookup "receipt_id" = some (.string receipt.receiptId) ∧
      fields.lookup "recorded_at" = some (.string receipt.recordedAt) ∧
      (dateParse receipt.recordedAt).isSome = true ∧
      observedRevision fields = .ok receipt.observedRevision := by
  obtain ⟨value, hvalue, h⟩ := bind_eq_ok.mp h
  obtain ⟨_, _, h⟩ := bind_eq_ok.mp h
  obtain ⟨_, _, h⟩ := bind_eq_ok.mp h
  obtain ⟨_, _, h⟩ := bind_eq_ok.mp h
  obtain ⟨_, _, h⟩ := bind_eq_ok.mp h
  obtain ⟨_, _, h⟩ := bind_eq_ok.mp h
  obtain ⟨_, _, h⟩ := bind_eq_ok.mp h
  obtain ⟨fields, hfields, h⟩ := bind_eq_ok.mp h
  obtain ⟨_, _, h⟩ := bind_eq_ok.mp h
  obtain ⟨_, _, h⟩ := bind_eq_ok.mp h
  obtain ⟨agent, hagent, h⟩ := bind_eq_ok.mp h
  obtain ⟨material, hmaterial, h⟩ := bind_eq_ok.mp h
  obtain ⟨id, hid, h⟩ := bind_eq_ok.mp h
  obtain ⟨recorded, hrecorded, h⟩ := bind_eq_ok.mp h
  obtain ⟨observed, hobserved, h⟩ := bind_eq_ok.mp h
  obtain rfl := Except.ok.inj h
  obtain ⟨sameRecorded, parses⟩ := recordedAt_eq_ok hrecorded
  exact ⟨value, fields, hvalue, hfields, (token_eq_ok.mp hagent).1, (token_eq_ok.mp hmaterial).1,
    (token_eq_ok.mp hid).1, sameRecorded, parses, hobserved⟩

/-- A retained instant is one that the clock reads. -/
theorem isSome_of_readReceipt {goalRef : WireExactGoalRef} {row : Json} {receipt : Receipt}
    (h : readReceipt dateParse goalRef row = .ok receipt) :
    (dateParse receipt.recordedAt).isSome = true := by
  obtain ⟨_, _, _, _, _, _, _, _, parses, _⟩ := readReceipt_eq_ok h
  exact parses

theorem receipt_texts (receipt : Receipt) (goalRef : WireExactGoalRef) :
    (storedFields (receipt.fields goalRef)).lookup "agent_id" = some (.string receipt.agentId) ∧
    (storedFields (receipt.fields goalRef)).lookup "material_id" =
      some (.string receipt.materialId) ∧
    (storedFields (receipt.fields goalRef)).lookup "receipt_id" =
      some (.string receipt.receiptId) ∧
    (storedFields (receipt.fields goalRef)).lookup "recorded_at" =
      some (.string receipt.recordedAt) := by
  refine ⟨?_, ?_, ?_, ?_⟩ <;> rw [receipt_reads] <;>
    simp [Receipt.fields, List.lookup_cons, canonicalAuthorityJson]

private theorem observedRevision_written {receipt : Receipt} {goalRef : WireExactGoalRef}
    {observed : Option String}
    (h : observedRevision (storedFields (receipt.fields goalRef)) = .ok observed) :
    observed = receipt.observedRevision := by
  unfold observedRevision at h
  simp only [receipt_reads] at h
  cases hrevision : receipt.observedRevision with
  | none =>
    simp [Receipt.fields, Receipt.outcome, List.lookup_cons, hrevision, canonicalAuthorityJson] at h
    exact h.symm
  | some revision =>
    simp [Receipt.fields, Receipt.outcome, List.lookup_cons, hrevision, canonicalAuthorityJson] at h
    split at h
    · exact (Except.ok.inj h).symm
    · cases h

/-- A record that reads at all reads as the receipt that was written. -/
theorem readReceipt_written {goalRef : WireExactGoalRef} {record : UsageRecord}
    {receipt : Receipt} (h : readReceipt dateParse goalRef (record.toJson goalRef) = .ok receipt) :
    receipt = record.receipt := by
  obtain ⟨value, fields, hvalue, hfields, hagent, hmaterial, hid, hrecorded, _, hobserved⟩ :=
    readReceipt_eq_ok h
  rw [UsageRecord.toJson, authorityFields_object] at hvalue
  obtain rfl := Except.ok.inj hvalue
  have stored : (storedFields (record.fields goalRef)).lookup "receipt" =
      (some (record.receipt.toJson goalRef)).map canonicalAuthorityJson := by
    rw [record_reads]
    simp [UsageRecord.fields, List.lookup_cons]
  rw [stored, authorityFields_canonical, Receipt.toJson, authorityFields_object] at hfields
  obtain rfl := Except.ok.inj hfields
  obtain ⟨agent, material, id, recorded⟩ := receipt_texts record.receipt goalRef
  have sameAgent : record.receipt.agentId = receipt.agentId := by
    simpa using agent.symm.trans hagent
  have sameMaterial : record.receipt.materialId = receipt.materialId := by
    simpa using material.symm.trans hmaterial
  have sameId : record.receipt.receiptId = receipt.receiptId := by
    simpa using id.symm.trans hid
  have sameRecorded : record.receipt.recordedAt = receipt.recordedAt := by
    simpa using recorded.symm.trans hrecorded
  have sameObserved := observedRevision_written hobserved
  cases receipt
  simp only at sameAgent sameMaterial sameId sameRecorded sameObserved
  rw [← sameAgent, ← sameMaterial, ← sameId, ← sameRecorded, sameObserved]

/-! ## The pair's digest -/

private theorem receipt_of_canonical {goalRef : WireExactGoalRef} {left right : Receipt}
    (h : canonicalAuthorityJson (left.toJson goalRef) =
      canonicalAuthorityJson (right.toJson goalRef)) : left = right := by
  have same : storedFields (left.fields goalRef) = storedFields (right.fields goalRef) := by
    rw [Receipt.toJson, Receipt.toJson, ← object_storedFields, ← object_storedFields] at h
    exact Json.object.inj h
  obtain ⟨agent, material, id, recorded⟩ := receipt_texts left goalRef
  obtain ⟨agent', material', id', recorded'⟩ := receipt_texts right goalRef
  rw [same] at agent material id recorded
  have observed : left.observedRevision = right.observedRevision := by
    have stored := receipt_reads left goalRef "observed_revision"
    rw [same, receipt_reads right goalRef "observed_revision"] at stored
    cases hl : left.observedRevision <;> cases hr : right.observedRevision <;>
      simp [Receipt.fields, List.lookup_cons, hl, hr, canonicalAuthorityJson] at stored
    · rfl
    · rw [stored]
  cases left
  cases right
  simp only [agent, Option.some.injEq, Json.string.injEq] at agent'
  simp only [material, Option.some.injEq, Json.string.injEq] at material'
  simp only [id, Option.some.injEq, Json.string.injEq] at id'
  simp only [recorded, Option.some.injEq, Json.string.injEq] at recorded'
  simp only at observed
  rw [agent', material', id', recorded', observed]

/-- The document under the pair's digest gives the pair's receipts back. -/
theorem pairRows_of_canonical {goalRef : WireExactGoalRef} {rows rows' : List Receipt}
    {agentId materialId : String}
    (h : canonicalAuthorityJson (usageBasisJson goalRef rows agentId materialId) =
      canonicalAuthorityJson (usageBasisJson goalRef rows' agentId materialId)) :
    pairRows rows agentId materialId = pairRows rows' agentId materialId := by
  rw [usageBasisJson, usageBasisJson, canonicalAuthorityJson_array, canonicalAuthorityJson_array,
    Json.array.injEq, List.map_map, List.map_map] at h
  refine List.map_injective_iff.mpr ?_ h
  exact fun left right same => receipt_of_canonical same

/-! ## Retaining -/

private theorem forall₂_snoc {A B : Type} {R : A → B → Prop} {as : List A} {a : A} {bs : List B}
    (h : List.Forall₂ R (as ++ [a]) bs) :
    ∃ front last, bs = front ++ [last] ∧ List.Forall₂ R as front ∧ R a last := by
  induction as generalizing bs with
  | nil =>
    obtain ⟨last, rest, related, hrest, rfl⟩ := List.forall₂_cons_left_iff.mp h
    obtain rfl := List.forall₂_nil_left_iff.mp hrest
    exact ⟨[], last, rfl, List.Forall₂.nil, related⟩
  | cons x as ih =>
    obtain ⟨y, rest, related, hrest, rfl⟩ := List.forall₂_cons_left_iff.mp h
    obtain ⟨front, last, rfl, hfront, hlast⟩ := ih hrest
    exact ⟨y :: front, last, rfl, List.Forall₂.cons related hfront, hlast⟩

private theorem forall₂_eraseIdx {A B : Type} {R : A → B → Prop} {as : List A} {bs : List B}
    (h : List.Forall₂ R as bs) (index : Nat) :
    List.Forall₂ R (as.eraseIdx index) (bs.eraseIdx index) := by
  induction h generalizing index with
  | nil => exact List.Forall₂.nil
  | cons related rest ih =>
    cases index with
    | zero => exact rest
    | succ index => exact List.Forall₂.cons related (ih index)

/-- The rows that one more record of the pair leaves: all of them while there is room, else all
but the pair's first. -/
inductive Retained (rows : List Receipt) (receipt : Receipt) : Option Receipt → List Receipt → Prop
  | appended (room : rows.length < maxReceipts) :
      Retained rows receipt none (rows ++ [receipt])
  | displaced {front back : List Receipt} {oldest : Receipt} (split : rows = front ++ oldest :: back)
      (pair : samePair oldest receipt.agentId receipt.materialId = true)
      (first : ∀ row ∈ front, ¬samePair row receipt.agentId receipt.materialId) :
      Retained rows receipt (some oldest) (front ++ back ++ [receipt])

/-- What `retainUsage` makes of a head, once the reader accepts it again. -/
structure RetainedHead (dateParse : String → Option Int) (isPrivate : String → Bool)
    (sha : Sha256) (goalRef : WireExactGoalRef) (next head : Fields) (receipt : Receipt)
    (displaced : Option Receipt) (rows rows' : List Receipt) : Prop where
  read : usage dateParse next goalRef = .ok rows
  retained : Retained rows receipt displaced rows'
  scope : match displaced with
    | none => head.lookup "goal_direction_scope" = next.lookup "goal_direction_scope"
    | some _ => ∃ configured generation,
        scope isPrivate sha next goalRef = .ok (some configured) ∧
        nextGeneration configured = .ok generation ∧
        head.lookup "goal_direction_scope" =
          some ((configured.advanced generation).toJson goalRef)
  others : ∀ key, key ≠ "goal_direction_scope" → key ≠ "material_usage_receipts" →
    head.lookup key = next.lookup key
  nodup : (keys next).Nodup → (keys head).Nodup

private theorem usageItems_written {head : Fields} {items items' : List Json}
    (h : usageItems (setKey head "material_usage_receipts" (.array items)) = .ok items') :
    items' = items := by
  unfold usageItems at h
  rw [lookup_setKey, if_pos rfl] at h
  simp only at h
  split at h
  · exact (Except.ok.inj h).symm
  · cases h

theorem length_le_of_usage {head : Fields} {goalRef : WireExactGoalRef}
    {rows : List Receipt} (h : usage dateParse head goalRef = .ok rows) :
    rows.length ≤ maxReceipts := by
  obtain ⟨items, hitems, read, _⟩ := usage_eq_ok.1 h
  rw [← read.length_eq]
  unfold usageItems at hitems
  split at hitems
  · rw [← Except.ok.inj hitems]
    exact Nat.zero_le _
  · rw [← Except.ok.inj hitems]
    exact Nat.zero_le _
  · split at hitems
    · rename_i bounded
      rwa [← Except.ok.inj hitems]
    · cases hitems
  · cases hitems

private theorem split_of_archiveIndex {rows : List Receipt} {receipt : Receipt} {index : Nat}
    (h : archiveIndex rows receipt = .ok index) :
    ∃ front oldest back, rows = front ++ oldest :: back ∧ front.length = index ∧
      samePair oldest receipt.agentId receipt.materialId = true ∧
      ∀ row ∈ front, ¬samePair row receipt.agentId receipt.materialId := by
  unfold archiveIndex at h
  split at h
  · rename_i found hfound
    obtain rfl := Except.ok.inj h
    obtain ⟨bound, pair, before⟩ := List.findIdx?_eq_some_iff_getElem.mp hfound
    refine ⟨rows.take found, rows[found], rows.drop (found + 1), ?_, ?_, pair, ?_⟩
    · rw [List.getElem_cons_drop, List.take_append_drop]
    · rw [List.length_take]
      omega
    · intro row hrow
      obtain ⟨i, hi, rfl⟩ := List.mem_iff_getElem.mp hrow
      rw [List.length_take] at hi
      rw [List.getElem_take]
      exact before i (by omega)
  · cases h

/-- A retained record is appended to the rows, or displaces the first one of its pair. -/
theorem retainUsage_eq_ok {sha : Sha256} {next head : Fields} {goalRef : WireExactGoalRef}
    {record : UsageRecord} {archived : Option Json} {rows' : List Receipt}
    (h : retainUsage dateParse isPrivate sha next goalRef record = .ok (head, archived))
    (accepted : usage dateParse head goalRef = .ok rows') :
    ∃ displaced rows, RetainedHead dateParse isPrivate sha goalRef next head record.receipt
      displaced rows rows' ∧ archived.isSome = displaced.isSome := by
  obtain ⟨rows, hrows, h⟩ := bind_eq_ok.mp h
  obtain ⟨retained, hretained, h⟩ := bind_eq_ok.mp h
  obtain ⟨items, hitems, read, _⟩ := usage_eq_ok.1 hrows
  obtain rfl : items = retained := Except.ok.inj (hitems.symm.trans hretained)
  obtain ⟨items', hitems', read', _⟩ := usage_eq_ok.1 accepted
  have functional : Relator.RightUnique
      fun item row => readReceipt dateParse goalRef item = .ok row :=
    fun _ _ _ left right => Except.ok.inj (left.symm.trans right)
  split at h
  · rename_i full
    obtain ⟨index, hindex, h⟩ := bind_eq_ok.mp h
    obtain ⟨configured, hconfigured, h⟩ := bind_eq_ok.mp h
    obtain ⟨generation, hgeneration, h⟩ := bind_eq_ok.mp h
    obtain ⟨rfl, rfl⟩ := Prod.mk.inj (Except.ok.inj h)
    obtain rfl := usageItems_written hitems'
    obtain ⟨front, oldest, back, rfl, rfl, pair, first⟩ := split_of_archiveIndex hindex
    obtain ⟨kept, last, rfl, hkept, hlast⟩ := forall₂_snoc read'
    have erased := forall₂_eraseIdx read front.length
    obtain rfl : kept = front ++ back := by
      rw [List.right_unique_forall₂' functional hkept erased]
      simp [List.eraseIdx_append_of_length_le]
    obtain rfl := readReceipt_written hlast
    have inside : front.length < items.length := by
      rw [read.length_eq]
      simp
    refine ⟨some oldest, front ++ oldest :: back,
      ⟨hrows, Retained.displaced rfl pair first, ?_, ?_, ?_⟩, ?_⟩
    · refine ⟨configured, generation, ?_, hgeneration, ?_⟩
      · obtain ⟨found, hfound, h⟩ := bind_eq_ok.mp hconfigured
        cases found with
        | none => cases h
        | some found => rw [hfound, Except.ok.inj h]
      · rw [lookup_setKey, if_neg (by decide), lookup_setKey, if_pos rfl]
    · intro key scopeKey usageKey
      rw [lookup_setKey, if_neg usageKey, lookup_setKey, if_neg scopeKey]
    · exact fun nodup => nodup_keys_setKey (nodup_keys_setKey nodup _ _) _ _
    · rw [List.getElem?_eq_getElem inside]
      rfl
  · rename_i room
    obtain ⟨rfl, rfl⟩ := Prod.mk.inj (Except.ok.inj h)
    obtain rfl := usageItems_written hitems'
    obtain ⟨kept, last, rfl, hkept, hlast⟩ := forall₂_snoc read'
    obtain rfl := List.right_unique_forall₂' functional hkept read
    obtain rfl := readReceipt_written hlast
    have bounded := length_le_of_usage hrows
    refine ⟨none, kept, ⟨hrows, Retained.appended (by omega), ?_, ?_, ?_⟩, rfl⟩
    · exact (lookup_setKey _ _ _ _).trans (if_neg (by decide))
    · intro key _ usageKey
      rw [lookup_setKey, if_neg usageKey]
    · exact fun nodup => nodup_keys_setKey nodup _ _

end Loopx.Goals.Direction
