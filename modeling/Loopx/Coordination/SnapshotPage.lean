/- GID: Loopx/Coordination/SnapshotPage
   generality: I
   source: loopx/control_plane/coordination/canonical_snapshot_page.ts, todos/projection_delivery.ts
   digest: Byte-bounded pages of one canonical snapshot, and what following them reads. -/

import Loopx.Coordination.ProjectionIndex
import Loopx.Json.ByteBudget
import Loopx.Lib.BinarySearch

set_option autoImplicit false
set_option relaxedAutoImplicit false

namespace Loopx.Coordination

open Loopx.Authority
open Loopx.Json (JsNumber Protocol byteLength)
open Loopx.Lib.BinarySearch (lastFitting)
open Loopx.Lib.Fallible (throwWhen)
open Loopx.Lib.KeyedList
open Loopx.Todos (Fields jsTruthy requireJsonObject)

def CANONICAL_SNAPSHOT_PAGE_REQUEST : String :=
  "loopx_canonical_snapshot_page_request_v0"

def CANONICAL_SNAPSHOT_PAGE_RESULT : String :=
  "loopx_canonical_snapshot_page_result_v0"

def CANONICAL_SNAPSHOT_PAGE_BYTES : Nat := 1792 * 1024

def CANONICAL_SNAPSHOT_PAGE_ITEMS : Nat := 4096

def MAX_LOCAL_SNAPSHOT_BYTES : Nat := 64 * 1024 * 1024

def CANONICAL_SNAPSHOT_LOCAL_BYTES : Nat := MAX_LOCAL_SNAPSHOT_BYTES - 2 * 1024 * 1024

structure SnapshotFailure where
  reasonCode : String
  reason : String
deriving DecidableEq, Repr

abbrev SnapshotCheck := Except SnapshotFailure

def requestInvalid (reason : String) : SnapshotFailure :=
  ⟨"canonical_snapshot_request_invalid", reason⟩

/-- An error of a decoder is reported under the code of the request. -/
def decoding {A : Type} (x : Protocol A) : SnapshotCheck A := x.mapError requestInvalid

def changed (reason : String) : SnapshotFailure := ⟨"canonical_snapshot_changed", reason⟩

/-! ## Positions -/

structure Snapshot where
  goalId : String
  storeIdentity : String
  providerRevision : String
  cursor : String
  querySha256 : String
  todoCount : Nat
  leaseCount : Nat
deriving DecidableEq, Repr

structure Position where
  snapshot : Snapshot
  todoOffset : Nat
  leaseOffset : Nat
deriving DecidableEq, Repr

def Snapshot.json (snapshot : Snapshot) : Json :=
  .object [("goal_id", .string snapshot.goalId), ("store_identity", .string snapshot.storeIdentity),
    ("provider_revision", .string snapshot.providerRevision), ("cursor", .string snapshot.cursor),
    ("query_sha256", .string snapshot.querySha256),
    ("todo_count", .number (.ofNat snapshot.todoCount)),
    ("lease_count", .number (.ofNat snapshot.leaseCount))]

def Position.json (position : Position) : Json :=
  .object [("snapshot", position.snapshot.json),
    ("todo_offset", .number (.ofNat position.todoOffset)),
    ("lease_offset", .number (.ofNat position.leaseOffset))]

def positionJson : Option Position → Json
  | none => .null
  | some position => position.json

def count (value : Option Json) : SnapshotCheck Nat :=
  match value with
  | some (.number n) =>
    match n.safeInteger? with
    | some (.ofNat i) => .ok i
    | _ => .error (requestInvalid "snapshot position must be a non-negative safe integer")
  | _ => .error (requestInvalid "snapshot position must be a non-negative safe integer")

def SNAPSHOT_FIELDS : List String :=
  ["goal_id", "store_identity", "provider_revision", "cursor", "query_sha256", "todo_count",
    "lease_count"]

def decodeSnapshot (value : Option Json) : SnapshotCheck Snapshot := do
  let raw ← decoding (requireJsonObject value "snapshot identity")
  throwWhen (hasExactAuthorityKeys raw SNAPSHOT_FIELDS = false)
    (requestInvalid "invalid snapshot fields")
  let goalId ← decoding (requireAuthorityStoreId (raw.lookup "goal_id") "goal id")
  let storeIdentity ← decoding
    (requireAuthorityStoreId (raw.lookup "store_identity") "store identity")
  let providerRevision ← decoding
    (requireAuthorityStoreId (raw.lookup "provider_revision") "provider revision")
  let cursor ← decoding (requireAuthorityStoreId (raw.lookup "cursor") "cursor")
  let querySha256 ← decoding (requireAuthorityStoreId (raw.lookup "query_sha256") "query digest")
  let todoCount ← count (raw.lookup "todo_count")
  let leaseCount ← count (raw.lookup "lease_count")
  .ok ⟨goalId, storeIdentity, providerRevision, cursor, querySha256, todoCount, leaseCount⟩

/-- A continuation advances within the ordered snapshot: leases only after every Todo. -/
def Position.Advances (position : Position) : Prop :=
  position.todoOffset ≤ position.snapshot.todoCount ∧
    position.leaseOffset ≤ position.snapshot.leaseCount ∧
    0 < position.todoOffset + position.leaseOffset ∧
    position.todoOffset + position.leaseOffset <
      position.snapshot.todoCount + position.snapshot.leaseCount ∧
    (position.leaseOffset = 0 ∨ position.todoOffset = position.snapshot.todoCount)

instance : DecidablePred Position.Advances := fun position => by
  unfold Position.Advances
  infer_instance

def decodePosition (value : Json) : SnapshotCheck (Option Position) :=
  if value = .null then .ok none
  else do
    let row ← decoding (requireJsonObject (some value) "snapshot continuation")
    throwWhen (hasExactAuthorityKeys row ["snapshot", "todo_offset", "lease_offset"] = false)
      (requestInvalid "invalid continuation fields")
    let snapshot ← decodeSnapshot (row.lookup "snapshot")
    let todo ← count (row.lookup "todo_offset")
    let lease ← count (row.lookup "lease_offset")
    throwWhen (¬(Position.mk snapshot todo lease).Advances)
      (requestInvalid "continuation must advance within the ordered snapshot")
    .ok (some ⟨snapshot, todo, lease⟩)

/-! ## Readback -/

inductive ProjectionTarget where
  | pinned
  | latest
deriving DecidableEq, Repr

def ProjectionTarget.text : ProjectionTarget → String
  | .pinned => "pinned"
  | .latest => "latest"

structure ProjectionReadback where
  providerRevision : String
  changed : Bool
  attempt : Nat
  target : ProjectionTarget
deriving DecidableEq, Repr

def ProjectionReadback.json (readback : ProjectionReadback) : Json :=
  .object [("provider_revision", .string readback.providerRevision),
    ("changed", .bool readback.changed), ("attempt", .number (.ofNat readback.attempt)),
    ("target", .string readback.target.text)]

def projectionTarget (value : Option Json) : Option ProjectionTarget :=
  if value = some (.string "pinned") then some .pinned
  else if value = some (.string "latest") then some .latest
  else none

def readbackAttempt : Option Json → Option Nat
  | some (.number n) =>
    match n.safeInteger? with
    | some (.ofNat i) => if 1 ≤ i ∧ i ≤ 3 then some i else none
    | _ => none
  | _ => none

def decodeProjectionReadback (value : Json) : Protocol ProjectionReadback :=
  match value with
  | .object row =>
    match row.lookup "provider_revision", row.lookup "changed",
        readbackAttempt (row.lookup "attempt"), projectionTarget (row.lookup "target") with
    | some (.string revision), some (.bool changed), some attempt, some target =>
      if row.length = 4 ∧ IsStoreId revision then .ok ⟨revision, changed, attempt, target⟩
      else .error "invalid projection_readback"
    | _, _, _, _ => .error "invalid projection_readback"
  | _ => .error "projection_readback must be an object"

def confirmProjectionReadback (readback : ProjectionReadback) (observedRevision : String) :
    Json :=
  let basis := [("provider_revision", Json.string readback.providerRevision),
    ("observed_provider_revision", .string observedRevision)]
  if readback.providerRevision = observedRevision then
    .object (basis ++ [("status", .string (if readback.changed then "delivered" else "current")),
      ("next_action", .string "finish")])
  else
    .object (basis ++ [("status", .string "pending"),
      ("next_action", .string
        (if readback.target = .latest ∧ readback.attempt < 3 then "retry" else "finish")),
      ("reason_code", .string "todo_projection_revision_advanced"), ("retryable", .bool true),
      ("retry_business_mutation", .bool false),
      ("recommended_action", .string ("Read the current provider revision with todo list, then " ++
        "retry todo project-markdown for that revision."))])

/-! ## Requests -/

structure SnapshotRequest where
  goal : String
  includeLeases : Bool
  after : Option Position
  readback : Option ProjectionReadback

def REQUEST_FIELDS : List String :=
  ["schema_version", "runtime_root", "goal_id", "include_leases", "projection_readback", "after"]

def decodeReadback (value : Json) : SnapshotCheck (Option ProjectionReadback) :=
  if value = .null then .ok none else (decoding (decodeProjectionReadback value)).map some

def includeLeases? : Option Json → Option Bool
  | some (.bool b) => some b
  | _ => none

def decodeSnapshotRequest (value : Json) : SnapshotCheck SnapshotRequest := do
  let input ← decoding (requireJsonObject (some value) "canonical snapshot request")
  throwWhen (hasExactAuthorityKeys input REQUEST_FIELDS = false ∨
      input.lookup "schema_version" ≠ some (.string CANONICAL_SNAPSHOT_PAGE_REQUEST))
    (requestInvalid "invalid canonical snapshot request")
  match includeLeases? (input.lookup "include_leases") with
  | none => .error (requestInvalid "invalid canonical snapshot request")
  | some includeLeases =>
    let goal ← decoding (requireAuthorityStoreId (input.lookup "goal_id") "goal id")
    let after ← decodePosition ((input.lookup "after").getD .null)
    let readback ← decodeReadback ((input.lookup "projection_readback").getD .null)
    .ok ⟨goal, includeLeases, after, readback⟩

/-! ## Pages -/

inductive AuthorityStoreIdentityResult where
  | available (storeIdentity : String)
  | failure (failure : AuthorityStoreReadFailure)
deriving DecidableEq

/-- What a store says during one read: its identity, its head, and its identity once more. -/
structure StoreReads where
  sourceAuthority : String
  identity : AuthorityStoreIdentityResult
  loaded : AuthorityStoreLoadResult
  observedIdentity : AuthorityStoreIdentityResult

structure SnapshotHost where
  sha : Sha256
  acceptance : AcceptanceReader

def baseFields (store : StoreReads) : Fields :=
  [("schema_version", .string CANONICAL_SNAPSHOT_PAGE_RESULT),
    ("source_authority", .string store.sourceAuthority),
    ("decision_read_from_provider", .bool true), ("legacy_fallback_used", .bool false)]

def failureFields : AuthorityStoreReadFailure → Fields
  | .unavailable reasonCode reason => [("status", .string "unavailable"),
      ("reason_code", .string reasonCode), ("reason", .string reason)]
  | .failed reasonCode reason => [("status", .string "failed"),
      ("reason_code", .string reasonCode), ("reason", .string reason)]

def missingFields : Fields := [("status", .string "missing")]

def optionalField (name : String) (value : Option Json) : Fields :=
  (value.map (Prod.mk name)).toList

def configuredGoalChecks (acceptance : Fields) : Bool :=
  (acceptance.lookup "enabled" ≠ some (.bool false)) &&
    match acceptance.lookup "criteria" with
    | some (.array _) => true
    | _ => false

/-- What all pages of one snapshot share. -/
structure SnapshotView where
  base : Fields
  snapshot : Snapshot
  metadata : Json
  collection : TodoCollection

structure SnapshotPage where
  base : Fields
  snapshot : Snapshot
  metadata : Json
  todos : List Json
  leases : Option (List Json)
  guards : Option Fields
  next : Option Position

def SnapshotPage.json (page : SnapshotPage) : Json :=
  .object (page.base ++ [("status", .string "page"), ("snapshot", page.snapshot.json),
    ("metadata", page.metadata), ("todos", .array page.todos)] ++
    optionalField "leases" (page.leases.map Json.array) ++
    optionalField "goal_acceptance_work_guards" (page.guards.map Json.object) ++
    [("next", positionJson page.next)])

def SnapshotPage.bytes (page : SnapshotPage) : Nat := byteLength page.json

namespace SnapshotView

variable (view : SnapshotView)

/-- `result`, from the start of a read. A record whose id is unknown would be `undefined`. -/
def result (todoStart leaseStart : Nat) (chosenTodos chosenLeases : List String)
    (guards : Fields) : SnapshotPage :=
  let todoEnd := todoStart + chosenTodos.length
  let leaseEnd := leaseStart + chosenLeases.length
  { base := view.base
    snapshot := view.snapshot
    metadata := view.metadata
    todos := chosenTodos.map fun id => (view.collection.todos.lookup id).getD .null
    leases := view.collection.leases.map fun leases =>
      chosenLeases.map fun id => (leases.lookup id).getD .null
    guards :=
      if configuredGoalChecks view.collection.acceptance then
        some (Json.fromEntries
          (chosenTodos.filterMap fun id => (guards.lookup id).map (Prod.mk id)))
      else none
    next :=
      if todoEnd = view.snapshot.todoCount ∧ leaseEnd = view.snapshot.leaseCount then none
      else some ⟨view.snapshot, todoEnd, leaseEnd⟩ }

def workGuards (todoIds : List String) : Fields :=
  if configuredGoalChecks view.collection.acceptance then
    view.collection.projectWorkGuards todoIds
  else []

/-- The longest of the pages that fits the byte bound. -/
def pickPage (page : Nat → SnapshotPage) (available : Nat) : SnapshotCheck SnapshotPage :=
  if (page available).bytes ≤ CANONICAL_SNAPSHOT_PAGE_BYTES then .ok (page available)
  else do
    throwWhen (CANONICAL_SNAPSHOT_PAGE_BYTES < (page 0).bytes)
      ⟨"canonical_snapshot_metadata_too_large", "snapshot metadata exceeds the page budget"⟩
    let low := lastFitting (fun size => (page size).bytes ≤ CANONICAL_SNAPSHOT_PAGE_BYTES) 0
      available
    throwWhen (available ≠ 0 ∧ low = 0) ⟨"canonical_snapshot_record_too_large",
      "one canonical record exceeds the page budget; records are never truncated"⟩
    .ok (page low)

/-- The bounded page of the records from a position on. -/
def boundedPage (todoStart leaseStart : Nat) (completeGuards : Option Fields) :
    SnapshotCheck SnapshotPage :=
  let todoIds := (view.collection.todoIds.drop todoStart).take CANONICAL_SNAPSHOT_PAGE_ITEMS
  let leaseIds := (view.collection.leaseTodoIds.drop leaseStart).take
    (CANONICAL_SNAPSHOT_PAGE_ITEMS - todoIds.length)
  let guards := completeGuards.getD (view.workGuards todoIds)
  let page := fun size => view.result todoStart leaseStart (todoIds.take size)
    (leaseIds.take (size - todoIds.length)) guards
  pickPage page (todoIds.length + leaseIds.length)

/-- A new read may take everything at once where the private file holds it. -/
def choosePage (after : Option Position) (completeBytes : Nat) : SnapshotCheck SnapshotPage :=
  let todoStart := (after.map Position.todoOffset).getD 0
  let leaseStart := (after.map Position.leaseOffset).getD 0
  if after = none ∧ 0 < completeBytes then
    let completeGuards := view.workGuards view.collection.todoIds
    let complete := view.result todoStart leaseStart view.collection.todoIds
      view.collection.leaseTodoIds completeGuards
    if complete.bytes ≤ min completeBytes CANONICAL_SNAPSHOT_LOCAL_BYTES then .ok complete
    else view.boundedPage todoStart leaseStart (some completeGuards)
  else view.boundedPage todoStart leaseStart none

end SnapshotView

/-! ## Reads -/

inductive SnapshotResult where
  | page (page : SnapshotPage)
  | unread (fields : Fields)

def queryJson (request : SnapshotRequest) : Json :=
  .object [("goal_id", .string request.goal), ("include_leases", .bool request.includeLeases),
    ("projection_readback", (request.readback.map ProjectionReadback.json).getD .null)]

def snapshotMetadata (request : SnapshotRequest) (collection : TodoCollection) (head : Fields)
    (providerRevision : String) : Json :=
  let acceptance := collection.acceptance
  let configured := configuredGoalChecks acceptance ||
    jsTruthy (acceptance.lookup "outcome_requirements") ||
    jsTruthy (acceptance.lookup "goal_objective")
  let mode := (head.lookup "handoff_mode").getD .null
  .object ([("todo_read_model", collection.readModel)] ++
    (if configured then [("goal_acceptance_contract", .object acceptance)] else []) ++
    (if collection.oracleObservationBasis = .null then []
      else [("goal_acceptance_oracle_observation_basis", collection.oracleObservationBasis)]) ++
    [("handoff_mode", if mode = .null then .string "legacy" else mode)] ++
    optionalField "projection_readback"
      (request.readback.map fun readback => confirmProjectionReadback readback providerRevision))

/-- The identity of what a read of the loaded head sees, up to the counts. -/
def snapshotOf (host : SnapshotHost) (request : SnapshotRequest) (storeIdentity : String)
    (head : AuthorityStoreHead) (todoCount leaseCount : Nat) : Snapshot :=
  { goalId := request.goal
    storeIdentity := storeIdentity
    providerRevision := head.providerRevision
    cursor := head.cursor
    querySha256 := canonicalAuthoritySha256 host.sha (queryJson request)
    todoCount := todoCount
    leaseCount := leaseCount }

def snapshotView (host : SnapshotHost) (store : StoreReads) (request : SnapshotRequest)
    (storeIdentity : String) (head : AuthorityStoreHead) (collection : TodoCollection) :
    SnapshotView :=
  { base := baseFields store
    snapshot := snapshotOf host request storeIdentity head collection.todoIds.length
      collection.leaseTodoIds.length
    metadata := snapshotMetadata request collection (recordFields head.head)
      head.providerRevision
    collection := collection }

/-- The snapshot that a continuation names, with its own counts, is the one that is read. -/
def sameSnapshot (host : SnapshotHost) (request : SnapshotRequest) (storeIdentity : String)
    (head : AuthorityStoreHead) : Prop :=
  ∀ position ∈ request.after, position.snapshot =
    snapshotOf host request storeIdentity head position.snapshot.todoCount
      position.snapshot.leaseCount

instance (host : SnapshotHost) (request : SnapshotRequest) (storeIdentity : String)
    (head : AuthorityStoreHead) : Decidable (sameSnapshot host request storeIdentity head) := by
  unfold sameSnapshot
  infer_instance

def readLoaded (host : SnapshotHost) (store : StoreReads) (request : SnapshotRequest)
    (completeBytes : Nat) (storeIdentity : String) (head : AuthorityStoreHead) :
    SnapshotCheck SnapshotResult := do
  throwWhen (¬sameSnapshot host request storeIdentity head) (changed
    "canonical snapshot changed; restart the complete read, never append a newer page")
  let collection ← decoding (canonicalTodoCollection host.acceptance (recordFields head.head)
    request.goal request.includeLeases)
  let view := snapshotView host store request storeIdentity head collection
  throwWhen (∃ position ∈ request.after,
      ¬(position.snapshot.todoCount = view.snapshot.todoCount ∧
        position.snapshot.leaseCount = view.snapshot.leaseCount))
    (changed "snapshot population changed")
  throwWhen (store.observedIdentity ≠ .available storeIdentity)
    (changed "store incarnation changed while loading the snapshot")
  let page ← view.choosePage request.after completeBytes
  .ok (.page page)

def readCanonicalSnapshotFromStore (host : SnapshotHost) (store : StoreReads) (value : Json)
    (completeBytes : Nat) : SnapshotCheck SnapshotResult := do
  let request ← decodeSnapshotRequest value
  match store.identity with
  | .failure (.unavailable reasonCode reason) =>
    -- a promoted store that does not exist yet reads as missing
    if store.loaded = .missing then .ok (.unread (baseFields store ++ missingFields))
    else .ok (.unread (baseFields store ++ failureFields (.unavailable reasonCode reason)))
  | .failure failure => .ok (.unread (baseFields store ++ failureFields failure))
  | .available storeIdentity =>
    match store.loaded with
    | .missing => .ok (.unread (baseFields store ++ missingFields))
    | .failure failure => .ok (.unread (baseFields store ++ failureFields failure))
    | .loaded head => readLoaded host store request completeBytes storeIdentity head

/-! ## Following the continuations -/

/-- What a client asks on every page of one read. -/
structure SnapshotQuery where
  runtimeRoot : Json
  goal : String
  includeLeases : Bool
  readback : Json

def SnapshotQuery.json (query : SnapshotQuery) (after : Json) : Json :=
  .object [("schema_version", .string CANONICAL_SNAPSHOT_PAGE_REQUEST),
    ("runtime_root", query.runtimeRoot), ("goal_id", .string query.goal),
    ("include_leases", .bool query.includeLeases),
    ("projection_readback", query.readback), ("after", after)]

/-- Read page after page, each from the continuation that the page before returned. -/
def followSnapshot (host : SnapshotHost) (store : StoreReads) (query : SnapshotQuery)
    (completeBytes : Nat) : Nat → Json → Option (List SnapshotPage)
  | 0, _ => none
  | fuel + 1, after =>
    match readCanonicalSnapshotFromStore host store (query.json after) completeBytes with
    | .ok (.page page) =>
      match page.next with
      | none => some [page]
      | some position =>
        (followSnapshot host store query completeBytes fuel position.json).map (page :: ·)
    | _ => none

end Loopx.Coordination
