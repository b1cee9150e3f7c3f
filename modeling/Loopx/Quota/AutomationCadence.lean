/- GID: Loopx/Quota/AutomationCadence
   generality: I
   source: loopx/control_plane/quota/automation_cadence.ts
   digest: The owner cadence store: decoding, projection, admission, confirmation, configuration. -/

import Loopx.Authority.Codec
import Loopx.Lease.WriteScope

set_option autoImplicit false
set_option relaxedAutoImplicit false

namespace Loopx.Quota

open Loopx.Json (JsNumber stringify)
open Loopx.Authority (Sha256 trim)
open Loopx.Lease (utf16Length)

/-- `EffectRuntimeRequestError` without and with the store's code, and the typed conflict. -/
inductive CadenceError where
  | request (message : String)
  | invalid (message : String)
  | conflict (message : String)
deriving DecidableEq

abbrev Cadence := Except CadenceError

def requireJsonObject (value : Option Json) (label : String) : Cadence (List (String × Json)) :=
  match value with
  | some (.object fields) => .ok fields
  | _ => .error (.request (label ++ " must be an object"))

def requireNonEmptyString (value : Option Json) (label : String) : Cadence String :=
  match value with
  | some (.string s) =>
    if trim s = "" then .error (.request (label ++ " must be a non-empty string")) else .ok s
  | _ => .error (.request (label ++ " must be a non-empty string"))

def requireInteger (value : Option Json) (label : String) : Cadence Int :=
  match value with
  | some (.number n) =>
    match n.toInt? with
    | some i => .ok i
    | none => .error (.request (label ++ " must be an integer"))
  | _ => .error (.request (label ++ " must be an integer"))

/-- Trimmed text of at most 256 code units without control characters. -/
def text (value : Option Json) (name : String) : Cadence String := do
  let raw ← requireNonEmptyString value name
  let s := trim raw
  if s = "" ∨ 256 < utf16Length s.toList ∨ s.toList.any (fun c => c.toNat < 0x20) then
    .error (.invalid (name ++ " is invalid"))
  else .ok s

def integer (value : Option Json) (name : String) : Cadence Nat := do
  let n ← requireInteger value name
  if n < 0 ∨ (JsNumber.maxSafeInteger : Int) < n then
    .error (.invalid (name ++ " must be a non-negative safe integer"))
  else .ok n.toNat

def minutes (value : Option Json) : Cadence Nat := do
  let n ← integer value "min_interval_minutes"
  if 525600 < n then .error (.invalid "min_interval_minutes exceeds one year") else .ok n

/-- `value == null ? null : text(value, name)`. -/
def optionalText (value : Option Json) (name : String) : Cadence (Option String) :=
  match value with
  | none | some .null => .ok none
  | some value => do
    let s ← text (some value) name
    .ok (some s)

structure Scope where
  agentId : Option String
  automationId : Option String
deriving DecidableEq

def scope (p : List (String × Json)) : Cadence Scope := do
  let agentId ← optionalText (p.lookup "agent_id") "agent_id"
  let automationId ← optionalText (p.lookup "automation_id") "automation_id"
  if automationId.isSome ∧ agentId.isNone then
    .error (.invalid "automation scope requires agent_id")
  else .ok ⟨agentId, automationId⟩

def nullable (value : Option String) : Json := (value.map Json.string).getD .null

/-- The bytes of `JSON.stringify([s.agent_id, s.automation_id])`. -/
def Scope.bytes (s : Scope) : ByteArray :=
  (stringify (.array [nullable s.agentId, nullable s.automationId])).toByteArray

def key (sha : Sha256) (s : Scope) : String := sha.hex s.bytes

structure Rule where
  scope : Scope
  minIntervalMinutes : Nat
  revision : Nat
  ownerReference : String
deriving DecidableEq

inductive StartState where
  | reserved
  | started
deriving DecidableEq

def StartState.text : StartState → String
  | .reserved => "reserved"
  | .started => "started"

structure Start where
  scope : Scope
  startedAtMs : Nat
  triggerAtMs : Nat
  requestId : String
  manualReason : Option String
  state : StartState
deriving DecidableEq

structure Store where
  goalId : String
  revision : Nat
  rules : List Rule
  starts : List Start
deriving DecidableEq

def SCHEMA : String := "automation_cadence_store_v2"

def LEGACY_SCHEMA : String := "automation_cadence_store_v1"

def decodeRule (sha : Sha256) (revision : Nat) (seen : List String) (raw : Json) :
    Cadence Rule := do
  let r ← requireJsonObject (some raw) "rule"
  let s ← scope r
  if key sha s ∈ seen then .error (.invalid "duplicate cadence scope")
  else
    let v ← integer (r.lookup "revision") "rule revision"
    if revision < v then .error (.invalid "rule revision exceeds configuration revision")
    else
      let interval ← minutes (r.lookup "min_interval_minutes")
      let reference ← text (r.lookup "owner_reference") "owner_reference"
      .ok ⟨s, interval, v, reference⟩

def decodeRules (sha : Sha256) (revision : Nat) : List String → List Json → Cadence (List Rule)
  | _, [] => .ok []
  | seen, raw :: rest => do
    let rule ← decodeRule sha revision seen raw
    let rules ← decodeRules sha revision (key sha rule.scope :: seen) rest
    .ok (rule :: rules)

/-- A record without the field is an attempted start. -/
def decodeState (value : Option Json) : Cadence StartState :=
  match value with
  | none => .ok .started
  | some value => do
    let state ← requireNonEmptyString (some value) "start state"
    if state = "reserved" then .ok .reserved
    else if state = "started" then .ok .started
    else .error (.request "start state is unsupported")

def decodeStart (sha : Sha256) (seen : List String) (raw : Json) : Cadence Start := do
  let r ← requireJsonObject (some raw) "start"
  let s ← scope r
  if s.agentId.isNone ∨ key sha s ∈ seen then
    .error (.invalid "cadence start identity is invalid or duplicated")
  else
    let startedAtMs ← integer (r.lookup "started_at_ms") "started_at_ms"
    let triggerAtMs ← integer (r.lookup "trigger_at_ms") "trigger_at_ms"
    if startedAtMs < triggerAtMs then .error (.invalid "cadence start trigger follows its start")
    else
      let requestId ← text (r.lookup "request_id") "request_id"
      let manualReason ← optionalText (r.lookup "manual_reason") "manual_reason"
      let state ← decodeState (r.lookup "state")
      .ok ⟨s, startedAtMs, triggerAtMs, requestId, manualReason, state⟩

def decodeStarts (sha : Sha256) : List String → List Json → Cadence (List Start)
  | _, [] => .ok []
  | seen, raw :: rest => do
    let start ← decodeStart sha seen raw
    let starts ← decodeStarts sha (key sha start.scope :: seen) rest
    .ok (start :: starts)

def rulesOf (value : Option Json) : Cadence (List Json) :=
  match value with
  | some (.array items) => .ok items
  | _ => .error (.invalid "cadence rules must be an array")

/-- `p.starts ?? []`; only an array or a missing field passes. -/
def startsOf (value : Option Json) : Cadence (List Json) :=
  match value with
  | none => .ok []
  | some (.array items) => .ok items
  | some _ => .error (.invalid "cadence starts must be an array")

def decode (sha : Sha256) (value : Json) (goal : String) : Cadence Store := do
  let p ← requireJsonObject (some value) "cadence store"
  if (p.lookup "schema_version" ≠ some (.string SCHEMA) ∧
      p.lookup "schema_version" ≠ some (.string LEGACY_SCHEMA)) ∨
      p.lookup "goal_id" ≠ some (.string goal) then
    .error (.invalid "cadence store identity/schema mismatch")
  else
    let revision ← integer (p.lookup "revision") "revision"
    let rawRules ← rulesOf (p.lookup "rules")
    let rules ← decodeRules sha revision [] rawRules
    let rawStarts ← startsOf (p.lookup "starts")
    let starts ← decodeStarts sha [] rawStarts
    .ok ⟨goal, revision, rules, starts⟩

def natJson (n : Nat) : Json := .number (JsNumber.ofNat n)

def Rule.toJson (r : Rule) : Json :=
  .object [("agent_id", nullable r.scope.agentId), ("automation_id", nullable r.scope.automationId),
    ("min_interval_minutes", natJson r.minIntervalMinutes), ("revision", natJson r.revision),
    ("owner_reference", .string r.ownerReference)]

def Start.toJson (s : Start) : Json :=
  .object [("agent_id", nullable s.scope.agentId), ("automation_id", nullable s.scope.automationId),
    ("started_at_ms", natJson s.startedAtMs), ("trigger_at_ms", natJson s.triggerAtMs),
    ("request_id", .string s.requestId), ("manual_reason", nullable s.manualReason),
    ("state", .string s.state.text)]

/-- The document `atomicWriteJson` stores. -/
def Store.toJson (store : Store) : Json :=
  .object [("schema_version", .string SCHEMA), ("goal_id", .string store.goalId),
    ("revision", natJson store.revision), ("rules", .array (store.rules.map Rule.toJson)),
    ("starts", .array (store.starts.map Start.toJson))]

/-- An absent file reads as the empty store. -/
def load (sha : Sha256) (file : Option Json) (goal : String) : Cadence Store :=
  match file with
  | none => .ok ⟨goal, 0, [], []⟩
  | some document => decode sha document goal

def applicable (r : Rule) (s : Scope) : Bool :=
  r.scope.agentId = none || (r.scope.agentId = s.agentId &&
    (r.scope.automationId = none || r.scope.automationId = s.automationId))

inductive AutomationCadenceEligibility where
  | unconfigured
  | agentScopeRequired
  | waiting (nextEligibleAtMs : Nat)
  | eligible (nextEligibleAtMs : Option Nat)
deriving DecidableEq

structure Projection where
  goalId : String
  scope : Scope
  configurationRevision : Nat
  minIntervalMinutes : Nat
  sources : List Rule
  nextEligibleAtMs : Option Nat
  eligibleNow : Bool
  eligibility : AutomationCadenceEligibility
deriving DecidableEq

def Projection.enabled (p : Projection) : Bool := 0 < p.minIntervalMinutes

def Projection.reason (p : Projection) : String :=
  if p.minIntervalMinutes = 0 then "unconfigured" else "owner_minimum_interval"

def Projection.enforcement (p : Projection) : String :=
  if p.minIntervalMinutes = 0 then "scheduler_recommendation"
  else "managed_turn_atomic_admission_and_schedule_recommendation"

def Projection.preModelAdmission (p : Projection) : String :=
  if p.minIntervalMinutes = 0 then "not_qualified" else "managed_turn_only"

/-- The start a rule of this lane counts its interval from. -/
def Store.startAt (store : Store) (agentId automationId : Option String) : Option Start :=
  store.starts.find? (fun item =>
    item.scope.agentId = agentId && item.scope.automationId = automationId)

def maximum (values : List Nat) : Nat := values.foldr max 0

def dueTimes (store : Store) (s : Scope) (rules : List Rule) : List Nat :=
  if s.agentId.isSome then
    (rules.filter (fun rule => 0 < rule.minIntervalMinutes)).filterMap (fun rule =>
      (store.startAt s.agentId rule.scope.automationId).map (fun start =>
        start.startedAtMs + rule.minIntervalMinutes * 60000))
  else []

def projection (store : Store) (s : Scope) (nowMs : Nat) : Projection :=
  let rules := store.rules.filter (fun r => applicable r s)
  let floor := maximum (rules.map (fun r => r.minIntervalMinutes))
  let due := dueTimes store s rules
  let next := if due = [] then none else some (maximum due)
  let eligibility :=
    if floor = 0 then .unconfigured
    else if s.agentId = none then .agentScopeRequired
    else match next with
      | some next => if nowMs < next then .waiting next else .eligible (some next)
      | none => .eligible none
  ⟨store.goalId, s, store.revision, floor, rules, next, next.all (fun next => next ≤ nowMs),
    eligibility⟩

inductive AdmissionReason where
  | unconfigured
  | duplicateOrStaleTrigger
  | resumedUnstartedReservation
  | minimumIntervalWait
  | admitted
  | explicitManualIntervalBypass
deriving DecidableEq

structure AdmitAnswer where
  current : Projection
  admitted : Bool
  reserved : Bool
  resumed : Bool
  reason : AdmissionReason
deriving DecidableEq

structure AdmitRequest where
  goal : String
  agentId : String
  automationId : Option String
  now : Nat
  trigger : Nat
  request : String
  manual : Option String
deriving DecidableEq

def AdmitRequest.scope (r : AdmitRequest) : Scope := ⟨some r.agentId, r.automationId⟩

def AdmitRequest.decode (p : List (String × Json)) : Cadence AdmitRequest := do
  let goal ← text (p.lookup "goal_id") "goal_id"
  let s ← Quota.scope p
  match s.agentId with
  | none => .error (.invalid "admission requires agent_id")
  | some agentId => do
    let _ ← requireNonEmptyString (p.lookup "runtime_root") "runtime_root"
    let now ← integer (p.lookup "now_ms") "now_ms"
    let trigger ← integer (p.lookup "trigger_at_ms") "trigger_at_ms"
    if now < trigger then .error (.invalid "trigger_at_ms cannot be in the future")
    else
      let request ← text (p.lookup "request_id") "request_id"
      let manual ← optionalText (p.lookup "manual_reason") "manual_reason"
      .ok ⟨goal, agentId, s.automationId, now, trigger, request, manual⟩

def activeScopes (store : Store) (s : Scope) : List (Option String) :=
  (store.rules.filter (fun rule => 0 < rule.minIntervalMinutes && applicable rule s)).map
    (fun rule => rule.scope.automationId)

/-- The recorded starts that a request of this scope is checked against. -/
def priorStarts (store : Store) (s : Scope) : List Start :=
  store.starts.filter (fun start => start.scope.agentId = s.agentId &&
    start.scope.automationId ∈ activeScopes store s)

/-- One record per scope: the new start takes the place of the scope's last one. -/
def putStart (sha : Sha256) (starts : List Start) (start : Start) : List Start :=
  starts.filter (fun old => key sha old.scope ≠ key sha start.scope) ++ [start]

def reservationScopes (store : Store) (r : AdmitRequest) : List Scope :=
  ⟨some r.agentId, none⟩ ::
    if r.automationId.isSome ∧ r.automationId ∈ activeScopes store r.scope then [r.scope] else []

def reservationStart (r : AdmitRequest) (item : Scope) : Start :=
  ⟨item, r.now, r.trigger, r.request, r.manual, .reserved⟩

def reserve (sha : Sha256) (store : Store) (r : AdmitRequest) : Store :=
  let starts := (reservationScopes store r).foldl
    (fun starts item => putStart sha starts (reservationStart r item)) store.starts
  { store with starts }

/-- What happens under the store's lock, and the store that is written. -/
def admitLocked (sha : Sha256) (store : Store) (r : AdmitRequest) : AdmitAnswer × Option Store :=
  let current := projection store r.scope r.now
  if current.enabled = false then (⟨current, true, false, false, .unconfigured⟩, none)
  else
    let prior := priorStarts store r.scope
    let held := prior.find? (fun start => start.requestId = r.request)
    if prior.any (fun start => r.trigger < start.triggerAtMs) ∨
        held.any (fun start => start.state = .started) then
      (⟨current, false, false, false, .duplicateOrStaleTrigger⟩, none)
    else if held.isSome then
      (⟨current, true, true, true, .resumedUnstartedReservation⟩, none)
    else if r.manual = none ∧ current.eligibleNow = false then
      (⟨current, false, false, false, .minimumIntervalWait⟩, none)
    else
      let store' := reserve sha store r
      (⟨projection store' r.scope r.now, true, true, false,
        if r.manual = none then .admitted else .explicitManualIntervalBypass⟩, some store')

/-- The default-off path answers from its first read, without the lock. -/
def admitAutomationStart (sha : Sha256) (file : Option Json) (r : AdmitRequest) :
    Cadence (AdmitAnswer × Option Store) := do
  let snapshot ← load sha file r.goal
  let initial := projection snapshot r.scope r.now
  if initial.enabled = false then .ok (⟨initial, true, false, false, .unconfigured⟩, none)
  else do
    let store ← load sha file r.goal
    .ok (admitLocked sha store r)

structure ConfirmRequest where
  goal : String
  agentId : String
  automationId : Option String
  request : String
deriving DecidableEq

def ConfirmRequest.decode (p : List (String × Json)) : Cadence ConfirmRequest := do
  let goal ← text (p.lookup "goal_id") "goal_id"
  let s ← Quota.scope p
  match s.agentId with
  | none => .error (.invalid "confirmation requires agent_id")
  | some agentId => do
    let _ ← requireNonEmptyString (p.lookup "runtime_root") "runtime_root"
    let request ← text (p.lookup "request_id") "request_id"
    .ok ⟨goal, agentId, s.automationId, request⟩

def ConfirmRequest.names (r : ConfirmRequest) (start : Start) : Bool :=
  start.scope.agentId = some r.agentId && start.requestId = r.request

inductive ConfirmReason where
  | reservationMissing
  | startConfirmed
  | alreadyConfirmed
deriving DecidableEq

structure ConfirmAnswer where
  request : ConfirmRequest
  confirmed : Bool
  reason : ConfirmReason
deriving DecidableEq

def confirmStarts (r : ConfirmRequest) (starts : List Start) : List Start :=
  starts.map (fun start => if r.names start then { start with state := .started } else start)

def confirmRecord (store : Store) (r : ConfirmRequest) : ConfirmAnswer × Option Store :=
  let found := store.starts.filter r.names
  if found = [] then (⟨r, false, .reservationMissing⟩, none)
  else if found.any (fun start => start.state = .reserved) then
    (⟨r, true, .startConfirmed⟩, some { store with starts := confirmStarts r store.starts })
  else (⟨r, true, .alreadyConfirmed⟩, none)

def confirmAutomationStart (sha : Sha256) (file : Option Json) (r : ConfirmRequest) :
    Cadence (ConfirmAnswer × Option Store) := do
  let snapshot ← load sha file r.goal
  if snapshot.starts.any r.names = false then .ok (⟨r, false, .reservationMissing⟩, none)
  else do
    let store ← load sha file r.goal
    .ok (confirmRecord store r)

structure ManageAnswer where
  current : Projection
  written : Bool
deriving DecidableEq

structure ManageRequest where
  configure : Bool
  goal : String
  scope : Scope
  body : List (String × Json)
deriving DecidableEq

def ManageRequest.decode (p : List (String × Json)) : Cadence ManageRequest := do
  let operation ← requireNonEmptyString (p.lookup "operation") "operation"
  if operation ≠ "read" ∧ operation ≠ "configure" then
    .error (.request "operation is unsupported")
  else
    let goal ← text (p.lookup "goal_id") "goal_id"
    let s ← Quota.scope p
    let _ ← requireNonEmptyString (p.lookup "runtime_root") "runtime_root"
    .ok ⟨operation = "configure", goal, s, p⟩

/-- The store with the scope's rule replaced, under the next revision. -/
def putRule (sha : Sha256) (store : Store) (s : Scope) (value : Nat) (reference : String) : Store :=
  { store with
    revision := store.revision + 1
    rules := store.rules.filter (fun r => key sha r.scope ≠ key sha s) ++
      [⟨s, value, store.revision + 1, reference⟩] }

def executes (r : ManageRequest) : Bool := r.body.lookup "execute" = some (.bool true)

/-- `nowMs` is the wall clock that a policy read projects at. -/
def manageAutomationCadence (sha : Sha256) (file : Option Json) (r : ManageRequest)
    (nowMs : Nat) : Cadence (ManageAnswer × Option Store) := do
  let store ← load sha file r.goal
  if r.configure = false then .ok (⟨projection store r.scope nowMs, false⟩, none)
  else do
    let expected ← integer (r.body.lookup "expected_revision") "expected_revision"
    if expected ≠ store.revision then .error (.conflict
      "configuration revision conflict; read current policy before changing it")
    else do
      let value ← minutes (r.body.lookup "min_interval_minutes")
      let reference ← text (r.body.lookup "owner_reference") "owner_reference"
      let old := store.rules.find? (fun rule => key sha rule.scope = key sha r.scope)
      if value < (old.map (fun rule => rule.minIntervalMinutes)).getD 0 ∧
          r.body.lookup "approve_reduction" ≠ some (.bool true) then
        .error (.invalid
          "lowering or disabling the floor requires explicit owner-approved reduction")
      else
        let store' := putRule sha store r.scope value reference
        .ok (⟨projection store' r.scope nowMs, executes r⟩,
          if executes r then some store' else none)

end Loopx.Quota
