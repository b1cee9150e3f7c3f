/- GID: Loopx/Todos/MonitorMetadata
   generality: I
   source: loopx/control_plane/todos/monitor_metadata.ts
   digest: Planning one Monitor observation and merging the plan into its Todo. -/

import Loopx.Todos.Timestamp
import Loopx.Scheduler.State

set_option autoImplicit false
set_option relaxedAutoImplicit false

namespace Loopx.Todos

open Loopx.Lib.KeyedList
open Loopx.Lib.Fallible (throwWhen)
open Loopx.Lib.Strip (stripEnds)
open Loopx.Json (JsNumber canonicalEntries)
open Loopx.Authority (isJsSpace trim)
open Loopx.Scheduler (HostClock jsString schedulerTimestampMilliseconds)

/-- A plain object. -/
abbrev Fields := List (String × Json)

/-- A call that may throw the text of its error. -/
abbrev Plan := Except String

/-- White space as Python counts it. -/
def isPythonSpace (c : Char) : Bool :=
  (9 ≤ c.toNat && c.toNat ≤ 13) || c.toNat = 0x20 || (0x1c ≤ c.toNat && c.toNat ≤ 0x1f) ||
    c.toNat = 0x85 || c.toNat = 0xa0 || c.toNat = 0x1680 ||
    (0x2000 ≤ c.toNat && c.toNat ≤ 0x200a) || c.toNat = 0x2028 || c.toNat = 0x2029 ||
    c.toNat = 0x202f || c.toNat = 0x205f || c.toNat = 0x3000

def stripPythonWhitespace (s : String) : String := String.ofList (stripEnds isPythonSpace s.toList)

def MONITOR_METADATA_FIELDS : List String :=
  ["target_key", "monitor_effect_id", "cadence", "next_due_at", "expires_at", "last_checked_at",
    "result_hash", "consecutive_no_change", "material_change", "material_change_generation",
    "max_no_change_before_replan", "watch_only"]

def text : Option Json → String
  | none => ""
  | some .null => ""
  | some (.bool false) => ""
  | some (.bool true) => stripPythonWhitespace "True"
  | some (.number n) => if n.coefficient = 0 then "" else stripPythonWhitespace (jsString (.number n))
  | some value => stripPythonWhitespace (jsString value)

def timestampOrNull (value : Option Json) : Option Int := parseTodoTimestampMicros (text value)

def timestamp (value : Option Json) (label : String) : Plan Int :=
  match timestampOrNull value with
  | none => .error (label ++ " must be an ISO timestamp")
  | some micros => .ok micros

/-! The schedule of a Monitor: `evaluateMonitorSchedule` of the scheduler's transition rules. -/

def optionalRequestString (value : Option Json) (label : String) : Plan String :=
  match value with
  | none => .ok ""
  | some .null => .ok ""
  | some (.string s) => .ok (trim s)
  | some _ => .error (label ++ " must be a string when present")

def cadenceUnits : List (List String × Nat) :=
  [(["s", "sec", "secs", "second", "seconds"], 1),
    (["m", "min", "mins", "minute", "minutes"], 60),
    (["h", "hr", "hrs", "hour", "hours"], 60 * 60),
    (["d", "day", "days"], 24 * 60 * 60)]

/-- A cadence such as `30m`, read by `MONITOR_CADENCE_PATTERN`. -/
def monitorCadenceSeconds (cadence : String) : Option Nat :=
  let cs := (trim cadence).toList
  let count := cs.takeWhile Char.isDigit
  let unit := String.ofList (((cs.dropWhile Char.isDigit).dropWhile isJsSpace).map Char.toLower)
  if count.length ≤ 5 ∧ count ≠ [] ∧ count.head? ≠ some '0' then
    (cadenceUnits.find? fun row => unit ∈ row.1).map fun row =>
      Nat.ofDigitChars 10 count 0 * row.2
  else none

example : monitorCadenceSeconds " 2 Hours" = some 7200 := by decide +kernel

structure MonitorSchedule where
  nextDueAt : Option String
  cadenceSeconds : Option Nat
deriving DecidableEq

/-- `schedule`, at a cadence text. -/
def schedule (clock : HostClock) (generatedAt cadence : String) (explicit : Option Json) :
    Plan MonitorSchedule := do
  let explicitNextDueAt ← optionalRequestString explicit "explicit_next_due_at"
  if explicitNextDueAt ≠ "" then
    match schedulerTimestampMilliseconds clock (some (.string explicitNextDueAt)) with
    | none => .error "explicit_next_due_at must be an ISO timestamp"
    | some _ => return ⟨some explicitNextDueAt, monitorCadenceSeconds cadence⟩
  else
    match monitorCadenceSeconds cadence with
    | none => return ⟨none, none⟩
    | some seconds =>
      match schedulerTimestampMilliseconds clock (some (.string generatedAt)) with
      | none => .error "generated_at must be an ISO timestamp"
      | some milliseconds =>
        match monitorScheduleTimestamp (milliseconds + seconds * 1000) with
        | none => .error "Invalid time value"
        | some due => return ⟨some due, some seconds⟩

/-- `/^[+-]?\d+$/`: the sign and the magnitude. -/
def signedDigits? (s : String) : Option (Bool × Nat) :=
  let (negative, digits) := match s.toList with
    | '-' :: rest => (true, rest)
    | '+' :: rest => (false, rest)
    | cs => (false, cs)
  if digits ≠ [] ∧ digits.all Char.isDigit then some (negative, Nat.ofDigitChars 10 digits 0)
  else none

def counterOverflow : String := "monitor counter exceeds the safe integer range"

def counter (value : Option Json) : Plan Nat :=
  match signedDigits? (text value) with
  | none => .ok 0
  | some (negative, magnitude) =>
    if JsNumber.maxSafeInteger < magnitude then .error counterOverflow
    else .ok (if negative then 0 else magnitude)

/-- The field's command line flag. -/
def flag (field : String) : String :=
  "--" ++ String.ofList (field.toList.map fun c => if c = '_' then '-' else c)

/-- The check one field of normalized metadata passes. -/
def checkField (clock : HostClock) (field value : String) : Plan Unit :=
  if field = "cadence" then do
    let planned ← schedule clock "1970-01-01T00:00:00Z" value none
    throwWhen (planned.cadenceSeconds = none) "--cadence must look like 30m, 2h, or 1d"
  else if field ∈ ["next_due_at", "expires_at", "last_checked_at"] then do
    let _ ← timestamp (some (.string value)) (flag field)
    .ok ()
  else if field ∈ ["consecutive_no_change", "material_change_generation"] then
    match signedDigits? value with
    | none => .error (flag field ++ " must be an integer")
    | some (negative, magnitude) =>
      throwWhen (JsNumber.maxSafeInteger < magnitude ∨ (negative ∧ 0 < magnitude))
        (flag field ++ " must be a non-negative safe integer")
  else if field = "material_change" then
    throwWhen (value ∉ ["true", "false"]) "--material-change metadata must be true or false"
  else if field = "watch_only" then
    throwWhen (String.ofList (value.toList.map Char.toLower) ∉ ["true", "false"])
      "--watch-only metadata must be true or false"
  else .ok ()

/-- The checked fields, in the order of their checks. -/
def checkOrder : List String :=
  ["cadence", "next_due_at", "expires_at", "last_checked_at", "consecutive_no_change",
    "material_change_generation", "material_change", "watch_only"]

/-- What `normalizeMetadata` keeps of a field: null, or its text when there is one. -/
def normalField : Json → Option Json
  | .null => some .null
  | value => if text (some value) = "" then none else some (.string (text (some value)))

def normalFields (raw : Fields) : Fields :=
  MONITOR_METADATA_FIELDS.filterMap fun field =>
    ((raw.lookup field).bind normalField).map (field, ·)

def checkPresent (clock : HostClock) (field : String) : Option Json → Plan Unit
  | some (.string value) => checkField clock field value
  | _ => .ok ()

def checkAll (clock : HostClock) (normalized : Fields) : List String → Plan Unit
  | [] => .ok ()
  | field :: rest => do
    checkPresent clock field (normalized.lookup field)
    checkAll clock normalized rest

def normalizeMetadata (clock : HostClock) (raw : Fields) : Plan Fields := do
  let normalized := normalFields raw
  checkAll clock normalized checkOrder
  return normalized

def requireBoolean (value : Option Json) (label : String) : Plan Bool :=
  match value with
  | some (.bool b) => .ok b
  | _ => .error (label ++ " must be a boolean")

/-- `Boolean(value)`. -/
def jsTruthy : Option Json → Bool
  | none => false
  | some .null => false
  | some (.bool b) => b
  | some (.number n) => n.coefficient ≠ 0
  | some (.string s) => s ≠ ""
  | some _ => true

/-- `text(observation.cadence || existing.cadence)`. -/
def cadenceText (existing observation : Fields) : String :=
  if jsTruthy (observation.lookup "cadence") then text (observation.lookup "cadence")
  else text (existing.lookup "cadence")

/-- What `poll` reads off an observation before it compares it with the Todo's history. -/
structure Observed where
  material : Bool
  resultHash : String
  generatedAt : String
  observedAt : Int
  target : String
  cadence : String
  due : Option String
  effectId : String
deriving DecidableEq

/-- What a reactivation needs: a completed Agent Monitor, and a material observation newer than its
completion. -/
def checkReactivation (existing : Fields) (material : Bool) (observedAt : Int) : Plan Unit := do
  throwWhen (existing.lookup "status" ≠ some (.string "done") ∨
      existing.lookup "role" ≠ some (.string "agent") ∨
      existing.lookup "archive_state" = some (.string "archive") ∨
      jsTruthy (existing.lookup "superseded_by"))
    "Monitor reactivation requires an unarchived completed Agent Monitor"
  throwWhen (material = false)
    "Monitor reactivation requires a material observation newer than completion"
  let completedAt ← timestamp (existing.lookup "completed_at") "Monitor completed_at"
  throwWhen (observedAt ≤ completedAt)
    "Monitor reactivation requires a material observation newer than completion"

def checkReactivates (existing : Fields) (reactivate material : Bool) (observedAt : Int) :
    Plan Unit :=
  if reactivate then checkReactivation existing material observedAt else .ok ()

/-- The first half of `poll`. -/
def readObservation (clock : HostClock) (existing observation : Fields) (reactivate : Bool) :
    Plan Observed := do
  throwWhen (existing.lookup "task_class" ≠ some (.string "continuous_monitor"))
    "monitor poll observation requires task_class=continuous_monitor"
  let material ← requireBoolean (observation.lookup "material_change") "material_change"
  let resultHash := text (observation.lookup "result_hash")
  throwWhen (resultHash = "") "monitor todo writeback requires --result-hash"
  let generatedAt := text (observation.lookup "generated_at")
  let observedAt ← timestamp (some (.string generatedAt)) "generated_at"
  checkReactivates existing reactivate material observedAt
  let existingTarget := text (existing.lookup "target_key")
  let requestedTarget := text (observation.lookup "target_key")
  throwWhen (requestedTarget ≠ "" ∧ existingTarget ≠ "" ∧ requestedTarget ≠ existingTarget)
    ("monitor poll target_key resolves to '" ++ existingTarget ++ "', not '" ++
      requestedTarget ++ "'")
  let cadence := cadenceText existing observation
  let planned ← schedule clock generatedAt cadence (observation.lookup "next_due_at")
  throwWhen (material = false ∧ planned.nextDueAt = none)
    ("unchanged monitor todo writeback requires --next-due-at or a parseable cadence " ++
      "such as 30m/2h/1d")
  return {
    material, resultHash, generatedAt, observedAt, cadence
    target := if requestedTarget ≠ "" then requestedTarget else existingTarget
    due := planned.nextDueAt
    effectId := text (observation.lookup "monitor_effect_id") }

/-- `String(flag)`. -/
def boolText (b : Bool) : String := if b then "true" else "false"

/-- What a replay has to find on the Todo. -/
def Observed.facts (r : Observed) : List (String × String) :=
  [("result_hash", r.resultHash), ("material_change", boolText r.material),
    ("last_checked_at", r.generatedAt), ("target_key", r.target), ("cadence", r.cadence),
    ("next_due_at", r.due.getD "")]

def conflicts (existing : Fields) (r : Observed) : List String :=
  (r.facts.filter fun fact => text (existing.lookup fact.1) ≠ fact.2).map Prod.fst

structure MonitorTransition where
  monitorEffectId : Option String
  providerReplayed : Bool
  resultHash : String
  materialChange : Bool
  materialChangeApplied : Bool
  materialChangeGeneration : Nat
  consecutiveNoChange : Nat
  lastCheckedAt : String
  targetKey : Option String
  cadence : Option String
  nextDueAt : Option String
deriving DecidableEq

/-- `value || null`. -/
def textOrNull (s : String) : Option String := if s = "" then none else some s

/-- The Todo's own metadata, as a replay hands it back. -/
def replayMetadata (existing : Fields) : Fields :=
  MONITOR_METADATA_FIELDS.filterMap fun field =>
    match existing.lookup field with
    | none => none
    | some .null => none
    | some value => some (field, value)

/-- The metadata a new observation writes. -/
def observedMetadata (r : Observed) (noChange generation : Nat) : Fields :=
  [("last_checked_at", .string r.generatedAt), ("result_hash", .string r.resultHash),
    ("consecutive_no_change", .string noChange.repr),
    ("material_change", .string (boolText r.material)),
    ("material_change_generation", .string generation.repr)] ++
  (if r.effectId ≠ "" then [("monitor_effect_id", .string r.effectId)] else []) ++
  (if r.target ≠ "" then [("target_key", .string r.target)] else []) ++
  (if r.cadence ≠ "" then [("cadence", .string r.cadence)] else []) ++
  (match r.due with
    | some due => [("next_due_at", .string due)]
    | none => [])

/-- A replay has to restate what the Todo carries; a new observation may not be older than it.
Unkeyed polls of one second stand, while two keyed effects are strictly ordered. -/
def checkHistory (existing : Fields) (r : Observed) (replay : Bool) : Plan Unit :=
  if replay then
    throwWhen (conflicts existing r ≠ [])
      ("monitor effect identity is already bound to different observation fields: " ++
        ", ".intercalate (conflicts existing r))
  else
    match timestampOrNull (existing.lookup "last_checked_at") with
    | none => .ok ()
    | some persistedAt =>
      throwWhen (r.observedAt < persistedAt ∨ (r.effectId ≠ "" ∧
          text (existing.lookup "monitor_effect_id") ≠ "" ∧ r.observedAt = persistedAt))
        "monitor observation is older than the persisted monitor effect"

def poll (clock : HostClock) (existing observation : Fields) (reactivate : Bool) :
    Plan (Fields × MonitorTransition) := do
  let r ← readObservation clock existing observation reactivate
  let previousEffect := text (existing.lookup "monitor_effect_id")
  let previousGeneration ← counter (existing.lookup "material_change_generation")
  let previousNoChange ← counter (existing.lookup "consecutive_no_change")
  let replay := decide (r.effectId ≠ "" ∧ r.effectId = previousEffect)
  checkHistory existing r replay
  let previousHash := text (existing.lookup "result_hash")
  throwWhen (reactivate ∧ replay)
    "a historical Monitor observation cannot reactivate completed work"
  let advances := !replay && r.material && (reactivate || r.resultHash ≠ previousHash)
  let generation := previousGeneration + advances.toNat
  let noChange := if replay then previousNoChange
    else if r.material || (previousHash ≠ "" && previousHash ≠ r.resultHash) then 0
    else previousNoChange + 1
  throwWhen (JsNumber.maxSafeInteger < generation ∨ JsNumber.maxSafeInteger < noChange)
    counterOverflow
  return (if replay then replayMetadata existing else observedMetadata r noChange generation, {
    monitorEffectId := textOrNull r.effectId
    providerReplayed := replay
    resultHash := r.resultHash
    materialChange := r.material
    materialChangeApplied := advances
    materialChangeGeneration := generation
    consecutiveNoChange := noChange
    lastCheckedAt := r.generatedAt
    targetKey := textOrNull r.target
    cadence := textOrNull r.cadence
    nextDueAt := r.due })

def TODO_MONITOR_METADATA_REQUEST_SCHEMA : String := "loopx_todo_monitor_metadata_request_v0"

def requireJsonObject (value : Option Json) (label : String) : Plan Fields :=
  match value with
  | some (.object fields) => .ok fields
  | _ => .error (label ++ " must be an object")

/-- `value ?? {}` before `requireJsonObject`. -/
def objectOrEmpty (value : Option Json) (label : String) : Plan Fields :=
  match value with
  | none => .ok []
  | some .null => .ok []
  | value => requireJsonObject value label

/-- `value == null`. -/
def nullish : Option Json → Bool
  | none => true
  | some .null => true
  | _ => false

/-- The observation of a request, planned. -/
def planObservation (clock : HostClock) (request existing : Fields) :
    Plan (Option (Fields × MonitorTransition)) :=
  if nullish (request.lookup "observation") then .ok none
  else do
    let observation ← requireJsonObject (request.lookup "observation") "monitor observation"
    let planned ← poll clock existing observation
      (request.lookup "reactivate" = some (.bool true))
    return some planned

/-- A due time for a cadence that comes without one. -/
def fillDue (clock : HostClock) (request metadata : Fields) : Plan Fields :=
  if nullish (request.lookup "generated_at") = false ∧
      request.lookup "task_class" = some (.string "continuous_monitor") ∧
      nullish (metadata.lookup "next_due_at") ∧ nullish (metadata.lookup "cadence") = false then do
    let planned ← schedule clock (text (request.lookup "generated_at"))
      (text (metadata.lookup "cadence")) none
    match planned.nextDueAt with
    | some due => return setKey metadata "next_due_at" (.string due)
    | none => return metadata
  else .ok metadata

/-- A Monitor ends some day, waits for something, or is declared to watch only. -/
def checkBounded (request existing metadata : Fields) : Plan Unit := do
  let enforce ← requireBoolean (request.lookup "enforce_boundedness") "enforce_boundedness"
  let effective := fun field => (metadata.lookup field).or (existing.lookup field)
  throwWhen ((enforce ∧ request.lookup "task_class" = some (.string "continuous_monitor")) ∧
      text (effective "expires_at") = "" ∧ text (request.lookup "resume_when") = "" ∧
      String.ofList ((text (effective "watch_only")).toList.map Char.toLower) ≠ "true")
    "continuous_monitor requires one of: --expires-at, --resume-when, or --watch-only"

structure MonitorMetadataPlan where
  metadata : Fields
  transition : Option MonitorTransition
deriving DecidableEq

def planMonitorMetadata (clock : HostClock) (value : Option Json) : Plan MonitorMetadataPlan := do
  let request ← requireJsonObject value "monitor metadata request"
  throwWhen (request.lookup "schema_version" ≠
      some (.string TODO_MONITOR_METADATA_REQUEST_SCHEMA))
    "monitor metadata request schema mismatch"
  let existing ← objectOrEmpty (request.lookup "existing") "monitor source"
  let planned ← planObservation clock request existing
  throwWhen (planned.isSome ∧ nullish (request.lookup "metadata") = false)
    "monitor observation cannot be combined with raw metadata"
  let raw ← match planned with
    | some planned => .ok planned.1
    | none => objectOrEmpty (request.lookup "metadata") "monitor metadata"
  let metadata ← normalizeMetadata clock raw
  let nonTarget := metadata.any fun entry => entry.1 ≠ "target_key" && entry.2 ≠ .null
  throwWhen (nonTarget ∧ (request.lookup "role" ≠ some (.string "agent") ∨
      request.lookup "task_class" ≠ some (.string "continuous_monitor")))
    "monitor schedule metadata requires --role agent --task-class continuous_monitor"
  throwWhen (nullish (metadata.lookup "target_key") = false ∧
      request.lookup "role" ≠ some (.string "agent"))
    "target_key requires --role agent"
  let metadata ← fillDue clock request metadata
  checkBounded request existing metadata
  return ⟨metadata, planned.map Prod.snd⟩

/-! The writeback of one observation: the part of `planWriteback` that plans the Monitor's metadata
and merges it into the Todo. -/

/-- `Number(value)` of a digit string. -/
def numberOf (value : Json) : Json :=
  match signedDigits? (text (some value)) with
  | some (negative, magnitude) =>
    .number (JsNumber.ofInt (if negative then -(magnitude : Int) else magnitude))
  | none => value

/-- One entry of the plan on the Todo; a generation is kept as a number. -/
def mergeEntry (todo : Fields) (entry : String × Json) : Fields :=
  if entry.2 = .null then eraseKey todo entry.1
  else setKey todo entry.1
    (if entry.1 = "material_change_generation" then numberOf entry.2 else entry.2)

def mergeMetadata (todo metadata : Fields) : Fields :=
  (canonicalEntries metadata).foldl mergeEntry todo

def optionalNonEmptyString (value : Option Json) (label : String) : Plan (Option String) :=
  match value with
  | none => .ok none
  | some .null => .ok none
  | some (.string s) =>
    if s = "" then .ok none
    else if trim s = "" then .error (label ++ " must be a non-empty string")
    else .ok (some s)
  | some _ => .error (label ++ " must be a non-empty string")

/-- One poll of a Monitor: what is observed, and what the caller asks with it. -/
structure Submission where
  observation : Fields
  reactivate : Bool
  enforceBoundedness : Bool
  resumeWhen : Option Json
  generatedAt : Option Json
  actor : Option String
deriving DecidableEq

/-- The request of a poll on a Todo. -/
def Submission.request (s : Submission) (todo : Fields) : Fields :=
  [("schema_version", .string TODO_MONITOR_METADATA_REQUEST_SCHEMA), ("existing", .object todo),
    ("role", .string "agent"), ("task_class", .string "continuous_monitor"),
    ("enforce_boundedness", .bool s.enforceBoundedness), ("reactivate", .bool s.reactivate),
    ("resume_when", s.resumeWhen.getD .null), ("generated_at", s.generatedAt.getD .null),
    ("observation", .object s.observation)]

def writeback (clock : HostClock) (todo : Fields) (s : Submission) :
    Plan (Fields × MonitorMetadataPlan) := do
  let plan ← planMonitorMetadata clock (some (.object (s.request todo)))
  let stamped := setKey (setKey todo "last_actor_agent_id" ((s.actor.map Json.string).getD .null))
    "updated_at" ((s.observation.lookup "generated_at").getD .null)
  let updated := mergeMetadata stamped plan.metadata
  let reason ← optionalNonEmptyString (s.observation.lookup "reason_summary") "reason_summary"
  match reason with
  | some reason => return (setKey updated "reason" (.string reason), plan)
  | none => return (updated, plan)

end Loopx.Todos
