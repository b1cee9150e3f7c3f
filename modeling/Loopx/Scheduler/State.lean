/- GID: Loopx/Scheduler/State
   generality: I
   source: loopx/control_plane/scheduler/state_store.ts
   digest: Scheduler state records: RRULE texts, the host failure cache, normalization. -/

import Loopx.Authority.Codec

set_option autoImplicit false
set_option relaxedAutoImplicit false

namespace Loopx.Scheduler

open Loopx.Json (JsNumber numberText)
open Loopx.Authority (trim isJsSpace)
open Loopx.Lib.KeyedList

/-- What the runtime's clock and `Date.parse` answer. -/
structure HostClock where
  dateParse : String → Option Int
  now : Int

mutual

/-- `String(value)`. -/
def jsString : Json → String
  | .null => "null"
  | .bool true => "true"
  | .bool false => "false"
  | .number n => String.ofList (numberText n)
  | .string s => s
  | .array items => jsJoin items
  | .object _ => "[object Object]"

/-- `Array.prototype.join`: a null item is empty. -/
def jsJoin : List Json → String
  | [] => ""
  | [.null] => ""
  | [item] => jsString item
  | .null :: rest => "," ++ jsJoin rest
  | item :: rest => jsString item ++ "," ++ jsJoin rest

end

def pythonTruthy : Option Json → Bool
  | none => false
  | some .null => false
  | some (.bool b) => b
  | some (.number n) => n.coefficient ≠ 0
  | some (.string s) => s ≠ ""
  | some (.array items) => items ≠ []
  | some (.object fields) => fields ≠ []

def pythonString : Option Json → String
  | none => "None"
  | some .null => "None"
  | some (.bool true) => "True"
  | some (.bool false) => "False"
  | some value => jsString value

def stringOrEmpty (value : Option Json) : String :=
  if pythonTruthy value then pythonString value else ""

def trimmed (value : Option Json) : String := trim (stringOrEmpty value)

/-- `Math.trunc`. -/
def truncate (n : JsNumber) : Int :=
  if 0 ≤ n.exponent then n.coefficient * 10 ^ n.exponent.toNat
  else n.coefficient.tdiv (10 ^ (-n.exponent).toNat)

/-- `/^[+-]?\d+$/`, read as a safe integer. -/
def integerText? (s : String) : Option Int :=
  let (negative, digits) := match s.toList with
    | '-' :: rest => (true, rest)
    | '+' :: rest => (false, rest)
    | cs => (false, cs)
  if digits ≠ [] ∧ digits.all Char.isDigit then
    let magnitude := Nat.ofDigitChars 10 digits 0
    if magnitude ≤ JsNumber.maxSafeInteger then
      some (if negative then -(magnitude : Int) else magnitude)
    else none
  else none

def pythonInteger : Option Json → Option Int
  | some (.bool b) => some (if b then 1 else 0)
  | some (.number n) => some (truncate n)
  | some (.string s) => integerText? (trim s)
  | _ => none

/-- The recurrence text of a number of minutes. -/
def rruleForMinutes (minutes : Int) : String :=
  "FREQ=MINUTELY;INTERVAL=" ++ String.ofList (numberText (JsNumber.ofInt (max 1 minutes)))

/-- `replace(/\s+/g, " ")`; the flag says that a blank was just written. -/
def collapseSpace : Bool → List Char → List Char
  | _, [] => []
  | after, c :: cs =>
    if isJsSpace c then
      if after then collapseSpace true cs else ' ' :: collapseSpace true cs
    else c :: collapseSpace false cs

/-- `toUpperCase` as far as it decides a comparison with the upper-case ASCII words below: the
dotless i is the one other letter that turns into one of theirs. -/
def upperChar (c : Char) : Char :=
  if 'a' ≤ c ∧ c ≤ 'z' then Char.ofNat (c.toNat - 32)
  else if c.toNat = 0x131 then 'I'
  else c

/-- One normalization of an RRULE text; only one `RRULE:` is taken off. -/
def normalizeRruleText (s : String) : String :=
  let text := collapseSpace false (trim s).toList
  if (text.take 6).map upperChar = "RRULE:".toList then trim (String.ofList (text.drop 6))
  else String.ofList text

def normalizeSchedulerRrule (value : Option Json) : String :=
  normalizeRruleText (stringOrEmpty value)

/-- `part.indexOf("=")`, as the two sides of it. -/
def splitAtEquals (part : List Char) : Option (List Char × List Char) :=
  if '=' ∈ part then some (part.takeWhile (· ≠ '='), (part.dropWhile (· ≠ '=')).drop 1) else none

/-- The `;` parts of a recurrence as a map; a later part of the same name wins. -/
def rruleParts (text : String) : List (String × String) :=
  (text.toList.splitOn ';').foldl (fun parts part =>
    match splitAtEquals part with
    | none => parts
    | some (name, value) => setKey parts
        (String.ofList ((trim (String.ofList name)).toList.map upperChar))
        (trim (String.ofList value))) []

def schedulerRruleIntervalMinutes (value : Option Json) : Option Int :=
  let parts := rruleParts (normalizeSchedulerRrule value)
  if ((parts.lookup "FREQ").getD "").toList.map upperChar ≠ "MINUTELY".toList then none
  else
    match integerText? (trim ((parts.lookup "INTERVAL").getD "")) with
    | some interval => if 0 < interval then some interval else none
    | none => none

def SCHEDULER_HOST_UPDATE_FAILURE_SCHEMA_VERSION : String := "scheduler_host_update_failure_v0"

structure HostUpdateFailure where
  targetRrule : String
  observedHostRrule : String
  failureKind : String
  failureCount : Int
  failedAt : String
deriving DecidableEq

def intJson (i : Int) : Json := .number (JsNumber.ofInt i)

def HostUpdateFailure.toJson (f : HostUpdateFailure) : Json :=
  .object [("schema_version", .string SCHEDULER_HOST_UPDATE_FAILURE_SCHEMA_VERSION),
    ("target_rrule", .string f.targetRrule), ("observed_host_rrule", .string f.observedHostRrule),
    ("failure_kind", .string f.failureKind), ("failure_count", intJson f.failureCount),
    ("failed_at", .string f.failedAt)]

def normalizeSchedulerHostUpdateFailure (value : Option Json) : Option HostUpdateFailure :=
  match value with
  | some (.object input) =>
    if stringOrEmpty (input.lookup "schema_version") ≠
        SCHEDULER_HOST_UPDATE_FAILURE_SCHEMA_VERSION then none
    else
      let targetRrule := normalizeSchedulerRrule (input.lookup "target_rrule")
      let observedHostRrule := normalizeSchedulerRrule (input.lookup "observed_host_rrule")
      let failureKind := trimmed (input.lookup "failure_kind")
      let failedAt := trimmed (input.lookup "failed_at")
      match pythonInteger (input.lookup "failure_count") with
      | none => none
      | some failureCount =>
        if targetRrule = "" ∨ failureKind = "" ∨ failedAt = "" ∨ failureCount < 1 then none
        else some ⟨targetRrule, observedHostRrule, failureKind, failureCount, failedAt⟩
  | _ => none

/-- Two texts joined by a NUL, each normalized once more. -/
def failurePair (f : HostUpdateFailure) : String :=
  normalizeRruleText f.targetRrule ++ "\x00" ++ normalizeRruleText f.observedHostRrule

/-- The last failure of a pair stands, at the end of the list. -/
def pushFailure (failures : List HostUpdateFailure) (f : HostUpdateFailure) :
    List HostUpdateFailure :=
  failures.eraseP (fun item => failurePair item = failurePair f) ++ [f]

def HOST_UPDATE_FAILURE_CACHE_LIMIT : Nat := 4

/-- `slice(-4)`. -/
def lastFour (failures : List HostUpdateFailure) : List HostUpdateFailure :=
  failures.drop (failures.length - HOST_UPDATE_FAILURE_CACHE_LIMIT)

def normalizeSchedulerHostUpdateFailures (value legacyFailure : Option Json) :
    List HostUpdateFailure :=
  let candidates : List (Option Json) := match value with
    | some (.array items) => items.map some
    | _ => []
  lastFour (((candidates ++ [legacyFailure]).filterMap normalizeSchedulerHostUpdateFailure).foldl
    pushFailure [])

example : normalizeSchedulerHostUpdateFailures none none = [] := by
  unfold normalizeSchedulerHostUpdateFailures
  rfl

def failuresJson (failures : List HostUpdateFailure) : Json :=
  .array (failures.map HostUpdateFailure.toJson)

/-- A time zone at the end: `Z`, or an offset of hours and perhaps minutes. -/
def hasTimeZone (text : List Char) : Bool :=
  let rev := text.reverse
  let signed := fun cs : List Char => cs.head? = some '+' || cs.head? = some '-'
  let digits := fun (n : Nat) (cs : List Char) =>
    (cs.take n).length = n && (cs.take n).all Char.isDigit
  rev.head? = some 'z' || rev.head? = some 'Z' ||
    (digits 2 rev && signed (rev.drop 2)) ||
    (digits 4 rev && signed (rev.drop 4)) ||
    (digits 2 rev && (rev.drop 2).head? = some ':' && digits 2 (rev.drop 3) && signed (rev.drop 5))

def schedulerTimestampMilliseconds (clock : HostClock) (value : Option Json) : Option Int :=
  let text := trimmed value
  if text = "" then none
  else clock.dateParse (if hasTimeZone text.toList then text else text ++ "Z")

def HOST_UPDATE_FAILURE_TTL_MS : Int := 24 * 60 * 60 * 1000

/-- The failure is recent enough and was seen on this host RRULE. -/
def retainsFailure (clock : HostClock) (referenceTime : Option Json) (expectedHostRrule : String)
    (f : HostUpdateFailure) : Bool :=
  let now := (schedulerTimestampMilliseconds clock referenceTime).getD clock.now
  match schedulerTimestampMilliseconds clock (some (.string f.failedAt)) with
  | none => false
  | some failedAt =>
    if failedAt < now - HOST_UPDATE_FAILURE_TTL_MS then false
    else expectedHostRrule = "" || normalizeRruleText f.observedHostRrule = expectedHostRrule

def retainedSchedulerHostUpdateFailures (clock : HostClock) (value : Option Json)
    (referenceTime observedHostRrule : Option Json) : List HostUpdateFailure :=
  (normalizeSchedulerHostUpdateFailures value none).filter
    (retainsFailure clock referenceTime (normalizeSchedulerRrule observedHostRrule))

/-- `null` stands for the thrown "scheduler host update failure is invalid". -/
def mergeSchedulerHostUpdateFailure (clock : HostClock)
    (value failure referenceTime : Option Json) : Option (List HostUpdateFailure) :=
  (normalizeSchedulerHostUpdateFailure failure).map (fun normalized =>
    normalizeSchedulerHostUpdateFailures (some (failuresJson
      (retainedSchedulerHostUpdateFailures clock value referenceTime
        (some (.string normalized.observedHostRrule)) ++ [normalized]))) none)

structure SchedulerScope where
  goalId : String
  agentId : String
  surface : String
  stateKey : String
deriving DecidableEq

def CODEX_APP_SURFACE : String := "codex_app"

def CODEX_APP_STATEFUL_BACKOFF_STATE_KEY : String := "scheduler_hint.codex_app.stateful_backoff"

def SCHEDULER_STATE_SCHEMA_VERSION : String := "loopx_scheduler_state_v0"

/-- A normalized state. `others` are the fields that normalization passes through untouched
(`updated_at`, `source`, `heartbeat_commit` and any unknown one). -/
structure SchedulerState where
  scope : SchedulerScope
  resetToken : String
  identitySignature : String
  progressionIndex : Int
  progressionMinutes : List Int
  lastAppliedRrule : String
  failures : List HostUpdateFailure
  others : List (String × Json)
deriving DecidableEq

def normalizedKeys : List String :=
  ["schema_version", "goal_id", "agent_id", "surface", "state_key", "reset_token",
    "identity_signature", "progression_index", "progression_minutes", "last_applied_rrule",
    "host_update_failures", "host_update_failure"]

/-- The two failure fields, when there is a failure. -/
def failureFields (failures : List HostUpdateFailure) : List (String × Json) :=
  match failures.getLast? with
  | none => []
  | some last => [("host_update_failures", failuresJson failures),
      ("host_update_failure", last.toJson)]

def SchedulerState.fields (s : SchedulerState) : List (String × Json) :=
  [("schema_version", .string SCHEDULER_STATE_SCHEMA_VERSION), ("goal_id", .string s.scope.goalId),
    ("agent_id", .string s.scope.agentId), ("surface", .string s.scope.surface),
    ("state_key", .string s.scope.stateKey), ("reset_token", .string s.resetToken),
    ("identity_signature", .string s.identitySignature),
    ("progression_index", intJson s.progressionIndex),
    ("progression_minutes", .array (s.progressionMinutes.map intJson)),
    ("last_applied_rrule", .string s.lastAppliedRrule)] ++ failureFields s.failures ++ s.others

/-- The document that is stored. -/
def SchedulerState.toJson (s : SchedulerState) : Json := .object s.fields

def positiveIntegers : List Json → Option (List Int)
  | [] => some []
  | item :: rest =>
    match pythonInteger (some item), positiveIntegers rest with
    | some n, some ns => if n ≤ 0 then none else some (n :: ns)
    | _, _ => none

def positiveIntegerList (value : Option Json) : Option (List Int) :=
  match value with
  | some (.array items) =>
    match positiveIntegers items with
    | some [] => none
    | result => result
  | _ => none

def namesScope (state : List (String × Json)) (scope : SchedulerScope) : Bool :=
  trimmed (state.lookup "schema_version") = SCHEDULER_STATE_SCHEMA_VERSION &&
    trimmed (state.lookup "goal_id") = scope.goalId &&
    trimmed (state.lookup "agent_id") = scope.agentId &&
    trimmed (state.lookup "surface") = scope.surface &&
    trimmed (state.lookup "state_key") = scope.stateKey

def normalizeSchedulerState (value : Option Json) (scope : SchedulerScope) :
    Option SchedulerState :=
  match value with
  | some (.object state) =>
    if namesScope state scope = false then none
    else
      let resetToken := trimmed (state.lookup "reset_token")
      let identitySignature := trimmed (state.lookup "identity_signature")
      let lastAppliedRrule := trimmed (state.lookup "last_applied_rrule")
      let failures := normalizeSchedulerHostUpdateFailures (state.lookup "host_update_failures")
        (state.lookup "host_update_failure")
      if resetToken = "" ∨ identitySignature = "" then none
      else if lastAppliedRrule = "" ∧ failures = [] then none
      else
        match pythonInteger (state.lookup "progression_index"),
            positiveIntegerList (state.lookup "progression_minutes") with
        | some progressionIndex, some progressionMinutes =>
          if progressionIndex < 0 then none
          else some ⟨scope, resetToken, identitySignature, progressionIndex, progressionMinutes,
            lastAppliedRrule, failures,
            state.filter (fun field => decide (field.1 ∉ normalizedKeys))⟩
        | _, _ => none
  | _ => none

def schedulerScope (params : List (String × Json)) : SchedulerScope :=
  let surface := trimmed (params.lookup "surface")
  let stateKey := trimmed (params.lookup "state_key")
  ⟨trimmed (params.lookup "goal_id"), trimmed (params.lookup "agent_id"),
    if surface = "" then CODEX_APP_SURFACE else surface,
    if stateKey = "" then CODEX_APP_STATEFUL_BACKOFF_STATE_KEY else stateKey⟩

/-- `params.name ?? null`. -/
def paramOrNull (params : List (String × Json)) (name : String) : Json :=
  (params.lookup name).getD .null

/-- The field as it is, unless it is missing or null. -/
def presentField (params : List (String × Json)) (name : String) : List (String × Json) :=
  match params.lookup name with
  | none | some .null => []
  | some value => [(name, value)]

/-- `null` stands for the thrown "scheduler state is missing required persisted-state fields". -/
def buildSchedulerState (params : List (String × Json)) : Option SchedulerState :=
  let scope := schedulerScope params
  normalizeSchedulerState (some (.object (
    [("schema_version", .string SCHEDULER_STATE_SCHEMA_VERSION), ("goal_id", .string scope.goalId),
      ("agent_id", .string scope.agentId), ("surface", .string scope.surface),
      ("state_key", .string scope.stateKey), ("reset_token", paramOrNull params "reset_token"),
      ("identity_signature", paramOrNull params "identity_signature"),
      ("progression_index", paramOrNull params "progression_index"),
      ("progression_minutes", paramOrNull params "progression_minutes"),
      ("last_applied_rrule", paramOrNull params "last_applied_rrule"),
      ("updated_at", .string (stringOrEmpty (params.lookup "updated_at")))] ++
    presentField params "host_update_failure" ++ presentField params "host_update_failures" ++
    (if pythonTruthy (params.lookup "source") then
      [("source", .string (pythonString (params.lookup "source")))] else [])))) scope

end Loopx.Scheduler
