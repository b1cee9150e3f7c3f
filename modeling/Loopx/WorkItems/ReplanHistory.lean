/- GID: Loopx/WorkItems/ReplanHistory
   generality: I
   source: loopx/control_plane/work_items/replan_history.ts,
   loopx/control_plane/quota/settlement_phase.ts
   digest: Which history of a lane triggers a replan. -/

import Loopx.Lib.FreshKeys
import Loopx.Todos.ResumeEvaluation

set_option autoImplicit false
set_option relaxedAutoImplicit false

namespace Loopx.WorkItems

open Loopx.Authority (trim)
open Loopx.Json (JsNumber authorityUnicodeCompare stringify)
open Loopx.Lib.Fallible
open Loopx.Lib.FreshKeys (fresh)
open Loopx.Todos (Fields Plan nullish optionalNonEmptyString requireBoolean requireJsonObject
  requireNonEmptyString requireStringArray isTodoIdText jsTruthy coalesce)

/-- What lies outside: the resume planner (its Monitor-blocked and deferred items), the timestamp
codec in its aware mode, and the lower case of a text. -/
structure ReplanHost where
  resumePlanning : Fields → Plan (List Fields)
  awareTimestamp : String → Option Int
  toLowerCase : List Char → List Char

/-! ## The request -/

/-- `PROGRESS_RESULT_CLASSES`. -/
inductive ProgressResult where
  | advanced | unchanged | blocked | exploration_exhausted | no_followup
deriving DecidableEq

def ProgressResult.read? (s : String) : Option ProgressResult :=
  if s = "advanced" then some .advanced else if s = "unchanged" then some .unchanged
  else if s = "blocked" then some .blocked
  else if s = "exploration_exhausted" then some .exploration_exhausted
  else if s = "no_followup" then some .no_followup else none

structure Progress where
  fingerprint : String
  result : ProgressResult
  payload : Fields

structure Monitor where
  target : Option String
  mode : Option String
  material : Option Bool
  frontier : Option String
  todo : Option String
  key : Option String

/-- What settlement looks at of a run. -/
structure RetryFacts where
  todo_id : Option Json
  blocked_retry : Option Json
  delivery_outcome : Option Json
  progress_observation : Option Json
  turn_instance_id : Option Json

structure Run where
  retryFacts : RetryFacts
  agent : Option String
  publicAgent : Option String
  monitorAgent : Option String
  classification : String
  generatedAt : String
  observedAt : Option JsNumber
  turn : Option String
  ack : Bool
  progress : Option Progress
  monitor : Monitor

/-- The row carries a typed observation. -/
def Run.typed (run : Run) : Bool := run.progress.isSome

structure MonitorTodo where
  id : Option String
  claim : Option String
  publicClaim : Option String
  target : String
  count : Int
  due : Option JsNumber
  expiry : Option JsNumber

structure Advancement where
  status : String
  taskClass : String
  claim : Option String

structure ReplanTodos where
  monitors : List MonitorTodo
  advancements : List Advancement
  resume : Option Fields

inductive ReplanOperation where
  | all | progress | periodic | monitor_streak | frontier_monitor_streak
deriving DecidableEq

def ReplanOperation.read? (s : String) : Option ReplanOperation :=
  if s = "all" then some .all else if s = "progress" then some .progress
  else if s = "periodic" then some .periodic else if s = "monitor_streak" then some .monitor_streak
  else if s = "frontier_monitor_streak" then some .frontier_monitor_streak else none

structure ReplanRequest where
  retryObservedAt : Option String
  operation : ReplanOperation
  observedAt : Option JsNumber
  agent : Option String
  monitorAgent : Option String
  runs : List Run
  neutral : List String
  stall : Nat
  periodic : Nat
  stride : String
  monitor : Nat
  streak : Int
  monitorSchema : String
  todos : ReplanTodos

def text (value : Option Json) (label : String) : Plan String :=
  match value with
  | some (.string s) => .ok s
  | _ => .error (label ++ " must be a string")

def integer (value : Option Json) (label : String) (minimum : Int) : Plan Int :=
  let error := label ++ " must be a safe integer >= " ++ toString minimum
  match value with
  | some (.number n) =>
    match n.safeInteger? with
    | some i => if i < minimum then .error error else .ok i
    | none => .error error
  | _ => .error error

def time (value : Option Json) (label : String) : Plan (Option JsNumber) :=
  match value with
  | some .null => .ok none
  | some (.number n) => .ok (some n)
  | _ => .error (label ++ " must be a finite timestamp or null")

/-- A missing time is no time. -/
def optionalTime (value : Option Json) (label : String) : Plan (Option JsNumber) :=
  if value = none then .ok none else time value label

/-- `requireStringLiteral`, with the reading of the literal. -/
def literal {α : Type} (read? : String → Option α) (value : Option Json) (label : String) :
    Plan α := do
  let candidate ← requireNonEmptyString value label
  match read? candidate with
  | some a => .ok a
  | none => .error (label ++ " is unsupported")

def rows {α : Type} (value : Option Json) (label : String) (decode : Fields → Plan α) :
    Plan (List α) :=
  match value with
  | some (.array items) => items.mapM fun item => do
    let row ← requireJsonObject (some item) label
    decode row
  | _ => .error (label ++ " must be an array")

def decodeProgress (value : Option Json) : Plan (Option Progress) :=
  if value = some .null then .ok none
  else do
    let payload ← requireJsonObject value "progress"
    let _ ← literal (fun s => if s = "typed_progress_observation_v0" then some () else none)
      (payload.lookup "schema_version") "progress schema"
    let fingerprint ← requireNonEmptyString (payload.lookup "fingerprint") "fingerprint"
    let result ← literal ProgressResult.read? (payload.lookup "result_class") "result_class"
    .ok (some { fingerprint, result, payload })

/-- `monitor.material_change`, where it is given. -/
def materialChange (value : Option Json) : Plan (Option Bool) :=
  if nullish value then .ok none else (requireBoolean value "material_change").map some

def decodeRun (row : Fields) : Plan Run := do
  let monitor ← requireJsonObject (row.lookup "monitor") "monitor"
  let agent ← optionalNonEmptyString (row.lookup "agent_id") "run.agent_id"
  let publicAgent ← optionalNonEmptyString (row.lookup "public_agent_id") "public_agent_id"
  let monitorAgent ← optionalNonEmptyString (row.lookup "monitor_agent_id") "run.monitor_agent_id"
  let classification ← text (row.lookup "classification") "classification"
  let generatedAt ← text (row.lookup "generated_at") "generated_at"
  let observedAt ← time (row.lookup "observed_at") "observed_at"
  let turn ← optionalNonEmptyString (row.lookup "turn_id") "turn_id"
  let ack ← requireBoolean (row.lookup "accepted_ack") "accepted_ack"
  let progress ← decodeProgress (row.lookup "progress")
  let target ← optionalNonEmptyString (monitor.lookup "target_id") "target_id"
  let mode ← optionalNonEmptyString (monitor.lookup "mode") "mode"
  let material ← materialChange (monitor.lookup "material_change")
  let frontier ← optionalNonEmptyString (monitor.lookup "frontier") "frontier"
  let todo ← optionalNonEmptyString (monitor.lookup "todo_id") "todo_id"
  let key ← optionalNonEmptyString (monitor.lookup "target_key") "target_key"
  .ok
    { retryFacts := ⟨row.lookup "todo_id", row.lookup "blocked_retry",
        row.lookup "delivery_outcome", row.lookup "progress", row.lookup "turn_id"⟩
      agent, publicAgent, monitorAgent, classification, generatedAt, observedAt, turn, ack
      progress, monitor := { target, mode, material, frontier, todo, key } }

def decodeMonitorTodo (row : Fields) : Plan MonitorTodo := do
  let id ← optionalNonEmptyString (row.lookup "id") "monitor.id"
  let claim ← optionalNonEmptyString (row.lookup "claim") "claim"
  let publicClaim ← optionalNonEmptyString (row.lookup "public_claim") "public_claim"
  let target ← text (row.lookup "target") "monitor.target"
  let count ← integer (row.lookup "no_change_count") "no_change_count" (-9007199254740991)
  let due ← time (row.lookup "due_at") "due_at"
  let expiry ← time (row.lookup "expires_at") "expires_at"
  .ok { id, claim, publicClaim, target, count, due, expiry }

def decodeAdvancement (row : Fields) : Plan Advancement := do
  let status ← text (row.lookup "status") "status"
  let taskClass ← text (row.lookup "task_class") "task_class"
  let claim ← optionalNonEmptyString (row.lookup "claim") "claim"
  .ok { status, taskClass, claim }

def normalizeStrideStrategy (value : Option Json) : Plan String :=
  match value with
  | none => .ok "off"
  | some (.string s) =>
    if s ∈ ["off", "evidence_conditioned_v1"] then .ok s
    else .error "stride_strategy must be off or evidence_conditioned_v1"
  | some _ => .error "stride_strategy must be off or evidence_conditioned_v1"

def resumeSource (value : Option Json) : Plan (Option Fields) :=
  if value = some .null then .ok none else (requireJsonObject value "resume").map some

/-- `decode`. -/
def decodeReplan (value : Json) : Plan ReplanRequest := do
  let raw ← requireJsonObject (some value) "replan history"
  let _ ← literal (fun s => if s = "replan_history_request_v0" then some () else none)
    (raw.lookup "schema_version") "replan history schema"
  let todo ← requireJsonObject (raw.lookup "todos") "todos"
  let operation ← literal ReplanOperation.read? (raw.lookup "operation") "operation"
  let observedAt ← optionalTime (raw.lookup "observed_at") "observed_at"
  throwWhen (operation = .frontier_monitor_streak ∧ observedAt = none)
    "frontier monitor streak requires observed_at"
  let retryObservedAt ← optionalNonEmptyString (raw.lookup "retry_observed_at") "retry_observed_at"
  let agent ← optionalNonEmptyString (raw.lookup "agent_id") "agent_id"
  let monitorAgent ← optionalNonEmptyString (raw.lookup "monitor_agent_id") "monitor_agent_id"
  let neutral ← requireStringArray (raw.lookup "neutral_classifications") "neutral_classifications"
  let stall ← integer (raw.lookup "stall_threshold") "stall_threshold" 2
  let periodic ← integer (raw.lookup "periodic_threshold") "periodic_threshold" 1
  let stride ← normalizeStrideStrategy (raw.lookup "stride_strategy")
  let monitor ← integer (raw.lookup "monitor_threshold") "monitor_threshold" 1
  let streak ← integer (raw.lookup "streak_threshold") "streak_threshold" 1
  let monitorSchema ← requireNonEmptyString (raw.lookup "monitor_schema") "monitor_schema"
  let runs ← rows (raw.lookup "runs") "runs" decodeRun
  let resume ← resumeSource (todo.lookup "resume")
  let monitors ← rows (todo.lookup "monitors") "monitors" decodeMonitorTodo
  let advancements ← rows (todo.lookup "advancements") "advancements" decodeAdvancement
  .ok
    { retryObservedAt, operation, observedAt, agent, monitorAgent, runs
      -- Older callers may omit the no-change writebacks.
      neutral := neutral ++ ["replan_noop", "repair_noop"]
      stall := stall.toNat, periodic := periodic.toNat, stride, monitor := monitor.toNat, streak
      monitorSchema, todos := { monitors, advancements, resume } }

/-! ## The lane -/

/-- Scope before acknowledgement: a peer cannot discharge this lane. -/
def historyLane (request : ReplanRequest) : Option String :=
  request.agent.or
    (if request.operation = .all then
      (request.runs.find? fun run =>
        !request.neutral.contains run.classification && run.agent.isSome).bind (·.agent)
    else none)

/-- The rows of a lane up to its latest acknowledgement. -/
def windowRows (neutral : List String) (agent : Option String) : List Run → List Run
  | [] => []
  | run :: rest =>
    if agent.isSome ∧ run.agent.isSome ∧ run.agent ≠ agent then windowRows neutral agent rest
    else if run.ack then []
    else if neutral.contains run.classification then windowRows neutral agent rest
    else run :: windowRows neutral agent rest

def historyWindow (request : ReplanRequest) : List Run :=
  windowRows request.neutral (historyLane request) request.runs

/-- The one value there is, apart from missing ones. -/
def sole (values : List (Option String)) : Option String :=
  match values.reduceOption.dedup with
  | [value] => some value
  | _ => none

/-- The key of a row's turn in a lane: `JSON.stringify([agent ?? lane, turn])`. -/
def turnKey (lane : Option String) (run : Run) : Option String :=
  run.turn.map fun turn =>
    stringify (.array [((run.agent.or lane).map Json.string).getD .null, .string turn])

/-- De-duplicate accepted evidence, not arbitrary records that share its turn. -/
def distinctTurns (counts : Run → Bool) (runs : List Run) : List Run :=
  fresh (turnKey (sole (runs.map (·.agent)))) counts [] runs

/-! ## The triggers -/

/-- The typed observations of `progressTrigger`, with those found so far. -/
def observeProgress (stall : Nat) : List Run → List Run → List Run
  | observed, [] => observed
  | observed, run :: rest =>
    if !run.typed then
      if observed = [] then observeProgress stall observed rest else observed
    else if stall ≤ (observed ++ [run]).length then observed ++ [run]
    else observeProgress stall (observed ++ [run]) rest

def optionJson (value : Option String) : Json := (value.map Json.string).getD .null

def natJson (n : Nat) : Json := .number (JsNumber.ofNat n)

/-- A row's fingerprint, where it is typed. -/
def Run.fingerprint (run : Run) : Option String := run.progress.map (·.fingerprint)

def progressTrigger (request : ReplanRequest) (runs : List Run) : Option Fields :=
  let observed := observeProgress request.stall [] (distinctTurns Run.typed runs)
  if observed.length < request.stall then none
  else
    match observed.head?, observed.head?.bind (·.progress), observed.getLast? with
    | some first, some progress, some last =>
      if (sole (observed.map Run.fingerprint)).isSome ∧
          progress.result ∈ [ProgressResult.unchanged, ProgressResult.blocked] then
        some [("kind", .string "typed_progress_repeat"),
          ("schema_version", .string "typed_progress_observation_v0"),
          ("agent_id", optionJson request.agent), ("run_count", natJson request.stall),
          ("threshold", natJson request.stall),
          ("progress_fingerprint", .string progress.fingerprint),
          ("progress_baseline", .object progress.payload),
          ("latest_generated_at", .string first.generatedAt),
          ("oldest_counted_generated_at", .string last.generatedAt)]
      else none
    | _, _, _ => none

/-- A row of work: not a poll of a Monitor without a material change. -/
def isWork (run : Run) : Bool :=
  run.classification ≠ "" &&
    (run.classification ≠ "quota_monitor_poll" || run.monitor.material = some true)

def isQualified (qualified : Option (List String)) (run : Run) : Bool :=
  match qualified with
  | none => true
  | some keys =>
    run.agent.isSome && run.turn.isSome &&
      keys.contains (stringify (.array [optionJson run.agent, optionJson run.turn]))

def lookupString (fields : Fields) (key : String) : Option String :=
  match fields.lookup key with
  | some (.string s) => some s
  | _ => none

def objectOf : Option Json → Option Fields
  | some (.object fields) => some fields
  | _ => none

/-- `isCanonicalTodoId` of the trimmed text in lower case. -/
def retryTodoId (host : ReplanHost) (facts : RetryFacts) : Option String :=
  match facts.todo_id with
  | some (.string s) =>
    let id := host.toLowerCase (trim s).toList
    if isTodoIdText id then some (String.ofList id) else none
  | _ => none

/-- `qualifySettlementHistory([facts], observedAt).active_retry_indexes.length`: the row carries a
bounded retry of its own turn that is still due. -/
def activeRetry (host : ReplanHost) (facts : RetryFacts) (observedAt : Option String) : Bool :=
  (do
    let now ← host.awareTimestamp (← observedAt)
    let todoId ← retryTodoId host facts
    let retry ← objectOf facts.blocked_retry
    let progress ← objectOf facts.progress_observation
    let turn ← match facts.turn_instance_id with
      | some (.string s) => some s
      | _ => none
    let observedText ← lookupString retry "observed_at"
    let dueText ← lookupString retry "due_at"
    let observed ← host.awareTimestamp observedText
    let due ← host.awareTimestamp dueText
    pure (decide (lookupString retry "schema_version" = some "quota_blocked_retry_v0" ∧
      lookupString retry "source" = some "turn_settlement" ∧
      lookupString retry "todo_id" = some todoId ∧
      facts.delivery_outcome = some (Json.string "outcome_gap") ∧
      lookupString progress "result_class" = some "blocked" ∧ trim turn ≠ "" ∧
      lookupString retry "resume_when" = some ("resume_at:" ++ dueText) ∧ now < due ∧
      60000000 ≤ due - observed ∧ due - observed ≤ 1800000000))).getD false

def periodicTrigger (host : ReplanHost) (request : ReplanRequest) (runs : List Run)
    (qualified : Option (List String)) : Option Fields :=
  let durable := (distinctTurns (fun _ => true)
    (runs.filter fun run => isQualified qualified run && isWork run)).take request.periodic
  if durable.length < request.periodic then none
  else
    let latestWork := runs.find? isWork
    let lane := request.agent.or (sole (runs.map (·.agent)))
    -- A bounded retry of the latest work is respected until it expires.
    if lane.isSome ∧ (latestWork.bind (·.agent)) = lane ∧
        (latestWork.any fun run => activeRetry host run.retryFacts request.retryObservedAt) then
      none
    else
      some [("kind", .string "periodic_review_due"), ("section", .string "run_history"),
        ("text", .string ("latest " ++ toString durable.length ++ " " ++
          (if qualified.isSome then "settled work Turns" else "durable public run records") ++
          " since last autonomous replan reached periodic review threshold " ++
          toString request.periodic)),
        ("run_count", natJson durable.length), ("threshold", natJson request.periodic),
        ("latest_generated_at", optionJson (durable.head?.map (·.generatedAt))),
        ("oldest_counted_generated_at", optionJson (durable.getLast?.map (·.generatedAt))),
        ("agent_id", optionJson (sole (durable.map (·.publicAgent))))]

/-- `left < right` of two numbers. -/
def numberLt (left right : JsNumber) : Bool :=
  let e := min left.exponent right.exponent
  left.coefficient * 10 ^ (left.exponent - e).toNat <
    right.coefficient * 10 ^ (right.exponent - e).toNat

/-- The Monitor of an id for an agent: the last row with that id stands in the map. -/
def monitorOf (request : ReplanRequest) (agent id : String) : Option MonitorTodo :=
  (request.todos.monitors.filter fun row =>
    row.id = some id && (row.claim.isNone || row.claim = some agent)).getLast?

/-- The ids a waiting item may be woken by. -/
def wakingIds (row : Fields) : List Json :=
  let condition := objectOf (row.lookup "resume_condition")
  let target := coalesce (row.lookup "blocking_monitor_todo_id")
    (coalesce (condition.bind (·.lookup "target_todo_id")) (condition.bind (·.lookup "target")))
  target.toList ++
    (match row.lookup "successor_todo_ids" with
      | some (.array ids) => ids
      | _ => [])

/-- The Monitor is due later and does not expire before. -/
def dueLater (observedAt : JsNumber) (monitor : MonitorTodo) : Bool :=
  monitor.due.any fun due => numberLt observedAt due &&
    monitor.expiry.all fun expiry => numberLt observedAt expiry && numberLt due expiry

/-- The id is that of a Monitor that is due later. -/
def wokenLater (request : ReplanRequest) (agent : String) (observedAt : JsNumber) (id : Json) :
    Bool :=
  match id with
  | .string id => (monitorOf request agent id).any (dueLater observedAt)
  | _ => false

def futureBlockingMonitor (host : ReplanHost) (request : ReplanRequest) (signals : List Run) :
    Plan Bool :=
  let agent := (sole (signals.map (·.monitorAgent))).or request.monitorAgent
  match signals.head?.bind (·.observedAt), agent, request.todos.resume with
  | some observedAt, some agent, some resume =>
    if request.todos.monitors.any fun row =>
        row.id.isSome && (row.claim.isNone || row.claim = some agent) then do
      let items ← host.resumePlanning resume
      .ok (items.any fun row =>
        !(jsTruthy (row.lookup "claimed_by") && row.lookup "claimed_by" ≠ some (.string agent)) &&
          (wakingIds row).any (wokenLater request agent observedAt))
    else .ok false
  | _, _, _ => .ok false

/-- A poll of a Monitor that names its target and mode. -/
def isSignal (run : Run) : Bool :=
  run.classification = "quota_monitor_poll" && run.monitor.target.isSome && run.monitor.mode.isSome

def blockedSuccessorMode : String := "blocked_successor_wait_without_material_transition"

def repeatedModes : List String :=
  ["due_monitor_observed_without_material_transition",
    "external_monitor_observed_without_material_transition"]

def isRepeated (run : Run) : Bool :=
  (run.monitor.todo.isSome || run.monitor.key.isSome) &&
    run.monitor.mode.any fun mode => mode ∈ repeatedModes

def monitorTrigger (host : ReplanHost) (request : ReplanRequest) (runs : List Run) :
    Plan (Option Fields) :=
  let signals := ((distinctTurns (fun _ => true) runs).takeWhile isSignal).take
    (max request.stall request.monitor)
  if signals.length < request.stall then .ok none
  else
    let blocked := signals.take request.stall
    if blocked.all fun run => run.monitor.mode = some blockedSuccessorMode then do
      let future ← futureBlockingMonitor host request blocked
      if future then .ok none
      else
        match sole (blocked.map (·.monitor.target)), sole (blocked.map (·.monitor.frontier)) with
        | some target, some frontier =>
          .ok (some [("kind", .string "blocked_successor_no_progress_repeat"),
            ("section", .string "run_history"), ("run_count", natJson blocked.length),
            ("threshold", natJson request.stall), ("monitor_target_id", .string target),
            ("frontier_identity", .string frontier),
            ("latest_generated_at", optionJson (blocked.head?.map (·.generatedAt))),
            ("agent_id", optionJson (sole (blocked.map (·.agent))))])
        | _, _ => .ok none
    else
      let repeated := (signals.filter isRepeated).take request.monitor
      match sole (repeated.map (·.monitor.target)) with
      | some target =>
        if repeated.length < request.monitor then .ok none
        else
          .ok (some [("kind", .string "dead_monitor_repeat"),
            ("schema_version", .string request.monitorSchema), ("section", .string "run_history"),
            ("run_count", natJson repeated.length), ("threshold", natJson request.monitor),
            ("monitor_target_id", .string target),
            ("latest_generated_at", optionJson (repeated.head?.map (·.generatedAt))),
            ("agent_id", optionJson (sole (repeated.map (·.agent))))])
      | none => .ok none

/-- `monitorIsActive`. -/
def monitorIsActive (expiry : Option JsNumber) (now : JsNumber) : Bool :=
  expiry.all fun expiry => numberLt now expiry

/-- The Monitors with a streak, longest first; the frontier breaks a tie by target. -/
def stalledMonitors (request : ReplanRequest) (frontier : Bool) : List MonitorTodo :=
  (request.todos.monitors.filter fun row =>
    request.streak ≤ row.count && request.observedAt.all (monitorIsActive row.expiry)).insertionSort
    fun a b => b.count < a.count ∨
      (a.count = b.count ∧ (frontier = true → authorityUnicodeCompare a.target b.target ≤ 0))

def monitorStreak (request : ReplanRequest) : Option Fields :=
  let frontier := request.operation = .frontier_monitor_streak
  match stalledMonitors request frontier with
  | [] => none
  | stalled :: _ =>
    let told := "monitor " ++ stalled.target ++ " recorded " ++ toString stalled.count ++
      " consecutive unchanged polls without "
    if frontier then
      some [("kind", .string "monitor_no_change_streak"),
        ("section", .string "agent_todo_summary.monitor_open_items"),
        ("text", .string (told ++ "selectable advancement")), ("todo_id", optionJson stalled.id),
        ("monitor_target_id", .string stalled.target),
        ("run_count", .number (JsNumber.ofInt stalled.count)),
        ("threshold", .number (JsNumber.ofInt request.streak)),
        ("agent_id", optionJson request.agent)]
    else if request.todos.advancements.any fun row =>
        row.status = "open" && row.taskClass = "advancement_task" &&
          (row.claim.isNone || row.claim = stalled.publicClaim) then none
    else
      some [("kind", .string "monitor_no_change_streak"),
        ("schema_version", .string request.monitorSchema), ("section", .string "agent_todos"),
        ("text", .string (told ++ "runnable advancement")),
        ("run_count", .number (JsNumber.ofInt stalled.count)),
        ("threshold", .number (JsNumber.ofInt request.streak)),
        ("monitor_target_id", .string stalled.target),
        ("agent_id", optionJson stalled.publicClaim)]

/-- The trigger of a decoded request. -/
def replanTrigger (host : ReplanHost) (request : ReplanRequest)
    (qualified : Option (List String)) : Plan (Option Fields) :=
  let runs := historyWindow request
  match request.operation with
  | .all =>
    match progressTrigger request runs with
    | some trigger => .ok (some trigger)
    | none => do
      match ← monitorTrigger host request runs with
      | some trigger => .ok (some trigger)
      | none => .ok (periodicTrigger host request runs qualified)
  | .progress => .ok (progressTrigger request runs)
  | .periodic => .ok (periodicTrigger host request runs qualified)
  | .monitor_streak | .frontier_monitor_streak => .ok (monitorStreak request)

def projectReplanHistory (host : ReplanHost) (value : Json) (qualified : Option (List String)) :
    Plan Json := do
  let request ← decodeReplan value
  let trigger ← replanTrigger host request qualified
  .ok (.object [("schema_version", .string "replan_history_result_v0"),
    ("trigger", (trigger.map Json.object).getD .null)])

end Loopx.WorkItems
