/- GID: Loopx/Todos/ResumeEvaluation
   generality: I
   source: loopx/control_plane/todos/resume_condition.ts
   digest: The conditions of waiting Todos; none on or behind a cycle of waits is satisfied. -/

import Loopx.Todos.CompletionDependency
import Loopx.Todos.ResumeCondition
import Loopx.Lib.Fallible
import Mathlib.Data.List.ReduceOption

set_option autoImplicit false
set_option relaxedAutoImplicit false

namespace Loopx.Todos

open Loopx.Json (JsNumber)
open Loopx.Lib.Fallible
open Loopx.Lib.FunctionalGraph
open Loopx.Lib.KeyedList
open Loopx.Authority (trim)
open Loopx.Lease (HostText)

/-- The host with the instant of a valid time text, and the hex digest of a text. -/
structure EvaluationHost extends ResumeHost where
  microseconds : List Char → Int
  sha256Hex : List Char → List Char

variable (host : EvaluationHost)

/-- `{...target, ...source}` and `Object.assign`. -/
def assign (target source : Fields) : Fields :=
  source.foldl (fun fields field => setKey fields field.1 field.2) target

def textValue (text : List Char) : Json := .string (String.ofList text)

def natValue (n : Nat) : Json := .number (JsNumber.ofNat n)

/-- `value ?? null` of an optional text. -/
def optionalText (value : Option String) : Json := (value.map Json.string).getD .null

def optionalNat (value : Option Nat) : Json := (value.map natValue).getD .null

/-- `left ?? right`. -/
def coalesce (left right : Option Json) : Option Json := if nullish left then right else left

/-! ## One condition -/

def baseCondition (spec : ResumeSpec) : Fields :=
  [("schema_version", .string "todo_resume_condition_v0"),
    ("resume_when", textValue spec.normalized), ("kind", textValue spec.kind.text),
    ("target", textValue spec.target), ("satisfied", .bool false)]

def todoDoneFields (spec : ResumeSpec) (target : Option TodoItem) : Fields :=
  [("target_todo_id", textValue spec.target),
    ("target_status", optionalText (target.bind TodoItem.status))] ++
  (match target with
    | none => []
    | some target =>
      [("target_archive_state", optionalText target.archiveState),
        ("target_source_section", optionalText target.sourceSection),
        ("target_task_class", optionalText target.taskClass)] ++
      match target.claimedBy with
      | some claimedBy =>
        if claimedBy = "" then [] else [("target_claimed_by", .string claimedBy)]
      | none => []) ++
  [("satisfied", .bool (target.bind TodoItem.status = some "done"))]

def PrBinding.projection : PrBinding → Fields
  | .bound repository source =>
    [("pr_repo", textValue repository), ("repository_binding_source", .string source)]
  | .ambiguous reason candidates =>
    [("repository_binding_state", .string "ambiguous"),
      ("repository_binding_reason", .string reason),
      ("candidate_pr_refs", .array (candidates.map textValue))]

def PrMergeMatch.fields (matched : PrMergeMatch) : Fields :=
  [("satisfied", .bool true), ("matched_event_id", matched.eventId),
    ("matched_event_kind", matched.eventKind), ("matched_pr_ref", textValue matched.prRef),
    ("matched_event_at", matched.eventAt)]

/-- What the evaluation of a wait for a merge adds to its condition. -/
def PrMergedCondition.fields (merged : PrMergedCondition) : Fields :=
  let start : Fields :=
    [("pr_number", optionalNat merged.prNumber), ("pr_repo", .null),
      ("source", .string "rollout_event_log")]
  if merged.invalidTarget then start ++ [("invalid_target", .bool true)]
  else
    assign (assign start ((merged.binding.map PrBinding.projection).getD []))
      ((merged.merge.map PrMergeMatch.fields).getD [])

def rolloutObjects (rolloutEvents : List Json) : Plan (List Fields) :=
  rolloutEvents.zipIdx.mapM fun (raw, index) =>
    requireJsonObject (some raw) ("rollout_events[" ++ index.repr ++ "]")

/-- The log is only read for a reference that names a pull request. -/
def prMergedFields (spec : ResumeSpec) (item : TodoItem) (rolloutEvents : List Json) :
    Plan Fields :=
  match normalizedPrRef host.toHostText (some (textValue spec.target)) with
  | none => .ok (prMergedCondition host.toHostText spec item []).fields
  | some _ => do
    let events ← rolloutObjects rolloutEvents
    .ok (prMergedCondition host.toHostText spec item events).fields

def capacityFields (spec : ResumeSpec) (availableCapabilities : Option (List (List Char))) :
    Fields :=
  [("provider", .string "runtime_available_capabilities"),
    ("provider_required", .bool availableCapabilities.isNone),
    ("capability", textValue spec.target),
    ("satisfied", .bool (availableCapabilities.any fun known => known.contains spec.target))]

/-- A time text and the instant it names. -/
structure ResumeTimestamp where
  iso : List Char
  microseconds : Int

def readTimestamp (text : List Char) : Option ResumeTimestamp :=
  (host.resumeTimestamp text).map fun iso => ⟨iso, host.microseconds text⟩

def resumeReceipt (item : TodoItem) (spec : ResumeSpec) (scheduled : ResumeTimestamp) : Json :=
  let receiptId := "resume_at_".toList ++
    (host.sha256Hex (item.todoId.toList ++ '\n' :: spec.normalized)).take 24
  .object
    [("schema_version", .string "todo_resume_receipt_v0"), ("receipt_id", textValue receiptId),
      ("idempotency_key", textValue receiptId), ("todo_id", .string item.todoId),
      ("resume_when", textValue spec.normalized), ("condition_kind", textValue spec.kind.text),
      ("triggered_at", textValue scheduled.iso), ("material_change_generation", natValue 1)]

def resumeAtFields (item : TodoItem) (spec : ResumeSpec) (evaluatedAt : Option ResumeTimestamp) :
    Fields :=
  match readTimestamp host spec.target, evaluatedAt with
  | some scheduled, some evaluatedAt =>
    let satisfied : Bool := scheduled.microseconds ≤ evaluatedAt.microseconds
    [("satisfied", .bool satisfied), ("scheduled_for", textValue scheduled.iso),
      ("evaluated_at", textValue evaluatedAt.iso), ("clock_provider", .string "runtime_clock"),
      ("generation_fence", .string "once_at_or_after_scheduled_for"),
      ("material_change", .bool satisfied),
      ("material_change_generation", natValue (if satisfied then 1 else 0)),
      ("resume_receipt", if satisfied then resumeReceipt host item spec scheduled else .null)]
  | _, _ => [("invalid_state", .string "runtime_clock_unavailable")]

/-- Whether a monitor has moved past the generation that the wait began at. -/
def monitorVerdict (item : TodoItem) : Option TodoItem → Fields
  | none => [("invalid_state", .string "monitor_not_found")]
  | some monitor =>
    if monitor.taskClass ≠ some "continuous_monitor" then
      [("invalid_state", .string "target_not_continuous_monitor")]
    else
      match item.resumeMonitorGeneration with
      | none => [("invalid_state", .string "baseline_generation_missing")]
      | some baseline =>
        [("satisfied", .bool (baseline < monitor.materialChangeGeneration.getD 0))]

def monitorChangedFields (item : TodoItem) (spec : ResumeSpec) (monitor : Option TodoItem)
    (evaluatedAt : Option ResumeTimestamp) : Fields :=
  [("target_todo_id", textValue spec.target),
    ("target_status", optionalText (monitor.bind TodoItem.status)),
    ("target_task_class", optionalText (monitor.bind TodoItem.taskClass))] ++
  (match monitor with
    | none => []
    | some monitor =>
      [("target_archive_state", optionalText monitor.archiveState),
        ("target_next_due_at", optionalText monitor.nextDueAt),
        ("target_expires_at", optionalText monitor.expiresAt)] ++
      match evaluatedAt with
      | some evaluatedAt =>
        [("evaluated_at", textValue evaluatedAt.iso),
          ("clock_provider", .string "runtime_clock")]
      | none => []) ++
  [("baseline_generation", optionalNat item.resumeMonitorGeneration),
    ("material_change_generation",
      natValue ((monitor.bind TodoItem.materialChangeGeneration).getD 0)),
    ("generation_fence", .string "strictly_greater_than_baseline")] ++
  monitorVerdict item monitor

/-- What the evaluation of a request reads beside the waiting item. -/
structure EvaluationFacts where
  byId : List (String × TodoItem)
  rolloutEvents : List Json
  availableCapabilities : Option (List (List Char))
  evaluatedAt : Option ResumeTimestamp

def conditionFor (item : TodoItem) (spec : ResumeSpec) (facts : EvaluationFacts) : Plan Fields :=
  let target := facts.byId.lookup (String.ofList spec.target)
  match spec.kind with
  | .todoDone => .ok (assign (baseCondition spec) (todoDoneFields spec target))
  | .prMerged => do
    let merged ← prMergedFields host spec item facts.rolloutEvents
    .ok (assign (baseCondition spec) merged)
  | .capacityAvailable =>
    .ok (assign (baseCondition spec) (capacityFields spec facts.availableCapabilities))
  | .resumeAt =>
    .ok (assign (baseCondition spec) (resumeAtFields host item spec facts.evaluatedAt))
  | .monitorChanged =>
    .ok (assign (baseCondition spec) (monitorChangedFields item spec target facts.evaluatedAt))

/-! ## Diagnosis -/

inductive ResumeState where
  | satisfied
  | pending
  | invalid (reason : String)
deriving DecidableEq, Repr

def ResumeState.name : ResumeState → String
  | .satisfied => "satisfied"
  | .pending => "pending"
  | .invalid _ => "invalid"

/-- The text of a string field. -/
def stringField : Option Json → Option String
  | some (.string s) => some s
  | _ => none

def diagnoseTodoResumeCondition (condition : Fields) (waitingTodoId : Option String) :
    Option TodoResumeKind × ResumeState :=
  let parsed := parseResumeWhen host.toResumeHost (stringField (condition.lookup "resume_when"))
  let kind :=
    (TODO_RESUME_KINDS.find? fun kind => condition.lookup "kind" = some (textValue kind.text)).or
      (parsed.map ResumeSpec.kind)
  let targetId := coalesce (condition.lookup "target_todo_id")
    (coalesce (condition.lookup "target") (parsed.map fun spec => textValue spec.target))
  if (kind = some .todoDone ∨ kind = some .monitorChanged) ∧
      waitingTodoId.any (fun id => id ≠ "" && decide (targetId = some (.string id))) then
    (kind, .invalid "dependency_self_reference")
  else
    match stringField (condition.lookup "invalid_state") with
    | some reason => (kind, .invalid reason)
    | none =>
      if condition.lookup "invalid_target" = some (.bool true) then
        (kind, .invalid "invalid_target")
      else if kind = some .todoDone ∧
          condition.lookup "target_task_class" = some (.string "continuous_monitor") ∧
          jsTruthy (condition.lookup "target_status") ∧
          condition.lookup "target_status" ≠ some (.string "done") then
        (kind, .invalid "monitor_completion_requires_replan")
      else if condition.lookup "satisfied" = some (.bool true) then (kind, .satisfied)
      else (kind, .pending)

def diagnosedCondition (condition : Fields) (waitingTodoId : String) : Fields :=
  let state := (diagnoseTodoResumeCondition host condition (some waitingTodoId)).2
  assign (setKey condition "availability_reason" (.string ("resume_condition_" ++ state.name)))
    (match state with
      | .invalid reason => [("satisfied", .bool false), ("invalid_state", .string reason)]
      | _ => [])

/-! ## A request -/

def TODO_RESUME_EVALUATION_REQUEST_SCHEMA_VERSION : String := "todo_resume_evaluation_request_v0"

def TODO_RESUME_EVALUATION_SCHEMA_VERSION : String := "todo_resume_evaluation_v0"

def requireStringArray (value : Option Json) (label : String) : Plan (List String) :=
  match value with
  | some (.array items) =>
    match items.mapM (fun item => stringField (some item)) with
    | some texts => .ok texts
    | none => .error (label ++ " must be an array of strings")
  | _ => .error (label ++ " must be an array of strings")

/-- An optional field that is a list of texts where it is there. -/
def optionalStringArray (value : Option Json) (label : String) : Plan (Option (List String)) :=
  if nullish value then .ok none
  else do
    let texts ← requireStringArray value label
    .ok (some texts)

def arrayItems : Option Json → Option (List Json)
  | some (.array items) => some items
  | _ => none

def requestItems (host : HostText) (items : List Json) (label : String) : Plan (List TodoItem) :=
  items.zipIdx.mapM fun (raw, index) => todoItem host raw (label ++ "[" ++ index.repr ++ "]")

/-- The items of a request, and behind them the items they may wait for. -/
def readItems (request : Fields) : Plan (List TodoItem × List TodoItem) :=
  match arrayItems (request.lookup "items"), arrayItems (request.lookup "source_items") with
  | some items, some sourceItems => do
    let items ← requestItems host.toHostText items "todo_resume_evaluation_request.items"
    let sourceItems ← requestItems host.toHostText sourceItems
      "todo_resume_evaluation_request.source_items"
    .ok (items, sourceItems)
  | _, _ => .error "Todo resume evaluation items must be arrays"

/-- Whether the request asks for the kind. -/
def wanted (requestedKinds : Option (List String)) (kind : TodoResumeKind) : Bool :=
  match requestedKinds with
  | none => true
  | some kinds => kinds.contains (String.ofList kind.text)

/-- Each Todo as the request holds it last. -/
def todosById (items sourceItems : List TodoItem) : List (String × TodoItem) :=
  ofEntries ((sourceItems ++ items).map fun item => (item.todoId, item))

/-- The Todo whose completion an unfinished Todo waits for. -/
def completionTarget (host : ResumeHost) (item : TodoItem) : Option String :=
  match parseResumeWhen host item.resumeWhen with
  | some spec =>
    if item.status ≠ some "done" ∧ spec.kind = .todoDone then some (String.ofList spec.target)
    else none
  | none => none

def completionEdges (host : ResumeHost) (byId : List (String × TodoItem)) :
    List (String × String) :=
  ofEntries (byId.filterMap fun entry =>
    (completionTarget host entry.2).map fun target => (entry.2.todoId, target))

/-- What a cycle of waits says in a condition. -/
def cycleFields (cycle : CompletionDependencyCycle) : Fields :=
  [("satisfied", .bool false), ("invalid_state", .string "dependency_cycle"),
    ("dependency_cycle_todo_ids", .array (cycle.todoIds.map Json.string)),
    ("dependency_cycle_size", natValue cycle.size)]

/-- The condition of an item where the request asks for it. -/
def evaluateItem (requestedKinds : Option (List String)) (facts : EvaluationFacts)
    (cycles : Resolved) (item : TodoItem) : Plan (Option (String × Fields)) :=
  match parseResumeWhen host.toResumeHost item.resumeWhen with
  | none => .ok none
  | some spec =>
    if !wanted requestedKinds spec.kind then .ok none
    else do
      let condition ← conditionFor host item spec facts
      let cycle := if spec.kind = .todoDone then (cycles.lookup item.todoId).join else none
      let condition := assign condition ((cycle.map cycleFields).getD [])
      .ok (some (item.todoId, diagnosedCondition host condition item.todoId))

structure TodoResumeEvaluation where
  schemaVersion : String
  conditions : List (String × Fields)

def evaluateTodoResumeConditions (value : Json) : Plan TodoResumeEvaluation := do
  let request ← requireJsonObject (some value) "todo_resume_evaluation_request"
  throwWhen
    (request.lookup "schema_version" ≠
      some (.string TODO_RESUME_EVALUATION_REQUEST_SCHEMA_VERSION))
    "Todo resume evaluation request schema mismatch"
  let (items, sourceItems) ← readItems host request
  let rolloutEvents := (arrayItems (request.lookup "rollout_events")).getD []
  let capabilities ← optionalStringArray (request.lookup "available_capabilities")
    "todo_resume_evaluation_request.available_capabilities"
  let requestedKinds ← optionalStringArray (request.lookup "kinds")
    "todo_resume_evaluation_request.kinds"
  let needsRuntimeClock := items.any fun item =>
    (parseResumeWhen host.toResumeHost item.resumeWhen).any fun spec =>
      spec.kind = .resumeAt && wanted requestedKinds spec.kind
  let evaluatedAt := (stringField (request.lookup "evaluated_at")).bind fun text =>
    readTimestamp host text.toList
  throwWhen (needsRuntimeClock = true ∧ evaluatedAt.isNone)
    "todo_resume_evaluation_request.evaluated_at must be a timezone-aware RFC3339 timestamp"
  let byId := todosById items sourceItems
  let edges := if wanted requestedKinds .todoDone then completionEdges host.toResumeHost byId
    else []
  let facts : EvaluationFacts :=
    { byId := byId
      rolloutEvents := rolloutEvents
      availableCapabilities := capabilities.map (List.map fun capability =>
        host.toLowerCase (trim capability).toList)
      evaluatedAt := evaluatedAt }
  let conditions ← items.mapM
    (evaluateItem host requestedKinds facts (completionDependencyCycles edges))
  .ok ⟨TODO_RESUME_EVALUATION_SCHEMA_VERSION, conditions.reduceOption⟩

/-! ## The graph of a request -/

section
variable {host}

/-- What an unfinished Todo of the request waits to see completed. -/
def waitsOn (host : ResumeHost) (byId : List (String × TodoItem)) (id : String) :
    Option String :=
  (byId.lookup id).bind (completionTarget host)

/-- A Todo on a cycle of such waits, or behind one. -/
def Deadlocked (host : ResumeHost) (byId : List (String × TodoItem)) (id : String) : Prop :=
  ∃ members, IsCycle (waitsOn host byId) members ∧ LeadsTo (waitsOn host byId) id members

theorem id_of_mem_todosById {items sourceItems : List TodoItem} {entry : String × TodoItem}
    (mem : entry ∈ todosById items sourceItems) : entry.2.todoId = entry.1 := by
  obtain ⟨item, _, rfl⟩ := List.mem_map.mp (mem_of_mem_ofEntries mem)
  rfl

private theorem filterMap_edges (host : ResumeHost) {byId : List (String × TodoItem)}
    (named : ∀ entry ∈ byId, entry.2.todoId = entry.1) (nodup : (keys byId).Nodup) :
    (byId.filterMap fun entry =>
      (completionTarget host entry.2).map fun target => (entry.2.todoId, target)) =
      (keys byId).filterMap fun id => (waitsOn host byId id).map fun target => (id, target) := by
  rw [keys, List.filterMap_map]
  refine List.filterMap_congr fun entry mem => ?_
  have found : byId.lookup entry.1 = some entry.2 := lookup_of_mem nodup mem
  rw [Function.comp_apply, waitsOn, found, named entry mem]
  rfl

private theorem nodup_filterMap_key (ks : List String) (nodup : ks.Nodup)
    (f : String → Option String) :
    (keys (ks.filterMap fun id => (f id).map fun target => (id, target))).Nodup := by
  have sub : (keys (ks.filterMap fun id => (f id).map fun target => (id, target))).Sublist ks := by
    clear nodup
    induction ks with
    | nil => exact .slnil
    | cons id ks ih =>
      cases there : f id with
      | none =>
        rw [List.filterMap_cons_none (by rw [there]; rfl)]
        exact ih.cons id
      | some target =>
        rw [List.filterMap_cons_some (by rw [there]; rfl)]
        exact ih.cons_cons id
  exact nodup.sublist sub

/-- The map that the evaluation builds says what each Todo of the request waits for. -/
theorem dependency_completionEdges (host : ResumeHost) (items sourceItems : List TodoItem) :
    dependency (completionEdges host (todosById items sourceItems)) =
      waitsOn host (todosById items sourceItems) := by
  have nodup : (keys (todosById items sourceItems)).Nodup := nodup_keys_ofEntries _
  funext id
  rw [dependency, completionEdges, filterMap_edges host (fun _ => id_of_mem_todosById) nodup,
    ofEntries_of_nodup (nodup_filterMap_key _ nodup _), lookup_filterMap_key]
  split
  · rfl
  · next outside => rw [waitsOn, lookup_eq_none.mpr outside]; rfl

private theorem lookup_assign_of_forall (target source : Fields) (key : String) (value : Json)
    (before : target.lookup key = some value)
    (keeps : ∀ field ∈ source, field.1 = key → field.2 = value) :
    (assign target source).lookup key = some value := by
  induction source generalizing target with
  | nil => exact before
  | cons field source ih =>
    refine ih (setKey target field.1 field.2) ?_ fun later mem =>
      keeps later (List.mem_cons_of_mem _ mem)
    rw [lookup_setKey]
    split
    · next same => rw [keeps field List.mem_cons_self same.symm]
    · exact before

private theorem lookup_assign_fresh (target source : Fields) (key : String)
    (fresh : ∀ field ∈ source, field.1 ≠ key) :
    (assign target source).lookup key = target.lookup key := by
  induction source generalizing target with
  | nil => rfl
  | cons field source ih =>
    have step : assign target (field :: source) = assign (setKey target field.1 field.2) source :=
      rfl
    rw [step, ih _ fun later mem => fresh later (List.mem_cons_of_mem _ mem), lookup_setKey,
      if_neg (fresh field List.mem_cons_self).symm]

/-- A diagnosis never turns a condition that is not satisfied into one that is. -/
theorem diagnosedCondition_unsatisfied {condition : Fields} (id : String)
    (unsatisfied : condition.lookup "satisfied" = some (.bool false)) :
    (diagnosedCondition host condition id).lookup "satisfied" = some (.bool false) := by
  refine lookup_assign_of_forall _ _ _ _ ?_ ?_
  · rw [lookup_setKey, if_neg (by decide)]
    exact unsatisfied
  · intro field mem same
    split at mem
    · rcases List.mem_cons.mp mem with rfl | rest
      · rfl
      · rw [List.mem_singleton.mp rest] at same
        simp at same
    · cases mem

theorem diagnosedCondition_kind (condition : Fields) (id : String) :
    (diagnosedCondition host condition id).lookup "kind" = condition.lookup "kind" := by
  unfold diagnosedCondition
  rw [lookup_assign_fresh, lookup_setKey, if_neg (by decide)]
  intro field mem
  split at mem
  · simp only [List.mem_cons, List.not_mem_nil, or_false] at mem
    rcases mem with rfl | rfl <;> simp
  · cases mem

private theorem fresh_assign {target source : Fields} {key : String}
    (target_fresh : ∀ field ∈ target, field.1 ≠ key)
    (source_fresh : ∀ field ∈ source, field.1 ≠ key) :
    ∀ field ∈ assign target source, field.1 ≠ key := by
  induction source generalizing target with
  | nil => exact target_fresh
  | cons first source ih =>
    refine @ih (setKey target first.1 first.2) (fun field mem => ?_)
      fun field mem => source_fresh field (List.mem_cons_of_mem _ mem)
    rcases mem_of_mem_setKey mem with rfl | old
    · exact source_fresh _ List.mem_cons_self
    · exact target_fresh _ old

private theorem fresh_todoDoneFields (spec : ResumeSpec) (target : Option TodoItem) :
    ∀ field ∈ todoDoneFields spec target, field.1 ≠ "kind" := by
  unfold todoDoneFields
  cases target with
  | none => simp
  | some target =>
    cases claimed : target.claimedBy with
    | none => simp [claimed]
    | some claimedBy => by_cases empty : claimedBy = "" <;> simp [claimed, empty]

private theorem fresh_prMergedFields (merged : PrMergedCondition) :
    ∀ field ∈ merged.fields, field.1 ≠ "kind" := by
  unfold PrMergedCondition.fields
  dsimp only
  split
  · simp
  · refine fresh_assign (fresh_assign (by simp) ?_) ?_
    · cases merged.binding with
      | none => simp
      | some binding => cases binding <;> simp [PrBinding.projection]
    · cases merged.merge <;> simp [PrMergeMatch.fields]

private theorem fresh_resumeAtFields (item : TodoItem) (spec : ResumeSpec)
    (evaluatedAt : Option ResumeTimestamp) :
    ∀ field ∈ resumeAtFields host item spec evaluatedAt, field.1 ≠ "kind" := by
  unfold resumeAtFields
  split <;> simp

private theorem fresh_monitorChangedFields (item : TodoItem) (spec : ResumeSpec)
    (monitor : Option TodoItem) (evaluatedAt : Option ResumeTimestamp) :
    ∀ field ∈ monitorChangedFields item spec monitor evaluatedAt, field.1 ≠ "kind" := by
  have verdict : ∀ field ∈ monitorVerdict item monitor, field.1 ≠ "kind" := by
    unfold monitorVerdict
    split
    · simp
    · split
      · simp
      · split <;> simp
  unfold monitorChangedFields
  intro field mem
  rw [List.mem_append] at mem
  rcases mem with mem | mem
  · cases monitor <;> cases evaluatedAt <;> revert field <;> simp
  · exact verdict field mem

/-- A condition keeps the kind of the wait it is about. -/
theorem conditionFor_kind {item : TodoItem} {spec : ResumeSpec} {facts : EvaluationFacts}
    {condition : Fields} (evaluated : conditionFor host item spec facts = .ok condition) :
    condition.lookup "kind" = some (textValue spec.kind.text) := by
  have base : (baseCondition spec).lookup "kind" = some (textValue spec.kind.text) := rfl
  have keeps : ∀ source : Fields, (∀ field ∈ source, field.1 ≠ "kind") →
      (assign (baseCondition spec) source).lookup "kind" = some (textValue spec.kind.text) :=
    fun source fresh => (lookup_assign_fresh _ source _ fresh).trans base
  unfold conditionFor at evaluated
  dsimp only at evaluated
  split at evaluated
  · rw [← Except.ok.inj evaluated]
    exact keeps _ (fresh_todoDoneFields spec _)
  · obtain ⟨merged, read, evaluated⟩ := bind_eq_ok.mp evaluated
    rw [← Except.ok.inj evaluated]
    unfold prMergedFields at read
    split at read
    · rw [← Except.ok.inj read]
      exact keeps _ (fresh_prMergedFields _)
    · obtain ⟨events, _, read⟩ := bind_eq_ok.mp read
      rw [← Except.ok.inj read]
      exact keeps _ (fresh_prMergedFields _)
  · rw [← Except.ok.inj evaluated]
    exact keeps _ (by simp [capacityFields])
  · rw [← Except.ok.inj evaluated]
    exact keeps _ (fresh_resumeAtFields item spec _)
  · rw [← Except.ok.inj evaluated]
    exact keeps _ (fresh_monitorChangedFields item spec _ _)

theorem cycleFields_unsatisfied (condition : Fields) (cycle : CompletionDependencyCycle) :
    (assign condition (cycleFields cycle)).lookup "satisfied" = some (.bool false) := by
  simp only [assign, cycleFields, List.foldl_cons, List.foldl_nil, lookup_setKey]
  simp

private theorem cycleFields_kind (condition : Fields) (cycle : Option CompletionDependencyCycle) :
    (assign condition ((cycle.map cycleFields).getD [])).lookup "kind" =
      condition.lookup "kind" := by
  refine lookup_assign_fresh _ _ _ ?_
  cases cycle <;> simp [cycleFields]

private theorem kind_of_text {kind : TodoResumeKind}
    (same : some (textValue kind.text) = some (textValue TodoResumeKind.todoDone.text)) :
    kind = .todoDone := by
  cases kind <;> first | rfl | exact absurd same (by decide)

/-- The condition reported for an item whose wait is on or behind a cycle. -/
theorem evaluateItem_deadlocked {requestedKinds : Option (List String)} {facts : EvaluationFacts}
    {edges : List (String × String)} {item : TodoItem} {id : String} {condition : Fields}
    (evaluated : evaluateItem host requestedKinds facts (completionDependencyCycles edges) item =
      .ok (some (id, condition)))
    (cyclic : wanted requestedKinds .todoDone = true →
      ∃ cycle, ((completionDependencyCycles edges).lookup id).join = some cycle)
    (isCompletion : condition.lookup "kind" = some (textValue TodoResumeKind.todoDone.text)) :
    condition.lookup "satisfied" = some (.bool false) := by
  unfold evaluateItem at evaluated
  split at evaluated
  · cases evaluated
  · next spec _ =>
    split at evaluated
    · cases evaluated
    · next asked =>
      obtain ⟨found, conditioned, evaluated⟩ := bind_eq_ok.mp evaluated
      obtain ⟨rfl, rfl⟩ := Prod.mk.inj (Option.some.inj (Except.ok.inj evaluated))
      rw [diagnosedCondition_kind, cycleFields_kind, conditionFor_kind conditioned]
        at isCompletion
      have kind := kind_of_text isCompletion
      rw [kind, Bool.not_eq_true, Bool.not_eq_false'] at asked
      obtain ⟨cycle, decided⟩ := cyclic asked
      refine diagnosedCondition_unsatisfied item.todoId ?_
      rw [if_pos kind, decided]
      exact cycleFields_unsatisfied found cycle

private theorem exists_of_mem_reduceOption {A B : Type} {f : A → Plan (Option B)} {l : List A}
    {l' : List (Option B)} (mapped : l.mapM f = .ok l') {b : B} (mem : b ∈ l'.reduceOption) :
    ∃ a ∈ l, f a = .ok (some b) := by
  obtain ⟨i, inside, there⟩ := List.mem_iff_getElem.mp (List.reduceOption_mem_iff.mp mem)
  have all := mapM_eq_ok.mp mapped
  have within : i < l.length := by rwa [all.length_eq]
  refine ⟨l[i], List.getElem_mem _, ?_⟩
  have here := all.get within inside
  rw [List.get_eq_getElem, List.get_eq_getElem, there] at here
  exact here

/-- What an accepted request was read as, and where each reported condition comes from. -/
theorem evaluateTodoResumeConditions_eq_ok {value : Json} {result : TodoResumeEvaluation}
    (evaluated : evaluateTodoResumeConditions host value = .ok result) :
    ∃ request items sourceItems requestedKinds facts edges,
      value = .object request ∧ readItems host request = .ok (items, sourceItems) ∧
      edges = (if wanted requestedKinds .todoDone then
        completionEdges host.toResumeHost (todosById items sourceItems) else []) ∧
      ∀ id condition, (id, condition) ∈ result.conditions → ∃ item ∈ items,
        evaluateItem host requestedKinds facts (completionDependencyCycles edges) item =
          .ok (some (id, condition)) := by
  unfold evaluateTodoResumeConditions at evaluated
  obtain ⟨request, isObject, evaluated⟩ := bind_eq_ok.mp evaluated
  obtain ⟨_, _, evaluated⟩ := bind_eq_ok.mp evaluated
  obtain ⟨⟨items, sourceItems⟩, read, evaluated⟩ := bind_eq_ok.mp evaluated
  obtain ⟨capabilities, _, evaluated⟩ := bind_eq_ok.mp evaluated
  obtain ⟨requestedKinds, _, evaluated⟩ := bind_eq_ok.mp evaluated
  obtain ⟨_, _, evaluated⟩ := bind_eq_ok.mp evaluated
  obtain ⟨conditions, each, evaluated⟩ := bind_eq_ok.mp evaluated
  have object : value = .object request := by
    unfold requireJsonObject at isObject
    split at isObject
    · next same => rw [Option.some.inj same, Except.ok.inj isObject]
    · cases isObject
  rw [← Except.ok.inj evaluated]
  exact ⟨request, items, sourceItems, requestedKinds, _, _, object, read, rfl,
    fun _ _ mem => exists_of_mem_reduceOption each mem⟩

end

/-- The evidence of a cycle need not name its nodes all. -/
theorem completionDependencyCycles_omits :
    ∃ members cycle, IsCycle (dependency nineWaits) members ∧ "todo_step1" ∈ members ∧
      ((completionDependencyCycles nineWaits).lookup "todo_step1").join = some cycle ∧
      ∃ id ∈ members, id ∉ cycle.todoIds := by
  have first : "todo_step1" ∈ nineTodos := List.mem_cons_self
  refine ⟨nineTodos, cycleEvidence nineTodos, isCycle_nineTodos, first, ?_,
    cycleEvidence_omits isCycle_nineTodos (by decide)⟩
  exact completionDependencyCycles_iff.mpr
    (shows_cycleEvidence isCycle_nineTodos ⟨_, first, .refl⟩)

/-- Every Todo of the map is decided. It has a cycle exactly where it leads to one, and the
evidence is the size of the cycle and its first nodes from the least one on, in any order of the
map. No completion on or behind such a cycle is reported. -/
theorem completionDependencyCycles_exact (host : EvaluationHost) :
    (∀ edges : List (String × String),
      (∀ id ∈ keys edges, ∃ decision,
        (completionDependencyCycles edges).lookup id = some decision) ∧
      ∀ id cycle, ((completionDependencyCycles edges).lookup id).join = some cycle ↔
        Shows edges id cycle) ∧
    (∀ edges edges' : List (String × String), (keys edges).Nodup → edges.Perm edges' →
      ∀ id, ((completionDependencyCycles edges').lookup id).join =
        ((completionDependencyCycles edges).lookup id).join) ∧
    ∀ value result, evaluateTodoResumeConditions host value = .ok result →
      ∃ request items sourceItems, value = .object request ∧
        readItems host request = .ok (items, sourceItems) ∧
        ∀ id condition, (id, condition) ∈ result.conditions →
          condition.lookup "kind" = some (textValue TodoResumeKind.todoDone.text) →
          Deadlocked host.toResumeHost (todosById items sourceItems) id →
          condition.lookup "satisfied" = some (.bool false) := by
  refine ⟨fun edges => ⟨fun id isKey => ?_, fun id cycle => completionDependencyCycles_iff⟩,
    fun edges edges' nodup perm id => ?_, fun value result evaluated => ?_⟩
  · exact Option.isSome_iff_exists.mp (completionDependencyCycles_decided isKey)
  · have same : dependency edges' = dependency edges := by
      funext id
      exact (lookup_of_perm nodup perm id).symm
    refine Option.ext fun cycle => ?_
    rw [completionDependencyCycles_iff, completionDependencyCycles_iff, Shows, Shows, same]
  · obtain ⟨request, items, sourceItems, requestedKinds, facts, edges, object, read, built, each⟩ :=
      evaluateTodoResumeConditions_eq_ok evaluated
    refine ⟨request, items, sourceItems, object, read, ?_⟩
    intro id condition mem isCompletion deadlocked
    obtain ⟨item, _, here⟩ := each id condition mem
    refine evaluateItem_deadlocked here (fun asked => ?_) isCompletion
    rw [built, if_pos asked]
    obtain ⟨members, h, leads⟩ := deadlocked
    rw [← dependency_completionEdges] at h leads
    exact ⟨_, completionDependencyCycles_iff.mpr (shows_cycleEvidence h leads)⟩

/-- A Todo that waits for itself. -/
def selfWait : TodoItem :=
  ⟨"todo_self", none, some "open", none, none, none, none, none, none, none,
    some "todo_done:todo_self", none, none⟩

def selfWaitRequest : Fields :=
  [("schema_version", .string TODO_RESUME_EVALUATION_REQUEST_SCHEMA_VERSION),
    ("items", .array [.object [("todo_id", .string "todo_self"), ("status", .string "open"),
      ("resume_when", .string "todo_done:todo_self")]]),
    ("source_items", .array [])]

/-- ASCII text, and no clock. -/
def asciiEvaluation : EvaluationHost where
  toUpperCase := List.map Char.toUpper
  toLowerCase := List.map Char.toLower
  localeCompare := compare
  resumeTimestamp := fun _ => none
  microseconds := fun _ => 0
  sha256Hex := id

private def selfSpec : ResumeSpec :=
  ⟨.todoDone, "todo_self".toList, "todo_done:todo_self".toList⟩

private theorem parsed_selfWait :
    parseResumeWhen asciiEvaluation.toResumeHost selfWait.resumeWhen = some selfSpec := by
  decide

private theorem readItems_selfWait :
    readItems asciiEvaluation selfWaitRequest = .ok ([selfWait], []) :=
  ok_of_toOption (by decide)

private theorem evaluated_selfWait :
    ∃ result condition, evaluateTodoResumeConditions asciiEvaluation (.object selfWaitRequest) =
      .ok result ∧ ("todo_self", condition) ∈ result.conditions ∧
      condition.lookup "kind" = some (textValue TodoResumeKind.todoDone.text) := by
  refine ⟨⟨TODO_RESUME_EVALUATION_SCHEMA_VERSION, [("todo_self", diagnosedCondition asciiEvaluation
    (assign (assign (baseCondition selfSpec) (todoDoneFields selfSpec (some selfWait)))
      (((((completionDependencyCycles (completionEdges asciiEvaluation.toResumeHost
        (todosById [selfWait] []))).lookup "todo_self").join).map cycleFields).getD []))
    "todo_self")]⟩, _, ?_, List.mem_singleton.mpr rfl, ?_⟩
  · have named : selfWait.todoId = "todo_self" := rfl
    unfold evaluateTodoResumeConditions
    simp only [requireJsonObject, ok_bind, readItems_selfWait]
    rw [throwWhen_of_not (by decide), ok_bind]
    simp only [selfWaitRequest, optionalStringArray]
    rfl
  · rw [diagnosedCondition_kind, cycleFields_kind,
      lookup_assign_fresh _ _ _ (fresh_todoDoneFields _ _)]
    rfl

private theorem deadlocked_selfWait :
    Deadlocked asciiEvaluation.toResumeHost (todosById [selfWait] []) "todo_self" := by
  have step : waitsOn asciiEvaluation.toResumeHost (todosById [selfWait] []) "todo_self" =
      some "todo_self" := by decide
  refine ⟨["todo_self"], ⟨Nat.zero_lt_one, List.nodup_singleton _, fun i inside => ?_⟩, _,
    List.mem_singleton.mpr rfl, .refl⟩
  obtain rfl : i = 0 := Nat.lt_one_iff.mp inside
  exact step

/-- Nine waits in a ring have the same evidence from either end of the map, and the wait of a Todo
for itself is reported as not satisfied. -/
theorem completionDependencyCycles_exact_rings :
    (((completionDependencyCycles nineWaits.reverse).lookup "todo_step9").join =
        some (cycleEvidence nineTodos)) ∧
      ∃ result condition,
        evaluateTodoResumeConditions asciiEvaluation (.object selfWaitRequest) = .ok result ∧
        ("todo_self", condition) ∈ result.conditions ∧
        condition.lookup "satisfied" = some (.bool false) := by
  obtain ⟨each, stable, reported⟩ := completionDependencyCycles_exact asciiEvaluation
  constructor
  · rw [stable nineWaits nineWaits.reverse (by decide) (List.reverse_perm _).symm]
    exact (each nineWaits).2 _ _ |>.mpr
      (shows_cycleEvidence isCycle_nineTodos ⟨_, by decide, .refl⟩)
  · obtain ⟨result, condition, evaluated, mem, isCompletion⟩ := evaluated_selfWait
    obtain ⟨request, items, sourceItems, object, read, all⟩ := reported _ _ evaluated
    rw [← Json.object.inj object, readItems_selfWait] at read
    obtain ⟨rfl, rfl⟩ := Prod.mk.inj (Except.ok.inj read)
    exact ⟨result, condition, evaluated, mem, all _ _ mem isCompletion deadlocked_selfWait⟩

end Loopx.Todos
