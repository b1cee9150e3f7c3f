/- GID: Loopx/Todos/StandingDecision
   generality: I
   source: loopx/control_plane/todos/standing_decision.ts,
   loopx/control_plane/coordination/todo_presentation.ts
   digest: The standing decisions that the owner's gate receipts leave, by scope. -/

import Loopx.Lib.Fallible
import Loopx.Lib.Grouping
import Loopx.Todos.MonitorMetadata
import Loopx.Todos.ResumeCondition

set_option autoImplicit false
set_option relaxedAutoImplicit false

namespace Loopx.Todos

open Loopx.Authority (trim)
open Loopx.Json (authorityUnicodeCompare stringify sortEntries)
open Loopx.Lib.Grouping (group)
open Loopx.Scheduler (jsString)

/-! How one Todo is presented. -/

inductive PresentationOrderSource where
  | source_index | todo_id
deriving DecidableEq

structure TodoPresentationMetadata where
  todo_id : Option Json
  display_section : String
  display_order : Option Int
  order_source : PresentationOrderSource

def defaultDisplaySection (todo : Fields) : String :=
  if todo.lookup "archive_state" = some (.string "archive") then "Completed Work Archive"
  else if todo.lookup "role" = some (.string "agent") then "Agent Todo" else "User Todo"

def sourceDisplayOrder (todo : Fields) : Option Int :=
  match todo.lookup "index" with
  | some (.number n) => n.safeInteger?.filter fun i => 0 ≤ i
  | _ => none

/-- The wire shape that keeps display coordinates, and rows without a marker. -/
def isLegacyTodo (todo : Fields) : Bool :=
  todo.lookup "schema_version" ∈ [some (.string "todo_item_v0"), none, some .null]

def isNativeTodo (todo : Fields) : Bool :=
  todo.lookup "schema_version" = some (.string "todo_domain_record_v0")

def displaySection (todo : Fields) : String :=
  match todo.lookup "source_section" with
  | some (.string s) =>
    if isLegacyTodo todo ∧ trim s ≠ "" then s else defaultDisplaySection todo
  | _ => defaultDisplaySection todo

def displayOrder (todo : Fields) : Option Int :=
  if isLegacyTodo todo then sourceDisplayOrder todo else none

/-- The presentation of a row whose schema is known. -/
def presentationOf (todo : Fields) : TodoPresentationMetadata :=
  ⟨todo.lookup "todo_id", displaySection todo, displayOrder todo,
    if displayOrder todo = none then .todo_id else .source_index⟩

def supportedSchema (todo : Fields) : Bool := isLegacyTodo todo || isNativeTodo todo

def todoPresentationMetadata (todo : Fields) : Plan TodoPresentationMetadata :=
  if supportedSchema todo then .ok (presentationOf todo)
  else .error "Todo presentation metadata has unsupported Todo schema"

/-! Receipts. -/

/-- `SCOPE_KINDS`. -/
def scopeKinds : List String :=
  ["private_read", "write_scope", "resource", "production", "public_claim", "direction", "other"]

/-- `BROAD_SCOPES`. -/
def broadScopes : List String := ["goal", "project", "global"]

/-- `OUTCOMES`. -/
def decisionOutcomes : List String := ["approve", "reject", "cancel"]

/-- `SCOPE_KEY`: a star, or a letter or digit and at most 95 characters of the wire grammar. -/
def isScopeKey (text : List Char) : Bool :=
  match text with
  | [] => false
  | c :: rest => text = ['*'] ||
      (isLowerDigitOr [] c && rest.all (isLowerDigitOr ['_', '.', ':', '@', '*', '/', '-']) &&
        rest.length ≤ 95)

/-- `text(value)`. -/
def trimmedText (value : Option Json) : String :=
  match value with
  | some (.string s) => trim s
  | _ => ""

/-- `String(value)`. -/
def optionString (value : Option Json) : String := (value.map jsString).getD "undefined"

def scopeOf (todo : Fields) : Option Fields :=
  match todo.lookup "decision_scope" with
  | some (.object scope) => some scope
  | _ => none

def isStandingScope (scope : Fields) : Bool :=
  optionString (scope.lookup "kind") ∈ scopeKinds &&
    optionString (scope.lookup "granularity") ∈ broadScopes &&
    (match scope.lookup "scope_key" with
      | some (.string key) => isScopeKey key.toList
      | _ => false)

def isStandingDecisionReceipt (todo : Fields) : Bool :=
  todo.lookup "role" = some (.string "user") &&
    todo.lookup "task_class" = some (.string "user_gate") &&
    todo.lookup "status" = some (.string "done") &&
    todo.lookup "unblocks_todo_id" ∈ [none, some .null, some (.string "")] &&
    (scopeOf todo).any isStandingScope &&
    optionString (todo.lookup "decision_outcome") ∈ decisionOutcomes &&
    (todo.lookup "global_gate" = some (.bool true) || trimmedText (todo.lookup "blocks_agent") ≠ "")

/-- A field that is written only where it is there. -/
def fieldWhen (present : Bool) (key : String) (value : Option Json) : Fields :=
  if present then [(key, value.getD .null)] else []

structure Candidate where
  item : Fields
  receipt : Fields
  time : Option Int
  hasTime : Bool
deriving DecidableEq

/-- `normalizedScope`. -/
def normalizedScope (scope : Fields) : Json :=
  .object ([("schema_version", .string "decision_scope_v0"),
    ("kind", (scope.lookup "kind").getD .null),
    ("granularity", (scope.lookup "granularity").getD .null),
    ("scope_key", (scope.lookup "scope_key").getD .null)] ++
    fieldWhen (trimmedText (scope.lookup "decision_id") ≠ "") "decision_id"
      (scope.lookup "decision_id"))

def candidate (item : Fields) : Candidate :=
  let completed := trimmedText (item.lookup "completed_at")
  let updated := trimmedText (item.lookup "updated_at")
  -- Editing the prose of a receipt must not make an older decision newer.
  let at_ := if completed ≠ "" then completed else updated
  { item
    receipt := [("schema_version", .string "standing_decision_receipt_v0"),
        ("source_todo_id", (item.lookup "todo_id").getD .null),
        ("decision_scope", normalizedScope ((scopeOf item).getD [])),
        ("outcome", (item.lookup "decision_outcome").getD .null),
        ("active", .bool (item.lookup "decision_outcome" = some (.string "approve"))),
        ("global_gate", .bool (item.lookup "global_gate" = some (.bool true)))] ++
      fieldWhen (trimmedText (item.lookup "blocks_agent") ≠ "") "blocks_agent"
        (item.lookup "blocks_agent") ++
      fieldWhen (completed ≠ "") "completed_at" (some (.string completed)) ++
      fieldWhen (updated ≠ "") "updated_at" (some (.string updated))
    time := if at_ ≠ "" then parseTodoTimestampMicros at_ else none
    hasTime := at_ ≠ "" }

namespace Candidate

def id (c : Candidate) : String := optionString (c.item.lookup "todo_id")

def outcome (c : Candidate) : Json := (c.receipt.lookup "outcome").getD .null

def active (c : Candidate) : Bool := c.receipt.lookup "active" = some (.bool true)

end Candidate

def Candidate.outcomeText? (c : Candidate) : Option String :=
  match c.outcome with
  | .string s => some s
  | _ => none

/-- `new Set(outcomes).size`: equal strings are one value, every array is its own. -/
def outcomeCount (candidates : List Candidate) : Nat :=
  (candidates.filterMap Candidate.outcomeText?).dedup.length +
    candidates.countP fun c => c.outcomeText?.isNone

def deterministic (candidates : List Candidate) : Option Candidate :=
  (candidates.insertionSort fun a b => authorityUnicodeCompare a.id b.id ≤ 0).getLast?

/-- Equal outcomes are unambiguous; choosing a representative is only display. -/
def unanimous (candidates : List Candidate) : Option Candidate :=
  if outcomeCount candidates = 1 then deterministic candidates else none

/-- The greatest time of all candidates. -/
def newestTime (candidates : List Candidate) : Option Int := (candidates.filterMap (·.time)).max?

/-- All have a source position, in one section, no two the same. -/
def positioned (presentation : List TodoPresentationMetadata) : Bool :=
  presentation.all (fun m => m.order_source = .source_index ∧ m.display_order ≠ none) &&
    (presentation.map (·.display_section)).dedup.length = 1 &&
    (presentation.map (·.display_order)).dedup.length = presentation.length

def latest (candidates : List Candidate) (legacySourceOrder : Bool) : Plan (Option Candidate) :=
  if candidates.length = 1 then .ok candidates.head?
  else if candidates.all (·.time.isSome) then
    .ok (unanimous (candidates.filter fun c => c.time = newestTime candidates))
  else if candidates.all (fun c => !c.hasTime) then
    if legacySourceOrder then .ok candidates.getLast?
    else do
      let presentation ← candidates.mapM fun c => todoPresentationMetadata c.item
      .ok (if positioned presentation then
          (candidates.insertionSort fun a b =>
            (displayOrder a.item).getD 0 ≤ (displayOrder b.item).getD 0).getLast?
        else unanimous candidates)
  else .ok (unanimous candidates)

/-! The projection. -/

/-- `global`, or the agent the gate blocks. -/
def addressee (todo : Fields) : String :=
  if todo.lookup "global_gate" = some (.bool true) then "global"
  else "agent:" ++ optionString (todo.lookup "blocks_agent")

/-- The scope of a receipt: `JSON.stringify` of its kind, granularity, key and addressee. -/
def scopeIdentity (todo : Fields) : String :=
  let scope := (scopeOf todo).getD []
  stringify (.array [(scope.lookup "kind").getD .null, (scope.lookup "granularity").getD .null,
    (scope.lookup "scope_key").getD .null, .string (addressee todo)])

/-- The candidates among some Todos. -/
def standingCandidates (items : List Fields) : List Candidate :=
  (items.filter fun item =>
    isStandingDecisionReceipt item && trimmedText (item.lookup "todo_id") ≠ "").map candidate

def scopeGroups (items : List Fields) (legacySourceOrder : Bool) :
    List (String × List Candidate) :=
  let groups := group (fun c => scopeIdentity c.item) (standingCandidates items)
  if legacySourceOrder then groups else sortEntries groups

/-- What a conflict takes from the first receipt of its group. -/
def conflictHeader (c : Candidate) : Fields :=
  [("decision_scope", (c.receipt.lookup "decision_scope").getD .null),
    ("global_gate", (c.receipt.lookup "global_gate").getD .null)] ++
  fieldWhen (c.receipt.lookup "blocks_agent").isSome "blocks_agent"
    (c.receipt.lookup "blocks_agent")

def conflict (candidates : List Candidate) : Json :=
  .object ([("reason_code", .string "standing_decision_order_unresolved")] ++
    (candidates.head?.map conflictHeader).getD [] ++
    [("source_todo_ids",
      .array ((Loopx.Json.sortKeys (candidates.map Candidate.id)).map Json.string))])

/-- A group with the receipt that stands in it, if there is one. -/
abbrev Decided := List Candidate × Option Candidate

def decideGroup (legacySourceOrder : Bool) (entry : String × List Candidate) : Plan Decided := do
  let selected ← latest entry.2 legacySourceOrder
  .ok (entry.2, selected)

/-- Every scope with its receipts and the one that stands. -/
def decidedScopes (items : List Fields) (legacySourceOrder : Bool) : Plan (List Decided) :=
  (scopeGroups items legacySourceOrder).mapM (decideGroup legacySourceOrder)

def entriesOf (decided : List Decided) : List Candidate := decided.filterMap (·.2)

def conflictsOf (decided : List Decided) : List Json :=
  (decided.filter fun d => d.2.isNone).map fun d => conflict d.1

def authorityJson (entries : List Candidate) (conflicts : List Json) : Json :=
  .object ([("schema_version", .string "standing_decision_authority_v0"),
    ("active_count", .number (.ofNat (entries.countP (·.active)))),
    ("inactive_count", .number (.ofNat (entries.countP fun c => !c.active))),
    ("entries", .array (entries.map fun c => .object c.receipt))] ++
    if conflicts = [] then []
    else [("conflict_count", .number (.ofNat conflicts.length)), ("conflicts", .array conflicts)])

def projectStandingDecisions (items : List Fields) (legacySourceOrder : Bool) :
    Plan (Option Json) :=
  if scopeGroups items legacySourceOrder = [] then .ok none
  else do
    let decided ← decidedScopes items legacySourceOrder
    .ok (some (authorityJson (entriesOf decided) (conflictsOf decided)))

end Loopx.Todos
