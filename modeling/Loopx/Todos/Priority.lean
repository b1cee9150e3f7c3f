/- GID: Loopx/Todos/Priority
   generality: I
   source: loopx/control_plane/todos/priority.ts,
   loopx/control_plane/coordination/coordination_state_contract_v0.json
   digest: The priority of a Todo, as a field and as the marker its text carries for old readers. -/

import Loopx.Lib.CollapsedText
import Loopx.Lib.Fallible
import Loopx.Lib.RecordUpdate
import Loopx.Todos.AgentId

set_option autoImplicit false
set_option relaxedAutoImplicit false

namespace Loopx.Todos

open Loopx.Authority (isJsSpace trim)
open Loopx.Lib.Fallible
open Loopx.Lib.KeyedList (keys eraseKey)
open Loopx.Lib.RecordUpdate (merge)
open Loopx.Lib.Strip (stripEnds)
open Loopx.Scheduler (jsString)

/-- `TODO_PRIORITIES`, most urgent first. -/
inductive TodoPriority where
  | p0 | p1 | p2 | p3 | p4
deriving DecidableEq

namespace TodoPriority

def digit : TodoPriority → Char
  | p0 => '0' | p1 => '1' | p2 => '2' | p3 => '3' | p4 => '4'

/-- The label in upper case. -/
def label (priority : TodoPriority) : List Char := ['P', priority.digit]

/-- `P[0-4]` under the flag `i`, with its upper case: only `p` and `P` fold to the letter. -/
def read? (letter c : Char) : Option TodoPriority :=
  if letter = 'P' ∨ letter = 'p' then
    if c = '0' then some p0 else if c = '1' then some p1 else if c = '2' then some p2
    else if c = '3' then some p3 else if c = '4' then some p4 else none
  else none

@[simp] theorem read?_label (priority : TodoPriority) :
    read? 'P' priority.digit = some priority := by
  cases priority <;> rfl

/-- `TODO_PRIORITIES.indexOf`. -/
def rank : TodoPriority → Nat
  | p0 => 0 | p1 => 1 | p2 => 2 | p3 => 3 | p4 => 4

end TodoPriority

def DEFAULT_TODO_PRIORITY : TodoPriority := .p1
def BLOCKING_TODO_PRIORITY : TodoPriority := .p0

/-- A priority or null, as a field holds it. -/
def priorityJson : Option TodoPriority → Json
  | none => .null
  | some priority => .string (String.ofList priority.label)

def normalizeTodoPriority (value : Json) : Plan (Option TodoPriority) :=
  match value with
  | .null => .ok none
  | .string s =>
    match (trim s).toList with
    | [letter, c] =>
      match TodoPriority.read? letter c with
      | some priority => .ok (some priority)
      | none => .error "priority must be P0, P1, P2, P3, P4 or null"
    | _ => .error "priority must be P0, P1, P2, P3, P4 or null"
  | _ => .error "priority must be P0, P1, P2, P3, P4 or null"

/-- `[-\s]`. -/
def endsLabel (c : Char) : Bool := c = '-' || isJsSpace c

/-- `legacy_label_pattern`: `^(P[0-4])(?:$|[-\s])`. -/
def legacyLabel? (text : List Char) : Option TodoPriority :=
  match text with
  | [letter, c] => TodoPriority.read? letter c
  | letter :: c :: next :: _ => if endsLabel next then TodoPriority.read? letter c else none
  | _ => none

/-- `\s*(.+)$`, with the text of its group: the blanks are taken first, and the last of them is
given back where nothing else is left. -/
def titleGroup? (text : List Char) : Option (List Char) :=
  let title := if text.dropWhile isJsSpace = [] then text.getLast?.toList
    else text.dropWhile isJsSpace
  if title ≠ [] ∧ title.all (fun c => !isLineTerminator c) then some title else none

/-- `legacy_prefix_pattern`: `^\s*\[(P[0-4](?:[-\s][^\]]*)?)\]\s*(.+)$`, with its two groups. -/
def legacyPrefix? (text : List Char) : Option (List Char × List Char) :=
  match text.dropWhile isJsSpace with
  | '[' :: letter :: c :: rest =>
    if (TodoPriority.read? letter c).isSome then
      match rest with
      | [] => none
      | next :: decoration =>
        if next = ']' then (titleGroup? decoration).map fun title => ([letter, c], title)
        else if endsLabel next then
          match decoration.dropWhile (fun d => d != ']') with
          | [] => none
          | _ :: tail => (titleGroup? tail).map fun title =>
              (letter :: c :: next :: decoration.takeWhile (fun d => d != ']'), title)
        else none
    else none
  | _ => none

def legacyTodoPriority (text : List Char) : Option TodoPriority × List Char :=
  match legacyPrefix? text with
  | some (marker, title) => (legacyLabel? marker, stripEnds isJsSpace title)
  | none => (none, text)

/-- `String(todo.text ?? todo.title ?? "")`. -/
def displayedText (todo : Fields) : String :=
  match todo.lookup "text", todo.lookup "title" with
  | none, none | none, some .null | some .null, none | some .null, some .null => ""
  | none, some title | some .null, some title => jsString title
  | some text, _ => jsString text

def readTodoPriority (todo : Fields) : Option TodoPriority :=
  match todo.lookup "priority" with
  | some (.string s) => legacyLabel? (trim s).toList
  | some _ => none
  | none => (legacyTodoPriority (displayedText todo).toList).1

/-- `todoPriorityRank`, with `missing_rank`. -/
def todoPriorityRank (priority : Option Json) : Nat :=
  ((readTodoPriority [("priority", priority.getD .null)]).map TodoPriority.rank).getD 50

/-- The text that carries a priority for old readers. -/
def markedText (priority : Option TodoPriority) (title : List Char) : List Char :=
  match priority with
  | none => title
  | some priority => '[' :: priority.label ++ (']' :: ' ' :: title)

/-- The fields a plan sets. -/
def priorityFields (priority : Option TodoPriority) (title : List Char) : Fields :=
  [("text", .string (String.ofList (markedText priority title))),
    ("title", .string (String.ofList title)), ("priority", priorityJson priority)]

/-- What an intent says about the priority itself: nothing, or the value it sets. -/
def declaredPriority (intent : Fields) : Plan (Option (Option TodoPriority)) :=
  match intent.lookup "priority" with
  | some value => (normalizeTodoPriority value).map some
  | none => .ok (if intent.lookup "clear_priority" = some (.bool true) then some none else none)

/-- `intent.clear_priority != null && typeof intent.clear_priority !== "boolean"`. -/
def malformedClear (intent : Fields) : Bool :=
  match intent.lookup "clear_priority" with
  | none | some .null | some (.bool _) => false
  | some _ => true

/-- The text a plan starts from. -/
def plannedText (todo intent : Fields) : Option Json :=
  if (intent.lookup "text").isSome then intent.lookup "text" else todo.lookup "text"

def planTodoPriority (todo intent : Fields) : Plan Fields := do
  let cleared := intent.lookup "clear_priority" = some (.bool true)
  let hasPriority := (intent.lookup "priority").isSome
  let hasText := (intent.lookup "text").isSome
  throwWhen (malformedClear intent) "clear_priority must be a boolean"
  throwWhen (hasPriority ∧ cleared) "provide either priority or clear_priority, not both"
  if ¬hasText ∧ ¬hasPriority ∧ ¬cleared then .ok []
  else
    match plannedText todo intent with
    | some (.string raw) =>
      let body := compactPythonWhitespace raw.toList
      throwWhen (body = []) "todo text must not be empty"
      let parsed := legacyTodoPriority body
      let declared ← declaredPriority intent
      throwWhen (hasText ∧ declared.isSome ∧ parsed.1.isSome ∧ some parsed.1 ≠ declared)
        "priority conflicts with the legacy text prefix; remove the prefix"
      let priority := declared.getD
        (if hasText ∧ parsed.1.isSome then parsed.1 else readTodoPriority todo)
      .ok (priorityFields priority parsed.2)
    | _ => .error "todo text must not be empty"

/-- The default of a fresh creation: blocking work is urgent. -/
def creationPriority (intent : Fields) : TodoPriority :=
  if intent.lookup "task_class" = some (.string "user_gate") ∨
      intent.lookup "task_class" = some (.string "blocker") ∨
      intent.lookup "status" = some (.string "blocked") then BLOCKING_TODO_PRIORITY
  else DEFAULT_TODO_PRIORITY

/-- The Todo a creation is planned from. -/
def freshTodo (intent : Fields) : Fields :=
  [("priority", priorityJson (some (creationPriority intent)))]

def planTodoCreationPriority (intent : Fields) : Plan Fields :=
  planTodoPriority (freshTodo intent) intent

def evaluateTodoPriority (value : Json) : Plan Fields := do
  let request ← requireJsonObject (some value) "Todo priority request"
  throwWhen (request.lookup "schema_version" ≠ some (.string "todo_priority_request_v0"))
    "Todo priority schema mismatch"
  match request.lookup "create" with
  | none | some (.bool _) =>
    let todo ← requireJsonObject (request.lookup "todo") "Todo"
    let intent ← requireJsonObject (request.lookup "intent") "priority intent"
    if request.lookup "create" = some (.bool true) then planTodoCreationPriority intent
    else planTodoPriority todo intent
  | some _ => .error "create must be a boolean"

/-- The record with a plan's fields: `{...todo, ...updates}`. The coordination store then drops a
priority of null, with its title; a field update keeps them. -/
def storePriority (dropsNull : Bool) (todo updates : Fields) : Fields :=
  if dropsNull ∧ updates.lookup "priority" = some .null then
    eraseKey (eraseKey (merge todo updates) "priority") "title"
  else merge todo updates

example : legacyTodoPriority " [p2 - later] [P1] write it ".toList =
    (some .p2, "[P1] write it".toList) := by decide +kernel

/-- A declared priority is read back as it was declared. -/
theorem readTodoPriority_priorityJson {todo : Fields} {priority : Option TodoPriority}
    (h : todo.lookup "priority" = some (priorityJson priority)) :
    readTodoPriority todo = priority := by
  rw [readTodoPriority, h]
  cases priority with
  | none => rfl
  | some priority =>
    change legacyLabel? (trim (String.ofList priority.label)).toList = some priority
    rw [trim, String.toList_ofList, String.toList_ofList]
    cases priority <;> rfl

/-- An intent says nothing about the priority. -/
theorem declaredPriority_eq_none {intent : Fields} :
    declaredPriority intent = .ok none ↔
      intent.lookup "priority" = none ∧ intent.lookup "clear_priority" ≠ some (.bool true) := by
  unfold declaredPriority
  split
  · rename_i value hvalue
    rw [hvalue]
    cases hn : normalizeTodoPriority value <;> simp [Except.map]
  · rename_i absent
    rw [absent]
    by_cases cleared : intent.lookup "clear_priority" = some (.bool true)
    · simp [cleared]
    · simp [cleared]

/-- What the text of an edit decodes to, after its white space is compacted. -/
def editReading (raw : String) : Option TodoPriority × List Char :=
  legacyTodoPriority (compactPythonWhitespace raw.toList)

/-- What an accepted plan of fields rests on: the text it starts from and the value it sets. -/
structure PlansFields (todo intent : Fields) (raw : String)
    (declared : Option (Option TodoPriority)) : Prop where
  planned : plannedText todo intent = some (.string raw)
  filled : compactPythonWhitespace raw.toList ≠ []
  declares : declaredPriority intent = .ok declared
  busy : (intent.lookup "text").isSome ∨ declared.isSome
  agrees : (intent.lookup "text").isSome → declared.isSome →
    (editReading raw).1.isSome →
    some (editReading raw).1 = declared

/-- The priority such a plan sets. -/
def plannedPriority (todo intent : Fields) (raw : String)
    (declared : Option (Option TodoPriority)) : Option TodoPriority :=
  declared.getD
    (if (intent.lookup "text").isSome ∧
        (editReading raw).1.isSome then
      (editReading raw).1
    else readTodoPriority todo)

/-- The intent is well formed by itself. -/
def WellFormedIntent (intent : Fields) : Prop :=
  malformedClear intent = false ∧ ¬((intent.lookup "priority").isSome ∧
    intent.lookup "clear_priority" = some (.bool true))

/-- A plan is accepted either for an intent that asks for nothing, and sets nothing, or it sets the
three fields together. -/
theorem planTodoPriority_eq_ok {todo intent updates : Fields} :
    planTodoPriority todo intent = .ok updates ↔ WellFormedIntent intent ∧
      ((intent.lookup "text" = none ∧ declaredPriority intent = .ok none ∧ updates = []) ∨
      ∃ raw declared, PlansFields todo intent raw declared ∧
        updates = priorityFields (plannedPriority todo intent raw declared)
          (editReading raw).2) := by
  constructor
  · intro h
    unfold planTodoPriority at h
    obtain ⟨_, formed, h⟩ := bind_eq_ok.1 h
    obtain ⟨_, single, h⟩ := bind_eq_ok.1 h
    refine ⟨⟨Bool.eq_false_iff.2 (throwWhen_eq_ok.1 formed), throwWhen_eq_ok.1 single⟩, ?_⟩
    split at h
    · rename_i idle
      obtain ⟨noText, noPriority, kept⟩ := idle
      refine .inl ⟨Option.not_isSome_iff_eq_none.1 noText, ?_, (Except.ok.inj h).symm⟩
      exact declaredPriority_eq_none.2 ⟨Option.not_isSome_iff_eq_none.1 noPriority, kept⟩
    · rename_i busy
      split at h
      · rename_i raw planned
        obtain ⟨_, filled, h⟩ := bind_eq_ok.1 h
        obtain ⟨declared, declares, h⟩ := bind_eq_ok.1 h
        obtain ⟨_, agrees, h⟩ := bind_eq_ok.1 h
        refine .inr ⟨raw, declared, ⟨planned, throwWhen_eq_ok.1 filled, declares, ?_, ?_⟩,
          (Except.ok.inj h).symm⟩
        · by_contra silent
          obtain ⟨noText, nothing⟩ := not_or.1 silent
          have undeclared : declared = none := Option.not_isSome_iff_eq_none.1 nothing
          rw [undeclared] at declares
          obtain ⟨noPriority, kept⟩ := declaredPriority_eq_none.1 declares
          exact busy ⟨noText, Option.not_isSome_iff_eq_none.2 noPriority, kept⟩
        · intro hasText isDeclared marked
          by_contra differs
          exact throwWhen_eq_ok.1 agrees ⟨hasText, isDeclared, marked, differs⟩
      · cases h
  · rintro ⟨⟨formed, single⟩, h⟩
    refine bind_eq_ok.2 ⟨(), throwWhen_of_not (Bool.eq_false_iff.1 formed) _,
      bind_eq_ok.2 ⟨(), throwWhen_of_not single _, ?_⟩⟩
    rcases h with ⟨noText, undeclared, rfl⟩ | ⟨raw, declared, plans, rfl⟩
    · obtain ⟨noPriority, kept⟩ := declaredPriority_eq_none.1 undeclared
      refine if_pos ⟨?_, ?_, kept⟩
      · exact Option.not_isSome_iff_eq_none.2 noText
      · exact Option.not_isSome_iff_eq_none.2 noPriority
    · refine (if_neg ?_).trans ?_
      · rintro ⟨noText, noPriority, kept⟩
        have undeclared := declaredPriority_eq_none.2
          ⟨Option.not_isSome_iff_eq_none.1 noPriority, kept⟩
        obtain rfl := Except.ok.inj (undeclared.symm.trans plans.declares)
        exact plans.busy.elim noText (fun h => by cases h)
      · rw [plans.planned]
        refine bind_eq_ok.2 ⟨(), throwWhen_of_not plans.filled _,
          bind_eq_ok.2 ⟨declared, plans.declares,
            bind_eq_ok.2 ⟨(), throwWhen_of_not ?_ _, rfl⟩⟩⟩
        rintro ⟨hasText, isDeclared, marked, differs⟩
        exact differs (plans.agrees hasText isDeclared marked)

end Loopx.Todos
