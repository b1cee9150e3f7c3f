/- GID: Loopx/Coordination/ProjectionIndex
   generality: I
   source: loopx/control_plane/coordination/coordination_projection.ts, local_authority_read.ts
   digest: The Todo and lease records of a projection, indexed by id. -/

import Loopx.Authority.StoreContract
import Loopx.Todos.MonitorMetadata

set_option autoImplicit false
set_option relaxedAutoImplicit false

namespace Loopx.Coordination

open Loopx.Authority
open Loopx.Json (Protocol sortKeys sortKeys_eq maxArrayLength)
open Loopx.Lib.Fallible (bind_eq_ok throwWhen throwWhen_eq_ok)
open Loopx.Lib.KeyedList
open Loopx.Todos (Fields)

/-- `"todos"` or `"leases"`. -/
inductive RecordField where
  | todos
  | leases
deriving DecidableEq, Repr

def RecordField.text : RecordField → String
  | .todos => "todos"
  | .leases => "leases"

def RecordField.singular : RecordField → String
  | .todos => "todo"
  | .leases => "lease"

def recordFields : Json → Fields
  | .object fields => fields
  | _ => []

/-- One more record into the index, in the order of the projection. -/
def indexRecord (field : RecordField) (records : Fields) (index : Nat) (candidate : Json) :
    Protocol Fields := do
  let path := "projection." ++ field.text ++ "[" ++ index.repr ++ "]"
  let record ← canonicalAuthorityObject (some candidate) path
  let todoId ← requireAuthorityStoreId ((recordFields record).lookup "todo_id") (path ++ ".todo_id")
  throwWhen (todoId ∈ keys records)
    ("coordination projection contains duplicate " ++ field.singular ++ " ids")
  .ok (records ++ [(todoId, record)])

def indexFrom (field : RecordField) : Nat → Fields → List Json → Protocol Fields
  | _, records, [] => .ok records
  | index, records, candidate :: items => do
    let records ← indexRecord field records index candidate
    indexFrom field (index + 1) records items

def indexRecords (value : Option Json) (field : RecordField) : Protocol Fields :=
  match value with
  | some (.array items) => indexFrom field 0 [] items
  | _ => .error ("coordination projection " ++ field.text ++ " must be an array")

def sortedIds (records : Fields) : List String := sortKeys (keys records)

def indexCoordinationProjectionTodos (value : Fields) (expectedGoalId : String) :
    Protocol Fields := do
  throwWhen (value.lookup "goal_id" ≠ some (.string expectedGoalId))
    "coordination projection goal mismatch"
  indexRecords (value.lookup "todos") .todos

def indexCoordinationLeases (value : Fields) (todos : Fields) : Protocol Fields := do
  let leases ← indexRecords (value.lookup "leases") .leases
  throwWhen (∃ todoId ∈ keys leases, todoId ∉ keys todos)
    "coordination projection lease references an unknown todo"
  .ok leases

/-! ## Collections -/

/-- What the acceptance contract of a head says. The guard of a Todo is a function of its id. -/
structure GoalAcceptanceRead where
  contract : Protocol Fields
  validateTodoReadModel : Protocol Json
  oracleBasis : Protocol Json
  workGuard : String → Option Json

structure TodoCollection where
  todos : Fields
  leases : Option Fields
  readModel : Json
  acceptance : Fields
  oracleObservationBasis : Json
  workGuard : String → Option Json

namespace TodoCollection

variable (collection : TodoCollection)

def todoIds : List String := sortedIds collection.todos

def leaseTodoIds : List String := (collection.leases.map sortedIds).getD []

/-- `projectWorkGuards`. -/
def projectWorkGuards (todoIds : List String) : Fields :=
  Json.fromEntries (todoIds.filterMap fun id => (collection.workGuard id).map (Prod.mk id))

end TodoCollection

/-- `new GoalAcceptanceRead(head, goalId, read)`. -/
abbrev AcceptanceReader := Fields → String → GoalAcceptanceRead

/-- The lease index where a caller wants it. -/
def leaseIndex (head todos : Fields) (includeLeases : Bool) : Protocol (Option Fields) :=
  if includeLeases then (indexCoordinationLeases head todos).map some else .ok none

def oracleObservationBasis (acceptanceRead : GoalAcceptanceRead) (acceptance : Fields) :
    Protocol Json :=
  if Todos.jsTruthy (acceptance.lookup "outcome_requirements") then acceptanceRead.oracleBasis
  else .ok .null

def canonicalTodoCollection (reader : AcceptanceReader) (head : Fields) (goalId : String)
    (includeLeases : Bool) : Protocol TodoCollection := do
  let acceptanceRead := reader head goalId
  let acceptance ← acceptanceRead.contract
  let todos ← indexCoordinationProjectionTodos head goalId
  let readModel ← acceptanceRead.validateTodoReadModel
  let leases ← leaseIndex head todos includeLeases
  let basis ← oracleObservationBasis acceptanceRead acceptance
  .ok ⟨todos, leases, readModel, acceptance, basis, acceptanceRead.workGuard⟩

/-! ## Indexed records -/

private theorem indexFrom_spec {field : RecordField} {index : Nat} {records indexed : Fields}
    {items : List Json} (h : indexFrom field index records items = .ok indexed)
    (distinct : (keys records).Nodup) :
    (keys indexed).Nodup ∧ indexed.length = records.length + items.length := by
  induction items generalizing index records with
  | nil =>
    obtain rfl := Except.ok.inj h
    exact ⟨distinct, rfl⟩
  | cons candidate items ih =>
    obtain ⟨next, one, rest⟩ := bind_eq_ok.mp h
    obtain ⟨record, _, one⟩ := bind_eq_ok.mp one
    obtain ⟨todoId, _, one⟩ := bind_eq_ok.mp one
    obtain ⟨_, fresh, one⟩ := bind_eq_ok.mp one
    obtain rfl := Except.ok.inj one
    have fresh := throwWhen_eq_ok.mp fresh
    obtain ⟨nodup, length⟩ := ih rest (by
      rw [keys_append]
      refine List.nodup_append.mpr ⟨distinct, List.nodup_singleton _, fun a mem b mem' => ?_⟩
      rw [List.mem_singleton.mp mem']
      rintro rfl
      exact fresh mem)
    refine ⟨nodup, ?_⟩
    rw [length, List.length_append, List.length_singleton, List.length_cons]
    omega

/-- Every record of the projection is indexed, under an id of its own. -/
theorem indexRecords_spec {value : Option Json} {field : RecordField} {indexed : Fields}
    (h : indexRecords value field = .ok indexed) :
    (keys indexed).Nodup ∧ ∃ items, value = some (.array items) ∧
      indexed.length = items.length := by
  unfold indexRecords at h
  split at h
  · next items =>
    obtain ⟨nodup, length⟩ := indexFrom_spec h List.nodup_nil
    exact ⟨nodup, items, rfl, by rw [length, List.length_nil, Nat.zero_add]⟩
  · cases h

/-- The ids are those of the records, each once and in code point order. -/
theorem sortedIds_spec {records : Fields} (distinct : (keys records).Nodup) :
    (sortedIds records).Perm (keys records) ∧ (sortedIds records).Nodup ∧
      (sortedIds records).Pairwise (· < ·) := by
  have perm : (sortedIds records).Perm (keys records) := by
    rw [sortedIds, sortKeys_eq]
    exact List.perm_insertionSort _ _
  have nodup := perm.nodup_iff.mpr distinct
  refine ⟨perm, nodup, ?_⟩
  have sorted : (sortedIds records).Pairwise (· ≤ ·) := by
    rw [sortedIds, sortKeys_eq]
    exact List.pairwise_insertionSort _ _
  exact (sorted.and nodup).imp fun both => lt_of_le_of_ne both.1 both.2

/-- Both indexes of a collection have distinct ids, no more than an array holds. -/
theorem canonicalTodoCollection_spec {reader : AcceptanceReader} {head : Fields} {goalId : String}
    {includeLeases : Bool} {collection : TodoCollection}
    (h : canonicalTodoCollection reader head goalId includeLeases = .ok collection)
    (fits : (Json.object head).Fits) :
    (keys collection.todos).Nodup ∧ collection.todoIds.length ≤ maxArrayLength ∧
      (∀ leases, collection.leases = some leases → (keys leases).Nodup) ∧
      collection.leaseTodoIds.length ≤ maxArrayLength := by
  have bounded : ∀ {field : RecordField} {key : String} {indexed : Fields},
      indexRecords (head.lookup key) field = .ok indexed →
      (keys indexed).Nodup ∧ (sortedIds indexed).length ≤ maxArrayLength := by
    intro field key indexed made
    obtain ⟨nodup, items, stored, length⟩ := indexRecords_spec made
    refine ⟨nodup, ?_⟩
    have within := (Json.fits_object _).mp fits _ (mem_of_lookup stored)
    rw [((sortedIds_spec nodup).1).length_eq, keys, List.length_map, length]
    exact ((Json.fits_array _).mp within).1
  obtain ⟨acceptance, _, h⟩ := bind_eq_ok.mp h
  obtain ⟨todos, indexed, h⟩ := bind_eq_ok.mp h
  obtain ⟨readModel, _, h⟩ := bind_eq_ok.mp h
  obtain ⟨leases, leased, h⟩ := bind_eq_ok.mp h
  obtain ⟨basis, _, h⟩ := bind_eq_ok.mp h
  obtain rfl := Except.ok.inj h
  obtain ⟨_, _, indexed⟩ := bind_eq_ok.mp indexed
  obtain ⟨nodup, length⟩ := bounded indexed
  refine ⟨nodup, length, ?_⟩
  unfold leaseIndex at leased
  by_cases include_ : includeLeases = true
  · rw [if_pos include_] at leased
    cases made : indexCoordinationLeases head todos with
    | error message =>
      rw [made] at leased
      cases leased
    | ok records =>
      rw [made] at leased
      obtain rfl : some records = leases := Except.ok.inj leased
      obtain ⟨records', indexed', made⟩ := bind_eq_ok.mp made
      obtain ⟨_, _, made⟩ := bind_eq_ok.mp made
      obtain rfl := Except.ok.inj made
      obtain ⟨nodup', length'⟩ := bounded indexed'
      refine ⟨fun leases same => ?_, length'⟩
      rwa [← Option.some.inj same]
  · rw [if_neg include_] at leased
    obtain rfl := Except.ok.inj leased
    exact ⟨fun leases same => (by cases same), Nat.zero_le _⟩

end Loopx.Coordination
