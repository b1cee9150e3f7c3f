/- GID: Loopx/WorkItems/PlanningRelations
   generality: I
   source: loopx/control_plane/work_items/planning_relations.ts
   digest: The relations between planned Todos and the edges of their graph in a fixed order. -/

import Loopx.Lib.Delimited
import Loopx.Lib.Utf16
import Loopx.Todos.ResumeEvaluation

set_option autoImplicit false
set_option relaxedAutoImplicit false

namespace Loopx.WorkItems

open Loopx.Lib.Delimited (append_cons_inj_of_not_mem)
open Loopx.Lib.Utf16 (unitKey unitKey_injective)
open Loopx.Authority (trim)
open Loopx.Todos (Fields Plan ResumeHost afterPrefix parseResumeWhen requireBoolean
  requireJsonObject requireNonEmptyString requireStringArray)

inductive PlanningRelationKind where
  | successor
  | unblocks
  | resumesWhen
  | supersededBy
deriving DecidableEq, Repr

def PlanningRelationKind.text : PlanningRelationKind → String
  | .successor => "successor"
  | .unblocks => "unblocks"
  | .resumesWhen => "resumes_when"
  | .supersededBy => "superseded_by"

def ENFORCEMENT_BY_RELATION : PlanningRelationKind → String
  | .successor => "lineage_only"
  | .unblocks => "typed_lifecycle"
  | .resumesWhen => "typed_condition"
  | .supersededBy => "lineage_only"

structure GraphRow where
  todoId : String
  done : Bool
  successorTodoIds : List String
  unblocksTodoId : Option String
  supersededBy : Option String
  resumeWhen : Option String
deriving DecidableEq, Repr

structure PlanningInventoryRelation where
  fromTodoId : String
  toRef : String
  relation : PlanningRelationKind
deriving DecidableEq, Repr

/-- The first item with each key. -/
def keepFirst {A : Type} (key : A → String) (l : List A) : List A :=
  l.foldl (fun kept a => if key a ∈ kept.map key then kept else kept ++ [a]) []

/-- A single reference of a row. A graph row has no route. -/
def candidateRelation (item : GraphRow) (kind : PlanningRelationKind) (ref : Option String) :
    List PlanningInventoryRelation :=
  match ref with
  | none => []
  | some ref =>
    if kind ≠ .resumesWhen ∧ ref = item.todoId then [] else [⟨item.todoId, ref, kind⟩]

def candidateRelations (item : GraphRow) : List PlanningInventoryRelation :=
  ((keepFirst id item.successorTodoIds).flatMap fun successor =>
      candidateRelation item .successor (some successor)) ++
    candidateRelation item .unblocks item.unblocksTodoId ++
    candidateRelation item .resumesWhen item.resumeWhen ++
    candidateRelation item .supersededBy item.supersededBy

/-- The delimiter of the keys. -/
def nulChar : Char := Char.ofNat 0

def nul : String := String.ofList [nulChar]

def relationKey (value : PlanningInventoryRelation) : String :=
  value.fromTodoId ++ nul ++ value.relation.text ++ nul ++ value.toRef

def projectRelations (items : List GraphRow) : List PlanningInventoryRelation :=
  keepFirst relationKey (items.flatMap candidateRelations)

/-- `PLANNING_TODO_ID`. -/
def isPlanningTodoId (value : String) : Bool :=
  match afterPrefix "todo_".toList value.toList with
  | some rest => rest.all (fun c => c.isAlphanum || c == '_' || c == '-') &&
      3 ≤ rest.length && rest.length ≤ 80
  | none => false

def todoRef (host : ResumeHost) (value : String) : Option String :=
  if isPlanningTodoId value then some value
  else
    (parseResumeWhen host (some value)).bind fun spec =>
      let kind := spec.normalized.takeWhile (fun c => c ≠ ':')
      let target := ((spec.normalized.dropWhile (fun c => c ≠ ':')).drop 1).takeWhile
        (fun c => c ≠ ':')
      if kind = "todo_done".toList ∨ kind = "monitor_changed".toList then
        some (String.ofList target)
      else none

/-! ## Edges -/

inductive GraphRelation where
  | dependsOn
  | continues
  | supersedes
deriving DecidableEq, Repr

structure GraphEdge where
  fromTodoId : String
  toTodoId : String
  relation : GraphRelation
  sourceRelation : PlanningRelationKind
  enforcement : String
  reason : String
deriving DecidableEq, Repr

def resumeReason (host : ResumeHost) (toRef : String) : String :=
  if "monitor_changed:".toList.isPrefixOf (host.toLowerCase (trim toRef).toList) then
    "Work waits for a Monitor generation change, not Monitor completion."
  else "Work has a Todo completion condition; readiness is decided by the resume evaluator."

/-- Display direction is work to prerequisite or ancestor. -/
def directedEdge (host : ResumeHost) (value : PlanningInventoryRelation) (target : String) :
    GraphEdge :=
  let enforcement := ENFORCEMENT_BY_RELATION value.relation
  match value.relation with
  | .successor => ⟨target, value.fromTodoId, .continues, .successor, enforcement,
      "Work continues predecessor lineage; this is not a completion prerequisite."⟩
  | .supersededBy => ⟨target, value.fromTodoId, .supersedes, .supersededBy, enforcement,
      "Work supersedes predecessor lineage; this does not authorize a transition."⟩
  | .unblocks => ⟨target, value.fromTodoId, .dependsOn, .unblocks, enforcement,
      "Work has a typed lifecycle dependency on the linked unblocking Todo."⟩
  | .resumesWhen => ⟨value.fromTodoId, target, .dependsOn, .resumesWhen, enforcement,
      resumeReason host value.toRef⟩

/-- Only a condition needs decoding; every other reference is an id already. -/
def relationTarget (host : ResumeHost) (value : PlanningInventoryRelation) : Option String :=
  if value.relation = .resumesWhen then todoRef host value.toRef else some value.toRef

def graphEdge (host : ResumeHost) (value : PlanningInventoryRelation) : Option GraphEdge :=
  match relationTarget host value with
  | none => none
  | some target =>
    if target = "" ∨ value.fromTodoId = target then none
    else some (directedEdge host value target)

def edgeKey (edge : GraphEdge) : String :=
  edge.fromTodoId ++ nul ++ edge.toTodoId ++ nul ++ edge.sourceRelation.text

/-- Edges in the order of their keys. -/
def sortEdges (edges : List GraphEdge) : List GraphEdge :=
  edges.insertionSort fun a b => unitKey (edgeKey a) ≤ unitKey (edgeKey b)

def relationEdges (host : ResumeHost) (rows : List GraphRow) : List GraphEdge :=
  sortEdges ((projectRelations rows).filterMap (graphEdge host))

/-! ## Rows -/

/-- A reference of a row where it says something. -/
def optionalReference (raw : Fields) (key : String) : Plan (Option String) :=
  match raw.lookup key with
  | none => .ok none
  | some .null => .ok none
  | some (.string "") => .ok none
  | value => do
    let text ← requireNonEmptyString value ("graph row." ++ key)
    .ok (some text)

def row (value : Json) : Plan GraphRow := do
  let raw ← requireJsonObject (some value) "graph row"
  let todoId ← requireNonEmptyString (raw.lookup "todo_id") "graph row.todo_id"
  let done ← requireBoolean (raw.lookup "done") "graph row.done"
  let successors ← requireStringArray (raw.lookup "successor_todo_ids")
    "graph row.successor_todo_ids"
  let unblocks ← optionalReference raw "unblocks_todo_id"
  let superseded ← optionalReference raw "superseded_by"
  let resume ← optionalReference raw "resume_when"
  .ok ⟨todoId, done, successors, unblocks, superseded, resume⟩

/-- Rows, no two about one Todo. -/
structure GraphRows where
  rows : List GraphRow
  distinct : (rows.map GraphRow.todoId).Nodup

def decodeRows (request : Fields) : Plan GraphRows :=
  match request.lookup "items" with
  | some (.array items) => do
    let rows ← items.mapM row
    if distinct : (rows.map GraphRow.todoId).Nodup then .ok ⟨rows, distinct⟩
    else .error "Duplicate task graph Todo id"
  | _ => .error "graph items must be an array"

/-! ## Relations of distinct rows -/

section
variable {A : Type} {key : A → String}

private theorem foldl_keepFirst (l kept : List A) :
    let all := l.foldl (fun kept a => if key a ∈ kept.map key then kept else kept ++ [a]) kept
    ((kept.map key).Nodup → (all.map key).Nodup) ∧ (∀ a ∈ all, a ∈ kept ∨ a ∈ l) ∧
      (((kept ++ l).map key).Nodup → all = kept ++ l) := by
  induction l generalizing kept with
  | nil => exact ⟨fun nodup => nodup, fun a mem => .inl mem, fun _ => (List.append_nil _).symm⟩
  | cons a l ih =>
    dsimp only [List.foldl_cons]
    split
    · next seen =>
      obtain ⟨keeps, from_, _⟩ := ih kept
      refine ⟨keeps, fun b mem => ?_, fun nodup => ?_⟩
      · exact (from_ b mem).imp_right (List.mem_cons_of_mem _)
      · rw [List.map_append, List.map_cons] at nodup
        exact absurd rfl ((List.nodup_append.mp nodup).2.2 _ seen _ List.mem_cons_self)
    · next fresh =>
      obtain ⟨keeps, from_, all⟩ := ih (kept ++ [a])
      refine ⟨fun nodup => keeps ?_, fun b mem => ?_, fun nodup => ?_⟩
      · rw [List.map_append]
        refine List.nodup_append.mpr ⟨nodup, List.nodup_singleton _, fun k here k' there => ?_⟩
        rw [List.mem_singleton.mp there]
        rintro rfl
        exact fresh here
      · rcases from_ b mem with old | later
        · rcases List.mem_append.mp old with old | new
          · exact .inl old
          · exact .inr (List.mem_cons.mpr (.inl (List.mem_singleton.mp new)))
        · exact .inr (List.mem_cons_of_mem _ later)
      · rw [all (by rwa [List.append_assoc, List.singleton_append]), List.append_assoc,
          List.singleton_append]

theorem nodup_keepFirst (key : A → String) (l : List A) : ((keepFirst key l).map key).Nodup :=
  (foldl_keepFirst l []).1 List.nodup_nil

theorem mem_of_mem_keepFirst {l : List A} {a : A} (mem : a ∈ keepFirst key l) : a ∈ l :=
  ((foldl_keepFirst l []).2.1 a mem).resolve_left List.not_mem_nil

theorem keepFirst_of_nodup {l : List A} (nodup : (l.map key).Nodup) : keepFirst key l = l :=
  (foldl_keepFirst l []).2.2 nodup

end

theorem candidateRelations_spec {item : GraphRow} {value : PlanningInventoryRelation}
    (mem : value ∈ candidateRelations item) :
    value.fromTodoId = item.todoId ∧
      (value.relation = .resumesWhen → item.resumeWhen = some value.toRef) := by
  have single : ∀ {kind : PlanningRelationKind} {ref : Option String},
      value ∈ candidateRelation item kind ref →
      value.fromTodoId = item.todoId ∧ value.relation = kind ∧ ref = some value.toRef := by
    intro kind ref mem
    unfold candidateRelation at mem
    split at mem
    · cases mem
    · split at mem
      · cases mem
      · rw [List.mem_singleton.mp mem]
        exact ⟨rfl, rfl, rfl⟩
  simp only [candidateRelations, List.mem_append, List.mem_flatMap] at mem
  rcases mem with ((⟨successor, _, mem⟩ | mem) | mem) | mem
  · obtain ⟨source, kind, _⟩ := single mem
    exact ⟨source, fun resumes => by rw [kind] at resumes; cases resumes⟩
  · obtain ⟨source, kind, _⟩ := single mem
    exact ⟨source, fun resumes => by rw [kind] at resumes; cases resumes⟩
  · obtain ⟨source, _, ref⟩ := single mem
    exact ⟨source, fun _ => ref⟩
  · obtain ⟨source, kind, _⟩ := single mem
    exact ⟨source, fun resumes => by rw [kind] at resumes; cases resumes⟩

theorem graphEdge_eq_some {host : ResumeHost} {value : PlanningInventoryRelation}
    {edge : GraphEdge} (h : graphEdge host value = some edge) :
    edge.sourceRelation = value.relation ∧
      (value.relation ≠ .resumesWhen →
        edge.fromTodoId = value.toRef ∧ edge.toTodoId = value.fromTodoId) ∧
      (value.relation = .resumesWhen → edge.fromTodoId = value.fromTodoId) := by
  unfold graphEdge at h
  split at h
  · cases h
  · next target found =>
    split at h
    · cases h
    · obtain rfl := Option.some.inj h
      unfold directedEdge
      cases kind : value.relation <;> simp_all [relationTarget]

/-- A relation behind an edge of the rows. -/
private theorem exists_relation {host : ResumeHost} {rows : List GraphRow} {edge : GraphEdge}
    (mem : edge ∈ (projectRelations rows).filterMap (graphEdge host)) :
    ∃ value item, item ∈ rows ∧ value ∈ candidateRelations item ∧
      graphEdge host value = some edge := by
  obtain ⟨value, projected, made⟩ := List.mem_filterMap.mp mem
  obtain ⟨item, listed, candidate⟩ := List.mem_flatMap.mp (mem_of_mem_keepFirst projected)
  exact ⟨value, item, listed, candidate, made⟩

private theorem eq_of_todoId {rows : List GraphRow} (distinct : (rows.map GraphRow.todoId).Nodup)
    {left right : GraphRow} (mem : left ∈ rows) (mem' : right ∈ rows)
    (same : left.todoId = right.todoId) : left = right :=
  List.inj_on_of_nodup_map distinct mem mem' same

/-- Ends and source of an edge tell the relation it displays. -/
theorem relation_of_edge {host : ResumeHost} {rows : List GraphRow}
    (distinct : (rows.map GraphRow.todoId).Nodup) {item item' : GraphRow}
    {value value' : PlanningInventoryRelation} {edge edge' : GraphEdge} (listed : item ∈ rows)
    (listed' : item' ∈ rows) (candidate : value ∈ candidateRelations item)
    (candidate' : value' ∈ candidateRelations item') (made : graphEdge host value = some edge)
    (made' : graphEdge host value' = some edge') (start : edge.fromTodoId = edge'.fromTodoId)
    (target : edge.toTodoId = edge'.toTodoId)
    (source : edge.sourceRelation = edge'.sourceRelation) : value = value' := by
  obtain ⟨owner, resumes⟩ := candidateRelations_spec candidate
  obtain ⟨owner', resumes'⟩ := candidateRelations_spec candidate'
  obtain ⟨kind, direct, waits⟩ := graphEdge_eq_some made
  obtain ⟨kind', direct', waits'⟩ := graphEdge_eq_some made'
  have relations : value.relation = value'.relation := by rw [← kind, ← kind', source]
  obtain ⟨fromId, toRef, relation⟩ := value
  obtain ⟨fromId', toRef', relation'⟩ := value'
  dsimp only at owner owner' resumes resumes' direct direct' waits waits' relations
  subst relations
  by_cases isResume : relation = .resumesWhen
  · have sameFrom : fromId = fromId' := by rw [← waits isResume, ← waits' isResume, start]
    have rows_ : item = item' := eq_of_todoId distinct listed listed' (by
      rw [← owner, ← owner', sameFrom])
    have refs := (resumes isResume).symm.trans (rows_ ▸ resumes' isResume)
    rw [sameFrom, Option.some.inj refs]
  · obtain ⟨ref, owned⟩ := direct isResume
    obtain ⟨ref', owned'⟩ := direct' isResume
    rw [← ref, ← ref', ← owned, ← owned', start, target]

theorem mem_relationEdges {host : ResumeHost} {rows : List GraphRow} {edge : GraphEdge} :
    edge ∈ relationEdges host rows ↔
      edge ∈ (projectRelations rows).filterMap (graphEdge host) :=
  (List.perm_insertionSort _ _).mem_iff

/-- An edge is known by its ends and the relation it displays. -/
theorem relationEdges_ext {host : ResumeHost} {rows : List GraphRow}
    (distinct : (rows.map GraphRow.todoId).Nodup) {edge edge' : GraphEdge}
    (mem : edge ∈ relationEdges host rows) (mem' : edge' ∈ relationEdges host rows)
    (start : edge.fromTodoId = edge'.fromTodoId) (target : edge.toTodoId = edge'.toTodoId)
    (source : edge.sourceRelation = edge'.sourceRelation) : edge = edge' := by
  obtain ⟨value, item, listed, candidate, made⟩ := exists_relation (mem_relationEdges.1 mem)
  obtain ⟨value', item', listed', candidate', made'⟩ :=
    exists_relation (mem_relationEdges.1 mem')
  have same := relation_of_edge distinct listed listed' candidate candidate' made made' start target
    source
  rw [same] at made
  exact Option.some.inj (made.symm.trans made')

theorem nodup_relationEdges {host : ResumeHost} {rows : List GraphRow}
    (distinct : (rows.map GraphRow.todoId).Nodup) : (relationEdges host rows).Nodup := by
  refine (List.perm_insertionSort _ _).nodup_iff.mpr ?_
  refine List.pairwise_filterMap.mpr ?_
  have relations : (projectRelations rows).Nodup := (nodup_keepFirst relationKey _).of_map _
  refine relations.imp_of_mem fun {value value'} mem mem' apart => ?_
  intro edge made edge' made' same
  subst same
  obtain ⟨item, listed, candidate⟩ := List.mem_flatMap.mp (mem_of_mem_keepFirst mem)
  obtain ⟨item', listed', candidate'⟩ := List.mem_flatMap.mp (mem_of_mem_keepFirst mem')
  exact apart
    (relation_of_edge distinct listed listed' candidate candidate' made made' rfl rfl rfl)

theorem PlanningRelationKind.text_injective :
    Function.Injective PlanningRelationKind.text := by
  intro a b h
  cases a <;> cases b <;> first | rfl | exact absurd h (by decide)

private theorem toList_edgeKey (edge : GraphEdge) :
    (edgeKey edge).toList = edge.fromTodoId.toList ++ nulChar ::
      (edge.toTodoId.toList ++ nulChar :: edge.sourceRelation.text.toList) := by
  have delimiter : nul.toList = [nulChar] := rfl
  simp only [edgeKey, String.toList_append, delimiter, List.append_assoc, List.cons_append,
    List.nil_append]

/-- The ends of an edge hold no delimiter. -/
def GraphEdge.Plain (edge : GraphEdge) : Prop :=
  nulChar ∉ edge.fromTodoId.toList ∧ nulChar ∉ edge.toTodoId.toList

/-- Without a delimiter in its ends, an edge is known by its key. -/
theorem eq_of_edgeKey {host : ResumeHost} {rows : List GraphRow}
    (distinct : (rows.map GraphRow.todoId).Nodup) {edge edge' : GraphEdge}
    (mem : edge ∈ relationEdges host rows) (mem' : edge' ∈ relationEdges host rows)
    (plain : edge.Plain) (plain' : edge'.Plain) (same : edgeKey edge = edgeKey edge') :
    edge = edge' := by
  have lists := congrArg String.toList same
  rw [toList_edgeKey, toList_edgeKey] at lists
  obtain ⟨start, lists⟩ := append_cons_inj_of_not_mem lists plain.1 plain'.1
  obtain ⟨target, source⟩ := append_cons_inj_of_not_mem lists plain.2 plain'.2
  exact relationEdges_ext distinct mem mem' (String.toList_injective start)
    (String.toList_injective target)
    (PlanningRelationKind.text_injective (String.toList_injective source))

end Loopx.WorkItems
