/- GID: Loopx/WorkItems/TaskGraph
   generality: I
   source: loopx/control_plane/work_items/task_graph.ts
   digest: The bounded closure of a Todo under its predecessors, and when its edges are exact. -/

import Loopx.Lib.BreadthFirst
import Loopx.WorkItems.PlanningRelations

set_option autoImplicit false
set_option relaxedAutoImplicit false

namespace Loopx.WorkItems

open Loopx.Lib.BreadthFirst
open Loopx.Lib.Fallible (bind_eq_ok throwWhen throwWhen_eq_ok)
open Loopx.Lib.KeyedList
open Loopx.Todos (Plan ResumeHost asciiEvaluation requireBoolean requireInteger requireJsonObject
  requireNonEmptyString)

def TASK_GRAPH_TOPOLOGY_REQUEST : String := "task_graph_topology_request_v0"

def TASK_GRAPH_TOPOLOGY_RESULT : String := "task_graph_topology_result_v0"

structure TopologyRequest extends GraphRows where
  selected : String
  limit : Nat
  sourceTruncated : Bool

def readTopologyRequest (value : Json) : Plan TopologyRequest := do
  let request ← requireJsonObject (some value) "task graph topology request"
  throwWhen (request.lookup "schema_version" ≠ some (.string TASK_GRAPH_TOPOLOGY_REQUEST))
    "Task graph topology request schema mismatch"
  let selected ← requireNonEmptyString (request.lookup "selected_todo_id") "selected_todo_id"
  let limit ← requireInteger (request.lookup "predecessor_limit") "predecessor_limit"
  throwWhen (limit < 0 ∨ 32 < limit) "predecessor_limit must be in 0..32"
  let sourceTruncated ← requireBoolean (request.lookup "source_truncated") "source_truncated"
  let rows ← decodeRows request
  .ok ⟨rows, selected, limit.toNat, sourceTruncated⟩

namespace TopologyRequest

variable (request : TopologyRequest) (host : ResumeHost)

def ids : List String := request.rows.map GraphRow.todoId

def isDone (id : String) : Bool :=
  (request.rows.find? fun item => item.todoId = id).any GraphRow.done

/-- The edges that the scan follows from a Todo: those of the selected and of finished ones. -/
def leaving (id : String) : List GraphEdge :=
  if id ≠ request.selected ∧ request.isDone id = false then []
  else (relationEdges host request.rows).filter fun edge => edge.fromTodoId = id

end TopologyRequest

/-- Insert into a set that keeps its order of insertion. -/
def insertId (ids : List String) (id : String) : List String :=
  if id ∈ ids then ids else ids ++ [id]

/-- The scan. Its nodes are both the queue and the emitted Todos, which are the same ids. -/
structure TopologyScan (limit : Nat) extends Queue String limit where
  missing : List String
  omitted : List String
  candidates : List (String × GraphEdge)

section
variable (request : TopologyRequest) (host : ResumeHost)

def scanEdge (scan : TopologyScan request.limit) (edge : GraphEdge) :
    TopologyScan request.limit :=
  let target := edge.toTodoId
  let scan := { scan with candidates := setKey scan.candidates (edgeKey edge) edge }
  if target ∉ request.ids then { scan with missing := insertId scan.missing target }
  else if target ∈ scan.nodes then scan
  else if request.limit < scan.nodes.length then
    { scan with omitted := insertId scan.omitted target }
  else { scan with toQueue := push scan.toQueue target }

/-- The scan goes on through the admitted Todos after the cap is reached. -/
def scanFrom (cursor : Nat) (scan : TopologyScan request.limit) : TopologyScan request.limit :=
  if here : cursor < scan.nodes.length then
    scanFrom (cursor + 1)
      ((request.leaving host scan.nodes[cursor]).foldl (scanEdge request) scan)
  else scan
termination_by request.limit + 1 - cursor
decreasing_by
  have := scan.room
  omega

/-- The scan before its first step: the selected Todo where it exists. -/
def scanStart : TopologyScan request.limit :=
  if request.selected ∈ request.ids then
    { nodes := [request.selected]
      room := by rw [List.length_singleton]; omega
      missing := []
      omitted := []
      candidates := [] }
  else
    { nodes := []
      room := Nat.zero_le _
      missing := [request.selected]
      omitted := []
      candidates := [] }

end

structure TaskGraphTopology where
  schemaVersion : String
  predecessorTodoIds : List String
  edges : List GraphEdge
  predecessorLimit : Nat
  emittedPredecessorCount : Nat
  predecessorTruncated : Bool
  sourceTruncated : Bool
  missingPredecessorCount : Nat
  topologyComplete : Bool

def taskGraphTopology (host : ResumeHost) (request : TopologyRequest) : TaskGraphTopology :=
  let scan := scanFrom request host 0 (scanStart request)
  let edges := (scan.candidates.map Prod.snd).filter fun edge => edge.toTodoId ∈ scan.nodes
  let predecessors := scan.nodes.filter fun id => id ≠ request.selected
  { schemaVersion := TASK_GRAPH_TOPOLOGY_RESULT
    predecessorTodoIds := predecessors
    edges := edges
    predecessorLimit := request.limit
    emittedPredecessorCount := predecessors.length
    predecessorTruncated := 0 < scan.omitted.length
    sourceTruncated := request.sourceTruncated
    missingPredecessorCount := scan.missing.length
    topologyComplete := !request.sourceTruncated && scan.missing.length = 0 &&
      scan.omitted.length = 0 }

def projectTaskGraphTopology (host : ResumeHost) (value : Json) : Plan TaskGraphTopology := do
  let request ← readTopologyRequest value
  .ok (taskGraphTopology host request)

/-! ## The scan as a search -/

section
variable {request : TopologyRequest} {host : ResumeHost}

namespace TopologyRequest

/-- The Todos that the edges from a Todo lead to. -/
def neighbors (request : TopologyRequest) (host : ResumeHost) (id : String) : List String :=
  (request.leaving host id).map GraphEdge.toTodoId

/-- Those of them that have a row. -/
def targets (request : TopologyRequest) (host : ResumeHost) (id : String) : List String :=
  (request.neighbors host id).filter fun target => target ∈ request.ids

end TopologyRequest

private theorem toQueue_scanEdge (scan : TopologyScan request.limit) (edge : GraphEdge) :
    (scanEdge request scan edge).toQueue =
      if edge.toTodoId ∈ request.ids then push scan.toQueue edge.toTodoId else scan.toQueue := by
  unfold scanEdge
  dsimp only
  by_cases known : edge.toTodoId ∈ request.ids
  · rw [if_neg (not_not.mpr known), if_pos known]
    by_cases old : edge.toTodoId ∈ scan.nodes
    · rw [if_pos old, push, dif_pos (.inl old)]
    · rw [if_neg old]
      by_cases full : request.limit < scan.nodes.length
      · rw [if_pos full, push, dif_pos (.inr full)]
      · rw [if_neg full]
  · rw [if_pos known, if_neg known]

private theorem toQueue_foldl (edges : List GraphEdge) (scan : TopologyScan request.limit) :
    (edges.foldl (scanEdge request) scan).toQueue =
      ((edges.map GraphEdge.toTodoId).filter fun target => target ∈ request.ids).foldl push
        scan.toQueue := by
  induction edges generalizing scan with
  | nil => rfl
  | cons edge edges ih =>
    rw [List.foldl_cons, ih, toQueue_scanEdge, List.map_cons]
    by_cases known : edge.toTodoId ∈ request.ids
    · rw [if_pos known, List.filter_cons, if_pos (by simpa using known)]
      rfl
    · rw [if_neg known, List.filter_cons, if_neg (by simpa using known)]

theorem toQueue_scanFrom (cursor : Nat) (scan : TopologyScan request.limit) :
    (scanFrom request host cursor scan).toQueue =
      visitFrom (request.targets host) cursor scan.toQueue := by
  induction cursor, scan using scanFrom.induct request host with
  | case1 cursor scan here ih =>
    rw [scanFrom, dif_pos here, ih, toQueue_foldl]
    conv_rhs => rw [visitFrom, dif_pos here]
    rfl
  | case2 cursor scan past =>
    rw [scanFrom, dif_neg past, visitFrom, dif_neg past]

/-- What the scan has kept of the edges it has seen. -/
structure Seen (request : TopologyRequest) (scan : TopologyScan request.limit)
    (seen : List GraphEdge) : Prop where
  candidates : scan.candidates = ofEntries (seen.map fun edge => (edgeKey edge, edge))
  missing : ∀ id, id ∈ scan.missing ↔ ∃ edge ∈ seen, edge.toTodoId = id ∧ id ∉ request.ids
  omitted : ∀ id ∈ scan.omitted, id ∈ request.ids ∧ id ∉ scan.nodes ∧
    request.limit < scan.nodes.length ∧ ∃ edge ∈ seen, edge.toTodoId = id
  settled : ∀ edge ∈ seen, edge.toTodoId ∈ request.ids →
    edge.toTodoId ∈ scan.nodes ∨ edge.toTodoId ∈ scan.omitted

private theorem mem_insertId {ids : List String} {id id' : String} :
    id' ∈ insertId ids id ↔ id' = id ∨ id' ∈ ids := by
  unfold insertId
  split
  · next old =>
    constructor
    · exact .inr
    · rintro (rfl | mem)
      · exact old
      · exact mem
  · rw [List.mem_append, List.mem_singleton, or_comm]

private theorem exists_mem_concat {seen : List GraphEdge} {edge : GraphEdge}
    {P : GraphEdge → Prop} :
    (∃ e ∈ seen ++ [edge], P e) ↔ (∃ e ∈ seen, P e) ∨ P edge := by
  simp only [List.mem_append, List.mem_singleton, or_and_right, exists_or, exists_eq_left]

theorem Seen.scanEdge {scan : TopologyScan request.limit} {seen : List GraphEdge}
    (h : Seen request scan seen) (edge : GraphEdge) :
    Seen request (scanEdge request scan edge) (seen ++ [edge]) := by
  have kept : ∀ candidates, candidates = setKey scan.candidates (edgeKey edge) edge →
      candidates = ofEntries ((seen ++ [edge]).map fun edge => (edgeKey edge, edge)) := by
    rintro _ rfl
    rw [h.candidates, List.map_append, ofEntries, ofEntries, List.foldl_append]
    rfl
  have queue := toQueue_scanEdge scan edge
  unfold WorkItems.scanEdge at queue ⊢
  dsimp only at queue ⊢
  split at queue
  · next unknown =>
    rw [if_pos unknown]
    refine ⟨kept _ rfl, fun id => ?_, fun id mem => ?_, fun e mem known => ?_⟩
    · rw [exists_mem_concat, ← h.missing, mem_insertId, or_comm]
      refine or_congr_right ⟨?_, fun there => there.1.symm⟩
      rintro rfl
      exact ⟨rfl, unknown⟩
    · obtain ⟨known, fresh, full, from_⟩ := h.omitted id mem
      exact ⟨known, fresh, full, exists_mem_concat.2 (.inl from_)⟩
    · rcases List.mem_append.mp mem with old | new
      · exact h.settled e old known
      · rw [List.mem_singleton.mp new] at known
        exact absurd known unknown
  · next known =>
    rw [if_neg known]
    have known := not_not.mp known
    have missing : ∀ id, id ∈ scan.missing ↔
        ∃ e ∈ seen ++ [edge], e.toTodoId = id ∧ id ∉ request.ids := by
      intro id
      rw [exists_mem_concat, ← h.missing]
      refine ⟨.inl, fun there => there.resolve_right ?_⟩
      rintro ⟨rfl, unknown⟩
      exact unknown known
    split at queue
    · next old =>
      rw [if_pos old]
      refine ⟨kept _ rfl, missing, fun id mem => ?_, fun e mem known => ?_⟩
      · obtain ⟨known, fresh, full, from_⟩ := h.omitted id mem
        exact ⟨known, fresh, full, exists_mem_concat.2 (.inl from_)⟩
      · rcases List.mem_append.mp mem with earlier | new
        · exact h.settled e earlier known
        · rw [List.mem_singleton.mp new]
          exact .inl old
    · next fresh =>
      rw [if_neg fresh]
      split at queue
      · next full =>
        rw [if_pos full]
        refine ⟨kept _ rfl, missing, fun id mem => ?_, fun e mem there => ?_⟩
        · rcases mem_insertId.1 mem with rfl | mem
          · exact ⟨known, fresh, full, exists_mem_concat.2 (.inr rfl)⟩
          · obtain ⟨known, fresh, full, from_⟩ := h.omitted id mem
            exact ⟨known, fresh, full, exists_mem_concat.2 (.inl from_)⟩
        · rcases List.mem_append.mp mem with earlier | new
          · exact (h.settled e earlier there).imp_right fun mem => mem_insertId.2 (.inr mem)
          · rw [List.mem_singleton.mp new]
            exact .inr (mem_insertId.2 (.inl rfl))
      · next room =>
        rw [if_neg room]
        have none : scan.omitted = [] := List.eq_nil_iff_forall_not_mem.mpr fun id mem =>
          room (h.omitted id mem).2.2.1
        have pushed : (push scan.toQueue edge.toTodoId).nodes = scan.nodes ++ [edge.toTodoId] := by
          rw [push, dif_neg (not_or.mpr ⟨fresh, room⟩)]
        refine ⟨kept _ rfl, missing, fun id mem => ?_, fun e mem there => .inl ?_⟩
        · rw [none] at mem
          cases mem
        · rw [pushed]
          rcases List.mem_append.mp mem with earlier | new
          · refine List.mem_append_left _ ((h.settled e earlier there).resolve_right ?_)
            rw [none]
            exact List.not_mem_nil
          · rw [List.mem_singleton.mp new]
            exact List.mem_append_right _ List.mem_cons_self

private theorem seen_foldl (edges : List GraphEdge) {scan : TopologyScan request.limit}
    {seen : List GraphEdge} (h : Seen request scan seen) :
    Seen request (edges.foldl (WorkItems.scanEdge request) scan) (seen ++ edges) := by
  induction edges generalizing scan seen with
  | nil => rwa [List.append_nil]
  | cons edge edges ih =>
    have next := ih (h.scanEdge edge)
    rwa [List.append_assoc, List.singleton_append] at next

private theorem seen_scanFrom (cursor : Nat) (scan : TopologyScan request.limit)
    (h : Seen request scan ((scan.nodes.take cursor).flatMap (request.leaving host))) :
    Seen request (scanFrom request host cursor scan)
      ((scanFrom request host cursor scan).nodes.flatMap (request.leaving host)) := by
  induction cursor, scan using scanFrom.induct request host with
  | case1 cursor scan here ih =>
    rw [scanFrom, dif_pos here]
    refine ih ?_
    have expanded := seen_foldl (request.leaving host scan.nodes[cursor]) h
    have grown : scan.nodes <+:
        ((request.leaving host scan.nodes[cursor]).foldl (scanEdge request) scan).nodes := by
      rw [toQueue_foldl]
      exact prefix_foldl_push _ scan.toQueue
    obtain ⟨rest, whole⟩ := grown
    have taken : ((request.leaving host scan.nodes[cursor]).foldl (scanEdge request)
        scan).nodes.take (cursor + 1) = scan.nodes.take cursor ++ [scan.nodes[cursor]] := by
      rw [← whole, List.take_append_of_le_length here, List.take_add_one,
        List.getElem?_eq_getElem here]
      rfl
    rw [taken, List.flatMap_append, List.flatMap_singleton]
    exact expanded
  | case2 cursor scan past =>
    rw [scanFrom, dif_neg past]
    rwa [List.take_of_length_le (Nat.le_of_not_lt past)] at h

namespace TopologyRequest

/-- The admitted Todos: a breadth-first search that stops at the limit. -/
def admitted (request : TopologyRequest) (host : ResumeHost) : List String :=
  if request.selected ∈ request.ids then
    (search request.limit (request.targets host) request.selected).nodes
  else []

/-- The edges that leave the admitted Todos, in the order of the scan. -/
def scanned (request : TopologyRequest) (host : ResumeHost) : List GraphEdge :=
  (request.admitted host).flatMap (request.leaving host)

end TopologyRequest

/-- The end of the scan. -/
theorem scan_spec (request : TopologyRequest) (host : ResumeHost) :
    let scan := scanFrom request host 0 (scanStart request)
    scan.nodes = request.admitted host ∧
      (request.selected ∈ request.ids → Seen request scan (request.scanned host)) ∧
      (request.selected ∉ request.ids → scan.missing = [request.selected]) := by
  dsimp only
  by_cases exists_ : request.selected ∈ request.ids
  · have start : scanStart request =
        { nodes := [request.selected], room := by rw [List.length_singleton]; omega,
          missing := [], omitted := [], candidates := [] } := if_pos exists_
    have nodes : (scanFrom request host 0 (scanStart request)).nodes = request.admitted host := by
      rw [TopologyRequest.admitted, if_pos exists_, toQueue_scanFrom, start]
      rfl
    refine ⟨nodes, fun _ => ?_, fun absent => absurd exists_ absent⟩
    rw [TopologyRequest.scanned, ← nodes]
    refine seen_scanFrom 0 (scanStart request) ?_
    rw [List.take_zero, List.flatMap_nil, start]
    exact ⟨rfl, fun id => by simp, fun id mem => absurd mem List.not_mem_nil,
      fun e mem => absurd mem List.not_mem_nil⟩
  · have start : scanStart request =
        { nodes := [], room := Nat.zero_le _, missing := [request.selected], omitted := [],
          candidates := [] } := if_neg exists_
    have stopped : scanFrom request host 0 (scanStart request) = scanStart request := by
      rw [scanFrom, dif_neg (by rw [start]; exact Nat.lt_irrefl 0)]
    rw [stopped, start]
    exact ⟨by rw [TopologyRequest.admitted, if_neg exists_], fun there => absurd there exists_,
      fun _ => rfl⟩

/-! ## The closure -/

namespace TopologyRequest

/-- The Todos of the closure: those at the end of a path that leaves the selected Todo and goes on
through finished ones only. -/
abbrev Reaches (request : TopologyRequest) (host : ResumeHost) : Nat → String → Prop :=
  Walk (request.neighbors host) request.selected

/-- The existing Todos of the closure, the nearest first. -/
structure BreadthFirstOrder (request : TopologyRequest) (host : ResumeHost)
    (whole : List String) : Prop where
  nodup : whole.Nodup
  mem_iff : ∀ id, id ∈ whole ↔ id ∈ request.ids ∧ ∃ n, request.Reaches host n id
  ordered : whole.Pairwise (Nearer (request.neighbors host) request.selected)

theorem mem_ids_of_isDone {id : String} (done : request.isDone id = true) : id ∈ request.ids := by
  unfold isDone at done
  cases found : request.rows.find? fun item => item.todoId = id with
  | none =>
    rw [found] at done
    cases done
  | some item =>
    have named : item.todoId = id := by simpa using List.find?_some found
    exact List.mem_map.mpr ⟨item, List.mem_of_find?_eq_some found, named⟩

/-- A Todo that the scan expands: the selected one, or a finished one. -/
def Expandable (request : TopologyRequest) (id : String) : Prop :=
  id = request.selected ∨ request.isDone id = true

theorem mem_leaving {id : String} {edge : GraphEdge} :
    edge ∈ request.leaving host id ↔
      edge ∈ relationEdges host request.rows ∧ edge.fromTodoId = id ∧ request.Expandable id := by
  unfold leaving Expandable
  split
  · next stops =>
    obtain ⟨other, open_⟩ := stops
    simp [other, open_]
  · next expands =>
    have expandable : id = request.selected ∨ request.isDone id = true := by
      by_cases same : id = request.selected
      · exact .inl same
      · exact .inr (Bool.not_eq_false _ ▸ fun open_ => expands ⟨same, open_⟩)
    simp [expandable]

/-- A path over Todos with rows is any path that ends at one: only such Todos are expanded. -/
theorem walk_targets (selected : request.selected ∈ request.ids) {n : Nat} {id : String} :
    Walk (request.targets host) request.selected n id ↔
      request.Reaches host n id ∧ id ∈ request.ids := by
  constructor
  · intro walk
    induction walk with
    | refl => exact ⟨.refl, selected⟩
    | step walk edge ih =>
      obtain ⟨into, known⟩ := List.mem_filter.mp edge
      exact ⟨.step ih.1 into, of_decide_eq_true known⟩
  · rintro ⟨walk, known⟩
    induction walk with
    | refl => exact .refl
    | step walk into ih =>
      next n a b =>
      obtain ⟨edge, leaves, _⟩ := List.mem_map.mp into
      have expandable := (mem_leaving.1 leaves).2.2
      have listed : a ∈ request.ids := by
        rcases expandable with rfl | done
        · exact selected
        · exact mem_ids_of_isDone done
      exact .step (ih listed) (List.mem_filter.mpr ⟨into, decide_eq_true known⟩)

theorem exists_breadthFirstOrder (selected : request.selected ∈ request.ids) :
    ∃ whole, request.BreadthFirstOrder host whole ∧
      request.admitted host = whole.take (request.limit + 1) := by
  have within : ∀ a ∈ request.ids, ∀ b ∈ request.targets host a, b ∈ request.ids :=
    fun a _ b mem => of_decide_eq_true (List.mem_filter.mp mem).2
  obtain ⟨whole, enumerates, beginning⟩ := exists_enumeration selected within request.limit
  refine ⟨whole, ⟨enumerates.nodup, fun id => ?_, ?_⟩, ?_⟩
  · rw [enumerates.mem_iff]
    simp only [walk_targets selected]
    constructor
    · rintro ⟨n, walk, known⟩
      exact ⟨known, n, walk⟩
    · rintro ⟨known, n, walk⟩
      exact ⟨n, walk, known⟩
  · refine enumerates.ordered.imp_of_mem fun {a b} _ mem nearer n walk => ?_
    obtain ⟨_, walk'⟩ := (enumerates.mem_iff b).mp mem
    obtain ⟨m, le, shorter⟩ := nearer n
      ((walk_targets selected).mpr ⟨walk, ((walk_targets selected).mp walk').2⟩)
    exact ⟨m, le, ((walk_targets selected).mp shorter).1⟩
  · rw [admitted, if_pos selected, beginning]

end TopologyRequest

namespace TopologyRequest

/-- The Todos that a result emits: the selected one, where it exists, and its predecessors. -/
def emitted (request : TopologyRequest) (result : TaskGraphTopology) : List String :=
  if request.selected ∈ request.ids then request.selected :: result.predecessorTodoIds else []

/-- The result is the bounded closure of the selected Todo, with every edge in it. -/
structure ExactClosure (request : TopologyRequest) (host : ResumeHost)
    (result : TaskGraphTopology) : Prop where
  breadthFirst : request.selected ∈ request.ids → ∃ whole, request.BreadthFirstOrder host whole ∧
    request.emitted result = whole.take (request.limit + 1)
  absent : request.selected ∉ request.ids → result.predecessorTodoIds = []
  bounded : result.predecessorTodoIds.length ≤ request.limit
  edges : ∀ edge, edge ∈ result.edges ↔ edge ∈ relationEdges host request.rows ∧
    request.Expandable edge.fromTodoId ∧ edge.fromTodoId ∈ request.emitted result ∧
    edge.toTodoId ∈ request.emitted result
  once : result.edges.Nodup
  endpoints : ∀ edge ∈ result.edges, edge.fromTodoId ∈ request.emitted result ∧
    edge.toTodoId ∈ request.emitted result
  complete : result.topologyComplete = true ↔ request.sourceTruncated = false ∧
    ∀ n id, request.Reaches host n id → id ∈ request.ids ∧ id ∈ request.emitted result

/-- No edge into an admitted Todo has the key of an edge that is scanned later. -/
def KeysApart (request : TopologyRequest) (host : ResumeHost) : Prop :=
  (request.scanned host).Pairwise fun edge later =>
    edgeKey edge = edgeKey later → edge.toTodoId ∉ request.admitted host

instance : Decidable (request.KeysApart host) :=
  inferInstanceAs (Decidable (List.Pairwise _ _))

theorem nodup_admitted : (request.admitted host).Nodup := by
  unfold admitted
  split
  · obtain ⟨_, _, visiting⟩ := visiting_search request.limit (request.targets host) request.selected
    exact visiting.nodup
  · exact List.nodup_nil

theorem nodup_scanned : (request.scanned host).Nodup := by
  refine List.nodup_flatMap.mpr ⟨fun id _ => ?_, nodup_admitted.imp fun {a b} apart => ?_⟩
  · unfold leaving
    split
    · exact List.nodup_nil
    · exact (nodup_relationEdges request.distinct).filter _
  · intro edge mem mem'
    exact apart ((mem_leaving.1 mem).2.1.symm.trans (mem_leaving.1 mem').2.1)

theorem mem_scanned {edge : GraphEdge} :
    edge ∈ request.scanned host ↔ edge ∈ relationEdges host request.rows ∧
      request.Expandable edge.fromTodoId ∧ edge.fromTodoId ∈ request.admitted host := by
  rw [scanned, List.mem_flatMap]
  constructor
  · rintro ⟨id, listed, leaves⟩
    obtain ⟨mem, rfl, expandable⟩ := mem_leaving.1 leaves
    exact ⟨mem, expandable, listed⟩
  · rintro ⟨mem, expandable, listed⟩
    exact ⟨edge.fromTodoId, listed, mem_leaving.2 ⟨mem, rfl, expandable⟩⟩

end TopologyRequest

/-- A map by key keeps an edge exactly where no later edge has its key. -/
private theorem mem_ofEntries_edges {edges : List GraphEdge} {edge : GraphEdge}
    (mem : edge ∈ (ofEntries (edges.map fun e => (edgeKey e, e))).map Prod.snd) :
    edge ∈ edges ∧
      (ofEntries (edges.map fun e => (edgeKey e, e))).lookup (edgeKey edge) = some edge := by
  obtain ⟨entry, stored, rfl⟩ := List.mem_map.mp mem
  obtain ⟨e, listed, rfl⟩ := List.mem_map.mp (mem_of_mem_ofEntries stored)
  exact ⟨listed, lookup_of_mem (nodup_keys_ofEntries _) stored⟩

private theorem keys_edges (edges : List GraphEdge) :
    keys (edges.map fun e => (edgeKey e, e)) = edges.map edgeKey := by
  rw [keys, List.map_map]
  rfl

theorem keptEdges_iff (edges : List GraphEdge) (nodup : edges.Nodup) (P : GraphEdge → Prop) :
    (∀ edge ∈ edges, P edge →
        edge ∈ (ofEntries (edges.map fun e => (edgeKey e, e))).map Prod.snd) ↔
      edges.Pairwise fun edge later => edgeKey edge = edgeKey later → ¬P edge := by
  constructor
  · intro kept
    refine List.pairwise_iff_forall_sublist.mpr fun {edge later} pair same holds => ?_
    obtain ⟨front, back, rfl, mem, rest⟩ := List.cons_sublist_iff.mp pair
    have behind : later ∈ back := rest.subset List.mem_cons_self
    have shadowed : edgeKey edge ∈ keys (back.map fun e => (edgeKey e, e)) := by
      rw [keys_edges, same]
      exact List.mem_map_of_mem behind
    have found := (mem_ofEntries_edges (kept edge (List.mem_append_left _ mem) holds)).2
    rw [List.map_append, lookup_ofEntries_append, if_pos shadowed] at found
    have again := mem_of_mem_ofEntries (mem_of_lookup found)
    obtain ⟨e, there, entry⟩ := List.mem_map.mp again
    rw [Prod.mk.injEq] at entry
    exact (List.nodup_append.mp nodup).2.2 edge mem e there entry.2.symm
  · intro apart edge mem holds
    obtain ⟨front, back, rfl⟩ := List.append_of_mem mem
    have fresh : edgeKey edge ∉ keys (back.map fun e => (edgeKey e, e)) := by
      rw [keys_edges]
      intro shadowed
      obtain ⟨later, there, same⟩ := List.mem_map.mp shadowed
      have ordered := (List.pairwise_append.mp apart).2.1
      exact List.rel_of_pairwise_cons ordered there same.symm holds
    have found : (ofEntries ((front ++ edge :: back).map fun e => (edgeKey e, e))).lookup
        (edgeKey edge) = some edge := by
      rw [← List.singleton_append, ← List.append_assoc, List.map_append, lookup_ofEntries_append,
        if_neg fresh, List.map_append, lookup_ofEntries_append, if_pos (by simp [keys])]
      simp [ofEntries, setKey]
    exact List.mem_map.mpr ⟨_, mem_of_lookup found, rfl⟩

/-- The admitted Todos are the emitted ones. -/
theorem emitted_taskGraphTopology (request : TopologyRequest) (host : ResumeHost) :
    request.emitted (taskGraphTopology host request) = request.admitted host := by
  have nodes := (scan_spec request host).1
  unfold TopologyRequest.emitted
  split
  · next selected =>
    obtain ⟨_, _, visiting⟩ := visiting_search request.limit (request.targets host) request.selected
    have admitted : request.admitted host =
        (search request.limit (request.targets host) request.selected).nodes := if_pos selected
    rw [← admitted] at visiting
    cases listed : request.admitted host with
    | nil =>
      rw [listed] at visiting
      cases visiting.starts
    | cons first rest =>
      rw [listed] at visiting nodes
      obtain rfl := Option.some.inj visiting.starts
      have apart := (List.nodup_cons.mp visiting.nodup).1
      show request.selected :: List.filter (fun id => decide (id ≠ request.selected)) _ = _
      rw [nodes, List.filter_cons, if_neg (by simp), List.filter_eq_self.mpr]
      intro id mem
      refine decide_eq_true ?_
      rintro rfl
      exact apart mem
  · next absent => rw [TopologyRequest.admitted, if_neg absent]

private theorem mem_edges {edge : GraphEdge} (selected : request.selected ∈ request.ids) :
    edge ∈ (taskGraphTopology host request).edges ↔
      edge ∈ (ofEntries ((request.scanned host).map fun e => (edgeKey e, e))).map Prod.snd ∧
        edge.toTodoId ∈ request.admitted host := by
  obtain ⟨nodes, seen, _⟩ := scan_spec request host
  show edge ∈ List.filter _ _ ↔ _
  rw [List.mem_filter, (seen selected).candidates, nodes, decide_eq_true_iff]

private theorem edges_absent (absent : request.selected ∉ request.ids) :
    request.admitted host = [] ∧ (taskGraphTopology host request).edges = [] := by
  have none : request.admitted host = [] := if_neg absent
  refine ⟨none, ?_⟩
  show List.filter _ _ = _
  rw [(scan_spec request host).1, none]
  simp

/-- The edges are those of the scan, up to the keys that they share. -/
theorem edges_iff_keysApart :
    (∀ edge, edge ∈ (taskGraphTopology host request).edges ↔
        edge ∈ relationEdges host request.rows ∧ request.Expandable edge.fromTodoId ∧
          edge.fromTodoId ∈ request.admitted host ∧
          edge.toTodoId ∈ request.admitted host) ↔ request.KeysApart host := by
  by_cases selected : request.selected ∈ request.ids
  · have kept := keptEdges_iff (request.scanned host) TopologyRequest.nodup_scanned
      fun edge => edge.toTodoId ∈ request.admitted host
    rw [TopologyRequest.KeysApart, ← kept]
    constructor
    · intro exact_ edge mem holds
      obtain ⟨listed, expandable, starts⟩ := TopologyRequest.mem_scanned.1 mem
      exact ((mem_edges selected).mp
        ((exact_ edge).mpr ⟨listed, expandable, starts, holds⟩)).1
    · intro all edge
      rw [mem_edges selected]
      constructor
      · rintro ⟨stored, holds⟩
        obtain ⟨listed, expandable, starts⟩ :=
          TopologyRequest.mem_scanned.1 (mem_ofEntries_edges stored).1
        exact ⟨listed, expandable, starts, holds⟩
      · rintro ⟨listed, expandable, starts, holds⟩
        exact ⟨all edge (TopologyRequest.mem_scanned.2 ⟨listed, expandable, starts⟩) holds,
          holds⟩
  · obtain ⟨none, empty⟩ := @edges_absent request host selected
    rw [TopologyRequest.KeysApart, TopologyRequest.scanned, none, empty]
    simp

private theorem complete_iff : (taskGraphTopology host request).topologyComplete = true ↔
    request.sourceTruncated = false ∧ ∀ n id, request.Reaches host n id →
      id ∈ request.ids ∧ id ∈ request.admitted host := by
  obtain ⟨nodes, seen, absent⟩ := scan_spec request host
  have flags : (taskGraphTopology host request).topologyComplete = true ↔
      request.sourceTruncated = false ∧
        (scanFrom request host 0 (scanStart request)).missing = [] ∧
        (scanFrom request host 0 (scanStart request)).omitted = [] := by
    show (!_ && decide (_ = 0) && decide (_ = 0)) = true ↔ _
    simp only [Bool.and_eq_true, Bool.not_eq_true', decide_eq_true_eq, List.length_eq_zero_iff,
      and_assoc]
  rw [flags]
  refine and_congr_right fun _ => ?_
  by_cases selected : request.selected ∈ request.ids
  · obtain ⟨_, missing, omitted, settled⟩ := seen selected
    rw [nodes] at omitted settled
    constructor
    · rintro ⟨noneMissing, noneOmitted⟩ n id walk
      induction walk with
      | refl =>
        obtain ⟨_, _, visiting⟩ :=
          visiting_search request.limit (request.targets host) request.selected
        refine ⟨selected, ?_⟩
        rw [TopologyRequest.admitted, if_pos selected]
        exact List.mem_of_mem_head? (Option.mem_def.mpr visiting.starts)
      | step walk into ih =>
        obtain ⟨edge, leaves, rfl⟩ := List.mem_map.mp into
        obtain ⟨listed, rfl, expandable⟩ := TopologyRequest.mem_leaving.1 leaves
        have scanned := TopologyRequest.mem_scanned.2 ⟨listed, expandable, ih.2⟩
        have known : edge.toTodoId ∈ request.ids := by
          by_contra unknown
          have there := (missing edge.toTodoId).mpr ⟨edge, scanned, rfl, unknown⟩
          rw [noneMissing] at there
          cases there
        refine ⟨known, (settled edge scanned known).resolve_right ?_⟩
        rw [noneOmitted]
        exact List.not_mem_nil
    · intro all
      obtain ⟨_, _, visiting⟩ :=
        visiting_search request.limit (request.targets host) request.selected
      have reached : ∀ edge ∈ request.scanned host, ∃ n, request.Reaches host n edge.toTodoId := by
        intro edge mem
        obtain ⟨listed, expandable, starts⟩ := TopologyRequest.mem_scanned.1 mem
        rw [TopologyRequest.admitted, if_pos selected] at starts
        obtain ⟨n, walk⟩ := visiting.reached _ starts
        have walk' := ((TopologyRequest.walk_targets selected).mp walk).1
        exact ⟨n + 1, .step walk' (List.mem_map_of_mem
          (TopologyRequest.mem_leaving.2 ⟨listed, rfl, expandable⟩))⟩
      constructor
      · refine List.eq_nil_iff_forall_not_mem.mpr fun id there => ?_
        obtain ⟨edge, scanned, rfl, unknown⟩ := (missing id).mp there
        obtain ⟨n, walk⟩ := reached edge scanned
        exact unknown (all n _ walk).1
      · refine List.eq_nil_iff_forall_not_mem.mpr fun id there => ?_
        obtain ⟨_, fresh, _, edge, scanned, rfl⟩ := omitted id there
        obtain ⟨n, walk⟩ := reached edge scanned
        exact fresh (all n _ walk).2
  · constructor
    · rintro ⟨noneMissing, _⟩
      rw [absent selected] at noneMissing
      cases noneMissing
    · intro all
      exact absurd (all 0 _ .refl).1 selected

private theorem nodup_edges : (taskGraphTopology host request).edges.Nodup := by
  by_cases selected : request.selected ∈ request.ids
  · obtain ⟨_, seen, _⟩ := scan_spec request host
    show (List.filter _ _).Nodup
    refine List.Nodup.filter _ ?_
    rw [(seen selected).candidates]
    have stored := nodup_keys_ofEntries ((request.scanned host).map fun e => (edgeKey e, e))
    have keyed : keys (ofEntries ((request.scanned host).map fun e => (edgeKey e, e))) =
        ((ofEntries ((request.scanned host).map fun e => (edgeKey e, e))).map Prod.snd).map
          edgeKey := by
      rw [keys, List.map_map]
      refine List.map_congr_left fun entry mem => ?_
      obtain ⟨e, _, rfl⟩ := List.mem_map.mp (mem_of_mem_ofEntries mem)
      rfl
    rw [keyed] at stored
    exact stored.of_map _
  · rw [(@edges_absent request host selected).2]
    exact List.nodup_nil

theorem exactClosure_iff (request : TopologyRequest) (host : ResumeHost) :
    request.ExactClosure host (taskGraphTopology host request) ↔ request.KeysApart host := by
  have same := emitted_taskGraphTopology request host
  constructor
  · intro exact_
    refine edges_iff_keysApart.1 fun edge => ?_
    rw [exact_.edges edge, same]
  · intro apart
    have edges := edges_iff_keysApart.2 apart
    have size : (request.admitted host).length ≤ request.limit + 1 := by
      unfold TopologyRequest.admitted
      split
      · exact (search _ _ _).room
      · exact Nat.zero_le _
    refine ⟨fun selected => ?_, fun absent => ?_, ?_, fun edge => ?_, nodup_edges,
      fun edge mem => ?_, ?_⟩
    · rw [same]
      exact TopologyRequest.exists_breadthFirstOrder selected
    · show List.filter _ _ = []
      rw [(scan_spec request host).1, (@edges_absent request host absent).1]
      rfl
    · by_cases selected : request.selected ∈ request.ids
      · rw [← same, TopologyRequest.emitted, if_pos selected, List.length_cons] at size
        omega
      · show (List.filter _ _).length ≤ _
        rw [(scan_spec request host).1, (@edges_absent request host selected).1]
        exact Nat.zero_le _
    · rw [same]
      exact edges edge
    · rw [same]
      exact ((edges edge).mp mem).2.2
    · rw [same]
      exact complete_iff

/-- Keys are apart in every graph whose ids hold no delimiter. -/
theorem keysApart_of_plain (plain : ∀ edge ∈ relationEdges host request.rows, edge.Plain) :
    request.KeysApart host := by
  have distinct : (request.scanned host).Nodup := TopologyRequest.nodup_scanned
  refine distinct.imp_of_mem fun {edge later} mem mem' apart same _ => apart ?_
  have listed := (TopologyRequest.mem_scanned.1 mem).1
  have listed' := (TopologyRequest.mem_scanned.1 mem').1
  exact eq_of_edgeKey request.distinct listed listed' (plain _ listed) (plain _ listed') same

end

/-- A projection is the exact bounded closure exactly where the keys of its edges are apart. -/
theorem projectTaskGraphTopology_exact (host : ResumeHost) (value : Json)
    (result : TaskGraphTopology) (projected : projectTaskGraphTopology host value = .ok result) :
    ∃ request, readTopologyRequest value = .ok request ∧ request.limit ≤ 32 ∧
      (request.ExactClosure host result ↔ request.KeysApart host) := by
  obtain ⟨request, read, projected⟩ := bind_eq_ok.mp projected
  rw [← Except.ok.inj projected]
  refine ⟨request, read, ?_, exactClosure_iff request host⟩
  unfold readTopologyRequest at read
  obtain ⟨_, _, read⟩ := bind_eq_ok.mp read
  obtain ⟨_, _, read⟩ := bind_eq_ok.mp read
  obtain ⟨_, _, read⟩ := bind_eq_ok.mp read
  obtain ⟨limit, _, read⟩ := bind_eq_ok.mp read
  obtain ⟨_, bounded, read⟩ := bind_eq_ok.mp read
  obtain ⟨_, _, read⟩ := bind_eq_ok.mp read
  obtain ⟨_, _, read⟩ := bind_eq_ok.mp read
  have inside := throwWhen_eq_ok.mp bounded
  rw [← Except.ok.inj read]
  show limit.toNat ≤ 32
  omega

/-- A row as a request holds it. -/
def rowJson (id : String) (done : Bool) (successors : List String) : Json :=
  .object [("todo_id", .string id), ("done", .bool done),
    ("successor_todo_ids", .array (successors.map Json.string))]

def topologyJson (items : List Json) : Json :=
  .object [("schema_version", .string TASK_GRAPH_TOPOLOGY_REQUEST),
    ("selected_todo_id", .string "a"), ("predecessor_limit", .number (.ofNat 5)),
    ("source_truncated", .bool false), ("items", .array items)]

/-- Four Todos, of whose ids two hold the delimiter. -/
def delimiterTopology : Json :=
  topologyJson [rowJson "a" false [], rowJson ("a" ++ nul ++ "b") true ["a"],
    rowJson ("b" ++ nul ++ "c") false ["a"], rowJson "c" false ["a" ++ nul ++ "b"]]

private def losesEdge (request : TopologyRequest) : Bool :=
  let result := taskGraphTopology asciiEvaluation.toResumeHost request
  (relationEdges asciiEvaluation.toResumeHost request.rows).any fun edge =>
    edge.fromTodoId = request.selected && edge.fromTodoId ∈ request.emitted result &&
      edge.toTodoId ∈ request.emitted result && edge ∉ result.edges

/-- An edge between emitted Todos is lost to another with its key. -/
theorem projectTaskGraphTopology_loses_edge :
    ∃ request result, readTopologyRequest delimiterTopology = .ok request ∧
      projectTaskGraphTopology asciiEvaluation.toResumeHost delimiterTopology = .ok result ∧
      ¬request.ExactClosure asciiEvaluation.toResumeHost result := by
  have lost : (readTopologyRequest delimiterTopology).toOption.any losesEdge = true := by
    decide +kernel
  cases read : readTopologyRequest delimiterTopology with
  | error message =>
    rw [read] at lost
    cases lost
  | ok request =>
    rw [read] at lost
    refine ⟨request, taskGraphTopology asciiEvaluation.toResumeHost request, rfl, ?_, ?_⟩
    · rw [projectTaskGraphTopology, read]
      rfl
    · intro exact_
      obtain ⟨edge, listed, holds⟩ := List.any_eq_true.mp lost
      simp only [Bool.and_eq_true, decide_eq_true_eq] at holds
      obtain ⟨⟨⟨start, starts⟩, ends⟩, absent⟩ := holds
      exact absent ((exact_.edges edge).mpr ⟨listed, .inl start, starts, ends⟩)

/-- A diamond behind the selected Todo is projected exactly. -/
theorem projectTaskGraphTopology_exact_diamond :
    ∃ request result, readTopologyRequest (topologyJson [rowJson "a" false [],
        rowJson "b" true ["a"], rowJson "c" true ["a"], rowJson "d" false ["b", "c"]]) =
          .ok request ∧
      request.ExactClosure asciiEvaluation.toResumeHost result := by
  have apart : (readTopologyRequest (topologyJson [rowJson "a" false [], rowJson "b" true ["a"],
      rowJson "c" true ["a"], rowJson "d" false ["b", "c"]])).toOption.any (fun request =>
        decide (request.KeysApart asciiEvaluation.toResumeHost)) = true := by
    decide +kernel
  cases read : readTopologyRequest (topologyJson [rowJson "a" false [], rowJson "b" true ["a"],
      rowJson "c" true ["a"], rowJson "d" false ["b", "c"]]) with
  | error message =>
    rw [read] at apart
    cases apart
  | ok request =>
    rw [read] at apart
    have projected : projectTaskGraphTopology asciiEvaluation.toResumeHost
        (topologyJson [rowJson "a" false [], rowJson "b" true ["a"], rowJson "c" true ["a"],
          rowJson "d" false ["b", "c"]]) =
        .ok (taskGraphTopology asciiEvaluation.toResumeHost request) := by
      rw [projectTaskGraphTopology, read]
      rfl
    obtain ⟨request', read', _, exact_⟩ := projectTaskGraphTopology_exact _ _ _ projected
    obtain rfl := Except.ok.inj (read.symm.trans read')
    exact ⟨request, _, rfl, exact_.mpr (of_decide_eq_true apart)⟩

end Loopx.WorkItems
