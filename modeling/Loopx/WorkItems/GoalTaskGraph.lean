/- GID: Loopx/WorkItems/GoalTaskGraph
   generality: I
   source: loopx/control_plane/work_items/task_graph.ts
   digest: The layered map of a whole Goal, and when it does not depend on the order of the rows. -/

import Loopx.Lib.Layering
import Loopx.WorkItems.RelationOrder
import Loopx.WorkItems.TaskGraph

set_option autoImplicit false
set_option relaxedAutoImplicit false

namespace Loopx.WorkItems

open Loopx.Lib.BreadthFirst (Walk)
open Loopx.Lib.Fallible (bind_eq_ok throwWhen throwWhen_eq_ok)
open Loopx.Lib.KeyedList
open Loopx.Lib.Layering
open Loopx.Todos (Plan ResumeHost asciiEvaluation requireBoolean requireInteger requireJsonObject)

def TASK_GRAPH_GOAL_TOPOLOGY_REQUEST : String := "task_graph_goal_topology_request_v0"

def TASK_GRAPH_GOAL_TOPOLOGY_RESULT : String := "task_graph_goal_topology_result_v0"

def GOAL_NODE_LIMIT_MAX : Int := 200

structure GoalTopologyRequest extends GraphRows where
  limit : Nat
  sourceTruncated : Bool

def readGoalTopologyRequest (value : Json) : Plan GoalTopologyRequest := do
  let request ← requireJsonObject (some value) "goal task graph topology request"
  throwWhen (request.lookup "schema_version" ≠ some (.string TASK_GRAPH_GOAL_TOPOLOGY_REQUEST))
    "Goal task graph topology request schema mismatch"
  let limit ← requireInteger (request.lookup "node_limit") "node_limit"
  throwWhen (limit < 1 ∨ GOAL_NODE_LIMIT_MAX < limit)
    ("node_limit must be in 1.." ++ toString GOAL_NODE_LIMIT_MAX)
  let sourceTruncated ← requireBoolean (request.lookup "source_truncated") "source_truncated"
  let rows ← decodeRows request
  .ok ⟨rows, limit.toNat, sourceTruncated⟩

/-! ## The admitted Todos -/

/-- Admission up to the limit. -/
def admitId (limit : Nat) (admitted : List String) (id : String) : List String :=
  if admitted.length < limit then insertId admitted id else admitted

/-- The links so far and the keys of the dependencies that would close a cycle. -/
structure Linking where
  ordering : List (String × String)
  cycleEdges : List String

def ends (edge : GraphEdge) : String × String := (edge.fromTodoId, edge.toTodoId)

def linkDependency (state : Linking) (edge : GraphEdge) : Linking :=
  if reaches state.ordering edge.toTodoId edge.fromTodoId then
    { state with cycleEdges := insertId state.cycleEdges (edgeKey edge) }
  else { state with ordering := state.ordering ++ [ends edge] }

/-- Lineage carries no ordering obligation: it is linked where it agrees with the dependencies. -/
def linkLineage (state : Linking) (edge : GraphEdge) : Linking :=
  if reaches state.ordering edge.toTodoId edge.fromTodoId then state
  else { state with ordering := state.ordering ++ [ends edge] }

def linkEdges (emitted : List GraphEdge) : Linking :=
  let dependencies := emitted.filter fun edge => edge.relation = .dependsOn
  let lineage := emitted.filter fun edge => edge.relation ≠ .dependsOn
  lineage.foldl linkLineage (dependencies.foldl linkDependency ⟨[], []⟩)

namespace GoalTopologyRequest

variable (request : GoalTopologyRequest) (host : ResumeHost)

def ids : List String := request.rows.map GraphRow.todoId

def isDone (id : String) : Bool :=
  (request.rows.find? fun item => item.todoId = id).any GraphRow.done

def unfinished : List String :=
  ((request.rows.filter fun item => !item.done).map GraphRow.todoId).foldl
    (admitId request.limit) []

/-- The finished Todos that an edge of unfinished work leads to. -/
def prerequisites : List String :=
  ((relationEdges host request.rows).filter fun edge =>
    edge.fromTodoId ∈ request.unfinished && request.isDone edge.toTodoId).map GraphEdge.toTodoId

/-- Unfinished work first, then its finished prerequisites, then the rest. -/
def admitted : List String :=
  request.ids.foldl (admitId request.limit)
    ((request.prerequisites host).foldl (admitId request.limit) request.unfinished)

def missing : List String :=
  (((relationEdges host request.rows).flatMap fun edge => [edge.fromTodoId, edge.toTodoId]).filter
    fun id => id ∉ request.ids).foldl insertId []

def emitted : List GraphEdge :=
  (relationEdges host request.rows).filter fun edge =>
    edge.fromTodoId ∈ request.admitted host && edge.toTodoId ∈ request.admitted host

def order : List String := request.ids.filter fun id => id ∈ request.admitted host

def linking : Linking := linkEdges (request.emitted host)

end GoalTopologyRequest

/-! ## The map -/

structure GoalNode where
  todoId : String
  depth : Nat
deriving DecidableEq, Repr

structure GoalTopology where
  schemaVersion : String
  nodes : List GoalNode
  edges : List GraphEdge
  nodeLimit : Nat
  emittedNodeCount : Nat
  omittedNodeCount : Nat
  sourceTruncated : Bool
  missingEndpointCount : Nat
  cycleEdgeCount : Nat
  topologyComplete : Bool

/-- The nodes with their depths; none where the visits nest deeper than there are rows. -/
def depthNodes (request : GoalTopologyRequest) (host : ResumeHost) : Option (List GoalNode) := do
  let depth ← visitAll (request.linking host).ordering (request.rows.length + 1) []
    (request.order host)
  (request.order host).mapM fun id => (depth.lookup id).map (GoalNode.mk id)

def goalTaskGraphTopology (host : ResumeHost) (request : GoalTopologyRequest) :
    Option GoalTopology := do
  let nodes ← depthNodes request host
  let order := request.order host
  let cycleEdges := (request.linking host).cycleEdges
  let missing := request.missing host
  let omitted := request.rows.length - order.length
  some
    { schemaVersion := TASK_GRAPH_GOAL_TOPOLOGY_RESULT
      nodes := nodes
      edges := request.emitted host
      nodeLimit := request.limit
      emittedNodeCount := order.length
      omittedNodeCount := omitted
      sourceTruncated := request.sourceTruncated
      missingEndpointCount := missing.length
      cycleEdgeCount := cycleEdges.length
      topologyComplete := !request.sourceTruncated && omitted = 0 && missing.length = 0 &&
        cycleEdges.length = 0 }

def projectGoalTaskGraphTopology (host : ResumeHost) (value : Json) :
    Plan (Option GoalTopology) := do
  let request ← readGoalTopologyRequest value
  .ok (goalTaskGraphTopology host request)

/-! ## Links -/

/-- The links lead from the target of the edge back to its source. -/
def LeadsBack (links : List (String × String)) (edge : GraphEdge) : Prop :=
  ∃ n, Walk (successors links) edge.toTodoId n edge.fromTodoId

/-- What the links hold of the edges seen so far. -/
structure Linked (seen : List GraphEdge) (state : Linking) : Prop where
  acyclic : Acyclic state.ordering
  links : ∀ link ∈ state.ordering, ∃ edge ∈ seen, ends edge = link
  settled : ∀ edge ∈ seen, edge.relation = .dependsOn →
    ends edge ∈ state.ordering ∨ edgeKey edge ∈ state.cycleEdges
  counted : ∀ key ∈ state.cycleEdges, ∃ edge ∈ seen, edge.relation = .dependsOn ∧
    edgeKey edge = key ∧ LeadsBack state.ordering edge

private theorem LeadsBack.mono {links links' : List (String × String)} {edge : GraphEdge}
    (sub : links ⊆ links') (back : LeadsBack links edge) : LeadsBack links' edge := by
  obtain ⟨n, walk⟩ := back
  exact ⟨n, Walk.mono sub walk⟩

private theorem linked_nil : Linked [] ⟨[], []⟩ where
  acyclic n a walk := by
    obtain ⟨_, link, _⟩ := walk_uncons walk
    cases link
  links link mem := by cases mem
  settled edge mem := by cases mem
  counted key mem := by cases mem

private theorem mem_insertId' {ids : List String} {id id' : String} :
    id' ∈ insertId ids id ↔ id' ∈ ids ∨ id' = id := by
  unfold insertId
  split
  · next old =>
    refine ⟨.inl, fun mem => mem.elim (fun mem => mem) ?_⟩
    rintro rfl
    exact old
  · rw [List.mem_append, List.mem_singleton]

section
variable {seen : List GraphEdge} {state : Linking}

/-- An edge that does not lead back is linked. -/
private theorem Linked.link (h : Linked seen state) {edge : GraphEdge}
    (apart : ¬reaches state.ordering edge.toTodoId edge.fromTodoId = true) :
    Linked (seen ++ [edge]) { state with ordering := state.ordering ++ [ends edge] } := by
  have grows : state.ordering ⊆ state.ordering ++ [ends edge] := List.subset_append_left _ _
  refine ⟨h.acyclic.concat fun n walk => apart (reaches_iff.mpr ⟨n, walk⟩), ?_, ?_, ?_⟩
  · intro link mem
    rcases List.mem_append.mp mem with old | new
    · obtain ⟨e, mem, same⟩ := h.links link old
      exact ⟨e, List.mem_append_left _ mem, same⟩
    · exact ⟨edge, List.mem_append_right _ List.mem_cons_self, (List.mem_singleton.mp new).symm⟩
  · intro e mem isDependency
    rcases List.mem_append.mp mem with old | new
    · exact (h.settled e old isDependency).imp_left fun linked => grows linked
    · rw [List.mem_singleton.mp new]
      exact .inl (List.mem_append_right _ List.mem_cons_self)
  · intro key mem
    obtain ⟨e, mem, isDependency, same, back⟩ := h.counted key mem
    exact ⟨e, List.mem_append_left _ mem, isDependency, same, back.mono grows⟩

private theorem Linked.skip (h : Linked seen state) {edge : GraphEdge}
    (lineage : edge.relation ≠ .dependsOn) : Linked (seen ++ [edge]) state := by
  refine ⟨h.acyclic, fun link mem => ?_, fun e mem isDependency => ?_, fun key mem => ?_⟩
  · obtain ⟨e, mem, same⟩ := h.links link mem
    exact ⟨e, List.mem_append_left _ mem, same⟩
  · rcases List.mem_append.mp mem with old | new
    · exact h.settled e old isDependency
    · rw [List.mem_singleton.mp new] at isDependency
      exact absurd isDependency lineage
  · obtain ⟨e, mem, whole⟩ := h.counted key mem
    exact ⟨e, List.mem_append_left _ mem, whole⟩

theorem Linked.linkDependency (h : Linked seen state) {edge : GraphEdge}
    (isDependency : edge.relation = .dependsOn) :
    Linked (seen ++ [edge]) (linkDependency state edge) := by
  unfold WorkItems.linkDependency
  split
  · next back =>
    refine ⟨h.acyclic, fun link mem => ?_, fun e mem kind => ?_, fun key mem => ?_⟩
    · obtain ⟨e, mem, same⟩ := h.links link mem
      exact ⟨e, List.mem_append_left _ mem, same⟩
    · rcases List.mem_append.mp mem with old | new
      · exact (h.settled e old kind).imp_right fun mem => mem_insertId'.2 (.inl mem)
      · rw [List.mem_singleton.mp new]
        exact .inr (mem_insertId'.2 (.inr rfl))
    · rcases mem_insertId'.1 mem with old | rfl
      · obtain ⟨e, mem, whole⟩ := h.counted key old
        exact ⟨e, List.mem_append_left _ mem, whole⟩
      · exact ⟨edge, List.mem_append_right _ List.mem_cons_self, isDependency, rfl,
          reaches_iff.mp back⟩
  · next apart => exact h.link apart

theorem Linked.linkLineage (h : Linked seen state) {edge : GraphEdge}
    (lineage : edge.relation ≠ .dependsOn) :
    Linked (seen ++ [edge]) (linkLineage state edge) := by
  unfold WorkItems.linkLineage
  split
  · exact h.skip lineage
  · next apart => exact h.link apart

end

private theorem linked_foldl {step : Linking → GraphEdge → Linking} {edges : List GraphEdge}
    (seen : List GraphEdge) {state : Linking} (each : ∀ edge ∈ edges, ∀ seen state, Linked seen state →
      Linked (seen ++ [edge]) (step state edge)) (h : Linked seen state) :
    Linked (seen ++ edges) (edges.foldl step state) := by
  induction edges generalizing seen state with
  | nil => rwa [List.append_nil]
  | cons edge edges ih =>
    have next := ih _ (fun e mem => each e (List.mem_cons_of_mem _ mem))
      (each edge List.mem_cons_self seen state h)
    rwa [List.append_assoc, List.singleton_append] at next

private theorem cycleEdges_lineage (edges : List GraphEdge) (state : Linking) :
    (edges.foldl linkLineage state).cycleEdges = state.cycleEdges := by
  induction edges generalizing state with
  | nil => rfl
  | cons edge edges ih =>
    rw [List.foldl_cons, ih, linkLineage]
    split <;> rfl

/-- The links of the dependencies among the edges. -/
def dependencies (edges : List GraphEdge) : List (String × String) :=
  (edges.filter fun edge => edge.relation = .dependsOn).map ends

private theorem linked_dependencies (edges : List GraphEdge) :
    Linked (edges.filter fun edge => edge.relation = .dependsOn)
      ((edges.filter fun edge => edge.relation = .dependsOn).foldl linkDependency ⟨[], []⟩) :=
  linked_foldl [] (fun _ mem _ _ h =>
    h.linkDependency (of_decide_eq_true (List.mem_filter.mp mem).2)) linked_nil

theorem linked_linkEdges (edges : List GraphEdge) : Linked edges (linkEdges edges) := by
  have whole : Linked ((edges.filter fun edge => edge.relation = .dependsOn) ++
      edges.filter fun edge => edge.relation ≠ .dependsOn) (linkEdges edges) :=
    linked_foldl _ (fun _ mem _ _ h =>
      h.linkLineage (of_decide_eq_true (List.mem_filter.mp mem).2)) (linked_dependencies edges)
  have same : ∀ edge, edge ∈ (edges.filter fun edge => edge.relation = .dependsOn) ++
      (edges.filter fun edge => edge.relation ≠ .dependsOn) ↔ edge ∈ edges := by
    intro edge
    simp only [List.mem_append, List.mem_filter, decide_eq_true_eq, ← and_or_left]
    exact and_iff_left (em _)
  exact ⟨whole.acyclic, fun link mem => by simpa only [same] using whole.links link mem,
    fun edge mem => whole.settled edge ((same edge).mpr mem),
    fun key mem => by simpa only [same] using whole.counted key mem⟩

/-- No dependency is counted exactly where the dependencies are acyclic. -/
theorem cycleEdges_eq_nil_iff (edges : List GraphEdge) :
    (linkEdges edges).cycleEdges = [] ↔ Acyclic (dependencies edges) := by
  constructor
  · intro none_
    have h := linked_linkEdges edges
    refine h.acyclic.mono fun link mem => ?_
    obtain ⟨edge, listed, rfl⟩ := List.mem_map.mp mem
    obtain ⟨listed, isDependency⟩ := List.mem_filter.mp listed
    refine (h.settled edge listed (of_decide_eq_true isDependency)).resolve_right ?_
    rw [none_]
    exact List.not_mem_nil
  · intro acyclic
    have h := linked_dependencies edges
    have kept : (linkEdges edges).cycleEdges = _ := cycleEdges_lineage _ _
    rw [kept]
    refine List.eq_nil_iff_forall_not_mem.mpr fun key mem => ?_
    obtain ⟨edge, mem, _, _, n, walk⟩ := h.counted key mem
    have sub : Linking.ordering _ ⊆ dependencies edges := fun link mem => by
      obtain ⟨edge, listed, rfl⟩ := h.links link mem
      exact List.mem_map_of_mem listed
    exact acyclic n _ (.step (Walk.mono sub walk)
      (mem_successors.mpr (List.mem_map_of_mem mem)))

/-! ## Admission -/

section
variable {limit : Nat} {ids admitted : List String}

/-- What a round of admissions does: it takes its ids in turn until the limit. -/
structure Admission (limit : Nat) (ids admitted result : List String) : Prop where
  keeps : admitted ⊆ result
  from_ : ∀ id ∈ result, id ∈ admitted ∨ id ∈ ids
  all : ∀ id ∈ ids, id ∈ result ∨ limit ≤ result.length
  full : limit ≤ admitted.length → result = admitted
  nodup : admitted.Nodup → result.Nodup

theorem admission_foldl (limit : Nat) (ids admitted : List String) :
    Admission limit ids admitted (ids.foldl (admitId limit) admitted) := by
  induction ids generalizing admitted with
  | nil => exact ⟨fun _ mem => mem, fun _ => .inl, fun _ mem => absurd mem List.not_mem_nil,
      fun _ => rfl, fun nodup => nodup⟩
  | cons id ids ih =>
    rw [List.foldl_cons]
    unfold admitId at ih ⊢
    by_cases room : admitted.length < limit
    · rw [if_pos room]
      obtain ⟨keeps, from_, all, full, nodup⟩ := ih (insertId admitted id)
      refine ⟨fun a mem => keeps (mem_insertId'.2 (.inl mem)), fun a mem => ?_, fun a mem => ?_,
        fun full => absurd room (Nat.not_lt.mpr full), fun distinct => nodup ?_⟩
      · rcases from_ a mem with old | later
        · rcases mem_insertId'.1 old with old | rfl
          · exact .inl old
          · exact .inr List.mem_cons_self
        · exact .inr (List.mem_cons_of_mem _ later)
      · rcases List.mem_cons.mp mem with rfl | mem
        · exact .inl (keeps (mem_insertId'.2 (.inr rfl)))
        · exact all a mem
      · unfold insertId
        split
        · exact distinct
        · next fresh =>
          refine List.nodup_append.mpr ⟨distinct, List.nodup_singleton _, fun a mem b mem' => ?_⟩
          rw [List.mem_singleton.mp mem']
          rintro rfl
          exact fresh mem
    · rw [if_neg room]
      obtain ⟨keeps, from_, all, full, nodup⟩ := ih admitted
      refine ⟨keeps, fun a mem => (from_ a mem).imp_right (List.mem_cons_of_mem _),
        fun a _ => .inr ?_, full, nodup⟩
      rw [full (Nat.le_of_not_lt room)]
      exact Nat.le_of_not_lt room

end

namespace GoalTopologyRequest

variable {request : GoalTopologyRequest} {host : ResumeHost}

theorem isDone_iff {item : GraphRow} (listed : item ∈ request.rows) :
    request.isDone item.todoId = item.done := by
  unfold isDone
  cases found : request.rows.find? fun other => other.todoId = item.todoId with
  | none => exact absurd (List.find?_eq_none.mp found item listed) (by simp)
  | some other =>
    have same : other.todoId = item.todoId := by simpa using List.find?_some found
    rw [List.inj_on_of_nodup_map request.distinct (List.mem_of_find?_eq_some found) listed same]
    rfl

private theorem mem_ids_of_prerequisite {id : String} (mem : id ∈ request.prerequisites host) :
    id ∈ request.ids := by
  obtain ⟨edge, shown, rfl⟩ := List.mem_map.mp mem
  have done := (Bool.and_eq_true_iff.mp (List.mem_filter.mp shown).2).2
  unfold isDone at done
  cases found : request.rows.find? fun item => item.todoId = edge.toTodoId with
  | none =>
    rw [found] at done
    cases done
  | some item =>
    have same : item.todoId = edge.toTodoId := by simpa using List.find?_some found
    exact List.mem_map.mpr ⟨item, List.mem_of_find?_eq_some found, same⟩

private theorem admitted_subset : request.admitted host ⊆ request.ids := by
  intro id mem
  rcases (admission_foldl _ _ _).from_ id mem with mem | mem
  · rcases (admission_foldl _ _ _).from_ id mem with mem | mem
    · rcases (admission_foldl _ _ _).from_ id mem with mem | mem
      · cases mem
      · obtain ⟨item, listed, rfl⟩ := List.mem_map.mp mem
        exact List.mem_map_of_mem (List.mem_filter.mp listed).1
    · exact mem_ids_of_prerequisite mem
  · exact mem

private theorem nodup_admitted : (request.admitted host).Nodup :=
  (admission_foldl _ _ _).nodup ((admission_foldl _ _ _).nodup
    ((admission_foldl _ _ _).nodup List.nodup_nil))

/-- A finished row is admitted only where every unfinished one is. -/
theorem unfinished_admitted {item finished : GraphRow} (listed : item ∈ request.rows)
    (open_ : item.done = false) (listed' : finished ∈ request.rows) (done : finished.done = true)
    (mem : finished.todoId ∈ request.admitted host) : item.todoId ∈ request.admitted host := by
  have first := admission_foldl request.limit
    ((request.rows.filter fun item => !item.done).map GraphRow.todoId) []
  have second := admission_foldl request.limit (request.prerequisites host) request.unfinished
  have third := admission_foldl request.limit request.ids
    ((request.prerequisites host).foldl (admitId request.limit) request.unfinished)
  have offered : item.todoId ∈ (request.rows.filter fun item => !item.done).map GraphRow.todoId :=
    List.mem_map_of_mem (List.mem_filter.mpr ⟨listed, by rw [open_]; rfl⟩)
  rcases first.all _ offered with there | full
  · exact third.keeps (second.keeps there)
  · -- the unfinished work alone reaches the limit
    have stopped : request.admitted host = request.unfinished := by
      have kept := second.full full
      rw [kept] at third
      show request.ids.foldl _ (List.foldl _ _ _) = _
      rw [kept]
      exact third.full full
    rw [stopped] at mem
    rcases first.from_ _ mem with mem | mem
    · cases mem
    · obtain ⟨other, shown, same⟩ := List.mem_map.mp mem
      obtain ⟨shown, notDone⟩ := List.mem_filter.mp shown
      rw [List.inj_on_of_nodup_map request.distinct shown listed' same, done] at notDone
      cases notDone

/-- Below the limit every row is admitted. -/
theorem mem_admitted_of_le (room : request.rows.length ≤ request.limit) {id : String} :
    id ∈ request.admitted host ↔ id ∈ request.ids := by
  refine ⟨fun mem => admitted_subset mem, fun mem => ?_⟩
  rcases (admission_foldl _ _ _).all id mem with there | full
  · exact there
  · have within : (request.admitted host).Subperm request.ids :=
      List.subperm_of_subset nodup_admitted admitted_subset
    have size : request.ids.length ≤ (request.admitted host).length := by
      rw [ids, List.length_map]
      exact Nat.le_trans room full
    exact (within.perm_of_length_le size).mem_iff.mpr mem

theorem mem_order {id : String} : id ∈ request.order host ↔ id ∈ request.admitted host := by
  rw [order, List.mem_filter, decide_eq_true_iff, and_iff_right_iff_imp]
  exact fun mem => admitted_subset mem

theorem emitted_of_le (room : request.rows.length ≤ request.limit) :
    request.emitted host = visibleEdges host request.rows := by
  refine List.filter_congr fun edge _ => ?_
  rw [Bool.eq_iff_iff, Bool.and_eq_true, decide_eq_true_iff, decide_eq_true_iff,
    decide_eq_true_iff, mem_admitted_of_le room, mem_admitted_of_le room]
  rfl

theorem mem_emitted {edge : GraphEdge} : edge ∈ request.emitted host ↔
    edge ∈ relationEdges host request.rows ∧ edge.fromTodoId ∈ request.admitted host ∧
      edge.toTodoId ∈ request.admitted host := by
  rw [emitted, List.mem_filter, Bool.and_eq_true, decide_eq_true_iff, decide_eq_true_iff]

/-- The links of the map, of which the depths are the longest paths. -/
abbrev links (request : GoalTopologyRequest) (host : ResumeHost) : List (String × String) :=
  (request.linking host).ordering

abbrev cycleKeys (request : GoalTopologyRequest) (host : ResumeHost) : List String :=
  (request.linking host).cycleEdges

private theorem walk_lt {a b : String} {n : Nat}
    (walk : Walk (successors (request.links host)) a n b) : n < request.rows.length + 1 := by
  have h := linked_linkEdges (request.emitted host)
  have within : ∀ link ∈ request.links host, link.2 ∈ request.ids := by
    intro link mem
    obtain ⟨edge, shown, rfl⟩ := h.links link mem
    exact admitted_subset (mem_emitted.1 shown).2.2
  have bound := h.acyclic.length_le within walk
  rw [ids, List.length_map] at bound
  omega

private theorem mapM_lookup (depth : List (String × Nat)) (order : List String)
    (known : ∀ id ∈ order, ∃ n, depth.lookup id = some n) :
    ∃ nodes, order.mapM (fun id => (depth.lookup id).map (GoalNode.mk id)) = some nodes ∧
      nodes.map GoalNode.todoId = order ∧
      ∀ node ∈ nodes, depth.lookup node.todoId = some node.depth := by
  induction order with
  | nil => exact ⟨[], rfl, rfl, fun _ mem => absurd mem List.not_mem_nil⟩
  | cons id order ih =>
    obtain ⟨n, found⟩ := known id List.mem_cons_self
    obtain ⟨nodes, whole, named, each⟩ := ih fun id mem => known id (List.mem_cons_of_mem _ mem)
    refine ⟨⟨id, n⟩ :: nodes, ?_, by rw [List.map_cons, named], fun node mem => ?_⟩
    · rw [List.mapM_cons, found, whole]
      rfl
    · rcases List.mem_cons.mp mem with rfl | mem
      · exact found
      · exact each node mem

/-- Every visit returns, and each node has the length of the longest path below it. -/
theorem depthNodes_spec (request : GoalTopologyRequest) (host : ResumeHost) :
    ∃ nodes, depthNodes request host = some nodes ∧
      nodes.map GoalNode.todoId = request.order host ∧
      ∀ node ∈ nodes, IsDepth (request.links host) node.todoId node.depth := by
  obtain ⟨depth, visited, recorded, _, known⟩ := visitAll_spec (request.links host)
    (request.rows.length + 1) (request.order host) [] (fun _ _ _ _ walk => walk_lt walk)
    fun a known found => by cases found
  obtain ⟨nodes, whole, named, each⟩ := mapM_lookup depth (request.order host) known
  refine ⟨nodes, ?_, named, fun node mem => recorded _ _ (each node mem)⟩
  rw [depthNodes, visited]
  exact whole

/-- The dependencies that the rows record among some Todos. -/
def dependenciesAmong (request : GoalTopologyRequest) (host : ResumeHost) (ids : List String) :
    List (String × String) :=
  dependencies ((relationEdges host request.rows).filter fun edge =>
    edge.fromTodoId ∈ ids && edge.toTodoId ∈ ids)

/-- A result that layers the Goal. -/
structure Layered (request : GoalTopologyRequest) (host : ResumeHost)
    (result : GoalTopology) : Prop where
  acyclic : Acyclic (request.links host)
  linked : ∀ link ∈ request.links host, ∃ edge ∈ result.edges, ends edge = link
  counted : ∀ key, key ∈ request.cycleKeys host ↔ ∃ edge ∈ result.edges,
    edge.relation = .dependsOn ∧ edgeKey edge = key ∧ ends edge ∉ request.links host
  covered : ∀ edge ∈ result.edges, edge.fromTodoId ∈ result.nodes.map GoalNode.todoId ∧
    edge.toTodoId ∈ result.nodes.map GoalNode.todoId
  distinct : (result.nodes.map GoalNode.todoId).Nodup
  depth : ∀ node ∈ result.nodes, IsDepth (request.links host) node.todoId node.depth
  decreases : ∀ edge ∈ result.edges, edge.relation = .dependsOn →
    edgeKey edge ∉ request.cycleKeys host ∨ ends edge ∈ request.links host →
    ∀ node ∈ result.nodes, ∀ node' ∈ result.nodes, node.todoId = edge.fromTodoId →
      node'.todoId = edge.toTodoId → node'.depth < node.depth
  count : result.cycleEdgeCount = (request.cycleKeys host).length
  cycleFree : result.cycleEdgeCount = 0 ↔
    Acyclic (request.dependenciesAmong host (result.nodes.map GoalNode.todoId))
  finishedLast : ∀ node ∈ result.nodes, request.isDone node.todoId = true →
    ∀ item ∈ request.rows, item.done = false →
      item.todoId ∈ result.nodes.map GoalNode.todoId
  orderFree : request.rows.length ≤ request.limit → ∀ request' : GoalTopologyRequest,
    request'.rows.Perm request.rows → request'.limit = request.limit → ∀ result',
      goalTaskGraphTopology host request' = some result' →
      result'.edges = result.edges ∧ result'.nodes.Perm result.nodes ∧
        result'.cycleEdgeCount = result.cycleEdgeCount

/-- The limit cuts rows off, or the keys of relations and edges are apart. -/
def OrderApart (request : GoalTopologyRequest) (host : ResumeHost) : Prop :=
  request.limit < request.rows.length ∨ RelationsApart host request.rows

end GoalTopologyRequest

open GoalTopologyRequest

/-- What a result says. -/
private theorem goalTaskGraphTopology_spec (host : ResumeHost) (request : GoalTopologyRequest) :
    ∃ result, goalTaskGraphTopology host request = some result ∧
      result.edges = request.emitted host ∧
      result.cycleEdgeCount = (request.cycleKeys host).length ∧
      result.nodes.map GoalNode.todoId = request.order host ∧
      ∀ node ∈ result.nodes, IsDepth (request.links host) node.todoId node.depth := by
  obtain ⟨nodes, whole, named, each⟩ := depthNodes_spec request host
  refine ⟨_, by rw [goalTaskGraphTopology, whole]; rfl, rfl, rfl, named, each⟩

section
variable {host : ResumeHost} {request request' : GoalTopologyRequest}

private theorem nodup_order : (request.order host).Nodup := request.distinct.filter _

/-- Equal links give nodes of the same depth. -/
private theorem nodes_perm {nodes nodes' : List GoalNode} {links : List (String × String)}
    (distinct : (nodes.map GoalNode.todoId).Nodup)
    (same : (nodes'.map GoalNode.todoId).Perm (nodes.map GoalNode.todoId))
    (depth : ∀ node ∈ nodes, IsDepth links node.todoId node.depth)
    (depth' : ∀ node ∈ nodes', IsDepth links node.todoId node.depth) : nodes'.Perm nodes := by
  have distinct' := same.nodup_iff.mpr distinct
  refine (List.perm_ext_iff_of_nodup (distinct'.of_map _) (distinct.of_map _)).mpr ?_
  have within : ∀ {left right : List GoalNode},
      (∀ id, id ∈ left.map GoalNode.todoId → id ∈ right.map GoalNode.todoId) →
      (∀ node ∈ left, IsDepth links node.todoId node.depth) →
      (∀ node ∈ right, IsDepth links node.todoId node.depth) → ∀ node ∈ left, node ∈ right := by
    intro left right sub depths depths' node mem
    obtain ⟨other, mem', named⟩ := List.mem_map.mp (sub _ (List.mem_map_of_mem mem))
    have deep := (depths node mem).unique (named ▸ depths' other mem')
    cases node
    cases other
    dsimp only at named deep
    rwa [← named, deep]
  exact fun node => ⟨within (fun id => same.mem_iff.mp) depth' depth node,
    within (fun id => same.mem_iff.mpr) depth depth' node⟩

private theorem orderFree_iff (room : request.rows.length ≤ request.limit)
    (result : GoalTopology) (projected : goalTaskGraphTopology host request = some result) :
    (∀ request' : GoalTopologyRequest, request'.rows.Perm request.rows →
      request'.limit = request.limit → ∀ result',
        goalTaskGraphTopology host request' = some result' →
        result'.edges = result.edges ∧ result'.nodes.Perm result.nodes ∧
          result'.cycleEdgeCount = result.cycleEdgeCount) ↔ RelationsApart host request.rows := by
  obtain ⟨_, isResult, edges, count, named, depth⟩ := goalTaskGraphTopology_spec host request
  obtain rfl := Option.some.inj (isResult.symm.trans projected)
  have roomy : ∀ request' : GoalTopologyRequest, request'.rows.Perm request.rows →
      request'.limit = request.limit → request'.rows.length ≤ request'.limit := by
    intro request' perm limit
    rwa [perm.length_eq, limit]
  rw [← orderFree_iff_relationsApart request.distinct]
  constructor
  · intro free rows' perm
    let request' : GoalTopologyRequest :=
      { rows := rows', distinct := (perm.map _).nodup_iff.mpr request.distinct,
        limit := request.limit, sourceTruncated := request.sourceTruncated }
    obtain ⟨result', projected', edges', _⟩ := goalTaskGraphTopology_spec host request'
    have same := (free request' perm rfl result' projected').1
    rwa [edges, edges', emitted_of_le room, emitted_of_le (roomy request' perm rfl)]
      at same
  · intro free request' perm limit result' projected'
    obtain ⟨_, isResult', edges', count', named', depth'⟩ :=
      goalTaskGraphTopology_spec host request'
    obtain rfl := Option.some.inj (isResult'.symm.trans projected')
    have emitted : request'.emitted host = request.emitted host := by
      rw [emitted_of_le room, emitted_of_le (roomy request' perm limit), free _ perm]
    have linking : request'.linking host = request.linking host :=
      congrArg linkEdges emitted
    refine ⟨by rw [edges, edges', emitted], ?_, by rw [count, count', cycleKeys, linking]⟩
    refine nodes_perm (named ▸ nodup_order) ?_ depth (by simpa only [links, linking] using depth')
    rw [named, named']
    have all : ∀ {request : GoalTopologyRequest}, request.rows.length ≤ request.limit →
        request.order host = request.ids := fun room =>
      List.filter_eq_self.mpr fun id mem => decide_eq_true ((mem_admitted_of_le room).mpr mem)
    rw [all room, all (roomy request' perm limit)]
    exact perm.map _

/-- Layering never fails; only the order of the rows can show through. -/
theorem layered_iff (result : GoalTopology)
    (projected : goalTaskGraphTopology host request = some result) :
    request.Layered host result ↔ request.OrderApart host := by
  obtain ⟨_, isResult, edges, count, named, depth⟩ := goalTaskGraphTopology_spec host request
  obtain rfl := Option.some.inj (isResult.symm.trans projected)
  have linked := linked_linkEdges (request.emitted host)
  have isNode : ∀ id, id ∈ request.admitted host ↔ id ∈ request.order host := fun id =>
    mem_order.symm
  have among : request.dependenciesAmong host (request.order host) =
      dependencies (request.emitted host) := by
    refine congrArg dependencies (List.filter_congr fun edge _ => ?_)
    simp only [isNode]
  have unlinked : ∀ edge ∈ request.emitted host, edge.relation = .dependsOn →
      edgeKey edge ∉ request.cycleKeys host → ends edge ∈ request.links host :=
    fun edge mem kind absent => (linked.settled edge mem kind).resolve_right absent
  constructor
  · intro layered
    by_cases cut : request.limit < request.rows.length
    · exact .inl cut
    · have room := Nat.le_of_not_lt cut
      exact .inr ((orderFree_iff room _ projected).mp (layered.orderFree room))
  · intro apart
    refine ⟨linked.acyclic, ?_, fun key => ?_, ?_, named ▸ nodup_order, depth, ?_, count, ?_, ?_,
      fun room => (orderFree_iff room _ projected).mpr (apart.resolve_left (Nat.not_lt.mpr room))⟩
    · rw [edges]
      exact linked.links
    · rw [edges]
      constructor
      · intro mem
        obtain ⟨edge, mem, kind, same, n, back⟩ := linked.counted key mem
        refine ⟨edge, mem, kind, same, fun link => linked.acyclic n edge.toTodoId ?_⟩
        exact .step back (mem_successors.mpr link)
      · rintro ⟨edge, mem, kind, rfl, absent⟩
        exact (linked.settled edge mem kind).resolve_left absent
    · rw [edges, named]
      intro edge mem
      obtain ⟨_, start, target⟩ := mem_emitted.1 mem
      exact ⟨mem_order.2 start, mem_order.2 target⟩
    · rw [edges]
      intro edge mem kind apart node here node' there start target
      have link : ends edge ∈ request.links host :=
        apart.elim (unlinked edge mem kind) fun link => link
      refine (depth node here).lt ?_ (depth node' there)
      rw [start, target]
      exact link
    · rw [count, List.length_eq_zero_iff, named, among]
      exact cycleEdges_eq_nil_iff _
    · rw [named]
      intro node mem done item listed open_
      have isOrdered : node.todoId ∈ request.order host := named ▸ List.mem_map_of_mem mem
      obtain ⟨finished, listed', same⟩ := List.mem_map.mp (List.mem_filter.mp isOrdered).1
      rw [← same] at done isOrdered
      rw [isDone_iff listed'] at done
      exact mem_order.2 (unfinished_admitted listed open_ listed' done (mem_order.1 isOrdered))

end

/-- Every Goal is layered, and the layering is the same for every order of its rows exactly where
keys are apart. -/
theorem goalTaskGraphTopology_layers (host : ResumeHost) (request : GoalTopologyRequest) :
    ∃ result, goalTaskGraphTopology host request = some result ∧
      (∀ value, readGoalTopologyRequest value = .ok request →
        projectGoalTaskGraphTopology host value = .ok (some result)) ∧
      (request.Layered host result ↔ request.OrderApart host) := by
  obtain ⟨result, projected, _⟩ := goalTaskGraphTopology_spec host request
  refine ⟨result, projected, fun value read => ?_, layered_iff result projected⟩
  rw [projectGoalTaskGraphTopology, read, ← projected]
  rfl

def goalTopologyJson (items : List Json) : Json :=
  .object [("schema_version", .string TASK_GRAPH_GOAL_TOPOLOGY_REQUEST),
    ("node_limit", .number (.ofNat 5)), ("source_truncated", .bool false),
    ("items", .array items)]

/-- Two relations with one key: the second row names a successor, the first row does not. -/
def delimiterGoal : Json :=
  goalTopologyJson [rowJson "a" false ["b" ++ nul ++ "successor" ++ nul ++ "c"],
    rowJson ("a" ++ nul ++ "successor" ++ nul ++ "b") false ["c"], rowJson "c" false []]

private def dependsOnOrder (request : GoalTopologyRequest) : Bool :=
  request.rows.length ≤ request.limit &&
    !decide (RelationsApart asciiEvaluation.toResumeHost request.rows)

/-- The map of a Goal changes with the order of its rows. -/
theorem goalTaskGraphTopology_depends_on_order :
    ∃ request result, readGoalTopologyRequest delimiterGoal = .ok request ∧
      projectGoalTaskGraphTopology asciiEvaluation.toResumeHost delimiterGoal =
        .ok (some result) ∧
      ¬request.Layered asciiEvaluation.toResumeHost result := by
  have ordered : (readGoalTopologyRequest delimiterGoal).toOption.any dependsOnOrder = true := by
    decide
  cases read : readGoalTopologyRequest delimiterGoal with
  | error message =>
    rw [read] at ordered
    cases ordered
  | ok request =>
    rw [read] at ordered
    obtain ⟨result, projected, _⟩ :=
      goalTaskGraphTopology_spec asciiEvaluation.toResumeHost request
    refine ⟨request, result, rfl, ?_, fun layered => ?_⟩
    · rw [projectGoalTaskGraphTopology, read, ← projected]
      rfl
    · obtain ⟨room, shared⟩ := Bool.and_eq_true_iff.mp ordered
      rcases (layered_iff result projected).mp layered with cut | apart
      · exact absurd (of_decide_eq_true room) (Nat.not_le.mpr cut)
      · rw [decide_eq_true apart] at shared
        cases shared

end Loopx.WorkItems
