/- GID: Loopx/WorkItems/RelationOrder
   generality: I
   source: loopx/control_plane/work_items/planning_relations.ts
   digest: When the edges between Todos do not depend on the order of their rows. -/

import Loopx.WorkItems.PlanningRelations

set_option autoImplicit false
set_option relaxedAutoImplicit false

namespace Loopx.WorkItems

open Loopx.Lib.Delimited
open Loopx.Lib.Utf16 (unitKey unitKey_injective)
open Loopx.Todos (ResumeHost)

/-- Every relation that the rows record, repetitions included. -/
def recordedRelations (rows : List GraphRow) : List PlanningInventoryRelation :=
  rows.flatMap candidateRelations

/-- Both ends of the edge have a row. -/
def Between (rows : List GraphRow) (edge : GraphEdge) : Prop :=
  edge.fromTodoId ∈ rows.map GraphRow.todoId ∧ edge.toTodoId ∈ rows.map GraphRow.todoId

instance (rows : List GraphRow) : DecidablePred (Between rows) := fun edge =>
  inferInstanceAs (Decidable (edge.fromTodoId ∈ _ ∧ edge.toTodoId ∈ _))

/-- The edges between rows, in the order of their keys. -/
def visibleEdges (host : ResumeHost) (rows : List GraphRow) : List GraphEdge :=
  (relationEdges host rows).filter fun edge => Between rows edge

/-- A relation that shows an edge between rows shares its key with no other relation. -/
def RelationKeysApart (host : ResumeHost) (rows : List GraphRow) : Prop :=
  ∀ value ∈ recordedRelations rows, ∀ edge ∈ graphEdge host value, Between rows edge →
    ∀ value' ∈ recordedRelations rows, relationKey value' = relationKey value → value' = value

/-- Two edges between rows do not share a key. -/
def EdgeKeysApart (host : ResumeHost) (rows : List GraphRow) : Prop :=
  ∀ edge ∈ (recordedRelations rows).filterMap (graphEdge host), Between rows edge →
    ∀ edge' ∈ (recordedRelations rows).filterMap (graphEdge host), Between rows edge' →
      edgeKey edge = edgeKey edge' → edge = edge'

/-- The keys that the projection tells relations and edges apart by. -/
def RelationsApart (host : ResumeHost) (rows : List GraphRow) : Prop :=
  RelationKeysApart host rows ∧ EdgeKeysApart host rows

instance (host : ResumeHost) (rows : List GraphRow) : Decidable (RelationsApart host rows) :=
  inferInstanceAs (Decidable ((∀ value ∈ recordedRelations rows, ∀ edge ∈ graphEdge host value,
    Between rows edge → ∀ value' ∈ recordedRelations rows,
      relationKey value' = relationKey value → value' = value) ∧
    ∀ edge ∈ (recordedRelations rows).filterMap (graphEdge host), Between rows edge →
      ∀ edge' ∈ (recordedRelations rows).filterMap (graphEdge host), Between rows edge' →
        edgeKey edge = edgeKey edge' → edge = edge'))

/-! ## The first item with each key -/

section
variable {A : Type} {key : A → String}

private theorem keepFirst_concat (l : List A) (a : A) :
    keepFirst key (l ++ [a]) =
      if key a ∈ (keepFirst key l).map key then keepFirst key l else keepFirst key l ++ [a] := by
  rw [keepFirst, List.foldl_append]
  rfl

/-- What is kept is the first item with its key. -/
theorem mem_keepFirst {l : List A} {a : A} :
    a ∈ keepFirst key l ↔ l.find? (fun b => key b = key a) = some a := by
  induction l using List.reverseRecOn generalizing a with
  | nil => simp [keepFirst]
  | append_singleton l c ih =>
    have known : ∀ a, key a ∈ (keepFirst key l).map key ↔
        l.find? (fun b => key b = key a) ≠ none := by
      intro a
      constructor
      · intro mem
        obtain ⟨b, kept, same⟩ := List.mem_map.mp mem
        rw [← same, ih.mp kept]
        exact Option.some_ne_none b
      · intro found
        obtain ⟨b, found⟩ := Option.ne_none_iff_exists'.mp found
        have same : key b = key a := by simpa using List.find?_some found
        rw [← same] at found ⊢
        exact List.mem_map_of_mem (ih.mpr found)
    rw [keepFirst_concat, List.find?_append]
    by_cases last : key c = key a
    · rw [last]
      split
      · next seen =>
        obtain ⟨b, found⟩ := Option.ne_none_iff_exists'.mp ((known a).mp seen)
        rw [ih, found, Option.some_or]
      · next fresh =>
        have none_ := not_not.mp (mt (known a).mpr fresh)
        have absent : a ∉ keepFirst key l := fun mem => fresh (List.mem_map_of_mem mem)
        rw [none_, Option.none_or, List.find?_cons_of_pos (by simpa using last)]
        simp [absent, eq_comm]
    · have skip : [c].find? (fun b => decide (key b = key a)) = none := by simpa using last
      have other : a ≠ c := fun same => last (congrArg key same.symm)
      rw [skip, Option.or_none, ← ih]
      split
      · rfl
      · simp [other]

private theorem prefix_keepFirst (key : A → String) (l l' : List A) :
    keepFirst key l <+: keepFirst key (l ++ l') := by
  induction l' using List.reverseRecOn with
  | nil => rw [List.append_nil]
  | append_singleton l' a ih =>
    rw [← List.append_assoc, keepFirst_concat]
    split
    · exact ih
    · exact ih.trans (List.prefix_append _ _)

/-- What is kept of a part comes before what only a later part brings. -/
theorem pair_sublist_keepFirst {l l' : List A} {a b : A} (mem : a ∈ keepFirst key l)
    (mem' : b ∈ keepFirst key (l ++ l')) (fresh : b ∉ l) :
    [a, b].Sublist (keepFirst key (l ++ l')) := by
  obtain ⟨rest, whole⟩ := prefix_keepFirst key l l'
  rw [← whole] at mem' ⊢
  have later : b ∈ rest :=
    (List.mem_append.mp mem').resolve_left fun kept => fresh (mem_of_mem_keepFirst kept)
  exact (List.singleton_sublist.mpr mem).append (List.singleton_sublist.mpr later)

end

/-! ## Keys within one row -/

private theorem toList_relationKey (value : PlanningInventoryRelation) :
    (relationKey value).toList = value.fromTodoId.toList ++ nulChar ::
      (value.relation.text.toList ++ nulChar :: value.toRef.toList) := by
  have delimiter : nul.toList = [nulChar] := rfl
  simp only [relationKey, String.toList_append, delimiter, List.append_assoc, List.cons_append,
    List.nil_append]

private theorem toList_key (edge : GraphEdge) :
    (edgeKey edge).toList = (edge.fromTodoId.toList ++ nulChar :: edge.toTodoId.toList) ++
      nulChar :: edge.sourceRelation.text.toList := by
  have delimiter : nul.toList = [nulChar] := rfl
  simp only [edgeKey, String.toList_append, delimiter, List.append_assoc, List.cons_append,
    List.nil_append]

private theorem nul_not_mem_text (kind : PlanningRelationKind) : nulChar ∉ kind.text.toList := by
  cases kind <;> decide

variable {item : GraphRow} {value value' : PlanningInventoryRelation}

theorem eq_of_relationKey (candidate : value ∈ candidateRelations item)
    (candidate' : value' ∈ candidateRelations item)
    (same : relationKey value = relationKey value') : value = value' := by
  have lists := congrArg String.toList same
  rw [toList_relationKey, toList_relationKey, (candidateRelations_spec candidate).1,
    (candidateRelations_spec candidate').1] at lists
  obtain ⟨_, rest⟩ := List.cons.inj (List.append_cancel_left lists)
  obtain ⟨kind, ref⟩ := append_cons_inj_of_not_mem rest (nul_not_mem_text _) (nul_not_mem_text _)
  have kinds := PlanningRelationKind.text_injective (String.toList_injective kind)
  have refs := String.toList_injective ref
  have owners := (candidateRelations_spec candidate).1.trans
    (candidateRelations_spec candidate').1.symm
  cases value
  cases value'
  exact PlanningInventoryRelation.mk.injEq .. ▸ ⟨owners, refs, kinds⟩

theorem eq_of_edgeKey_of_row {host : ResumeHost} {edge edge' : GraphEdge}
    (candidate : value ∈ candidateRelations item) (candidate' : value' ∈ candidateRelations item)
    (made : graphEdge host value = some edge) (made' : graphEdge host value' = some edge')
    (same : edgeKey edge = edgeKey edge') : value = value' := by
  have lists := congrArg String.toList same
  rw [toList_key, toList_key] at lists
  obtain ⟨ends, source⟩ :=
    append_cons_inj_of_not_mem_right lists (nul_not_mem_text _) (nul_not_mem_text _)
  have sources := PlanningRelationKind.text_injective (String.toList_injective source)
  obtain ⟨owner, resumes⟩ := candidateRelations_spec candidate
  obtain ⟨owner', resumes'⟩ := candidateRelations_spec candidate'
  obtain ⟨kind, direct, _⟩ := graphEdge_eq_some made
  obtain ⟨kind', direct', _⟩ := graphEdge_eq_some made'
  have kinds : value.relation = value'.relation := by rw [← kind, ← kind', sources]
  have refs : value.toRef = value'.toRef := by
    by_cases isResume : value.relation = .resumesWhen
    · exact Option.some.inj ((resumes isResume).symm.trans (resumes' (kinds ▸ isResume)))
    · obtain ⟨ref, owned⟩ := direct isResume
      obtain ⟨ref', owned'⟩ := direct' (kinds ▸ isResume)
      rw [owned, owned', owner, owner'] at ends
      rw [← ref, ← ref']
      exact String.toList_injective (List.append_cancel_right ends)
  cases value
  cases value'
  exact PlanningInventoryRelation.mk.injEq .. ▸ ⟨owner.trans owner'.symm, refs, kinds⟩

/-! ## Another order of the rows -/

section
variable {host : ResumeHost} {rows rows' : List GraphRow}

private theorem between_of_perm (perm : rows'.Perm rows) (edge : GraphEdge) :
    Between rows' edge ↔ Between rows edge := by
  unfold Between
  rw [(perm.map _).mem_iff, (perm.map _).mem_iff]

private theorem mem_visibleEdges {edge : GraphEdge} :
    edge ∈ visibleEdges host rows ↔
      (∃ value ∈ projectRelations rows, graphEdge host value = some edge) ∧ Between rows edge := by
  rw [visibleEdges, List.mem_filter, mem_relationEdges, List.mem_filterMap, decide_eq_true_iff]

private theorem mem_recorded_of_projected (mem : value ∈ projectRelations rows) :
    value ∈ recordedRelations rows :=
  mem_of_mem_keepFirst mem

/-- A relation whose key no other relation has is projected. -/
private theorem projected_of_alone (mem : value ∈ recordedRelations rows)
    (alone : ∀ value' ∈ recordedRelations rows,
      relationKey value' = relationKey value → value' = value) :
    value ∈ projectRelations rows := by
  refine mem_keepFirst.2 ?_
  have some_ : ((rows.flatMap candidateRelations).find?
      fun b => relationKey b = relationKey value).isSome := by
    rw [List.find?_isSome]
    exact ⟨value, mem, decide_eq_true rfl⟩
  obtain ⟨first, found⟩ := Option.isSome_iff_exists.mp some_
  have same : relationKey first = relationKey value := by simpa using List.find?_some found
  rw [found, alone first (List.mem_of_find?_eq_some found) same]

theorem nodup_visibleEdges (distinct : (rows.map GraphRow.todoId).Nodup) :
    (visibleEdges host rows).Nodup :=
  (nodup_relationEdges distinct).filter _

/-- With keys apart, the visible edges are those of the recorded relations. -/
private theorem mem_visibleEdges_of_apart (apart : RelationKeysApart host rows)
    {edge : GraphEdge} :
    edge ∈ visibleEdges host rows ↔
      (∃ value ∈ recordedRelations rows, graphEdge host value = some edge) ∧
        Between rows edge := by
  rw [mem_visibleEdges]
  refine and_congr_left fun between => ⟨?_, ?_⟩
  · rintro ⟨value, mem, made⟩
    exact ⟨value, mem_recorded_of_projected mem, made⟩
  · rintro ⟨value, mem, made⟩
    exact ⟨value, projected_of_alone mem (apart value mem edge made between), made⟩

private theorem RelationKeysApart.of_perm (apart : RelationKeysApart host rows)
    (perm : rows'.Perm rows) : RelationKeysApart host rows' := by
  have recorded : ∀ value, value ∈ recordedRelations rows' ↔ value ∈ recordedRelations rows :=
    fun value => (perm.flatMap_right candidateRelations).mem_iff
  intro value mem edge made between value' mem'
  exact apart value ((recorded value).mp mem) edge made ((between_of_perm perm edge).mp between)
    value' ((recorded value').mp mem')

private theorem sorted_visibleEdges (host : ResumeHost) (rows : List GraphRow) :
    (visibleEdges host rows).Pairwise fun a b => unitKey (edgeKey a) ≤ unitKey (edgeKey b) :=
  (List.pairwise_insertionSort _ _).sublist List.filter_sublist

theorem visibleEdges_of_perm (distinct : (rows.map GraphRow.todoId).Nodup)
    (apart : RelationsApart host rows) (perm : rows'.Perm rows) :
    visibleEdges host rows' = visibleEdges host rows := by
  obtain ⟨relations, edges⟩ := apart
  have mem : ∀ edge, edge ∈ visibleEdges host rows' ↔ edge ∈ visibleEdges host rows := by
    intro edge
    rw [mem_visibleEdges_of_apart relations, mem_visibleEdges_of_apart (relations.of_perm perm),
      between_of_perm perm]
    simp only [recordedRelations, (perm.flatMap_right candidateRelations).mem_iff]
  have perm' := (List.perm_ext_iff_of_nodup
    (nodup_visibleEdges ((perm.map _).nodup_iff.mpr distinct))
    (nodup_visibleEdges distinct)).mpr mem
  refine perm'.eq_of_pairwise (fun a b here there le ge => ?_) (sorted_visibleEdges host rows')
    (sorted_visibleEdges host rows)
  have shown : ∀ edge ∈ visibleEdges host rows,
      edge ∈ (recordedRelations rows).filterMap (graphEdge host) ∧ Between rows edge := by
    intro edge mem
    obtain ⟨⟨value, recorded, made⟩, between⟩ := (mem_visibleEdges_of_apart relations).mp mem
    exact ⟨List.mem_filterMap.mpr ⟨value, recorded, made⟩, between⟩
  obtain ⟨listed, between⟩ := shown a ((mem a).mp here)
  obtain ⟨listed', between'⟩ := shown b there
  exact edges a listed between b listed' between' (unitKey_injective (le_antisymm le ge))

private theorem perm_front {item : GraphRow} (mem : item ∈ rows) :
    (item :: rows.erase item).Perm rows :=
  (List.perm_cons_erase mem).symm

private theorem perm_front_two {item item' : GraphRow} (mem : item ∈ rows) (mem' : item' ∈ rows)
    (apart : item' ≠ item) : ∃ rest, (item :: item' :: rest).Perm rows :=
  ⟨(rows.erase item).erase item',
    (List.Perm.cons item (perm_front ((List.mem_erase_of_ne apart).mpr mem'))).trans
      (perm_front mem)⟩

private theorem projected_front {item : GraphRow}
    (candidate : value ∈ candidateRelations item) :
    value ∈ keepFirst relationKey (candidateRelations item) := by
  refine mem_keepFirst.2 ?_
  have some_ : ((candidateRelations item).find?
      fun b => relationKey b = relationKey value).isSome := by
    rw [List.find?_isSome]
    exact ⟨value, candidate, decide_eq_true rfl⟩
  obtain ⟨first, found⟩ := Option.isSome_iff_exists.mp some_
  have same : relationKey first = relationKey value := by simpa using List.find?_some found
  rw [found, eq_of_relationKey (List.mem_of_find?_eq_some found) candidate same]

/-- If no order of the rows changes what is visible, keys tell all relations apart. -/
private theorem relationKeysApart_of_perm (distinct : (rows.map GraphRow.todoId).Nodup)
    (free : ∀ rows', rows'.Perm rows → visibleEdges host rows' = visibleEdges host rows) :
    RelationKeysApart host rows := by
  intro value mem edge made between value' mem' same
  by_contra apart
  obtain ⟨item, listed, candidate⟩ := List.mem_flatMap.mp mem
  obtain ⟨item', listed', candidate'⟩ := List.mem_flatMap.mp mem'
  have others : item' ≠ item := by
    rintro rfl
    exact apart (eq_of_relationKey candidate' candidate same)
  -- the row of the relation first: its edge is visible
  have first := perm_front listed
  have shown : edge ∈ visibleEdges host rows := by
    rw [← free _ first, mem_visibleEdges, between_of_perm first]
    refine ⟨⟨value, ?_, made⟩, between⟩
    exact (prefix_keepFirst relationKey (candidateRelations item) _).subset
      (projected_front candidate)
  -- the other row first: it is not
  have second := perm_front listed'
  rw [← free _ second, mem_visibleEdges] at shown
  obtain ⟨⟨shows, projected, made'⟩, _⟩ := shown
  obtain ⟨row', listed'', candidate''⟩ := List.mem_flatMap.mp (mem_recorded_of_projected projected)
  have isValue := relation_of_edge distinct (second.mem_iff.mp listed'') listed candidate''
    candidate made' made rfl rfl rfl
  rw [isValue, projectRelations, List.flatMap_cons] at projected
  have kept := mem_keepFirst.1 projected
  have early : ((candidateRelations item').find?
      fun b => relationKey b = relationKey value).isSome := by
    rw [List.find?_isSome]
    exact ⟨value', candidate', decide_eq_true same⟩
  obtain ⟨found, isFound⟩ := Option.isSome_iff_exists.mp early
  rw [List.find?_append, isFound, Option.some_or] at kept
  rw [Option.some.inj kept] at isFound
  refine others (List.inj_on_of_nodup_map distinct listed' listed ?_)
  rw [← (candidateRelations_spec (List.mem_of_find?_eq_some isFound)).1,
    (candidateRelations_spec candidate).1]

private theorem not_both_sublists {B : Type} {a b : B} {l : List B} (nodup : l.Nodup)
    (one : [a, b].Sublist l) : ¬[b, a].Sublist l := by
  intro other
  induction l with
  | nil => cases one
  | cons c l ih =>
    obtain ⟨fresh, nodup⟩ := List.nodup_cons.mp nodup
    cases one with
    | cons _ later =>
      cases other with
      | cons _ later' => exact ih nodup later later'
      | cons_cons _ rest => exact fresh (later.subset (by simp))
    | cons_cons _ rest =>
      cases other with
      | cons _ later' => exact fresh (later'.subset (by simp))
      | cons_cons _ rest => exact fresh (rest.subset (by simp))

private theorem edgeKeysApart_of_perm (distinct : (rows.map GraphRow.todoId).Nodup)
    (free : ∀ rows', rows'.Perm rows → visibleEdges host rows' = visibleEdges host rows) :
    EdgeKeysApart host rows := by
  have apart := relationKeysApart_of_perm distinct free
  -- in an order that starts with the two rows the edges stand in the order of the rows
  have ordered : ∀ {item item' : GraphRow} {value value' : PlanningInventoryRelation}
      {edge edge' : GraphEdge}, item ∈ rows → item' ∈ rows → item' ≠ item →
      value ∈ candidateRelations item → value' ∈ candidateRelations item' →
      graphEdge host value = some edge → graphEdge host value' = some edge' →
      Between rows edge → Between rows edge' → edgeKey edge = edgeKey edge' →
      [edge, edge'].Sublist (visibleEdges host rows) := by
    intro item item' value value' edge edge' listed listed' others candidate candidate' made made'
      between between' same
    obtain ⟨rest, perm⟩ := perm_front_two listed listed' others
    have recorded' : value' ∈ recordedRelations rows :=
      List.mem_flatMap.mpr ⟨item', listed', candidate'⟩
    have projected' : value' ∈ projectRelations _ :=
      projected_of_alone ((perm.flatMap_right candidateRelations).mem_iff.mpr recorded')
        (RelationKeysApart.of_perm apart perm value'
          ((perm.flatMap_right candidateRelations).mem_iff.mpr recorded') edge' made'
          ((between_of_perm perm edge').mpr between'))
    have fresh : value' ∉ candidateRelations item := by
      intro there
      refine others (List.inj_on_of_nodup_map distinct listed' listed ?_)
      rw [← (candidateRelations_spec candidate').1, (candidateRelations_spec there).1]
    rw [projectRelations, List.flatMap_cons] at projected'
    have pair := pair_sublist_keepFirst (projected_front candidate) projected' fresh
    have pair' := pair.filterMap (graphEdge host)
    simp only [List.filterMap_cons, made, made', List.filterMap_nil] at pair'
    have sorted := List.pair_sublist_insertionSort
      (r := fun a b => unitKey (edgeKey a) ≤ unitKey (edgeKey b)) (le_of_eq (by rw [same])) pair'
    have visible := sorted.filter fun edge => decide (Between (item :: item' :: rest) edge)
    rw [List.filter_eq_self.mpr] at visible
    · rw [← free _ perm]
      exact visible
    · intro shown mem
      rw [decide_eq_true_iff, between_of_perm perm]
      rcases List.mem_cons.mp mem with rfl | mem
      · exact between
      · rwa [List.mem_singleton.mp mem]
  intro edge mem between edge' mem' between' same
  by_contra different
  obtain ⟨value, recorded, made⟩ := List.mem_filterMap.mp mem
  obtain ⟨value', recorded', made'⟩ := List.mem_filterMap.mp mem'
  obtain ⟨item, listed, candidate⟩ := List.mem_flatMap.mp recorded
  obtain ⟨item', listed', candidate'⟩ := List.mem_flatMap.mp recorded'
  have others : item' ≠ item := by
    rintro rfl
    have values := eq_of_edgeKey_of_row candidate candidate' made made' same
    rw [values, made'] at made
    exact different (Option.some.inj made).symm
  exact not_both_sublists (nodup_visibleEdges distinct)
    (ordered listed listed' others candidate candidate' made made' between between' same)
    (ordered listed' listed others.symm candidate' candidate made' made between' between same.symm)

/-- The visible edges do not depend on the order of the rows exactly where keys tell relations and
edges apart. -/
theorem orderFree_iff_relationsApart (distinct : (rows.map GraphRow.todoId).Nodup) :
    (∀ rows', rows'.Perm rows → visibleEdges host rows' = visibleEdges host rows) ↔
      RelationsApart host rows :=
  ⟨fun free => ⟨relationKeysApart_of_perm distinct free, edgeKeysApart_of_perm distinct free⟩,
    fun apart _ perm => visibleEdges_of_perm distinct apart perm⟩

/-- Ids without the delimiter keep all keys apart. -/
theorem relationsApart_of_plain (distinct : (rows.map GraphRow.todoId).Nodup)
    (plain : ∀ value ∈ recordedRelations rows, nulChar ∉ value.fromTodoId.toList ∧
      ∀ edge ∈ graphEdge host value, edge.Plain) : RelationsApart host rows := by
  refine ⟨fun value mem _ _ _ value' mem' same => ?_, ?_⟩
  · have lists := congrArg String.toList same
    rw [toList_relationKey, toList_relationKey] at lists
    obtain ⟨from_, rest⟩ :=
      append_cons_inj_of_not_mem lists (plain value' mem').1 (plain value mem).1
    obtain ⟨kind, ref⟩ :=
      append_cons_inj_of_not_mem rest (nul_not_mem_text _) (nul_not_mem_text _)
    cases value
    cases value'
    exact PlanningInventoryRelation.mk.injEq .. ▸ ⟨String.toList_injective from_,
      String.toList_injective ref, PlanningRelationKind.text_injective
        (String.toList_injective kind)⟩
  · intro edge mem _ edge' mem' _ same
    obtain ⟨value, recorded, made⟩ := List.mem_filterMap.mp mem
    obtain ⟨value', recorded', made'⟩ := List.mem_filterMap.mp mem'
    obtain ⟨item, listed, candidate⟩ := List.mem_flatMap.mp recorded
    obtain ⟨item', listed', candidate'⟩ := List.mem_flatMap.mp recorded'
    have lists := congrArg String.toList same
    rw [toList_key, toList_key] at lists
    obtain ⟨ends, source⟩ :=
      append_cons_inj_of_not_mem_right lists (nul_not_mem_text _) (nul_not_mem_text _)
    obtain ⟨start, target⟩ := append_cons_inj_of_not_mem ends
      ((plain value recorded).2 edge made).1 ((plain value' recorded').2 edge' made').1
    have values := relation_of_edge distinct listed listed' candidate candidate' made made'
      (String.toList_injective start) (String.toList_injective target)
      (PlanningRelationKind.text_injective (String.toList_injective source))
    rw [values] at made
    exact Option.some.inj (made.symm.trans made')

end

end Loopx.WorkItems
