/- GID: Loopx/Coordination/SnapshotPaging
   generality: I
   source: loopx/control_plane/coordination/canonical_snapshot_page.ts
   digest: Following the continuations of a snapshot reads every record once, in longest pages. -/

import Loopx.Coordination.SnapshotPage

set_option autoImplicit false
set_option relaxedAutoImplicit false

namespace Loopx.Coordination

open Loopx.Authority
open Loopx.Json (JsNumber FieldLe byteBound byteLength byteLength_array_sublist byteLength_le_byteBound
  byteLength_object_fields byteLength_object_perm byteLength_object_sublist byteLength_ofNat_le
  canonicalAuthorityBytes maxArrayLength)
open Loopx.Lib.BinarySearch (lastFitting lastFitting_spec)
open Loopx.Lib.Fallible (throwWhen_of_not)
open Loopx.Lib.KeyedList
open Loopx.Todos (Fields requireJsonObject)

namespace SnapshotView

variable (view : SnapshotView)

def todoRecord (id : String) : Json := (view.collection.todos.lookup id).getD .null

def leaseRecord (leases : Fields) (id : String) : Json := (leases.lookup id).getD .null

/-- The number of records of the snapshot. -/
def total : Nat := view.collection.todoIds.length + view.collection.leaseTodoIds.length

/-- The position after a number of records: leases only after every Todo. -/
def positionAt (start : Nat) : Position :=
  ⟨view.snapshot, min start view.collection.todoIds.length,
    start - view.collection.todoIds.length⟩

/-- The Todo ids among a number of records from a start. -/
def todosAt (start size : Nat) : List String := (view.collection.todoIds.drop start).take size

def leasesAt (start size : Nat) : List String :=
  (view.collection.leaseTodoIds.drop (start - view.collection.todoIds.length)).take
    (size - (view.collection.todoIds.length - start))

def guardsAt (ids : List String) : Fields :=
  Json.fromEntries (ids.filterMap fun id => (view.collection.workGuard id).map (Prod.mk id))

/-- The page of a number of records from a start. -/
def pageAt (start size : Nat) : SnapshotPage where
  base := view.base
  snapshot := view.snapshot
  metadata := view.metadata
  todos := (view.todosAt start size).map view.todoRecord
  leases := view.collection.leases.map fun leases =>
    (view.leasesAt start size).map (leaseRecord leases)
  guards :=
    if configuredGoalChecks view.collection.acceptance then
      some (view.guardsAt (view.todosAt start size))
    else none
  next := if start + size = view.total then none else some (view.positionAt (start + size))

/-- A view of one collection: its counts, and ids that an array holds. -/
structure Sound : Prop where
  todoCount : view.snapshot.todoCount = view.collection.todoIds.length
  leaseCount : view.snapshot.leaseCount = view.collection.leaseTodoIds.length
  todos : (keys view.collection.todos).Nodup
  leases : ∀ leases, view.collection.leases = some leases → (keys leases).Nodup
  todoBound : view.collection.todoIds.length ≤ maxArrayLength
  leaseBound : view.collection.leaseTodoIds.length ≤ maxArrayLength

variable {view}

theorem Sound.nodup_todoIds (sound : view.Sound) : view.collection.todoIds.Nodup :=
  (sortedIds_spec sound.todos).2.1

/-! ## Lengths -/

private theorem nodup_guardEntries {ids : List String} (nodup : ids.Nodup)
    (guard : String → Option Json) :
    (keys (ids.filterMap fun id => (guard id).map (Prod.mk id))).Nodup := by
  have sub : (keys (ids.filterMap fun id => (guard id).map (Prod.mk id))).Sublist ids := by
    clear nodup
    induction ids with
    | nil => exact List.Sublist.slnil
    | cons id ids ih =>
      cases found : guard id with
      | none =>
        rw [List.filterMap_cons_none (by rw [found]; rfl)]
        exact ih.cons _
      | some v =>
        rw [List.filterMap_cons_some (by rw [found]; rfl)]
        exact ih.cons_cons _
  exact nodup.sublist sub

private theorem sublist_todosAt {start size size' : Nat} (le : size ≤ size') :
    (view.todosAt start size).Sublist (view.todosAt start size') :=
  (List.take_prefix_take_left (Nat.le_of_lt_succ (Nat.lt_succ_of_le le))).sublist

private theorem sublist_leasesAt {start size size' : Nat} (le : size ≤ size') :
    (view.leasesAt start size).Sublist (view.leasesAt start size') :=
  (List.take_prefix_take_left (Nat.sub_le_sub_right le _)).sublist

private theorem todosAt_nodup (sound : view.Sound) (start size : Nat) :
    (view.todosAt start size).Nodup :=
  (sound.nodup_todoIds.sublist (List.drop_sublist _ _)).sublist (List.take_sublist _ _)

private theorem byteLength_guardsAt_le (sound : view.Sound) {start size size' : Nat}
    (le : size ≤ size') :
    byteLength (.object (view.guardsAt (view.todosAt start size))) ≤
      byteLength (.object (view.guardsAt (view.todosAt start size'))) := by
  have arranged : ∀ size, byteLength (.object (view.guardsAt (view.todosAt start size))) =
      byteLength (.object ((view.todosAt start size).filterMap fun id =>
        (view.collection.workGuard id).map (Prod.mk id))) := fun size =>
    byteLength_object_perm (Json.fromEntries_perm_of_nodup
      (nodup_guardEntries (todosAt_nodup sound start size) _))
  rw [arranged, arranged]
  exact byteLength_object_sublist ((sublist_todosAt le).filterMap _)

private theorem byteLength_position_le (sound : view.Sound) {n m : Nat} (le : n ≤ m)
    (within : m ≤ view.total) :
    byteLength (view.positionAt n).json ≤ byteLength (view.positionAt m).json := by
  have bounds := sound.todoBound
  have bounds' := sound.leaseBound
  have safe : maxArrayLength + maxArrayLength ≤ JsNumber.maxSafeInteger := by decide
  unfold total at within
  refine byteLength_object_fields ?_
  refine .cons (FieldLe.refl _) (.cons ⟨rfl, byteLength_ofNat_le ?_ ?_⟩
    (.cons ⟨rfl, byteLength_ofNat_le ?_ ?_⟩ .nil)) <;> simp only [positionAt] <;> omega

/-- Short of the end of the snapshot, a page with more records is not shorter. -/
theorem bytes_pageAt_le (sound : view.Sound) {start size size' : Nat} (le : size ≤ size')
    (before : start + size' < view.total) :
    (view.pageAt start size).bytes ≤ (view.pageAt start size').bytes := by
  have same : ∀ fields : Fields, List.Forall₂ FieldLe fields fields := fun fields =>
    List.forall₂_same.mpr fun f _ => FieldLe.refl f
  refine byteLength_object_fields ?_
  refine List.rel_append (List.rel_append (List.rel_append (List.rel_append (same _) ?_) ?_) ?_) ?_
  · refine .cons (FieldLe.refl _) (.cons (FieldLe.refl _) (.cons (FieldLe.refl _) (.cons ⟨rfl, ?_⟩
      .nil)))
    exact byteLength_array_sublist ((sublist_todosAt le).map _)
  · cases leases : view.collection.leases with
    | none =>
      simp only [pageAt, leases, Option.map_none, optionalField, Option.toList_none]
      exact .nil
    | some records =>
      simp only [pageAt, leases, Option.map_some, optionalField, Option.toList_some]
      exact .cons ⟨rfl, byteLength_array_sublist ((sublist_leasesAt le).map _)⟩ .nil
  · by_cases configured : configuredGoalChecks view.collection.acceptance = true
    · simp only [pageAt, if_pos configured, Option.map_some, optionalField, Option.toList_some]
      exact .cons ⟨rfl, byteLength_guardsAt_le sound le⟩ .nil
    · simp only [pageAt, if_neg configured, Option.map_none, optionalField, Option.toList_none]
      exact .nil
  · have short : start + size ≠ view.total := by omega
    have short' : start + size' ≠ view.total := by omega
    simp only [pageAt, if_neg short, if_neg short', positionJson]
    exact .cons ⟨rfl, byteLength_position_le sound (by omega) (by omega)⟩ .nil

/-! ## Pages of the code -/

private theorem lookup_workGuards
    (configured : configuredGoalChecks view.collection.acceptance = true) {ids : List String}
    (nodup : ids.Nodup) {id : String} (mem : id ∈ ids) :
    (view.workGuards ids).lookup id = view.collection.workGuard id := by
  have entries := lookup_filterMap_key ids view.collection.workGuard id
  rw [workGuards, if_pos configured, TodoCollection.projectWorkGuards,
    Json.lookup_fromEntries (nodup_guardEntries nodup _)]
  rw [if_pos mem] at entries
  exact entries

/-- The code's page from a position is the page of that many records. -/
theorem result_eq_pageAt (sound : view.Sound) {start size : Nat}
    (within : start + size ≤ view.total) (guards : Fields)
    (guarded : configuredGoalChecks view.collection.acceptance = true →
      ∀ id ∈ view.todosAt start size, guards.lookup id = view.collection.workGuard id) :
    view.result (view.positionAt start).todoOffset (view.positionAt start).leaseOffset
      (view.todosAt start size) (view.leasesAt start size) guards = view.pageAt start size := by
  have todoLength : (view.todosAt start size).length =
      min size (view.collection.todoIds.length - start) := by
    rw [todosAt, List.length_take, List.length_drop]
  have leaseLength : (view.leasesAt start size).length =
      min (size - (view.collection.todoIds.length - start))
        (view.collection.leaseTodoIds.length - (start - view.collection.todoIds.length)) := by
    rw [leasesAt, List.length_take, List.length_drop]
  unfold total at within
  have todoEnd : min start view.collection.todoIds.length + (view.todosAt start size).length =
      min (start + size) view.collection.todoIds.length := by
    omega
  have leaseEnd : (start - view.collection.todoIds.length) + (view.leasesAt start size).length =
      start + size - view.collection.todoIds.length := by
    omega
  have last : (min (start + size) view.collection.todoIds.length = view.snapshot.todoCount ∧
      start + size - view.collection.todoIds.length = view.snapshot.leaseCount) ↔
        start + size = view.total := by
    rw [sound.todoCount, sound.leaseCount, total]
    omega
  simp only [result, pageAt, positionAt, todoEnd, leaseEnd, last]
  have guardFields : ∀ configured : configuredGoalChecks view.collection.acceptance = true,
      Json.fromEntries ((view.todosAt start size).filterMap fun id =>
        (guards.lookup id).map (Prod.mk id)) = view.guardsAt (view.todosAt start size) := by
    intro configured
    refine congrArg Json.fromEntries (List.filterMap_congr fun id mem => ?_)
    rw [guarded configured id mem]
  by_cases configured : configuredGoalChecks view.collection.acceptance = true
  · simp only [if_pos configured, guardFields configured]
    rfl
  · simp only [if_neg configured]
    rfl

/-- A page as long as the byte bound and the item bound allow. -/
structure LongestPage (view : SnapshotView) (start size : Nat) : Prop where
  within : start + size ≤ view.total
  items : size ≤ CANONICAL_SNAPSHOT_PAGE_ITEMS
  progress : start < view.total → 0 < size
  bound : (view.pageAt start size).bytes ≤ CANONICAL_SNAPSHOT_PAGE_BYTES
  longest : ∀ n, size < n → n ≤ CANONICAL_SNAPSHOT_PAGE_ITEMS → start + n ≤ view.total →
    CANONICAL_SNAPSHOT_PAGE_BYTES < (view.pageAt start n).bytes

/-- Each record fits a page of its own; without records, the empty page fits. -/
def FitsAlone (view : SnapshotView) : Prop :=
  ∀ start, start < view.total ∨ start = 0 →
    (view.pageAt start (min 1 (view.total - start))).bytes ≤ CANONICAL_SNAPSHOT_PAGE_BYTES

/-- Only the last page, which carries no continuation, can be shorter than a page before it; it is
tried first. -/
theorem pickPage_spec {page : Nat → SnapshotPage} (available : Nat)
    (growing : ∀ i j, i ≤ j → j < available → (page i).bytes ≤ (page j).bytes)
    (alone : (page (min 1 available)).bytes ≤ CANONICAL_SNAPSHOT_PAGE_BYTES) :
    ∃ size ≤ available, pickPage page available = .ok (page size) ∧
      (page size).bytes ≤ CANONICAL_SNAPSHOT_PAGE_BYTES ∧ (0 < available → 0 < size) ∧
      ∀ n, size < n → n ≤ available → CANONICAL_SNAPSHOT_PAGE_BYTES < (page n).bytes := by
  by_cases whole : (page available).bytes ≤ CANONICAL_SNAPSHOT_PAGE_BYTES
  · exact ⟨available, Nat.le_refl _, if_pos whole, whole, fun some_ => some_,
      fun n gt le => absurd gt (Nat.not_lt.mpr le)⟩
  · have several : 1 < available := by
      by_contra few
      rw [Nat.min_eq_right (Nat.le_of_not_lt few)] at alone
      exact whole alone
    rw [Nat.min_eq_left (Nat.le_of_lt several)] at alone
    have empty : (page 0).bytes ≤ CANONICAL_SNAPSHOT_PAGE_BYTES :=
      Nat.le_trans (growing 0 1 (Nat.zero_le _) several) alone
    let fits : Nat → Bool := fun size => (page size).bytes ≤ CANONICAL_SNAPSHOT_PAGE_BYTES
    have downward : ∀ i j, i ≤ j → j ≤ available → fits j = true → fits i = true := by
      intro i j le within fitting
      have fitting := of_decide_eq_true fitting
      rcases Nat.lt_or_eq_of_le within with inside | rfl
      · exact decide_eq_true (Nat.le_trans (growing i j le inside) fitting)
      · exact absurd fitting whole
    obtain ⟨le, fitting, beyond⟩ :=
      lastFitting_spec (Nat.zero_le available) (decide_eq_true empty) downward
    have progress : 0 < lastFitting fits 0 available := by
      by_contra none_
      exact of_decide_eq_false (beyond 1 (by omega) (Nat.le_of_lt several)) alone
    refine ⟨lastFitting fits 0 available, le, ?_, of_decide_eq_true fitting, fun _ => progress,
      fun n gt within => Nat.lt_of_not_le (of_decide_eq_false (beyond n gt within))⟩
    rw [pickPage, if_neg whole, throwWhen_of_not (Nat.not_lt.mpr empty)]
    dsimp only
    rw [throwWhen_of_not (fun both => absurd both.2 (Nat.pos_iff_ne_zero.mp progress))]
    rfl

theorem boundedPage_spec (sound : view.Sound) (alone : view.FitsAlone) {start : Nat}
    (before : start < view.total ∨ start = 0) (completeGuards : Option Fields)
    (complete : ∀ guards ∈ completeGuards, guards = view.workGuards view.collection.todoIds) :
    ∃ size, view.boundedPage (view.positionAt start).todoOffset (view.positionAt start).leaseOffset
      completeGuards = .ok (view.pageAt start size) ∧ LongestPage view start size := by
  let limit := CANONICAL_SNAPSHOT_PAGE_ITEMS
  let todoIds := (view.collection.todoIds.drop (view.positionAt start).todoOffset).take limit
  let leaseIds := (view.collection.leaseTodoIds.drop (view.positionAt start).leaseOffset).take
    (limit - todoIds.length)
  let guards := completeGuards.getD (view.workGuards todoIds)
  let available := todoIds.length + leaseIds.length
  have within : start ≤ view.total := by omega
  have todoDrop : view.collection.todoIds.drop (view.positionAt start).todoOffset =
      view.collection.todoIds.drop start := by
    rcases Nat.le_total start view.collection.todoIds.length with small | large
    · simp only [positionAt, Nat.min_eq_left small]
    · simp only [positionAt, Nat.min_eq_right large]
      rw [List.drop_length, List.drop_eq_nil_of_le large]
  have todoLength : todoIds.length = min limit (view.collection.todoIds.length - start) := by
    simp only [todoIds, todoDrop, List.length_take, List.length_drop]
  have leaseLength : leaseIds.length = min (limit - todoIds.length)
      (view.collection.leaseTodoIds.length - (start - view.collection.todoIds.length)) := by
    simp only [leaseIds, List.length_take, List.length_drop, positionAt]
  have isAvailable : available = min limit (view.total - start) := by
    simp only [available, total] at within ⊢
    omega
  -- the code's pages are the pages of the records
  let page := fun size => view.result (view.positionAt start).todoOffset
    (view.positionAt start).leaseOffset (todoIds.take size)
    (leaseIds.take (size - todoIds.length)) guards
  have pages : ∀ size, size ≤ available → page size = view.pageAt start size := by
    intro size le
    have small : size ≤ limit := by omega
    have todos : todoIds.take size = view.todosAt start size := by
      simp only [todoIds, todoDrop, todosAt, List.take_take, Nat.min_eq_left small]
    have leases : leaseIds.take (size - todoIds.length) = view.leasesAt start size := by
      have same : min (size - todoIds.length) (limit - todoIds.length) =
          size - (view.collection.todoIds.length - start) := by
        rcases Nat.le_total limit (view.collection.todoIds.length - start) with full | room
        · omega
        · omega
      simp only [leaseIds, leasesAt, List.take_take, positionAt]
      rw [same]
    simp only [page]
    rw [todos, leases]
    refine result_eq_pageAt sound (by omega) guards fun configured id mem => ?_
    have inside : id ∈ todoIds := by
      rw [← todos] at mem
      exact List.mem_of_mem_take mem
    cases isComplete : completeGuards with
    | none =>
      simp only [guards, isComplete, Option.getD_none]
      exact lookup_workGuards configured (sound.nodup_todoIds.sublist
        ((List.take_sublist _ _).trans (List.drop_sublist _ _))) inside
    | some given =>
      simp only [guards, isComplete, Option.getD_some]
      rw [complete given isComplete]
      exact lookup_workGuards configured sound.nodup_todoIds
        (List.mem_of_mem_drop (List.mem_of_mem_take inside))
  have growing : ∀ i j, i ≤ j → j < available → (page i).bytes ≤ (page j).bytes := by
    intro i j le lt
    rw [pages i (by omega), pages j (by omega)]
    exact bytes_pageAt_le sound le (by omega)
  have single : (page (min 1 available)).bytes ≤ CANONICAL_SNAPSHOT_PAGE_BYTES := by
    have one : min 1 available = min 1 (view.total - start) := by
      have positive : 0 < limit := by decide
      omega
    rw [pages _ (Nat.min_le_right _ _), one]
    exact alone start before
  obtain ⟨size, le, picked, bound, progress, longest⟩ := pickPage_spec available growing single
  refine ⟨size, picked.trans (congrArg Except.ok (pages size le)), by omega, by omega,
    fun more => progress ?_, pages size le ▸ bound, fun n gt le' within' => ?_⟩
  · have positive : 0 < limit := by decide
    omega
  · have inside : n ≤ available := by omega
    rw [← pages n inside]
    exact longest n gt inside

/-- Everything at once, within the bound of the private file. -/
structure CompletePage (view : SnapshotView) (completeBytes start size : Nat) : Prop where
  begins : start = 0
  whole : size = view.total
  bound : (view.pageAt start size).bytes ≤ min completeBytes CANONICAL_SNAPSHOT_LOCAL_BYTES

theorem CompletePage.ends {completeBytes start size : Nat}
    (h : CompletePage view completeBytes start size) : start + size = view.total := by
  rw [h.begins, h.whole, Nat.zero_add]

/-- A position that a read may start from. -/
inductive StartsAt (view : SnapshotView) : Nat → Option Position → Prop
  | beginning : StartsAt view 0 none
  | continued {start : Nat} : 0 < start → start < view.total →
      StartsAt view start (some (view.positionAt start))

theorem choosePage_spec (sound : view.Sound) (alone : view.FitsAlone) (completeBytes : Nat)
    {start : Nat} {after : Option Position} (starts : StartsAt view start after) :
    ∃ size, view.choosePage after completeBytes = .ok (view.pageAt start size) ∧
      (LongestPage view start size ∨ CompletePage view completeBytes start size) := by
  cases starts with
  | continued pos before =>
    obtain ⟨size, chosen, longest⟩ := boundedPage_spec sound alone (.inl before) none
      fun guards mem => by cases mem
    refine ⟨size, ?_, .inl longest⟩
    rw [choosePage, if_neg (fun both => by cases both.1)]
    exact chosen
  | beginning =>
    have origin : view.positionAt 0 = ⟨view.snapshot, 0, 0⟩ := by
      simp [positionAt]
    by_cases private_ : 0 < completeBytes
    · have all : view.result 0 0 view.collection.todoIds view.collection.leaseTodoIds
          (view.workGuards view.collection.todoIds) = view.pageAt 0 view.total := by
        have todos : view.todosAt 0 view.total = view.collection.todoIds :=
          List.take_of_length_le (by rw [List.length_drop, total]; omega)
        have leases : view.leasesAt 0 view.total = view.collection.leaseTodoIds := by
          rw [leasesAt, Nat.zero_sub, List.drop_zero, List.take_of_length_le]
          rw [total]
          omega
        have same := result_eq_pageAt sound (Nat.le_of_eq (Nat.zero_add view.total))
          (view.workGuards view.collection.todoIds) fun configured id mem =>
            lookup_workGuards configured sound.nodup_todoIds (todos ▸ mem)
        rwa [todos, leases, origin] at same
      by_cases fits : (view.pageAt 0 view.total).bytes ≤
          min completeBytes CANONICAL_SNAPSHOT_LOCAL_BYTES
      · refine ⟨view.total, ?_, .inr ⟨rfl, rfl, fits⟩⟩
        rw [choosePage, if_pos ⟨rfl, private_⟩]
        simp only [Option.map_none, Option.getD_none]
        rw [all, if_pos fits]
      · obtain ⟨size, chosen, longest⟩ := boundedPage_spec sound alone (.inr rfl)
          (some (view.workGuards view.collection.todoIds)) fun guards mem =>
            (Option.some.inj mem).symm
        refine ⟨size, ?_, .inl longest⟩
        rw [choosePage, if_pos ⟨rfl, private_⟩]
        simp only [Option.map_none, Option.getD_none]
        rw [all, if_neg fits, ← chosen, origin]
    · obtain ⟨size, chosen, longest⟩ := boundedPage_spec sound alone (.inr rfl) none
        fun guards mem => by cases mem
      refine ⟨size, ?_, .inl longest⟩
      rw [choosePage, if_neg (fun both => private_ both.2)]
      rw [origin] at chosen
      exact chosen

end SnapshotView

/-! ## Continuations -/

private theorem count_ofNat {n : Nat} (safe : n ≤ JsNumber.maxSafeInteger) :
    count (some (.number (.ofNat n))) = .ok n := by
  rw [count, JsNumber.safeInteger?_ofNat safe]

private theorem decoding_storeId {s : String} (valid : IsStoreId s) (name : String) :
    decoding (requireAuthorityStoreId (some (.string s)) name) = .ok s := by
  rw [requireAuthorityStoreId_eq_ok.mpr ⟨rfl, valid⟩]
  rfl

/-- The ids of a snapshot are ids of a store. -/
structure Snapshot.Named (snapshot : Snapshot) : Prop where
  goalId : IsStoreId snapshot.goalId
  storeIdentity : IsStoreId snapshot.storeIdentity
  providerRevision : IsStoreId snapshot.providerRevision
  cursor : IsStoreId snapshot.cursor
  querySha256 : IsStoreId snapshot.querySha256

theorem decodeSnapshot_json {snapshot : Snapshot} (named : snapshot.Named)
    (todos : snapshot.todoCount ≤ JsNumber.maxSafeInteger)
    (leases : snapshot.leaseCount ≤ JsNumber.maxSafeInteger) :
    decodeSnapshot (some snapshot.json) = .ok snapshot := by
  have object : decoding (requireJsonObject (some snapshot.json) "snapshot identity") =
      .ok (recordFields snapshot.json) := rfl
  have exact_ : hasExactAuthorityKeys (recordFields snapshot.json) SNAPSHOT_FIELDS = true :=
    decide_eq_true rfl
  rw [decodeSnapshot, object]
  dsimp only [Bind.bind, Except.bind]
  rw [throwWhen_of_not (by simp [exact_])]
  simp only [Snapshot.json, recordFields, List.lookup_cons, String.reduceBEq, beq_self_eq_true]
  rw [decoding_storeId named.goalId, decoding_storeId named.storeIdentity,
    decoding_storeId named.providerRevision, decoding_storeId named.cursor,
    decoding_storeId named.querySha256, count_ofNat todos, count_ofNat leases]

/-- Every position within the snapshot is accepted as a continuation. -/
theorem decodePosition_positionAt {view : SnapshotView} (sound : view.Sound)
    (named : view.snapshot.Named) {start : Nat} (pos : 0 < start) (before : start < view.total) :
    decodePosition (view.positionAt start).json = .ok (some (view.positionAt start)) := by
  have todoCount := sound.todoCount
  have leaseCount := sound.leaseCount
  have todoBound := sound.todoBound
  have leaseBound := sound.leaseBound
  have safe : maxArrayLength ≤ JsNumber.maxSafeInteger := by decide
  unfold SnapshotView.total at before
  have object : decoding (requireJsonObject (some (view.positionAt start).json)
      "snapshot continuation") = .ok (recordFields (view.positionAt start).json) := rfl
  have exact_ : hasExactAuthorityKeys (recordFields (view.positionAt start).json)
      ["snapshot", "todo_offset", "lease_offset"] = true := decide_eq_true rfl
  have advances : (Position.mk view.snapshot (view.positionAt start).todoOffset
      (view.positionAt start).leaseOffset).Advances := by
    simp only [Position.Advances, SnapshotView.positionAt, todoCount, leaseCount]
    omega
  rw [decodePosition, if_neg (by simp [Position.json]), object]
  dsimp only [Bind.bind, Except.bind]
  rw [throwWhen_of_not (by simp [exact_])]
  simp only [Position.json, recordFields, List.lookup_cons, String.reduceBEq, beq_self_eq_true]
  rw [show (view.positionAt start).snapshot = view.snapshot from rfl,
    decodeSnapshot_json named (by omega) (by omega)]
  dsimp only
  rw [count_ofNat (by simp only [SnapshotView.positionAt]; omega)]
  dsimp only
  rw [count_ofNat (by simp only [SnapshotView.positionAt]; omega)]
  dsimp only
  rw [throwWhen_of_not (not_not.mpr advances)]
  rfl

/-! ## Reads of an unchanged head -/

private theorem isStoreId_digest (sha : Sha256) (v : Json) :
    IsStoreId (canonicalAuthoritySha256 sha v) := by
  have bare := sha.bare (canonicalAuthorityBytes v)
  simp only [isBareSha256, Bool.and_eq_true, decide_eq_true_eq, List.all_eq_true] at bare
  obtain ⟨length, digits⟩ := bare
  have nonempty : (sha.hex (canonicalAuthorityBytes v)).toList ≠ [] := by
    intro empty
    rw [empty] at length
    cases length
  have space : ∀ c ∈ (sha.hex (canonicalAuthorityBytes v)).toList, isJsSpace c = false := by
    intro c mem
    have digit := digits c mem
    simp only [isHexDigit, Bool.or_eq_true, Bool.and_eq_true, decide_eq_true_eq] at digit
    simp only [isJsSpace, Bool.or_eq_false_iff, Bool.and_eq_false_iff, decide_eq_false_iff_not]
    omega
  exact isStoreId_of_ends (List.head?_eq_some_head nonempty)
    (List.getLast?_eq_some_getLast nonempty) (space _ (List.head_mem nonempty))
    (space _ (List.getLast_mem nonempty))

/-- A store that serves one head, unchanged, to a query that is well formed. -/
structure ServedSnapshot (host : SnapshotHost) (store : StoreReads) (query : SnapshotQuery) where
  readback : Option ProjectionReadback
  storeIdentity : String
  head : AuthorityStoreHead
  collection : TodoCollection
  goal : IsStoreId query.goal
  readable : decodeReadback query.readback = .ok readback
  identity : store.identity = .available storeIdentity
  loaded : store.loaded = .loaded head
  unchanged : store.observedIdentity = .available storeIdentity
  named : IsStoreId storeIdentity ∧ IsStoreId head.providerRevision ∧ IsStoreId head.cursor
  collected : canonicalTodoCollection host.acceptance (recordFields head.head) query.goal
    query.includeLeases = .ok collection
  fits : head.head.Fits

namespace ServedSnapshot

variable {host : SnapshotHost} {store : StoreReads} {query : SnapshotQuery}

def request (served : ServedSnapshot host store query) (after : Option Position) :
    SnapshotRequest :=
  ⟨query.goal, query.includeLeases, after, served.readback⟩

/-- The snapshot that every page is cut from. -/
def view (served : ServedSnapshot host store query) : SnapshotView :=
  snapshotView host store (served.request none) served.storeIdentity served.head served.collection

theorem sound (served : ServedSnapshot host store query) : served.view.Sound := by
  have fits : (Json.object (recordFields served.head.head)).Fits := by
    have whole := served.fits
    cases isObject : served.head.head with
    | object fields =>
      rw [isObject] at whole
      exact whole
    | _ => exact (Json.fits_object _).mpr fun f mem => by cases mem
  obtain ⟨todos, todoBound, leases, leaseBound⟩ :=
    canonicalTodoCollection_spec served.collected fits
  exact ⟨rfl, rfl, todos, leases, todoBound, leaseBound⟩

theorem snapshot_named (served : ServedSnapshot host store query) :
    served.view.snapshot.Named := by
  obtain ⟨storeIdentity, providerRevision, cursor⟩ := served.named
  exact ⟨served.goal, storeIdentity, providerRevision, cursor, isStoreId_digest _ _⟩

private theorem decodeSnapshotRequest_json (served : ServedSnapshot host store query) {after : Json}
    {position : Option Position} (decoded : decodePosition after = .ok position) :
    decodeSnapshotRequest (query.json after) = .ok (served.request position) := by
  have object : decoding (requireJsonObject (some (query.json after))
      "canonical snapshot request") = .ok (recordFields (query.json after)) := rfl
  have exact_ : hasExactAuthorityKeys (recordFields (query.json after)) REQUEST_FIELDS = true :=
    decide_eq_true rfl
  rw [decodeSnapshotRequest, object]
  dsimp only [Bind.bind, Except.bind]
  rw [throwWhen_of_not (by
    rw [exact_]
    simp [SnapshotQuery.json, recordFields])]
  simp only [SnapshotQuery.json, recordFields, List.lookup_cons, String.reduceBEq, beq_self_eq_true,
    includeLeases?, Option.getD_some]
  rw [decoding_storeId served.goal, decoded, served.readable]
  rfl

/-- A read from a position gives the page that is chosen there. -/
theorem read_page (served : ServedSnapshot host store query) (alone : served.view.FitsAlone)
    (completeBytes : Nat) {start : Nat} {after : Option Position}
    (starts : SnapshotView.StartsAt served.view start after) :
    ∃ size, readCanonicalSnapshotFromStore host store (query.json (positionJson after))
        completeBytes = .ok (.page (served.view.pageAt start size)) ∧
      (SnapshotView.LongestPage served.view start size ∨
        SnapshotView.CompletePage served.view completeBytes start size) := by
  obtain ⟨size, chosen, right⟩ :=
    SnapshotView.choosePage_spec served.sound alone completeBytes starts
  refine ⟨size, ?_, right⟩
  have decoded : decodePosition (positionJson after) = .ok after := by
    cases starts with
    | beginning => rfl
    | continued pos before =>
      exact decodePosition_positionAt served.sound served.snapshot_named pos before
  have named : ∀ position ∈ after, position.snapshot = served.view.snapshot := by
    intro position mem
    cases starts with
    | beginning => cases mem
    | continued _ _ =>
      rw [← Option.some.inj mem]
      rfl
  have same : sameSnapshot host (served.request after) served.storeIdentity served.head := by
    intro position mem
    rw [named position mem]
    rfl
  have population : ¬∃ position ∈ (served.request after).after,
      ¬(position.snapshot.todoCount = served.view.snapshot.todoCount ∧
        position.snapshot.leaseCount = served.view.snapshot.leaseCount) := by
    rintro ⟨position, mem, differs⟩
    rw [named position mem] at differs
    exact differs ⟨rfl, rfl⟩
  rw [readCanonicalSnapshotFromStore, decodeSnapshotRequest_json served decoded]
  dsimp only [Bind.bind, Except.bind]
  rw [served.identity, served.loaded]
  dsimp only
  rw [readLoaded, throwWhen_of_not (not_not.mpr same)]
  dsimp only [Bind.bind, Except.bind]
  rw [show canonicalTodoCollection host.acceptance (recordFields served.head.head)
    (served.request after).goal (served.request after).includeLeases = .ok served.collection from
    served.collected]
  have isView : snapshotView host store (served.request after) served.storeIdentity served.head
      served.collection = served.view := rfl
  simp only [decoding, Except.mapError, isView]
  rw [throwWhen_of_not population, served.unchanged, throwWhen_of_not (fun differs => differs rfl)]
  dsimp only
  rw [show (served.request after).after = after from rfl, chosen]

end ServedSnapshot

/-! ## The records of a read -/

inductive SnapshotRecord where
  | todo (record : Json)
  | lease (record : Json)

/-- The records of a page: its Todos and then its leases. -/
def SnapshotPage.records (page : SnapshotPage) : List SnapshotRecord :=
  page.todos.map .todo ++ (page.leases.getD []).map .lease

namespace SnapshotView

variable {view : SnapshotView}

/-- All records of the snapshot: the Todos in the order of their ids and then the leases. -/
def records (view : SnapshotView) : List SnapshotRecord :=
  (view.collection.todoIds.map view.todoRecord).map .todo ++
    ((view.collection.leases.map fun leases =>
      view.collection.leaseTodoIds.map (leaseRecord leases)).getD []).map .lease

theorem records_pageAt {start size : Nat} :
    (view.pageAt start size).records = (view.records.drop start).take size := by
  simp only [SnapshotPage.records, records, pageAt, todosAt, leasesAt]
  cases leases : view.collection.leases with
  | none =>
    simp [List.map_take, List.map_drop]
  | some stored =>
    simp only [Option.map_some, Option.getD_some, List.map_take, List.map_drop, List.drop_append,
      List.take_append, List.length_map, List.length_drop, List.map_map]

/-- Pages that follow one another to the end, each as long as it may be, each continuation
accepted. -/
inductive PagesFrom (view : SnapshotView) (completeBytes : Nat) : Nat → List SnapshotPage → Prop
  | last {start size : Nat} :
      (LongestPage view start size ∨ CompletePage view completeBytes start size) →
      start + size = view.total → (view.pageAt start size).next = none →
      PagesFrom view completeBytes start [view.pageAt start size]
  | more {start size : Nat} {pages : List SnapshotPage} :
      LongestPage view start size → 0 < size → start + size < view.total →
      (view.pageAt start size).next = some (view.positionAt (start + size)) →
      decodePosition (view.positionAt (start + size)).json =
        .ok (some (view.positionAt (start + size))) →
      PagesFrom view completeBytes (start + size) pages →
      PagesFrom view completeBytes start (view.pageAt start size :: pages)

/-- The pages hold each of the remaining records once, in order. -/
theorem PagesFrom.records {completeBytes start : Nat} {pages : List SnapshotPage}
    (h : PagesFrom view completeBytes start pages) (counted : view.records.length = view.total) :
    pages.flatMap SnapshotPage.records = view.records.drop start := by
  induction h with
  | @last start size _ ends _ =>
    rw [List.flatMap_singleton, records_pageAt, List.take_of_length_le]
    rw [List.length_drop]
    omega
  | @more start size pages _ _ _ _ _ _ ih =>
    rw [List.flatMap_cons, ih, records_pageAt, ← List.drop_drop, List.take_append_drop]

end SnapshotView

namespace ServedSnapshot

variable {host : SnapshotHost} {store : StoreReads} {query : SnapshotQuery}

private theorem follow_last {completeBytes fuel : Nat} {after : Option Position}
    {page : SnapshotPage} (read : readCanonicalSnapshotFromStore host store
      (query.json (positionJson after)) completeBytes = .ok (.page page))
    (next : page.next = none) :
    followSnapshot host store query completeBytes (fuel + 1) (positionJson after) =
      some [page] := by
  unfold followSnapshot
  rw [read]
  dsimp only
  rw [next]

private theorem follow_more {completeBytes fuel : Nat} {after : Option Position}
    {page : SnapshotPage} {position : Position} {pages : List SnapshotPage}
    (read : readCanonicalSnapshotFromStore host store (query.json (positionJson after))
      completeBytes = .ok (.page page)) (next : page.next = some position)
    (rest : followSnapshot host store query completeBytes fuel position.json = some pages) :
    followSnapshot host store query completeBytes (fuel + 1) (positionJson after) =
      some (page :: pages) := by
  unfold followSnapshot
  rw [read]
  dsimp only
  rw [next]
  dsimp only
  rw [rest]
  rfl

/-- From every position, enough reads reach the end. -/
theorem followSnapshot_from (served : ServedSnapshot host store query)
    (alone : served.view.FitsAlone) (completeBytes remaining : Nat) {start : Nat}
    {after : Option Position} (starts : SnapshotView.StartsAt served.view start after)
    (short : served.view.total - start ≤ remaining) :
    ∃ pages, (∀ fuel, remaining < fuel →
        followSnapshot host store query completeBytes fuel (positionJson after) = some pages) ∧
      SnapshotView.PagesFrom served.view completeBytes start pages := by
  induction remaining using Nat.strong_induction_on generalizing start after with
  | h remaining ih =>
    obtain ⟨size, read, right⟩ := served.read_page alone completeBytes starts
    by_cases ends : start + size = served.view.total
    · have next : (served.view.pageAt start size).next = none := if_pos ends
      refine ⟨_, fun fuel enough => ?_, .last right ends next⟩
      obtain ⟨fuel, rfl⟩ := Nat.exists_eq_succ_of_ne_zero (Nat.ne_zero_of_lt enough)
      exact follow_last read next
    · have next : (served.view.pageAt start size).next =
          some (served.view.positionAt (start + size)) := if_neg ends
      have longest := right.resolve_right fun complete => ends complete.ends
      have within := longest.within
      have before : start + size < served.view.total := Nat.lt_of_le_of_ne within ends
      have progress : 0 < size :=
        longest.progress (Nat.lt_of_le_of_lt (Nat.le_add_right _ _) before)
      have pos : 0 < start + size := Nat.add_pos_right _ progress
      have accepted := decodePosition_positionAt served.sound served.snapshot_named pos before
      obtain ⟨pages, followed, rest⟩ :=
        ih (remaining - 1) (by omega) (.continued pos before) (by omega)
      refine ⟨_, fun fuel enough => ?_, .more longest progress before next accepted rest⟩
      obtain ⟨fuel, rfl⟩ := Nat.exists_eq_succ_of_ne_zero (Nat.ne_zero_of_lt enough)
      exact follow_more read next (followed fuel (by omega))

theorem length_records (served : ServedSnapshot host store query) :
    served.view.records.length = served.view.total := by
  simp only [SnapshotView.records, SnapshotView.total, List.length_append, List.length_map]
  cases leases : served.view.collection.leases with
  | none => simp [TodoCollection.leaseTodoIds, leases]
  | some stored => simp

/-- Both parts of the snapshot are in the order of their ids, each id once. -/
structure Ordered (served : ServedSnapshot host store query) : Prop where
  todos : served.collection.todoIds.Pairwise (· < ·)
  todoIds : served.collection.todoIds.Perm (keys served.collection.todos)
  leases : served.collection.leaseTodoIds.Pairwise (· < ·)
  leaseIds : ∀ leases, served.collection.leases = some leases →
    served.collection.leaseTodoIds.Perm (keys leases)

theorem ordered (served : ServedSnapshot host store query) : served.Ordered := by
  have sound := served.sound
  obtain ⟨perm, _, sorted⟩ := sortedIds_spec sound.todos
  refine ⟨sorted, perm, ?_, fun leases found => ?_⟩
  · cases found : served.collection.leases with
    | none =>
      rw [TodoCollection.leaseTodoIds, found]
      exact List.Pairwise.nil
    | some leases =>
      rw [TodoCollection.leaseTodoIds, found]
      exact (sortedIds_spec (sound.leases leases found)).2.2
  · rw [TodoCollection.leaseTodoIds, found]
    exact (sortedIds_spec (sound.leases leases found)).1

end ServedSnapshot

/-- Following the continuations of an unchanged head ends, and reads the sorted Todos and then the
sorted leases, each once, in pages that are as long as they may be. -/
theorem followSnapshot_reads_once (host : SnapshotHost) (store : StoreReads)
    (query : SnapshotQuery) (served : ServedSnapshot host store query)
    (alone : served.view.FitsAlone) (completeBytes : Nat) :
    ∃ pages, (∀ fuel, served.view.total < fuel →
        followSnapshot host store query completeBytes fuel .null = some pages) ∧
      SnapshotView.PagesFrom served.view completeBytes 0 pages ∧
      pages.flatMap SnapshotPage.records = served.view.records ∧ served.Ordered := by
  obtain ⟨pages, followed, right⟩ :=
    served.followSnapshot_from alone completeBytes served.view.total .beginning (Nat.sub_le _ _)
  refine ⟨pages, followed, right, ?_, served.ordered⟩
  rw [right.records served.length_records, List.drop_zero]

/-- A host whose heads have no acceptance contract. -/
def plainHost : SnapshotHost where
  sha := Sha256.node
  acceptance := fun _ _ => ⟨.ok [], .ok (.object []), .ok .null, fun _ => none⟩

/-- A head of two Todos and one lease. -/
def smallHead : AuthorityStoreHead where
  head := .object [("goal_id", .string "goal"),
    ("todos", .array [.object [("todo_id", .string "todo_a"), ("title", .string "Plan")],
      .object [("todo_id", .string "todo_b"), ("title", .string "Build")]]),
    ("leases", .array [.object [("todo_id", .string "todo_b"), ("epoch", .number (.ofNat 1))]])]
  providerRevision := "file:1:aa"
  cursor := "1"

def smallStore : StoreReads where
  sourceAuthority := "file_v0"
  identity := .available "store"
  loaded := .loaded smallHead
  observedIdentity := .available "store"

def smallQuery : SnapshotQuery := ⟨.string "/tmp", "goal", true, .null⟩

private def smallFits (collection : TodoCollection) : Bool :=
  let view := snapshotView plainHost smallStore ⟨"goal", true, none, none⟩ "store" smallHead
    collection
  view.total = 3 && (List.range 3).all fun start =>
    byteBound (view.pageAt start 1).json ≤ CANONICAL_SNAPSHOT_PAGE_BYTES

/-- The small head is read whole. -/
theorem followSnapshot_reads_small :
    ∃ served : ServedSnapshot plainHost smallStore smallQuery, served.view.FitsAlone ∧
      ∃ pages, (∀ fuel, served.view.total < fuel →
          followSnapshot plainHost smallStore smallQuery 0 fuel .null = some pages) ∧
        SnapshotView.PagesFrom served.view 0 0 pages ∧
        pages.flatMap SnapshotPage.records = served.view.records ∧ served.Ordered := by
  have checked : (canonicalTodoCollection plainHost.acceptance (recordFields smallHead.head) "goal"
      true).toOption.any smallFits = true := by
    decide +kernel
  cases collected : canonicalTodoCollection plainHost.acceptance (recordFields smallHead.head)
      "goal" true with
  | error message =>
    rw [collected] at checked
    cases checked
  | ok collection =>
    rw [collected] at checked
    obtain ⟨three, small⟩ := Bool.and_eq_true_iff.mp checked
    let served : ServedSnapshot plainHost smallStore smallQuery :=
      { readback := none
        storeIdentity := "store"
        head := smallHead
        collection := collection
        goal := by decide
        readable := rfl
        identity := rfl
        loaded := rfl
        unchanged := rfl
        named := by decide
        collected := collected
        fits := by simp [smallHead, Json.Fits, Json.FitsItems, Json.FitsFields, maxArrayLength] }
    have total : served.view.total = 3 := of_decide_eq_true three
    have alone : served.view.FitsAlone := by
      intro start begun
      have inside : start < 3 := by omega
      have one : min 1 (served.view.total - start) = 1 := by omega
      rw [one]
      exact Nat.le_trans (byteLength_le_byteBound _)
        (of_decide_eq_true (List.all_eq_true.mp small start (List.mem_range.mpr inside)))
    exact ⟨served, alone, followSnapshot_reads_once plainHost smallStore smallQuery served alone 0⟩

end Loopx.Coordination
