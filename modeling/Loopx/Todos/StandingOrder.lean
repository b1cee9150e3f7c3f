/- GID: Loopx/Todos/StandingOrder
   generality: I
   source: loopx/control_plane/todos/standing_decision.ts
   digest: Which standing decisions depend on the order in which the store lists the receipts. -/

import Loopx.Todos.StandingDecision

set_option autoImplicit false
set_option relaxedAutoImplicit false

namespace Loopx.Todos

open Loopx.Json (authorityUnicodeCompare authorityUnicodeCompare_le_zero sortEntries sortKeys
  sortKeys_eq sortKeys_eq_iff)
open Loopx.Lib.Fallible
open Loopx.Lib.Grouping
open Loopx.Lib.KeyedList (keys)

/-! What `latest` selects. -/

/-- Ids tell the candidates apart. -/
def Apart (l : List Candidate) : Prop := ∀ a ∈ l, ∀ b ∈ l, a.id = b.id → a = b

theorem Apart.subset {l part : List Candidate} (h : Apart l) (inside : part ⊆ l) : Apart part :=
  fun a ha b hb => h a (inside ha) b (inside hb)

private theorem deterministic_eq (l : List Candidate) :
    deterministic l = (l.insertionSort fun a b => a.id ≤ b.id).getLast? := by
  have same : (fun a b : Candidate => authorityUnicodeCompare a.id b.id ≤ 0) =
      fun a b => a.id ≤ b.id := by
    funext a b
    exact propext (authorityUnicodeCompare_le_zero _ _)
  simp only [deterministic]
  congr

private theorem deterministic_perm {l l' : List Candidate} (perm : l.Perm l') (apart : Apart l) :
    deterministic l = deterministic l' := by
  rw [deterministic_eq, deterministic_eq, insertionSort_perm Candidate.id perm apart]

private theorem mem_of_deterministic {l : List Candidate} {c : Candidate}
    (h : deterministic l = some c) : c ∈ l := by
  rw [deterministic_eq] at h
  exact (le_getLast?_insertionSort Candidate.id h).1

private theorem outcomeCount_perm {l l' : List Candidate} (perm : l.Perm l') :
    outcomeCount l = outcomeCount l' := by
  unfold outcomeCount
  rw [(perm.filterMap _).dedup.length_eq, perm.countP_eq]

private theorem unanimous_perm {l l' : List Candidate} (perm : l.Perm l') (apart : Apart l) :
    unanimous l = unanimous l' := by
  rw [unanimous, unanimous, outcomeCount_perm perm, deterministic_perm perm apart]

/-- Where one of unanimous receipts has a text for its outcome, all have it. -/
private theorem outcome_of_unanimous {l : List Candidate} {c d : Candidate} {s : String}
    (h : unanimous l = some c) (hc : c.outcomeText? = some s) (hd : d ∈ l) :
    d.outcomeText? = some s := by
  obtain ⟨single, chosen⟩ := Option.ite_none_right_eq_some.1 h
  unfold outcomeCount at single
  have mem : ∀ c ∈ l, ∀ s, c.outcomeText? = some s →
      s ∈ (l.filterMap Candidate.outcomeText?).dedup :=
    fun c hc s hs => List.mem_dedup.2 (List.mem_filterMap.2 ⟨c, hc, hs⟩)
  have here := mem c (mem_of_deterministic chosen) s hc
  have pos := List.length_pos_of_mem here
  have one : (l.filterMap Candidate.outcomeText?).dedup.length = 1 := by omega
  have others : (l.countP fun c => c.outcomeText?.isNone) = 0 := by omega
  cases hd' : d.outcomeText? with
  | none => exact absurd (by rw [hd']; rfl) (List.countP_eq_zero.1 others d hd)
  | some t =>
    have there := mem d hd t hd'
    obtain ⟨only, honly⟩ := List.length_eq_one_iff.1 one
    rw [honly, List.mem_singleton] at here there
    rw [here, there]

private theorem newestTime_perm {l l' : List Candidate} (perm : l.Perm l') :
    newestTime l = newestTime l' := by
  have times := perm.filterMap Candidate.time
  unfold newestTime
  cases h : (l.filterMap Candidate.time).max? with
  | none =>
    rw [List.max?_eq_none_iff] at h
    rw [h] at times
    rw [List.perm_nil.1 times.symm]
    rfl
  | some t =>
    obtain ⟨mem, bound⟩ := List.max?_eq_some_iff.1 h
    refine (List.max?_eq_some_iff.2 ⟨times.subset mem, fun b hb => ?_⟩).symm
    exact bound b (times.symm.subset hb)

def supported (c : Candidate) : Bool := supportedSchema c.item

private theorem mapM_presentation (l : List Candidate) :
    (l.mapM fun c => todoPresentationMetadata c.item) =
      if l.all supported then .ok (l.map fun c => presentationOf c.item)
      else .error "Todo presentation metadata has unsupported Todo schema" := by
  induction l with
  | nil => rfl
  | cons c l ih =>
    rw [List.mapM_cons, ih, todoPresentationMetadata, List.all_cons]
    by_cases here : supportedSchema c.item = true
    · rw [if_pos here, ok_bind, supported, here, Bool.true_and]
      by_cases rest : l.all supported = true
      · rw [if_pos rest, if_pos rest]
        rfl
      · rw [if_neg rest, if_neg rest]
        rfl
    · rw [if_neg here, error_bind, if_neg]
      rw [supported, Bool.and_eq_true]
      exact fun all => here all.1

/-- The row has a source position. -/
private theorem positioned_spec {l : List Candidate}
    (h : positioned (l.map fun c => presentationOf c.item) = true) :
    (∀ c ∈ l, ∃ i, displayOrder c.item = some i) ∧
    (∀ c ∈ l, ∀ d ∈ l, displaySection c.item = displaySection d.item) ∧
    ∀ c ∈ l, ∀ d ∈ l, displayOrder c.item = displayOrder d.item → c = d := by
  simp only [positioned, Bool.and_eq_true, decide_eq_true_eq, List.map_map, List.all_map,
    List.length_map] at h
  obtain ⟨⟨indexed, one⟩, distinct⟩ := h
  refine ⟨fun c hc => ?_, fun c hc d hd => ?_, fun c hc d hd same => ?_⟩
  · have here := List.all_eq_true.1 indexed c hc
    simp only [Function.comp_apply, presentationOf, decide_eq_true_eq] at here
    exact Option.ne_none_iff_exists'.1 here.2
  · obtain ⟨only, honly⟩ := List.length_eq_one_iff.1 one
    have inside : ∀ c ∈ l, displaySection c.item = only := by
      intro c hc
      have mem : displaySection c.item ∈
          (l.map ((fun m => m.display_section) ∘ fun c => presentationOf c.item)).dedup :=
        List.mem_dedup.2 (List.mem_map.2 ⟨c, hc, rfl⟩)
      rw [honly] at mem
      exact List.mem_singleton.1 mem
    rw [inside c hc, inside d hd]
  · have nodup : (l.map ((fun m => m.display_order) ∘ fun c => presentationOf c.item)).Nodup := by
      rw [← List.dedup_eq_self]
      exact (List.dedup_sublist _).eq_of_length (by rw [distinct, List.length_map])
    exact List.inj_on_of_nodup_map nodup hc hd same

private theorem positioned_perm {l l' : List Candidate} (perm : l.Perm l') :
    positioned (l.map fun c => presentationOf c.item) =
      positioned (l'.map fun c => presentationOf c.item) := by
  have moved := perm.map fun c => presentationOf c.item
  unfold positioned
  rw [moved.all_eq, (moved.map _).dedup.length_eq, (moved.map _).dedup.length_eq, moved.length_eq]

/-- `latest` does not look at the order of its receipts. -/
theorem latest_perm {l l' : List Candidate} (perm : l.Perm l') (apart : Apart l) :
    latest l false = latest l' false := by
  unfold latest
  rw [perm.length_eq, perm.all_eq, perm.all_eq, newestTime_perm perm]
  split
  · rename_i single
    obtain ⟨c, rfl⟩ := List.length_eq_one_iff.1 single
    rw [List.perm_singleton.1 perm]
  · split
    · rw [unanimous_perm (perm.filter _) (apart.subset (List.filter_subset_self _))]
    · split
      · rw [if_neg Bool.false_ne_true, if_neg Bool.false_ne_true, mapM_presentation,
          mapM_presentation, perm.all_eq]
        split
        · rw [ok_bind, ok_bind, positioned_perm perm, unanimous_perm perm apart]
          split
          · rename_i sorted
            rw [← positioned_perm perm] at sorted
            obtain ⟨ordered, -, distinct⟩ := positioned_spec sorted
            rw [insertionSort_perm (fun c : Candidate => (displayOrder c.item).getD 0) perm]
            intro a ha b hb same
            obtain ⟨i, hi⟩ := ordered a ha
            obtain ⟨j, hj⟩ := ordered b hb
            rw [hi, hj] at same
            exact distinct a ha b hb (by rw [hi, hj]; exact congrArg some same)
          · rfl
        · rfl
      · rw [unanimous_perm perm apart]

/-- The order of two receipts of one scope is known, and the first is the older. -/
def Older (d c : Candidate) : Prop :=
  (∃ t t', d.time = some t ∧ c.time = some t' ∧ t < t') ∨
    (d.hasTime = false ∧ c.hasTime = false ∧ displaySection d.item = displaySection c.item ∧
      ∃ i j, displayOrder d.item = some i ∧ displayOrder c.item = some j ∧ i < j)

/-- What is selected is one of the receipts, and every receipt of another outcome is older. -/
theorem latest_spec {l : List Candidate} {c : Candidate} (h : latest l false = .ok (some c)) :
    c ∈ l ∧ ∀ s, c.outcomeText? = some s → ∀ d ∈ l, d.outcomeText? ≠ some s → Older d c := by
  unfold latest at h
  split at h
  · rename_i single
    obtain ⟨a, rfl⟩ := List.length_eq_one_iff.1 single
    obtain rfl : a = c := by simpa using h
    refine ⟨by simp, fun s hs d hd other => absurd ?_ other⟩
    rw [List.mem_singleton.1 hd]
    exact hs
  · split at h
    · rename_i timed
      have chosen := Except.ok.inj h
      have inside := mem_of_deterministic (Option.ite_none_right_eq_some.1 chosen).2
      obtain ⟨mem, newest⟩ := List.mem_filter.1 inside
      refine ⟨mem, fun s hs d hd other => .inl ?_⟩
      obtain ⟨t, ht⟩ := Option.isSome_iff_exists.1 (List.all_eq_true.1 timed d hd)
      obtain ⟨t', ht'⟩ := Option.isSome_iff_exists.1 (List.all_eq_true.1 timed c mem)
      have hmax : newestTime l = some t' := by simpa [ht'] using (of_decide_eq_true newest).symm
      have le := (List.max?_eq_some_iff.1 hmax).2 t (List.mem_filterMap.2 ⟨d, hd, ht⟩)
      refine ⟨t, t', ht, ht', lt_of_le_of_ne le ?_⟩
      rintro rfl
      apply other
      refine outcome_of_unanimous chosen hs (List.mem_filter.2 ⟨hd, ?_⟩)
      rw [hmax, ht]
      exact decide_eq_true rfl
    · split at h
      · rename_i timeless
        have noTime : ∀ d ∈ l, d.hasTime = false := by
          intro d hd
          simpa using List.all_eq_true.1 timeless d hd
        rw [if_neg Bool.false_ne_true, mapM_presentation] at h
        split at h
        · rw [ok_bind] at h
          split at h
          · rename_i sorted
            obtain ⟨ordered, sameSection, distinct⟩ := positioned_spec sorted
            obtain ⟨mem, last⟩ := le_getLast?_insertionSort
              (fun c : Candidate => (displayOrder c.item).getD 0) (Except.ok.inj h)
            refine ⟨mem, fun s hs d hd other => .inr ⟨noTime d hd, noTime c mem,
              sameSection d hd c mem, ?_⟩⟩
            obtain ⟨i, hi⟩ := ordered d hd
            obtain ⟨j, hj⟩ := ordered c mem
            have le := last d hd
            simp only [hi, hj, Option.getD_some] at le
            refine ⟨i, j, hi, hj, lt_of_le_of_ne le ?_⟩
            rintro rfl
            apply other
            rw [distinct d hd c mem (hi.trans hj.symm)]
            exact hs
          · have chosen := Except.ok.inj h
            refine ⟨mem_of_deterministic (Option.ite_none_right_eq_some.1 chosen).2,
              fun s hs d hd other => absurd (outcome_of_unanimous chosen hs hd) other⟩
        · cases h
      · have chosen := Except.ok.inj h
        refine ⟨mem_of_deterministic (Option.ite_none_right_eq_some.1 chosen).2,
          fun s hs d hd other => absurd (outcome_of_unanimous chosen hs hd) other⟩

/-! The scopes of a list of Todos. -/

/-- Every Todo has its own id. -/
def DistinctIds (items : List Fields) : Prop := (items.map fun item => item.lookup "todo_id").Nodup

def Candidate.scope (c : Candidate) : String := scopeIdentity c.item

/-- The scopes with receipts, in the order of the projection. -/
def scopes (items : List Fields) : List String :=
  sortKeys (keys (group Candidate.scope (standingCandidates items)))

/-- The receipts of a scope, in the order of the store. -/
def receiptsAt (items : List Fields) (scope : String) : List Candidate :=
  members Candidate.scope (standingCandidates items) scope

private theorem scopeGroups_eq (items : List Fields) :
    scopeGroups items false = (scopes items).map fun k => (k, receiptsAt items k) := by
  have perm : (sortEntries (group Candidate.scope (standingCandidates items))).Perm
      (group Candidate.scope (standingCandidates items)) := List.perm_insertionSort _ _
  have sorted : keys (sortEntries (group Candidate.scope (standingCandidates items))) =
      scopes items := List.map_insertionSort _ _ _ _ (fun _ _ _ _ => Iff.rfl)
  have whole := eq_map_members Candidate.scope perm
  rw [sorted] at whole
  exact whole

theorem mem_scopes {items : List Fields} {k : String} :
    k ∈ scopes items ↔ k ∈ (standingCandidates items).map Candidate.scope := by
  rw [scopes, sortKeys_eq, (List.perm_insertionSort _ _).mem_iff, mem_keys_group]

theorem nodup_scopes (items : List Fields) : (scopes items).Nodup := by
  rw [scopes, sortKeys_eq, (List.perm_insertionSort _ _).nodup_iff]
  exact nodup_keys_group _ _

theorem mem_receiptsAt {items : List Fields} {k : String} {c : Candidate} :
    c ∈ receiptsAt items k ↔ c ∈ standingCandidates items ∧ c.scope = k := by
  rw [receiptsAt, members, List.mem_filter, decide_eq_true_eq]

theorem receiptsAt_ne_nil {items : List Fields} {k : String} (h : k ∈ scopes items) :
    receiptsAt items k ≠ [] :=
  fun empty => (members_eq_nil _).1 empty (mem_scopes.1 h)

private theorem standingCandidates_perm {items items' : List Fields} (perm : items.Perm items') :
    (standingCandidates items).Perm (standingCandidates items') :=
  (perm.filter _).map _

private theorem scopes_perm {items items' : List Fields} (perm : items.Perm items') :
    scopes items = scopes items' :=
  sortKeys_eq_iff.2 (keys_group_perm _ (standingCandidates_perm perm))

private theorem receiptsAt_perm {items items' : List Fields} (perm : items.Perm items')
    (k : String) : (receiptsAt items k).Perm (receiptsAt items' k) :=
  members_perm _ (standingCandidates_perm perm) k

private theorem trimmedText_string {value : Option Json} (h : trimmedText value ≠ "") :
    ∃ s, value = some (.string s) := by
  cases value with
  | none => exact absurd rfl h
  | some value =>
    cases value with
    | string s => exact ⟨s, rfl⟩
    | _ => exact absurd rfl h

private theorem mem_standingCandidates {items : List Fields} {c : Candidate}
    (h : c ∈ standingCandidates items) :
    ∃ item ∈ items, c = candidate item ∧ ∃ id, item.lookup "todo_id" = some (.string id) := by
  obtain ⟨item, hitem, rfl⟩ := List.mem_map.1 h
  obtain ⟨mem, kept⟩ := List.mem_filter.1 hitem
  simp only [Bool.and_eq_true, decide_eq_true_eq] at kept
  exact ⟨item, mem, rfl, trimmedText_string kept.2⟩

theorem apart_standingCandidates {items : List Fields} (distinct : DistinctIds items) :
    Apart (standingCandidates items) := by
  intro a ha b hb same
  obtain ⟨item, hitem, rfl, id, hid⟩ := mem_standingCandidates ha
  obtain ⟨item', hitem', rfl, id', hid'⟩ := mem_standingCandidates hb
  have ids : id = id' := by
    change optionString (item.lookup "todo_id") = optionString (item'.lookup "todo_id") at same
    rw [hid, hid'] at same
    exact same
  have equal : item = item' := List.inj_on_of_nodup_map distinct hitem hitem' (by
    rw [hid, hid', ids])
  rw [equal]

/-- The standing receipt of a scope, as far as one is selected. -/
def standingAt (items : List Fields) (k : String) : Option Candidate :=
  ((latest (receiptsAt items k) false).toOption).getD none

private theorem latest_receiptsAt_perm {items items' : List Fields} (perm : items.Perm items')
    (distinct : DistinctIds items) (k : String) :
    latest (receiptsAt items k) false = latest (receiptsAt items' k) false :=
  latest_perm (receiptsAt_perm perm k)
    ((apart_standingCandidates distinct).subset (List.filter_subset_self _))

private theorem decideGroup_eq (items : List Fields) (k : String) :
    decideGroup false (k, receiptsAt items k) =
      (latest (receiptsAt items k) false).map fun s => (receiptsAt items k, s) := by
  rw [decideGroup]
  cases latest (receiptsAt items k) false <;> rfl

/-- The scopes are decided exactly where a receipt can be looked for in each. -/
theorem decidedScopes_eq_ok {items : List Fields} {decided : List Decided} :
    decidedScopes items false = .ok decided ↔
      (∀ k ∈ scopes items, latest (receiptsAt items k) false = .ok (standingAt items k)) ∧
      decided = (scopes items).map fun k => (receiptsAt items k, standingAt items k) := by
  have one : ∀ k d, decideGroup false (k, receiptsAt items k) = .ok d ↔
      latest (receiptsAt items k) false = .ok (standingAt items k) ∧
        d = (receiptsAt items k, standingAt items k) := by
    intro k d
    rw [decideGroup_eq, standingAt]
    cases latest (receiptsAt items k) false with
    | error e => simp [Except.map]
    | ok s =>
      simp only [Except.map, Except.ok.injEq, Except.toOption, Option.getD_some, true_and]
      exact eq_comm
  rw [decidedScopes, scopeGroups_eq, mapM_eq_ok, List.forall₂_map_left_iff]
  constructor
  · intro h
    obtain ⟨each, rows⟩ := (List.forall₂_and_left _ _).1 (h.imp fun k d => (one k d).1)
    refine ⟨each, ?_⟩
    have rows' := List.forall₂_map_left_iff.2 (rows.imp fun _ _ => Eq.symm)
    rw [List.forall₂_eq_eq_eq] at rows'
    exact rows'.symm
  · rintro ⟨each, rfl⟩
    rw [List.forall₂_map_right_iff, List.forall₂_same]
    exact fun k hk => (one k _).2 ⟨each k hk, rfl⟩

private theorem mapM_error {A B : Type} {f g : A → Plan B} {l : List A} {e : String}
    (same : ∀ a ∈ l, ∀ e, f a = .error e → g a = .error e)
    (fine : ∀ a ∈ l, ∀ b, f a = .ok b → ∃ b', g a = .ok b')
    (h : l.mapM f = .error e) : l.mapM g = .error e := by
  induction l with
  | nil => cases h
  | cons a l ih =>
    rw [List.mapM_cons] at h ⊢
    cases ha : f a with
    | error e' =>
      rw [ha] at h
      rw [same a (by simp) e' ha]
      exact h
    | ok b =>
      obtain ⟨b', hb'⟩ := fine a (by simp) b ha
      rw [ha, ok_bind] at h
      rw [hb', ok_bind]
      cases hl : l.mapM f with
      | error e' =>
        rw [hl] at h
        rw [ih (fun a ha => same a (by simp [ha])) (fun a ha => fine a (by simp [ha]))
          (hl.trans h)]
        rfl
      | ok rest =>
        rw [hl] at h
        cases h

/-- A projection that is refused is refused for every order of the Todos. -/
private theorem decidedScopes_error_perm {items items' : List Fields} (perm : items.Perm items')
    (distinct : DistinctIds items) {e : String} (h : decidedScopes items false = .error e) :
    decidedScopes items' false = .error e := by
  rw [decidedScopes, scopeGroups_eq, List.mapM_map] at h ⊢
  rw [← scopes_perm perm]
  refine mapM_error (fun k _ e' h' => ?_) (fun k _ d h' => ?_) h
  · simp only [Function.comp_apply] at h' ⊢
    rw [decideGroup_eq] at h' ⊢
    rw [← latest_receiptsAt_perm perm distinct]
    cases hl : latest (receiptsAt items k) false with
    | error e =>
      rw [hl] at h'
      exact h'
    | ok s =>
      rw [hl] at h'
      cases h'
  · simp only [Function.comp_apply] at h' ⊢
    rw [decideGroup_eq] at h' ⊢
    rw [← latest_receiptsAt_perm perm distinct]
    cases hl : latest (receiptsAt items k) false with
    | error e =>
      rw [hl] at h'
      cases h'
    | ok s => exact ⟨_, rfl⟩

/-! When the order of the store shows. -/

/-- The projection says the same for every order of the Todos. -/
def OrderFree (items : List Fields) : Prop :=
  ∀ items', items.Perm items' →
    projectStandingDecisions items' false = projectStandingDecisions items false

/-- The receipts of a scope agree on what a conflict says of it. -/
def HeadersAgree (items : List Fields) (k : String) : Prop :=
  ∀ c ∈ receiptsAt items k, ∀ d ∈ receiptsAt items k, conflictHeader c = conflictHeader d

private theorem conflict_injective {l l' : List Candidate} (h : conflict l = conflict l') :
    (l.head?.map conflictHeader).getD [] = (l'.head?.map conflictHeader).getD [] := by
  have fields := Json.object.inj h
  exact List.append_cancel_left (List.append_inj_left' fields rfl)

private theorem conflict_perm {l l' : List Candidate} (perm : l.Perm l')
    (agree : ∀ c ∈ l, ∀ d ∈ l, conflictHeader c = conflictHeader d) : conflict l = conflict l' := by
  have headers : (l.head?.map conflictHeader).getD [] = (l'.head?.map conflictHeader).getD [] := by
    cases l with
    | nil => rw [List.nil_perm.1 perm]
    | cons c l =>
      cases l' with
      | nil => exact absurd perm.length_eq (by simp)
      | cons d l' => exact agree c (by simp) d (perm.symm.subset (by simp))
  rw [conflict, conflict, headers, sortKeys_eq_iff.2 (perm.map Candidate.id)]

private theorem authorityJson_injective {entries entries' : List Candidate}
    {conflicts conflicts' : List Json}
    (h : authorityJson entries conflicts = authorityJson entries' conflicts') :
    conflicts = conflicts' := by
  have tails := List.append_inj_right (Json.object.inj h) rfl
  by_cases none : conflicts = []
  · by_cases none' : conflicts' = []
    · rw [none, none']
    · rw [if_pos none, if_neg none'] at tails
      cases tails
  · by_cases none' : conflicts' = []
    · rw [if_neg none, if_pos none'] at tails
      cases tails
    · rw [if_neg none, if_neg none'] at tails
      exact Json.array.inj (Prod.mk.inj (List.cons.inj (List.cons.inj tails).2).1).2

private theorem entriesOf_rows (ks : List String) (g : String → List Candidate)
    (v : String → Option Candidate) :
    entriesOf (ks.map fun k => (g k, v k)) = ks.filterMap v := by
  rw [entriesOf, List.filterMap_map]
  rfl

private theorem conflictsOf_rows (ks : List String) (g : String → List Candidate)
    (v : String → Option Candidate) :
    conflictsOf (ks.map fun k => (g k, v k)) =
      (ks.filter fun k => (v k).isNone).map fun k => conflict (g k) := by
  rw [conflictsOf, List.filter_map, List.map_map]
  rfl

private theorem project_eq {items : List Fields} {decided : List Decided}
    (h : decidedScopes items false = .ok decided) :
    projectStandingDecisions items false =
      .ok (if scopes items = [] then none
        else some (authorityJson (entriesOf decided) (conflictsOf decided))) := by
  rw [projectStandingDecisions, h, scopeGroups_eq]
  by_cases none : scopes items = []
  · rw [if_pos none, none]
    rfl
  · rw [if_neg none, if_neg (by simpa using none)]
    rfl

/-- Some scope holds a row whose schema the presentation does not know, where it is asked for. -/
def Refused (items : List Fields) : Prop :=
  ∃ k ∈ scopes items, ∃ e, latest (receiptsAt items k) false = .error e

/-- In every scope without a latest receipt the receipts agree on what the conflict says. -/
def ConflictsAgree (items : List Fields) : Prop :=
  ∀ k ∈ scopes items, latest (receiptsAt items k) false = .ok none → HeadersAgree items k

private theorem decided_or_refused (items : List Fields) :
    (∃ decided, decidedScopes items false = .ok decided) ∨ Refused items := by
  by_cases refused : Refused items
  · exact .inr refused
  · refine .inl ⟨_, decidedScopes_eq_ok.2 ⟨fun k hk => ?_, rfl⟩⟩
    cases h : latest (receiptsAt items k) false with
    | error e => exact absurd ⟨k, hk, e, h⟩ refused
    | ok s => rw [standingAt, h]; rfl

private theorem not_decided {items : List Fields} (refused : Refused items)
    (decided : List Decided) : decidedScopes items false ≠ .ok decided := by
  intro h
  obtain ⟨k, hk, e, he⟩ := refused
  rw [(decidedScopes_eq_ok.1 h).1 k hk] at he
  cases he

/-- Moving the Todo of a receipt to the front makes it the first of its scope. -/
private theorem head?_receiptsAt_moved {items : List Fields} {k : String} {c : Candidate}
    (h : c ∈ receiptsAt items k) :
    ∃ items', items.Perm items' ∧ (receiptsAt items' k).head? = some c := by
  obtain ⟨mem, hk⟩ := mem_receiptsAt.1 h
  obtain ⟨item, hitem, rfl⟩ := List.mem_map.1 mem
  obtain ⟨here, kept⟩ := List.mem_filter.1 hitem
  refine ⟨item :: items.erase item, List.perm_cons_erase here, ?_⟩
  have candidates : standingCandidates (item :: items.erase item) =
      candidate item :: standingCandidates (items.erase item) := by
    rw [standingCandidates, List.filter_cons, if_pos kept, List.map_cons]
    rfl
  rw [receiptsAt, candidates, members, List.filter_cons, if_pos (decide_eq_true hk)]
  rfl

theorem conflictsAgree_of_orderFree {items : List Fields} (distinct : DistinctIds items)
    (free : OrderFree items) : Refused items ∨ ConflictsAgree items := by
  rcases decided_or_refused items with ⟨decided, hdecided⟩ | refused
  · refine .inr fun k hk unresolved => ?_
    have first : ∀ c ∈ receiptsAt items k,
        conflictHeader c = ((receiptsAt items k).head?.map conflictHeader).getD [] := by
      intro c hc
      obtain ⟨items', perm, moved⟩ := head?_receiptsAt_moved hc
      obtain ⟨each, rfl⟩ := decidedScopes_eq_ok.1 hdecided
      have decided' : decidedScopes items' false = .ok ((scopes items').map fun k =>
          (receiptsAt items' k, standingAt items' k)) := by
        refine decidedScopes_eq_ok.2 ⟨fun k' hk' => ?_, rfl⟩
        rw [← scopes_perm perm] at hk'
        rw [standingAt, ← latest_receiptsAt_perm perm distinct, each k' hk']
        rfl
      have same := free items' perm
      rw [project_eq hdecided, project_eq decided', ← scopes_perm perm,
        if_neg (List.ne_nil_of_mem hk), if_neg (List.ne_nil_of_mem hk)] at same
      have conflicts := authorityJson_injective (Option.some.inj (Except.ok.inj same))
      have standing : ∀ k, standingAt items' k = standingAt items k := by
        intro k
        rw [standingAt, standingAt, latest_receiptsAt_perm perm distinct]
      rw [conflictsOf_rows, conflictsOf_rows] at conflicts
      simp only [standing] at conflicts
      have none : standingAt items k = none := by rw [standingAt, unresolved]; rfl
      have mem : k ∈ (scopes items).filter fun k => (standingAt items k).isNone :=
        List.mem_filter.2 ⟨hk, by rw [none]; rfl⟩
      have header := conflict_injective (List.map_inj_left.1 conflicts k mem)
      rw [moved] at header
      exact header
    intro c hc d hd
    rw [first c hc, first d hd]
  · exact .inl refused

theorem orderFree_of_conflictsAgree {items : List Fields} (distinct : DistinctIds items)
    (h : Refused items ∨ ConflictsAgree items) : OrderFree items := by
  intro items' perm
  rcases decided_or_refused items with ⟨decided, hdecided⟩ | refused
  · have agree : ConflictsAgree items := by
      rcases h with refused | agree
      · exact absurd hdecided (not_decided refused decided)
      · exact agree
    obtain ⟨each, rfl⟩ := decidedScopes_eq_ok.1 hdecided
    have standing : ∀ k, standingAt items' k = standingAt items k := by
      intro k
      rw [standingAt, standingAt, latest_receiptsAt_perm perm distinct]
    have decided' : decidedScopes items' false = .ok ((scopes items').map fun k =>
        (receiptsAt items' k, standingAt items' k)) := by
      refine decidedScopes_eq_ok.2 ⟨fun k hk => ?_, rfl⟩
      rw [← scopes_perm perm] at hk
      rw [standing, ← latest_receiptsAt_perm perm distinct, each k hk]
    rw [project_eq hdecided, project_eq decided', ← scopes_perm perm, entriesOf_rows,
      entriesOf_rows, conflictsOf_rows, conflictsOf_rows]
    simp only [standing]
    have conflicts : ((scopes items).filter fun k => (standingAt items k).isNone).map
          (fun k => conflict (receiptsAt items' k)) =
        ((scopes items).filter fun k => (standingAt items k).isNone).map
          fun k => conflict (receiptsAt items k) := by
      refine List.map_congr_left fun k hk => ?_
      obtain ⟨hk, open_⟩ := List.mem_filter.1 hk
      have unresolved : latest (receiptsAt items k) false = .ok none := by
        rw [each k hk, Option.isNone_iff_eq_none.1 open_]
      exact (conflict_perm (receiptsAt_perm perm k) (agree k hk unresolved)).symm
    rw [conflicts]
  · cases hdecided : decidedScopes items false with
    | ok decided => exact absurd hdecided (not_decided refused decided)
    | error e =>
      have some_scope : scopes items ≠ [] := by
        obtain ⟨k, hk, -⟩ := refused
        exact List.ne_nil_of_mem hk
      have opened : ∀ items', scopes items' ≠ [] → scopeGroups items' false ≠ [] := by
        intro items' some_scope
        rw [scopeGroups_eq]
        simpa using some_scope
      rw [projectStandingDecisions, projectStandingDecisions, hdecided,
        decidedScopes_error_perm perm distinct hdecided, if_neg (opened items some_scope),
        if_neg (opened items' (scopes_perm perm ▸ some_scope))]

/-! What stands, and that every scope is told once. -/

/-- The scopes of the entries and of the conflicts. -/
def outputScopes (decided : List Decided) : List String :=
  (entriesOf decided).map Candidate.scope ++
    (decided.filter fun d => d.2.isNone).filterMap fun d => d.1.head?.map Candidate.scope

private theorem outcome_candidate (item : Fields) :
    (candidate item).outcome = (item.lookup "decision_outcome").getD .null := by
  simp [Candidate.outcome, candidate, List.lookup_cons]

private theorem active_candidate (item : Fields) :
    (candidate item).active = true ↔ item.lookup "decision_outcome" = some (.string "approve") := by
  simp [Candidate.active, candidate, List.lookup_cons]

private theorem outcomeText?_candidate {item : Fields} {s : String} :
    (candidate item).outcomeText? = some s ↔ item.lookup "decision_outcome" = some (.string s) := by
  rw [Candidate.outcomeText?, outcome_candidate]
  cases item.lookup "decision_outcome" with
  | none => simp
  | some value => cases value <;> simp

/-- An active entry is an approval, and every receipt of its scope that is none is older. -/
theorem active_entry {items : List Fields} {decided : List Decided}
    (h : decidedScopes items false = .ok decided) {c : Candidate} (entry : c ∈ entriesOf decided)
    (active : c.active = true) :
    c.item.lookup "decision_outcome" = some (.string "approve") ∧
      ∀ d ∈ standingCandidates items, d.scope = c.scope →
        d.item.lookup "decision_outcome" ≠ some (.string "approve") → Older d c := by
  obtain ⟨each, rfl⟩ := decidedScopes_eq_ok.1 h
  rw [entriesOf_rows, List.mem_filterMap] at entry
  obtain ⟨k, hk, standing⟩ := entry
  have selected := each k hk
  rw [standing] at selected
  obtain ⟨mem, older⟩ := latest_spec selected
  obtain ⟨inside, hscope⟩ := mem_receiptsAt.1 mem
  obtain ⟨item, -, rfl, -⟩ := mem_standingCandidates inside
  have approves := (active_candidate item).1 active
  refine ⟨approves, fun d hd same other => ?_⟩
  obtain ⟨item', -, rfl, -⟩ := mem_standingCandidates hd
  refine older "approve" (outcomeText?_candidate.2 approves) _
    (mem_receiptsAt.2 ⟨hd, same.trans hscope⟩) fun hother => ?_
  exact other (outcomeText?_candidate.1 hother)

private theorem outputScopes_rows {items : List Fields}
    (each : ∀ k ∈ scopes items,
      latest (receiptsAt items k) false = .ok (standingAt items k)) :
    outputScopes ((scopes items).map fun k => (receiptsAt items k, standingAt items k)) =
      ((scopes items).filter fun k => (standingAt items k).isSome) ++
        (scopes items).filter fun k => (standingAt items k).isNone := by
  have entries : ∀ ks : List String, (∀ k ∈ ks, k ∈ scopes items) →
      (ks.filterMap (standingAt items)).map Candidate.scope =
        ks.filter fun k => (standingAt items k).isSome := by
    intro ks inside
    induction ks with
    | nil => rfl
    | cons k ks ih =>
      have rest := ih fun k' hk' => inside k' (by simp [hk'])
      have hk := inside k (by simp)
      cases standing : standingAt items k with
      | none =>
        rw [List.filterMap_cons_none standing, rest, List.filter_cons_of_neg (by simp [standing])]
      | some c =>
        have selected := each k hk
        rw [standing] at selected
        have hscope := (mem_receiptsAt.1 (latest_spec selected).1).2
        rw [List.filterMap_cons_some standing, List.map_cons, rest, hscope,
          List.filter_cons_of_pos (by simp [standing])]
  have conflicts : ∀ ks : List String, (∀ k ∈ ks, k ∈ scopes items) →
      ks.filterMap (fun k => (receiptsAt items k).head?.map Candidate.scope) = ks := by
    intro ks inside
    induction ks with
    | nil => rfl
    | cons k ks ih =>
      obtain ⟨c, rest, whole⟩ := List.exists_cons_of_ne_nil (receiptsAt_ne_nil (inside k (by simp)))
      have hscope := (mem_receiptsAt.1 (whole ▸ List.mem_cons_self : c ∈ receiptsAt items k)).2
      rw [List.filterMap_cons_some (b := k) (by rw [whole]; exact congrArg some hscope),
        ih fun k' hk' => inside k' (by simp [hk'])]
  rw [outputScopes, entriesOf_rows, entries _ fun _ h => h, List.filter_map, List.filterMap_map]
  exact congrArg _ (conflicts _ fun k hk => (List.mem_filter.1 hk).1)

/-- Every scope with receipts stands in the output once. -/
theorem outputScopes_spec {items : List Fields} {decided : List Decided}
    (h : decidedScopes items false = .ok decided) :
    (outputScopes decided).Nodup ∧
      ∀ k, k ∈ outputScopes decided ↔ ∃ c ∈ standingCandidates items, c.scope = k := by
  obtain ⟨each, rfl⟩ := decidedScopes_eq_ok.1 h
  have split : (((scopes items).filter fun k => (standingAt items k).isSome) ++
      (scopes items).filter fun k => (standingAt items k).isNone).Perm (scopes items) := by
    have none : (fun k => (standingAt items k).isNone) =
        fun k => !(standingAt items k).isSome := by
      funext k
      exact (Option.not_isSome _).symm
    rw [none]
    exact List.filter_append_perm _ _
  rw [outputScopes_rows each]
  refine ⟨split.nodup_iff.2 (nodup_scopes items), fun k => ?_⟩
  rw [split.mem_iff, mem_scopes, List.mem_map]

/-- What the projection promises of a list of Todos. -/
structure StandingDecisionsSound (items : List Fields) : Prop where
  orderFree : OrderFree items
  active : ∀ decided, decidedScopes items false = .ok decided → ∀ c ∈ entriesOf decided,
    c.active = true → c.item.lookup "decision_outcome" = some (.string "approve") ∧
      ∀ d ∈ standingCandidates items, d.scope = c.scope →
        d.item.lookup "decision_outcome" ≠ some (.string "approve") → Older d c
  once : ∀ decided, decidedScopes items false = .ok decided → (outputScopes decided).Nodup ∧
    ∀ k, k ∈ outputScopes decided ↔ ∃ c ∈ standingCandidates items, c.scope = k

private def gateReceipt (id outcome : String) (decision : Fields) : Fields :=
  [("schema_version", .string "todo_domain_record_v0"), ("todo_id", .string id),
    ("role", .string "user"), ("task_class", .string "user_gate"), ("status", .string "done"),
    ("decision_scope", .object ([("kind", .string "direction"), ("granularity", .string "goal"),
      ("scope_key", .string "api")] ++ decision)),
    ("decision_outcome", .string outcome), ("global_gate", .bool true)]

private def approval : Fields :=
  gateReceipt "todo_a" "approve" [("decision_id", .string "first")]

private def rejection : Fields := gateReceipt "todo_b" "reject" []

end Loopx.Todos
