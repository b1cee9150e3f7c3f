/- GID: Loopx/Lib/FreshKeys
   generality: G
   digest: Items whose key was not counted before, and that repeating a counted item adds none. -/

import Mathlib.Data.List.Basic

set_option autoImplicit false
set_option relaxedAutoImplicit false

namespace Loopx.Lib.FreshKeys

variable {A K : Type} [DecidableEq K] (key : A → Option K) (counts : A → Bool)

/-- The keys counted after one more item. -/
def count (seen : List K) (a : A) : List K :=
  match key a with
  | some k => if counts a then k :: seen else seen
  | none => seen

/-- An item without a key is always fresh. -/
def isFresh (seen : List K) (a : A) : Bool :=
  match key a with
  | some k => k ∉ seen
  | none => true

/-- The fresh items, in order. A stale item is passed over and counts nothing. -/
def fresh : List K → List A → List A
  | _, [] => []
  | seen, a :: l =>
    if isFresh key seen a then a :: fresh (count key counts seen a) l else fresh seen l

/-- The keys counted by a list. -/
def counted : List K → List A → List K
  | seen, [] => seen
  | seen, a :: l => counted (if isFresh key seen a then count key counts seen a else seen) l

example : fresh some (fun n => n != 1) [] [1, 2, 1, 2] = [1, 2, 1] := by
  simp [fresh, isFresh, count]

example : counted some (fun n => n != 1) [] [1, 2, 1, 2] = [2] := by
  simp [counted, isFresh, count]

theorem fresh_append (seen : List K) (l l' : List A) :
    fresh key counts seen (l ++ l') =
      fresh key counts seen l ++ fresh key counts (counted key counts seen l) l' := by
  induction l generalizing seen with
  | nil => rfl
  | cons a l ih =>
    rw [List.cons_append, fresh, fresh, counted]
    split
    · rw [ih, List.cons_append]
    · exact ih seen

theorem fresh_sublist (seen : List K) (l : List A) : (fresh key counts seen l).Sublist l := by
  induction l generalizing seen with
  | nil => exact List.Sublist.refl _
  | cons a l ih =>
    rw [fresh]
    split
    · exact (ih _).cons_cons a
    · exact (ih _).cons a

omit [DecidableEq K] in
theorem subset_count (seen : List K) (a : A) : seen ⊆ count key counts seen a := by
  intro k hk
  unfold count
  split
  · split
    · exact List.mem_cons_of_mem _ hk
    · exact hk
  · exact hk

theorem subset_counted (seen : List K) (l : List A) : seen ⊆ counted key counts seen l := by
  induction l generalizing seen with
  | nil => exact fun k hk => hk
  | cons a l ih =>
    rw [counted]
    split
    · exact List.Subset.trans (subset_count key counts seen a) (ih _)
    · exact ih seen

/-- A counted item leaves its key among those counted. -/
theorem mem_counted {seen : List K} {l : List A} {a : A} {k : K} (mem : a ∈ l)
    (hk : key a = some k) (counting : counts a = true) : k ∈ counted key counts seen l := by
  induction l generalizing seen with
  | nil => cases mem
  | cons b l ih =>
    rw [counted]
    rcases List.mem_cons.1 mem with rfl | mem
    · apply subset_counted
      by_cases new : isFresh key seen a = true
      · rw [if_pos new, count, hk]
        simp [counting]
      · rw [if_neg new]
        simpa [isFresh, hk] using new
    · exact ih mem

/-- What is counted comes from the items, or was counted before. -/
theorem mem_of_counted {seen : List K} {l : List A} {k : K}
    (h : k ∈ counted key counts seen l) :
    k ∈ seen ∨ ∃ a ∈ l, key a = some k ∧ counts a = true := by
  induction l generalizing seen with
  | nil => exact .inl h
  | cons a l ih =>
    rw [counted] at h
    rcases ih h with old | ⟨b, hb, found⟩
    · split at old
      · unfold count at old
        split at old
        · rename_i j hj
          split at old
          · rename_i counting
            rcases List.mem_cons.1 old with rfl | old
            · exact .inr ⟨a, by simp, hj, counting⟩
            · exact .inl old
          · exact .inl old
        · exact .inl old
      · exact .inl old
    · exact .inr ⟨b, by simp [hb], found⟩

/-- Repeating a counted item further back changes nothing. -/
theorem fresh_repeat {a : A} {k : K} (hk : key a = some k) (counting : counts a = true)
    (seen : List K) (front middle back : List A) :
    fresh key counts seen (front ++ a :: middle ++ a :: back) =
      fresh key counts seen (front ++ a :: middle ++ back) := by
  rw [fresh_append key counts seen (front ++ a :: middle), fresh_append key counts seen
    (front ++ a :: middle)]
  congr 1
  have stale : k ∈ counted key counts seen (front ++ a :: middle) :=
    mem_counted key counts (by simp) hk counting
  rw [fresh, if_neg]
  simp [isFresh, hk, stale]

/-- A prefix of the fresh items are the fresh items of a prefix. -/
theorem exists_prefix_of_fresh {seen : List K} {l first rest : List A}
    (h : fresh key counts seen l = first ++ rest) :
    ∃ part, part <+: l ∧ fresh key counts seen part = first := by
  induction l generalizing seen first with
  | nil =>
    obtain ⟨rfl, -⟩ := List.append_eq_nil_iff.1 h.symm
    exact ⟨[], List.prefix_refl _, rfl⟩
  | cons a l ih =>
    cases first with
    | nil => exact ⟨[], List.nil_prefix, rfl⟩
    | cons b first =>
      rw [fresh] at h
      by_cases new : isFresh key seen a = true
      · rw [if_pos new, List.cons_append] at h
        obtain ⟨rfl, tail⟩ := List.cons.inj h
        obtain ⟨part, inside, hpart⟩ := ih tail
        refine ⟨a :: part, List.cons_prefix_cons.2 ⟨rfl, inside⟩, ?_⟩
        rw [fresh, if_pos new, hpart]
      · rw [if_neg new] at h
        obtain ⟨part, inside, hpart⟩ := ih h
        refine ⟨a :: part, List.cons_prefix_cons.2 ⟨rfl, inside⟩, ?_⟩
        rw [fresh, if_neg new, hpart]

/-- Where only some items count, those among the fresh ones are the fresh ones among those. -/
theorem filter_fresh (seen : List K) (l : List A) :
    (fresh key counts seen l).filter counts =
      fresh key (fun _ => true) seen (l.filter counts) := by
  induction l generalizing seen with
  | nil => rfl
  | cons a l ih =>
    rw [fresh]
    by_cases counting : counts a = true
    · rw [List.filter_cons_of_pos counting, fresh]
      have same : count key (fun _ => true) seen a = count key counts seen a := by
        unfold count
        rw [counting]
      split
      · rw [List.filter_cons_of_pos counting, ih, same]
      · exact ih seen
    · rw [List.filter_cons_of_neg counting]
      have same : count key counts seen a = seen := by
        unfold count
        split
        · exact if_neg counting
        · rfl
      split
      · rw [List.filter_cons_of_neg counting, same, ih]
      · exact ih seen

end Loopx.Lib.FreshKeys
