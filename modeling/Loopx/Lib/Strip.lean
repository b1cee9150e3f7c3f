/- GID: Loopx/Lib/Strip
   generality: G
   digest: Dropping a class of items from both ends of a list. -/

import Mathlib.Data.List.DropRight

set_option autoImplicit false
set_option relaxedAutoImplicit false

namespace Loopx.Lib.Strip

variable {α : Type}

def stripEnds (p : α → Bool) (l : List α) : List α :=
  ((l.dropWhile p).reverse.dropWhile p).reverse

theorem stripEnds_eq (p : α → Bool) (l : List α) :
    stripEnds p l = List.rdropWhile p (l.dropWhile p) := rfl

private theorem dropWhile_rdropWhile (p : α → Bool) {l : List α} (hl : l.dropWhile p = l) :
    (List.rdropWhile p l).dropWhile p = List.rdropWhile p l := by
  cases hr : List.rdropWhile p l with
  | nil => rfl
  | cons c cs =>
    have hstarts : (c :: cs) <+: l := by
      rw [← hr]
      exact List.rdropWhile_prefix p l
    obtain ⟨rest, rfl⟩ := hstarts
    have hc : p c = false := by
      cases hc : p c with
      | false => rfl
      | true =>
        rw [List.cons_append, List.dropWhile_cons_of_pos hc] at hl
        have hlength := congrArg List.length hl
        have hle := (List.dropWhile_suffix (l := cs ++ rest) p).length_le
        rw [List.length_cons] at hlength
        omega
    rw [List.dropWhile_cons_of_neg (by simp [hc])]

theorem stripEnds_idem (p : α → Bool) (l : List α) :
    stripEnds p (stripEnds p l) = stripEnds p l := by
  rw [stripEnds_eq, stripEnds_eq, dropWhile_rdropWhile p (List.dropWhile_idempotent p _),
    List.rdropWhile_idempotent]

theorem stripEnds_of_forall {p : α → Bool} {l : List α} (h : ∀ a ∈ l, p a = false) :
    stripEnds p l = l := by
  have hdrop : ∀ l' : List α, (∀ a ∈ l', p a = false) → l'.dropWhile p = l' := by
    intro l' h'
    cases l' with
    | nil => rfl
    | cons a l' => exact List.dropWhile_cons_of_neg (by simp [h' a (by simp)])
  have hreverse : ∀ a ∈ l.reverse, p a = false := fun a ha => h a (List.mem_reverse.mp ha)
  rw [stripEnds, hdrop l h, hdrop l.reverse hreverse, List.reverse_reverse]

/-- Nothing is dropped exactly where neither end has such an item. -/
theorem stripEnds_eq_self_iff {p : α → Bool} {l : List α} :
    stripEnds p l = l ↔
      (∀ a ∈ l.head?, p a = false) ∧ ∀ a ∈ l.getLast?, p a = false := by
  have front : l.dropWhile p = l ↔ ∀ a ∈ l.head?, p a = false := by
    cases l with
    | nil => simp
    | cons a l =>
      rw [List.dropWhile_eq_self_iff]
      simp
  have back : List.rdropWhile p l = l ↔ ∀ a ∈ l.getLast?, p a = false := by
    rw [List.rdropWhile_eq_self_iff]
    constructor
    · intro h a last
      obtain ⟨nonempty, rfl⟩ := List.mem_getLast?_eq_getLast last
      exact Bool.eq_false_iff.mpr (h nonempty)
    · intro h nonempty
      exact Bool.eq_false_iff.mp (h _ (List.getLast?_eq_some_getLast nonempty))
  rw [stripEnds_eq, ← front, ← back]
  constructor
  · intro whole
    have longer := (List.rdropWhile_prefix p (l.dropWhile p)).length_le
    rw [whole] at longer
    have kept := (List.dropWhile_suffix p).eq_of_length_le longer
    refine ⟨kept, ?_⟩
    rw [kept] at whole
    exact whole
  · rintro ⟨kept, whole⟩
    rw [kept, whole]

/-- An item that is not dropped is left. -/
theorem stripEnds_ne_nil {p : α → Bool} {l : List α} {a : α} (mem : a ∈ l)
    (kept : p a = false) : stripEnds p l ≠ [] := by
  intro empty
  rw [stripEnds_eq, List.rdropWhile_eq_nil_iff] at empty
  rw [← @List.takeWhile_append_dropWhile _ p l] at mem
  rcases List.mem_append.mp mem with front | rest
  · rw [List.mem_takeWhile_imp front] at kept
    cases kept
  · rw [empty a rest] at kept
    cases kept

end Loopx.Lib.Strip
