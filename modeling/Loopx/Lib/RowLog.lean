/- GID: Loopx/Lib/RowLog
   generality: G
   digest: Tables whose rows stay where they are, each changed by a relation of its own. -/

import Mathlib.Data.List.Basic
import Mathlib.Tactic.Common

set_option autoImplicit false
set_option relaxedAutoImplicit false

namespace Loopx.Lib.RowLog

variable {A : Type} {R S T : Nat → A → A → Prop} {before after later : List A}

/-- Every row of the first table still stands at its place in the second, related to what it was. -/
def Kept (R : Nat → A → A → Prop) (before after : List A) : Prop :=
  ∀ i a, before[i]? = some a → ∃ b, after[i]? = some b ∧ R i a b

theorem Kept.refl (h : ∀ i a, R i a a) (rows : List A) : Kept R rows rows :=
  fun i a found => ⟨a, found, h i a⟩

theorem Kept.trans (first : Kept R before after) (second : Kept S after later)
    (h : ∀ i a b c, before[i]? = some a → R i a b → S i b c → T i a c) : Kept T before later := by
  intro i a found
  obtain ⟨b, found', hab⟩ := first i a found
  obtain ⟨c, found'', hbc⟩ := second i b found'
  exact ⟨c, found'', h i a b c found hab hbc⟩

theorem Kept.mono (h : Kept R before after) (imp : ∀ i a b, before[i]? = some a → R i a b → S i a b) :
    Kept S before after := by
  intro i a found
  obtain ⟨b, found', hab⟩ := h i a found
  exact ⟨b, found', imp i a b found hab⟩

theorem kept_append (h : ∀ i a, R i a a) (rows rest : List A) : Kept R rows (rows ++ rest) := by
  intro i a found
  have inside : i < rows.length := (List.getElem?_eq_some_iff.mp found).1
  exact ⟨a, by rw [List.getElem?_append_left inside, found], h i a⟩

theorem kept_set (h : ∀ i a, R i a a) {rows : List A} {i : Nat} {a b : A}
    (found : rows[i]? = some a) (changed : R i a b) : Kept R rows (rows.set i b) := by
  intro j c found'
  by_cases same : i = j
  · subst same
    obtain rfl := Option.some.inj (found.symm.trans found')
    have inside : i < rows.length := (List.getElem?_eq_some_iff.mp found).1
    exact ⟨b, List.getElem?_set_self inside, changed⟩
  · exact ⟨c, by rw [List.getElem?_set_ne same, found'], h j c⟩

theorem Kept.length_le (h : Kept R before after) : before.length ≤ after.length := by
  by_contra shorter
  have inside : after.length < before.length := Nat.lt_of_not_le shorter
  obtain ⟨b, found, _⟩ := h after.length _ (List.getElem?_eq_getElem inside)
  rw [List.getElem?_eq_none (Nat.le_refl _)] at found
  cases found

/-- A row of a table after one change is the new row or one of the old ones. -/
theorem getElem?_set_cases {rows : List A} {i j : Nat} {b c : A}
    (found : (rows.set i b)[j]? = some c) : (i = j ∧ c = b) ∨ (i ≠ j ∧ rows[j]? = some c) := by
  by_cases same : i = j
  · subst same
    rw [List.getElem?_set] at found
    split at found
    · split at found
      · exact Or.inl ⟨rfl, (Option.some.inj found).symm⟩
      · cases found
    · exact Or.inr ⟨by contradiction, found⟩
  · exact Or.inr ⟨same, by rwa [List.getElem?_set_ne same] at found⟩

theorem getElem?_append_singleton_cases {rows : List A} {j : Nat} {b c : A}
    (found : (rows ++ [b])[j]? = some c) :
    (j = rows.length ∧ c = b) ∨ rows[j]? = some c := by
  rw [List.getElem?_append] at found
  split at found
  · exact Or.inr found
  · next outside =>
    obtain ⟨inside, same⟩ := List.getElem?_eq_some_iff.mp found
    rw [List.length_singleton] at inside
    rw [List.getElem_singleton] at same
    exact Or.inl ⟨by omega, same.symm⟩

end Loopx.Lib.RowLog
