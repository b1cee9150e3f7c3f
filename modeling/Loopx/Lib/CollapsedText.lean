/- GID: Loopx/Lib/CollapsedText
   generality: G
   digest: Text in which every run of blanks is one separator, and stays so when cut or joined. -/

import Mathlib.Data.List.Chain
import Loopx.Lib.Strip

set_option autoImplicit false
set_option relaxedAutoImplicit false

namespace Loopx.Lib.CollapsedText

open Loopx.Lib.Strip (stripEnds stripEnds_eq_self_iff)

variable {α : Type} (p : α → Bool) (sep : α)

/-- The only blank is the separator, and no two of them are neighbours. -/
structure Collapsed (l : List α) : Prop where
  only : ∀ a ∈ l, p a = true → a = sep
  apart : l.IsChain fun a b => ¬(p a = true ∧ p b = true)

variable {p sep}

theorem Collapsed.nil : Collapsed p sep [] :=
  ⟨by simp, List.isChain_nil⟩

theorem Collapsed.within {l part : List α} (h : Collapsed p sep l) (inside : part <:+: l) :
    Collapsed p sep part :=
  ⟨fun a ha => h.only a (inside.subset ha), h.apart.infix inside⟩

theorem collapsed_cons {a : α} {l : List α} (only : p a = true → a = sep)
    (apart : ∀ b ∈ l.head?, ¬(p a = true ∧ p b = true)) (rest : Collapsed p sep l) :
    Collapsed p sep (a :: l) := by
  constructor
  · intro b hb
    rcases List.mem_cons.1 hb with rfl | hb
    · exact only
    · exact rest.only b hb
  · exact rest.apart.cons apart

/-- Collapsed text with no blank at its ends. -/
structure Compact (p : α → Bool) (sep : α) (l : List α) : Prop extends Collapsed p sep l where
  ends : stripEnds p l = l

theorem Compact.head {l : List α} (h : Compact p sep l) {a : α} (first : a ∈ l.head?) :
    p a = false :=
  (stripEnds_eq_self_iff.1 h.ends).1 a first

theorem Compact.last {l : List α} (h : Compact p sep l) {a : α} (last : a ∈ l.getLast?) :
    p a = false :=
  (stripEnds_eq_self_iff.1 h.ends).2 a last

/-- A part of compact text whose ends are no blanks is compact. -/
theorem Compact.part {l part : List α} (h : Compact p sep l) (inside : part <:+: l)
    (ends : stripEnds p part = part) : Compact p sep part :=
  { h.toCollapsed.within inside with ends }

/-- A word without blanks, one separator and compact text make compact text. -/
theorem Compact.append {word l : List α} (h : Compact p sep l) (nonempty : l ≠ [])
    (solid : ∀ a ∈ word, p a = false) (some_word : word ≠ []) :
    Compact p sep (word ++ sep :: l) := by
  have tail : Collapsed p sep (sep :: l) := by
    refine collapsed_cons (fun _ => rfl) ?_ h.toCollapsed
    rintro b first ⟨-, blank⟩
    rw [h.head first] at blank
    cases blank
  have whole : ∀ word : List α, (∀ a ∈ word, p a = false) →
      Collapsed p sep (word ++ sep :: l) := by
    intro word
    induction word with
    | nil => exact fun _ => tail
    | cons a word ih =>
      intro solid
      have here : p a = false := solid a (by simp)
      refine collapsed_cons ?_ ?_ (ih fun b hb => solid b (by simp [hb]))
      · intro blank
        rw [here] at blank
        cases blank
      · rintro b - ⟨blank, -⟩
        rw [here] at blank
        cases blank
  refine { whole word solid with ends := stripEnds_eq_self_iff.2 ⟨?_, ?_⟩ }
  · intro a first
    obtain ⟨b, word, rfl⟩ := List.exists_cons_of_ne_nil some_word
    obtain rfl : b = a := by simpa using first
    exact solid b (by simp)
  · intro a last
    rw [List.getLast?_append, List.getLast?_cons_of_ne_nil nonempty] at last
    obtain ⟨b, hb⟩ : ∃ b, l.getLast? = some b := by
      cases hl : l.getLast? with
      | none => exact absurd (List.getLast?_eq_none_iff.1 hl) nonempty
      | some b => exact ⟨b, rfl⟩
    rw [hb, Option.some_or] at last
    exact h.last (hb.trans last)

end Loopx.Lib.CollapsedText
