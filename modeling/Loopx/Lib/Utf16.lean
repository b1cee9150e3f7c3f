/- GID: Loopx/Lib/Utf16
   generality: G
   source: none
   digest: UTF-16 code units of a text, and the order of texts by their code units. -/

import Mathlib.Data.List.Sort
import Mathlib.Data.List.Lex
import Mathlib.Data.String.Basic

set_option autoImplicit false
set_option relaxedAutoImplicit false

namespace Loopx.Lib.Utf16

/-- The code units of a character: one, or a surrogate pair. -/
def units (c : Char) : List Nat :=
  if c.toNat < 0x10000 then [c.toNat]
  else [0xD800 + (c.toNat - 0x10000) / 0x400, 0xDC00 + (c.toNat - 0x10000) % 0x400]

def codeUnits (text : List Char) : List Nat := text.flatMap units

/-- Texts compared by their code units. -/
def unitKey (text : String) : List Nat := codeUnits text.toList

def before (left right : String) : Bool := decide (unitKey left < unitKey right)

@[simp] theorem before_iff {left right : String} :
    before left right ↔ unitKey left < unitKey right :=
  decide_eq_true_iff

private theorem toNat_valid (c : Char) :
    c.toNat < 0xD800 ∨ 0xDFFF < c.toNat ∧ c.toNat < 0x110000 := by
  have valid := c.valid
  simp only [UInt32.isValidChar, Nat.isValidChar] at valid
  exact valid

/-- A text starts with the units of one character only. -/
private theorem units_append_inj {c d : Char} {left right : List Nat}
    (same : units c ++ left = units d ++ right) : c = d ∧ left = right := by
  have validC := toNat_valid c
  have validD := toNat_valid d
  have narrow : ∀ {a b : Char}, a.toNat < 0x10000 → ¬b.toNat < 0x10000 →
      a.toNat ≠ 0xD800 + (b.toNat - 0x10000) / 0x400 := by
    intro a b _ wide
    have := toNat_valid a
    have := toNat_valid b
    omega
  unfold units at same
  split at same <;> split at same <;>
    simp only [List.cons_append, List.nil_append, List.cons.injEq] at same
  · exact ⟨Char.toNat_inj.mp same.1, same.2⟩
  · exact absurd same.1 (narrow ‹_› ‹_›)
  · exact absurd same.1.symm (narrow ‹_› ‹_›)
  · refine ⟨Char.toNat_inj.mp ?_, same.2.2⟩
    have high := same.1
    have low := same.2.1
    omega

private theorem units_ne_nil (c : Char) : units c ≠ [] := by
  unfold units
  split <;> exact List.cons_ne_nil _ _

theorem codeUnits_injective : Function.Injective codeUnits := by
  intro left
  induction left with
  | nil =>
    rintro (_ | ⟨d, right⟩) same
    · rfl
    · simp only [codeUnits, List.flatMap_nil, List.flatMap_cons] at same
      exact absurd (List.append_eq_nil_iff.mp same.symm).1 (units_ne_nil d)
  | cons c left ih =>
    rintro (_ | ⟨d, right⟩) same
    · simp only [codeUnits, List.flatMap_nil, List.flatMap_cons] at same
      exact absurd (List.append_eq_nil_iff.mp same).1 (units_ne_nil c)
    · simp only [codeUnits, List.flatMap_cons] at same
      obtain ⟨rfl, rest⟩ := units_append_inj same
      rw [ih rest]

theorem unitKey_injective : Function.Injective unitKey := fun _ _ same =>
  String.toList_injective (codeUnits_injective same)

end Loopx.Lib.Utf16
