/- GID: Loopx/Lib/Decimal
   generality: G
   digest: Decimal texts without leading zeros and the numbers they name. -/

import Mathlib.Data.List.Induction
import Mathlib.Tactic.IntervalCases

set_option autoImplicit false
set_option relaxedAutoImplicit false

namespace Loopx.Lib.Decimal

theorem isDigit_toDigits {c : Nat} {d : Char} (h : d ∈ Nat.toDigits 10 c) :
    d.isDigit = true :=
  Nat.isDigit_of_mem_toDigits (by norm_num) (by norm_num) h

theorem head?_toDigits_ne_zero {c : Nat} (pos : 0 < c) :
    (Nat.toDigits 10 c).head? ≠ some '0' := by
  induction c using Nat.strongRecOn with
  | ind c ih =>
    by_cases small : c < 10
    · rw [Nat.toDigits_of_lt_base small]
      simp
      omega
    · rw [Nat.toDigits_of_base_le (by norm_num) (by omega)]
      have h := ih (c / 10) (by omega) (by omega)
      cases hd : Nat.toDigits 10 (c / 10) with
      | nil => exact absurd hd Nat.toDigits_ne_nil
      | cons d ds => simpa [hd] using h

private theorem digitChar_sub {c : Char} (h : c.isDigit = true) :
    c.toNat - '0'.toNat < 10 ∧ Nat.digitChar (c.toNat - '0'.toNat) = c := by
  have hrange : 48 ≤ c.toNat ∧ c.toNat ≤ 57 := Char.isDigit_iff_toNat.mp h
  obtain ⟨low, high⟩ := hrange
  have hc : Char.ofNat c.toNat = c := Char.ofNat_toNat c
  have hzero : '0'.toNat = 48 := rfl
  rw [hzero]
  refine ⟨by omega, ?_⟩
  generalize c.toNat = n at *
  subst hc
  interval_cases n <;> rfl

/-- A digit text without a leading zero is the decimal text of its value. -/
theorem toDigits_ofDigitChars {l : List Char} (digits : ∀ c ∈ l, c.isDigit = true)
    (head : l.head? ≠ some '0') (nonempty : l ≠ []) :
    0 < Nat.ofDigitChars 10 l 0 ∧ Nat.toDigits 10 (Nat.ofDigitChars 10 l 0) = l := by
  induction l using List.reverseRecOn with
  | nil => exact absurd rfl nonempty
  | append_singleton m c ih =>
    obtain ⟨small, hchar⟩ := digitChar_sub (digits c (by simp))
    have value : Nat.ofDigitChars 10 (m ++ [c]) 0 =
        10 * Nat.ofDigitChars 10 m 0 + (c.toNat - '0'.toNat) := by
      rw [Nat.ofDigitChars_append, Nat.ofDigitChars_cons, Nat.ofDigitChars_nil]
    by_cases hm : m = []
    · subst hm
      have hne : c ≠ '0' := by simpa using head
      have hpos : 0 < c.toNat - '0'.toNat := by
        rcases Nat.eq_zero_or_pos (c.toNat - '0'.toNat) with h | h
        · rw [h] at hchar
          exact absurd hchar.symm hne
        · exact h
      rw [value, Nat.ofDigitChars_nil]
      refine ⟨by omega, ?_⟩
      rw [Nat.mul_zero, Nat.zero_add, Nat.toDigits_of_lt_base small, hchar]
      rfl
    · have hhead : m.head? ≠ some '0' := by
        cases m with
        | nil => exact absurd rfl hm
        | cons d ds => simpa using head
      obtain ⟨pos, hdigits⟩ := ih (fun d hd => digits d (by simp [hd])) hhead hm
      rw [value]
      refine ⟨by omega, ?_⟩
      rw [Nat.toDigits_of_base_le (by norm_num) (by omega)]
      have hdiv : (10 * Nat.ofDigitChars 10 m 0 + (c.toNat - '0'.toNat)) / 10 =
          Nat.ofDigitChars 10 m 0 := by omega
      have hmod : (10 * Nat.ofDigitChars 10 m 0 + (c.toNat - '0'.toNat)) % 10 =
          c.toNat - '0'.toNat := by omega
      rw [hdiv, hmod, hdigits, hchar]

theorem repr_injective {m n : Nat} (h : m.repr = n.repr) : m = n := by
  have digits := congrArg String.toList h
  rw [Nat.toList_repr, Nat.toList_repr] at digits
  have value := congrArg (fun l => Nat.ofDigitChars 10 l 0) digits
  simpa only [Nat.ofDigitChars_ten_toDigits] using value

end Loopx.Lib.Decimal
