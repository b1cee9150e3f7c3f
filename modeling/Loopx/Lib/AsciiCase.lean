/- GID: Loopx/Lib/AsciiCase
   generality: G
   digest: The case mappings of ASCII letters by their code points. -/

import Mathlib.Data.String.Basic

set_option autoImplicit false
set_option relaxedAutoImplicit false

namespace Loopx.Lib.AsciiCase

theorem isUpper_iff {c : Char} : c.isUpper = true ↔ 65 ≤ c.toNat ∧ c.toNat ≤ 90 := by
  change decide (c.val ≥ 'A'.val ∧ c.val ≤ 'Z'.val) = true ↔ _
  simp [UInt32.le_iff_toNat_le]

theorem isLower_iff {c : Char} : c.isLower = true ↔ 97 ≤ c.toNat ∧ c.toNat ≤ 122 := by
  change (decide (c.val ≥ 'a'.val) && decide (c.val ≤ 'z'.val)) = true ↔ _
  simp [UInt32.le_iff_toNat_le]

theorem toNat_toLower (c : Char) :
    c.toLower.toNat = if 65 ≤ c.toNat ∧ c.toNat ≤ 90 then c.toNat + 32 else c.toNat := by
  have range : (c.val ≥ 'A'.val ∧ c.val ≤ 'Z'.val) ↔ 65 ≤ c.toNat ∧ c.toNat ≤ 90 := by
    simp [UInt32.le_iff_toNat_le]
  unfold Char.toLower
  by_cases capital : c.val ≥ 'A'.val ∧ c.val ≤ 'Z'.val
  · have bounds := range.mp capital
    have value : c.val.toNat = c.toNat := rfl
    have shift : ('a'.val - 'A'.val).toNat = 32 := by decide
    rw [dif_pos capital, if_pos bounds]
    show (c.val + ('a'.val - 'A'.val)).toNat = _
    rw [UInt32.toNat_add]
    omega
  · rw [dif_neg capital, if_neg (fun bounds => capital (range.mpr bounds))]

theorem toNat_toUpper (c : Char) :
    c.toUpper.toNat = if 97 ≤ c.toNat ∧ c.toNat ≤ 122 then c.toNat - 32 else c.toNat := by
  have range : ('a'.val ≤ c.val ∧ c.val ≤ 'z'.val) ↔ 97 ≤ c.toNat ∧ c.toNat ≤ 122 := by
    simp [UInt32.le_iff_toNat_le]
  unfold Char.toUpper
  by_cases small : 'a'.val ≤ c.val ∧ c.val ≤ 'z'.val
  · have bounds := range.mp small
    have value : c.val.toNat = c.toNat := rfl
    have shift : ('A'.val - 'a'.val).toNat = 4294967264 := by decide
    rw [dif_pos small, if_pos bounds]
    show (c.val + ('A'.val - 'a'.val)).toNat = _
    rw [UInt32.toNat_add]
    omega
  · rw [dif_neg small, if_neg (fun bounds => small (range.mpr bounds))]

theorem toLower_toLower (c : Char) : c.toLower.toLower = c.toLower := by
  apply Char.toNat_inj.mp
  rw [toNat_toLower, toNat_toLower]
  repeat' split
  all_goals omega

theorem toLower_toUpper (c : Char) : c.toUpper.toLower = c.toLower := by
  apply Char.toNat_inj.mp
  rw [toNat_toLower, toNat_toLower, toNat_toUpper]
  repeat' split
  all_goals omega

theorem toLower_eq_self_iff {c : Char} : c.toLower = c ↔ c.isUpper = false := by
  rw [← Char.toNat_inj, toNat_toLower, Bool.eq_false_iff, ne_eq, isUpper_iff]
  split <;> omega

end Loopx.Lib.AsciiCase
