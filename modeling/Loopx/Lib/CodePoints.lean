/- GID: Loopx/Lib/CodePoints
   generality: G
   source: none
   digest: Strings of UTF-16 code units, with unpaired surrogates, read as code points. -/

import Mathlib.Data.List.Lex
import Mathlib.Data.String.Basic
import Mathlib.Tactic.NormNum

set_option autoImplicit false
set_option relaxedAutoImplicit false

namespace Loopx.Lib.CodePoints

/-- The code units of a string. A surrogate may stand in it unpaired. -/
abbrev Units := List UInt16

def isHigh (u : UInt16) : Bool := 0xD800 ≤ u.toNat && u.toNat < 0xDC00

def isLow (u : UInt16) : Bool := 0xDC00 ≤ u.toNat && u.toNat < 0xE000

def pairPoint (high low : UInt16) : Nat :=
  0x10000 + (high.toNat - 0xD800) * 0x400 + (low.toNat - 0xDC00)

/-- `codePointAt` on the rest of a string. -/
def codePointAt : Units → Nat
  | [] => 0
  | [u] => u.toNat
  | u :: v :: _ => if isHigh u && isLow v then pairPoint u v else u.toNat

/-- The code points of a string; an unpaired surrogate counts as one. -/
def points : Units → List Nat
  | [] => []
  | [u] => [u.toNat]
  | u :: v :: rest =>
    if isHigh u && isLow v then pairPoint u v :: points rest else u.toNat :: points (v :: rest)

/-- A code point that no character has. -/
def IsSurrogate (p : Nat) : Prop := 0xD800 ≤ p ∧ p < 0xE000

instance : DecidablePred IsSurrogate := fun _ => inferInstanceAs (Decidable (_ ∧ _))

def units (p : Nat) : Units :=
  if p < 0x10000 then [UInt16.ofNat p]
  else [UInt16.ofNat (0xD800 + (p - 0x10000) / 0x400),
    UInt16.ofNat (0xDC00 + (p - 0x10000) % 0x400)]

private theorem pair_bounds {u v : UInt16} (h : (isHigh u && isLow v) = true) :
    0xD800 ≤ u.toNat ∧ u.toNat < 0xDC00 ∧ 0xDC00 ≤ v.toNat ∧ v.toNat < 0xE000 := by
  simp only [isHigh, isLow, Bool.and_eq_true, decide_eq_true_eq] at h
  exact ⟨h.1.1, h.1.2, h.2.1, h.2.2⟩

private theorem pairPoint_lt {u v : UInt16} (h : (isHigh u && isLow v) = true) :
    pairPoint u v < 0x110000 := by
  obtain ⟨lowest, highest, lowest', highest'⟩ := pair_bounds h
  unfold pairPoint
  omega

private theorem units_pairPoint {u v : UInt16} (h : (isHigh u && isLow v) = true) :
    units (pairPoint u v) = [u, v] := by
  obtain ⟨lowest, highest, lowest', highest'⟩ := pair_bounds h
  have wide : ¬pairPoint u v < 0x10000 := by
    unfold pairPoint
    omega
  have high : 0xD800 + (pairPoint u v - 0x10000) / 0x400 = u.toNat := by
    unfold pairPoint
    omega
  have low : 0xDC00 + (pairPoint u v - 0x10000) % 0x400 = v.toNat := by
    unfold pairPoint
    omega
  rw [units, if_neg wide, high, low, UInt16.ofNat_toNat, UInt16.ofNat_toNat]

private theorem units_toNat (u : UInt16) : units u.toNat = [u] := by
  rw [units, if_pos u.toNat_lt, UInt16.ofNat_toNat]

theorem flatMap_units_points (s : Units) : (points s).flatMap units = s := by
  fun_induction points s with
  | case1 => rfl
  | case2 u => rw [List.flatMap_cons, units_toNat, List.flatMap_nil, List.append_nil]
  | case3 u v rest paired ih =>
    rw [List.flatMap_cons, units_pairPoint paired, ih, List.cons_append, List.singleton_append]
  | case4 u v rest alone ih => rw [List.flatMap_cons, units_toNat, ih, List.singleton_append]

/-- No two strings have the same code points. -/
theorem points_injective : Function.Injective points := by
  intro s t h
  rw [← flatMap_units_points s, h, flatMap_units_points]

theorem lt_of_mem_points {s : Units} {p : Nat} (h : p ∈ points s) : p < 0x110000 := by
  have narrow : ∀ u : UInt16, u.toNat < 0x110000 := fun u =>
    lt_of_lt_of_le u.toNat_lt (by norm_num)
  fun_induction points s with
  | case1 => cases h
  | case2 u =>
    obtain rfl := List.mem_singleton.mp h
    exact narrow u
  | case3 u v rest paired ih =>
    obtain same | h := List.mem_cons.mp h
    · exact same ▸ pairPoint_lt paired
    · exact ih h
  | case4 u v rest alone ih =>
    obtain rfl | h := List.mem_cons.mp h
    · exact narrow u
    · exact ih h

/-- How many units the code point at the front takes. -/
def width (p : Nat) : Nat := if 0xffff < p then 2 else 1

theorem points_of_ne_nil {s : Units} (h : s ≠ []) :
    points s = codePointAt s :: points (s.drop (width (codePointAt s))) := by
  have single : ∀ u : UInt16, width u.toNat = 1 := by
    intro u
    have : u.toNat < 65536 := u.toNat_lt
    exact if_neg (by omega)
  fun_cases points s with
  | case1 => exact absurd rfl h
  | case2 u => rw [codePointAt, single, List.drop_succ_cons, List.drop_zero, points]
  | case3 u v rest paired =>
    have double : width (pairPoint u v) = 2 := if_pos (by unfold pairPoint; omega)
    rw [codePointAt, if_pos paired, double, List.drop_succ_cons, List.drop_succ_cons,
      List.drop_zero]
  | case4 u v rest alone =>
    rw [codePointAt, if_neg alone, single, List.drop_succ_cons, List.drop_zero]

theorem width_pos (p : Nat) : 0 < width p := by
  unfold width
  split <;> omega

/-! ## Comparing code points -/

/-- The first difference of two lists of code points, or which of them is longer. -/
def comparePoints : List Nat → List Nat → Int
  | [], [] => 0
  | [], _ :: _ => -1
  | _ :: _, [] => 1
  | p :: ps, q :: qs => if p ≠ q then p - q else comparePoints ps qs

theorem comparePoints_neg (ps qs : List Nat) : comparePoints ps qs < 0 ↔ ps < qs := by
  fun_induction comparePoints ps qs with
  | case1 => simp
  | case2 => simp
  | case3 => simp
  | case4 p ps q qs differ =>
    rw [List.cons_lt_cons_iff]
    omega
  | case5 p ps q qs same ih =>
    rw [List.cons_lt_cons_iff, ih]
    obtain rfl : p = q := not_not.mp same
    simp

theorem comparePoints_swap (ps qs : List Nat) : comparePoints qs ps = -comparePoints ps qs := by
  fun_induction comparePoints ps qs with
  | case1 => rfl
  | case2 => rfl
  | case3 => rfl
  | case4 p ps q qs differ =>
    rw [comparePoints, if_pos (Ne.symm differ)]
    omega
  | case5 p ps q qs same ih => rw [comparePoints, if_neg (fun h => same h.symm), ih]

theorem comparePoints_eq_zero (ps qs : List Nat) : comparePoints ps qs = 0 ↔ ps = qs := by
  have left := comparePoints_neg ps qs
  have right := comparePoints_neg qs ps
  rw [comparePoints_swap] at right
  constructor
  · intro h
    refine le_antisymm (not_lt.mp fun lt => ?_) (not_lt.mp fun lt => ?_)
    · have := right.mpr lt
      omega
    · have := left.mpr lt
      omega
  · rintro rfl
    have least : ¬comparePoints ps ps < 0 := fun h => lt_irrefl ps (left.mp h)
    have most : ¬-comparePoints ps ps < 0 := fun h => lt_irrefl ps (right.mp h)
    omega

end Loopx.Lib.CodePoints
