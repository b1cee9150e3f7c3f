/- GID: Loopx/Lib/BinarySearch
   generality: G
   source: none
   digest: Binary search for the last number that fits. -/

import Mathlib.Tactic.Common

set_option autoImplicit false
set_option relaxedAutoImplicit false

namespace Loopx.Lib.BinarySearch

/-- Halve the range between a number that fits and one that need not. -/
def lastFitting (fits : Nat → Bool) (low high : Nat) : Nat :=
  if low < high then
    let middle := (low + high + 1) / 2
    if fits middle then lastFitting fits middle high else lastFitting fits low (middle - 1)
  else low
termination_by high - low

/-- The search finds the last number that fits, where every smaller number fits too. -/
theorem lastFitting_spec {fits : Nat → Bool} {low high : Nat} (ordered : low ≤ high)
    (start : fits low = true)
    (downward : ∀ i j, i ≤ j → j ≤ high → fits j = true → fits i = true) :
    lastFitting fits low high ≤ high ∧ fits (lastFitting fits low high) = true ∧
      ∀ j, lastFitting fits low high < j → j ≤ high → fits j = false := by
  induction low, high using lastFitting.induct fits with
  | case1 low high open_ middle fitting ih =>
    have inside : middle ≤ high := by
      simp only [middle]
      omega
    rw [lastFitting, if_pos open_, if_pos fitting]
    exact ih inside fitting downward
  | case2 low high open_ middle beyond ih =>
    have inside : low ≤ middle - 1 ∧ middle ≤ high ∧ 0 < middle := by
      simp only [middle]
      omega
    rw [lastFitting, if_pos open_, if_neg beyond]
    obtain ⟨le, fitting, later⟩ := ih inside.1 start fun i j le le' => downward i j le (by omega)
    refine ⟨Nat.le_trans le (by omega), fitting, fun j gt le' => ?_⟩
    by_cases below : j ≤ middle - 1
    · exact later j gt below
    · exact Bool.eq_false_iff.mpr fun fits' => beyond (downward middle j (by omega) le' fits')
  | case3 low high closed =>
    rw [lastFitting, if_neg closed]
    exact ⟨ordered, start, fun j gt le => by omega⟩

end Loopx.Lib.BinarySearch
