/- GID: Loopx/Lib/Gregorian
   generality: G
   source: none
   digest: Day numbers of the proleptic Gregorian calendar. -/

import Mathlib.Tactic.Common
import Mathlib.Tactic.IntervalCases
import Mathlib.Order.Monotone.Basic

set_option autoImplicit false
set_option relaxedAutoImplicit false

namespace Loopx.Lib.Gregorian

def IsLeap (year : Nat) : Prop := year % 4 = 0 ∧ (year % 100 ≠ 0 ∨ year % 400 = 0)

instance : DecidablePred IsLeap := fun _ => inferInstanceAs (Decidable (_ ∧ _))

def yearLength (year : Nat) : Nat := if IsLeap year then 366 else 365

def monthLength (year month : Nat) : Nat :=
  if month = 2 then (if IsLeap year then 29 else 28)
  else if month = 4 ∨ month = 6 ∨ month = 9 ∨ month = 11 then 30 else 31

/-- The days from the first of the year zero to the first of a year. -/
def daysBeforeYear : Nat → Nat
  | 0 => 0
  | year + 1 => daysBeforeYear year + yearLength year

/-- The days of a year before a month, counted from one. -/
def daysBeforeMonth (year : Nat) : Nat → Nat
  | 0 => 0
  | 1 => 0
  | month + 2 => daysBeforeMonth year (month + 1) + monthLength year (month + 1)

/-- A date of the calendar. -/
structure Date where
  year : Nat
  month : Nat
  day : Nat
  month_pos : 1 ≤ month
  month_le : month ≤ 12
  day_pos : 1 ≤ day
  day_le : day ≤ monthLength year month

/-- The number of a date, with the first of January of the year zero as zero. -/
def Date.number (date : Date) : Nat :=
  daysBeforeYear date.year + daysBeforeMonth date.year date.month + (date.day - 1)

/-- The first of January 1970. -/
def epoch : Nat := 719528

theorem daysBeforeYear_eq (year : Nat) : daysBeforeYear year + (year + 99) / 100 =
    365 * year + (year + 3) / 4 + (year + 399) / 400 := by
  induction year with
  | zero => rfl
  | succ year ih =>
    rw [daysBeforeYear, yearLength]
    by_cases leap : IsLeap year
    · rw [if_pos leap]
      unfold IsLeap at leap
      omega
    · rw [if_neg leap]
      unfold IsLeap at leap
      omega

theorem monthLength_bounds (year month : Nat) :
    28 ≤ monthLength year month ∧ monthLength year month ≤ 31 := by
  unfold monthLength
  split
  · split <;> omega
  · split <;> omega

theorem daysBeforeYear_lt {year year' : Nat} (h : year < year') :
    daysBeforeYear year + yearLength year ≤ daysBeforeYear year' := by
  induction h with
  | refl => exact le_rfl
  | step _ ih => exact ih.trans (Nat.le_add_right _ _)

theorem daysBeforeMonth_lt {year month month' : Nat} (pos : 1 ≤ month) (h : month < month') :
    daysBeforeMonth year month + monthLength year month ≤ daysBeforeMonth year month' := by
  induction h with
  | refl =>
    obtain ⟨month, rfl⟩ := Nat.exists_eq_add_of_le' pos
    exact le_rfl
  | @step month' below ih =>
    obtain ⟨k, rfl⟩ : ∃ k, month' = k + 1 :=
      Nat.exists_eq_add_of_le' (pos.trans (Nat.le_of_lt below))
    exact ih.trans (Nat.le_add_right _ _)

theorem daysBeforeMonth_thirteen (year : Nat) : daysBeforeMonth year 13 = yearLength year := by
  simp only [daysBeforeMonth, monthLength, yearLength]
  by_cases leap : IsLeap year
  · simp [leap]
  · simp [leap]

/-- A date stands within its year. -/
theorem Date.number_bounds (date : Date) : daysBeforeYear date.year ≤ date.number ∧
    date.number < daysBeforeYear (date.year + 1) := by
  have within : daysBeforeMonth date.year date.month + monthLength date.year date.month ≤
      yearLength date.year := by
    rw [← daysBeforeMonth_thirteen]
    exact daysBeforeMonth_lt date.month_pos (Nat.lt_succ_of_le date.month_le)
  have := date.day_pos
  have := date.day_le
  rw [Date.number, daysBeforeYear]
  omega

/-- The day after a date. -/
private theorem Date.exists_next (date : Date) : ∃ next : Date, next.number = date.number + 1 := by
  obtain ⟨year, month, day, month_pos, month_le, day_pos, day_le⟩ := date
  by_cases within : day < monthLength year month
  · refine ⟨⟨year, month, day + 1, month_pos, month_le, by omega, within⟩, ?_⟩
    simp only [Date.number]
    omega
  have last : day = monthLength year month := by omega
  by_cases more : month < 12
  · have long := (monthLength_bounds year (month + 1)).1
    refine ⟨⟨year, month + 1, 1, by omega, more, le_rfl, by omega⟩, ?_⟩
    obtain ⟨month, rfl⟩ := Nat.exists_eq_add_of_le' month_pos
    simp only [Date.number, daysBeforeMonth]
    omega
  · obtain rfl : month = 12 := by omega
    have long := (monthLength_bounds (year + 1) 1).1
    refine ⟨⟨year + 1, 1, 1, le_rfl, by omega, le_rfl, by omega⟩, ?_⟩
    have december : daysBeforeMonth year 12 + monthLength year 12 = yearLength year :=
      daysBeforeMonth_thirteen year
    have january : daysBeforeMonth (year + 1) 1 = 0 := rfl
    simp only [Date.number, daysBeforeYear, january]
    omega

/-- Every number is that of a date. -/
theorem Date.exists_number (n : Nat) : ∃ date : Date, date.number = n := by
  induction n with
  | zero => exact ⟨⟨0, 1, 1, le_rfl, by decide, le_rfl, by decide⟩, rfl⟩
  | succ n ih =>
    obtain ⟨date, rfl⟩ := ih
    exact date.exists_next

end Loopx.Lib.Gregorian
