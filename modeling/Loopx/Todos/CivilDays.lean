/- GID: Loopx/Todos/CivilDays
   generality: I
   source: loopx/control_plane/runtime_timestamp.ts
   digest: The day arithmetic of the codecs is that of the Gregorian calendar. -/

import Loopx.Lib.Gregorian
import Loopx.Todos.Timestamp

set_option autoImplicit false
set_option relaxedAutoImplicit false

namespace Loopx.Todos

open Loopx.Lib.Gregorian

theorem leapYear_iff (year : Nat) : leapYear year = true ↔ IsLeap year := by
  unfold leapYear IsLeap
  rw [decide_eq_true_eq]
  omega

theorem daysInMonth_eq (year month : Nat) : daysInMonth year month = monthLength year month := by
  unfold daysInMonth monthLength
  simp only [leapYear_iff, List.mem_cons, List.not_mem_nil, or_false]

/-- The days of a year before a month, written with the length of February. -/
private theorem daysBeforeMonth_eq (year : Nat) {month : Nat} (pos : 1 ≤ month) (le : month ≤ 12) :
    daysBeforeMonth year month = (if month ≤ 2 then 31 * (month - 1) else
      (153 * (month - 3) + 2) / 5 + 59 + (if IsLeap year then 1 else 0)) := by
  by_cases leap : IsLeap year
  · interval_cases month <;> simp [daysBeforeMonth, monthLength, leap]
  · interval_cases month <;> simp [daysBeforeMonth, monthLength, leap]

/-- The days of the years before a year, without the eras. -/
private theorem eras_eq (year day : Int) :
    year / 400 * 146097 + ((year - year / 400 * 400) * 365 + (year - year / 400 * 400) / 4 -
      (year - year / 400 * 400) / 100 + day) =
    365 * year + year / 4 - year / 100 + year / 400 + day := by
  have quarter : (year - year / 400 * 400) / 4 = year / 4 - 100 * (year / 400) := by omega
  have century : (year - year / 400 * 400) / 100 = year / 100 - 4 * (year / 400) := by omega
  rw [quarter, century]
  omega

/-- Rounding the year up and down differs by the leap day. -/
private theorem leapDay_eq (year : Nat) : (year + 3) / 4 + (year + 399) / 400 + year / 100 +
    (if IsLeap year then 1 else 0) = year / 4 + year / 400 + (year + 99) / 100 + 1 := by
  have quarter : (year + 3) / 4 = year / 4 + (if year % 4 = 0 then 0 else 1) := by
    split <;> omega
  have century : (year + 99) / 100 = year / 100 + (if year % 100 = 0 then 0 else 1) := by
    split <;> omega
  have era : (year + 399) / 400 = year / 400 + (if year % 400 = 0 then 0 else 1) := by
    split <;> omega
  have nested : year % 400 = 0 → year % 100 = 0 ∧ year % 4 = 0 := by omega
  have nested' : year % 100 = 0 → year % 4 = 0 := by omega
  rw [quarter, century, era]
  unfold IsLeap
  by_cases four : year % 4 = 0
  · by_cases hundred : year % 100 = 0
    · by_cases eras : year % 400 = 0
      · simp [four, hundred, eras]
      · simp [four, hundred, eras]
        omega
    · have eras : ¬year % 400 = 0 := fun h => hundred (nested h).1
      simp [four, hundred, eras]
      omega
  · have hundred : ¬year % 100 = 0 := fun h => four (nested' h)
    have eras : ¬year % 400 = 0 := fun h => hundred (nested h).1
    simp [four, hundred, eras]
    omega

/-- The day count of a date is its number, from the epoch on. -/
theorem daysFromCivil_number (date : Date) :
    daysFromCivil date.year date.month date.day = (date.number : Int) - epoch := by
  obtain ⟨year, month, day, month_pos, month_le, day_pos, -⟩ := date
  simp only [Date.number, daysFromCivil, epoch]
  rw [eras_eq, daysBeforeMonth_eq year month_pos month_le]
  by_cases early : month ≤ 2
  · -- January and February count into the year before
    have shifted : (153 * ((month + 9 : Nat) : Int) + 2) / 5 = 306 + 31 * (month - 1) := by omega
    have quarter : ((year : Int) - 1) / 4 = ((year + 3) / 4 : Nat) - 1 := by omega
    have century : ((year : Int) - 1) / 100 = ((year + 99) / 100 : Nat) - 1 := by omega
    have era : ((year : Int) - 1) / 400 = ((year + 399) / 400 : Nat) - 1 := by omega
    simp only [if_pos early]
    rw [shifted, quarter, century, era]
    have before := daysBeforeYear_eq year
    generalize (year + 3) / 4 = a at *
    generalize (year + 99) / 100 = b at *
    generalize (year + 399) / 400 = c at *
    omega
  · have shifted : (153 * ((month - 3 : Nat) : Int) + 2) / 5 =
        ((153 * (month - 3) + 2) / 5 : Nat) := rfl
    have quarter : (year : Int) / 4 = (year / 4 : Nat) := rfl
    have century : (year : Int) / 100 = (year / 100 : Nat) := rfl
    have era : (year : Int) / 400 = (year / 400 : Nat) := rfl
    simp only [if_neg early]
    rw [shifted, quarter, century, era]
    have before := daysBeforeYear_eq year
    have leapDay := leapDay_eq year
    generalize (153 * (month - 3) + 2) / 5 = m at *
    generalize (year + 3) / 4 = a at *
    generalize (year + 99) / 100 = b at *
    generalize (year + 399) / 400 = c at *
    generalize year / 4 = a' at *
    generalize year / 100 = b' at *
    generalize year / 400 = c' at *
    generalize (if IsLeap year then 1 else 0) = leap at *
    omega

/-- The day of a year of an era determines the year. -/
private theorem yearOfEra_eq {year day : Int} (nonneg : 0 ≤ year) (le : year ≤ 399)
    (day_nonneg : 0 ≤ day) (day_le : day ≤ 365)
    (leap : day = 365 → year % 4 = 3 ∧ (year % 100 ≠ 99 ∨ year = 399)) (ofEra : Int)
    (h : ofEra = year * 365 + year / 4 - year / 100 + day) :
    (ofEra - ofEra / 1460 + ofEra / 36524 - ofEra / 146096) / 365 = year := by
  have early : ofEra < 146096 ∨ ofEra = 146096 ∧ year = 399 ∧ day = 365 := by omega
  rcases early with early | ⟨rfl, rfl, rfl⟩
  · have whole : ofEra / 146096 = 0 := by omega
    have century : ofEra / 36524 = year / 100 := by omega
    have quarter : ofEra / 1460 = year / 4 ∨ (ofEra / 1460 = year / 4 + 1 ∧ 1 ≤ day) := by omega
    rw [whole, century]
    rcases quarter with quarter | ⟨quarter, later⟩
    · have short : day ≤ 364 := by omega
      omega
    · omega
  · decide

/-- A day of a month, counted from the first of March, determines month and day. -/
private theorem shiftedMonth_eq {shifted day : Int} (nonneg : 0 ≤ shifted) (le : shifted ≤ 11)
    (pos : 1 ≤ day) (day_le : day ≤ 31)
    (short : shifted ∈ [1, 3, 6, 8, 11] → day ≤ 30) (ofYear : Int)
    (h : ofYear = (153 * shifted + 2) / 5 + day - 1) : (5 * ofYear + 2) / 153 = shifted := by
  interval_cases shifted <;> simp at short <;> omega

/-- The longest day of a month counted from March. -/
private theorem day_bounds (date : Date) :
    (date.month ≠ 2 → date.day ≤ 31) ∧ (date.month = 2 → date.day ≤ 29) ∧
      (date.month ∈ [4, 6, 9, 11] → date.day ≤ 30) ∧
      (date.month = 2 → date.day = 29 → IsLeap date.year) := by
  have le := date.day_le
  have most := (monthLength_bounds date.year date.month).2
  unfold monthLength at le
  refine ⟨fun _ => by unfold monthLength at most; omega, fun february => ?_, fun short => ?_,
    fun february last => ?_⟩
  · rw [if_pos february] at le
    split at le <;> omega
  · simp only [List.mem_cons, List.not_mem_nil, or_false] at short
    rw [if_neg (by omega), if_pos short] at le
    exact le
  · rw [if_pos february, last] at le
    by_contra common
    rw [if_neg common] at le
    omega

/-- The date of a day count, read from what the count is made of. -/
private theorem civilFromDays_parts {era year day days : Int} {month : Nat} (nonneg : 0 ≤ year)
    (le : year ≤ 399) (month_le : month ≤ 11) (pos : 1 ≤ day) (day_le : day ≤ 31)
    (short : month ∈ [1, 3, 6, 8, 11] → day ≤ 30)
    (leap : month = 11 → day ≤ 29 ∧
      (day = 29 → year % 4 = 3 ∧ (year % 100 ≠ 99 ∨ year = 399)))
    (h : days + 719468 = era * 146097 +
      (year * 365 + year / 4 - year / 100 + ((153 * (month : Int) + 2) / 5 + day - 1))) :
    civilFromDays days = (year + era * 400 + (if 10 ≤ month then 1 else 0),
      if month < 10 then month + 3 else month - 9, day.toNat) := by
  have early : (153 * (month : Int) + 2) / 5 + day - 1 ≤ 365 := by omega
  generalize hday : (153 * (month : Int) + 2) / 5 + day - 1 = ofYear at h early
  have start : 0 ≤ ofYear := by omega
  have last : ofYear = 365 → year % 4 = 3 ∧ (year % 100 ≠ 99 ∨ year = 399) := by
    intro whole
    have february : month = 11 := by omega
    have := leap february
    exact this.2 (by omega)
  generalize hera : year * 365 + year / 4 - year / 100 + ofYear = ofEra at h
  have within : 0 ≤ ofEra ∧ ofEra < 146097 := by omega
  have eras : (era * 146097 + ofEra) / 146097 = era := by omega
  have rest : era * 146097 + ofEra - era * 146097 = ofEra := by omega
  have years := yearOfEra_eq nonneg le start early last ofEra hera.symm
  have days' : ofEra - (365 * year + year / 4 - year / 100) = ofYear := by omega
  have months := @shiftedMonth_eq month day (by omega) (by omega) pos day_le
    (fun mem => short (by
      simp only [List.mem_cons, List.not_mem_nil, or_false] at mem ⊢
      omega)) ofYear hday.symm
  have day' : ofYear - (153 * (month : Int) + 2) / 5 + 1 = day := by omega
  simp only [civilFromDays]
  rw [h, eras, rest, years, days', months, day']
  by_cases spring : month < 10
  · have later : ¬(month : Int) + 3 ≤ 2 := by omega
    rw [if_pos (by omega : (month : Int) < 10), if_neg later, if_pos spring,
      if_neg (by omega : ¬10 ≤ month)]
    exact Prod.ext rfl (Prod.ext (by simp only; omega) rfl)
  · have sooner : (month : Int) - 9 ≤ 2 := by omega
    rw [if_neg (by omega : ¬(month : Int) < 10), if_pos sooner, if_neg spring,
      if_pos (by omega : 10 ≤ month)]
    exact Prod.ext rfl (Prod.ext (by simp only; omega) rfl)

/-- The date of the day count of a date is the date. -/
theorem civilFromDays_daysFromCivil (date : Date) :
    civilFromDays (daysFromCivil date.year date.month date.day) =
      ((date.year : Int), date.month, date.day) := by
  obtain ⟨long, february, short, leap⟩ := day_bounds date
  obtain ⟨year, month, day, month_pos, month_le, day_pos, day_le⟩ := date
  simp only [List.mem_cons, List.not_mem_nil, or_false] at long february short leap
  unfold IsLeap at leap
  simp only
  by_cases early : month ≤ 2
  · have parts := @civilFromDays_parts (((year : Int) - 1) / 400)
      ((year : Int) - 1 - ((year : Int) - 1) / 400 * 400) day (daysFromCivil year month day)
      (month + 9) (by omega) (by omega) (by omega) (by omega) (by omega)
      (by simp only [List.mem_cons, List.not_mem_nil, or_false]; omega) (by omega)
      (by simp only [daysFromCivil, if_pos early]; omega)
    rw [parts, if_pos (by omega : 10 ≤ month + 9), if_neg (by omega : ¬month + 9 < 10)]
    exact Prod.ext (by simp only; omega) (Prod.ext (by simp only; omega) rfl)
  · have parts := @civilFromDays_parts ((year : Int) / 400)
      ((year : Int) - (year : Int) / 400 * 400) day (daysFromCivil year month day)
      (month - 3) (by omega) (by omega) (by omega) (by omega) (by omega)
      (by simp only [List.mem_cons, List.not_mem_nil, or_false]; omega) (by omega)
      (by simp only [daysFromCivil, if_neg early]; omega)
    rw [parts, if_neg (by omega : ¬10 ≤ month - 3), if_pos (by omega : month - 3 < 10)]
    exact Prod.ext (by simp only; omega) (Prod.ext (by simp only; omega) rfl)

end Loopx.Todos
