/- GID: Loopx/Todos/TimestampRoundTrip
   generality: I
   source: loopx/control_plane/runtime_timestamp.ts,
     loopx/control_plane/scheduler/state_transition_rules.ts
   digest: The Todo codec reads each schedule text as the instant it was written for. -/

import Loopx.Todos.CivilDays

set_option autoImplicit false
set_option relaxedAutoImplicit false

namespace Loopx.Todos

open Loopx.Lib.Gregorian

/-! ## Fixed-width numbers -/

private theorem length_padded {width n : Nat} (pos : 0 < width) (fits : n < 10 ^ width) :
    (padded width n).toList.length = width := by
  have short : (Nat.toDigits 10 n).length ≤ width :=
    (Nat.length_toDigits_le_iff (by omega) pos).2 fits
  simp only [padded, String.toList_ofList, List.length_append, List.length_replicate]
  omega

private theorem isDigit_padded {width n : Nat} {c : Char} (mem : c ∈ (padded width n).toList) :
    c.isDigit = true := by
  simp only [padded, String.toList_ofList, List.mem_append, List.mem_replicate] at mem
  rcases mem with ⟨-, rfl⟩ | mem
  · rfl
  · exact Nat.isDigit_of_mem_toDigits (by omega) (by omega) mem

private theorem ofDigitChars_padded (width n : Nat) :
    Nat.ofDigitChars 10 (padded width n).toList 0 = n := by
  rw [padded, String.toList_ofList, Nat.ofDigitChars_append, Nat.ofDigitChars_replicate_zero,
    Nat.mul_zero, Nat.ofDigitChars_ten_toDigits]

/-- A number written to a width is read back, with what follows it. -/
theorem digits?_padded {width n : Nat} (pos : 0 < width) (fits : n < 10 ^ width)
    (rest : List Char) : digits? width ((padded width n).toList ++ rest) = some (n, rest) := by
  have length := length_padded pos fits
  have taken : ((padded width n).toList ++ rest).take width = (padded width n).toList :=
    List.take_left' length
  have digits : (padded width n).toList.all Char.isDigit = true :=
    List.all_eq_true.2 fun _ mem => isDigit_padded mem
  rw [digits?, taken, if_pos ⟨length, digits⟩, List.drop_left' length, ofDigitChars_padded]

private theorem digits?_signed (sign : Char) (noDigit : sign.isDigit = false) (rest : List Char)
    (width : Nat) : digits? (width + 1) (sign :: rest) = none := by
  simp [digits?, noDigit]

/-! ## The clock -/

/-- The time of a schedule text, without its zone. -/
def clockText (ofDay : Nat) : List Char :=
  (padded 2 (ofDay / 3600000)).toList ++ ':' :: ((padded 2 (ofDay / 60000 % 60)).toList ++
    ':' :: ((padded 2 (ofDay / 1000 % 60)).toList ++
      (if ofDay % 1000 = 0 then [] else '.' :: (padded 3 (ofDay % 1000)).toList)))

private theorem mem_clockText {ofDay : Nat} {c : Char} (mem : c ∈ clockText ofDay) :
    c.isDigit = true ∨ c = ':' ∨ c = '.' := by
  simp only [clockText, List.mem_append, List.mem_cons] at mem
  rcases mem with mem | rfl | mem | rfl | mem | mem
  · exact .inl (isDigit_padded mem)
  · exact .inr (.inl rfl)
  · exact .inl (isDigit_padded mem)
  · exact .inr (.inl rfl)
  · exact .inl (isDigit_padded mem)
  · split at mem
    · cases mem
    · rcases List.mem_cons.1 mem with rfl | mem
      · exact .inr (.inr rfl)
      · exact .inl (isDigit_padded mem)

/-- No character of a clock ends the time, and none ends the line. -/
private theorem clock_plain {ofDay : Nat} {c : Char} (mem : c ∈ clockText ofDay) :
    (c ≠ '+' ∧ c ≠ '-') ∧ isLineTerminator c = false := by
  rcases mem_clockText mem with digit | rfl | rfl
  · have range : 48 ≤ c.toNat ∧ c.toNat ≤ 57 := Char.isDigit_iff_toNat.mp digit
    have other : ∀ d : Char, d.toNat < 48 ∨ 57 < d.toNat → c ≠ d := by
      rintro d outside rfl
      omega
    have terminators : c.toNat ≠ 0x2028 ∧ c.toNat ≠ 0x2029 := by omega
    refine ⟨⟨other '+' (.inl (by decide)), other '-' (.inl (by decide))⟩, ?_⟩
    simp [isLineTerminator, terminators, other '\n' (.inl (by decide)),
      other '\r' (.inl (by decide))]
  · decide
  · decide

private theorem minuteSecond_colon {tail tail' rest : List Char} {minute second : Nat}
    (read : digits? 2 tail = some (minute, ':' :: tail'))
    (read' : digits? 2 tail' = some (second, rest)) :
    minuteSecond (':' :: tail) = (minute, second, rest) := by
  simp only [minuteSecond, read, read']

/-- The thousandths of a schedule text, read as microseconds. -/
private theorem fraction_thousandths {milli : Nat} (lt : milli < 1000) :
    ∃ fraction, fraction? (if milli = 0 then [] else '.' :: (padded 3 milli).toList) =
        some fraction ∧
      Nat.ofDigitChars 10 ((fraction ++ List.replicate 6 '0').take 6) 0 = milli * 1000 := by
  by_cases zero : milli = 0
  · exact ⟨[], by rw [if_pos zero]; rfl, by rw [zero]; rfl⟩
  · have length : (padded 3 milli).toList.length = 3 := length_padded (by omega) lt
    have digits : (padded 3 milli).toList.all Char.isDigit = true :=
      List.all_eq_true.2 fun _ mem => isDigit_padded mem
    refine ⟨(padded 3 milli).toList, ?_, ?_⟩
    · have some_ : (padded 3 milli).toList ≠ [] := by
        intro none
        rw [none] at length
        cases length
      rw [if_neg zero, fraction?, if_pos ⟨.inl rfl, some_, digits⟩]
    · have taken : ((padded 3 milli).toList ++ List.replicate 6 '0').take 6 =
          (padded 3 milli).toList ++ List.replicate 3 '0' := by
        rw [List.take_append, length, List.take_of_length_le (by omega), List.take_replicate]
        rfl
      rw [taken, Nat.ofDigitChars_append, ofDigitChars_padded, Nat.ofDigitChars_replicate_zero]
      omega

/-- The time of a schedule text is the time of its day. -/
theorem clockMicros_clockText {ofDay : Nat} (lt : ofDay < 86400000) :
    clockMicros (clockText ofDay) false = some ((ofDay * 1000 : Nat) : Int) := by
  have hour : ofDay / 3600000 < 24 := by omega
  have minute : ofDay / 60000 % 60 < 60 := Nat.mod_lt _ (by omega)
  have second : ofDay / 1000 % 60 < 60 := Nat.mod_lt _ (by omega)
  obtain ⟨fraction, read, micros⟩ := fraction_thousandths (Nat.mod_lt ofDay (by omega : 0 < 1000))
  have hours := digits?_padded (n := ofDay / 3600000) (by omega : 0 < 2) (by omega)
  have minutes := digits?_padded (n := ofDay / 60000 % 60) (by omega : 0 < 2) (by omega)
  have seconds := digits?_padded (n := ofDay / 1000 % 60) (by omega : 0 < 2) (by omega)
  have whole : (ofDay / 3600000 * 3600 + ofDay / 60000 % 60 * 60 + ofDay / 1000 % 60) * 1000000 +
      ofDay % 1000 * 1000 = ofDay * 1000 := by omega
  have within : ¬(23 < ofDay / 3600000) ∧ ¬(59 < ofDay / 60000 % 60) ∧
      ¬(59 < ofDay / 1000 % 60) := by omega
  rw [clockMicros, clockText, hours]
  simp only [Option.bind_eq_bind, Option.bind_some, minuteSecond_colon (minutes _) (seconds _),
    read, micros, within]
  simp [whole]

private theorem separatedTime?_clock (ofDay : Nat) :
    separatedTime? ('T' :: (clockText ofDay ++ ['Z'])) =
      some (some ('T', clockText ofDay ++ ['Z'])) := by
  have plain : ∀ c ∈ clockText ofDay ++ ['Z'], (!isLineTerminator c) = true := by
    intro c mem
    rcases List.mem_append.1 mem with mem | mem
    · rw [(clock_plain mem).2]
      rfl
    · obtain rfl := List.mem_singleton.1 mem
      rfl
  cases time : clockText ofDay ++ ['Z'] with
  | nil => simp at time
  | cons c cs =>
    rw [time] at plain
    rw [separatedTime?, if_pos ⟨by decide, List.all_eq_true.2 plain⟩]
    simp

/-- A text without a sign ends with the zone it is given. -/
private theorem splitZone_utc {time : List Char} (unsigned : ∀ c ∈ time, c ≠ '+' ∧ c ≠ '-') :
    splitZone (time ++ ['Z']) = (time, ['Z']) := by
  induction time with
  | nil => rfl
  | cons c time ih =>
    have here := unsigned c List.mem_cons_self
    have later : time ++ ['Z'] ≠ [] := by simp
    rw [List.cons_append, splitZone, if_neg (by simp [here, later]),
      ih fun d mem => unsigned d (List.mem_cons_of_mem c mem)]

/-! ## The date -/

/-- A number does not begin a week date. -/
private theorem padded_ne_week {n : Nat} (fits : n < 100) (rest : List Char) :
    ((padded 2 n).toList ++ rest).head? ≠ some 'W' := by
  cases text : (padded 2 n).toList with
  | nil =>
    have length := length_padded (by omega : 0 < 2) fits
    rw [text] at length
    cases length
  | cons c cs =>
    have digit : c.isDigit = true := isDigit_padded (text ▸ List.mem_cons_self)
    rintro ⟨⟩
    cases digit

private theorem dateReadings_calendar {cs rest rest' tail : List Char} {year month day : Nat}
    (read : digits? 4 cs = some (year, '-' :: rest)) (digit : rest.head? ≠ some 'W')
    (read' : digits? 2 rest = some (month, '-' :: rest'))
    (read'' : digits? 2 rest' = some (day, tail)) :
    dateReadings cs = [(.calendar year month day, tail)] := by
  unfold dateReadings
  rw [read]
  cases rest with
  | nil => simp [digits?] at read'
  | cons c rest =>
    have other : c ≠ 'W' := fun same => digit (by rw [same]; rfl)
    simp [other, read', read'']

/-! ## The text of an instant -/

private theorem toList_isoText {year month day ofDay : Nat} (four : year ≤ 9999) :
    (isoText year month day ofDay).toList = (padded 4 year).toList ++ '-' ::
      ((padded 2 month).toList ++ '-' :: ((padded 2 day).toList ++
        'T' :: (clockText ofDay ++ ['Z']))) := by
  have plain : (0 : Int) ≤ year ∧ (year : Int) ≤ 9999 := by omega
  unfold isoText clockText
  rw [if_pos plain]
  split <;> simp [String.toList_append]

/-- The codec reads the text of a date and a time as that date and that time. -/
theorem parseTodoTimestampMicros_isoText {year month day ofDay : Nat} (four : year ≤ 9999)
    (month_lt : month < 100) (day_lt : day < 100) (lt : ofDay < 86400000) :
    parseTodoTimestampMicros (isoText year month day ofDay) =
      (DateText.calendar year month day).days?.bind fun days =>
        representable (days * 86400000000 + (ofDay * 1000 : Nat)) := by
  have years := digits?_padded (n := year) (by omega : 0 < 4) (by omega)
  have months := digits?_padded (n := month) (by omega : 0 < 2) (by omega)
  have days := digits?_padded (n := day) (by omega : 0 < 2) (by omega)
  have zone : splitZone (clockText ofDay ++ ['Z']) = (clockText ofDay, ['Z']) :=
    splitZone_utc fun c mem => (clock_plain mem).1
  rw [parseTodoTimestampMicros, toList_isoText four,
    dateReadings_calendar (years _) (padded_ne_week month_lt _) (months _) (days _)]
  simp only [List.findSome?_cons, separatedTime?_clock, Option.map_some]
  simp [zone, clockMicros_clockText lt]

private theorem parse_isoText_signed {year : Int} (month day ofDay : Nat)
    (outside : year < 0 ∨ 9999 < year) :
    parseTodoTimestampMicros (isoText year month day ofDay) = none := by
  have long : ¬(0 ≤ year ∧ year ≤ 9999) := by omega
  have signed : ∃ sign, (isoText year month day ofDay).toList.head? = some sign ∧
      sign.isDigit = false := by
    unfold isoText
    rw [if_neg long]
    by_cases before : year < 0
    · exact ⟨'-', by simp [before, String.toList_append], rfl⟩
    · exact ⟨'+', by simp [before, String.toList_append], rfl⟩
  obtain ⟨sign, head, noDigit⟩ := signed
  obtain ⟨rest, text⟩ := List.head?_eq_some_iff.1 head
  rw [parseTodoTimestampMicros, text, dateReadings, digits?_signed sign noDigit]
  rfl

/-- The year of an era, and the last year of it. -/
private theorem yearOfEra_bounds {day year : Int} (nonneg : 0 ≤ day) (lt : day < 146097)
    (h : (day - day / 1460 + day / 36524 - day / 146096) / 365 = year) :
    0 ≤ year ∧ year ≤ 399 ∧ (146037 ≤ day → year = 399) ∧ (year = 399 → 145731 ≤ day) := by
  omega

/-- Days before the year zero and from the year 10000 on have a year of another width. -/
private theorem year_outside {days : Int} (outside : days < -719528 ∨ 2932897 ≤ days) :
    (civilFromDays days).1 < 0 ∨ 9999 < (civilFromDays days).1 := by
  simp only [civilFromDays]
  generalize era_eq : (days + 719468) / 146097 = era
  generalize day_eq : days + 719468 - era * 146097 = day
  generalize year_eq : (day - day / 1460 + day / 36524 - day / 146096) / 365 = year
  have bounds := yearOfEra_bounds (by omega) (by omega) year_eq
  have lastYear : year = 399 → 365 * year + year / 4 - year / 100 = 145731 := by omega
  generalize start_eq : 365 * year + year / 4 - year / 100 = start at *
  generalize month_eq : (5 * (day - start) + 2) / 153 = shifted
  -- the last two months of an era stand in the year that follows it
  have late : 146037 ≤ day → 10 ≤ shifted ∧ shifted ≤ 11 := by omega
  have early : day < 146037 → year = 399 → 0 ≤ shifted ∧ shifted ≤ 9 := by omega
  have eras : era ≤ -2 ∨ (era = -1 ∧ day < 146037) ∨ 25 ≤ era ∨ (era = 24 ∧ 146037 ≤ day) := by
    omega
  clear era_eq day_eq year_eq outside lastYear start_eq month_eq
  split_ifs <;> omega

private theorem year_lt {date : Date} (before : date.number < 3652425) : date.year ≤ 9999 := by
  have start := date.number_bounds.1
  have years := daysBeforeYear_eq date.year
  omega

private theorem year_pos_iff (date : Date) : 1 ≤ date.year ↔ 366 ≤ date.number := by
  have bounds := date.number_bounds
  have first : daysBeforeYear 1 = 366 := rfl
  constructor
  · intro pos
    have start := daysBeforeYear_lt pos
    have common : daysBeforeYear 0 + yearLength 0 = 366 := rfl
    omega
  · intro late
    by_contra zero
    obtain zero : date.year = 0 := by omega
    rw [zero, Nat.zero_add, first] at bounds
    omega

/-- What the scheduler writes for an instant is read as that instant, and is refused where the
codec has no such instant. -/
theorem monitorScheduleTimestamp_read (milliseconds : Int) :
    (monitorScheduleTimestamp milliseconds).bind parseTodoTimestampMicros =
      representable (milliseconds * 1000) := by
  unfold monitorScheduleTimestamp
  by_cases far : 8640000000000000 < milliseconds.natAbs
  · have outside : milliseconds * 1000 < -62135596800000000 ∨
        253402300800000000 ≤ milliseconds * 1000 := by omega
    rw [if_pos far, representable, if_pos outside]
    rfl
  rw [if_neg far, Option.bind_some]
  have ofDay_lt : (milliseconds % 86400000).toNat < 86400000 := by omega
  by_cases outside : milliseconds / 86400000 < -719528 ∨ 2932897 ≤ milliseconds / 86400000
  · have refused : milliseconds * 1000 < -62135596800000000 ∨
        253402300800000000 ≤ milliseconds * 1000 := by omega
    rw [parse_isoText_signed _ _ _ (year_outside outside), representable, if_pos refused]
  · obtain ⟨date, number⟩ := Date.exists_number (milliseconds / 86400000 + 719528).toNat
    have days : milliseconds / 86400000 = daysFromCivil date.year date.month date.day := by
      rw [daysFromCivil_number, number, epoch]
      omega
    have four : date.year ≤ 9999 := year_lt (by omega)
    have day_le := date.day_le.trans (monthLength_bounds date.year date.month).2
    have month_le := date.month_le
    have read := parseTodoTimestampMicros_isoText four (by omega : date.month < 100)
      (by omega : date.day < 100) ofDay_lt
    rw [days, civilFromDays_daysFromCivil, read]
    by_cases zero : 1 ≤ date.year
    · have valid : 1 ≤ date.month ∧ date.month ≤ 12 ∧ 1 ≤ date.day ∧
          date.day ≤ daysInMonth date.year date.month ∧ 1 ≤ date.year := by
        rw [daysInMonth_eq]
        exact ⟨date.month_pos, date.month_le, date.day_pos, date.day_le, zero⟩
      have whole : milliseconds / 86400000 * 86400000000 +
          ((milliseconds % 86400000).toNat * 1000 : Nat) = milliseconds * 1000 := by omega
      rw [DateText.days?, if_pos valid, Option.bind_some, ← days, whole]
    · have early : milliseconds * 1000 < -62135596800000000 := by
        have before := mt (year_pos_iff date).2 zero
        omega
      rw [DateText.days?, if_neg fun valid => zero valid.2.2.2.2, representable,
        if_pos (.inl early)]
      rfl

end Loopx.Todos
