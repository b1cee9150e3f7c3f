/- GID: Loopx/Todos/Timestamp
   generality: I
   source: loopx/control_plane/runtime_timestamp.ts
   digest: The Todo timestamp codec, to the microsecond, and the text of an instant. -/

import Loopx.Lib.Decimal

set_option autoImplicit false
set_option relaxedAutoImplicit false

namespace Loopx.Todos

def leapYear (year : Int) : Bool := year % 4 = 0 ∧ (year % 100 ≠ 0 ∨ year % 400 = 0)

def daysInMonth (year : Int) (month : Nat) : Nat :=
  if month = 2 then (if leapYear year then 29 else 28)
  else if month ∈ [4, 6, 9, 11] then 30 else 31

/-- Days from 1970-01-01 to a date of the proleptic Gregorian calendar. The year starts in March
here, so that the leap day is its last. -/
def daysFromCivil (year : Int) (month day : Nat) : Int :=
  let y := if month ≤ 2 then year - 1 else year
  let yearOfEra := y - y / 400 * 400
  let dayOfYear : Int := (153 * ((if month ≤ 2 then month + 9 else month - 3 : Nat) : Int) + 2) / 5 +
    day - 1
  y / 400 * 146097 + (yearOfEra * 365 + yearOfEra / 4 - yearOfEra / 100 + dayOfYear) - 719468

/-- The date a number of days after 1970-01-01. -/
def civilFromDays (days : Int) : Int × Nat × Nat :=
  let z := days + 719468
  let dayOfEra := z - z / 146097 * 146097
  let yearOfEra :=
    (dayOfEra - dayOfEra / 1460 + dayOfEra / 36524 - dayOfEra / 146096) / 365
  let dayOfYear := dayOfEra - (365 * yearOfEra + yearOfEra / 4 - yearOfEra / 100)
  let shifted := (5 * dayOfYear + 2) / 153
  let day := dayOfYear - (153 * shifted + 2) / 5 + 1
  let month := if shifted < 10 then shifted + 3 else shifted - 9
  (yearOfEra + z / 146097 * 400 + (if month ≤ 2 then 1 else 0), month.toNat, day.toNat)

example : civilFromDays (daysFromCivil 2028 2 29) = (2028, 2, 29) := by decide
example : daysFromCivil 1970 1 1 = 0 := by decide

/-- `getUTCDay`, counted from Monday. -/
def mondayOffset (days : Int) : Int := (days + 3) % 7

/-- `\d{n}` at the front, with its value. -/
def digits? (n : Nat) (cs : List Char) : Option (Nat × List Char) :=
  if (cs.take n).length = n ∧ (cs.take n).all Char.isDigit then
    some (Nat.ofDigitChars 10 (cs.take n) 0, cs.drop n)
  else none

inductive DateText where
  | calendar (year month day : Nat)
  | week (year number day : Nat)
deriving DecidableEq

/-- `[1-7]`. -/
def weekday? (c : Char) : Option Nat :=
  if '1' ≤ c ∧ c ≤ '7' then some (c.toNat - '0'.toNat) else none

/-- The ways the date group of the expression can match at the front, in the order they are tried:
the optional week day is taken first, then left to what follows. -/
def dateReadings (cs : List Char) : List (DateText × List Char) :=
  match digits? 4 cs with
  | none => []
  | some (year, '-' :: 'W' :: rest) =>
    match digits? 2 rest with
    | none => []
    | some (number, rest) =>
      (match rest with
        | '-' :: c :: tail => ((weekday? c).map fun day => (.week year number day, tail)).toList
        | _ => []) ++ [(.week year number 1, rest)]
  | some (year, 'W' :: rest) =>
    match digits? 2 rest with
    | none => []
    | some (number, rest) =>
      (match rest with
        | c :: tail => ((weekday? c).map fun day => (.week year number day, tail)).toList
        | _ => []) ++ [(.week year number 1, rest)]
  | some (year, '-' :: rest) =>
    match digits? 2 rest with
    | some (month, '-' :: rest) =>
      match digits? 2 rest with
      | some (day, rest) => [(.calendar year month day, rest)]
      | none => []
    | _ => []
  | some (year, rest) =>
    match digits? 2 rest with
    | some (month, rest) =>
      match digits? 2 rest with
      | some (day, rest) => [(.calendar year month day, rest)]
      | none => []
    | none => []

/-- What `.` does not match. -/
def isLineTerminator (c : Char) : Bool :=
  c = '\n' || c = '\r' || c.toNat = 0x2028 || c.toNat = 0x2029

/-- `(?:([^Z])(.+))?$`: nothing, or a separator and a time. -/
def separatedTime? : List Char → Option (Option (Char × List Char))
  | [] => some none
  | [_] => none
  | separator :: time =>
    if separator ≠ 'Z' ∧ time.all (fun c => !isLineTerminator c) then some (some (separator, time))
    else none

/-- The day a date text names, in days since the epoch. -/
def DateText.days? : DateText → Option Int
  | .calendar year month day =>
    if 1 ≤ month ∧ month ≤ 12 ∧ 1 ≤ day ∧ day ≤ daysInMonth year month ∧ 1 ≤ year then
      some (daysFromCivil year month day)
    else none
  | .week year number day =>
    if year < 1 ∨ number < 1 ∨ 53 < number then none
    else
      let january := daysFromCivil year 1 4
      let days := january - mondayOffset january + (number - 1) * 7 + day - 1
      let thursday := days + 3 - mondayOffset days
      if (civilFromDays thursday).1 ≠ year ∨ 9999 < (civilFromDays days).1 then none else some days

/-- `/^(.*?)(Z|z|[+-].*)?$/`: the time and its zone. -/
def splitZone : List Char → List Char × List Char
  | [] => ([], [])
  | c :: cs =>
    if c = '+' ∨ c = '-' ∨ ((c = 'Z' ∨ c = 'z') ∧ cs = []) then ([], c :: cs)
    else (c :: (splitZone cs).1, (splitZone cs).2)

/-- `(?:(:?)(\d{2})(?:\2(\d{2}))?)?`: minute and second, with what follows them. -/
def minuteSecond (rest : List Char) : Nat × Nat × List Char :=
  match rest with
  | ':' :: tail =>
    match digits? 2 tail with
    | none => (0, 0, rest)
    | some (minute, ':' :: tail) =>
      match digits? 2 tail with
      | some (second, tail) => (minute, second, tail)
      | none => (minute, 0, ':' :: tail)
    | some (minute, tail) => (minute, 0, tail)
  | _ =>
    match digits? 2 rest with
    | none => (0, 0, rest)
    | some (minute, tail) =>
      match digits? 2 tail with
      | some (second, tail) => (minute, second, tail)
      | none => (minute, 0, tail)

/-- `(?:[.,](\d+))?$`. -/
def fraction? : List Char → Option (List Char)
  | [] => some []
  | c :: ds =>
    if (c = '.' ∨ c = ',') ∧ ds ≠ [] ∧ ds.all Char.isDigit then some ds else none

/-- `clock`, in microseconds. -/
def clockMicros (raw : List Char) (offset : Bool) : Option Int := do
  let (hour, rest) ← digits? 2 raw
  let (minute, second, rest) := minuteSecond rest
  let fraction ← fraction? rest
  if !offset && (23 < hour || 59 < minute || 59 < second) then none
  else
    let seconds := hour * 3600 + minute * 60 + second
    let micros := seconds * 1000000 +
      Nat.ofDigitChars 10 ((fraction ++ List.replicate 6 '0').take 6) 0
    if offset && 86400000000 ≤ micros then none
    else if offset && seconds = 0 then some 0 else some micros

/-- 0001-01-01T00:00:00Z to 10000-01-01T00:00:00Z. -/
def representable (micros : Int) : Option Int :=
  if micros < -62135596800000000 ∨ 253402300800000000 ≤ micros then none else some micros

def parseTodoTimestampMicros (value : String) : Option Int := do
  let (date, tail) ← (dateReadings value.toList).findSome? fun (date, rest) =>
    (separatedTime? rest).map fun tail => (date, tail)
  if tail.map Prod.fst = some 'z' then none
  else
    let days ← date.days?
    match tail with
    | none => representable (days * 86400000000)
    | some (_, time) =>
      let micros ← clockMicros (splitZone time).1 false
      match (splitZone time).2 with
      | [] => representable (days * 86400000000 + micros)
      | sign :: zone =>
        if sign = 'Z' ∨ sign = 'z' then representable (days * 86400000000 + micros)
        else
          let offset ← clockMicros zone true
          representable (days * 86400000000 + micros - (if sign = '-' then -offset else offset))

example : parseTodoTimestampMicros "2030-01-01T01:00:00.5+01" = some 1893456000500000 := by
  decide +kernel
example : parseTodoTimestampMicros "2026-W01-12" = parseTodoTimestampMicros "20251229T12" := by
  decide +kernel

/-- `padStart` with zeroes. -/
def padded (width n : Nat) : String :=
  String.ofList (List.replicate (width - (Nat.toDigits 10 n).length) '0' ++ Nat.toDigits 10 n)

/-- The ISO text of a date and the milliseconds of its day, without a fraction of zero. -/
def isoText (year : Int) (month day ofDay : Nat) : String :=
  (if 0 ≤ year ∧ year ≤ 9999 then padded 4 year.toNat
    else (if year < 0 then "-" else "+") ++ padded 6 year.natAbs) ++
  "-" ++ padded 2 month ++ "-" ++ padded 2 day ++ "T" ++ padded 2 (ofDay / 3600000) ++ ":" ++
  padded 2 (ofDay / 60000 % 60) ++ ":" ++ padded 2 (ofDay / 1000 % 60) ++
  (if ofDay % 1000 = 0 then "" else "." ++ padded 3 (ofDay % 1000)) ++ "Z"

/-- `new Date(milliseconds).toISOString().replace(".000Z", "Z")`; `none` is the thrown
`RangeError`. -/
def monitorScheduleTimestamp (milliseconds : Int) : Option String :=
  if 8640000000000000 < milliseconds.natAbs then none
  else
    let date := civilFromDays (milliseconds / 86400000)
    some (isoText date.1 date.2.1 date.2.2 (milliseconds % 86400000).toNat)

example : monitorScheduleTimestamp 1893459600250 = some "2030-01-01T01:00:00.250Z" := by
  decide +kernel

end Loopx.Todos
