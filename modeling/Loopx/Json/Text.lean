/- GID: Loopx/Json/Text
   generality: G
   digest: `JSON.stringify` and `JSON.parse`, with the parser a left inverse of the printer. -/

import Mathlib.Tactic.Positivity
import Loopx.Lib.Decimal
import Loopx.Json.Value

set_option autoImplicit false
set_option relaxedAutoImplicit false

namespace Loopx.Json

open Loopx.Lib.KeyedList
open Loopx.Lib.Decimal (isDigit_toDigits head?_toDigits_ne_zero toDigits_ofDigitChars)

/-- `QuoteJSONString` on one character. -/
def quoteChar (c : Char) : List Char :=
  if c = '\x22' then ['\x5c', '\x22']
  else if c = '\x5c' then ['\x5c', '\x5c']
  else if c = '\x08' then ['\x5c', 'b']
  else if c = '\t' then ['\x5c', 't']
  else if c = '\n' then ['\x5c', 'n']
  else if c = '\x0c' then ['\x5c', 'f']
  else if c = '\r' then ['\x5c', 'r']
  else if c.toNat < 32 then
    ['\x5c', 'u', '0', '0', Nat.digitChar (c.toNat / 16), Nat.digitChar (c.toNat % 16)]
  else [c]

def quoteString (s : String) : List Char :=
  '\x22' :: (s.toList.flatMap quoteChar ++ ['\x22'])

/-- `Number::toString` for `c * 10 ^ e`, with `n` the place of the decimal point. -/
def magnitudeText (c : Nat) (e : Int) : List Char :=
  let digits := Nat.toDigits 10 c
  let k : Int := digits.length
  let n := k + e
  if k ≤ n ∧ n ≤ 21 then digits ++ List.replicate e.toNat '0'
  else if 0 < n ∧ n ≤ 21 then digits.take n.toNat ++ '.' :: digits.drop n.toNat
  else if -6 < n ∧ n ≤ 0 then '0' :: '.' :: (List.replicate (-n).toNat '0' ++ digits)
  else
    digits.take 1 ++ (if digits.length = 1 then [] else '.' :: digits.drop 1) ++
      'e' :: (if n - 1 < 0 then '-' else '+') :: Nat.toDigits 10 (n - 1).natAbs

def numberText (n : JsNumber) : List Char :=
  if n.coefficient < 0 then '-' :: magnitudeText n.coefficient.natAbs n.exponent
  else magnitudeText n.coefficient.natAbs n.exponent

mutual

/-- `JSON.stringify`, as a list of characters. -/
def text : Json → List Char
  | .null => ['n', 'u', 'l', 'l']
  | .bool true => ['t', 'r', 'u', 'e']
  | .bool false => ['f', 'a', 'l', 's', 'e']
  | .number n => numberText n
  | .string s => quoteString s
  | .array [] => ['[', ']']
  | .array (v :: items) => '[' :: (text v ++ itemsText items)
  | .object [] => ['\x7b', '\x7d']
  | .object ((k, v) :: fields) => '\x7b' :: (quoteString k ++ ':' :: (text v ++ fieldsText fields))

def itemsText : List Json → List Char
  | [] => [']']
  | v :: items => ',' :: (text v ++ itemsText items)

def fieldsText : List (String × Json) → List Char
  | [] => ['\x7d']
  | (k, v) :: fields => ',' :: (quoteString k ++ ':' :: (text v ++ fieldsText fields))

end

/-- `JSON.stringify`. -/
def stringify (v : Json) : String := String.ofList (text v)

def isSpace (c : Char) : Bool := c = ' ' || c = '\t' || c = '\n' || c = '\r'

def skipSpace (cs : List Char) : List Char := cs.dropWhile isSpace

def hexValue? (c : Char) : Option Nat :=
  if '0' ≤ c ∧ c ≤ '9' then some (c.toNat - 48)
  else if 'a' ≤ c ∧ c ≤ 'f' then some (c.toNat - 87)
  else if 'A' ≤ c ∧ c ≤ 'F' then some (c.toNat - 55)
  else none

def hex4? : List Char → Option (Nat × List Char)
  | a :: b :: c :: d :: rest => do
    let a ← hexValue? a
    let b ← hexValue? b
    let c ← hexValue? c
    let d ← hexValue? d
    some (((a * 16 + b) * 16 + c) * 16 + d, rest)
  | _ => none

/-- The low half of a surrogate pair, after its high half `n`. -/
def surrogateTail (n : Nat) : List Char → Option (Char × List Char)
  | a :: 'u' :: rest =>
    if a = '\x5c' then
      match hex4? rest with
      | some (m, rest) =>
        if 0xdc00 ≤ m ∧ m < 0xe000 then
          some (Char.ofNat (0x10000 + (n - 0xd800) * 0x400 + (m - 0xdc00)), rest)
        else none
      | none => none
    else none
  | _ => none

/-- One escape sequence, after its backslash. A lone surrogate is no `Char` and is refused. -/
def unescape : List Char → Option (Char × List Char)
  | [] => none
  | c :: rest =>
    if c = '\x22' ∨ c = '\x5c' ∨ c = '/' then some (c, rest)
    else if c = 'b' then some ('\x08', rest)
    else if c = 't' then some ('\t', rest)
    else if c = 'n' then some ('\n', rest)
    else if c = 'f' then some ('\x0c', rest)
    else if c = 'r' then some ('\r', rest)
    else if c = 'u' then
      match hex4? rest with
      | none => none
      | some (n, rest) =>
        if n < 0xd800 ∨ 0xe000 ≤ n then some (Char.ofNat n, rest)
        else if n < 0xdc00 then surrogateTail n rest
        else none
    else none

/-- The characters of a string literal, after its opening quote. -/
def parseChars : Nat → List Char → Option (List Char × List Char)
  | 0, _ => none
  | _ + 1, [] => none
  | fuel + 1, c :: rest =>
    if c = '\x22' then some ([], rest)
    else if c = '\x5c' then
      match unescape rest with
      | none => none
      | some (d, rest) => (parseChars fuel rest).map (fun p => (d :: p.1, p.2))
    else if c.toNat < 32 then none
    else (parseChars fuel rest).map (fun p => (c :: p.1, p.2))

def isNumberChar (c : Char) : Bool :=
  c.isDigit || c = '-' || c = '+' || c = '.' || c = 'e' || c = 'E'

def readExponent : List Char → Option Int
  | [] => some 0
  | c :: rest =>
    if c = 'e' ∨ c = 'E' then
      let negative := rest.head? = some '-'
      let digits := if rest.head? = some '-' ∨ rest.head? = some '+' then rest.tail else rest
      if digits ≠ [] ∧ digits.all Char.isDigit then
        some (if negative then -(Nat.ofDigitChars 10 digits 0 : Int)
          else Nat.ofDigitChars 10 digits 0)
      else none
    else none

def readFraction : List Char → Option (List Char × List Char)
  | [] => some ([], [])
  | c :: rest =>
    if c = '.' then
      if rest.takeWhile Char.isDigit = [] then none
      else some (rest.takeWhile Char.isDigit, rest.dropWhile Char.isDigit)
    else some ([], c :: rest)

def readMagnitude (negative : Bool) (cs : List Char) : Option JsNumber :=
  let int := cs.takeWhile Char.isDigit
  if int = [] ∨ (1 < int.length ∧ int.head? = some '0') then none
  else
    match readFraction (cs.dropWhile Char.isDigit) with
    | none => none
    | some (fraction, rest) =>
      match readExponent rest with
      | none => none
      | some e =>
        some (JsNumber.ofDecimal negative (Nat.ofDigitChars 10 (int ++ fraction) 0)
          (e - fraction.length))

/-- A JSON number literal. -/
def readNumber (cs : List Char) : Option JsNumber :=
  if cs.head? = some '-' then readMagnitude true cs.tail else readMagnitude false cs

mutual

/-- One value and the text that follows it. -/
def parseValue : Nat → List Char → Option (Json × List Char)
  | 0, _ => none
  | fuel + 1, cs =>
    match skipSpace cs with
    | [] => none
    | c :: rest =>
      if c = '\x22' then
        (parseChars (rest.length + 1) rest).map (fun p => (.string (String.ofList p.1), p.2))
      else if c = '[' then
        match skipSpace rest with
        | ']' :: rest => some (.array [], rest)
        | rest =>
          match parseValue fuel rest with
          | none => none
          | some (v, rest) => (parseItems fuel rest).map (fun p => (.array (v :: p.1), p.2))
      else if c = '\x7b' then
        match skipSpace rest with
        | '\x7d' :: rest => some (.object [], rest)
        | rest =>
          match parseField fuel rest with
          | none => none
          | some (f, rest) =>
            (parseFields fuel rest).map (fun p => (.object (fromEntries (f :: p.1)), p.2))
      else if c = 'n' then
        if rest.take 3 = ['u', 'l', 'l'] then some (.null, rest.drop 3) else none
      else if c = 't' then
        if rest.take 3 = ['r', 'u', 'e'] then some (.bool true, rest.drop 3) else none
      else if c = 'f' then
        if rest.take 4 = ['a', 'l', 's', 'e'] then some (.bool false, rest.drop 4) else none
      else
        (readNumber ((c :: rest).takeWhile isNumberChar)).map
          (fun n => (.number n, (c :: rest).dropWhile isNumberChar))

/-- The further elements of an array, with its closing bracket. -/
def parseItems : Nat → List Char → Option (List Json × List Char)
  | 0, _ => none
  | fuel + 1, cs =>
    match skipSpace cs with
    | ']' :: rest => some ([], rest)
    | ',' :: rest =>
      match parseValue fuel rest with
      | none => none
      | some (v, rest) => (parseItems fuel rest).map (fun p => (v :: p.1, p.2))
    | _ => none

/-- One key, a colon and a value. -/
def parseField : Nat → List Char → Option ((String × Json) × List Char)
  | 0, _ => none
  | fuel + 1, cs =>
    match skipSpace cs with
    | '\x22' :: rest =>
      match parseChars (rest.length + 1) rest with
      | none => none
      | some (k, rest) =>
        match skipSpace rest with
        | ':' :: rest =>
          (parseValue fuel rest).map (fun p => ((String.ofList k, p.1), p.2))
        | _ => none
    | _ => none

/-- The further fields of an object, with its closing brace. -/
def parseFields : Nat → List Char → Option (List (String × Json) × List Char)
  | 0, _ => none
  | fuel + 1, cs =>
    match skipSpace cs with
    | '\x7d' :: rest => some ([], rest)
    | ',' :: rest =>
      match parseField fuel rest with
      | none => none
      | some (f, rest) => (parseFields fuel rest).map (fun p => (f :: p.1, p.2))
    | _ => none

end

example : parseValue 1 [] = none ∧ parseItems 1 [] = none ∧ parseField 1 [] = none ∧
    parseFields 1 [] = none := by
  simp [parseValue, parseItems, parseField, parseFields, skipSpace]

/-- `JSON.parse`; `none` stands for its `SyntaxError`. -/
def parse (s : String) : Option Json :=
  match parseValue (s.toList.length + 1) s.toList with
  | none => none
  | some (v, rest) => if skipSpace rest = [] then some v else none

/-- The continuation after a value never extends a number literal. -/
def NumberEnd (rest : List Char) : Prop := ∀ c ∈ rest.head?, isNumberChar c = false

private theorem unescape_control (c : Char) (h : c.toNat < 32) (rest : List Char) :
    unescape ('u' :: '0' :: '0' :: Nat.digitChar (c.toNat / 16) ::
      Nat.digitChar (c.toNat % 16) :: rest) = some (c, rest) := by
  have hex : ∀ d < 16, hexValue? (Nat.digitChar d) = some d := by decide
  have hz : hexValue? '0' = some 0 := by decide
  have ha := hex (c.toNat / 16) (by omega)
  have hb := hex (c.toNat % 16) (by omega)
  have hval : c.toNat / 16 * 16 + c.toNat % 16 = c.toNat := by omega
  have hsmall : c.toNat < 0xd800 := by omega
  simp [unescape, hex4?, hz, ha, hb, hval, hsmall, Char.ofNat_toNat]

private theorem parseChars_quoteChar (fuel : Nat) (c : Char) (rest : List Char) :
    parseChars (fuel + 1) (quoteChar c ++ rest) =
      (parseChars fuel rest).map (fun p => (c :: p.1, p.2)) := by
  unfold quoteChar
  split
  · subst_vars
    simp [parseChars, unescape]
  split
  · subst_vars
    simp [parseChars, unescape]
  split
  · subst_vars
    simp [parseChars, unescape]
  split
  · subst_vars
    simp [parseChars, unescape]
  split
  · subst_vars
    simp [parseChars, unescape]
  split
  · subst_vars
    simp [parseChars, unescape]
  split
  · subst_vars
    simp [parseChars, unescape]
  split
  · rename_i hsmall
    simp only [List.cons_append, List.nil_append, parseChars]
    rw [unescape_control c hsmall rest]
    simp
  · rename_i hq hb _ _ _ _ _ hsmall
    simp [parseChars, hq, hb, hsmall]

private theorem parseChars_quoted (cs rest : List Char) (fuel : Nat) (enough : cs.length < fuel) :
    parseChars fuel (cs.flatMap quoteChar ++ '\x22' :: rest) = some (cs, rest) := by
  induction cs generalizing fuel with
  | nil =>
    cases fuel with
    | zero => simp at enough
    | succ fuel => simp [parseChars]
  | cons c cs ih =>
    cases fuel with
    | zero => simp at enough
    | succ fuel =>
      rw [List.flatMap_cons, List.append_assoc, parseChars_quoteChar,
        ih fuel (by simpa using enough)]
      rfl

private theorem length_le_flatMap_quoteChar (cs : List Char) :
    cs.length ≤ (cs.flatMap quoteChar).length := by
  induction cs with
  | nil => simp
  | cons c cs ih =>
    have hc : 1 ≤ (quoteChar c).length := by
      unfold quoteChar
      repeat' split
      all_goals simp
    simp only [List.flatMap_cons, List.length_append, List.length_cons]
    omega

private theorem parseChars_quoteString (s : String) (rest : List Char) :
    parseChars ((s.toList.flatMap quoteChar ++ '\x22' :: rest).length + 1)
      (s.toList.flatMap quoteChar ++ '\x22' :: rest) = some (s.toList, rest) := by
  apply parseChars_quoted
  have := length_le_flatMap_quoteChar s.toList
  simp only [List.length_append, List.length_cons]
  omega

private theorem takeWhile_dropWhile_append {p : Char → Bool} {l rest : List Char}
    (all : ∀ c ∈ l, p c = true) (stop : ∀ c ∈ rest.head?, p c = false) :
    (l ++ rest).takeWhile p = l ∧ (l ++ rest).dropWhile p = rest := by
  induction l with
  | nil =>
    cases rest with
    | nil => simp
    | cons c rest =>
      have hc : p c = false := stop c (by simp)
      simp [hc]
  | cons a l ih =>
    have ha : p a = true := all a (by simp)
    have h := ih (fun c hc => all c (by simp [hc]))
    simp [ha, h.1, h.2]

/-- The two parts of a number literal that follow its integer part. -/
private def literalTail (fraction : List Char) (exponent : Option Int) : List Char :=
  (if fraction = [] then [] else '.' :: fraction) ++
    match exponent with
    | none => []
    | some e => 'e' :: (if e < 0 then '-' else '+') :: Nat.toDigits 10 e.natAbs

private theorem readExponent_literal (exponent : Option Int) :
    readExponent (match exponent with
      | none => []
      | some e => 'e' :: (if e < 0 then '-' else '+') :: Nat.toDigits 10 e.natAbs) =
      some (exponent.getD 0) := by
  cases exponent with
  | none => rfl
  | some e =>
    have digits : (Nat.toDigits 10 e.natAbs).all Char.isDigit = true :=
      List.all_eq_true.mpr (fun d hd => isDigit_toDigits hd)
    by_cases neg : e < 0
    · simp only [readExponent, neg, if_true, List.head?_cons, List.tail_cons, true_or, ne_eq, Nat.toDigits_ne_nil, not_false_eq_true, digits, and_self,
        Nat.ofDigitChars_ten_toDigits, Option.getD_some]
      congr 1
      omega
    · have hsign : ¬ (some '+' = some '-') := by decide
      simp only [readExponent, neg, if_false, List.head?_cons, List.tail_cons, true_or, or_true,
        ne_eq, Nat.toDigits_ne_nil, not_false_eq_true, digits, and_self, if_true, hsign,
        Nat.ofDigitChars_ten_toDigits, Option.getD_some]
      congr 1
      omega

private theorem readMagnitude_literal (negative : Bool) (int fraction : List Char)
    (exponent : Option Int) (nonempty : int ≠ []) (digits : ∀ c ∈ int, c.isDigit = true)
    (fractionDigits : ∀ c ∈ fraction, c.isDigit = true)
    (leading : int.length ≤ 1 ∨ int.head? ≠ some '0') :
    readMagnitude negative (int ++ literalTail fraction exponent) =
      some (JsNumber.ofDecimal negative (Nat.ofDigitChars 10 (int ++ fraction) 0)
        (exponent.getD 0 - fraction.length)) := by
  have tailStop : ∀ c ∈ (literalTail fraction exponent).head?, c.isDigit = false := by
    intro c hc
    cases fraction with
    | nil =>
      cases exponent with
      | none => simp [literalTail] at hc
      | some e =>
        have : c = 'e' := by simpa [literalTail, eq_comm] using hc
        subst this
        decide
    | cons f fs =>
      have : c = '.' := by simpa [literalTail, eq_comm] using hc
      subst this
      decide
  have exponentStop : ∀ c ∈ (match exponent with
      | none => []
      | some e => 'e' :: (if e < 0 then '-' else '+') :: Nat.toDigits 10 e.natAbs).head?,
      c.isDigit = false := by
    intro c hc
    cases exponent with
    | none => simp at hc
    | some e =>
      have : c = 'e' := by simpa [eq_comm] using hc
      subst this
      decide
  obtain ⟨htake, hdrop⟩ := takeWhile_dropWhile_append digits tailStop
  obtain ⟨ftake, fdrop⟩ := takeWhile_dropWhile_append fractionDigits exponentStop
  have guard : ¬ (int = [] ∨ (1 < int.length ∧ int.head? = some '0')) := by
    rintro (h | ⟨h, h'⟩)
    · exact nonempty h
    · rcases leading with hl | hl
      · omega
      · exact hl h'
  have hfraction : readFraction (literalTail fraction exponent) =
      some (fraction, match exponent with
        | none => []
        | some e => 'e' :: (if e < 0 then '-' else '+') :: Nat.toDigits 10 e.natAbs) := by
    cases fraction with
    | nil =>
      cases exponent with
      | none => rfl
      | some e => simp [literalTail, readFraction]
    | cons f fs =>
      simp only [literalTail, if_neg (List.cons_ne_nil f fs), List.cons_append, readFraction,
        if_true]
      rw [← List.cons_append, ftake, fdrop, if_neg (List.cons_ne_nil f fs)]
  simp only [readMagnitude, htake, hdrop, if_neg guard, hfraction, readExponent_literal]

private theorem magnitudeText_literal (c : Nat) (e : Int) (pos : 0 < c) :
    ∃ int fraction exponent, magnitudeText c e = int ++ literalTail fraction exponent ∧
      int ≠ [] ∧ (∀ d ∈ int, d.isDigit = true) ∧ (∀ d ∈ fraction, d.isDigit = true) ∧
      (int.length ≤ 1 ∨ int.head? ≠ some '0') ∧
      ∃ j : Nat, Nat.ofDigitChars 10 (int ++ fraction) 0 = c * 10 ^ j ∧
        exponent.getD 0 - fraction.length + j = e := by
  have digits : ∀ d ∈ Nat.toDigits 10 c, d.isDigit = true := fun d hd => isDigit_toDigits hd
  have nonempty : Nat.toDigits 10 c ≠ [] := Nat.toDigits_ne_nil
  have lead := head?_toDigits_ne_zero pos
  have value : Nat.ofDigitChars 10 (Nat.toDigits 10 c) 0 = c := Nat.ofDigitChars_ten_toDigits
  have zeros : ∀ (n : Nat), ∀ d ∈ List.replicate n '0', d.isDigit = true := by
    intro n d hd
    rw [List.eq_of_mem_replicate hd]
    decide
  have len : 0 < (Nat.toDigits 10 c).length := Nat.length_toDigits_pos
  unfold magnitudeText
  generalize Nat.toDigits 10 c = ds at *
  simp only
  by_cases h1 : (ds.length : Int) ≤ ds.length + e ∧ (ds.length : Int) + e ≤ 21
  -- an integer below 1e21, padded with zeros
  · rw [if_pos h1]
    refine ⟨ds ++ List.replicate e.toNat '0', [], none, by simp [literalTail], by simp [nonempty],
      ?_, by simp, ?_, e.toNat, ?_, ?_⟩
    · intro d hd
      rcases List.mem_append.mp hd with hd | hd
      · exact digits d hd
      · exact zeros _ d hd
    · right
      rwa [List.head?_append_of_ne_nil _ nonempty]
    · rw [List.append_nil, Nat.ofDigitChars_append, Nat.ofDigitChars_replicate_zero, value,
        Nat.mul_comm]
    · simp only [Option.getD_none, List.length_nil]
      omega
  rw [if_neg h1]
  by_cases h2 : 0 < (ds.length : Int) + e ∧ (ds.length : Int) + e ≤ 21
  -- the decimal point falls inside the digits
  · rw [if_pos h2]
    have hlt : (ds.length + e).toNat < ds.length := by omega
    have hdrop : ds.drop (ds.length + e).toNat ≠ [] := by
      rw [ne_eq, List.drop_eq_nil_iff]
      omega
    refine ⟨ds.take (ds.length + e).toNat, ds.drop (ds.length + e).toNat, none,
      by simp [literalTail, hdrop], ?_, fun d hd => digits d (List.mem_of_mem_take hd),
      fun d hd => digits d (List.mem_of_mem_drop hd), ?_, 0, ?_, ?_⟩
    · rw [ne_eq, List.take_eq_nil_iff, not_or]
      exact ⟨by omega, nonempty⟩
    · right
      rw [List.head?_take, if_neg (by omega)]
      exact lead
    · rw [List.take_append_drop, value, pow_zero, mul_one]
    · simp only [Option.getD_none, List.length_drop]
      omega
  rw [if_neg h2]
  by_cases h3 : -6 < (ds.length : Int) + e ∧ (ds.length : Int) + e ≤ 0
  -- a small fraction, written out with leading zeros
  · rw [if_pos h3]
    refine ⟨['0'], List.replicate (-(ds.length + e)).toNat '0' ++ ds, none,
      by simp [literalTail, nonempty], by simp, ?_, ?_, Or.inl (by simp), 0, ?_, ?_⟩
    · intro d hd
      rw [List.mem_singleton.mp hd]
      decide
    · intro d hd
      rcases List.mem_append.mp hd with hd | hd
      · exact zeros _ d hd
      · exact digits d hd
    · rw [← List.append_assoc, Nat.ofDigitChars_append, Nat.ofDigitChars_append,
        Nat.ofDigitChars_replicate_zero]
      simpa [Nat.ofDigitChars_cons] using value
    · simp only [Option.getD_none, List.length_append, List.length_replicate]
      omega
  -- exponent notation
  · rw [if_neg h3]
    have hone : ds.drop 1 = [] ↔ ds.length = 1 := by
      rw [List.drop_eq_nil_iff]
      omega
    refine ⟨ds.take 1, ds.drop 1, some (ds.length + e - 1), ?_, by simp [nonempty],
      fun d hd => digits d (List.mem_of_mem_take hd),
      fun d hd => digits d (List.mem_of_mem_drop hd), Or.inl (by simp), 0, ?_, ?_⟩
    · simp only [literalTail, hone, List.append_assoc]
    · rw [List.take_append_drop, value, pow_zero, mul_one]
    · simp only [Option.getD_some, List.length_drop]
      omega

private theorem ofDecimal_mul_pow (negative : Bool) (c j : Nat) (e : Int) (normal : c % 10 ≠ 0) :
    JsNumber.ofDecimal negative (c * 10 ^ j) e = JsNumber.ofDecimal negative c (e + j) := by
  have pos : 0 < c := by omega
  have pos' : 0 < c * 10 ^ j := Nat.mul_pos pos (by positivity)
  have enough : j ≤ c * 10 ^ j :=
    calc j ≤ 10 ^ j := (Nat.lt_pow_self (by norm_num)).le
      _ ≤ c * 10 ^ j := Nat.le_mul_of_pos_left _ pos
  simp only [JsNumber.ofDecimal, pos, pos', dif_pos, stripZeros_mul_pow _ _ _ _ normal enough,
    stripZeros_of_normal _ _ _ normal]

private theorem ofDecimal_natAbs (n : JsNumber) (negative : Bool)
    (sign : negative = decide (n.coefficient < 0)) :
    JsNumber.ofDecimal negative n.coefficient.natAbs n.exponent = n := by
  rcases n with ⟨c, e, normal⟩
  simp only at sign ⊢
  by_cases hc : c = 0
  · subst hc
    have he : e = 0 := by simpa using normal
    simp [JsNumber.ofDecimal, he]
  · have pos : 0 < c.natAbs := by omega
    have hn : c.natAbs % 10 ≠ 0 := by omega
    apply JsNumber.ext'
    · simp only [JsNumber.ofDecimal, dif_pos pos, stripZeros_of_normal _ _ _ hn, sign,
        decide_eq_true_eq]
      split <;> omega
    · simp only [JsNumber.ofDecimal, dif_pos pos, stripZeros_of_normal _ _ _ hn]

private theorem readMagnitude_magnitudeText (n : JsNumber) (negative : Bool)
    (sign : negative = decide (n.coefficient < 0)) :
    readMagnitude negative (magnitudeText n.coefficient.natAbs n.exponent) = some n := by
  by_cases hc : n.coefficient = 0
  · have he : n.exponent = 0 := by
      rcases n.normal with h | h
      · exact h.2
      · omega
    have hz : n = ⟨0, 0, Or.inl ⟨rfl, rfl⟩⟩ := JsNumber.ext' hc he
    subst hz
    cases negative <;> rfl
  · have normal : n.coefficient.natAbs % 10 ≠ 0 := by
      have := n.normal
      omega
    obtain ⟨int, fraction, exponent, htext, hne, hd, hf, hlead, j, hval, hexp⟩ :=
      magnitudeText_literal n.coefficient.natAbs n.exponent (by omega)
    rw [htext, readMagnitude_literal negative int fraction exponent hne hd hf hlead, hval,
      ofDecimal_mul_pow _ _ _ _ normal, hexp, ofDecimal_natAbs n negative sign]

private theorem magnitudeText_head (c : Nat) (e : Int) :
    ∃ d rest, magnitudeText c e = d :: rest ∧ d.isDigit = true := by
  have digits : ∀ d ∈ Nat.toDigits 10 c, d.isDigit = true := fun d hd => isDigit_toDigits hd
  have nonempty : Nat.toDigits 10 c ≠ [] := Nat.toDigits_ne_nil
  unfold magnitudeText
  generalize Nat.toDigits 10 c = ds at *
  cases ds with
  | nil => exact absurd rfl nonempty
  | cons d ds =>
    have hd := digits d (by simp)
    simp only
    split
    · exact ⟨d, _, rfl, hd⟩
    split
    · rename_i h
      obtain ⟨m, hm⟩ : ∃ m, (((d :: ds).length : Int) + e).toNat = m + 1 :=
        ⟨_, (Nat.succ_pred_eq_of_pos (by omega)).symm⟩
      rw [hm]
      exact ⟨d, _, rfl, hd⟩
    split
    · exact ⟨'0', _, rfl, by decide⟩
    · exact ⟨d, _, rfl, hd⟩

private theorem isNumberChar_magnitudeText (c : Nat) (e : Int) :
    ∀ d ∈ magnitudeText c e, isNumberChar d = true := by
  have digit : ∀ {d : Char}, d.isDigit = true → isNumberChar d = true := by
    intro d h
    simp [isNumberChar, h]
  have digits : ∀ {m : Nat} {d : Char}, d ∈ Nat.toDigits 10 m → isNumberChar d = true :=
    fun hd => digit (isDigit_toDigits hd)
  intro d hd
  unfold magnitudeText at hd
  simp only at hd
  split at hd
  · rcases List.mem_append.mp hd with hd | hd
    · exact digits hd
    · rw [List.eq_of_mem_replicate hd]
      decide
  split at hd
  · rcases List.mem_append.mp hd with hd | hd
    · exact digits (List.mem_of_mem_take hd)
    · rcases List.mem_cons.mp hd with rfl | hd
      · decide
      · exact digits (List.mem_of_mem_drop hd)
  split at hd
  · simp only [List.mem_cons, List.mem_append] at hd
    rcases hd with rfl | rfl | hd | hd
    · decide
    · decide
    · rw [List.eq_of_mem_replicate hd]
      decide
    · exact digits hd
  · simp only [List.mem_append, List.mem_cons] at hd
    rcases hd with (hd | hd) | rfl | rfl | hd
    · exact digits (List.mem_of_mem_take hd)
    · split at hd
      · simp at hd
      · rcases List.mem_cons.mp hd with rfl | hd
        · decide
        · exact digits (List.mem_of_mem_drop hd)
    · decide
    · split <;> decide
    · exact digits hd

theorem isNumberChar_numberText (n : JsNumber) :
    ∀ d ∈ numberText n, isNumberChar d = true := by
  intro d hd
  unfold numberText at hd
  split at hd
  · rcases List.mem_cons.mp hd with rfl | hd
    · decide
    · exact isNumberChar_magnitudeText _ _ d hd
  · exact isNumberChar_magnitudeText _ _ d hd

/-- A safe integer is written out in digits. -/
theorem numberText_ofInt {m : Int} (pos : 0 < m) (safe : m ≤ JsNumber.maxSafeInteger) :
    numberText (JsNumber.ofInt m) = Nat.toDigits 10 m.toNat := by
  obtain ⟨n, rfl⟩ := Int.eq_ofNat_of_zero_le pos.le
  have hn : 0 < n := by omega
  obtain ⟨j, hexponent, hvalue⟩ := JsNumber.stripZeros_value n n
  set c := (stripZeros n n 0).1 with hc
  have hcpos : 0 < c := by
    rcases Nat.eq_zero_or_pos c with h | h
    · rw [h, Nat.zero_mul] at hvalue
      omega
    · exact h
  have hdigits : Nat.toDigits 10 n = Nat.toDigits 10 c ++ List.replicate j '0' := by
    have hall : ∀ d ∈ Nat.toDigits 10 c ++ List.replicate j '0', d.isDigit = true := by
      intro d hd
      rcases List.mem_append.mp hd with hd | hd
      · exact isDigit_toDigits hd
      · rw [List.eq_of_mem_replicate hd]
        rfl
    have hnonempty : Nat.toDigits 10 c ≠ [] := Nat.toDigits_ne_nil
    have hhead : (Nat.toDigits 10 c ++ List.replicate j '0').head? ≠ some '0' := by
      rw [List.head?_append_of_ne_nil _ hnonempty]
      exact head?_toDigits_ne_zero hcpos
    have hof : Nat.ofDigitChars 10 (Nat.toDigits 10 c ++ List.replicate j '0') 0 = n := by
      rw [Nat.ofDigitChars_append, Nat.ofDigitChars_replicate_zero,
        Nat.ofDigitChars_ten_toDigits, hvalue, Nat.mul_comm]
    have := (toDigits_ofDigitChars hall hhead (by simp [hnonempty])).2
    rwa [hof] at this
  have hlength : (Nat.toDigits 10 n).length ≤ 16 := by
    rw [Nat.length_toDigits_le_iff (by norm_num) (by norm_num)]
    have : (n : Int) ≤ 9007199254740991 := safe
    omega
  have hcoefficient : (JsNumber.ofInt n).coefficient = c := by
    simp [JsNumber.ofInt, JsNumber.ofDecimal, hn, hc]
  have hexp : (JsNumber.ofInt n).exponent = j := by
    simp [JsNumber.ofInt, JsNumber.ofDecimal, hn, hexponent]
  rw [hdigits, List.length_append, List.length_replicate] at hlength
  rw [numberText, hcoefficient, hexp, if_neg (by omega), magnitudeText, Int.natAbs_natCast]
  rw [if_pos (by omega), Int.toNat_natCast, Int.toNat_natCast, hdigits]

theorem numberText_head (n : JsNumber) :
    ∃ d rest, numberText n = d :: rest ∧ (d = '-' ∨ d.isDigit = true) := by
  unfold numberText
  split
  · exact ⟨'-', _, rfl, Or.inl rfl⟩
  · obtain ⟨d, rest, h, hd⟩ := magnitudeText_head n.coefficient.natAbs n.exponent
    exact ⟨d, rest, h, Or.inr hd⟩

private theorem readNumber_numberText (n : JsNumber) : readNumber (numberText n) = some n := by
  unfold numberText
  split
  · rename_i h
    simp only [readNumber, List.head?_cons, if_true, List.tail_cons]
    exact readMagnitude_magnitudeText n true (by simp [h])
  · rename_i h
    obtain ⟨d, rest, ht, hd⟩ := magnitudeText_head n.coefficient.natAbs n.exponent
    have hne : ¬ (magnitudeText n.coefficient.natAbs n.exponent).head? = some '-' := by
      rw [ht]
      rintro ⟨⟩
      simp at hd
    rw [readNumber, if_neg hne]
    exact readMagnitude_magnitudeText n false (by simp [h])

/-- A number literal that nothing extends determines the number and what follows it. -/
theorem numberText_append_inj {n m : JsNumber} {rest rest' : List Char} (stop : NumberEnd rest)
    (stop' : NumberEnd rest') (h : numberText n ++ rest = numberText m ++ rest') :
    n = m ∧ rest = rest' := by
  obtain ⟨literal, tail⟩ := takeWhile_dropWhile_append (isNumberChar_numberText n) stop
  obtain ⟨literal', tail'⟩ := takeWhile_dropWhile_append (isNumberChar_numberText m) stop'
  rw [h, tail'] at tail
  rw [h, literal'] at literal
  have read := readNumber_numberText m
  rw [literal, readNumber_numberText, Option.some.injEq] at read
  exact ⟨read, tail.symm⟩

mutual

/-- Every object lists its keys as the runtime would: distinct and in own-property order. -/
def OwnOrdered : Json → Prop
  | .array items => OwnOrderedItems items
  | .object fields => fromEntries fields = fields ∧ OwnOrderedFields fields
  | _ => True

def OwnOrderedItems : List Json → Prop
  | [] => True
  | v :: items => OwnOrdered v ∧ OwnOrderedItems items

def OwnOrderedFields : List (String × Json) → Prop
  | [] => True
  | (_, v) :: fields => OwnOrdered v ∧ OwnOrderedFields fields

end

theorem ownOrderedItems_iff (items : List Json) :
    OwnOrderedItems items ↔ ∀ v ∈ items, OwnOrdered v := by
  induction items with
  | nil => simp [OwnOrderedItems]
  | cons v items ih => simp [OwnOrderedItems, ih]

theorem ownOrderedFields_iff (fields : List (String × Json)) :
    OwnOrderedFields fields ↔ ∀ f ∈ fields, OwnOrdered f.2 := by
  induction fields with
  | nil => simp [OwnOrderedFields]
  | cons f fields ih =>
    rcases f with ⟨k, v⟩
    simp [OwnOrderedFields, ih]

private theorem text_head (v : Json) :
    ∃ c rest, text v = c :: rest ∧ isSpace c = false ∧ c ≠ ']' := by
  cases v with
  | null => exact ⟨'n', _, rfl, by decide, by decide⟩
  | bool b => cases b <;> exact ⟨_, _, rfl, by decide, by decide⟩
  | number n =>
    obtain ⟨d, rest, h, hd⟩ := numberText_head n
    refine ⟨d, rest, by rw [text, h], ?_⟩
    rcases hd with rfl | hd
    · decide
    · constructor
      · by_contra hs
        simp only [isSpace, Bool.not_eq_false, Bool.or_eq_true, decide_eq_true_eq] at hs
        rcases hs with ((rfl | rfl) | rfl) | rfl <;> simp at hd
      · rintro rfl
        simp at hd
  | string s => exact ⟨'\x22', _, rfl, by decide, by decide⟩
  | array items => cases items <;> exact ⟨'[', _, by rw [text], by decide, by decide⟩
  | object fields =>
    cases fields with
    | nil => exact ⟨'\x7b', _, by rw [text], by decide, by decide⟩
    | cons f fields =>
      rcases f with ⟨k, v⟩
      exact ⟨'\x7b', _, by rw [text], by decide, by decide⟩

private theorem skipSpace_cons {c : Char} (h : isSpace c = false) (rest : List Char) :
    skipSpace (c :: rest) = c :: rest := by
  simp [skipSpace, h]

private theorem skipSpace_text (v : Json) (rest : List Char) :
    skipSpace (text v ++ rest) = text v ++ rest := by
  obtain ⟨c, t, h, hs, -⟩ := text_head v
  rw [h, List.cons_append, skipSpace_cons hs]

private theorem numberEnd_itemsText (items : List Json) (rest : List Char) :
    NumberEnd (itemsText items ++ rest) := by
  intro c hc
  cases items with
  | nil =>
    have : c = ']' := by simpa [itemsText, eq_comm] using hc
    subst this
    decide
  | cons v items =>
    have : c = ',' := by simpa [itemsText, eq_comm] using hc
    subst this
    decide

private theorem numberEnd_fieldsText (fields : List (String × Json)) (rest : List Char) :
    NumberEnd (fieldsText fields ++ rest) := by
  intro c hc
  cases fields with
  | nil =>
    have : c = '\x7d' := by simpa [fieldsText, eq_comm] using hc
    subst this
    decide
  | cons f fields =>
    rcases f with ⟨k, v⟩
    have : c = ',' := by simpa [fieldsText, eq_comm] using hc
    subst this
    decide

/-- What the parser does on the text of `v`, wherever that text stands. -/
private def ParsesBack (v : Json) : Prop :=
  ∀ (fuel : Nat) (rest : List Char), NumberEnd rest → (text v).length ≤ fuel →
    parseValue fuel (text v ++ rest) = some (v, rest)

private theorem parsesBack_number (n : JsNumber) : ParsesBack (.number n) := by
  intro fuel rest stop enough
  obtain ⟨d, t, ht, hd⟩ := numberText_head n
  cases fuel with
  | zero => simp [text, ht] at enough
  | succ fuel =>
    have hskip := skipSpace_text (.number n) rest
    obtain ⟨htake, hdrop⟩ := takeWhile_dropWhile_append (isNumberChar_numberText n) stop
    simp only [text] at hskip ⊢
    rw [ht] at hskip htake hdrop ⊢
    have hn : ∀ c : Char, c ≠ '-' → c.isDigit = false → d ≠ c := by
      rintro c hc hc' rfl
      rcases hd with h | h
      · exact hc h
      · simp [hc'] at h
    have h1 := hn '\x22' (by decide) (by decide)
    have h2 := hn '[' (by decide) (by decide)
    have h3 := hn '\x7b' (by decide) (by decide)
    have h4 := hn 'n' (by decide) (by decide)
    have h5 := hn 't' (by decide) (by decide)
    have h6 := hn 'f' (by decide) (by decide)
    simp only [List.cons_append] at hskip htake hdrop ⊢
    simp only [parseValue, hskip, h1, h2, h3, h4, h5, h6, if_false, htake, hdrop, ← ht,
      readNumber_numberText, Option.map_some]

private theorem parsesBack_string (s : String) : ParsesBack (.string s) := by
  intro fuel rest _ enough
  cases fuel with
  | zero => simp [text, quoteString] at enough
  | succ fuel =>
    have hskip := skipSpace_text (.string s) rest
    simp only [text, quoteString, List.cons_append, List.append_assoc, List.nil_append] at hskip ⊢
    simp only [parseValue, hskip, if_true, parseChars_quoteString, Option.map_some,
      String.ofList_toList]

private theorem parseItems_itemsText (items : List Json)
    (each : ∀ v ∈ items, ParsesBack v) (fuel : Nat) (rest : List Char)
    (enough : (itemsText items).length ≤ fuel) :
    parseItems fuel (itemsText items ++ rest) = some (items, rest) := by
  induction items generalizing fuel with
  | nil =>
    cases fuel with
    | zero => simp [itemsText] at enough
    | succ fuel =>
      simp [itemsText, parseItems, skipSpace_cons (show isSpace ']' = false by decide)]
  | cons v items ih =>
    cases fuel with
    | zero => simp [itemsText] at enough
    | succ fuel =>
      simp only [itemsText, List.length_cons, List.length_append] at enough
      have hv := each v (by simp) fuel (itemsText items ++ rest)
        (numberEnd_itemsText items rest) (by omega)
      have hitems := ih (fun w hw => each w (by simp [hw])) fuel (by omega)
      simp only [itemsText, List.cons_append, List.append_assoc, parseItems,
        skipSpace_cons (show isSpace ',' = false by decide), hv, hitems, Option.map_some]

private theorem parseField_text (k : String) (v : Json) (hv : ParsesBack v) (fuel : Nat)
    (rest : List Char) (stop : NumberEnd rest) (enough : (text v).length < fuel) :
    parseField fuel (quoteString k ++ ':' :: (text v ++ rest)) = some ((k, v), rest) := by
  cases fuel with
  | zero => omega
  | succ fuel =>
    have hvalue := hv fuel rest stop (by omega)
    simp only [quoteString, List.cons_append, List.append_assoc, List.nil_append, parseField,
      skipSpace_cons (show isSpace '\x22' = false by decide), parseChars_quoteString,
      skipSpace_cons (show isSpace ':' = false by decide), hvalue, Option.map_some,
      String.ofList_toList]

private theorem length_quoteString (k : String) : 2 ≤ (quoteString k).length := by
  simp [quoteString]

private theorem parseFields_fieldsText (fields : List (String × Json))
    (each : ∀ f ∈ fields, ParsesBack f.2) (fuel : Nat) (rest : List Char)
    (enough : (fieldsText fields).length ≤ fuel) :
    parseFields fuel (fieldsText fields ++ rest) = some (fields, rest) := by
  induction fields generalizing fuel with
  | nil =>
    cases fuel with
    | zero => simp [fieldsText] at enough
    | succ fuel =>
      simp [fieldsText, parseFields, skipSpace_cons (show isSpace '\x7d' = false by decide)]
  | cons f fields ih =>
    rcases f with ⟨k, v⟩
    cases fuel with
    | zero => simp [fieldsText] at enough
    | succ fuel =>
      have hk := length_quoteString k
      simp only [fieldsText, List.length_cons, List.length_append] at enough
      have hv := parseField_text k v (each (k, v) (by simp)) fuel (fieldsText fields ++ rest)
        (numberEnd_fieldsText fields rest) (by omega)
      have hfields := ih (fun w hw => each w (by simp [hw])) fuel (by omega)
      simp only [fieldsText, List.cons_append, List.append_assoc, parseFields,
        skipSpace_cons (show isSpace ',' = false by decide), hv, hfields, Option.map_some]

private theorem parsesBack_array (items : List Json) (each : ∀ v ∈ items, ParsesBack v) :
    ParsesBack (.array items) := by
  intro fuel rest _ enough
  have open' : isSpace '[' = false := by decide
  cases items with
  | nil =>
    cases fuel with
    | zero => simp [text] at enough
    | succ fuel =>
      simp [text, parseValue, skipSpace_cons open',
        skipSpace_cons (show isSpace ']' = false by decide)]
  | cons v items =>
    cases fuel with
    | zero => simp [text] at enough
    | succ fuel =>
      simp only [text, List.length_cons, List.length_append] at enough
      have hv := each v (by simp) fuel (itemsText items ++ rest)
        (numberEnd_itemsText items rest) (by omega)
      have hitems := parseItems_itemsText items (fun w hw => each w (by simp [hw])) fuel rest
        (by omega)
      have hskip := skipSpace_text v (itemsText items ++ rest)
      obtain ⟨c, t, hc, -, hne⟩ := text_head v
      rw [hc] at hskip hv
      simp only [text, List.cons_append, List.append_assoc, parseValue, skipSpace_cons open',
        hc] at hskip hv ⊢
      rw [hskip]
      simp only [show ¬ ('[' : Char) = '\x22' by decide, if_false, if_true]
      split
      · rename_i h
        exact absurd (List.cons.inj h).1 hne
      · simp only [hv, hitems, Option.map_some]

private theorem parsesBack_object (fields : List (String × Json))
    (ordered : fromEntries fields = fields) (each : ∀ f ∈ fields, ParsesBack f.2) :
    ParsesBack (.object fields) := by
  intro fuel rest _ enough
  have open' : isSpace '\x7b' = false := by decide
  have quote : isSpace '\x22' = false := by decide
  cases fields with
  | nil =>
    cases fuel with
    | zero => simp [text] at enough
    | succ fuel =>
      simp [text, parseValue, skipSpace_cons open',
        skipSpace_cons (show isSpace '\x7d' = false by decide)]
  | cons f fields =>
    rcases f with ⟨k, v⟩
    cases fuel with
    | zero => simp [text] at enough
    | succ fuel =>
      have hk := length_quoteString k
      simp only [text, List.length_cons, List.length_append] at enough
      have hf := parseField_text k v (each (k, v) (by simp)) fuel (fieldsText fields ++ rest)
        (numberEnd_fieldsText fields rest) (by omega)
      have hfields := parseFields_fieldsText fields (fun w hw => each w (by simp [hw])) fuel rest
        (by omega)
      have hskip : skipSpace (quoteString k ++ ':' :: (text v ++ (fieldsText fields ++ rest))) =
          quoteString k ++ ':' :: (text v ++ (fieldsText fields ++ rest)) := by
        rw [quoteString, List.cons_append, skipSpace_cons quote]
      simp only [text, List.cons_append, List.append_assoc, parseValue, skipSpace_cons open',
        hskip]
      simp only [show ¬ ('\x7b' : Char) = '\x22' by decide,
        show ¬ ('\x7b' : Char) = '[' by decide, if_false, if_true]
      split
      · rename_i h
        simp [quoteString] at h
      · simp only [hf, hfields, Option.map_some, ordered]

private theorem parsesBack_of_ownOrdered (v : Json) (ordered : OwnOrdered v) : ParsesBack v := by
  induction v with
  | null =>
    intro fuel rest _ enough
    cases fuel with
    | zero => simp [text] at enough
    | succ fuel =>
      simp [text, parseValue, skipSpace_cons (show isSpace 'n' = false by decide)]
  | bool b =>
    intro fuel rest _ enough
    cases fuel with
    | zero => cases b <;> simp [text] at enough
    | succ fuel =>
      cases b
      · simp [text, parseValue, skipSpace_cons (show isSpace 'f' = false by decide)]
      · simp [text, parseValue, skipSpace_cons (show isSpace 't' = false by decide)]
  | number n => exact parsesBack_number n
  | string s => exact parsesBack_string s
  | array items ih =>
    have each := (ownOrderedItems_iff items).mp ordered
    exact parsesBack_array items (fun v hv => ih v hv (each v hv))
  | object fields ih =>
    have each := (ownOrderedFields_iff fields).mp ordered.2
    exact parsesBack_object fields ordered.1 (fun f hf => ih f hf (each f hf))

/-- `JSON.parse` reads back exactly what `JSON.stringify` printed. -/
theorem parse_stringify (v : Json) (ordered : OwnOrdered v) : parse (stringify v) = some v := by
  have stop : NumberEnd [] := by simp [NumberEnd]
  have h := parsesBack_of_ownOrdered v ordered ((text v).length + 1) [] stop (by omega)
  rw [List.append_nil] at h
  simp [parse, stringify, h, skipSpace]

theorem stringify_injective {v w : Json} (hv : OwnOrdered v) (hw : OwnOrdered w)
    (h : stringify v = stringify w) : v = w := by
  have := parse_stringify v hv
  rw [h, parse_stringify w hw] at this
  exact (Option.some.inj this).symm

example : parse "\x7b\"b\":[1.50, -2e3 ,true],\"1\":\"\\u0041\"\x7d" =
    some (.object [("1", .string "A"), ("b", .array [.number (.ofDecimal false 15 (-1)),
      .number (.ofInt (-2000)), .bool true])]) := by decide +kernel

end Loopx.Json
