/- GID: Loopx/Json/UnitText
   generality: G
   source: none
   digest: JSON values whose strings are code units, and their text, which determines them. -/

import Loopx.Json.Text
import Loopx.Lib.CodePoints

set_option autoImplicit false
set_option relaxedAutoImplicit false

/-- A JSON value with strings as the runtime holds them. The fields of an object stand in the order
`Object.keys` lists them. -/
inductive Loopx.UnitJson : Type where
  | null
  | bool (b : Bool)
  | number (n : Loopx.Json.JsNumber)
  | string (s : Loopx.Lib.CodePoints.Units)
  | array (items : List Loopx.UnitJson)
  | object (fields : List (Loopx.Lib.CodePoints.Units × Loopx.UnitJson))

namespace Loopx.UnitJson

open Loopx.Json (JsNumber quoteChar numberText isNumberChar NumberEnd numberText_head hex4?
  hexValue?)
open Loopx.Lib.CodePoints
open Loopx.Lib.KeyedList

/-- Induction on a value, with the hypothesis on every element and every field. -/
@[elab_as_elim, induction_eliminator]
theorem induction {P : UnitJson → Prop} (null : P .null) (bool : ∀ b, P (.bool b))
    (number : ∀ n, P (.number n)) (string : ∀ s, P (.string s))
    (array : ∀ items : List UnitJson, (∀ v ∈ items, P v) → P (.array items))
    (object : ∀ fields : List (Units × UnitJson), (∀ f ∈ fields, P f.2) → P (.object fields))
    (v : UnitJson) : P v :=
  @UnitJson.rec P (fun items => ∀ v ∈ items, P v) (fun fields => ∀ f ∈ fields, P f.2)
    (fun f => P f.2) null bool number string array object
    (by simp) (by intro v l hv hl; simpa using ⟨hv, hl⟩)
    (by simp) (by intro f l hf hl; simpa using ⟨hf, fun a b h => hl (a, b) h⟩)
    (by intro _ _ h; exact h) v

/-! ## Quoted strings -/

/-- `UnicodeEscape`. -/
def unicodeEscape (p : Nat) : List Char :=
  ['\x5c', 'u', Nat.digitChar (p / 0x1000 % 16), Nat.digitChar (p / 0x100 % 16),
    Nat.digitChar (p / 0x10 % 16), Nat.digitChar (p % 16)]

/-- `QuoteJSONString` on one code point: an unpaired surrogate is escaped. -/
def quotePoint (p : Nat) : List Char :=
  if IsSurrogate p then unicodeEscape p else quoteChar (Char.ofNat p)

def quoteUnits (s : Units) : List Char :=
  '\x22' :: ((points s).flatMap quotePoint ++ ['\x22'])

/-- One code point of a quoted string, read back. -/
def readPoint : List Char → Option (Nat × List Char)
  | [] => none
  | c :: rest =>
    if c = '\x5c' then
      match rest with
      | 'u' :: rest => hex4? rest
      | 'b' :: rest => some (8, rest)
      | 't' :: rest => some (9, rest)
      | 'n' :: rest => some (10, rest)
      | 'f' :: rest => some (12, rest)
      | 'r' :: rest => some (13, rest)
      | d :: rest => some (d.toNat, rest)
      | [] => none
    else some (c.toNat, rest)

private theorem hexValue?_digitChar {d : Nat} (h : d < 16) :
    hexValue? (Nat.digitChar d) = some d := by
  have hex : ∀ d < 16, hexValue? (Nat.digitChar d) = some d := by decide
  exact hex d h

private theorem readPoint_unicodeEscape {p : Nat} (h : p < 0x10000) (rest : List Char) :
    readPoint (unicodeEscape p ++ rest) = some (p, rest) := by
  have value : ((p / 0x1000 % 16 * 16 + p / 0x100 % 16) * 16 + p / 0x10 % 16) * 16 + p % 16 =
      p := by
    omega
  simp [unicodeEscape, readPoint, hex4?, hexValue?_digitChar (Nat.mod_lt _ (by decide : 0 < 16)),
    value]

private theorem readPoint_quoteChar (c : Char) (rest : List Char) :
    readPoint (quoteChar c ++ rest) = some (c.toNat, rest) := by
  unfold quoteChar
  split
  · subst_vars
    rfl
  split
  · subst_vars
    rfl
  split
  · subst_vars
    rfl
  split
  · subst_vars
    rfl
  split
  · subst_vars
    rfl
  split
  · subst_vars
    rfl
  split
  · subst_vars
    rfl
  split
  · next small =>
    have zero : hexValue? '0' = some 0 := by decide
    have value : c.toNat / 16 * 16 + c.toNat % 16 = c.toNat := by omega
    simp [readPoint, hex4?, zero, hexValue?_digitChar (show c.toNat / 16 < 16 by omega),
      hexValue?_digitChar (show c.toNat % 16 < 16 by omega), value]
  · next _ backslash _ _ _ _ _ _ =>
    simp [readPoint, backslash]

private theorem toNat_ofNat {p : Nat} (bound : p < 0x110000) (scalar : ¬IsSurrogate p) :
    (Char.ofNat p).toNat = p := by
  have valid : p.isValidChar := by
    unfold IsSurrogate at scalar
    unfold Nat.isValidChar
    omega
  rw [Char.ofNat, dif_pos valid]
  rfl

theorem readPoint_quotePoint {p : Nat} (bound : p < 0x110000) (rest : List Char) :
    readPoint (quotePoint p ++ rest) = some (p, rest) := by
  unfold quotePoint
  split
  · next surrogate => exact readPoint_unicodeEscape (by unfold IsSurrogate at surrogate; omega) rest
  · next scalar =>
    rw [readPoint_quoteChar, toNat_ofNat bound scalar]

/-- A quoted code point does not close the string. -/
private theorem head_quotePoint (p : Nat) :
    ∃ c rest, quotePoint p = c :: rest ∧ c ≠ '\x22' := by
  unfold quotePoint
  split
  · exact ⟨_, _, rfl, by decide⟩
  · unfold quoteChar
    repeat' split
    all_goals first
      | exact ⟨_, _, rfl, by decide⟩
      | exact ⟨_, _, rfl, by assumption⟩

private theorem quotedPoints_append_inj {ps qs : List Nat} {rest rest' : List Char}
    (bound : ∀ p ∈ ps, p < 0x110000) (bound' : ∀ q ∈ qs, q < 0x110000)
    (h : ps.flatMap quotePoint ++ '\x22' :: rest = qs.flatMap quotePoint ++ '\x22' :: rest') :
    ps = qs ∧ rest = rest' := by
  induction ps generalizing qs with
  | nil =>
    cases qs with
    | nil => exact ⟨rfl, (List.cons.inj h).2⟩
    | cons q qs =>
      obtain ⟨c, tail, head, open'⟩ := head_quotePoint q
      rw [List.flatMap_cons, head] at h
      exact absurd (List.cons.inj h).1.symm open'
  | cons p ps ih =>
    cases qs with
    | nil =>
      obtain ⟨c, tail, head, open'⟩ := head_quotePoint p
      rw [List.flatMap_cons, head] at h
      exact absurd (List.cons.inj h).1 open'
    | cons q qs =>
      rw [List.flatMap_cons, List.flatMap_cons, List.append_assoc, List.append_assoc] at h
      have read := congrArg readPoint h
      rw [readPoint_quotePoint (bound p (by simp)), readPoint_quotePoint (bound' q (by simp)),
        Option.some.injEq, Prod.mk.injEq] at read
      obtain ⟨rfl, read⟩ := read
      obtain ⟨rfl, same⟩ := ih (fun p mem => bound p (by simp [mem]))
        (fun q mem => bound' q (by simp [mem])) read
      exact ⟨rfl, same⟩

theorem quoteUnits_append_inj {s t : Units} {rest rest' : List Char}
    (h : quoteUnits s ++ rest = quoteUnits t ++ rest') : s = t ∧ rest = rest' := by
  simp only [quoteUnits, List.cons_append, List.append_assoc, List.nil_append, List.cons.injEq,
    true_and] at h
  obtain ⟨same, rest⟩ := quotedPoints_append_inj (fun _ => lt_of_mem_points)
    (fun _ => lt_of_mem_points) h
  exact ⟨points_injective same, rest⟩

/-! ## The text of a value -/

mutual

/-- `JSON.stringify`, as a list of characters: what it writes holds no unpaired surrogate. -/
def text : UnitJson → List Char
  | .null => ['n', 'u', 'l', 'l']
  | .bool true => ['t', 'r', 'u', 'e']
  | .bool false => ['f', 'a', 'l', 's', 'e']
  | .number n => numberText n
  | .string s => quoteUnits s
  | .array [] => ['[', ']']
  | .array (v :: items) => '[' :: (text v ++ itemsText items)
  | .object [] => ['\x7b', '\x7d']
  | .object ((k, v) :: fields) => '\x7b' :: (quoteUnits k ++ ':' :: (text v ++ fieldsText fields))

def itemsText : List UnitJson → List Char
  | [] => [']']
  | v :: items => ',' :: (text v ++ itemsText items)

def fieldsText : List (Units × UnitJson) → List Char
  | [] => ['\x7d']
  | (k, v) :: fields => ',' :: (quoteUnits k ++ ':' :: (text v ++ fieldsText fields))

end

/-- What the first character of a text tells about the value. -/
inductive Kind where
  | null | truth | falsity | number | string | array | object
deriving DecidableEq

def kind : UnitJson → Kind
  | .null => .null
  | .bool true => .truth
  | .bool false => .falsity
  | .number _ => .number
  | .string _ => .string
  | .array _ => .array
  | .object _ => .object

def kindOf (c : Char) : Kind :=
  if c = 'n' then .null
  else if c = 't' then .truth
  else if c = 'f' then .falsity
  else if c = '\x22' then .string
  else if c = '[' then .array
  else if c = '\x7b' then .object
  else .number

private theorem kindOf_number {c : Char} (h : c = '-' ∨ c.isDigit = true) :
    kindOf c = .number := by
  obtain rfl | digit := h
  · decide
  · have apart : ∀ d : Char, d.isDigit = false → c ≠ d := by
      rintro d other rfl
      rw [other] at digit
      cases digit
    simp [kindOf, apart]

private theorem head_text (v : UnitJson) :
    ∃ c rest, text v = c :: rest ∧ kindOf c = kind v := by
  cases v with
  | null => exact ⟨'n', _, rfl, by decide⟩
  | bool b => cases b <;> exact ⟨_, _, rfl, by decide⟩
  | number n =>
    obtain ⟨c, rest, head, digit⟩ := numberText_head n
    exact ⟨c, rest, by rw [text, head], kindOf_number digit⟩
  | string s => exact ⟨'\x22', _, rfl, rfl⟩
  | array items => cases items <;> exact ⟨'[', _, by rw [text], rfl⟩
  | object fields => cases fields <;> exact ⟨'\x7b', _, by rw [text], rfl⟩

private theorem kind_eq {v w : UnitJson} {rest rest' : List Char}
    (h : text v ++ rest = text w ++ rest') : kind v = kind w := by
  obtain ⟨c, tail, head, hc⟩ := head_text v
  obtain ⟨d, tail', head', hd⟩ := head_text w
  rw [head, head', List.cons_append, List.cons_append] at h
  rw [← hc, ← hd, (List.cons.inj h).1]

private theorem not_closing (v : UnitJson) {rest rest' : List Char} {c : Char}
    (closing : kindOf c = .number) (apart : c ≠ '-' ∧ c.isDigit = false) :
    text v ++ rest ≠ c :: rest' := by
  intro h
  obtain ⟨d, tail, head, hd⟩ := head_text v
  rw [head, List.cons_append] at h
  obtain rfl := (List.cons.inj h).1
  cases v with
  | number n =>
    obtain ⟨d', tail', head', digit⟩ := numberText_head n
    rw [text, head'] at head
    obtain rfl := (List.cons.inj head).1
    obtain rfl | digit := digit
    · exact apart.1 rfl
    · rw [digit] at apart
      cases apart.2
  | bool b => cases b <;> rw [closing] at hd <;> cases hd
  | _ => rw [closing] at hd; cases hd

private theorem numberEnd_itemsText (items : List UnitJson) (rest : List Char) :
    NumberEnd (itemsText items ++ rest) := by
  cases items with
  | nil => simp [NumberEnd, itemsText, isNumberChar]
  | cons v items => simp [NumberEnd, itemsText, isNumberChar]

private theorem numberEnd_fieldsText (fields : List (Units × UnitJson)) (rest : List Char) :
    NumberEnd (fieldsText fields ++ rest) := by
  cases fields with
  | nil => simp [NumberEnd, fieldsText, isNumberChar]
  | cons f fields => simp [NumberEnd, fieldsText, isNumberChar]

/-- The text of a value, before whatever ends a number literal, is the text of it alone. -/
def Determined (v : UnitJson) : Prop :=
  ∀ w rest rest', NumberEnd rest → NumberEnd rest' → text v ++ rest = text w ++ rest' →
    v = w ∧ rest = rest'

private theorem itemsText_inj {items items' : List UnitJson} {rest rest' : List Char}
    (each : ∀ v ∈ items, Determined v)
    (h : itemsText items ++ rest = itemsText items' ++ rest') : items = items' ∧ rest = rest' := by
  induction items generalizing items' with
  | nil =>
    cases items' with
    | nil => exact ⟨rfl, (List.cons.inj h).2⟩
    | cons w items' => exact absurd (List.cons.inj h).1 (by decide)
  | cons v items ih =>
    cases items' with
    | nil => exact absurd (List.cons.inj h).1 (by decide)
    | cons w items' =>
      simp only [itemsText, List.cons_append, List.append_assoc, List.cons.injEq, true_and] at h
      obtain ⟨rfl, tail⟩ := each v (by simp) w _ _ (numberEnd_itemsText items rest)
        (numberEnd_itemsText items' rest') h
      obtain ⟨rfl, same⟩ := ih (fun v mem => each v (by simp [mem])) tail
      exact ⟨rfl, same⟩

private theorem field_inj {k k' : Units} {v w : UnitJson} {rest rest' : List Char}
    (determined : Determined v) (stop : NumberEnd rest) (stop' : NumberEnd rest')
    (h : quoteUnits k ++ ':' :: (text v ++ rest) = quoteUnits k' ++ ':' :: (text w ++ rest')) :
    k = k' ∧ v = w ∧ rest = rest' := by
  obtain ⟨key, h⟩ := quoteUnits_append_inj h
  obtain ⟨value, same⟩ := determined w _ _ stop stop' (List.cons.inj h).2
  exact ⟨key, value, same⟩

private theorem fieldsText_inj {fields fields' : List (Units × UnitJson)} {rest rest' : List Char}
    (each : ∀ f ∈ fields, Determined f.2)
    (h : fieldsText fields ++ rest = fieldsText fields' ++ rest') :
    fields = fields' ∧ rest = rest' := by
  induction fields generalizing fields' with
  | nil =>
    cases fields' with
    | nil => exact ⟨rfl, (List.cons.inj h).2⟩
    | cons f fields' => exact absurd (List.cons.inj h).1 (by decide)
  | cons f fields ih =>
    cases fields' with
    | nil => exact absurd (List.cons.inj h).1 (by decide)
    | cons g fields' =>
      obtain ⟨k, v⟩ := f
      obtain ⟨k', w⟩ := g
      simp only [fieldsText, List.cons_append, List.append_assoc, List.cons.injEq, true_and] at h
      obtain ⟨rfl, rfl, tail⟩ := field_inj (each (k, v) (by simp))
        (numberEnd_fieldsText fields rest) (numberEnd_fieldsText fields' rest') h
      obtain ⟨rfl, same⟩ := ih (fun f mem => each f (by simp [mem])) tail
      exact ⟨rfl, same⟩

private theorem determined_array {items : List UnitJson} (each : ∀ v ∈ items, Determined v) :
    Determined (.array items) := by
  intro w rest rest' _ _ h
  have same := kind_eq h
  cases w with
  | array items' =>
    cases items with
    | nil =>
      cases items' with
      | nil => exact ⟨rfl, (List.cons.inj (List.cons.inj h).2).2⟩
      | cons w items' =>
        simp only [text, List.cons_append, List.append_assoc, List.cons.injEq, true_and] at h
        exact absurd h.symm (not_closing w (by decide) (by decide))
    | cons v items =>
      cases items' with
      | nil =>
        simp only [text, List.cons_append, List.append_assoc, List.cons.injEq, true_and] at h
        exact absurd h (not_closing v (by decide) (by decide))
      | cons w items' =>
        simp only [text, List.cons_append, List.append_assoc, List.cons.injEq, true_and] at h
        obtain ⟨rfl, tail⟩ := each v (by simp) w _ _ (numberEnd_itemsText items rest)
          (numberEnd_itemsText items' rest') h
        obtain ⟨rfl, end'⟩ := itemsText_inj (fun v mem => each v (by simp [mem])) tail
        exact ⟨rfl, end'⟩
  | bool b => cases b <;> cases same
  | _ => cases same

private theorem determined_object {fields : List (Units × UnitJson)}
    (each : ∀ f ∈ fields, Determined f.2) : Determined (.object fields) := by
  intro w rest rest' _ _ h
  have same := kind_eq h
  cases w with
  | object fields' =>
    cases fields with
    | nil =>
      cases fields' with
      | nil => exact ⟨rfl, (List.cons.inj (List.cons.inj h).2).2⟩
      | cons g fields' => exact absurd (List.cons.inj (List.cons.inj h).2).1 (by decide)
    | cons f fields =>
      cases fields' with
      | nil => exact absurd (List.cons.inj (List.cons.inj h).2).1 (by decide)
      | cons g fields' =>
        obtain ⟨k, v⟩ := f
        obtain ⟨k', w⟩ := g
        simp only [text, List.cons_append, List.append_assoc, List.cons.injEq, true_and] at h
        obtain ⟨rfl, rfl, tail⟩ := field_inj (each (k, v) (by simp))
          (numberEnd_fieldsText fields rest) (numberEnd_fieldsText fields' rest') h
        obtain ⟨rfl, end'⟩ := fieldsText_inj (fun f mem => each f (by simp [mem])) tail
        exact ⟨rfl, end'⟩
  | bool b => cases b <;> cases same
  | _ => cases same

theorem determined (v : UnitJson) : Determined v := by
  induction v with
  | null =>
    intro w rest rest' _ _ h
    have same := kind_eq h
    cases w with
    | null => exact ⟨rfl, List.append_cancel_left h⟩
    | bool b => cases b <;> cases same
    | _ => cases same
  | bool b =>
    intro w rest rest' _ _ h
    have same := kind_eq h
    cases w with
    | bool b' =>
      cases b <;> cases b'
      · exact ⟨rfl, List.append_cancel_left h⟩
      · cases same
      · cases same
      · exact ⟨rfl, List.append_cancel_left h⟩
    | _ => cases b <;> cases same
  | number n =>
    intro w rest rest' stop stop' h
    have same := kind_eq h
    cases w with
    | number m =>
      simp only [text] at h
      obtain ⟨rfl, end'⟩ := Json.numberText_append_inj stop stop' h
      exact ⟨rfl, end'⟩
    | bool b => cases b <;> cases same
    | _ => cases same
  | string s =>
    intro w rest rest' _ _ h
    have same := kind_eq h
    cases w with
    | string t =>
      simp only [text] at h
      obtain ⟨rfl, end'⟩ := quoteUnits_append_inj h
      exact ⟨rfl, end'⟩
    | bool b => cases b <;> cases same
    | _ => cases same
  | array items each => exact determined_array each
  | object fields each => exact determined_object each

/-- Values with the same text are the same, own-property order included. -/
theorem text_injective : Function.Injective text := by
  intro v w h
  have nothing : NumberEnd [] := by simp [NumberEnd]
  exact (determined v w [] [] nothing nothing (by rw [h])).1

end Loopx.UnitJson
