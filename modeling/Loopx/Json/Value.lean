/- GID: Loopx/Json/Value
   generality: G
   digest: JSON values as the runtime holds them, with own-property order of plain objects. -/

import Mathlib.Data.Sum.Order
import Mathlib.Data.String.Basic
import Mathlib.Tactic.NormNum
import Mathlib.Tactic.Ring
import Loopx.Lib.KeyedList

set_option autoImplicit false
set_option relaxedAutoImplicit false

namespace Loopx.Json

open Loopx.Lib.KeyedList

/-- Divide out factors of ten, counting them in the exponent. -/
def stripZeros : Nat → Nat → Int → Nat × Int
  | 0, c, e => (c, e)
  | fuel + 1, c, e => if c % 10 = 0 then stripZeros fuel (c / 10) (e + 1) else (c, e)

theorem stripZeros_normal (fuel c : Nat) (e : Int) (pos : 0 < c) (enough : c ≤ fuel) :
    (stripZeros fuel c e).1 % 10 ≠ 0 := by
  induction fuel generalizing c e with
  | zero => omega
  | succ fuel ih =>
    simp only [stripZeros]
    split
    · exact ih (c / 10) (e + 1) (by omega) (by omega)
    · assumption

theorem stripZeros_of_normal (fuel c : Nat) (e : Int) (normal : c % 10 ≠ 0) :
    stripZeros fuel c e = (c, e) := by
  cases fuel with
  | zero => rfl
  | succ fuel => simp [stripZeros, normal]

theorem stripZeros_mul_pow (fuel c j : Nat) (e : Int) (normal : c % 10 ≠ 0) (enough : j ≤ fuel) :
    stripZeros fuel (c * 10 ^ j) e = (c, e + j) := by
  induction j generalizing fuel e with
  | zero => simpa using stripZeros_of_normal fuel c e normal
  | succ j ih =>
    cases fuel with
    | zero => omega
    | succ fuel =>
      have hmod : c * 10 ^ (j + 1) % 10 = 0 := by
        rw [pow_succ, ← mul_assoc]
        exact Nat.mul_mod_left _ _
      have hdiv : c * 10 ^ (j + 1) / 10 = c * 10 ^ j := by
        rw [pow_succ, ← mul_assoc]
        exact Nat.mul_div_cancel _ (by norm_num)
      simp only [stripZeros, hmod, if_true, hdiv]
      rw [ih fuel (e + 1) (by omega)]
      simp only [Prod.mk.injEq, true_and]
      push_cast
      ring

/-- A finite runtime number, held as the shortest decimal that `Number::toString` prints for it:
`coefficient * 10 ^ exponent`. Neither `===` nor `JSON.stringify` tells the two zeroes apart, so
there is one zero here. -/
structure JsNumber where
  coefficient : Int
  exponent : Int
  normal : coefficient = 0 ∧ exponent = 0 ∨ coefficient % 10 ≠ 0
deriving DecidableEq

namespace JsNumber

@[ext] theorem ext' {a b : JsNumber} (hc : a.coefficient = b.coefficient)
    (he : a.exponent = b.exponent) : a = b := by
  cases a
  cases b
  simp_all

/-- The number `± magnitude * 10 ^ e` in normal form. -/
def ofDecimal (negative : Bool) (magnitude : Nat) (e : Int) : JsNumber :=
  if pos : 0 < magnitude then
    let p := stripZeros magnitude magnitude e
    ⟨if negative then -(p.1 : Int) else p.1, p.2, by
      have h := stripZeros_normal magnitude magnitude e pos le_rfl
      right
      simp only [p]
      split <;> omega⟩
  else ⟨0, 0, Or.inl ⟨rfl, rfl⟩⟩

def ofInt (i : Int) : JsNumber := ofDecimal (i < 0) i.natAbs 0

def ofNat (n : Nat) : JsNumber := ofInt n

/-- The mathematical value, for numbers without a fractional part. -/
def toInt? (n : JsNumber) : Option Int :=
  if 0 ≤ n.exponent then some (n.coefficient * 10 ^ n.exponent.toNat) else none

/-- `Number.MAX_SAFE_INTEGER`. -/
def maxSafeInteger : Nat := 9007199254740991

/-- `Number.isSafeInteger`, with the integer it found. -/
def safeInteger? (n : JsNumber) : Option Int :=
  match n.toInt? with
  | some i => if i.natAbs ≤ maxSafeInteger then some i else none
  | none => none

theorem stripZeros_value (fuel c : Nat) :
    ∃ j : Nat, (stripZeros fuel c 0).2 = j ∧ c = (stripZeros fuel c 0).1 * 10 ^ j := by
  suffices h : ∀ (e : Int), ∃ j : Nat, (stripZeros fuel c e).2 = e + j ∧
      c = (stripZeros fuel c e).1 * 10 ^ j by
    simpa using h 0
  induction fuel generalizing c with
  | zero =>
    intro e
    exact ⟨0, by simp [stripZeros]⟩
  | succ fuel ih =>
    intro e
    simp only [stripZeros]
    split
    · rename_i hmod
      obtain ⟨j, he, hc⟩ := ih (c / 10) (e + 1)
      refine ⟨j + 1, by push_cast; omega, ?_⟩
      calc c = c / 10 * 10 := by omega
        _ = (stripZeros fuel (c / 10) (e + 1)).1 * 10 ^ j * 10 := by rw [← hc]
        _ = _ := by ring
    · exact ⟨0, by simp⟩

@[simp] theorem toInt?_ofInt (i : Int) : (ofInt i).toInt? = some i := by
  unfold ofInt ofDecimal
  split
  · rename_i pos
    obtain ⟨j, he, hc⟩ := stripZeros_value i.natAbs i.natAbs
    have value : ((stripZeros i.natAbs i.natAbs 0).1 : Int) * 10 ^ j = i.natAbs := by
      exact_mod_cast hc.symm
    simp only [toInt?, he, Int.natCast_nonneg, if_true, Int.toNat_natCast, decide_eq_true_eq]
    congr 1
    split
    · rw [neg_mul, value]
      omega
    · rw [value]
      omega
  · rename_i pos
    have hi : i = 0 := by omega
    simp [toInt?, hi]

@[simp] theorem toInt?_ofNat (n : Nat) : (ofNat n).toInt? = some (n : Int) := toInt?_ofInt n

theorem ofNat_injective : Function.Injective ofNat := by
  intro m n h
  have := congrArg toInt? h
  simpa using this

theorem safeInteger?_ofNat {n : Nat} (h : n ≤ maxSafeInteger) :
    (ofNat n).safeInteger? = some (n : Int) := by
  simp [safeInteger?, h]

end JsNumber

end Loopx.Json

/-- A JSON value. The fields of an object stand in the order `Object.keys` lists them. -/
inductive Loopx.Json : Type where
  | null
  | bool (b : Bool)
  | number (n : Loopx.Json.JsNumber)
  | string (s : String)
  | array (items : List Loopx.Json)
  | object (fields : List (String × Loopx.Json))

namespace Loopx.Json

open Loopx.Lib.KeyedList

/-- Induction on a value, with the hypothesis on every element and every field. -/
@[elab_as_elim, induction_eliminator]
theorem induction {P : Json → Prop} (null : P .null) (bool : ∀ b, P (.bool b))
    (number : ∀ n, P (.number n)) (string : ∀ s, P (.string s))
    (array : ∀ items : List Json, (∀ v ∈ items, P v) → P (.array items))
    (object : ∀ fields : List (String × Json), (∀ f ∈ fields, P f.2) → P (.object fields))
    (v : Json) : P v :=
  @Json.rec P (fun items => ∀ v ∈ items, P v) (fun fields => ∀ f ∈ fields, P f.2)
    (fun f => P f.2) null bool number string array object
    (by simp) (by intro v l hv hl; simpa using ⟨hv, hl⟩)
    (by simp) (by intro f l hf hl; simpa using ⟨hf, fun a b h => hl (a, b) h⟩)
    (by intro _ _ h; exact h) v

mutual

/-- Equality of values is decided field by field. -/
def decEq : (v w : Json) → Decidable (v = w)
  | .null, .null => isTrue rfl
  | .bool a, .bool b => decidable_of_iff (a = b) (by simp)
  | .number a, .number b => decidable_of_iff (a = b) (by simp)
  | .string a, .string b => decidable_of_iff (a = b) (by simp)
  | .array a, .array b =>
    match decEqItems a b with
    | isTrue h => isTrue (by rw [h])
    | isFalse h => isFalse (by simpa using h)
  | .object a, .object b =>
    match decEqFields a b with
    | isTrue h => isTrue (by rw [h])
    | isFalse h => isFalse (by simpa using h)
  | .null, .bool _ | .null, .number _ | .null, .string _ | .null, .array _ | .null, .object _
  | .bool _, .null | .bool _, .number _ | .bool _, .string _ | .bool _, .array _
  | .bool _, .object _ | .number _, .null | .number _, .bool _ | .number _, .string _
  | .number _, .array _ | .number _, .object _ | .string _, .null | .string _, .bool _
  | .string _, .number _ | .string _, .array _ | .string _, .object _ | .array _, .null
  | .array _, .bool _ | .array _, .number _ | .array _, .string _ | .array _, .object _
  | .object _, .null | .object _, .bool _ | .object _, .number _ | .object _, .string _
  | .object _, .array _ => isFalse (by simp)

def decEqItems : (v w : List Json) → Decidable (v = w)
  | [], [] => isTrue rfl
  | [], _ :: _ => isFalse (by simp)
  | _ :: _, [] => isFalse (by simp)
  | a :: v, b :: w =>
    match decEq a b, decEqItems v w with
    | isTrue h, isTrue h' => isTrue (by rw [h, h'])
    | isFalse h, _ => isFalse (by simp [h])
    | _, isFalse h => isFalse (by simp [h])

def decEqFields : (v w : List (String × Json)) → Decidable (v = w)
  | [], [] => isTrue rfl
  | [], _ :: _ => isFalse (by simp)
  | _ :: _, [] => isFalse (by simp)
  | (k, a) :: v, (k', b) :: w =>
    if hk : k = k' then
      match decEq a b, decEqFields v w with
      | isTrue h, isTrue h' => isTrue (by rw [hk, h, h'])
      | isFalse h, _ => isFalse (by simp [h])
      | _, isFalse h => isFalse (by simp [h])
    else isFalse (by simp [hk])

end

instance : DecidableEq Json := decEq

/-- The longest array the runtime can hold. -/
def maxArrayLength : Nat := 4294967295

mutual

/-- Every array is within the runtime's length limit. -/
def Fits : Json → Prop
  | .array items => items.length ≤ maxArrayLength ∧ FitsItems items
  | .object fields => FitsFields fields
  | _ => True

def FitsItems : List Json → Prop
  | [] => True
  | v :: items => Fits v ∧ FitsItems items

def FitsFields : List (String × Json) → Prop
  | [] => True
  | (_, v) :: fields => Fits v ∧ FitsFields fields

end

private theorem fitsItems_iff (items : List Json) : FitsItems items ↔ ∀ v ∈ items, Fits v := by
  induction items with
  | nil => simp [FitsItems]
  | cons v items ih => simp [FitsItems, ih]

private theorem fitsFields_iff (fields : List (String × Json)) :
    FitsFields fields ↔ ∀ f ∈ fields, Fits f.2 := by
  induction fields with
  | nil => simp [FitsFields]
  | cons f fields ih =>
    rcases f with ⟨k, v⟩
    simp [FitsFields, ih]

@[simp] theorem fits_array (items : List Json) :
    Fits (.array items) ↔ items.length ≤ maxArrayLength ∧ ∀ v ∈ items, Fits v := by
  rw [Fits, fitsItems_iff]

@[simp] theorem fits_object (fields : List (String × Json)) :
    Fits (.object fields) ↔ ∀ f ∈ fields, Fits f.2 := by
  rw [Fits, fitsFields_iff]

/-- The number an array-index key names: its canonical decimal text below `2 ^ 32 - 1`. -/
def arrayIndex? (key : String) : Option Nat :=
  let n := Nat.ofDigitChars 10 key.toList 0
  if n.repr = key ∧ n < 4294967295 then some n else none

theorem eq_repr_of_arrayIndex? {key : String} {n : Nat} (h : arrayIndex? key = some n) :
    key = n.repr := by
  simp only [arrayIndex?] at h
  split at h
  · rename_i hc
    obtain rfl := Option.some.inj h
    exact hc.1.symm
  · simp at h

/-- Where a key stands among the own keys of an object whose string keys are code-point sorted:
array indices first, by number, then the other keys. -/
def ownKeyRank (key : String) : Nat ⊕ₗ String :=
  match arrayIndex? key with
  | some n => Sum.inlₗ n
  | none => Sum.inrₗ key

theorem ownKeyRank_injective : Function.Injective ownKeyRank := by
  intro a b h
  unfold ownKeyRank at h
  cases ha : arrayIndex? a with
  | some m =>
    cases hb : arrayIndex? b with
    | some n =>
      simp only [ha, hb] at h
      have hmn : m = n := Sum.inl_injective (toLex.injective h)
      rw [eq_repr_of_arrayIndex? ha, eq_repr_of_arrayIndex? hb, hmn]
    | none =>
      simp only [ha, hb] at h
      exact absurd (toLex.injective h) (by simp)
  | none =>
    cases hb : arrayIndex? b with
    | some n =>
      simp only [ha, hb] at h
      exact absurd (toLex.injective h) (by simp)
    | none =>
      simp only [ha, hb] at h
      exact Sum.inr_injective (toLex.injective h)

/-- `a` precedes `b` in the own-key order of a code-point sorted object. -/
def OwnKeyLt (a b : String) : Prop := ownKeyRank a < ownKeyRank b

instance : DecidableRel OwnKeyLt := fun a b => inferInstanceAs (Decidable (ownKeyRank a < ownKeyRank b))

instance : Std.Irrefl OwnKeyLt := ⟨fun a h => lt_irrefl (ownKeyRank a) h⟩

instance : Std.Asymm OwnKeyLt := ⟨fun _ _ h h' => lt_asymm (α := Nat ⊕ₗ String) h h'⟩

variable {V : Type}

/-- `OrdinaryOwnPropertyKeys`: array indices in ascending order, then strings as created. -/
def ownPropertyOrder (entries : List (String × V)) : List (String × V) :=
  (entries.filter (fun e => (arrayIndex? e.1).isSome)).insertionSort
      (fun a b => ownKeyRank a.1 ≤ ownKeyRank b.1) ++
    entries.filter (fun e => (arrayIndex? e.1).isNone)

/-- `Object.fromEntries`. -/
def fromEntries (entries : List (String × V)) : List (String × V) :=
  ownPropertyOrder (ofEntries entries)

theorem fromEntries_map {W : Type} (entries : List (String × V)) (f : V → W) :
    (fromEntries entries).map (fun e => (e.1, f e.2)) =
      fromEntries (entries.map (fun e => (e.1, f e.2))) := by
  rw [fromEntries, fromEntries, ← map_ofEntries]
  generalize ofEntries entries = l
  have sorted := List.map_insertionSort (fun a b : String × V => ownKeyRank a.1 ≤ ownKeyRank b.1)
    (fun a b : String × W => ownKeyRank a.1 ≤ ownKeyRank b.1) (fun e : String × V => (e.1, f e.2))
    (l.filter (fun e => (arrayIndex? e.1).isSome)) (fun _ _ _ _ => Iff.rfl)
  rw [ownPropertyOrder, ownPropertyOrder, List.map_append, sorted, List.filter_map, List.filter_map]
  rfl

theorem perm_ownPropertyOrder (entries : List (String × V)) :
    (ownPropertyOrder entries).Perm entries := by
  have split : (entries.filter (fun e => (arrayIndex? e.1).isSome) ++
      entries.filter (fun e => (arrayIndex? e.1).isNone)).Perm entries := by
    have h := List.filter_append_perm (fun e : String × V => (arrayIndex? e.1).isSome) entries
    simpa using h
  exact ((List.perm_insertionSort _ _).append_right _).trans split

theorem nodup_keys_fromEntries (entries : List (String × V)) :
    (keys (fromEntries entries)).Nodup :=
  ((perm_ownPropertyOrder _).map Prod.fst).nodup_iff.mpr (nodup_keys_ofEntries entries)

theorem fromEntries_perm_of_nodup {entries : List (String × V)} (nodup : (keys entries).Nodup) :
    (fromEntries entries).Perm entries := by
  rw [fromEntries, ofEntries_of_nodup nodup]
  exact perm_ownPropertyOrder entries

theorem lookup_fromEntries {entries : List (String × V)} (nodup : (keys entries).Nodup)
    (k : String) : (fromEntries entries).lookup k = entries.lookup k :=
  lookup_of_perm (nodup_keys_fromEntries entries) (fromEntries_perm_of_nodup nodup) k

private theorem ownPropertyOrder_idem (entries : List (String × V)) :
    ownPropertyOrder (ownPropertyOrder entries) = ownPropertyOrder entries := by
  have total : Std.Total (fun a b : String × V => ownKeyRank a.1 ≤ ownKeyRank b.1) :=
    ⟨fun a b => le_total _ _⟩
  have transitive : IsTrans (String × V) (fun a b => ownKeyRank a.1 ≤ ownKeyRank b.1) :=
    ⟨fun a b c => le_trans⟩
  simp only [ownPropertyOrder, List.filter_append]
  set indices := (entries.filter (fun e => (arrayIndex? e.1).isSome)).insertionSort
    (fun a b => ownKeyRank a.1 ≤ ownKeyRank b.1) with hindices
  have sorted : indices.Pairwise (fun a b => ownKeyRank a.1 ≤ ownKeyRank b.1) := by
    rw [hindices]
    exact List.pairwise_insertionSort _ _
  have isIndex : ∀ e ∈ indices, (arrayIndex? e.1).isSome = true := by
    intro e he
    rw [hindices, List.mem_insertionSort] at he
    exact (List.mem_filter.mp he).2
  have kept : indices.filter (fun e => (arrayIndex? e.1).isSome) = indices :=
    List.filter_eq_self.mpr isIndex
  have dropped : indices.filter (fun e => (arrayIndex? e.1).isNone) = [] := by
    rw [List.filter_eq_nil_iff]
    intro e he
    rw [Option.isNone_iff_eq_none]
    exact Option.isSome_iff_ne_none.mp (isIndex e he)
  have named : (entries.filter (fun e => (arrayIndex? e.1).isNone)).filter
      (fun e => (arrayIndex? e.1).isSome) = [] := by
    rw [List.filter_eq_nil_iff]
    intro e he
    simpa using (List.mem_filter.mp he).2
  rw [kept, dropped, named, List.append_nil, sorted.insertionSort_eq, List.nil_append,
    List.filter_filter]
  simp

/-- An object made from an object's own entries is that object. -/
theorem fromEntries_fromEntries (entries : List (String × V)) :
    fromEntries (fromEntries entries) = fromEntries entries := by
  rw [fromEntries, ofEntries_of_nodup (nodup_keys_fromEntries entries)]
  exact ownPropertyOrder_idem (ofEntries entries)

private theorem ownKeyRank_of_isNone {k : String} (h : (arrayIndex? k).isNone) :
    ownKeyRank k = Sum.inrₗ k := by
  simp only [ownKeyRank, Option.isNone_iff_eq_none.mp h]

private theorem ownKeyLt_of_isSome_isNone {a b : String} (ha : (arrayIndex? a).isSome)
    (hb : (arrayIndex? b).isNone) : OwnKeyLt a b := by
  obtain ⟨n, hn⟩ := Option.isSome_iff_exists.mp ha
  have hr : ownKeyRank a = Sum.inlₗ n := by simp only [ownKeyRank, hn]
  rw [OwnKeyLt, ownKeyRank_of_isNone hb, hr]
  exact Sum.Lex.inl_lt_inr n b

/-- Entries sorted by code point become an object whose keys stand in own-key order. -/
theorem pairwise_fromEntries {entries : List (String × V)}
    (sorted : (keys entries).Pairwise (· < ·)) :
    (keys (fromEntries entries)).Pairwise OwnKeyLt := by
  have nodup : (keys entries).Nodup := sorted.imp (fun h => ne_of_lt h)
  simp only [fromEntries, ofEntries_of_nodup nodup, ownPropertyOrder, keys_append]
  have indices : (keys ((entries.filter (fun e => (arrayIndex? e.1).isSome)).insertionSort
      (fun a b => ownKeyRank a.1 ≤ ownKeyRank b.1))).Nodup := by
    refine ((List.perm_insertionSort _ _).map Prod.fst).nodup_iff.mpr ?_
    exact nodup.sublist (List.filter_sublist.map Prod.fst)
  rw [List.pairwise_append]
  refine ⟨?_, ?_, ?_⟩
  · have weak : (keys ((entries.filter (fun e => (arrayIndex? e.1).isSome)).insertionSort
        (fun a b => ownKeyRank a.1 ≤ ownKeyRank b.1))).Pairwise
          (fun a b => ownKeyRank a ≤ ownKeyRank b) := by
      rw [keys, List.pairwise_map]
      have : Std.Total (fun a b : String × V => ownKeyRank a.1 ≤ ownKeyRank b.1) :=
        ⟨fun a b => le_total _ _⟩
      have : IsTrans (String × V) (fun a b => ownKeyRank a.1 ≤ ownKeyRank b.1) :=
        ⟨fun a b c => le_trans⟩
      exact List.pairwise_insertionSort _ _
    refine (weak.and indices).imp ?_
    rintro a b ⟨hle, hne⟩
    exact lt_of_le_of_ne hle (fun h => hne (ownKeyRank_injective h))
  · rw [keys, List.pairwise_map, List.pairwise_filter]
    refine (List.pairwise_map.mp sorted).imp ?_
    intro a b hab ha hb
    simp only [OwnKeyLt, ownKeyRank_of_isNone ha, ownKeyRank_of_isNone hb]
    exact Sum.Lex.inr_lt_inr_iff.mpr hab
  · intro a ha b hb
    obtain ⟨v, hv⟩ := mem_keys.mp ha
    obtain ⟨w, hw⟩ := mem_keys.mp hb
    rw [List.mem_insertionSort, List.mem_filter] at hv
    rw [List.mem_filter] at hw
    exact ownKeyLt_of_isSome_isNone hv.2 hw.2

end Loopx.Json
