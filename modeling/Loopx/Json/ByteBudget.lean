/- GID: Loopx/Json/ByteBudget
   generality: G
   digest: How long strings, integers, tables and objects are, and how an update changes it. -/

import Loopx.Json.ByteLength

set_option autoImplicit false
set_option relaxedAutoImplicit false

namespace Loopx.Json

open Loopx.Lib.KeyedList

/-! ## Objects and arrays -/

/-- Two values at one key make objects whose lengths differ as the values do. -/
theorem byteLength_setKey (fields : List (String × Json)) (k : String) (v w : Json) :
    byteLength (.object (setKey fields k v)) + byteLength w =
      byteLength (.object (setKey fields k w)) + byteLength v := by
  have sums : (setKey fields k v).length = (setKey fields k w).length ∧
      ((setKey fields k v).map fieldBytes).sum + byteLength w =
        ((setKey fields k w).map fieldBytes).sum + byteLength v := by
    induction fields with
    | nil =>
      refine ⟨rfl, ?_⟩
      simp only [setKey, List.map_cons, List.map_nil, List.sum_cons, List.sum_nil, fieldBytes]
      omega
    | cons field fields ih =>
      simp only [setKey]
      split
      · refine ⟨rfl, ?_⟩
        simp only [List.map_cons, List.sum_cons, fieldBytes]
        omega
      · refine ⟨by rw [List.length_cons, List.length_cons, ih.1], ?_⟩
        simp only [List.map_cons, List.sum_cons]
        omega
  rw [byteLength_object, byteLength_object]
  omega

/-- Fields that are looked up in an object, each by a shorter value, are shorter together. -/
theorem byteLength_object_le {fields entries : List (String × Json)} (distinct : (keys entries).Nodup)
    (each : ∀ entry ∈ entries, ∃ v, fields.lookup entry.1 = some v ∧
      byteLength entry.2 ≤ byteLength v) :
    byteLength (.object entries) ≤ byteLength (.object fields) := by
  let found := entries.map fun entry => (entry.1, (fields.lookup entry.1).getD .null)
  have keysFound : keys found = keys entries := by simp [found, keys]
  have nodup : found.Nodup := by
    apply List.Nodup.of_map Prod.fst
    rw [← keysFound] at distinct
    exact distinct
  have subset : found ⊆ fields := by
    intro field mem
    obtain ⟨entry, hentry, rfl⟩ := List.mem_map.mp mem
    obtain ⟨v, looked, _⟩ := each entry hentry
    rw [looked]
    exact mem_of_lookup looked
  obtain ⟨kept, perm, sub⟩ := List.subperm_of_subset nodup subset
  have length : entries.length ≤ fields.length := by
    have count := sub.length_le
    rw [perm.length_eq, List.length_map] at count
    exact count
  have shorter : (entries.map fieldBytes).sum ≤ (found.map fieldBytes).sum := by
    rw [List.map_map]
    refine List.sum_le_sum fun entry hentry => ?_
    obtain ⟨v, looked, le⟩ := each entry hentry
    simp only [Function.comp_apply, fieldBytes, looked, Option.getD_some]
    omega
  have within : (found.map fieldBytes).sum ≤ (fields.map fieldBytes).sum := by
    rw [← (perm.map fieldBytes).sum_eq]
    exact (sub.map fieldBytes).sum_le_sum (fun _ _ => Nat.zero_le _)
  rw [byteLength_object, byteLength_object]
  omega

/-- Items that are shorter one by one are shorter together. -/
theorem byteLength_array_le {items items' : List Json}
    (h : List.Forall₂ (fun v w => byteLength v ≤ byteLength w) items items') :
    byteLength (.array items) ≤ byteLength (.array items') := by
  have sums : (items.map byteLength).sum ≤ (items'.map byteLength).sum := by
    induction h with
    | nil => exact Nat.le_refl _
    | cons le _ ih =>
      simp only [List.map_cons, List.sum_cons]
      omega
  rw [byteLength_array, byteLength_array, h.length_eq]
  omega

theorem byteLength_array_concat (items : List Json) (v : Json) :
    byteLength (.array (items ++ [v])) =
      2 + items.length + (items.map byteLength).sum + byteLength v := by
  rw [byteLength_array, List.length_append, List.map_append, List.sum_append, List.map_singleton,
    List.sum_singleton, List.length_singleton]
  omega

theorem byteLength_array_concat_concat (items : List Json) (v w : Json) :
    byteLength (.array (items ++ [v] ++ [w])) =
      3 + items.length + (items.map byteLength).sum + byteLength v + byteLength w := by
  rw [byteLength_array_concat, List.length_append, List.map_append, List.sum_append,
    List.map_singleton, List.sum_singleton, List.length_singleton]
  omega

theorem byteLength_array_replace {v w : Json} (shorter : byteLength v ≤ byteLength w)
    (before after : List Json) :
    byteLength (.array (before ++ v :: after)) ≤ byteLength (.array (before ++ w :: after)) := by
  rw [byteLength_array, byteLength_array]
  simp only [List.length_append, List.length_cons, List.map_append, List.map_cons,
    List.sum_append, List.sum_cons]
  omega

theorem sum_map_set {A : Type} (f : A → Nat) {rows : List A} {i : Nat} {a : A} (b : A)
    (found : rows[i]? = some a) :
    ((rows.set i b).map f).sum + f a = (rows.map f).sum + f b := by
  induction rows generalizing i with
  | nil => cases found
  | cons first rows ih =>
    cases i with
    | zero =>
      obtain rfl := Option.some.inj found
      simp only [List.set_cons_zero, List.map_cons, List.sum_cons]
      omega
    | succ i =>
      have rest := ih found
      simp only [List.set_cons_succ, List.map_cons, List.sum_cons]
      omega

/-! ## Strings -/

theorem byteLength_string (s : String) :
    byteLength (.string s) = 2 + charBytes (s.toList.flatMap quoteChar) := by
  have quote : '\x22'.utf8Size = 1 := rfl
  rw [byteLength_eq, text, quoteString, charBytes_cons, charBytes_append, charBytes_cons,
    charBytes_nil, quote]
  omega

/-- A character that stands for itself in one byte. -/
def IsPlain (c : Char) : Prop := 32 ≤ c.toNat ∧ c.toNat < 127 ∧ c ≠ '\x22' ∧ c ≠ '\x5c'

instance (c : Char) : Decidable (IsPlain c) :=
  inferInstanceAs (Decidable (32 ≤ c.toNat ∧ c.toNat < 127 ∧ c ≠ '\x22' ∧ c ≠ '\x5c'))

theorem charBytes_quoteChar_plain {c : Char} (h : IsPlain c) : charBytes (quoteChar c) = 1 := by
  obtain ⟨low, high, quote, backslash⟩ := h
  have other : ∀ d : Char, d.toNat < 32 → c ≠ d := by
    rintro d small rfl
    omega
  have size : c.utf8Size = 1 := by
    have small : c.val.toNat < 127 := high
    rw [Char.utf8Size_eq_one_iff]
    exact UInt32.le_iff_toNat_le.mpr (by simp; omega)
  rw [quoteChar, if_neg quote, if_neg backslash, if_neg (other _ (by decide)),
    if_neg (other _ (by decide)), if_neg (other _ (by decide)), if_neg (other _ (by decide)),
    if_neg (other _ (by decide)), if_neg (by omega), charBytes_cons, charBytes_nil, size]

theorem byteLength_string_plain {s : String} (h : ∀ c ∈ s.toList, IsPlain c) :
    byteLength (.string s) = 2 + s.toList.length := by
  have body : ∀ cs : List Char, (∀ c ∈ cs, IsPlain c) →
      charBytes (cs.flatMap quoteChar) = cs.length := by
    intro cs plain
    induction cs with
    | nil => rfl
    | cons c cs ih =>
      obtain ⟨first, rest⟩ := List.forall_mem_cons.mp plain
      rw [List.flatMap_cons, charBytes_append, charBytes_quoteChar_plain first, ih rest,
        List.length_cons]
      omega
  rw [byteLength_string, body _ h]

theorem byteLength_string_replicate (n : Nat) (c : Char) :
    byteLength (.string (String.ofList (List.replicate n c))) =
      2 + n * charBytes (quoteChar c) := by
  have body : charBytes ((List.replicate n c).flatMap quoteChar) = n * charBytes (quoteChar c) := by
    induction n with
    | zero => simp
    | succ n ih =>
      rw [List.replicate_succ, List.flatMap_cons, charBytes_append, ih, Nat.succ_mul]
      omega
  rw [byteLength_string, String.toList_ofList, body]

theorem charBytes_quoteChar_le_six (c : Char) : charBytes (quoteChar c) ≤ 6 := by
  by_cases ascii : c.toNat < 128
  · have size : c.utf8Size = 1 := by
      rw [Char.utf8Size_eq_one_iff]
      exact UInt32.le_iff_toNat_le.mpr (Nat.le_of_lt_succ ascii)
    have bound := charBytes_quoteChar_le c
    omega
  · have other : ∀ d : Char, d.toNat < 128 → c ≠ d := by
      rintro d small rfl
      exact ascii small
    have most := c.utf8Size_le_four
    rw [quoteChar, if_neg (other _ (by decide)), if_neg (other _ (by decide)),
      if_neg (other _ (by decide)), if_neg (other _ (by decide)), if_neg (other _ (by decide)),
      if_neg (other _ (by decide)), if_neg (other _ (by decide)), if_neg (by omega), charBytes_cons,
      charBytes_nil]
    omega

/-! ## Integers -/

private theorem charBytes_digits {cs : List Char} (digits : ∀ c ∈ cs, c.isDigit = true) :
    charBytes cs = cs.length := by
  induction cs with
  | nil => rfl
  | cons c cs ih =>
    obtain ⟨first, rest⟩ := List.forall_mem_cons.mp digits
    have range := (Char.isDigit_iff_toNat.mp first).2
    have size : c.utf8Size = 1 := by
      rw [Char.utf8Size_eq_one_iff]
      refine UInt32.le_iff_toNat_le.mpr ?_
      have nine : c.toNat ≤ 57 := range
      change c.toNat ≤ 127
      omega
    rw [charBytes_cons, size, ih rest, List.length_cons, Nat.add_comm]

/-- A positive safe integer is at most sixteen digits long. -/
theorem byteLength_safeInteger {n : JsNumber} {i : Int} (h : n.safeInteger? = some i)
    (pos : 0 < i) : byteLength (.number n) ≤ 16 := by
  unfold JsNumber.safeInteger? at h
  split at h
  · next found whole =>
    split at h
    · next safe =>
      obtain rfl := Option.some.inj h
      unfold JsNumber.toInt? at whole
      split at whole
      · next exponent =>
        obtain ⟨e, he⟩ := Int.eq_ofNat_of_zero_le exponent
        have value := Option.some.inj whole
        rw [he, Int.toNat_natCast] at value
        have power : (0 : Int) < 10 ^ e := by positivity
        have sign : 0 < n.coefficient := by
          rw [← value] at pos
          exact pos_of_mul_pos_left pos power.le
        obtain ⟨c, hc⟩ := Int.eq_ofNat_of_zero_le sign.le
        have cpos : 0 < c := by omega
        have product : c * 10 ^ e ≤ 9007199254740991 := by
          have cast : ((c * 10 ^ e : Nat) : Int) = found := by
            rw [← value, hc]
            push_cast
            rfl
          have bound : found.natAbs ≤ 9007199254740991 := safe
          omega
        have small : c * 10 ^ e < 10 ^ 16 := product.trans_lt (by norm_num)
        have few : e < 16 := by
          refine (Nat.pow_lt_pow_iff_right (by norm_num : 1 < 10)).mp (lt_of_le_of_lt ?_ small)
          exact Nat.le_mul_of_pos_left _ cpos
        have digits : (Nat.toDigits 10 c).length ≤ 16 - e := by
          rw [Nat.length_toDigits_le_iff (by norm_num) (by omega)]
          refine lt_of_mul_lt_mul_right (a := 10 ^ e) ?_ (Nat.zero_le _)
          rw [← pow_add, Nat.sub_add_cancel few.le]
          exact small
        rw [byteLength_eq, text, numberText, if_neg (by omega), hc, he, Int.natAbs_natCast,
          magnitudeText, if_pos (by omega), Int.toNat_natCast, charBytes_digits, List.length_append,
          List.length_replicate]
        · omega
        · intro d mem
          rcases List.mem_append.mp mem with mem | mem
          · exact Loopx.Lib.Decimal.isDigit_toDigits mem
          · rw [List.eq_of_mem_replicate mem]
            rfl
      · cases whole
    · cases h
  · cases h

private theorem byteLength_ofNat {n : Nat} (safe : n ≤ JsNumber.maxSafeInteger) :
    byteLength (.number (.ofNat n)) = (Nat.toDigits 10 n).length := by
  rcases Nat.eq_zero_or_pos n with rfl | pos
  · rfl
  · have digits := numberText_ofInt (m := n) (by omega) (by omega)
    rw [Int.toNat_natCast] at digits
    rw [byteLength_eq, text, JsNumber.ofNat, digits]
    exact charBytes_digits fun _ mem => Loopx.Lib.Decimal.isDigit_toDigits mem

/-- A larger safe integer is not shorter. -/
theorem byteLength_ofNat_le {n m : Nat} (le : n ≤ m) (safe : m ≤ JsNumber.maxSafeInteger) :
    byteLength (.number (.ofNat n)) ≤ byteLength (.number (.ofNat m)) := by
  rw [byteLength_ofNat (Nat.le_trans le safe), byteLength_ofNat safe,
    Nat.length_toDigits_le_iff (by norm_num) Nat.length_toDigits_pos]
  exact Nat.lt_of_le_of_lt le
    ((Nat.length_toDigits_le_iff (by norm_num) Nat.length_toDigits_pos).mp (Nat.le_refl _))

/-! ## Parts -/

theorem byteLength_array_sublist {items items' : List Json} (sub : items.Sublist items') :
    byteLength (.array items) ≤ byteLength (.array items') := by
  have length := sub.length_le
  have sum := (sub.map byteLength).sum_le_sum fun _ _ => Nat.zero_le _
  rw [byteLength_array, byteLength_array]
  omega

theorem byteLength_object_sublist {fields fields' : List (String × Json)}
    (sub : fields.Sublist fields') :
    byteLength (.object fields) ≤ byteLength (.object fields') := by
  have length := sub.length_le
  have sum := (sub.map fieldBytes).sum_le_sum fun _ _ => Nat.zero_le _
  rw [byteLength_object, byteLength_object]
  omega

/-- One field is not longer than another of the same name. -/
def FieldLe (f g : String × Json) : Prop := f.1 = g.1 ∧ byteLength f.2 ≤ byteLength g.2

theorem FieldLe.refl (f : String × Json) : FieldLe f f := ⟨rfl, Nat.le_refl _⟩

/-- Objects with the same names in the same order are as long as their values make them. -/
theorem byteLength_object_fields {fields fields' : List (String × Json)}
    (h : List.Forall₂ FieldLe fields fields') :
    byteLength (.object fields) ≤ byteLength (.object fields') := by
  have sums : (fields.map fieldBytes).sum ≤ (fields'.map fieldBytes).sum := by
    induction h with
    | nil => exact Nat.le_refl _
    | cons le _ ih =>
      simp only [List.map_cons, List.sum_cons, fieldBytes, le.1]
      have := le.2
      omega
  rw [byteLength_object, byteLength_object, h.length_eq]
  omega

end Loopx.Json
