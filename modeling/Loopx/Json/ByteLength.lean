/- GID: Loopx/Json/ByteLength
   generality: G
   digest: The UTF-8 length of a serialized value does not depend on the order of its keys. -/

import Loopx.Json.Canonical

set_option autoImplicit false
set_option relaxedAutoImplicit false

namespace Loopx.Json

open Loopx.Lib.KeyedList

/-- The UTF-8 length of a list of characters. -/
def charBytes (cs : List Char) : Nat := (cs.map Char.utf8Size).sum

/-- `Buffer.byteLength(JSON.stringify(v))`. -/
def byteLength (v : Json) : Nat := charBytes (text v)

@[simp] theorem charBytes_nil : charBytes [] = 0 := rfl

@[simp] theorem charBytes_cons (c : Char) (cs : List Char) :
    charBytes (c :: cs) = c.utf8Size + charBytes cs := rfl

@[simp] theorem charBytes_append (cs cs' : List Char) :
    charBytes (cs ++ cs') = charBytes cs + charBytes cs' := by
  simp [charBytes]

theorem utf8ByteSize_ofList (cs : List Char) : (String.ofList cs).utf8ByteSize = charBytes cs := by
  induction cs using List.reverseRecOn with
  | nil => rfl
  | append_singleton cs c ih =>
    rw [String.ofList_append, String.utf8ByteSize_append, ih, charBytes_append]
    simp [charBytes]

theorem byteLength_eq (v : Json) : byteLength v = charBytes (text v) := rfl

theorem byteLength_eq_utf8ByteSize (v : Json) : byteLength v = (stringify v).utf8ByteSize :=
  (utf8ByteSize_ofList _).symm

/-- The bytes of one field, without the comma before it. -/
def fieldBytes (f : String × Json) : Nat := charBytes (quoteString f.1) + 1 + byteLength f.2

private theorem charBytes_fieldsText (fields : List (String × Json)) :
    charBytes (fieldsText fields) = 1 + fields.length + (fields.map fieldBytes).sum := by
  have colon : ':'.utf8Size = 1 := rfl
  have comma : ','.utf8Size = 1 := rfl
  have brace : '\x7d'.utf8Size = 1 := rfl
  induction fields with
  | nil => simp [fieldsText, brace]
  | cons f fields ih =>
    obtain ⟨k, v⟩ := f
    simp only [fieldsText, charBytes_cons, charBytes_append, ih, colon, comma, List.length_cons,
      List.map_cons, List.sum_cons, fieldBytes, byteLength_eq]
    omega

private theorem charBytes_itemsText (items : List Json) :
    charBytes (itemsText items) = 1 + items.length + (items.map byteLength).sum := by
  have comma : ','.utf8Size = 1 := rfl
  have bracket : ']'.utf8Size = 1 := rfl
  induction items with
  | nil => simp [itemsText, bracket]
  | cons v items ih =>
    simp only [itemsText, charBytes_cons, charBytes_append, ih, comma, List.length_cons,
      List.map_cons, List.sum_cons, byteLength_eq]
    omega

theorem byteLength_object (fields : List (String × Json)) :
    byteLength (.object fields) = 2 + (fields.length - 1) + (fields.map fieldBytes).sum := by
  have open_ : '\x7b'.utf8Size = 1 := rfl
  have close : '\x7d'.utf8Size = 1 := rfl
  have colon : ':'.utf8Size = 1 := rfl
  rw [byteLength_eq]
  cases fields with
  | nil => simp [text, open_, close]
  | cons f fields =>
    obtain ⟨k, v⟩ := f
    simp only [text, charBytes_cons, charBytes_append, charBytes_fieldsText, open_, colon,
      List.length_cons, List.map_cons, List.sum_cons, fieldBytes, byteLength_eq]
    omega

theorem byteLength_array (items : List Json) :
    byteLength (.array items) = 2 + (items.length - 1) + (items.map byteLength).sum := by
  have open_ : '['.utf8Size = 1 := rfl
  have close : ']'.utf8Size = 1 := rfl
  rw [byteLength_eq]
  cases items with
  | nil => simp [text, open_, close]
  | cons v items =>
    simp only [text, charBytes_cons, charBytes_append, charBytes_itemsText, open_,
      List.length_cons, List.map_cons, List.sum_cons, byteLength_eq]
    omega

/-- The order of the fields does not change the length. -/
theorem byteLength_object_perm {fields fields' : List (String × Json)}
    (perm : fields.Perm fields') : byteLength (.object fields) = byteLength (.object fields') := by
  rw [byteLength_object, byteLength_object, perm.length_eq, (perm.map fieldBytes).sum_eq]

mutual

/-- No object of the value has a key twice, as in every object of the runtime. -/
def Distinct : Json → Prop
  | .array items => DistinctItems items
  | .object fields => (keys fields).Nodup ∧ DistinctFields fields
  | _ => True

def DistinctItems : List Json → Prop
  | [] => True
  | v :: items => Distinct v ∧ DistinctItems items

def DistinctFields : List (String × Json) → Prop
  | [] => True
  | (_, v) :: fields => Distinct v ∧ DistinctFields fields

end

theorem distinctItems_iff (items : List Json) : DistinctItems items ↔ ∀ v ∈ items, Distinct v := by
  induction items with
  | nil => simp [DistinctItems]
  | cons v items ih => simp [DistinctItems, ih]

theorem distinctFields_iff (fields : List (String × Json)) :
    DistinctFields fields ↔ ∀ f ∈ fields, Distinct f.2 := by
  induction fields with
  | nil => simp [DistinctFields]
  | cons f fields ih =>
    rcases f with ⟨k, v⟩
    simp [DistinctFields, ih]

theorem distinct_object (fields : List (String × Json)) :
    Distinct (.object fields) ↔ (keys fields).Nodup ∧ ∀ f ∈ fields, Distinct f.2 := by
  rw [Distinct, distinctFields_iff]

theorem distinct_array (items : List Json) :
    Distinct (.array items) ↔ ∀ v ∈ items, Distinct v := by
  rw [Distinct, distinctItems_iff]

theorem Canonical.distinct {v : Json} (h : Canonical v) : Distinct v := by
  induction v with
  | array items ih =>
    rw [Canonical, canonicalAuthorityJson_array, Json.array.injEq] at h
    rw [distinct_array]
    intro v hv
    rw [← List.map_id items, List.map_map] at h
    exact ih v hv (List.map_inj_left.mp h v hv)
  | object fields ih =>
    rw [distinct_object]
    obtain ⟨_, each⟩ := (canonical_object fields).mp h
    exact ⟨h.nodup, fun f hf => ih f hf (each f hf)⟩
  | _ => trivial

/-- A value and its canonical form are equally long. -/
theorem byteLength_canonical {v : Json} (h : Distinct v) :
    byteLength (canonicalAuthorityJson v) = byteLength v := by
  induction v with
  | array items ih =>
    have each := (distinct_array items).mp h
    rw [canonicalAuthorityJson_array, byteLength_array, byteLength_array, List.length_map,
      List.map_map]
    congr 2
    exact List.map_congr_left fun v hv => ih v hv (each v hv)
  | object fields ih =>
    obtain ⟨nodup, each⟩ := (distinct_object fields).mp h
    have nodup' : (keys (fields.map fun f => (f.1, canonicalAuthorityJson f.2))).Nodup := by
      rwa [keys_map_snd]
    have perm := (perm_sortEntries (fields.map fun f => (f.1, canonicalAuthorityJson f.2)))
    have perm' := (fromEntries_perm_of_nodup ((perm.map Prod.fst).nodup_iff.mpr nodup')).trans perm
    rw [canonicalAuthorityJson_object, canonicalEntries, byteLength_object_perm perm',
      byteLength_object, byteLength_object, List.length_map, List.map_map]
    congr 2
    refine List.map_congr_left fun f hf => ?_
    simp only [Function.comp_apply, fieldBytes]
    rw [ih f hf (each f hf)]
  | _ => rfl

/-! ## A bound -/

mutual

/-- An upper bound of the length that looks at no character. -/
def byteBound : Json → Nat
  | .string s => 6 * s.utf8ByteSize + 2
  | .array items => 2 + itemsBound items
  | .object fields => 2 + fieldsBound fields
  | v => byteLength v

def itemsBound : List Json → Nat
  | [] => 0
  | v :: items => byteBound v + 1 + itemsBound items

def fieldsBound : List (String × Json) → Nat
  | [] => 0
  | (k, v) :: fields => 6 * k.utf8ByteSize + 4 + byteBound v + fieldsBound fields

end

private theorem utf8Size_digitChar {n : Nat} (h : n < 16) : (Nat.digitChar n).utf8Size = 1 := by
  interval_cases n <;> rfl

theorem charBytes_quoteChar_le (c : Char) : charBytes (quoteChar c) ≤ 6 * c.utf8Size := by
  have pos : 0 < c.utf8Size := c.utf8Size_pos
  have escaped : ∀ d : Char, d.utf8Size = 1 → charBytes ['\x5c', d] ≤ 6 * c.utf8Size := by
    intro d hd
    rw [charBytes_cons, charBytes_cons, charBytes_nil, hd, show '\x5c'.utf8Size = 1 from rfl]
    omega
  unfold quoteChar
  split_ifs
  · exact escaped _ rfl
  · exact escaped _ rfl
  · exact escaped _ rfl
  · exact escaped _ rfl
  · exact escaped _ rfl
  · exact escaped _ rfl
  · exact escaped _ rfl
  · have high := utf8Size_digitChar (n := c.toNat / 16) (by omega)
    have low := utf8Size_digitChar (n := c.toNat % 16) (by omega)
    simp only [charBytes_cons, charBytes_nil, high, low, show '\x5c'.utf8Size = 1 from rfl,
      show 'u'.utf8Size = 1 from rfl, show '0'.utf8Size = 1 from rfl]
    omega
  · rw [charBytes_cons, charBytes_nil]
    omega

private theorem charBytes_quoteString_le (s : String) :
    charBytes (quoteString s) ≤ 6 * s.utf8ByteSize + 2 := by
  have quote : '\x22'.utf8Size = 1 := rfl
  have inner : ∀ cs : List Char, charBytes (cs.flatMap quoteChar) ≤ 6 * charBytes cs := by
    intro cs
    induction cs with
    | nil => simp
    | cons c cs ih =>
      have one := charBytes_quoteChar_le c
      rw [List.flatMap_cons, charBytes_append, charBytes_cons]
      omega
  have size : s.utf8ByteSize = charBytes s.toList := by
    rw [← utf8ByteSize_ofList, String.ofList_toList]
  have body := inner s.toList
  rw [quoteString, charBytes_cons, charBytes_append, charBytes_cons, charBytes_nil, quote, size]
  omega

theorem fieldBytes_le (k : String) (v : Json) :
    fieldBytes (k, v) ≤ 6 * k.utf8ByteSize + 3 + byteLength v := by
  have key := charBytes_quoteString_le k
  simp only [fieldBytes]
  omega

theorem byteLength_le_byteBound (v : Json) : byteLength v ≤ byteBound v := by
  induction v using Json.induction with
  | null => exact Nat.le_refl _
  | bool b => exact Nat.le_refl _
  | number n => exact Nat.le_refl _
  | string s => exact charBytes_quoteString_le s
  | array items ih =>
    have sum : items.length + (items.map byteLength).sum ≤ itemsBound items := by
      induction items with
      | nil => simp [itemsBound]
      | cons v items rest =>
        obtain ⟨first, others⟩ := List.forall_mem_cons.mp ih
        have tail := rest others
        simp only [List.length_cons, List.map_cons, List.sum_cons, itemsBound]
        omega
    rw [byteLength_array, byteBound]
    omega
  | object fields ih =>
    have sum : fields.length + (fields.map fieldBytes).sum ≤ fieldsBound fields := by
      induction fields with
      | nil => simp [fieldsBound]
      | cons f fields rest =>
        obtain ⟨k, v⟩ := f
        obtain ⟨first, others⟩ := List.forall_mem_cons.mp ih
        have value : byteLength v ≤ byteBound v := first
        have tail := rest others
        have field := fieldBytes_le k v
        simp only [List.length_cons, List.map_cons, List.sum_cons, fieldsBound]
        omega
    rw [byteLength_object, byteBound]
    omega

end Loopx.Json
