/- GID: Loopx/Json/Canonical
   generality: I
   source: loopx/control_plane/coordination/authority_store_codec.ts
   digest: Canonical authority JSON: key order, normal form, bytes and boundary checks. -/

import Loopx.Json.Text

set_option autoImplicit false
set_option relaxedAutoImplicit false

namespace Loopx.Json

open Loopx.Lib.KeyedList

/-- A computation that may throw an `AuthorityStoreProtocolError` with its message. -/
abbrev Protocol := Except String

def isAuthorityJsonObject : Json → Bool
  | .object _ => true
  | _ => false

/-- The walk over code points; a longer string follows its own prefix. -/
def compareCodePoints : List Char → List Char → Int
  | a :: left, b :: right =>
    if a ≠ b then (a.toNat : Int) - b.toNat else compareCodePoints left right
  | _ :: _, [] => 1
  | [], _ :: _ => -1
  | [], [] => 0

def authorityUnicodeCompare (left right : String) : Int :=
  compareCodePoints left.toList right.toList

private theorem toNat_sub_pos (a b : Char) :
    0 < (a.toNat : Int) - b.toNat ↔ b < a := by
  have : b < a ↔ b.toNat < a.toNat := Iff.rfl
  rw [this]
  omega

private theorem compareCodePoints_pos (left right : List Char) :
    0 < compareCodePoints left right ↔ right < left := by
  induction left generalizing right with
  | nil => cases right <;> simp [compareCodePoints]
  | cons a left ih =>
    cases right with
    | nil => simp [compareCodePoints]
    | cons b right =>
      rw [compareCodePoints, List.cons_lt_cons_iff]
      by_cases h : a = b
      · subst h
        simpa using ih right
      · rw [if_pos h, toNat_sub_pos]
        simp [Ne.symm h]

theorem authorityUnicodeCompare_le_zero (left right : String) :
    authorityUnicodeCompare left right ≤ 0 ↔ left ≤ right := by
  have h : 0 < authorityUnicodeCompare left right ↔ right < left := by
    rw [authorityUnicodeCompare, compareCodePoints_pos]
    exact (String.lt_iff_toList_lt).symm
  rw [← not_lt, h, not_lt]

/-- `keys.sort(authorityUnicodeCompare)`. -/
def sortKeys (keys : List String) : List String :=
  keys.insertionSort (fun a b => authorityUnicodeCompare a b ≤ 0)

theorem sortKeys_eq (l : List String) : sortKeys l = l.insertionSort (· ≤ ·) := by
  have h : (fun a b => authorityUnicodeCompare a b ≤ 0) = ((· ≤ ·) : String → String → Prop) := by
    funext a b
    exact propext (authorityUnicodeCompare_le_zero a b)
  simp only [sortKeys]
  congr

theorem sortKeys_eq_iff {l l' : List String} : sortKeys l = sortKeys l' ↔ l.Perm l' := by
  rw [sortKeys_eq, sortKeys_eq]
  constructor
  · intro h
    have left := List.perm_insertionSort (· ≤ ·) l
    rw [h] at left
    exact left.symm.trans (List.perm_insertionSort _ _)
  · intro h
    refine List.Perm.eq_of_pairwise' (List.pairwise_insertionSort (· ≤ ·) l)
      (List.pairwise_insertionSort (· ≤ ·) l') ?_
    exact (List.perm_insertionSort _ _).trans (h.trans (List.perm_insertionSort _ _).symm)

variable {V : Type}

/-- The entries of an object in the order of its sorted keys. -/
def sortEntries (entries : List (String × V)) : List (String × V) :=
  entries.insertionSort (fun a b => authorityUnicodeCompare a.1 b.1 ≤ 0)

/-- `Object.fromEntries` over the sorted keys. -/
def canonicalEntries (entries : List (String × V)) : List (String × V) :=
  fromEntries (sortEntries entries)

/-- The order of the keys does not look at the values. -/
theorem canonicalEntries_map {W : Type} (entries : List (String × V)) (f : V → W) :
    (canonicalEntries entries).map (fun e => (e.1, f e.2)) =
      canonicalEntries (entries.map (fun e => (e.1, f e.2))) := by
  have sorted : (sortEntries entries).map (fun e => (e.1, f e.2)) =
      sortEntries (entries.map (fun e => (e.1, f e.2))) :=
    List.map_insertionSort _ _ _ _ (fun _ _ _ _ => Iff.rfl)
  rw [canonicalEntries, canonicalEntries, fromEntries_map, sorted]

mutual

/-- `cloneAuthorityJson` with canonical keys. -/
def canonicalAuthorityJson : Json → Json
  | .array items => .array (canonicalItems items)
  | .object fields => .object (canonicalEntries (canonicalFields fields))
  | .null => .null
  | .bool b => .bool b
  | .number n => .number n
  | .string s => .string s

def canonicalItems : List Json → List Json
  | [] => []
  | v :: items => canonicalAuthorityJson v :: canonicalItems items

def canonicalFields : List (String × Json) → List (String × Json)
  | [] => []
  | (k, v) :: fields => (k, canonicalAuthorityJson v) :: canonicalFields fields

end

/-- A private copy with the same keys in the same order; values here are never shared. -/
def copyAuthorityJson (v : Json) : Json := v

/-- A value that canonicalization leaves as it is. -/
def Canonical (v : Json) : Prop := canonicalAuthorityJson v = v

instance : DecidablePred Canonical := fun v => inferInstanceAs (Decidable (_ = v))

@[simp] theorem canonicalItems_eq (items : List Json) :
    canonicalItems items = items.map canonicalAuthorityJson := by
  induction items with
  | nil => rfl
  | cons v items ih => simp [canonicalItems, ih]

@[simp] theorem canonicalFields_eq (fields : List (String × Json)) :
    canonicalFields fields = fields.map (fun f => (f.1, canonicalAuthorityJson f.2)) := by
  induction fields with
  | nil => rfl
  | cons f fields ih =>
    rcases f with ⟨k, v⟩
    simp [canonicalFields, ih]

theorem canonicalAuthorityJson_object (fields : List (String × Json)) :
    canonicalAuthorityJson (.object fields) =
      .object (canonicalEntries (fields.map (fun f => (f.1, canonicalAuthorityJson f.2)))) := by
  simp [canonicalAuthorityJson]

theorem canonicalAuthorityJson_array (items : List Json) :
    canonicalAuthorityJson (.array items) = .array (items.map canonicalAuthorityJson) := by
  simp [canonicalAuthorityJson]

theorem perm_sortEntries (entries : List (String × V)) : (sortEntries entries).Perm entries :=
  List.perm_insertionSort _ _

private theorem pairwise_sortEntries (entries : List (String × V)) :
    (keys (sortEntries entries)).Pairwise (· ≤ ·) := by
  rw [keys, List.pairwise_map]
  have : Std.Total (fun a b : String × V => authorityUnicodeCompare a.1 b.1 ≤ 0) := by
    constructor
    intro a b
    simp only [authorityUnicodeCompare_le_zero]
    exact le_total _ _
  have : IsTrans (String × V) (fun a b => authorityUnicodeCompare a.1 b.1 ≤ 0) := by
    constructor
    intro a b c
    simp only [authorityUnicodeCompare_le_zero]
    exact le_trans
  refine (List.pairwise_insertionSort _ entries).imp ?_
  intro a b h
  exact (authorityUnicodeCompare_le_zero a.1 b.1).mp h

private theorem keys_setKey_of_mem {l : List (String × V)} {k : String} (h : k ∈ keys l) (v : V) :
    keys (setKey l k v) = keys l := by
  induction l with
  | nil => simp at h
  | cons e l ih =>
    simp only [setKey]
    split
    · rename_i he
      simp [he]
    · rename_i he
      have hk : k ∈ keys l := by
        rcases List.mem_cons.mp h with h | h
        · exact absurd h.symm he
        · exact h
      simp [ih hk]

private theorem pairwise_foldl_setKey (l acc : List (String × V))
    (sorted : (keys acc).Pairwise (· < ·)) (above : ∀ a ∈ keys acc, ∀ b ∈ keys l, a ≤ b)
    (weak : (keys l).Pairwise (· ≤ ·)) :
    (keys (l.foldl (fun acc e => setKey acc e.1 e.2) acc)).Pairwise (· < ·) := by
  induction l generalizing acc with
  | nil => exact sorted
  | cons e l ih =>
    obtain ⟨first, weak⟩ := List.pairwise_cons.mp weak
    refine ih (setKey acc e.1 e.2) ?_ ?_ weak
    · by_cases hk : e.1 ∈ keys acc
      · rwa [keys_setKey_of_mem hk]
      · rw [setKey_of_not_mem hk, keys_append, List.pairwise_append]
        refine ⟨sorted, by simp, ?_⟩
        intro a ha b hb
        obtain rfl : b = e.1 := by simpa using hb
        exact lt_of_le_of_ne (above a ha _ (by simp)) (fun h => hk (h ▸ ha))
    · intro a ha b hb
      rcases mem_keys_setKey.mp ha with rfl | ha
      · exact first b hb
      · exact above a ha b (by simp [hb])

/-- The entries of a canonical object stand in own-key order, whatever they were made from. -/
theorem pairwise_canonicalEntries (entries : List (String × V)) :
    (keys (canonicalEntries entries)).Pairwise OwnKeyLt := by
  have strict : (keys (ofEntries (sortEntries entries))).Pairwise (· < ·) :=
    pairwise_foldl_setKey _ [] (by simp) (by simp) (pairwise_sortEntries entries)
  have h := pairwise_fromEntries strict
  rwa [fromEntries, ofEntries_of_nodup (nodup_keys_ofEntries _)] at h

theorem lookup_canonicalEntries {entries : List (String × V)} (nodup : (keys entries).Nodup)
    (k : String) : (canonicalEntries entries).lookup k = entries.lookup k := by
  have perm := perm_sortEntries entries
  have nodup' : (keys (sortEntries entries)).Nodup := (perm.map Prod.fst).nodup_iff.mpr nodup
  rw [canonicalEntries, lookup_fromEntries nodup', lookup_of_perm nodup' perm]

/-- The canonical entries are the one arrangement in own-key order. -/
theorem canonicalEntries_of_perm {entries arranged : List (String × V)}
    (perm : arranged.Perm entries) (sorted : (keys arranged).Pairwise OwnKeyLt) :
    canonicalEntries entries = arranged := by
  have nodup := nodup_keys_of_pairwise sorted
  have nodup' : (keys entries).Nodup := (perm.map Prod.fst).nodup_iff.mp nodup
  refine eq_of_pairwise_lookup (pairwise_canonicalEntries entries) sorted ?_
  intro k
  rw [lookup_canonicalEntries nodup', lookup_of_perm nodup perm]

theorem canonicalEntries_of_pairwise {entries : List (String × V)}
    (sorted : (keys entries).Pairwise OwnKeyLt) : canonicalEntries entries = entries :=
  canonicalEntries_of_perm (List.Perm.refl _) sorted

private theorem mem_foldl_setKey {l acc : List (String × V)} {e : String × V}
    (h : e ∈ l.foldl (fun acc e => setKey acc e.1 e.2) acc) : e ∈ acc ∨ e ∈ l := by
  induction l generalizing acc with
  | nil => exact Or.inl h
  | cons a l ih =>
    rcases ih h with h | h
    · rcases mem_of_mem_setKey h with rfl | h
      · exact Or.inr (by simp)
      · exact Or.inl h
    · exact Or.inr (by simp [h])

theorem mem_of_mem_fromEntries {entries : List (String × V)} {e : String × V}
    (h : e ∈ fromEntries entries) : e ∈ entries := by
  have h := (perm_ownPropertyOrder _).mem_iff.mp h
  rcases mem_foldl_setKey h with h | h
  · simp at h
  · exact h

theorem mem_of_mem_canonicalEntries {entries : List (String × V)} {e : String × V}
    (h : e ∈ canonicalEntries entries) : e ∈ entries :=
  (perm_sortEntries entries).mem_iff.mp (mem_of_mem_fromEntries h)

@[simp] theorem canonical_null : Canonical .null := by simp [Canonical, canonicalAuthorityJson]

@[simp] theorem canonical_bool (b : Bool) : Canonical (.bool b) := by
  simp [Canonical, canonicalAuthorityJson]

@[simp] theorem canonical_number (n : JsNumber) : Canonical (.number n) := by
  simp [Canonical, canonicalAuthorityJson]

@[simp] theorem canonical_string (s : String) : Canonical (.string s) := by
  simp [Canonical, canonicalAuthorityJson]

private theorem map_eq_self {α : Type} {f : α → α} {l : List α} :
    l.map f = l ↔ ∀ a ∈ l, f a = a := by
  induction l with
  | nil => simp
  | cons a l ih => simp [ih]

@[simp] theorem canonical_array (items : List Json) :
    Canonical (.array items) ↔ ∀ v ∈ items, Canonical v := by
  simp only [Canonical, canonicalAuthorityJson_array, Json.array.injEq, map_eq_self]

/-- The idempotence of canonicalization. -/
theorem canonical_canonicalAuthorityJson (v : Json) : Canonical (canonicalAuthorityJson v) := by
  induction v with
  | null => simp [canonicalAuthorityJson]
  | bool b => simp [canonicalAuthorityJson]
  | number n => simp [canonicalAuthorityJson]
  | string s => simp [canonicalAuthorityJson]
  | array items ih =>
    rw [canonicalAuthorityJson_array, canonical_array]
    intro v hv
    obtain ⟨w, hw, rfl⟩ := List.mem_map.mp hv
    exact ih w hw
  | object fields ih =>
    have fixed : ∀ f ∈ canonicalEntries (fields.map (fun f => (f.1, canonicalAuthorityJson f.2))),
        (f.1, canonicalAuthorityJson f.2) = f := by
      intro f hf
      obtain ⟨g, hg, rfl⟩ := List.mem_map.mp (mem_of_mem_canonicalEntries hf)
      exact congrArg (Prod.mk g.1) (ih g hg)
    rw [Canonical, canonicalAuthorityJson_object, canonicalAuthorityJson_object,
      map_eq_self.2 fixed, canonicalEntries_of_pairwise (pairwise_canonicalEntries _)]

theorem canonical_object (fields : List (String × Json)) :
    Canonical (.object fields) ↔
      (keys fields).Pairwise OwnKeyLt ∧ ∀ f ∈ fields, Canonical f.2 := by
  constructor
  · intro h
    rw [Canonical, canonicalAuthorityJson_object, Json.object.injEq] at h
    have sorted := pairwise_canonicalEntries
      (fields.map (fun f => (f.1, canonicalAuthorityJson f.2)))
    refine ⟨by rwa [h] at sorted, ?_⟩
    intro f hf
    rw [← h] at hf
    obtain ⟨g, -, rfl⟩ := List.mem_map.mp (mem_of_mem_canonicalEntries hf)
    exact canonical_canonicalAuthorityJson g.2
  · rintro ⟨sorted, each⟩
    have fixed : ∀ f ∈ fields, (f.1, canonicalAuthorityJson f.2) = f := by
      intro f hf
      exact congrArg (Prod.mk f.1) (each f hf)
    rw [Canonical, canonicalAuthorityJson_object, map_eq_self.2 fixed,
      canonicalEntries_of_pairwise sorted]

/-- Canonical objects are equal once every key reads the same. -/
theorem canonical_object_ext {fs gs : List (String × Json)} (hf : Canonical (.object fs))
    (hg : Canonical (.object gs)) (same : ∀ k, fs.lookup k = gs.lookup k) : fs = gs :=
  eq_of_pairwise_lookup ((canonical_object fs).mp hf).1 ((canonical_object gs).mp hg).1 same

/-- Objects that read alike at every key have one canonical form. -/
theorem canonicalAuthorityJson_congr {fs gs : List (String × Json)} (hf : (keys fs).Nodup)
    (hg : (keys gs).Nodup) (same : ∀ k, (fs.lookup k).map canonicalAuthorityJson =
      (gs.lookup k).map canonicalAuthorityJson) :
    canonicalAuthorityJson (.object fs) = canonicalAuthorityJson (.object gs) := by
  have hcf := canonical_canonicalAuthorityJson (.object fs)
  have hcg := canonical_canonicalAuthorityJson (.object gs)
  rw [canonicalAuthorityJson_object] at hcf hcg
  rw [canonicalAuthorityJson_object, canonicalAuthorityJson_object, Json.object.injEq]
  refine canonical_object_ext hcf hcg fun k => ?_
  rw [lookup_canonicalEntries (by rwa [keys_map_snd]), lookup_canonicalEntries
    (by rwa [keys_map_snd]), lookup_map_snd, lookup_map_snd, same]

theorem Canonical.nodup {fields : List (String × Json)} (h : Canonical (.object fields)) :
    (keys fields).Nodup :=
  nodup_keys_of_pairwise ((canonical_object fields).mp h).1

theorem Canonical.lookup {fields : List (String × Json)} (h : Canonical (.object fields))
    {k : String} {v : Json} (hv : fields.lookup k = some v) : Canonical v :=
  ((canonical_object fields).mp h).2 (k, v) (mem_of_lookup hv)

private theorem filter_split {l : List (String × V)} (sorted : (keys l).Pairwise OwnKeyLt) :
    l.filter (fun e => (arrayIndex? e.1).isSome) ++
      l.filter (fun e => (arrayIndex? e.1).isNone) = l := by
  induction l with
  | nil => rfl
  | cons e l ih =>
    obtain ⟨first, sorted⟩ := List.pairwise_cons.mp sorted
    cases he : arrayIndex? e.1 with
    | some n => simp [he, ih sorted]
    | none =>
      have none' : ∀ a ∈ l, arrayIndex? a.1 = none := by
        intro a ha
        have hlt := first a.1 (mem_keys.mpr ⟨a.2, ha⟩)
        cases hr : arrayIndex? a.1 with
        | none => rfl
        | some m =>
          simp only [OwnKeyLt, ownKeyRank, he, hr] at hlt
          exact absurd hlt Sum.Lex.not_inr_lt_inl
      have hsome : l.filter (fun e => (arrayIndex? e.1).isSome) = [] := by
        rw [List.filter_eq_nil_iff]
        intro a ha
        simp [none' a ha]
      have hnone : l.filter (fun e => (arrayIndex? e.1).isNone) = l := by
        rw [List.filter_eq_self]
        intro a ha
        simp [none' a ha]
      simp [he, hsome, hnone]

private theorem fromEntries_of_pairwise {l : List (String × V)}
    (sorted : (keys l).Pairwise OwnKeyLt) : fromEntries l = l := by
  rw [fromEntries, ofEntries_of_nodup (nodup_keys_of_pairwise sorted), ownPropertyOrder]
  have indices : (l.filter (fun e => (arrayIndex? e.1).isSome)).Pairwise
      (fun a b => ownKeyRank a.1 ≤ ownKeyRank b.1) := by
    refine ((List.pairwise_map.mp sorted).imp ?_).filter _
    intro a b h
    exact le_of_lt h
  rw [indices.insertionSort_eq, filter_split sorted]

theorem Canonical.ownOrdered {v : Json} (h : Canonical v) : OwnOrdered v := by
  induction v with
  | null => trivial
  | bool b => trivial
  | number n => trivial
  | string s => trivial
  | array items ih =>
    have each := (canonical_array items).mp h
    exact (ownOrderedItems_iff items).mpr (fun v hv => ih v hv (each v hv))
  | object fields ih =>
    obtain ⟨sorted, each⟩ := (canonical_object fields).mp h
    exact ⟨fromEntries_of_pairwise sorted,
      (ownOrderedFields_iff fields).mpr (fun f hf => ih f hf (each f hf))⟩

theorem ownOrdered_object (fields : List (String × Json)) :
    OwnOrdered (.object fields) ↔ fromEntries fields = fields ∧ ∀ f ∈ fields, OwnOrdered f.2 := by
  rw [OwnOrdered, ownOrderedFields_iff]

theorem ownOrdered_array (items : List Json) :
    OwnOrdered (.array items) ↔ ∀ v ∈ items, OwnOrdered v := by
  rw [OwnOrdered, ownOrderedItems_iff]

theorem OwnOrdered.nodup {fields : List (String × Json)} (h : OwnOrdered (.object fields)) :
    (keys fields).Nodup := by
  rw [← ((ownOrdered_object fields).mp h).1]
  exact nodup_keys_fromEntries fields

theorem OwnOrdered.lookup {fields : List (String × Json)} (h : OwnOrdered (.object fields))
    {k : String} {v : Json} (hv : fields.lookup k = some v) : OwnOrdered v :=
  ((ownOrdered_object fields).mp h).2 (k, v) (mem_of_lookup hv)

/-- A literal without array-index keys stands in own-property order as written. -/
theorem fromEntries_of_named {entries : List (String × V)} (nodup : (keys entries).Nodup)
    (named : ∀ k ∈ keys entries, arrayIndex? k = none) : fromEntries entries = entries := by
  have named' : ∀ e ∈ entries, arrayIndex? e.1 = none :=
    fun e he => named e.1 (mem_keys.mpr ⟨e.2, he⟩)
  have indices : entries.filter (fun e => (arrayIndex? e.1).isSome) = [] := by
    rw [List.filter_eq_nil_iff]
    intro e he
    simp [named' e he]
  have others : entries.filter (fun e => (arrayIndex? e.1).isNone) = entries := by
    rw [List.filter_eq_self]
    intro e he
    simp [named' e he]
  rw [fromEntries, ofEntries_of_nodup nodup, ownPropertyOrder, indices, others]
  rfl

/-- An object literal with the distinct, named keys `ks`. -/
theorem ownOrdered_literal {fields : List (String × Json)} (ks : List String)
    (hks : keys fields = ks) (nodup : ks.Nodup) (named : ∀ k ∈ ks, arrayIndex? k = none)
    (each : ∀ f ∈ fields, OwnOrdered f.2) : OwnOrdered (.object fields) := by
  subst hks
  exact (ownOrdered_object fields).mpr ⟨fromEntries_of_named nodup named, each⟩

/-- Canonicalization moves the fields of an object but reads each of them in place. -/
theorem lookup_canonicalFields {fields : List (String × Json)} (nodup : (keys fields).Nodup)
    (k : String) :
    (canonicalEntries (fields.map (fun f => (f.1, canonicalAuthorityJson f.2)))).lookup k =
      (fields.lookup k).map canonicalAuthorityJson := by
  rw [lookup_canonicalEntries (by rwa [keys_map_snd]), lookup_map_snd]

/-- Objects with one canonical form read alike at every key, up to canonical form. -/
theorem lookup_of_canonical_eq {fields fields' : List (String × Json)}
    (nodup : (keys fields).Nodup) (nodup' : (keys fields').Nodup)
    (h : canonicalAuthorityJson (.object fields) = canonicalAuthorityJson (.object fields'))
    (key : String) :
    (fields.lookup key).map canonicalAuthorityJson =
      (fields'.lookup key).map canonicalAuthorityJson := by
  rw [canonicalAuthorityJson_object, canonicalAuthorityJson_object, Json.object.injEq] at h
  rw [← lookup_canonicalFields nodup, h, lookup_canonicalFields nodup']

theorem perm_keys_canonicalFields {fields : List (String × Json)} (nodup : (keys fields).Nodup) :
    (keys (canonicalEntries (fields.map (fun f => (f.1, canonicalAuthorityJson f.2))))).Perm
      (keys fields) := by
  have nodup' : (keys (fields.map (fun f => (f.1, canonicalAuthorityJson f.2)))).Nodup := by
    rwa [keys_map_snd]
  have perm := perm_sortEntries (fields.map (fun f => (f.1, canonicalAuthorityJson f.2)))
  have h := (fromEntries_perm_of_nodup ((perm.map Prod.fst).nodup_iff.mpr nodup')).trans perm
  have hk := h.map Prod.fst
  rwa [show List.map Prod.fst (fields.map (fun f => (f.1, canonicalAuthorityJson f.2))) =
    keys fields from keys_map_snd fields canonicalAuthorityJson] at hk

theorem Fits.canonicalAuthorityJson {v : Json} (h : Fits v) : Fits (canonicalAuthorityJson v) := by
  induction v with
  | null => exact h
  | bool b => exact h
  | number n => exact h
  | string s => exact h
  | array items ih =>
    rw [fits_array] at h
    rw [canonicalAuthorityJson_array, fits_array, List.length_map]
    refine ⟨h.1, ?_⟩
    intro v hv
    obtain ⟨w, hw, rfl⟩ := List.mem_map.mp hv
    exact ih w hw (h.2 w hw)
  | object fields ih =>
    rw [fits_object] at h
    rw [canonicalAuthorityJson_object, fits_object]
    intro f hf
    obtain ⟨g, hg, rfl⟩ := List.mem_map.mp (mem_of_mem_canonicalEntries hf)
    exact ih g hg (h g hg)

/-- The UTF-8 bytes of the canonical text. -/
def canonicalAuthorityBytes (v : Json) : ByteArray :=
  (stringify (canonicalAuthorityJson v)).toByteArray

/-- Decoding and parsing canonical bytes gives the canonical value. -/
theorem parse_canonicalAuthorityBytes (v : Json) :
    (String.fromUTF8? (canonicalAuthorityBytes v)).bind parse = some (canonicalAuthorityJson v) := by
  have hdecode : ∀ s : String, String.fromUTF8? s.toByteArray = some s := by
    intro s
    simp [String.fromUTF8?, s.isValidUTF8, String.fromUTF8]
  rw [canonicalAuthorityBytes, hdecode, Option.bind_some]
  exact parse_stringify _ (canonical_canonicalAuthorityJson v).ownOrdered

theorem canonicalAuthorityBytes_eq_iff (v w : Json) :
    canonicalAuthorityBytes v = canonicalAuthorityBytes w ↔
      canonicalAuthorityJson v = canonicalAuthorityJson w := by
  constructor
  · intro h
    exact stringify_injective (canonical_canonicalAuthorityJson v).ownOrdered
      (canonical_canonicalAuthorityJson w).ownOrdered (String.toByteArray_inj.mp h)
  · intro h
    rw [canonicalAuthorityBytes, canonicalAuthorityBytes, h]

theorem canonicalAuthorityBytes_canonical {v w : Json} (hv : Canonical v) (hw : Canonical w) :
    canonicalAuthorityBytes v = canonicalAuthorityBytes w ↔ v = w := by
  rw [canonicalAuthorityBytes_eq_iff, hv, hw]

end Loopx.Json
