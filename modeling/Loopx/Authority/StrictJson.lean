/- GID: Loopx/Authority/StrictJson
   generality: I
   source: loopx/control_plane/coordination/authority_store_codec.ts
   digest: Canonical bytes of strict JSON values, with strings as the runtime compares them. -/

import Loopx.Json.UnitText

set_option autoImplicit false
set_option relaxedAutoImplicit false

namespace Loopx.Authority.StrictJson

open Loopx.Lib.CodePoints
open Loopx.Lib.KeyedList
open Loopx.UnitJson (text text_injective)

/-- `authorityUnicodeCompare` on what is left of both strings. -/
def authorityUnicodeCompare (left right : Units) : Int :=
  if h : left = [] ∨ right = [] then
    if left ≠ [] then 1 else if right ≠ [] then -1 else 0
  else
    let leftPoint := codePointAt left
    let rightPoint := codePointAt right
    if leftPoint ≠ rightPoint then leftPoint - rightPoint
    else
      authorityUnicodeCompare (left.drop (width leftPoint)) (right.drop (width rightPoint))
termination_by left.length
decreasing_by
  have := List.length_pos_iff.mpr fun none => h (.inl none)
  have := width_pos (codePointAt left)
  rw [List.length_drop]
  omega

theorem authorityUnicodeCompare_eq (left right : Units) :
    authorityUnicodeCompare left right = comparePoints (points left) (points right) := by
  fun_induction authorityUnicodeCompare left right with
  | case1 left right ended open' =>
    obtain rfl := ended.resolve_left open'
    rw [points_of_ne_nil open', points, comparePoints]
  | case2 left right ended closed open' =>
    obtain rfl := not_not.mp closed
    rw [points_of_ne_nil open', points, comparePoints]
  | case3 left right ended closed closed' =>
    obtain rfl := not_not.mp closed
    obtain rfl := not_not.mp closed'
    rfl
  | case4 left right open' leftPoint rightPoint differ =>
    rw [points_of_ne_nil fun none => open' (.inl none),
      points_of_ne_nil fun none => open' (.inr none), comparePoints, if_pos differ]
  | case5 left right open' leftPoint rightPoint same ih =>
    rw [points_of_ne_nil fun none => open' (.inl none),
      points_of_ne_nil fun none => open' (.inr none), comparePoints, if_neg same, ih]

theorem authorityUnicodeCompare_neg {left right : Units} :
    authorityUnicodeCompare left right < 0 ↔ points left < points right := by
  rw [authorityUnicodeCompare_eq, comparePoints_neg]

theorem authorityUnicodeCompare_eq_zero {left right : Units} :
    authorityUnicodeCompare left right = 0 ↔ left = right := by
  rw [authorityUnicodeCompare_eq, comparePoints_eq_zero, points_injective.eq_iff]

theorem authorityUnicodeCompare_pos {left right : Units} :
    0 < authorityUnicodeCompare left right ↔ points right < points left := by
  rw [authorityUnicodeCompare_eq, ← comparePoints_neg, comparePoints_swap (points left)]
  omega

theorem authorityUnicodeCompare_le_zero {left right : Units} :
    authorityUnicodeCompare left right ≤ 0 ↔ points left ≤ points right := by
  rw [← not_lt, authorityUnicodeCompare_pos, not_lt]

/-! ## Objects -/

/-- The number an array-index key names: its canonical decimal text below `2 ^ 32 - 1`. -/
def arrayIndex? (key : Units) : Option Nat :=
  let n := Nat.ofDigitChars 10 (key.map fun u => Char.ofNat u.toNat) 0
  if (Nat.toDigits 10 n).map (fun c => UInt16.ofNat c.toNat) = key ∧ n < 4294967295 then some n
  else none

variable {V : Type}

/-- `OrdinaryOwnPropertyKeys`: array indices in ascending order, then the others as created. The
name `__proto__` is one of these. -/
def ownPropertyOrder (entries : List (Units × V)) : List (Units × V) :=
  (entries.filter (fun e => (arrayIndex? e.1).isSome)).insertionSort
      (fun a b => (arrayIndex? a.1).getD 0 ≤ (arrayIndex? b.1).getD 0) ++
    entries.filter (fun e => !(arrayIndex? e.1).isSome)

/-- The object that results from defining the entries one after the other. -/
def fromEntries (entries : List (Units × V)) : List (Units × V) :=
  ownPropertyOrder (ofEntries entries)

/-- `keys.sort(authorityUnicodeCompare)`, with what the keys hold. -/
def sortEntries (entries : List (Units × V)) : List (Units × V) :=
  entries.insertionSort (fun a b => authorityUnicodeCompare a.1 b.1 ≤ 0)

mutual

def cloneAuthorityJson (canonicalKeys : Bool) : UnitJson → UnitJson
  | .null => .null
  | .bool b => .bool b
  | .number n => .number n
  | .string s => .string s
  | .array items => .array (cloneItems canonicalKeys items)
  | .object fields =>
    .object (fromEntries (if canonicalKeys then sortEntries (cloneFields canonicalKeys fields)
      else cloneFields canonicalKeys fields))

def cloneItems (canonicalKeys : Bool) : List UnitJson → List UnitJson
  | [] => []
  | v :: items => cloneAuthorityJson canonicalKeys v :: cloneItems canonicalKeys items

def cloneFields (canonicalKeys : Bool) : List (Units × UnitJson) → List (Units × UnitJson)
  | [] => []
  | (k, v) :: fields =>
    (k, cloneAuthorityJson canonicalKeys v) :: cloneFields canonicalKeys fields

end

def canonicalAuthorityJson (v : UnitJson) : UnitJson := cloneAuthorityJson true v

def copyAuthorityJson (v : UnitJson) : UnitJson := cloneAuthorityJson false v

def canonicalAuthorityBytes (v : UnitJson) : ByteArray :=
  (String.ofList (text (canonicalAuthorityJson v))).toByteArray

mutual

/-- No object of the value has a key twice, as none of the runtime has. -/
def Distinct : UnitJson → Prop
  | .array items => DistinctItems items
  | .object fields => (keys fields).Nodup ∧ DistinctFields fields
  | _ => True

def DistinctItems : List UnitJson → Prop
  | [] => True
  | v :: items => Distinct v ∧ DistinctItems items

def DistinctFields : List (Units × UnitJson) → Prop
  | [] => True
  | (_, v) :: fields => Distinct v ∧ DistinctFields fields

end

/-- A strict JSON value. -/
abbrev Strict := { v : UnitJson // Distinct v }

mutual

/-- Equality of JSON values up to the order of the keys of each object. -/
def SameJson : UnitJson → UnitJson → Prop
  | .null, .null => True
  | .bool b, .bool b' => b = b'
  | .number n, .number n' => n = n'
  | .string s, .string s' => s = s'
  | .array items, .array items' => SameItems items items'
  | .object fields, .object fields' =>
    (keys fields).Perm (keys fields') ∧ SameFields fields fields'
  | _, _ => False

def SameItems : List UnitJson → List UnitJson → Prop
  | [], [] => True
  | v :: items, w :: items' => SameJson v w ∧ SameItems items items'
  | _, _ => False

/-- Each field holds what its name holds in the other object. -/
def SameFields : List (Units × UnitJson) → List (Units × UnitJson) → Prop
  | [], _ => True
  | (k, v) :: fields, fields' =>
    (∃ w, (k, w) ∈ fields' ∧ SameJson v w) ∧ SameFields fields fields'

end

@[simp] theorem cloneItems_eq (canonicalKeys : Bool) (items : List UnitJson) :
    cloneItems canonicalKeys items = items.map (cloneAuthorityJson canonicalKeys) := by
  induction items with
  | nil => rfl
  | cons v items ih => rw [cloneItems, ih, List.map_cons]

@[simp] theorem cloneFields_eq (canonicalKeys : Bool) (fields : List (Units × UnitJson)) :
    cloneFields canonicalKeys fields =
      fields.map fun f => (f.1, cloneAuthorityJson canonicalKeys f.2) := by
  induction fields with
  | nil => rfl
  | cons f fields ih => rw [cloneFields, ih, List.map_cons]

theorem distinctItems_iff {items : List UnitJson} :
    DistinctItems items ↔ ∀ v ∈ items, Distinct v := by
  induction items with
  | nil => simp [DistinctItems]
  | cons v items ih => simp [DistinctItems, ih]

theorem distinctFields_iff {fields : List (Units × UnitJson)} :
    DistinctFields fields ↔ ∀ f ∈ fields, Distinct f.2 := by
  induction fields with
  | nil => simp [DistinctFields]
  | cons f fields ih => simp [DistinctFields, ih]

theorem sameItems_iff {items items' : List UnitJson} :
    SameItems items items' ↔ List.Forall₂ SameJson items items' := by
  induction items generalizing items' with
  | nil => cases items' <;> simp [SameItems]
  | cons v items ih => cases items' <;> simp [SameItems, ih]

theorem sameFields_iff {fields fields' : List (Units × UnitJson)} :
    SameFields fields fields' ↔
      ∀ f ∈ fields, ∃ w, (f.1, w) ∈ fields' ∧ SameJson f.2 w := by
  induction fields with
  | nil => simp [SameFields]
  | cons f fields ih => rw [SameFields, ih, List.forall_mem_cons]

/-! ## The entries of a copy -/

theorem perm_ownPropertyOrder (entries : List (Units × V)) :
    (ownPropertyOrder entries).Perm entries :=
  ((List.perm_insertionSort _ _).append_right _).trans
    (List.filter_append_perm (fun e => (arrayIndex? e.1).isSome) entries)

theorem perm_fromEntries {entries : List (Units × V)} (nodup : (keys entries).Nodup) :
    (fromEntries entries).Perm entries := by
  rw [fromEntries, ofEntries_of_nodup nodup]
  exact perm_ownPropertyOrder entries

theorem perm_sortEntries (entries : List (Units × V)) : (sortEntries entries).Perm entries :=
  List.perm_insertionSort _ _

private theorem nodup_of_perm {entries entries' : List (Units × V)} (perm : entries.Perm entries')
    (nodup : (keys entries').Nodup) : (keys entries).Nodup :=
  (perm.map Prod.fst).nodup_iff.mpr nodup

/-- An object's own entries make the object again. -/
theorem ownPropertyOrder_idem (entries : List (Units × V)) :
    ownPropertyOrder (ownPropertyOrder entries) = ownPropertyOrder entries := by
  have : Std.Total fun a b : Units × V =>
      (arrayIndex? a.1).getD 0 ≤ (arrayIndex? b.1).getD 0 := ⟨fun _ _ => le_total _ _⟩
  have : IsTrans (Units × V) fun a b => (arrayIndex? a.1).getD 0 ≤ (arrayIndex? b.1).getD 0 :=
    ⟨fun _ _ _ => le_trans⟩
  unfold ownPropertyOrder
  set indices := (entries.filter (fun e => (arrayIndex? e.1).isSome)).insertionSort
    (fun a b => (arrayIndex? a.1).getD 0 ≤ (arrayIndex? b.1).getD 0) with hindices
  have isIndex : ∀ e ∈ indices, (arrayIndex? e.1).isSome = true := by
    intro e mem
    rw [hindices, List.mem_insertionSort] at mem
    exact (List.mem_filter.mp mem).2
  have named : ∀ e ∈ entries.filter (fun e => !(arrayIndex? e.1).isSome),
      (arrayIndex? e.1).isSome = false := by
    intro e mem
    simpa using (List.mem_filter.mp mem).2
  have sorted : indices.insertionSort
      (fun a b => (arrayIndex? a.1).getD 0 ≤ (arrayIndex? b.1).getD 0) = indices :=
    List.Pairwise.insertionSort_eq (List.pairwise_insertionSort _ _)
  rw [List.filter_append, List.filter_append, List.filter_eq_self.mpr isIndex,
    List.filter_eq_nil_iff.mpr fun e mem => by rw [named e mem]; decide, List.append_nil, sorted,
    List.filter_eq_nil_iff.mpr fun e mem => by rw [isIndex e mem]; decide, List.nil_append,
    List.filter_eq_self.mpr fun e mem => by rw [named e mem]; decide]

theorem fromEntries_fromEntries {entries : List (Units × V)} (nodup : (keys entries).Nodup) :
    fromEntries (fromEntries entries) = fromEntries entries := by
  rw [fromEntries, ofEntries_of_nodup (nodup_of_perm (perm_fromEntries nodup) nodup), fromEntries,
    ofEntries_of_nodup nodup, ownPropertyOrder_idem]

/-- Sorting the keys forgets the order they were created in. -/
theorem sortEntries_of_perm {entries entries' : List (Units × V)} (nodup : (keys entries).Nodup)
    (perm : entries.Perm entries') : sortEntries entries = sortEntries entries' := by
  have : Std.Total fun a b : Units × V => authorityUnicodeCompare a.1 b.1 ≤ 0 := by
    constructor
    intro a b
    rw [authorityUnicodeCompare_le_zero, authorityUnicodeCompare_le_zero]
    exact le_total _ _
  have : IsTrans (Units × V) fun a b => authorityUnicodeCompare a.1 b.1 ≤ 0 := by
    constructor
    intro a b c
    rw [authorityUnicodeCompare_le_zero, authorityUnicodeCompare_le_zero,
      authorityUnicodeCompare_le_zero]
    exact le_trans
  refine List.Perm.eq_of_pairwise ?_ (List.pairwise_insertionSort _ _)
    (List.pairwise_insertionSort _ _)
    ((perm_sortEntries entries).trans (perm.trans (perm_sortEntries entries').symm))
  intro a b ha hb below above
  have key : a.1 = b.1 := by
    rw [authorityUnicodeCompare_le_zero] at below above
    exact points_injective (le_antisymm below above)
  have found := lookup_of_mem nodup ((perm_sortEntries entries).mem_iff.mp ha)
  have found' := lookup_of_mem nodup
    (perm.mem_iff.mpr ((perm_sortEntries entries').mem_iff.mp hb))
  rw [key, found'] at found
  exact Prod.ext key (Option.some.inj found).symm

variable {canonicalKeys : Bool} {fields fields' : List (Units × UnitJson)}

/-- The entries an object is copied from: its own with copied values, maybe sorted. -/
def clonedEntries (canonicalKeys : Bool) (fields : List (Units × UnitJson)) :
    List (Units × UnitJson) :=
  fields.map fun f => (f.1, cloneAuthorityJson canonicalKeys f.2)

theorem keys_clonedEntries : keys (clonedEntries canonicalKeys fields) = keys fields :=
  keys_map_snd fields _

/-- What an object is copied to. -/
def clonedObject (canonicalKeys : Bool) (fields : List (Units × UnitJson)) :
    List (Units × UnitJson) :=
  fromEntries (if canonicalKeys then sortEntries (clonedEntries canonicalKeys fields)
    else clonedEntries canonicalKeys fields)

theorem cloneAuthorityJson_object : cloneAuthorityJson canonicalKeys (.object fields) =
    .object (clonedObject canonicalKeys fields) := by
  rw [cloneAuthorityJson, cloneFields_eq, clonedObject, clonedEntries]

theorem cloneAuthorityJson_array (items : List UnitJson) :
    cloneAuthorityJson canonicalKeys (.array items) =
      .array (items.map (cloneAuthorityJson canonicalKeys)) := by
  rw [cloneAuthorityJson, cloneItems_eq]

theorem perm_clonedObject (nodup : (keys fields).Nodup) :
    (clonedObject canonicalKeys fields).Perm (clonedEntries canonicalKeys fields) := by
  have nodup' : (keys (clonedEntries canonicalKeys fields)).Nodup := by
    rwa [keys_clonedEntries]
  unfold clonedObject
  split
  · have perm := perm_sortEntries (clonedEntries canonicalKeys fields)
    exact (perm_fromEntries (nodup_of_perm perm nodup')).trans perm
  · exact perm_fromEntries nodup'

/-! ## Copies of copies -/

theorem clone_clone (v : UnitJson) (distinct : Distinct v) :
    cloneAuthorityJson canonicalKeys (cloneAuthorityJson canonicalKeys v) =
      cloneAuthorityJson canonicalKeys v := by
  induction v with
  | array items each =>
    have each' : ∀ v ∈ items, _ := fun v mem =>
      each v mem (distinctItems_iff.1 distinct v mem)
    rw [cloneAuthorityJson_array, cloneAuthorityJson_array, List.map_map]
    exact congrArg _ (List.map_congr_left each')
  | object fields each =>
    obtain ⟨nodup, below⟩ := distinct
    have perm : (clonedObject canonicalKeys fields).Perm (clonedEntries canonicalKeys fields) :=
      perm_clonedObject nodup
    have nodup' : (keys (clonedEntries canonicalKeys fields)).Nodup := by
      rwa [keys_clonedEntries]
    -- the values of a copy are copies, so copying them again changes nothing
    have settled : clonedEntries canonicalKeys (clonedObject canonicalKeys fields) =
        clonedObject canonicalKeys fields := by
      rw [clonedEntries]
      refine (List.map_congr_left fun e mem => ?_).trans (List.map_id _)
      obtain ⟨f, hf, rfl⟩ := List.mem_map.mp (perm.mem_iff.mp mem)
      exact Prod.ext rfl (each f hf (distinctFields_iff.1 below f hf))
    rw [cloneAuthorityJson_object, cloneAuthorityJson_object]
    congr 1
    conv_lhs => rw [clonedObject, settled]
    cases canonicalKeys with
    | true =>
      simp only [if_true]
      rw [sortEntries_of_perm (nodup_of_perm perm nodup') perm, clonedObject, if_pos rfl]
    | false =>
      simp only [Bool.false_eq_true, if_false]
      rw [clonedObject, if_neg (by decide), fromEntries_fromEntries nodup']
  | _ => simp only [cloneAuthorityJson]

/-! ## Values with the same canonical text -/

private theorem same_entries (nodup : (keys fields).Nodup) (nodup' : (keys fields').Nodup)
    (sameKeys : (keys fields).Perm (keys fields'))
    (sameValues : ∀ f ∈ fields, ∃ w, (f.1, w) ∈ fields' ∧
      cloneAuthorityJson canonicalKeys f.2 = cloneAuthorityJson canonicalKeys w) :
    (clonedEntries canonicalKeys fields).Perm (clonedEntries canonicalKeys fields') := by
  refine perm_of_lookup (by rwa [keys_clonedEntries]) (by rwa [keys_clonedEntries]) fun k => ?_
  rw [clonedEntries, clonedEntries, lookup_map_snd, lookup_map_snd]
  by_cases named : k ∈ keys fields
  · obtain ⟨v, mem⟩ := mem_keys.mp named
    obtain ⟨w, mem', same⟩ := sameValues (k, v) mem
    rw [lookup_of_mem nodup mem, lookup_of_mem nodup' mem', Option.map_some, Option.map_some, same]
  · rw [lookup_eq_none.mpr named, lookup_eq_none.mpr fun named' =>
      named (sameKeys.mem_iff.mpr named')]

theorem canonical_of_same (v w : UnitJson) (hv : Distinct v) (hw : Distinct w)
    (same : SameJson v w) : cloneAuthorityJson true v = cloneAuthorityJson true w := by
  induction v generalizing w with
  | array items each =>
    cases w with
    | array items' =>
      rw [cloneAuthorityJson_array, cloneAuthorityJson_array]
      congr 1
      induction items generalizing items' with
      | nil =>
        cases items' with
        | nil => rfl
        | cons w items' => exact same.elim
      | cons v items ih =>
        cases items' with
        | nil => exact same.elim
        | cons w items' =>
          rw [List.map_cons, List.map_cons, each v (by simp) w hv.1 hw.1 same.1,
            ih (fun v mem => each v (by simp [mem])) hv.2 items' hw.2 same.2]
    | _ => exact same.elim
  | object fields each =>
    cases w with
    | object fields' =>
      obtain ⟨nodup, below⟩ := hv
      obtain ⟨nodup', below'⟩ := hw
      obtain ⟨sameKeys, sameFields⟩ := same
      have perm : (clonedEntries true fields).Perm (clonedEntries true fields') := by
        refine same_entries nodup nodup' sameKeys fun f mem => ?_
        obtain ⟨w, mem', same⟩ := sameFields_iff.1 sameFields f mem
        exact ⟨w, mem', each f mem w (distinctFields_iff.1 below f mem)
          (distinctFields_iff.1 below' (f.1, w) mem') same⟩
      rw [cloneAuthorityJson_object, cloneAuthorityJson_object, clonedObject, clonedObject,
        if_pos rfl, if_pos rfl, sortEntries_of_perm (by rwa [keys_clonedEntries]) perm]
    | _ => exact same.elim
  | null =>
    cases w with
    | null => rfl
    | _ => exact same.elim
  | bool b =>
    cases w with
    | bool b' => exact congrArg _ (congrArg UnitJson.bool same)
    | _ => exact same.elim
  | number n =>
    cases w with
    | number n' => exact congrArg _ (congrArg UnitJson.number same)
    | _ => exact same.elim
  | string s =>
    cases w with
    | string s' => exact congrArg _ (congrArg UnitJson.string same)
    | _ => exact same.elim

theorem same_of_canonical (v w : UnitJson) (hv : Distinct v) (hw : Distinct w)
    (h : cloneAuthorityJson true v = cloneAuthorityJson true w) : SameJson v w := by
  induction v generalizing w with
  | array items each =>
    cases w with
    | array items' =>
      rw [cloneAuthorityJson_array, cloneAuthorityJson_array, UnitJson.array.injEq] at h
      induction items generalizing items' with
      | nil =>
        cases items' with
        | nil => trivial
        | cons w items' => cases h
      | cons v items ih =>
        cases items' with
        | nil => cases h
        | cons w items' =>
          rw [List.map_cons, List.map_cons, List.cons.injEq] at h
          exact ⟨each v (by simp) w hv.1 hw.1 h.1,
            ih (fun v mem => each v (by simp [mem])) hv.2 items' hw.2 h.2⟩
    | object fields' =>
      rw [cloneAuthorityJson_array, cloneAuthorityJson_object] at h
      cases h
    | _ =>
      rw [cloneAuthorityJson_array] at h
      cases h
  | object fields each =>
    cases w with
    | object fields' =>
      obtain ⟨nodup, below⟩ := hv
      obtain ⟨nodup', below'⟩ := hw
      rw [cloneAuthorityJson_object, cloneAuthorityJson_object, UnitJson.object.injEq] at h
      have perm : (clonedEntries true fields).Perm (clonedEntries true fields') :=
        (perm_clonedObject nodup).symm.trans (h ▸ perm_clonedObject nodup')
      refine ⟨?_, sameFields_iff.2 fun f mem => ?_⟩
      · have sameKeys := perm.map Prod.fst
        change (keys _).Perm (keys _) at sameKeys
        rwa [keys_clonedEntries, keys_clonedEntries] at sameKeys
      · obtain ⟨g, hg, same⟩ := List.mem_map.mp (perm.mem_iff.mp (List.mem_map_of_mem mem))
        obtain ⟨key, value⟩ := Prod.mk.inj same
        have mem' : (f.1, g.2) ∈ fields' := key ▸ hg
        exact ⟨g.2, mem', each f mem g.2 (distinctFields_iff.1 below f mem)
          (distinctFields_iff.1 below' g hg) value.symm⟩
    | array items' =>
      rw [cloneAuthorityJson_array, cloneAuthorityJson_object] at h
      cases h
    | _ =>
      rw [cloneAuthorityJson_object] at h
      cases h
  | _ =>
    cases w with
    | array items' =>
      rw [cloneAuthorityJson_array] at h
      cases h
    | object fields' =>
      rw [cloneAuthorityJson_object] at h
      cases h
    | _ =>
      simp only [cloneAuthorityJson, reduceCtorEq, UnitJson.bool.injEq, UnitJson.number.injEq,
        UnitJson.string.injEq] at h
      try exact h

theorem canonicalAuthorityBytes_eq_iff {v w : UnitJson} (hv : Distinct v) (hw : Distinct w) :
    canonicalAuthorityBytes v = canonicalAuthorityBytes w ↔ SameJson v w := by
  constructor
  · intro h
    have sameText := String.ofList_injective (String.toByteArray_inj.mp h)
    exact same_of_canonical v w hv hw (text_injective sameText)
  · intro h
    rw [canonicalAuthorityBytes, canonicalAuthorityBytes, canonicalAuthorityJson,
      canonicalAuthorityJson, canonical_of_same v w hv hw h]

/-- What the canonical bytes, the copies and the order of keys keep of a value. -/
structure FaithfulEncoding : Prop where
  bytes : ∀ v w : Strict,
    canonicalAuthorityBytes v = canonicalAuthorityBytes w ↔ SameJson v.1 w.1
  idempotent : ∀ (canonicalKeys : Bool) (v : Strict),
    cloneAuthorityJson canonicalKeys (cloneAuthorityJson canonicalKeys v) =
      cloneAuthorityJson canonicalKeys v
  /-- No key vanishes and no two merge, whatever their names. -/
  keysKept : ∀ (canonicalKeys : Bool) (fields : List (Units × UnitJson)),
    Distinct (.object fields) → ∃ copied,
      cloneAuthorityJson canonicalKeys (.object fields) = .object copied ∧
        copied.Perm (fields.map fun f => (f.1, cloneAuthorityJson canonicalKeys f.2))
  strictTotal : IsStrictTotalOrder Units fun s t => authorityUnicodeCompare s t < 0
  codePoints : ∀ s t, (authorityUnicodeCompare s t < 0 ↔ points s < points t) ∧
    (authorityUnicodeCompare s t = 0 ↔ s = t) ∧
      (0 < authorityUnicodeCompare s t ↔ points t < points s)

theorem canonicalAuthority_faithful : FaithfulEncoding where
  bytes v w := canonicalAuthorityBytes_eq_iff v.2 w.2
  idempotent canonicalKeys v := clone_clone v.1 v.2
  keysKept canonicalKeys fields distinct :=
    ⟨_, cloneAuthorityJson_object, perm_clonedObject distinct.1⟩
  strictTotal := by
    refine { trichotomous := ?_, irrefl := ?_, trans := ?_ }
    · intro s t below above
      rw [authorityUnicodeCompare_neg] at below above
      exact points_injective (le_antisymm (not_lt.mp above) (not_lt.mp below))
    · intro s below
      exact lt_irrefl _ (authorityUnicodeCompare_neg.1 below)
    · intro s t u below below'
      rw [authorityUnicodeCompare_neg] at below below' ⊢
      exact below.trans below'
  codePoints s t := ⟨authorityUnicodeCompare_neg, authorityUnicodeCompare_eq_zero,
    authorityUnicodeCompare_pos⟩

end Loopx.Authority.StrictJson
