/- GID: Loopx/Turn/SourceValue
   generality: I
   source: loopx/control_plane/turn_driver/turn_journal_effects.ts
   digest: JSON documents that keep the spelling of their numbers, and their stable form. -/

import Loopx.Authority.Codec
import Loopx.Json.Text
import Loopx.Lease.WriteScope

set_option autoImplicit false
set_option relaxedAutoImplicit false

namespace Loopx.Turn

open Loopx.Lib.KeyedList
open Loopx.Json (JsNumber fromEntries)
open Loopx.Lease (HostText)

/-- A JSON value together with the token each number is written as. The token is the runtime's own
spelling unless the source document spelled an integer otherwise. -/
inductive SourceValue : Type where
  | null
  | bool (b : Bool)
  | number (value : JsNumber) (token : String)
  | string (s : String)
  | array (items : List SourceValue)
  | object (fields : List (String × SourceValue))

namespace SourceValue

mutual

/-- Equality of values is decided field by field. -/
def decEq : (v w : SourceValue) → Decidable (v = w)
  | .null, .null => isTrue rfl
  | .bool a, .bool b => decidable_of_iff (a = b) (by simp)
  | .number a s, .number b t => decidable_of_iff (a = b ∧ s = t) (by simp)
  | .string a, .string b => decidable_of_iff (a = b) (by simp)
  | .array a, .array b =>
    match decEqItems a b with
    | isTrue h => isTrue (by rw [h])
    | isFalse h => isFalse (by simpa using h)
  | .object a, .object b =>
    match decEqFields a b with
    | isTrue h => isTrue (by rw [h])
    | isFalse h => isFalse (by simpa using h)
  | .null, .bool _ | .null, .number _ _ | .null, .string _ | .null, .array _ | .null, .object _
  | .bool _, .null | .bool _, .number _ _ | .bool _, .string _ | .bool _, .array _
  | .bool _, .object _ | .number _ _, .null | .number _ _, .bool _ | .number _ _, .string _
  | .number _ _, .array _ | .number _ _, .object _ | .string _, .null | .string _, .bool _
  | .string _, .number _ _ | .string _, .array _ | .string _, .object _ | .array _, .null
  | .array _, .bool _ | .array _, .number _ _ | .array _, .string _ | .array _, .object _
  | .object _, .null | .object _, .bool _ | .object _, .number _ _ | .object _, .string _
  | .object _, .array _ => isFalse (by simp)

def decEqItems : (v w : List SourceValue) → Decidable (v = w)
  | [], [] => isTrue rfl
  | [], _ :: _ => isFalse (by simp)
  | _ :: _, [] => isFalse (by simp)
  | a :: v, b :: w =>
    match decEq a b, decEqItems v w with
    | isTrue h, isTrue h' => isTrue (by rw [h, h'])
    | isFalse h, _ => isFalse (by simp [h])
    | _, isFalse h => isFalse (by simp [h])

def decEqFields : (v w : List (String × SourceValue)) → Decidable (v = w)
  | [], [] => isTrue rfl
  | [], _ :: _ => isFalse (by simp)
  | _ :: _, [] => isFalse (by simp)
  | (k, a) :: v, (k', b) :: w =>
    if hk : k = k' then
      match decEq a b, decEqFields v w with
      | isTrue h, isTrue h' => isTrue (by rw [hk, h, h'])
      | isFalse h, _ => isFalse (by simp [h])
      | _, isFalse h => isFalse (by simp [h])
    else isFalse (by simp [hk])

end

instance : DecidableEq SourceValue := decEq

/-- `value[key]`; `undefined` stands as `none`. -/
def field (v : SourceValue) (key : String) : Option SourceValue :=
  match v with
  | .object fields => fields.lookup key
  | _ => none

/-- `asObject`: anything but an object counts as an empty one. -/
def asObject : Option SourceValue → SourceValue
  | some (.object fields) => .object fields
  | _ => .object []

/-- `typeof value === "string" ? value : otherwise`. -/
def text? : Option SourceValue → Option String
  | some (.string s) => some s
  | _ => none

/-- `value[key] = item` on an object. -/
def setField (v : SourceValue) (key : String) (item : SourceValue) : SourceValue :=
  match v with
  | .object fields => .object (setKey fields key item)
  | v => v

/-- `delete value[key]`. -/
def removeField (v : SourceValue) (key : String) : SourceValue :=
  match v with
  | .object fields => .object (eraseKey fields key)
  | v => v

/-- No two members of the object share a name. -/
def UniqueKeys (v : SourceValue) : Prop := ∀ fields, v = .object fields → (keys fields).Nodup

def IsObject (v : SourceValue) : Prop := ∃ fields, v = .object fields

/-- The value counts as true in a condition. -/
def truthy : SourceValue → Bool
  | .null => false
  | .bool b => b
  | .number value _ => value.coefficient ≠ 0
  | .string s => s ≠ ""
  | .array _ => true
  | .object _ => true

mutual

/-- `String(value)`. -/
def toText : SourceValue → String
  | .null => "null"
  | .bool true => "true"
  | .bool false => "false"
  | .number value _ => String.ofList (Json.numberText value)
  | .string s => s
  | .array items => ",".intercalate (itemTexts items)
  | .object _ => "[object Object]"

/-- The parts `Array.prototype.join` puts together: a null element leaves none. -/
def itemTexts : List SourceValue → List String
  | [] => []
  | item :: items => (if item = .null then "" else toText item) :: itemTexts items

end

mutual

/-- `stableValue`: the same document with every object's members sorted by name. -/
def stable (host : HostText) : SourceValue → SourceValue
  | .array items => .array (stableItems host items)
  | .object fields =>
    .object (fromEntries ((stableFields host fields).mergeSort
      (fun a b => host.localeCompare a.1 b.1 != .gt)))
  | v => v

def stableItems (host : HostText) : List SourceValue → List SourceValue
  | [] => []
  | item :: items => stable host item :: stableItems host items

def stableFields (host : HostText) : List (String × SourceValue) → List (String × SourceValue)
  | [] => []
  | (key, item) :: fields => (key, stable host item) :: stableFields host fields

end

/-- What `operationId` takes the digest of. Two documents have one id when their stable texts, and
so their stable forms, are the same. -/
def operationId (host : HostText) (v : SourceValue) : SourceValue := stable host v

@[simp] theorem field_setField {v : SourceValue} (h : v.IsObject) (key other : String)
    (item : SourceValue) :
    (v.setField key item).field other = if other = key then some item else v.field other := by
  obtain ⟨fields, rfl⟩ := h
  exact lookup_setKey fields key other item

@[simp] theorem isObject_setField_iff (v : SourceValue) (key : String) (item : SourceValue) :
    (v.setField key item).IsObject ↔ v.IsObject := by
  cases v <;> simp [setField, IsObject]

@[simp] theorem isObject_removeField_iff (v : SourceValue) (key : String) :
    (v.removeField key).IsObject ↔ v.IsObject := by
  cases v <;> simp [removeField, IsObject]

theorem isObject_of_field {v item : SourceValue} {key : String} (h : v.field key = some item) :
    v.IsObject := by
  cases v with
  | object fields => exact ⟨fields, rfl⟩
  | _ => simp [field] at h

private theorem stableFields_eq (host : HostText) (fields : List (String × SourceValue)) :
    stableFields host fields = fields.map (fun entry => (entry.1, stable host entry.2)) := by
  induction fields with
  | nil => rfl
  | cons entry fields ih =>
    obtain ⟨key, item⟩ := entry
    rw [stableFields, ih]
    rfl

theorem stableItems_eq (host : HostText) (items : List SourceValue) :
    stableItems host items = items.map (stable host) := by
  induction items with
  | nil => rfl
  | cons item items ih =>
    rw [stableItems, ih]
    rfl

/-- The members of the stable form are the stable members. -/
theorem field_stable (host : HostText) {v : SourceValue} (unique : v.UniqueKeys) (key : String) :
    (stable host v).field key = (v.field key).map (stable host) := by
  cases v with
  | object fields =>
    have nodup : (keys (stableFields host fields)).Nodup := by
      rw [stableFields_eq, keys, List.map_map]
      exact unique fields rfl
    let sorted := (stableFields host fields).mergeSort
      (fun a b => host.localeCompare a.1 b.1 != .gt)
    have perm : sorted.Perm (stableFields host fields) := List.mergeSort_perm _ _
    have nodup' : (keys sorted).Nodup := (perm.map Prod.fst).nodup_iff.mpr nodup
    have hlookup : (stableFields host fields).lookup key =
        (fields.lookup key).map (stable host) := by
      rw [stableFields_eq]
      exact lookup_map_snd fields (stable host) key
    rw [stable]
    exact ((Json.lookup_fromEntries nodup' key).trans (lookup_of_perm nodup' perm key)).trans hlookup
  | _ => simp [stable, field]

/-- A text member is told by the stable form. -/
theorem field_string_of_stable (host : HostText) {v w : SourceValue} (hv : v.UniqueKeys)
    (hw : w.UniqueKeys) (same : stable host v = stable host w) {key text : String}
    (h : w.field key = some (.string text)) : v.field key = some (.string text) := by
  have hfield := congrArg (fun u => u.field key) same
  rw [field_stable host hv, field_stable host hw, h] at hfield
  obtain ⟨item, hitem, hstable⟩ := Option.map_eq_some_iff.mp hfield
  rw [hitem]
  cases item with
  | string s => simpa [stable] using hstable
  | _ => simp [stable] at hstable

theorem uniqueKeys_setField {v : SourceValue} (h : v.UniqueKeys) (key : String)
    (item : SourceValue) : (v.setField key item).UniqueKeys := by
  intro fields hfields
  cases v with
  | object members =>
    rw [setField, object.injEq] at hfields
    rw [← hfields]
    exact nodup_keys_setKey (h members rfl) key item
  | _ => simp [setField] at hfields

theorem uniqueKeys_removeField {v : SourceValue} (h : v.UniqueKeys) (key : String) :
    (v.removeField key).UniqueKeys := by
  intro fields hfields
  cases v with
  | object members =>
    rw [removeField, object.injEq] at hfields
    rw [← hfields]
    exact nodup_keys_eraseKey (h members rfl) key
  | _ => simp [removeField] at hfields

@[simp] theorem field_removeField (v : SourceValue) (key other : String) :
    (v.removeField key).field other = if other = key then none else v.field other := by
  cases v with
  | object fields => exact lookup_eraseKey fields key other
  | _ => simp [removeField, field]

end SourceValue

end Loopx.Turn
