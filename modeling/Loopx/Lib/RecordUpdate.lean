/- GID: Loopx/Lib/RecordUpdate
   generality: G
   digest: Merging the fields of one record into another, and keeping some of its fields. -/

import Loopx.Lib.KeyedList

set_option autoImplicit false
set_option relaxedAutoImplicit false

namespace Loopx.Lib.RecordUpdate

open Loopx.Lib.KeyedList

variable {K V : Type} [DecidableEq K]

/-- `{...record, ...updates}`: an updated key keeps its place, a new key is appended. -/
def merge (record updates : List (K × V)) : List (K × V) :=
  updates.foldl (fun merged field => setKey merged field.1 field.2) record

theorem lookup_merge {updates : List (K × V)} (nodup : (keys updates).Nodup)
    (record : List (K × V)) (key : K) :
    (merge record updates).lookup key = (updates.lookup key).or (record.lookup key) := by
  induction updates generalizing record with
  | nil => simp [merge]
  | cons field updates ih =>
    obtain ⟨fresh, nodup⟩ := List.nodup_cons.mp nodup
    rw [merge, List.foldl_cons]
    refine (ih nodup _).trans ?_
    rw [lookup_setKey, lookup_cons_ite]
    by_cases same : key = field.1
    · have absent : updates.lookup key = none := lookup_eq_none.mpr (same ▸ fresh)
      rw [if_pos same, if_pos same, absent, Option.none_or, Option.some_or]
    · rw [if_neg same, if_neg same]

/-- A field that is not updated stays. -/
theorem lookup_merge_of_not_mem {updates : List (K × V)} (nodup : (keys updates).Nodup)
    (record : List (K × V)) {key : K} (other : key ∉ keys updates) :
    (merge record updates).lookup key = record.lookup key := by
  rw [lookup_merge nodup, lookup_eq_none.mpr other, Option.none_or]

theorem nodup_keys_merge {record : List (K × V)} (nodup : (keys record).Nodup)
    (updates : List (K × V)) : (keys (merge record updates)).Nodup := by
  induction updates generalizing record with
  | nil => exact nodup
  | cons field updates ih => exact ih (nodup_keys_setKey nodup field.1 field.2)

theorem lookup_filter_key (fields : List (K × V)) (p : K → Bool) (key : K) :
    (fields.filter fun field => p field.1).lookup key =
      if p key = true then fields.lookup key else none := by
  induction fields with
  | nil => simp
  | cons field fields ih =>
    rw [List.filter_cons, lookup_cons_ite]
    split
    · rename_i kept
      rw [lookup_cons_ite, ih]
      split
      · rename_i same
        rw [same, if_pos kept]
      · rfl
    · rename_i dropped
      rw [ih]
      split
      · rename_i kept
        rw [if_neg]
        rintro rfl
        exact dropped kept
      · rfl

end Loopx.Lib.RecordUpdate
