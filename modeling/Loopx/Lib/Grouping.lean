/- GID: Loopx/Lib/Grouping
   generality: G
   digest: Items collected under a key, and what of it does not depend on their order. -/

import Mathlib.Data.List.Sort
import Mathlib.Data.List.Perm.Subperm
import Loopx.Lib.KeyedList

set_option autoImplicit false
set_option relaxedAutoImplicit false

namespace Loopx.Lib.Grouping

open Loopx.Lib.KeyedList

variable {A K : Type} [DecidableEq K] (key : A → K)

/-- The items of one key, in order. -/
def members (l : List A) (k : K) : List A := l.filter fun a => key a = k

/-- Items pushed one by one to the group of their key, the groups in the order they were opened. -/
def group (l : List A) : List (K × List A) :=
  l.foldl (fun groups a => setKey groups (key a) ((groups.lookup (key a)).getD [] ++ [a])) []

theorem group_concat (l : List A) (a : A) :
    group key (l ++ [a]) =
      setKey (group key l) (key a) (((group key l).lookup (key a)).getD [] ++ [a]) := by
  rw [group, List.foldl_append]
  rfl

theorem members_concat (l : List A) (a : A) (k : K) :
    members key (l ++ [a]) k = members key l k ++ if key a = k then [a] else [] := by
  rw [members, List.filter_append, members]
  by_cases same : key a = k
  · simp [same]
  · simp [same]

theorem members_eq_nil {l : List A} {k : K} : members key l k = [] ↔ k ∉ l.map key := by
  rw [members, List.filter_eq_nil_iff, List.mem_map]
  constructor
  · rintro none ⟨a, ha, same⟩
    exact none a ha (decide_eq_true same)
  · intro none a ha same
    exact none ⟨a, ha, of_decide_eq_true same⟩

theorem members_perm {l l' : List A} (perm : l.Perm l') (k : K) :
    (members key l k).Perm (members key l' k) :=
  perm.filter _

theorem nodup_keys_group (l : List A) : (keys (group key l)).Nodup := by
  induction l using List.reverseRecOn with
  | nil => exact List.nodup_nil
  | append_singleton l a ih =>
    rw [group_concat]
    exact nodup_keys_setKey ih _ _

/-- A group holds exactly the items of its key. -/
theorem lookup_group (l : List A) (k : K) :
    (group key l).lookup k = if k ∈ l.map key then some (members key l k) else none := by
  induction l using List.reverseRecOn with
  | nil => rfl
  | append_singleton l a ih =>
    have held : ((group key l).lookup k).getD [] = members key l k := by
      rw [ih]
      split
      · rfl
      · rename_i absent
        exact ((members_eq_nil key).2 absent).symm
    rw [group_concat, lookup_setKey, members_concat, List.map_append, List.map_singleton]
    by_cases same : k = key a
    · rw [if_pos same, if_pos (by simp [same]), ← same, held, if_pos rfl]
    · rw [if_neg same, ih, if_neg (Ne.symm same), List.append_nil]
      have iff : k ∈ l.map key ++ [key a] ↔ k ∈ l.map key := by
        rw [List.mem_append, List.mem_singleton, or_iff_left same]
      by_cases old : k ∈ l.map key
      · rw [if_pos old, if_pos (iff.2 old)]
      · rw [if_neg old, if_neg fun new => old (iff.1 new)]

theorem mem_keys_group {l : List A} {k : K} : k ∈ keys (group key l) ↔ k ∈ l.map key := by
  rw [← lookup_isSome, lookup_group]
  by_cases old : k ∈ l.map key
  · simp [old]
  · rw [if_neg old]
    simp only [Option.isSome_none, Bool.false_eq_true, false_iff]
    exact old

theorem keys_group_perm {l l' : List A} (perm : l.Perm l') :
    (keys (group key l)).Perm (keys (group key l')) := by
  refine (List.perm_ext_iff_of_nodup (nodup_keys_group key l) (nodup_keys_group key l')).2 ?_
  intro k
  rw [mem_keys_group, mem_keys_group, (perm.map key).mem_iff]

/-- The groups in any order: the keys in that order, each with its items. -/
theorem eq_map_members {l : List A} {groups : List (K × List A)}
    (perm : groups.Perm (group key l)) :
    groups = (keys groups).map fun k => (k, members key l k) := by
  rw [keys, List.map_map]
  refine ((List.map_congr_left fun entry hentry => ?_).trans (List.map_id groups)).symm
  have found := lookup_of_mem (nodup_keys_group key l) (perm.subset hentry)
  rw [lookup_group] at found
  split at found
  · exact Prod.ext rfl (Option.some.inj found)
  · cases found

/-- Sorting by a key that tells the items apart forgets their order. -/
theorem insertionSort_perm {B : Type} [LinearOrder B] (rank : A → B) {l l' : List A}
    (perm : l.Perm l') (apart : ∀ a ∈ l, ∀ b ∈ l, rank a = rank b → a = b) :
    l.insertionSort (fun a b => rank a ≤ rank b) =
      l'.insertionSort (fun a b => rank a ≤ rank b) := by
  have total : Std.Total fun a b => rank a ≤ rank b := ⟨fun a b => le_total _ _⟩
  have trans : IsTrans A fun a b => rank a ≤ rank b := ⟨fun _ _ _ h h' => h.trans h'⟩
  have left := List.perm_insertionSort (fun a b => rank a ≤ rank b) l
  have right := List.perm_insertionSort (fun a b => rank a ≤ rank b) l'
  refine List.Perm.eq_of_pairwise (fun a b ha hb le ge => ?_)
    (List.pairwise_insertionSort _ l) (List.pairwise_insertionSort _ l')
    (left.trans (perm.trans right.symm))
  exact apart a (left.subset ha) b (perm.symm.subset (right.subset hb)) (le_antisymm le ge)

/-- The last item of a sorted list is one that no other follows. -/
theorem le_getLast?_insertionSort {B : Type} [LinearOrder B] (rank : A → B) {l : List A} {a : A}
    (last : (l.insertionSort fun a b => rank a ≤ rank b).getLast? = some a) :
    a ∈ l ∧ ∀ b ∈ l, rank b ≤ rank a := by
  have total : Std.Total fun a b => rank a ≤ rank b := ⟨fun a b => le_total _ _⟩
  have trans : IsTrans A fun a b => rank a ≤ rank b := ⟨fun _ _ _ h h' => h.trans h'⟩
  have perm := List.perm_insertionSort (fun a b => rank a ≤ rank b) l
  have sorted := List.pairwise_insertionSort (fun a b => rank a ≤ rank b) l
  obtain ⟨init, whole⟩ := List.getLast?_eq_some_iff.1 last
  refine ⟨perm.subset (List.mem_of_getLast? last), fun b hb => ?_⟩
  have inside := perm.symm.subset hb
  rw [whole] at sorted inside
  rcases List.mem_append.1 inside with before | here
  · exact (List.pairwise_append.1 sorted).2.2 b before a (by simp)
  · rw [List.mem_singleton.1 here]

end Loopx.Lib.Grouping
