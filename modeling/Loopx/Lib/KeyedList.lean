/- GID: Loopx/Lib/KeyedList
   generality: G
   digest: Association lists with distinct keys: lookup, update, sorting and extensionality. -/

import Mathlib.Data.List.Sort
import Mathlib.Data.List.Induction
import Mathlib.Data.List.Nodup
import Mathlib.Data.List.Perm.Basic

set_option autoImplicit false
set_option relaxedAutoImplicit false

namespace Loopx.Lib.KeyedList

variable {K V W : Type} [DecidableEq K]

/-- The keys of an association list in storage order. -/
def keys (l : List (K × V)) : List K := l.map Prod.fst

/-- Replace the value at `k` where it stands, or append a new entry. -/
def setKey : List (K × V) → K → V → List (K × V)
  | [], k, v => [(k, v)]
  | e :: l, k, v => if e.1 = k then (k, v) :: l else e :: setKey l k v

/-- Drop the entry at `k`. -/
def eraseKey (l : List (K × V)) (k : K) : List (K × V) := l.filter (fun e => e.1 ≠ k)

/-- Insert the entries one after the other; a later entry overrides an earlier one. -/
def ofEntries (l : List (K × V)) : List (K × V) := l.foldl (fun acc e => setKey acc e.1 e.2) []

omit [DecidableEq K] in
@[simp] theorem keys_nil : keys ([] : List (K × V)) = [] := rfl

omit [DecidableEq K] in
@[simp] theorem keys_cons (e : K × V) (l : List (K × V)) : keys (e :: l) = e.1 :: keys l := rfl

omit [DecidableEq K] in
@[simp] theorem keys_append (l l' : List (K × V)) : keys (l ++ l') = keys l ++ keys l' := by
  simp [keys]

omit [DecidableEq K] in
theorem mem_keys {l : List (K × V)} {k : K} : k ∈ keys l ↔ ∃ v, (k, v) ∈ l := by
  simp [keys]

omit [DecidableEq K] in
@[simp] theorem keys_map_snd (l : List (K × V)) (f : V → W) :
    keys (l.map (fun e => (e.1, f e.2))) = keys l := by
  simp [keys, Function.comp_def]

theorem lookup_cons_ite (e : K × V) (l : List (K × V)) (k : K) :
    (e :: l).lookup k = if k = e.1 then some e.2 else l.lookup k := by
  rcases e with ⟨a, b⟩
  by_cases h : k = a
  · subst h
    simp
  · have hb : (k == a) = false := by simpa using h
    simp [List.lookup_cons, hb, h]

theorem lookup_isSome {l : List (K × V)} {k : K} : (l.lookup k).isSome ↔ k ∈ keys l := by
  induction l with
  | nil => simp
  | cons e l ih =>
    rw [lookup_cons_ite, keys_cons, List.mem_cons, ← ih]
    split <;> simp_all

theorem lookup_eq_none {l : List (K × V)} {k : K} : l.lookup k = none ↔ k ∉ keys l := by
  rw [← lookup_isSome, Option.not_isSome_iff_eq_none]

theorem mem_of_lookup {l : List (K × V)} {k : K} {v : V} (h : l.lookup k = some v) :
    (k, v) ∈ l := by
  obtain ⟨l₁, l₂, rfl, -⟩ := List.lookup_eq_some_iff.mp h
  simp

theorem lookup_of_mem {l : List (K × V)} (nodup : (keys l).Nodup) {k : K} {v : V}
    (h : (k, v) ∈ l) : l.lookup k = some v := by
  induction l with
  | nil => simp at h
  | cons e l ih =>
    obtain ⟨fresh, nodup⟩ := List.nodup_cons.mp nodup
    rw [lookup_cons_ite]
    rcases List.mem_cons.mp h with rfl | h
    · simp
    · have hne : k ≠ e.1 := by
        rintro rfl
        exact fresh (mem_keys.2 ⟨v, h⟩)
      rw [if_neg hne]
      exact ih nodup h

theorem lookup_iff_mem {l : List (K × V)} (nodup : (keys l).Nodup) {k : K} {v : V} :
    l.lookup k = some v ↔ (k, v) ∈ l :=
  ⟨mem_of_lookup, lookup_of_mem nodup⟩

@[simp] theorem lookup_map_snd (l : List (K × V)) (f : V → W) (k : K) :
    (l.map (fun e => (e.1, f e.2))).lookup k = (l.lookup k).map f := by
  induction l with
  | nil => rfl
  | cons e l ih =>
    rw [List.map_cons, lookup_cons_ite, lookup_cons_ite, ih]
    split <;> rfl

/-- Picking some keys of a table keeps what it says about them. -/
theorem lookup_filterMap_key (ks : List K) (f : K → Option V) (k : K) :
    (ks.filterMap (fun k' => (f k').map (fun v => (k', v)))).lookup k =
      if k ∈ ks then f k else none := by
  induction ks with
  | nil => simp
  | cons k' ks ih =>
    by_cases hk : k = k'
    · subst hk
      cases hf : f k with
      | none =>
        rw [List.filterMap_cons_none (by simp [hf]), ih]
        simp [hf]
      | some v =>
        rw [List.filterMap_cons_some (by rw [hf]; rfl)]
        simp
    · cases hf : f k' with
      | none =>
        rw [List.filterMap_cons_none (by simp [hf]), ih]
        simp [hk]
      | some v =>
        rw [List.filterMap_cons_some (by rw [hf]; rfl), lookup_cons_ite, if_neg (by simpa using hk), ih]
        simp [hk]

theorem map_setKey (l : List (K × V)) (k : K) (v : V) (f : V → W) :
    (setKey l k v).map (fun e => (e.1, f e.2)) =
      setKey (l.map (fun e => (e.1, f e.2))) k (f v) := by
  induction l with
  | nil => rfl
  | cons e l ih =>
    by_cases he : e.1 = k
    · simp [setKey, he]
    · simp [setKey, he, ih]

theorem map_eraseKey (l : List (K × V)) (k : K) (f : V → W) :
    (eraseKey l k).map (fun e => (e.1, f e.2)) = eraseKey (l.map (fun e => (e.1, f e.2))) k := by
  rw [eraseKey, eraseKey, List.filter_map]
  rfl

theorem map_ofEntries (l : List (K × V)) (f : V → W) :
    (ofEntries l).map (fun e => (e.1, f e.2)) = ofEntries (l.map (fun e => (e.1, f e.2))) := by
  have general : ∀ acc : List (K × V),
      (l.foldl (fun acc e => setKey acc e.1 e.2) acc).map (fun e => (e.1, f e.2)) =
        (l.map (fun e => (e.1, f e.2))).foldl (fun acc e => setKey acc e.1 e.2)
          (acc.map (fun e => (e.1, f e.2))) := by
    induction l with
    | nil => exact fun acc => rfl
    | cons e l ih =>
      intro acc
      rw [List.foldl_cons, ih, map_setKey, List.map_cons, List.foldl_cons]
  exact general []

theorem lookup_setKey (l : List (K × V)) (k k' : K) (v : V) :
    (setKey l k v).lookup k' = if k' = k then some v else l.lookup k' := by
  induction l with
  | nil => rw [setKey, lookup_cons_ite]
  | cons e l ih =>
    simp only [setKey]
    split
    · rename_i he
      rw [lookup_cons_ite, lookup_cons_ite, he]
      split <;> rfl
    · rename_i he
      rw [lookup_cons_ite, lookup_cons_ite, ih]
      split
      · rename_i hk
        rw [if_neg (hk ▸ he)]
      · rfl

theorem lookup_eraseKey (l : List (K × V)) (k k' : K) :
    (eraseKey l k).lookup k' = if k' = k then none else l.lookup k' := by
  induction l with
  | nil => simp [eraseKey]
  | cons e l ih =>
    have step : eraseKey (e :: l) k = if e.1 = k then eraseKey l k else e :: eraseKey l k := by
      by_cases he : e.1 = k <;> simp [eraseKey, he]
    rw [step, lookup_cons_ite]
    split
    · rename_i he
      rw [ih, he]
      split <;> rfl
    · rename_i he
      rw [lookup_cons_ite, ih]
      split
      · rename_i hk
        rw [if_neg (hk ▸ he)]
      · rfl

theorem mem_keys_setKey {l : List (K × V)} {k k' : K} {v : V} :
    k' ∈ keys (setKey l k v) ↔ k' = k ∨ k' ∈ keys l := by
  rw [← lookup_isSome, ← lookup_isSome, lookup_setKey]
  split <;> simp_all

theorem mem_of_mem_setKey {l : List (K × V)} {k : K} {v : V} {e : K × V}
    (h : e ∈ setKey l k v) : e = (k, v) ∨ e ∈ l := by
  induction l with
  | nil => simpa [setKey] using h
  | cons a l ih =>
    simp only [setKey] at h
    split at h
    · rcases List.mem_cons.mp h with h | h
      · exact Or.inl h
      · exact Or.inr (by simp [h])
    · rcases List.mem_cons.mp h with h | h
      · exact Or.inr (by simp [h])
      · rcases ih h with h | h
        · exact Or.inl h
        · exact Or.inr (by simp [h])

theorem nodup_keys_setKey {l : List (K × V)} (nodup : (keys l).Nodup) (k : K) (v : V) :
    (keys (setKey l k v)).Nodup := by
  induction l with
  | nil => simp [setKey]
  | cons e l ih =>
    obtain ⟨fresh, nodup⟩ := List.nodup_cons.mp nodup
    simp only [setKey]
    split
    · rename_i he
      subst he
      exact List.nodup_cons.mpr ⟨fresh, nodup⟩
    · rename_i he
      rw [keys_cons]
      refine List.nodup_cons.mpr ⟨?_, ih nodup⟩
      rw [mem_keys_setKey]
      rintro (h | h)
      · exact he h
      · exact fresh h

theorem nodup_keys_eraseKey {l : List (K × V)} (nodup : (keys l).Nodup) (k : K) :
    (keys (eraseKey l k)).Nodup :=
  List.Nodup.sublist (List.Sublist.map Prod.fst List.filter_sublist) nodup

theorem setKey_of_not_mem {l : List (K × V)} {k : K} (fresh : k ∉ keys l) (v : V) :
    setKey l k v = l ++ [(k, v)] := by
  induction l with
  | nil => rfl
  | cons e l ih =>
    simp only [keys_cons, List.mem_cons, not_or] at fresh
    have hne : ¬ e.1 = k := fun h => fresh.1 h.symm
    simp only [setKey, hne, if_false, List.cons_append, ih fresh.2]

theorem setKey_self {l : List (K × V)} {k : K} {v : V} (h : l.lookup k = some v) :
    setKey l k v = l := by
  induction l with
  | nil => simp at h
  | cons e l ih =>
    rw [lookup_cons_ite] at h
    by_cases hk : k = e.1
    · subst hk
      have hb : e.2 = v := by simpa using h
      simp [setKey, ← hb]
    · rw [if_neg hk] at h
      have hne : ¬ e.1 = k := fun h => hk h.symm
      simp only [setKey, hne, if_false, ih h]

theorem setKey_setKey (l : List (K × V)) (k : K) (v w : V) :
    setKey (setKey l k v) k w = setKey l k w := by
  induction l with
  | nil => simp [setKey]
  | cons e l ih =>
    by_cases he : e.1 = k
    · simp [setKey, he]
    · simp [setKey, he, ih]

private theorem foldl_setKey_nodup (l acc : List (K × V)) (nodup : (keys acc).Nodup) :
    (keys (l.foldl (fun acc e => setKey acc e.1 e.2) acc)).Nodup := by
  induction l generalizing acc with
  | nil => exact nodup
  | cons e l ih => exact ih _ (nodup_keys_setKey nodup e.1 e.2)

theorem mem_of_mem_ofEntries {l : List (K × V)} {e : K × V} (h : e ∈ ofEntries l) : e ∈ l := by
  have general : ∀ acc : List (K × V),
      e ∈ l.foldl (fun acc e => setKey acc e.1 e.2) acc → e ∈ acc ∨ e ∈ l := by
    clear h
    induction l with
    | nil => exact fun _ h => Or.inl h
    | cons a l ih =>
      intro acc h
      rcases ih _ h with within | later
      · rcases mem_of_mem_setKey within with rfl | before
        · exact Or.inr List.mem_cons_self
        · exact Or.inl before
      · exact Or.inr (List.mem_cons_of_mem _ later)
  exact (general [] h).resolve_left List.not_mem_nil

theorem nodup_keys_ofEntries (l : List (K × V)) : (keys (ofEntries l)).Nodup :=
  foldl_setKey_nodup l [] (by simp)

private theorem foldl_setKey_fresh (l acc : List (K × V))
    (nodup : (keys (acc ++ l)).Nodup) :
    l.foldl (fun acc e => setKey acc e.1 e.2) acc = acc ++ l := by
  induction l generalizing acc with
  | nil => simp
  | cons e l ih =>
    have fresh : e.1 ∉ keys acc := by
      rw [keys_append, keys_cons] at nodup
      intro h
      exact (List.disjoint_of_nodup_append nodup) h (by simp)
    rw [List.foldl_cons, setKey_of_not_mem fresh, ih]
    · simp
    · simpa using nodup

/-- Entries with distinct keys are kept as they stand. -/
theorem ofEntries_of_nodup {l : List (K × V)} (nodup : (keys l).Nodup) : ofEntries l = l := by
  simpa [ofEntries] using foldl_setKey_fresh l [] (by simpa using nodup)

theorem perm_of_lookup {l l' : List (K × V)} (nodup : (keys l).Nodup)
    (nodup' : (keys l').Nodup) (same : ∀ k, l.lookup k = l'.lookup k) : l.Perm l' := by
  have hl : l.Nodup := List.Nodup.of_map Prod.fst nodup
  have hl' : l'.Nodup := List.Nodup.of_map Prod.fst nodup'
  rw [List.perm_ext_iff_of_nodup hl hl']
  rintro ⟨k, v⟩
  rw [← lookup_iff_mem nodup, ← lookup_iff_mem nodup', same]

theorem lookup_of_perm {l l' : List (K × V)} (nodup : (keys l).Nodup) (perm : l.Perm l')
    (k : K) : l.lookup k = l'.lookup k := by
  have nodup' : (keys l').Nodup := (perm.map Prod.fst).nodup_iff.mp nodup
  ext v
  rw [lookup_iff_mem nodup, lookup_iff_mem nodup', perm.mem_iff]

omit [DecidableEq K] in
/-- The keys of a sorted list are distinct when the order is strict. -/
theorem nodup_keys_of_pairwise {r : K → K → Prop} [Std.Irrefl r] {l : List (K × V)}
    (sorted : (keys l).Pairwise r) : (keys l).Nodup := by
  refine sorted.imp ?_
  rintro a b hab rfl
  exact Std.Irrefl.irrefl a hab

/-- Two lists sorted by one strict order are equal once they agree on lookups. -/
theorem eq_of_pairwise_lookup {r : K → K → Prop} [Std.Irrefl r] [Std.Asymm r]
    {l l' : List (K × V)} (sorted : (keys l).Pairwise r) (sorted' : (keys l').Pairwise r)
    (same : ∀ k, l.lookup k = l'.lookup k) : l = l' := by
  have perm := perm_of_lookup (nodup_keys_of_pairwise sorted) (nodup_keys_of_pairwise sorted') same
  have h := List.pairwise_map.mp sorted
  have h' := List.pairwise_map.mp sorted'
  refine List.Perm.eq_of_pairwise ?_ h h' perm
  intro a b _ _ hab hba
  exact absurd hba (Std.Asymm.asymm _ _ hab)

/-- Looking up in a list keyed by a function is finding the first element with that key. -/
theorem lookup_map_key {α : Type} (key : α → K) (value : α → V) (l : List α) (k : K) :
    (l.map (fun a => (key a, value a))).lookup k =
      (l.find? (fun a => decide (key a = k))).map value := by
  induction l with
  | nil => rfl
  | cons a l ih =>
    rw [List.map_cons, List.lookup_cons, List.find?_cons, ih]
    by_cases same : key a = k
    · simp [same]
    · have other : (k == key a) = false := by simpa using fun h => same h.symm
      simp [same, other]

/-- The later entries decide about their keys. -/
theorem lookup_ofEntries_append (l l' : List (K × V)) (k : K) :
    (ofEntries (l ++ l')).lookup k =
      if k ∈ keys l' then (ofEntries l').lookup k else (ofEntries l).lookup k := by
  have snoc : ∀ (l : List (K × V)) (e : K × V), ofEntries (l ++ [e]) =
      setKey (ofEntries l) e.1 e.2 := by
    intro l e
    rw [ofEntries, ofEntries, List.foldl_append]
    rfl
  induction l' using List.reverseRecOn with
  | nil => simp
  | append_singleton l' e ih =>
    rw [← List.append_assoc, snoc, snoc, lookup_setKey, lookup_setKey, ih, keys_append]
    by_cases same : k = e.1
    · simp [same]
    · by_cases later : k ∈ keys l' <;> simp [same, later]

end Loopx.Lib.KeyedList
