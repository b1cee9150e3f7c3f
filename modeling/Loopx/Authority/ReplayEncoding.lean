/- GID: Loopx/Authority/ReplayEncoding
   generality: I
   source: loopx/control_plane/coordination/authority_state_log.ts, sqlite_authority_store.ts,
     authority_store_codec.ts
   digest: The memoized replay computes what an encoding from scratch computes, after any calls. -/

import Loopx.Authority.ReplayCache

set_option autoImplicit false
set_option relaxedAutoImplicit false

namespace Loopx.Authority

open Loopx.Lib.KeyedList
open Loopx.Lib.Fallible (ok_bind error_bind bind_eq_ok)
open Loopx.Json (JsNumber Protocol Canonical text quoteString itemsText fieldsText canonicalEntries
  canonicalAuthorityJson canonicalAuthorityBytes)

namespace Node

@[elab_as_elim, induction_eliminator]
theorem induction {P : Node → Prop} (null : P .null) (bool : ∀ b, P (.bool b))
    (number : ∀ n, P (.number n)) (string : ∀ s, P (.string s))
    (array : ∀ id (items : List Node), (∀ v ∈ items, P v) → P (.array id items))
    (object : ∀ id (fields : List (String × Node)), (∀ f ∈ fields, P f.2) → P (.object id fields))
    (v : Node) : P v :=
  @Node.rec P (fun items => ∀ v ∈ items, P v) (fun fields => ∀ f ∈ fields, P f.2)
    (fun f => P f.2) null bool number string array object
    (by simp) (by intro v l hv hl; simpa using ⟨hv, hl⟩)
    (by simp) (by intro f l hf hl; simpa using ⟨hf, fun a b h => hl (a, b) h⟩)
    (by intro _ _ h; exact h) v

@[simp] theorem itemsJson_eq (items : List Node) : itemsJson items = items.map toJson := by
  induction items with
  | nil => rfl
  | cons item items ih => rw [itemsJson, ih, List.map_cons]

@[simp] theorem fieldsJson_eq (fields : List (String × Node)) :
    fieldsJson fields = fields.map (fun f => (f.1, f.2.toJson)) := by
  induction fields with
  | nil => rfl
  | cons f fields ih =>
    obtain ⟨key, value⟩ := f
    rw [fieldsJson, ih, List.map_cons]

section Alloc

private theorem itemsJson_alloc {items : List Json}
    (h : ∀ v ∈ items, ∀ next, (alloc v next).1.toJson = v) (next : Nat) :
    (allocItems items next).1.map toJson = items := by
  induction items generalizing next with
  | nil => rfl
  | cons v items ih =>
    simp only [allocItems, List.map_cons]
    rw [h v (by simp), ih (fun w hw => h w (by simp [hw]))]

private theorem fieldsJson_alloc {fields : List (String × Json)}
    (h : ∀ f ∈ fields, ∀ next, (alloc f.2 next).1.toJson = f.2) (next : Nat) :
    (allocFields fields next).1.map (fun f => (f.1, f.2.toJson)) = fields := by
  induction fields generalizing next with
  | nil => rfl
  | cons f fields ih =>
    obtain ⟨key, value⟩ := f
    simp only [allocFields, List.map_cons]
    rw [h (key, value) (by simp), ih (fun g hg => h g (by simp [hg]))]

/-- A fresh copy has the value it is a copy of. -/
@[simp] theorem toJson_alloc (v : Json) (next : Nat) : (alloc v next).1.toJson = v := by
  induction v generalizing next with
  | null => rfl
  | bool b => rfl
  | number n => rfl
  | string s => rfl
  | array items ih =>
    simp only [alloc, toJson, itemsJson_eq]
    rw [itemsJson_alloc ih]
  | object fields ih =>
    simp only [alloc, toJson, fieldsJson_eq]
    rw [fieldsJson_alloc ih]

theorem toJson_allocItems (items : List Json) (next : Nat) :
    (allocItems items next).1.map toJson = items :=
  itemsJson_alloc (fun v _ => toJson_alloc v) next

end Alloc

section Names

/-- What each identity stands for. A value once made is never changed, so this only grows. -/
abbrev Contents := Nat → Option Json

def Extends (contents contents' : Contents) : Prop :=
  ∀ id v, contents id = some v → contents' id = some v

def FreshFrom (contents : Contents) (next : Nat) : Prop := ∀ id, next ≤ id → contents id = none

mutual

/-- Every identity in the value stands for what it holds there. -/
def Named (contents : Contents) : Node → Prop
  | .array id items => contents id = some (.array (itemsJson items)) ∧ NamedItems contents items
  | .object id fields =>
    contents id = some (.object (fieldsJson fields)) ∧ NamedFields contents fields
  | _ => True

def NamedItems (contents : Contents) : List Node → Prop
  | [] => True
  | item :: items => Named contents item ∧ NamedItems contents items

def NamedFields (contents : Contents) : List (String × Node) → Prop
  | [] => True
  | (_, value) :: fields => Named contents value ∧ NamedFields contents fields

end

theorem namedItems_iff {contents : Contents} {items : List Node} :
    NamedItems contents items ↔ ∀ v ∈ items, Named contents v := by
  induction items with
  | nil => simp [NamedItems]
  | cons v items ih => simp [NamedItems, ih]

theorem namedFields_iff {contents : Contents} {fields : List (String × Node)} :
    NamedFields contents fields ↔ ∀ f ∈ fields, Named contents f.2 := by
  induction fields with
  | nil => simp [NamedFields]
  | cons f fields ih =>
    obtain ⟨key, value⟩ := f
    simp [NamedFields, ih]

theorem named_array {contents : Contents} {id : Nat} {items : List Node} :
    Named contents (.array id items) ↔
      contents id = some (.array (items.map toJson)) ∧ ∀ v ∈ items, Named contents v := by
  rw [Named, namedItems_iff, itemsJson_eq]

theorem named_object {contents : Contents} {id : Nat} {fields : List (String × Node)} :
    Named contents (.object id fields) ↔
      contents id = some (.object (fields.map (fun f => (f.1, f.2.toJson)))) ∧
        ∀ f ∈ fields, Named contents f.2 := by
  rw [Named, namedFields_iff, fieldsJson_eq]

theorem Extends.refl (contents : Contents) : Extends contents contents := fun _ _ h => h

theorem Extends.trans {first second third : Contents} (h : Extends first second)
    (h' : Extends second third) : Extends first third := fun id v hv => h' id v (h id v hv)

theorem Named.mono {contents contents' : Contents} (extends' : Extends contents contents')
    {v : Node} (h : Named contents v) : Named contents' v := by
  induction v with
  | array id items ih =>
    obtain ⟨hid, hitems⟩ := named_array.1 h
    exact named_array.2 ⟨extends' _ _ hid, fun w hw => ih w hw (hitems w hw)⟩
  | object id fields ih =>
    obtain ⟨hid, hfields⟩ := named_object.1 h
    exact named_object.2 ⟨extends' _ _ hid, fun f hf => ih f hf (hfields f hf)⟩
  | _ => trivial

/-- A new identity is given to a value made of named parts. -/
private theorem exists_extends {contents : Contents} {next : Nat} (fresh : FreshFrom contents next)
    (v : Json) : ∃ contents', Extends contents contents' ∧ FreshFrom contents' (next + 1) ∧
      contents' next = some v := by
  refine ⟨fun id => if id = next then some v else contents id, ?_, ?_, by simp⟩
  · intro id w hw
    have hne : id ≠ next := by
      rintro rfl
      rw [fresh id le_rfl] at hw
      simp at hw
    simpa [hne] using hw
  · intro id hid
    have hne : id ≠ next := by omega
    simpa [hne] using fresh id (by omega)

/-- The allocation of a value names it. -/
def AllocNamed (v : Json) : Prop := ∀ contents next, FreshFrom contents next →
  ∃ contents', Extends contents contents' ∧ FreshFrom contents' (alloc v next).2 ∧
    Named contents' (alloc v next).1

private theorem allocItems_named {items : List Json} (h : ∀ v ∈ items, AllocNamed v)
    {contents : Contents} {next : Nat} (fresh : FreshFrom contents next) :
    ∃ contents', Extends contents contents' ∧ FreshFrom contents' (allocItems items next).2 ∧
      ∀ v ∈ (allocItems items next).1, Named contents' v := by
  induction items generalizing contents next with
  | nil => exact ⟨contents, Extends.refl contents, fresh, by simp [allocItems]⟩
  | cons v items ih =>
    obtain ⟨first, hfirst, hfresh, hnamed⟩ := h v (by simp) contents next fresh
    obtain ⟨second, hsecond, hfresh', hnamed'⟩ :=
      ih (fun w hw => h w (by simp [hw])) hfresh
    refine ⟨second, hfirst.trans hsecond, hfresh', ?_⟩
    intro w hw
    rcases List.mem_cons.mp hw with rfl | hw
    · exact hnamed.mono hsecond
    · exact hnamed' w hw

private theorem allocFields_named {fields : List (String × Json)}
    (h : ∀ f ∈ fields, AllocNamed f.2) {contents : Contents} {next : Nat}
    (fresh : FreshFrom contents next) :
    ∃ contents', Extends contents contents' ∧ FreshFrom contents' (allocFields fields next).2 ∧
      ∀ f ∈ (allocFields fields next).1, Named contents' f.2 := by
  induction fields generalizing contents next with
  | nil => exact ⟨contents, Extends.refl contents, fresh, by simp [allocFields]⟩
  | cons f fields ih =>
    obtain ⟨key, value⟩ := f
    obtain ⟨first, hfirst, hfresh, hnamed⟩ := h (key, value) (by simp) contents next fresh
    obtain ⟨second, hsecond, hfresh', hnamed'⟩ :=
      ih (fun w hw => h w (by simp [hw])) hfresh
    refine ⟨second, hfirst.trans hsecond, hfresh', ?_⟩
    intro w hw
    rcases List.mem_cons.mp hw with rfl | hw
    · exact hnamed.mono hsecond
    · exact hnamed' w hw

theorem alloc_named (v : Json) : AllocNamed v := by
  induction v with
  | array items ih =>
    intro contents next fresh
    obtain ⟨first, hfirst, hfresh, hnamed⟩ := allocItems_named ih fresh
    obtain ⟨second, hsecond, hfresh', hid⟩ := exists_extends hfresh
      (.array ((allocItems items next).1.map toJson))
    exact ⟨second, hfirst.trans hsecond, hfresh',
      named_array.2 ⟨hid, fun w hw => (hnamed w hw).mono hsecond⟩⟩
  | object fields ih =>
    intro contents next fresh
    obtain ⟨first, hfirst, hfresh, hnamed⟩ := allocFields_named ih fresh
    obtain ⟨second, hsecond, hfresh', hid⟩ := exists_extends hfresh
      (.object ((allocFields fields next).1.map (fun f => (f.1, f.2.toJson))))
    exact ⟨second, hfirst.trans hsecond, hfresh',
      named_object.2 ⟨hid, fun f hf => (hnamed f hf).mono hsecond⟩⟩
  | _ => exact fun contents next fresh => ⟨contents, Extends.refl contents, fresh, trivial⟩

end Names

section Apply

private theorem toJson_object (id : Nat) (fields : List (String × Node)) :
    (Node.object id fields).toJson = .object (fields.map (fun f => (f.1, f.2.toJson))) := by
  rw [toJson, fieldsJson_eq]

private theorem toJson_array (id : Nat) (items : List Node) :
    (Node.array id items).toJson = .array (items.map toJson) := by
  rw [toJson, itemsJson_eq]

private theorem toJson_canonicalEntries (id : Nat) (entries : List (String × Node)) :
    (Node.object id (canonicalEntries entries)).toJson =
      .object (canonicalEntries (entries.map (fun f => (f.1, f.2.toJson)))) := by
  rw [toJson_object, Json.canonicalEntries_map]

/-- On identified values an operation does what it does on plain ones. -/
theorem toJson_applyOperation (operation : AuthorityStateOperation) (v : Node)
    (path : AuthorityStatePath) (next : Nat) :
    (applyOperation operation v path next).map (fun result => result.1.toJson) =
      applyAuthorityStateOperation operation v.toJson path := by
  induction path generalizing v next with
  | nil => cases v <;> rfl
  | cons key rest ih =>
    cases v with
    | object id container =>
      rw [toJson_object]
      cases rest with
      | cons step rest =>
        simp only [applyOperation, applyAuthorityStateOperation, lookup_map_snd]
        cases hchild : container.lookup key with
        | none => rfl
        | some child =>
          have hih := ih child next
          simp only [Option.map_some]
          rw [← hih]
          cases applyOperation operation child (step :: rest) next with
          | error error => rfl
          | ok result =>
            simp only [ok_bind, Except.map, toJson_canonicalEntries, map_setKey]
      | nil =>
        cases operation with
        | set path value =>
          simp only [applyOperation, applyAuthorityStateOperation, Except.map,
            toJson_canonicalEntries, map_setKey, toJson_alloc]
        | remove path =>
          simp only [applyOperation, applyAuthorityStateOperation, lookup_map_snd,
            Option.isNone_map]
          split
          · rfl
          · simp only [Except.map, toJson_canonicalEntries, map_eraseKey]
        | splice path start removed inserted =>
          simp only [applyOperation, applyAuthorityStateOperation, lookup_map_snd]
          cases hchild : container.lookup key with
          | none => rfl
          | some child =>
            cases child with
            | array childId target =>
              simp only [Option.map_some, toJson_array, List.length_map]
              split
              · rfl
              · simp only [Except.map, toJson_canonicalEntries, map_setKey, toJson_array,
                  List.map_append, List.map_take, List.map_drop, toJson_allocItems]
            | _ => simp [Except.map, toJson]
    | _ => rfl

theorem toJson_applyOperations (operations : List AuthorityStateOperation) (v : Node)
    (next : Nat) :
    (applyOperations operations v next).map (fun result => result.1.toJson) =
      Authority.applyOperations operations v.toJson := by
  induction operations generalizing v next with
  | nil => rfl
  | cons operation operations ih =>
    have hstep := toJson_applyOperation operation v operation.path next
    rw [Authority.applyOperations, ← hstep, applyOperations]
    cases applyOperation operation v operation.path next with
    | error error => rfl
    | ok result => exact ih result.1 result.2

/-- A copied container is named with its new identity. -/
private theorem rebuilt_named {contents : Contents} {next : Nat} (fresh : FreshFrom contents next)
    {entries : List (String × Node)} (h : ∀ f ∈ entries, Named contents f.2) :
    ∃ contents', Extends contents contents' ∧ FreshFrom contents' (next + 1) ∧
      Named contents' (.object next (canonicalEntries entries)) := by
  obtain ⟨contents', extends', fresh', hid⟩ := exists_extends fresh
    (.object ((canonicalEntries entries).map (fun f => (f.1, f.2.toJson))))
  exact ⟨contents', extends', fresh', named_object.2 ⟨hid, fun f hf =>
    (h f (Json.mem_of_mem_canonicalEntries hf)).mono extends'⟩⟩

private theorem named_setKey {contents : Contents} {container : List (String × Node)}
    (h : ∀ f ∈ container, Named contents f.2) {key : String} {v : Node} (hv : Named contents v) :
    ∀ f ∈ setKey container key v, Named contents f.2 := by
  intro f hf
  rcases mem_of_mem_setKey hf with rfl | hf
  · exact hv
  · exact h f hf

private theorem spliced_named {contents : Contents} {next : Nat} (fresh : FreshFrom contents next)
    (start rest : Nat) {target inserted : List Node} (htarget : ∀ v ∈ target, Named contents v)
    (hinserted : ∀ v ∈ inserted, Named contents v) :
    ∃ contents', Extends contents contents' ∧ FreshFrom contents' (next + 1) ∧
      Named contents' (.array next (target.take start ++ (inserted ++ target.drop rest))) := by
  obtain ⟨contents', extends', fresh', hid⟩ := exists_extends fresh
    (.array ((target.take start ++ (inserted ++ target.drop rest)).map toJson))
  refine ⟨contents', extends', fresh', named_array.2 ⟨hid, fun v hv => ?_⟩⟩
  rw [List.mem_append, List.mem_append] at hv
  rcases hv with hv | hv | hv
  · exact (htarget v (List.mem_of_mem_take hv)).mono extends'
  · exact (hinserted v hv).mono extends'
  · exact (htarget v (List.mem_of_mem_drop hv)).mono extends'

/-- What an operation leaves is named: what it shares as before, what it copies anew. -/
theorem applyOperation_named {operation : AuthorityStateOperation} {v result : Node}
    {path : AuthorityStatePath} {contents : Contents} {next next' : Nat}
    (fresh : FreshFrom contents next) (named : Named contents v)
    (h : applyOperation operation v path next = .ok (result, next')) :
    ∃ contents', Extends contents contents' ∧ FreshFrom contents' next' ∧
      Named contents' result := by
  induction path generalizing v result contents next next' with
  | nil => cases v <;> simp [applyOperation] at h
  | cons key rest ih =>
    cases v with
    | object id container =>
      obtain ⟨-, hfields⟩ := named_object.1 named
      have hlookup : ∀ {child}, container.lookup key = some child → Named contents child :=
        fun hchild => hfields _ (mem_of_lookup hchild)
      cases rest with
      | cons step rest =>
        simp only [applyOperation] at h
        split at h
        · simp at h
        · rename_i child hchild
          obtain ⟨⟨child', middle⟩, hrun, h⟩ := bind_eq_ok.mp h
          obtain ⟨rfl, rfl⟩ := Prod.mk.inj (Except.ok.inj h)
          obtain ⟨first, hfirst, hfresh, hnamed⟩ := ih fresh (hlookup hchild) hrun
          obtain ⟨second, hsecond, hfresh', hnamed'⟩ := rebuilt_named hfresh
            (named_setKey (fun f hf => (hfields f hf).mono hfirst) hnamed)
          exact ⟨second, hfirst.trans hsecond, hfresh', hnamed'⟩
      | nil =>
        cases operation with
        | set path value =>
          obtain ⟨rfl, rfl⟩ := Prod.mk.inj (Except.ok.inj h)
          obtain ⟨first, hfirst, hfresh, hnamed⟩ := alloc_named value contents next fresh
          obtain ⟨second, hsecond, hfresh', hnamed'⟩ := rebuilt_named hfresh
            (named_setKey (fun f hf => (hfields f hf).mono hfirst) hnamed)
          exact ⟨second, hfirst.trans hsecond, hfresh', hnamed'⟩
        | remove path =>
          simp only [applyOperation] at h
          split at h
          · simp at h
          · obtain ⟨rfl, rfl⟩ := Prod.mk.inj (Except.ok.inj h)
            exact rebuilt_named fresh (fun f hf => hfields f (List.mem_of_mem_filter hf))
        | splice path start removed inserted =>
          simp only [applyOperation] at h
          split at h
          · simp at h
          · rename_i childId target htarget
            split at h
            · simp at h
            · obtain ⟨rfl, rfl⟩ := Prod.mk.inj (Except.ok.inj h)
              obtain ⟨-, hitems⟩ := named_array.1 (hlookup htarget)
              obtain ⟨first, hfirst, hfresh, hnamed⟩ :=
                allocItems_named (fun v _ => alloc_named v) fresh
              obtain ⟨second, hsecond, hfresh', hspliced⟩ := spliced_named hfresh start
                (start + removed) (fun v hv => (hitems v hv).mono hfirst) hnamed
              obtain ⟨third, hthird, hfresh'', hnamed'⟩ := rebuilt_named hfresh'
                (named_setKey (fun f hf => ((hfields f hf).mono hfirst).mono hsecond) hspliced)
              exact ⟨third, (hfirst.trans hsecond).trans hthird, hfresh'', hnamed'⟩
          · simp at h
    | _ => simp [applyOperation] at h

theorem applyOperations_named {operations : List AuthorityStateOperation} {v result : Node}
    {contents : Contents} {next next' : Nat} (fresh : FreshFrom contents next)
    (named : Named contents v) (h : applyOperations operations v next = .ok (result, next')) :
    ∃ contents', Extends contents contents' ∧ FreshFrom contents' next' ∧
      Named contents' result := by
  induction operations generalizing v contents next with
  | nil =>
    obtain ⟨rfl, rfl⟩ := Prod.mk.inj (Except.ok.inj h)
    exact ⟨contents, Extends.refl contents, fresh, named⟩
  | cons operation operations ih =>
    obtain ⟨⟨middle, next''⟩, hmiddle, h⟩ := bind_eq_ok.mp h
    obtain ⟨first, hfirst, hfresh, hnamed⟩ := applyOperation_named fresh named hmiddle
    obtain ⟨second, hsecond, hfresh', hnamed'⟩ := ih hfresh hnamed h
    exact ⟨second, hfirst.trans hsecond, hfresh', hnamed'⟩

end Apply

end Node

open Node (Contents Extends FreshFrom Named)

section Tables

variable {contents : Contents} {caches : ReplayCaches}

/-- The bytes a list of strings takes up. -/
def stringsSize (strings : List (String × List Char)) : Nat :=
  (strings.map (fun e => byteLength e.2)).sum

/-- Every entry of the tables is the encoding of what it stands for. -/
structure CachesOk (contents : Contents) (caches : ReplayCaches) : Prop where
  byteObjects : ∀ entry ∈ caches.byteObjects, ∃ v, contents entry.1 = some v ∧ entry.2 = text v
  encoded : ∀ entry ∈ caches.encoded, ∃ v, contents entry.1 = some v ∧ entry.2 = text v
  strings : ∀ entry ∈ caches.strings, entry.2 = quoteString entry.1
  counted : caches.stringBytes = stringsSize caches.strings
  bounded : caches.stringBytes ≤ 4 * 1024 ^ 2

theorem CachesOk.mono {contents' : Contents} (extends' : Extends contents contents')
    (h : CachesOk contents caches) : CachesOk contents' caches where
  byteObjects := by
    intro entry hentry
    obtain ⟨v, hv, htext⟩ := h.byteObjects entry hentry
    exact ⟨v, extends' _ _ hv, htext⟩
  encoded := by
    intro entry hentry
    obtain ⟨v, hv, htext⟩ := h.encoded entry hentry
    exact ⟨v, extends' _ _ hv, htext⟩
  strings := h.strings
  counted := h.counted
  bounded := h.bounded

/-- Eviction keeps a suffix of the strings, and makes room. -/
private theorem evict_spec (size : Nat) (hsize : size ≤ 2 * 1024 ^ 2)
    (strings : List (String × List Char)) :
    (ReplayCaches.evict size strings (stringsSize strings)).1 <:+ strings ∧
      (ReplayCaches.evict size strings (stringsSize strings)).2 =
        stringsSize (ReplayCaches.evict size strings (stringsSize strings)).1 ∧
      (ReplayCaches.evict size strings (stringsSize strings)).2 + size ≤ 4 * 1024 ^ 2 := by
  induction strings with
  | nil =>
    refine ⟨List.suffix_rfl, rfl, ?_⟩
    simp only [ReplayCaches.evict, stringsSize, List.map_nil, List.sum_nil]
    omega
  | cons entry rest ih =>
    obtain ⟨value, bytes⟩ := entry
    have hrest : stringsSize ((value, bytes) :: rest) - byteLength bytes = stringsSize rest := by
      simp [stringsSize]
    simp only [ReplayCaches.evict]
    split
    · rw [hrest]
      exact ⟨ih.1.trans (List.suffix_cons _ _), ih.2⟩
    · rename_i fits
      exact ⟨List.suffix_rfl, rfl, by omega⟩

/-- The long-string table answers the string's JSON text, hit or miss. -/
private theorem longString_spec (h : CachesOk contents caches) (value : String) :
    (caches.longString value).2 = quoteString value ∧
      CachesOk contents (caches.longString value).1 := by
  unfold ReplayCaches.longString
  cases hknown : caches.strings.lookup value with
  | some known => exact ⟨h.strings _ (mem_of_lookup hknown), h⟩
  | none =>
    simp only
    split
    · exact ⟨rfl, h⟩
    · rename_i small
      obtain ⟨hsuffix, hcounted, hroom⟩ := evict_spec (byteLength (quoteString value)) (by omega)
        caches.strings
      rw [h.counted]
      refine ⟨rfl, h.byteObjects, h.encoded, ?_, ?_, hroom⟩
      · intro entry hentry
        rcases List.mem_append.mp hentry with hold | hnew
        · exact h.strings entry (hsuffix.subset hold)
        · obtain rfl := List.mem_singleton.mp hnew
          rfl
      · simp only [hcounted]
        simp [stringsSize]

private theorem encodeString_spec (h : CachesOk contents caches) (value : String) :
    (caches.encodeString value).2 = quoteString value ∧
      CachesOk contents (caches.encodeString value).1 := by
  unfold ReplayCaches.encodeString
  split
  · exact longString_spec h value
  · exact ⟨rfl, h⟩

private theorem text_array (items : List Json) :
    text (.array items) = '[' :: [','].intercalate (items.map text) ++ [']'] := by
  have tail : ∀ rest : List Json, ∀ v : Json,
      text v ++ itemsText rest = [','].intercalate ((v :: rest).map text) ++ [']'] := by
    intro rest
    induction rest with
    | nil => intro v; simp [itemsText, List.intercalate]
    | cons w rest ih =>
      intro v
      have hrest := ih w
      simp only [List.map_cons, List.intercalate, List.intersperse_cons_cons, List.flatten_cons,
        List.append_assoc] at hrest ⊢
      rw [itemsText, hrest]
      simp
  cases items with
  | nil => simp [text, List.intercalate]
  | cons v items =>
    rw [text, tail items v]
    rfl

private theorem text_object (fields : List (String × Json)) :
    text (.object fields) =
      '\x7b' :: [','].intercalate (fields.map (fun f => quoteString f.1 ++ ':' :: text f.2)) ++
        ['\x7d'] := by
  have tail : ∀ rest : List (String × Json), ∀ k v,
      quoteString k ++ ':' :: (text v ++ fieldsText rest) =
        [','].intercalate (((k, v) :: rest).map (fun f => quoteString f.1 ++ ':' :: text f.2)) ++
          ['\x7d'] := by
    intro rest
    induction rest with
    | nil => intro k v; simp [fieldsText, List.intercalate]
    | cons f rest ih =>
      intro k v
      obtain ⟨k', v'⟩ := f
      have hrest := ih k' v'
      simp only [List.map_cons, List.intercalate, List.intersperse_cons_cons, List.flatten_cons,
        List.append_assoc] at hrest ⊢
      rw [fieldsText, hrest]
      simp
  cases fields with
  | nil => simp [text, List.intercalate]
  | cons f fields =>
    obtain ⟨k, v⟩ := f
    rw [text, tail fields k v]
    rfl

/-- What the encoder does on one value, whatever the tables hold. -/
def EncodesText (v : Node) : Prop := ∀ {contents : Contents} {caches : ReplayCaches},
  CachesOk contents caches → Named contents v →
    (caches.encode v).2 = text v.toJson ∧ CachesOk contents (caches.encode v).1

private theorem encodeItems_spec {items : List Node} (each : ∀ v ∈ items, EncodesText v)
    (h : CachesOk contents caches) (named : ∀ v ∈ items, Named contents v) :
    (caches.encodeItems items).2 = (items.map Node.toJson).map text ∧
      CachesOk contents (caches.encodeItems items).1 := by
  induction items generalizing caches with
  | nil => exact ⟨rfl, h⟩
  | cons v items ih =>
    obtain ⟨htext, hcaches⟩ := each v (by simp) h (named v (by simp))
    obtain ⟨hrest, hcaches'⟩ := ih (fun w hw => each w (by simp [hw])) hcaches
      (fun w hw => named w (by simp [hw]))
    simp only [ReplayCaches.encodeItems, List.map_cons]
    exact ⟨by rw [htext, hrest], hcaches'⟩

private theorem encodeFields_spec {fields : List (String × Node)}
    (each : ∀ f ∈ fields, EncodesText f.2) (h : CachesOk contents caches)
    (named : ∀ f ∈ fields, Named contents f.2) :
    (caches.encodeFields fields).2 = (fields.map (fun f => (f.1, f.2.toJson))).map
        (fun f => quoteString f.1 ++ ':' :: text f.2) ∧
      CachesOk contents (caches.encodeFields fields).1 := by
  induction fields generalizing caches with
  | nil => exact ⟨rfl, h⟩
  | cons f fields ih =>
    obtain ⟨key, value⟩ := f
    obtain ⟨htext, hcaches⟩ := each (key, value) (by simp) h (named (key, value) (by simp))
    obtain ⟨hrest, hcaches'⟩ := ih (fun w hw => each w (by simp [hw])) hcaches
      (fun w hw => named w (by simp [hw]))
    simp only [ReplayCaches.encodeFields, List.map_cons]
    exact ⟨by rw [htext, hrest], hcaches'⟩

/-- A new entry that is right keeps the table right. -/
private theorem CachesOk.remember (h : CachesOk contents caches) {id : Nat} {v : Json}
    (hid : contents id = some v) {encoded : List Char} (hencoded : encoded = text v) :
    CachesOk contents { caches with encoded := (id, encoded) :: caches.encoded } := by
  refine ⟨h.byteObjects, ?_, h.strings, h.counted, h.bounded⟩
  intro entry hentry
  rcases List.mem_cons.mp hentry with rfl | hentry
  · exact ⟨v, hid, hencoded⟩
  · exact h.encoded entry hentry

private theorem CachesOk.hit {entries : List (Nat × List Char)}
    (h : ∀ entry ∈ entries, ∃ v, contents entry.1 = some v ∧ entry.2 = text v) {id : Nat}
    {v : Json} (hid : contents id = some v) {known : List Char}
    (hknown : entries.lookup id = some known) : known = text v := by
  obtain ⟨w, hw, htext⟩ := h _ (mem_of_lookup hknown)
  rw [Option.some.inj (hid.symm.trans hw)]
  exact htext

/-- The memoized encoder writes `JSON.stringify` of the value. -/
theorem encode_spec (v : Node) : EncodesText v := by
  induction v with
  | null => exact fun h _ => ⟨rfl, h⟩
  | bool b => exact fun h _ => ⟨rfl, h⟩
  | number n => exact fun h _ => ⟨rfl, h⟩
  | string s => exact fun h _ => encodeString_spec h s
  | array id items ih =>
    intro contents caches h named
    obtain ⟨hid, hitems⟩ := Node.named_array.1 named
    rw [Node.toJson, Node.itemsJson_eq]
    simp only [ReplayCaches.encode]
    cases hknown : caches.encoded.lookup id with
    | some known => exact ⟨CachesOk.hit h.encoded hid hknown, h⟩
    | none =>
      obtain ⟨hparts, hcaches⟩ := encodeItems_spec ih h hitems
      have htext := text_array (items.map Node.toJson)
      rw [← hparts] at htext
      exact ⟨htext.symm, hcaches.remember hid htext.symm⟩
  | object id fields ih =>
    intro contents caches h named
    obtain ⟨hid, hfields⟩ := Node.named_object.1 named
    rw [Node.toJson, Node.fieldsJson_eq]
    simp only [ReplayCaches.encode]
    cases hknown : caches.encoded.lookup id with
    | some known => exact ⟨CachesOk.hit h.encoded hid hknown, h⟩
    | none =>
      obtain ⟨hparts, hcaches⟩ := encodeFields_spec ih h hfields
      have htext := text_object (fields.map (fun f => (f.1, f.2.toJson)))
      rw [← hparts] at htext
      exact ⟨htext.symm, hcaches.remember hid htext.symm⟩

private theorem CachesOk.rememberBytes (h : CachesOk contents caches) {id : Nat} {v : Json}
    (hid : contents id = some v) {bytes : List Char} (hbytes : bytes = text v) :
    CachesOk contents { caches with byteObjects := (id, bytes) :: caches.byteObjects } := by
  refine ⟨?_, h.encoded, h.strings, h.counted, h.bounded⟩
  intro entry hentry
  rcases List.mem_cons.mp hentry with rfl | hentry
  · exact ⟨v, hid, hbytes⟩
  · exact h.byteObjects entry hentry

private theorem memberBytes_spec (h : CachesOk contents caches) {v : Node}
    (named : Named contents v) :
    (caches.memberBytes v).2 = text v.toJson ∧ CachesOk contents (caches.memberBytes v).1 := by
  cases v with
  | array id items =>
    have hid := (Node.named_array.1 named).1
    obtain ⟨htext, hcaches⟩ := encode_spec (.array id items) h named
    have hjson : (Node.array id items).toJson = .array (items.map Node.toJson) := by
      rw [Node.toJson, Node.itemsJson_eq]
    simp only [ReplayCaches.memberBytes]
    cases hknown : caches.byteObjects.lookup id with
    | some known => exact ⟨hjson ▸ CachesOk.hit h.byteObjects hid hknown, h⟩
    | none => exact ⟨htext, hcaches.rememberBytes hid (hjson ▸ htext)⟩
  | object id fields =>
    have hid := (Node.named_object.1 named).1
    obtain ⟨htext, hcaches⟩ := encode_spec (.object id fields) h named
    have hjson : (Node.object id fields).toJson =
        .object (fields.map (fun f => (f.1, f.2.toJson))) := by
      rw [Node.toJson, Node.fieldsJson_eq]
    simp only [ReplayCaches.memberBytes]
    cases hknown : caches.byteObjects.lookup id with
    | some known => exact ⟨hjson ▸ CachesOk.hit h.byteObjects hid hknown, h⟩
    | none => exact ⟨htext, hcaches.rememberBytes hid (hjson ▸ htext)⟩
  | string s => exact encodeString_spec h s
  | null => exact ⟨rfl, h⟩
  | bool b => exact ⟨rfl, h⟩
  | number n => exact ⟨rfl, h⟩

/-- After its first member, the loop feeds the hash the rest of the object's text. -/
private theorem updateMembers_spec {fields : List (String × Node)} {hash : List Char}
    (h : CachesOk contents caches) (named : ∀ f ∈ fields, Named contents f.2) :
    (caches.updateMembers hash false fields).2 ++ ['\x7d'] =
        hash ++ fieldsText (fields.map (fun f => (f.1, f.2.toJson))) ∧
      CachesOk contents (caches.updateMembers hash false fields).1 := by
  induction fields generalizing caches hash with
  | nil => exact ⟨rfl, h⟩
  | cons f fields ih =>
    obtain ⟨key, value⟩ := f
    obtain ⟨hbytes, hcaches⟩ := memberBytes_spec h (named (key, value) (by simp))
    simp only [ReplayCaches.updateMembers, Bool.false_eq_true, if_false]
    obtain ⟨htext, hcaches'⟩ := @ih _ (hash ++ [','] ++ quoteString key ++ [':'] ++
      (caches.memberBytes value).2) hcaches (fun g hg => named g (by simp [hg]))
    refine ⟨?_, hcaches'⟩
    rw [htext, hbytes]
    simp [fieldsText]

end Tables

section Digests

variable {contents : Contents} {replay : CachedReplay}

/-- The projection feeds the hash its JSON text. -/
private theorem updateProjection_spec (h : CachesOk contents replay.caches)
    (named : Named contents replay.state) (object : Json.isAuthorityJsonObject replay.state.toJson = true)
    (hash : List Char) :
    (replay.updateProjection hash).2 = hash ++ text replay.state.toJson ∧
      CachesOk contents (replay.updateProjection hash).1.caches := by
  obtain ⟨state, next, caches⟩ := replay
  cases state with
  | object id fields =>
    simp only [CachedReplay.updateProjection]
    obtain ⟨-, hfields⟩ := Node.named_object.1 named
    rw [Node.toJson, Node.fieldsJson_eq]
    cases fields with
    | nil =>
      refine ⟨?_, h⟩
      simp [ReplayCaches.updateMembers, text]
    | cons f fields =>
      obtain ⟨key, value⟩ := f
      obtain ⟨hbytes, hcaches⟩ := memberBytes_spec h (hfields (key, value) (by simp))
      simp only [ReplayCaches.updateMembers, if_true]
      obtain ⟨htext, hcaches'⟩ := @updateMembers_spec contents _ fields
        (hash ++ ['\x7b'] ++ [] ++ quoteString key ++ [':'] ++ (caches.memberBytes value).2)
        hcaches (fun g hg => hfields g (by simp [hg]))
      refine ⟨?_, hcaches'⟩
      rw [htext, hbytes]
      simp [text]
  | _ => simp [Node.toJson, Json.isAuthorityJsonObject] at object

/-- What holds of a replay at any time, for the plain state it stands for. -/
def ReplayOk (replay : CachedReplay) (state : Json) : Prop :=
  replay.state.toJson = state ∧ CanonicalObject state ∧
    ∃ contents, Named contents replay.state ∧ FreshFrom contents replay.next ∧
      CachesOk contents replay.caches

variable {state : Json}

private theorem create_ok (h : CanonicalObject state) :
    ∃ replay, CachedReplay.create state = .ok replay ∧ ReplayOk replay state := by
  have hcreate : CachedReplay.create state =
      .ok ⟨(Node.alloc state 0).1, (Node.alloc state 0).2, .empty⟩ := by
    rw [CachedReplay.create, canonicalAuthorityObject_of_canonical h, ok_bind]
  refine ⟨_, hcreate, Node.toJson_alloc state 0, h, ?_⟩
  obtain ⟨contents, -, hfresh, hnamed⟩ :=
    Node.alloc_named state (fun _ => none) 0 (fun _ _ => rfl)
  refine ⟨contents, hnamed, hfresh, ?_⟩
  exact ⟨by simp [ReplayCaches.empty], by simp [ReplayCaches.empty],
    by simp [ReplayCaches.empty], rfl, by simp [ReplayCaches.empty]⟩

/-- A delta is taken or refused as by the plain replay, with the same outcome. -/
private theorem apply_ok (h : ReplayOk replay state) (delta : Json) :
    (∃ replay' state', replay.apply delta = .ok replay' ∧
      AuthorityStateReplay.apply ⟨state⟩ delta = .ok ⟨state'⟩ ∧ ReplayOk replay' state') ∨
    ∃ error, replay.apply delta = .error error ∧
      AuthorityStateReplay.apply ⟨state⟩ delta = .error error := by
  obtain ⟨hjson, hcanonical, contents, named, fresh, caches⟩ := h
  rw [CachedReplay.apply, AuthorityStateReplay.apply]
  cases hdelta : decodeAuthorityStateDelta delta with
  | error error => exact Or.inr ⟨error, rfl, rfl⟩
  | ok operations =>
    have hplain := Node.toJson_applyOperations operations.operations replay.state replay.next
    rw [hjson] at hplain
    simp only [ok_bind]
    cases hrun : Node.applyOperations operations.operations replay.state replay.next with
    | error error =>
      rw [hrun] at hplain
      exact Or.inr ⟨error, rfl, by rw [← hplain]; rfl⟩
    | ok result =>
      obtain ⟨next, nextId⟩ := result
      rw [hrun] at hplain
      have hstate : Authority.applyOperations operations.operations state = .ok next.toJson :=
        hplain.symm
      refine Or.inl ⟨⟨next, nextId, replay.caches⟩, next.toJson, rfl, by rw [hstate]; rfl, rfl, ?_, ?_⟩
      · exact canonicalObject_applyOperations (clean_of_decodeAuthorityStateDelta hdelta)
          hcanonical hstate
      · obtain ⟨contents', extends', fresh', named'⟩ := Node.applyOperations_named fresh named hrun
        exact ⟨contents', named', fresh', caches.mono extends'⟩

private theorem stateDigest_ok (sha : Sha256) (h : ReplayOk replay state) :
    (replay.stateDigest sha).2 = authorityStateDigest sha state ∧
      ReplayOk (replay.stateDigest sha).1 state := by
  obtain ⟨hjson, hcanonical, contents, named, fresh, caches⟩ := h
  obtain ⟨htext, hcaches⟩ := updateProjection_spec caches named (hjson ▸ hcanonical.1) []
  have hplain := @AuthorityStateReplay.stateDigest_eq sha ⟨state⟩ hcanonical.2
  refine ⟨?_, hjson, hcanonical, contents, named, fresh, hcaches⟩
  have hdigest : (replay.stateDigest sha).2 =
      sha.hex (String.ofList (replay.updateProjection []).2).toByteArray := rfl
  rw [hdigest, htext, hjson]
  exact hplain

private theorem envelopeText_eq_parts (entries : List (String × Json)) (projection : List Char) :
    AuthorityStateReplay.envelopeText entries projection =
      CachedReplay.envelopeHead entries ++ projection ++ CachedReplay.envelopeTail entries := by
  simp [AuthorityStateReplay.envelopeText, CachedReplay.envelopeHead, CachedReplay.envelopeTail]

private theorem commitDigest_ok (sha : Sha256) (h : ReplayOk replay state)
    (fields : CommitFields) :
    ∃ replay', replay.commitDigest sha fields =
        .ok (replay', canonicalAuthoritySha256 sha (fields.toJson state)) ∧
      ReplayOk replay' state := by
  obtain ⟨hjson, hcanonical, contents, named, fresh, caches⟩ := h
  have hplain := @AuthorityStateReplay.commitDigest_eq sha ⟨state⟩ hcanonical.2 fields
  have henvelope : canonicalAuthorityObject (some (fields.toJson .null)) "commit proof" =
      .ok (canonicalAuthorityJson (fields.toJson .null)) := rfl
  rw [AuthorityStateReplay.commitDigest, henvelope, fields.canonical_toJson, ok_bind] at hplain
  rw [CachedReplay.commitDigest, henvelope, fields.canonical_toJson, ok_bind]
  generalize [("events", canonicalAuthorityJson (.array fields.events)),
    ("expected_provider_revision", revisionJson fields.expectedProviderRevision),
    ("next_projection", canonicalAuthorityJson .null), ("operation_id", .string fields.operationId),
    ("receipts", canonicalAuthorityJson (.array fields.receipts))] = entries at hplain ⊢
  obtain ⟨htext, hcaches⟩ := updateProjection_spec caches named (hjson ▸ hcanonical.1)
    (CachedReplay.envelopeHead entries)
  have hdigest := Except.ok.inj hplain
  rw [envelopeText_eq_parts, AuthorityStateReplay.projectionText, ← hjson, ← htext] at hdigest
  refine ⟨(replay.updateProjection (CachedReplay.envelopeHead entries)).1, ?_, hjson, hcanonical,
    contents, named, fresh, hcaches⟩
  rw [← hjson, ← hdigest]

private theorem canonicalJson_ok (h : ReplayOk replay state) :
    (String.ofList replay.canonicalJson.2).toByteArray = canonicalAuthorityBytes state ∧
      ReplayOk replay.canonicalJson.1 state := by
  obtain ⟨hjson, hcanonical, contents, named, fresh, caches⟩ := h
  obtain ⟨htext, hcaches⟩ := encode_spec replay.state caches named
  refine ⟨?_, hjson, hcanonical, contents, named, fresh, hcaches⟩
  rw [CachedReplay.canonicalJson, htext, hjson, canonicalAuthorityBytes, hcanonical.2]
  rfl

/-- One call keeps what holds of a replay. -/
private theorem replayStep_ok (sha : Sha256) (h : ReplayOk replay state) (call : ReplayCall) :
    ReplayOk (replayStep sha replay call) (plainReplayAfter ⟨state⟩ [call]).state := by
  cases call with
  | apply delta =>
    simp only [replayStep, plainReplayAfter, List.foldl_cons, List.foldl_nil]
    rcases apply_ok h delta with ⟨replay', state', happly, hplain, hok⟩ | ⟨error, happly, hplain⟩
    · simp only [happly, hplain]
      exact hok
    · simp only [happly, hplain]
      exact h
  | canonicalJson => exact (canonicalJson_ok h).2
  | stateDigest => exact (stateDigest_ok sha h).2
  | commitDigest fields =>
    obtain ⟨replay', hdigest, hok⟩ := commitDigest_ok sha h fields
    simp only [replayStep, hdigest]
    exact hok
  | collect kept =>
    obtain ⟨hjson, hcanonical, contents, named, fresh, caches⟩ := h
    refine ⟨hjson, hcanonical, contents, named, fresh, ?_, ?_, caches.strings, caches.counted,
      caches.bounded⟩
    · exact fun entry hentry => caches.byteObjects entry (List.mem_of_mem_filter hentry)
    · exact fun entry hentry => caches.encoded entry (List.mem_of_mem_filter hentry)

private theorem replayAfter_ok (sha : Sha256) (h : ReplayOk replay state)
    (calls : List ReplayCall) :
    ReplayOk (replayAfter sha replay calls) (plainReplayAfter ⟨state⟩ calls).state := by
  induction calls generalizing replay state with
  | nil => exact h
  | cons call calls ih => exact ih (replayStep_ok sha h call)

/-- After any calls on a replay of a canonical checkpoint, its state is canonical and is the one the
taken deltas lead to, and all it encodes is what an encoding from scratch gives. -/
theorem replayAfter_fromScratch (sha : Sha256) (checkpoint : {state : Json // CanonicalObject state})
    (calls : List ReplayCall) :
    ∃ start, CachedReplay.create checkpoint.1 = .ok start ∧
      let replay := replayAfter sha start calls
      CanonicalObject replay.snapshot ∧
      replay.snapshot = (plainReplayAfter ⟨checkpoint.1⟩ calls).state ∧
      (replay.stateDigest sha).2 = authorityStateDigest sha replay.snapshot ∧
      (∀ fields, ∃ replay', replay.commitDigest sha fields =
        .ok (replay', canonicalAuthoritySha256 sha (fields.toJson replay.snapshot))) ∧
      (∀ identity cursor operationId events receipts, ∃ replay',
        replay.commitDigest sha (commitFields identity cursor operationId events receipts) =
          .ok (replay', commitDigest sha identity cursor operationId replay.snapshot events
            receipts)) ∧
      (String.ofList replay.canonicalJson.2).toByteArray =
        canonicalAuthorityBytes replay.snapshot ∧
      ∀ delta error, replay.apply delta = .error error → ∀ later,
        replayAfter sha start (calls ++ .apply delta :: later) =
          replayAfter sha start (calls ++ later) := by
  obtain ⟨start, hcreate, hstart⟩ := create_ok checkpoint.2
  have hok := replayAfter_ok sha hstart calls
  have hsnapshot : (replayAfter sha start calls).snapshot =
      (plainReplayAfter ⟨checkpoint.1⟩ calls).state := hok.1
  refine ⟨start, hcreate, ?_⟩
  simp only [hsnapshot]
  refine ⟨hok.2.1, trivial, (stateDigest_ok sha hok).1, ?_, ?_, (canonicalJson_ok hok).1, ?_⟩
  · intro fields
    obtain ⟨replay', hdigest, -⟩ := commitDigest_ok sha hok fields
    exact ⟨replay', hdigest⟩
  · intro identity cursor operationId events receipts
    obtain ⟨replay', hdigest, -⟩ :=
      commitDigest_ok sha hok (commitFields identity cursor operationId events receipts)
    exact ⟨replay', hdigest⟩
  · intro delta error hrefused later
    have hstep : replayStep sha (replayAfter sha start calls) (.apply delta) =
        replayAfter sha start calls := by
      simp only [replayStep, hrefused]
    simp only [replayAfter, List.foldl_append, List.foldl_cons] at hstep ⊢
    rw [hstep]

end Digests

end Loopx.Authority
