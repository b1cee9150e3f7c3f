/- GID: Loopx/Todos/MonitorSteps
   generality: I
   source: loopx/control_plane/todos/monitor_metadata.ts
   digest: What an accepted observation leaves on the Todo, and when repeating it is a replay. -/

import Loopx.Todos.MonitorMetadata

set_option autoImplicit false
set_option relaxedAutoImplicit false

namespace Loopx.Todos

open Loopx.Lib.KeyedList
open Loopx.Lib.Strip (stripEnds stripEnds_idem stripEnds_of_forall)
open Loopx.Lib.Fallible (bind_eq_ok ok_bind throwWhen throwWhen_eq_ok throwWhen_of_not)
open Loopx.Lib.Decimal (isDigit_toDigits)
open Loopx.Json (JsNumber canonicalEntries numberText numberText_ofInt)
open Loopx.Authority (trim)
open Loopx.Scheduler (HostClock jsString)

section Text

theorem stripPythonWhitespace_idem (s : String) :
    stripPythonWhitespace (stripPythonWhitespace s) = stripPythonWhitespace s := by
  simp only [stripPythonWhitespace, String.toList_ofList, stripEnds_idem]

theorem text_string (s : String) : text (some (.string s)) = stripPythonWhitespace s := rfl

@[simp] theorem text_text (value : Option Json) :
    text (some (.string (text value))) = text value := by
  have hempty : stripPythonWhitespace "" = "" := rfl
  rw [text_string]
  unfold text
  split
  · exact hempty
  · exact hempty
  · exact hempty
  · exact stripPythonWhitespace_idem _
  · split
    · exact hempty
    · exact stripPythonWhitespace_idem _
  · exact stripPythonWhitespace_idem _

theorem isPythonSpace_of_isDigit {c : Char} (h : c.isDigit = true) :
    isPythonSpace c = false := by
  simp only [Char.isDigit, Bool.and_eq_true, decide_eq_true_eq] at h
  have hlow : 48 ≤ c.toNat := h.1
  have hhigh : c.toNat ≤ 57 := h.2
  simp only [isPythonSpace, Bool.or_eq_false_iff, Bool.and_eq_false_iff, decide_eq_false_iff_not]
  omega

private theorem strip_repr (n : Nat) : stripPythonWhitespace n.repr = n.repr := by
  have hdigits : ∀ c ∈ n.repr.toList, isPythonSpace c = false := by
    intro c hc
    rw [Nat.toList_repr] at hc
    exact isPythonSpace_of_isDigit (isDigit_toDigits hc)
  rw [stripPythonWhitespace, stripEnds_of_forall hdigits, String.ofList_toList]

@[simp] theorem text_repr (n : Nat) : text (some (.string n.repr)) = n.repr := strip_repr n

theorem text_ofNat {n : Nat} (safe : n ≤ JsNumber.maxSafeInteger) :
    text (some (.number (JsNumber.ofNat n))) = if n = 0 then "" else n.repr := by
  by_cases hn : n = 0
  · subst hn
    rfl
  · have hcoefficient : (JsNumber.ofNat n).coefficient ≠ 0 := by
      intro hzero
      have hint := JsNumber.toInt?_ofNat n
      simp only [JsNumber.toInt?, hzero] at hint
      simp at hint
      omega
    have htext : numberText (JsNumber.ofNat n) = Nat.toDigits 10 n := by
      have := numberText_ofInt (m := n) (by omega) (by omega)
      rwa [Int.toNat_natCast] at this
    rw [if_neg hn]
    simp only [text, hcoefficient, if_false, jsString, htext]
    have hrepr : String.ofList (Nat.toDigits 10 n) = n.repr := by
      rw [← Nat.toList_repr, String.ofList_toList]
    rw [hrepr, strip_repr]

theorem signedDigits?_repr (n : Nat) : signedDigits? n.repr = some (false, n) := by
  obtain ⟨d, ds, hd⟩ := List.exists_cons_of_ne_nil (Nat.toDigits_ne_nil (n := n) (b := 10))
  have hall : ∀ c ∈ Nat.toDigits 10 n, c.isDigit = true := fun c hc => isDigit_toDigits hc
  have hdigit : d.isDigit = true := hall d (by simp [hd])
  have hminus : d ≠ '-' := by
    rintro rfl
    exact absurd hdigit (by decide)
  have hplus : d ≠ '+' := by
    rintro rfl
    exact absurd hdigit (by decide)
  have hvalue : Nat.ofDigitChars 10 (Nat.toDigits 10 n) 0 = n := Nat.ofDigitChars_ten_toDigits
  have hrest : ds.all Char.isDigit = true := by
    rw [List.all_eq_true]
    intro c hc
    exact hall c (by simp [hd, hc])
  unfold signedDigits?
  rw [Nat.toList_repr]
  rw [hd] at hvalue ⊢
  split
  rename_i negative digits h
  split at h
  · rename_i hcons
    exact absurd (List.cons.inj hcons).1 hminus
  · rename_i hcons
    exact absurd (List.cons.inj hcons).1 hplus
  · obtain ⟨rfl, rfl⟩ := Prod.mk.inj h
    rw [if_pos ⟨by simp, by simp [hdigit, hrest]⟩, hvalue]

theorem counter_repr {n : Nat} (safe : n ≤ JsNumber.maxSafeInteger) :
    counter (some (.string n.repr)) = .ok n := by
  simp [counter, signedDigits?_repr, Nat.not_lt.mpr safe]

theorem numberOf_repr (n : Nat) :
    numberOf (.string n.repr) = .number (JsNumber.ofNat n) := by
  simp [numberOf, signedDigits?_repr, JsNumber.ofNat]

theorem counter_ofNat {n : Nat} (safe : n ≤ JsNumber.maxSafeInteger) :
    counter (some (.number (JsNumber.ofNat n))) = .ok n := by
  rw [counter, text_ofNat safe]
  by_cases hn : n = 0
  · simp only [if_pos hn]
    subst hn
    rfl
  · simp [hn, signedDigits?_repr, Nat.not_lt.mpr safe]

/-- A counter depends on the text of its field alone. -/
theorem counter_text (value : Option Json) : counter (some (.string (text value))) = counter value := by
  rw [counter, text_text]
  rfl

end Text

section Merge

/-- The value a written field has on the Todo. -/
def storedValue (field : String) (value : Json) : Json :=
  if field = "material_change_generation" then numberOf value else value

/-- A Todo field after the merge: the plan's value where it has one. -/
def mergedField (todo metadata : Fields) (field : String) : Option Json :=
  match metadata.lookup field with
  | none => todo.lookup field
  | some .null => none
  | some value => some (storedValue field value)

private theorem lookup_mergeEntry (todo : Fields) (entry : String × Json) (field : String) :
    (mergeEntry todo entry).lookup field =
      if field = entry.1 then mergedField todo [entry] field else todo.lookup field := by
  obtain ⟨key, value⟩ := entry
  unfold mergeEntry mergedField
  by_cases hkey : field = key
  · subst hkey
    by_cases hnull : value = .null
    · subst hnull
      simp [lookup_eraseKey]
    · simp only [hnull, if_false, lookup_setKey, if_true, List.lookup_cons, beq_self_eq_true]
      cases value with
      | null => exact absurd rfl hnull
      | _ => rfl
  · by_cases hnull : value = .null
    · simp [hnull, lookup_eraseKey, hkey]
    · simp [hnull, lookup_setKey, hkey]

private theorem lookup_foldl_mergeEntry (entries todo : Fields) (nodup : (keys entries).Nodup)
    (field : String) :
    (entries.foldl mergeEntry todo).lookup field = mergedField todo entries field := by
  induction entries generalizing todo with
  | nil => rfl
  | cons entry entries ih =>
    rw [keys_cons, List.nodup_cons] at nodup
    rw [List.foldl_cons, ih _ nodup.2]
    by_cases hkey : field = entry.1
    · have hnone : entries.lookup field = none := lookup_eq_none.mpr (hkey ▸ nodup.1)
      have hcons : (entry :: entries).lookup field = some entry.2 := by
        rw [lookup_cons_ite, if_pos hkey]
      have hone : [entry].lookup field = some entry.2 := by
        rw [lookup_cons_ite, if_pos hkey]
      simp only [mergedField, hnone, hcons, lookup_mergeEntry, if_pos hkey, hone]
    · have hcons : (entry :: entries).lookup field = entries.lookup field := by
        rw [lookup_cons_ite, if_neg hkey]
      simp only [mergedField, hcons, lookup_mergeEntry, if_neg hkey]

theorem lookup_mergeMetadata {metadata : Fields} (nodup : (keys metadata).Nodup) (todo : Fields)
    (field : String) :
    (mergeMetadata todo metadata).lookup field = mergedField todo metadata field := by
  have hkeys : (keys (canonicalEntries metadata)).Nodup :=
    nodup_keys_of_pairwise (Json.pairwise_canonicalEntries metadata)
  rw [mergeMetadata, lookup_foldl_mergeEntry _ _ hkeys]
  simp only [mergedField, Json.lookup_canonicalEntries nodup]

/-- The fields an accepted plan can touch on the Todo, next to the metadata. -/
def stampFields : List String := ["last_actor_agent_id", "updated_at", "reason"]

theorem not_mem_stampFields {field : String} (h : field ∈ MONITOR_METADATA_FIELDS) :
    field ∉ stampFields := by
  intro hmem
  revert h
  simp only [stampFields, List.mem_cons, List.not_mem_nil, or_false] at hmem
  rcases hmem with rfl | rfl | rfl <;> decide

theorem writeback_eq_ok {clock : HostClock} {todo todo' : Fields} {s : Submission}
    {plan : MonitorMetadataPlan} (h : writeback clock todo s = .ok (todo', plan)) :
    planMonitorMetadata clock (some (.object (s.request todo))) = .ok plan ∧
    (∃ reason, optionalNonEmptyString (s.observation.lookup "reason_summary") "reason_summary" =
      .ok reason) ∧
    ((keys plan.metadata).Nodup → ∀ field ∉ stampFields,
      todo'.lookup field = mergedField todo plan.metadata field) := by
  unfold writeback at h
  obtain ⟨plan', hplan, h⟩ := bind_eq_ok.mp h
  obtain ⟨reason, hreason, h⟩ := bind_eq_ok.mp h
  have hstamped : ∀ field ∉ stampFields, ∀ metadata : Fields,
      mergedField (setKey (setKey todo "last_actor_agent_id" ((s.actor.map Json.string).getD .null))
        "updated_at" ((s.observation.lookup "generated_at").getD .null)) metadata field =
      mergedField todo metadata field := by
    intro field hfield metadata
    simp only [stampFields, List.mem_cons, List.not_mem_nil, or_false, not_or] at hfield
    simp only [mergedField, lookup_setKey, hfield.1, hfield.2.1, if_false]
  cases reason with
  | none =>
    obtain ⟨rfl, rfl⟩ := Prod.mk.inj (Except.ok.inj h)
    refine ⟨hplan, ⟨none, hreason⟩, fun nodup field hfield => ?_⟩
    rw [lookup_mergeMetadata nodup, hstamped field hfield]
  | some reason =>
    obtain ⟨rfl, rfl⟩ := Prod.mk.inj (Except.ok.inj h)
    refine ⟨hplan, ⟨some reason, hreason⟩, fun nodup field hfield => ?_⟩
    have hne : ¬field = "reason" := by
      rintro rfl
      exact hfield (by decide)
    rw [lookup_setKey, if_neg hne, lookup_mergeMetadata nodup, hstamped field hfield]

theorem writeback_of_plan {clock : HostClock} {todo : Fields} {s : Submission}
    {plan : MonitorMetadataPlan}
    (hplan : planMonitorMetadata clock (some (.object (s.request todo))) = .ok plan)
    (hreason : ∃ reason, optionalNonEmptyString (s.observation.lookup "reason_summary")
      "reason_summary" = .ok reason) :
    ∃ todo', writeback clock todo s = .ok (todo', plan) := by
  obtain ⟨reason, hreason⟩ := hreason
  unfold writeback
  rw [hplan, ok_bind, hreason, ok_bind]
  cases reason with
  | none => exact ⟨_, rfl⟩
  | some reason => exact ⟨_, rfl⟩

end Merge

section Plan

theorem lookup_normalFields (raw : Fields) (field : String) :
    (normalFields raw).lookup field =
      if field ∈ MONITOR_METADATA_FIELDS then (raw.lookup field).bind normalField else none := by
  simpa [normalFields] using
    lookup_filterMap_key MONITOR_METADATA_FIELDS (fun k => (raw.lookup k).bind normalField) field

theorem nodup_keys_normalFields (raw : Fields) : (keys (normalFields raw)).Nodup := by
  have hsublist : (keys (normalFields raw)).Sublist MONITOR_METADATA_FIELDS := by
    unfold normalFields
    generalize MONITOR_METADATA_FIELDS = fields
    induction fields with
    | nil => exact List.Sublist.slnil
    | cons field fields ih =>
      rw [List.filterMap_cons]
      cases (raw.lookup field).bind normalField with
      | none => exact ih.cons field
      | some value => exact ih.cons_cons field
  exact hsublist.nodup (by decide)

theorem checkAll_eq_ok {clock : HostClock} {normalized : Fields} {fields : List String} :
    checkAll clock normalized fields = .ok () ↔
      ∀ field ∈ fields, checkPresent clock field (normalized.lookup field) = .ok () := by
  induction fields with
  | nil => simp [checkAll]
  | cons field fields ih =>
    rw [checkAll, bind_eq_ok, List.forall_mem_cons, ← ih]
    constructor
    · rintro ⟨u, hfirst, hrest⟩
      exact ⟨hfirst, hrest⟩
    · rintro ⟨hfirst, hrest⟩
      exact ⟨(), hfirst, hrest⟩

section Request

variable (s : Submission) (todo : Fields)

@[simp] theorem lookup_request_schema : (s.request todo).lookup "schema_version" =
    some (.string TODO_MONITOR_METADATA_REQUEST_SCHEMA) := rfl

@[simp] theorem lookup_request_existing : (s.request todo).lookup "existing" =
    some (.object todo) := rfl

@[simp] theorem lookup_request_role : (s.request todo).lookup "role" = some (.string "agent") := rfl

@[simp] theorem lookup_request_class : (s.request todo).lookup "task_class" =
    some (.string "continuous_monitor") := rfl

@[simp] theorem lookup_request_enforce : (s.request todo).lookup "enforce_boundedness" =
    some (.bool s.enforceBoundedness) := rfl

@[simp] theorem lookup_request_reactivate : (s.request todo).lookup "reactivate" =
    some (.bool s.reactivate) := rfl

@[simp] theorem lookup_request_resume : (s.request todo).lookup "resume_when" =
    some (s.resumeWhen.getD .null) := rfl

@[simp] theorem lookup_request_observation : (s.request todo).lookup "observation" =
    some (.object s.observation) := rfl

@[simp] theorem lookup_request_metadata : (s.request todo).lookup "metadata" = none := rfl

end Request

private theorem planObservation_request (clock : HostClock) (s : Submission) (todo : Fields) :
    planObservation clock (s.request todo) todo =
      poll clock todo s.observation s.reactivate >>= fun planned => .ok (some planned) := by
  have hflag : decide (some (Json.bool s.reactivate) = some (.bool true)) = s.reactivate := by
    simp
  unfold planObservation
  rw [lookup_request_observation, lookup_request_reactivate, hflag]
  rfl

/-- The plan of a poll: what `poll` hands over, normalized, and the two later checks. -/
theorem plan_eq_ok {clock : HostClock} {todo : Fields} {s : Submission}
    {plan : MonitorMetadataPlan} :
    planMonitorMetadata clock (some (.object (s.request todo))) = .ok plan ↔
      ∃ raw t, poll clock todo s.observation s.reactivate = .ok (raw, t) ∧
        checkAll clock (normalFields raw) checkOrder = .ok () ∧
        fillDue clock (s.request todo) (normalFields raw) = .ok plan.metadata ∧
        checkBounded (s.request todo) todo plan.metadata = .ok () ∧
        plan.transition = some t := by
  simp only [planMonitorMetadata, requireJsonObject, ok_bind, lookup_request_schema,
    lookup_request_existing, objectOrEmpty, planObservation_request, lookup_request_metadata,
    lookup_request_role, lookup_request_class, nullish, normalizeMetadata]
  cases hpoll : poll clock todo s.observation s.reactivate with
  | error e =>
    constructor
    · intro h
      obtain ⟨-, -, h⟩ := bind_eq_ok.mp h
      cases h
    · rintro ⟨raw, t, h, -⟩
      cases h
  | ok planned =>
    obtain ⟨raw, t⟩ := planned
    obtain ⟨metadata, transition⟩ := plan
    simp only [ok_bind, bind_eq_ok]
    constructor
    · rintro ⟨_, -, _, -, _, ⟨_, hcheck, hnormalized⟩, _, -, _, -, filled, hfill, _, hbounded, h⟩
      obtain rfl := Except.ok.inj hnormalized
      obtain ⟨rfl, rfl⟩ := MonitorMetadataPlan.mk.inj (Except.ok.inj h)
      exact ⟨raw, t, rfl, hcheck, hfill, hbounded, rfl⟩
    · rintro ⟨raw', t', heq, hcheck, hfill, hbounded, rfl⟩
      obtain ⟨rfl, rfl⟩ := Prod.mk.inj (Except.ok.inj heq)
      exact ⟨(), throwWhen_of_not (by simp) _, (), throwWhen_of_not (by simp) _, normalFields raw,
        ⟨(), hcheck, rfl⟩, (), throwWhen_of_not (by simp) _, (), throwWhen_of_not (by simp) _,
        metadata, hfill, (), hbounded, rfl⟩

theorem fillDue_eq_ok {clock : HostClock} {request metadata filled : Fields}
    (h : fillDue clock request metadata = .ok filled) :
    filled = metadata ∨ (nullish (metadata.lookup "next_due_at") = true ∧
      nullish (metadata.lookup "cadence") = false ∧
      ∃ due, filled = setKey metadata "next_due_at" (.string due)) := by
  unfold fillDue at h
  split at h
  · rename_i hfills
    obtain ⟨planned, -, h⟩ := bind_eq_ok.mp h
    split at h
    · rename_i due hdue
      exact Or.inr ⟨hfills.2.2.1, hfills.2.2.2, due, (Except.ok.inj h).symm⟩
    · exact Or.inl (Except.ok.inj h).symm
  · exact Or.inl (Except.ok.inj h).symm

theorem fillDue_of_kept {clock : HostClock} {request metadata : Fields}
    (h : nullish (metadata.lookup "cadence") = false →
      nullish (metadata.lookup "next_due_at") = false) :
    fillDue clock request metadata = .ok metadata := by
  unfold fillDue
  rw [if_neg]
  rintro ⟨-, -, hdue, hcadence⟩
  exact absurd (h hcadence) (by simp [hdue])

end Plan

section Poll

/-- The observation carries the effect identity the Todo was last bound to. -/
def isReplay (todo observation : Fields) : Bool :=
  text (observation.lookup "monitor_effect_id") ≠ "" ∧
    text (observation.lookup "monitor_effect_id") = text (todo.lookup "monitor_effect_id")

def isMaterial (observation : Fields) : Bool :=
  observation.lookup "material_change" = some (.bool true)

/-- The observed result is not the one the Todo carries. -/
def differs (todo observation : Fields) : Bool :=
  text (observation.lookup "result_hash") ≠ text (todo.lookup "result_hash")

/-- A new material result, or one that reactivates the Monitor. -/
def raises (todo observation : Fields) (reactivate : Bool) : Bool :=
  !isReplay todo observation && isMaterial observation &&
    (reactivate || differs todo observation)

/-- A new observation that is material, or shows another result than the one before. -/
def changes (todo observation : Fields) : Bool :=
  !isReplay todo observation && (isMaterial observation ||
    (text (todo.lookup "result_hash") ≠ "" && differs todo observation))

structure Reads (clock : HostClock) (todo observation : Fields) (r : Observed) : Prop where
  monitor : todo.lookup "task_class" = some (.string "continuous_monitor")
  material : observation.lookup "material_change" = some (.bool r.material)
  resultHash : r.resultHash = text (observation.lookup "result_hash")
  hashed : r.resultHash ≠ ""
  generatedAt : r.generatedAt = text (observation.lookup "generated_at")
  observedAt : parseTodoTimestampMicros r.generatedAt = some r.observedAt
  target : r.target = if text (observation.lookup "target_key") ≠ "" then
    text (observation.lookup "target_key") else text (todo.lookup "target_key")
  sameTarget : ¬(text (observation.lookup "target_key") ≠ "" ∧
    text (todo.lookup "target_key") ≠ "" ∧
    text (observation.lookup "target_key") ≠ text (todo.lookup "target_key"))
  cadence : r.cadence = cadenceText todo observation
  due : ∃ planned, schedule clock r.generatedAt r.cadence (observation.lookup "next_due_at") =
    .ok planned ∧ planned.nextDueAt = r.due
  effectId : r.effectId = text (observation.lookup "monitor_effect_id")
  awaits : ¬(r.material = false ∧ r.due = none)

theorem readObservation_eq_ok {clock : HostClock} {todo observation : Fields} {reactivate : Bool}
    {r : Observed} (h : readObservation clock todo observation reactivate = .ok r) :
    Reads clock todo observation r := by
  simp only [readObservation, bind_eq_ok] at h
  obtain ⟨_, hclass, material, hmaterial, _, hhash, observedAt, hobserved, _, -, _, htarget,
    planned, hplanned, _, hdue, h⟩ := h
  obtain rfl := Except.ok.inj h
  have hbool : observation.lookup "material_change" = some (.bool material) := by
    unfold requireBoolean at hmaterial
    split at hmaterial
    · rename_i b hb
      rw [hb, Except.ok.inj hmaterial]
    · cases hmaterial
  have htime : parseTodoTimestampMicros (text (observation.lookup "generated_at")) =
      some observedAt := by
    unfold timestamp timestampOrNull at hobserved
    rw [text_text] at hobserved
    split at hobserved
    · cases hobserved
    · rename_i micros hmicros
      rw [hmicros, Except.ok.inj hobserved]
  exact {
    monitor := not_not.mp (throwWhen_eq_ok.mp hclass)
    material := hbool
    resultHash := rfl
    hashed := throwWhen_eq_ok.mp hhash
    generatedAt := rfl
    observedAt := htime
    target := rfl
    sameTarget := throwWhen_eq_ok.mp htarget
    cadence := rfl
    due := ⟨planned, hplanned, rfl⟩
    effectId := rfl
    awaits := throwWhen_eq_ok.mp hdue }

/-- Without a request to reactivate, what `poll` reads is determined by these facts. -/
theorem readObservation_of_reads {clock : HostClock} {todo observation : Fields} {r : Observed}
    (h : Reads clock todo observation r) :
    readObservation clock todo observation false = .ok r := by
  obtain ⟨planned, hplanned, hdue⟩ := h.due
  have hmaterial : requireBoolean (observation.lookup "material_change") "material_change" =
      .ok r.material := by
    rw [h.material]
    rfl
  have htime : timestamp (some (.string (text (observation.lookup "generated_at"))))
      "generated_at" = .ok r.observedAt := by
    unfold timestamp timestampOrNull
    rw [text_text, ← h.generatedAt, h.observedAt]
  rw [h.generatedAt, h.cadence] at hplanned
  simp only [readObservation, bind_eq_ok]
  refine ⟨(), throwWhen_of_not (not_not.mpr h.monitor) _, r.material, hmaterial, (),
    throwWhen_of_not (h.resultHash ▸ h.hashed) _, r.observedAt, htime, (), rfl, (),
    throwWhen_of_not h.sameTarget _, planned, hplanned, (),
    throwWhen_of_not (hdue ▸ h.awaits) _, ?_⟩
  rw [hdue, ← h.target, ← h.resultHash, ← h.generatedAt, ← h.cadence, ← h.effectId]
  rfl

end Poll

section Accepted

variable {clock : HostClock} {todo todo' observation raw : Fields} {reactivate : Bool}
  {t : MonitorTransition} {s : Submission} {plan : MonitorMetadataPlan}

def nextGeneration (todo observation : Fields) (reactivate : Bool) (generation : Nat) : Nat :=
  generation + (raises todo observation reactivate).toNat

def nextNoChange (todo observation : Fields) (noChange : Nat) : Nat :=
  if isReplay todo observation then noChange
  else if changes todo observation then 0 else noChange + 1

/-- An accepted poll, taken apart; `g` and `c` are the counters the Todo carried. -/
structure Polled (clock : HostClock) (todo observation : Fields) (reactivate : Bool) (raw : Fields)
    (t : MonitorTransition) (r : Observed) (g c : Nat) : Prop where
  reads : Reads clock todo observation r
  generation : counter (todo.lookup "material_change_generation") = .ok g
  noChange : counter (todo.lookup "consecutive_no_change") = .ok c
  history : checkHistory todo r (isReplay todo observation) = .ok ()
  generation_safe : nextGeneration todo observation reactivate g ≤ JsNumber.maxSafeInteger
  noChange_safe : nextNoChange todo observation c ≤ JsNumber.maxSafeInteger
  metadata : raw = if isReplay todo observation then replayMetadata todo
    else observedMetadata r (nextNoChange todo observation c)
      (nextGeneration todo observation reactivate g)
  replayed : t.providerReplayed = isReplay todo observation
  applied : t.materialChangeApplied = raises todo observation reactivate
  reached : t.materialChangeGeneration = nextGeneration todo observation reactivate g
  counted : t.consecutiveNoChange = nextNoChange todo observation c

private theorem isMaterial_of_reads {r : Observed} (h : Reads clock todo observation r) :
    isMaterial observation = r.material := by
  simp [isMaterial, h.material]

private theorem isReplay_of_reads {r : Observed} (h : Reads clock todo observation r) :
    isReplay todo observation =
      decide (r.effectId ≠ "" ∧ r.effectId = text (todo.lookup "monitor_effect_id")) := by
  rw [isReplay, h.effectId]

private theorem raises_of_reads {r : Observed} (h : Reads clock todo observation r) :
    raises todo observation reactivate = (!isReplay todo observation && r.material &&
      (reactivate || decide (r.resultHash ≠ text (todo.lookup "result_hash")))) := by
  rw [raises, isMaterial_of_reads h, differs, h.resultHash]

private theorem nextNoChange_of_reads {r : Observed} (h : Reads clock todo observation r)
    (noChange : Nat) :
    nextNoChange todo observation noChange = if isReplay todo observation then noChange
      else if r.material || (decide (text (todo.lookup "result_hash") ≠ "") &&
        decide (text (todo.lookup "result_hash") ≠ r.resultHash)) then 0 else noChange + 1 := by
  cases hreplay : isReplay todo observation with
  | true => simp [nextNoChange, hreplay]
  | false =>
    simp only [nextNoChange, changes, hreplay, isMaterial_of_reads h, differs, ← h.resultHash,
      ne_comm (a := r.resultHash)]
    rfl

theorem poll_eq_ok (h : poll clock todo observation reactivate = .ok (raw, t)) :
    ∃ r g c, Polled clock todo observation reactivate raw t r g c := by
  simp only [poll, bind_eq_ok] at h
  obtain ⟨r, hread, g, hgeneration, c, hnoChange, _, hhistory, _, -, _, hsafe, h⟩ := h
  have hreads := readObservation_eq_ok hread
  rw [← isReplay_of_reads hreads] at hhistory hsafe h
  rw [← raises_of_reads hreads, ← nextNoChange_of_reads hreads] at hsafe h
  obtain ⟨rfl, rfl⟩ := Prod.mk.inj (Except.ok.inj h)
  have hbounds := not_or.mp (throwWhen_eq_ok.mp hsafe)
  exact ⟨r, g, c, {
    reads := hreads
    generation := hgeneration
    noChange := hnoChange
    history := hhistory
    generation_safe := Nat.not_lt.mp hbounds.1
    noChange_safe := Nat.not_lt.mp hbounds.2
    metadata := rfl
    replayed := rfl
    applied := rfl
    reached := rfl
    counted := rfl }⟩

/-- A repeated effect identity is a replay as soon as the Todo carries what it reports. -/
theorem poll_of_replay {r : Observed} {g c : Nat} (reads : Reads clock todo observation r)
    (hreplay : isReplay todo observation = true) (hcarries : conflicts todo r = [])
    (hgeneration : counter (todo.lookup "material_change_generation") = .ok g)
    (hnoChange : counter (todo.lookup "consecutive_no_change") = .ok c)
    (gsafe : g ≤ JsNumber.maxSafeInteger) (csafe : c ≤ JsNumber.maxSafeInteger) :
    ∃ t, poll clock todo observation false = .ok (replayMetadata todo, t) ∧
      t.providerReplayed = true ∧ t.materialChangeGeneration = g ∧ t.consecutiveNoChange = c := by
  have hdecide : decide (r.effectId ≠ "" ∧ r.effectId = text (todo.lookup "monitor_effect_id")) =
      true := (isReplay_of_reads reads).symm.trans hreplay
  have hhistory : checkHistory todo r true = .ok () := by
    simp only [checkHistory, if_true]
    exact throwWhen_of_not (not_not.mpr hcarries) _
  let t : MonitorTransition := {
    monitorEffectId := textOrNull r.effectId
    providerReplayed := true
    resultHash := r.resultHash
    materialChange := r.material
    materialChangeApplied := false
    materialChangeGeneration := g
    consecutiveNoChange := c
    lastCheckedAt := r.generatedAt
    targetKey := textOrNull r.target
    cadence := textOrNull r.cadence
    nextDueAt := r.due }
  refine ⟨t, ?_, ?_⟩
  · simp only [poll, bind_eq_ok]
    refine ⟨r, readObservation_of_reads reads, g, hgeneration, c, hnoChange, (), ?_, (),
      throwWhen_of_not (by simp) _, (), ?_, ?_⟩
    · rw [hdecide]
      exact hhistory
    · rw [hdecide]
      exact throwWhen_of_not (by simp [gsafe, csafe]) _
    · rw [hdecide]
      rfl
  · exact ⟨rfl, rfl, rfl⟩

end Accepted

section Outcome

variable {clock : HostClock} {todo todo' raw : Fields} {s : Submission}
  {plan : MonitorMetadataPlan} {r : Observed}

private theorem lookup_optional (present : Prop) [Decidable present] (key field : String)
    (value : Json) : (if present then [(key, value)] else []).lookup field =
      if present ∧ field = key then some value else none := by
  by_cases hpresent : present
  · rw [if_pos hpresent, lookup_cons_ite, List.lookup_nil]
    simp only [hpresent, true_and]
  · rw [if_neg hpresent, List.lookup_nil, if_neg (fun h => hpresent h.1)]

/-- The metadata of a new observation, field by field. -/
def observedField (r : Observed) (noChange generation : Nat) (field : String) : Option String :=
  if field = "last_checked_at" then some r.generatedAt
  else if field = "result_hash" then some r.resultHash
  else if field = "consecutive_no_change" then some noChange.repr
  else if field = "material_change" then some (boolText r.material)
  else if field = "material_change_generation" then some generation.repr
  else if field = "monitor_effect_id" then textOrNull r.effectId
  else if field = "target_key" then textOrNull r.target
  else if field = "cadence" then textOrNull r.cadence
  else if field = "next_due_at" then r.due
  else none

theorem lookup_observedMetadata (noChange generation : Nat) (field : String) :
    (observedMetadata r noChange generation).lookup field =
      (observedField r noChange generation field).map Json.string := by
  have hnull : ∀ text : String, (textOrNull text).map Json.string =
      if text ≠ "" then some (.string text) else none := by
    intro text
    by_cases htext : text = ""
    · simp [textOrNull, htext]
    · simp [textOrNull, htext]
  unfold observedMetadata observedField
  simp only [List.lookup_append, lookup_optional, lookup_cons_ite, List.lookup_nil,
    apply_ite (Option.map Json.string), hnull, Option.map_some, Option.map_none]
  by_cases hmem : field ∈ ["last_checked_at", "result_hash", "consecutive_no_change",
      "material_change", "material_change_generation", "monitor_effect_id", "target_key",
      "cadence", "next_due_at"]
  · simp only [List.mem_cons, List.not_mem_nil, or_false] at hmem
    rcases hmem with rfl | rfl | rfl | rfl | rfl | rfl | rfl | rfl | rfl <;>
      cases r.due <;> simp [lookup_cons_ite]
  · simp only [List.mem_cons, List.not_mem_nil, or_false, not_or] at hmem
    cases r.due <;> simp [hmem, lookup_cons_ite]

/-- An accepted writeback: the poll behind it, and every field of the Todo after it. -/
structure Stepped (clock : HostClock) (todo todo' : Fields) (s : Submission)
    (plan : MonitorMetadataPlan) (raw : Fields) (t : MonitorTransition) (r : Observed) (g c : Nat) :
    Prop extends Polled clock todo s.observation s.reactivate raw t r g c where
  transition : plan.transition = some t
  checks : ∀ field ∈ checkOrder,
    checkPresent clock field ((normalFields raw).lookup field) = .ok ()
  filled : plan.metadata = normalFields raw ∨
    (nullish ((normalFields raw).lookup "next_due_at") = true ∧
      nullish ((normalFields raw).lookup "cadence") = false ∧
      ∃ due, plan.metadata = setKey (normalFields raw) "next_due_at" (.string due))
  bounded : checkBounded (s.request todo) todo plan.metadata = .ok ()
  reason : ∃ reason, optionalNonEmptyString (s.observation.lookup "reason_summary")
    "reason_summary" = .ok reason
  merged : ∀ field ∉ stampFields, todo'.lookup field = mergedField todo plan.metadata field

theorem writeback_stepped (h : writeback clock todo s = .ok (todo', plan)) :
    ∃ raw t r g c, Stepped clock todo todo' s plan raw t r g c := by
  obtain ⟨hplan, hreason, hmerged⟩ := writeback_eq_ok h
  obtain ⟨raw, t, hpoll, hchecks, hfill, hbounded, htransition⟩ := plan_eq_ok.1 hplan
  obtain ⟨r, g, c, hpolled⟩ := poll_eq_ok hpoll
  have hfilled := fillDue_eq_ok hfill
  have hnodup : (keys plan.metadata).Nodup := by
    rcases hfilled with heq | ⟨-, -, due, heq⟩
    · rw [heq]
      exact nodup_keys_normalFields raw
    · rw [heq]
      exact nodup_keys_setKey (nodup_keys_normalFields raw) _ _
  exact ⟨raw, t, r, g, c, {
    toPolled := hpolled
    transition := htransition
    checks := checkAll_eq_ok.1 hchecks
    filled := hfilled
    bounded := hbounded
    reason := hreason
    merged := hmerged hnodup }⟩

theorem lookup_replayMetadata (todo : Fields) (field : String) :
    (replayMetadata todo).lookup field = if field ∈ MONITOR_METADATA_FIELDS then
      (todo.lookup field).filter (· ≠ .null) else none := by
  have hpicks : replayMetadata todo = MONITOR_METADATA_FIELDS.filterMap fun k =>
      ((todo.lookup k).filter (· ≠ .null)).map fun value => (k, value) := by
    unfold replayMetadata
    congr 1
    funext k
    cases todo.lookup k with
    | none => rfl
    | some value => cases value <;> rfl
  rw [hpicks, lookup_filterMap_key]

theorem text_replayMetadata (todo : Fields) {field : String}
    (hfield : field ∈ MONITOR_METADATA_FIELDS) :
    text ((replayMetadata todo).lookup field) = text (todo.lookup field) := by
  rw [lookup_replayMetadata, if_pos hfield]
  cases todo.lookup field with
  | none => rfl
  | some value => cases value <;> rfl

theorem replayMetadata_ne_null (todo : Fields) (field : String) :
    (replayMetadata todo).lookup field ≠ some .null := by
  rw [lookup_replayMetadata]
  split
  · cases todo.lookup field with
    | none => simp
    | some value => cases value <;> simp [Option.filter]
  · simp

private theorem observedMetadata_ne_null (n g : Nat) (field : String) :
    (observedMetadata r n g).lookup field ≠ some .null := by
  rw [lookup_observedMetadata]
  cases observedField r n g field <;> simp

theorem lookup_normalFields_of_ne_null {field : String} (hfield : field ∈ MONITOR_METADATA_FIELDS)
    (hnull : raw.lookup field ≠ some .null) :
    (normalFields raw).lookup field = if text (raw.lookup field) = "" then none
      else some (.string (text (raw.lookup field))) := by
  rw [lookup_normalFields, if_pos hfield]
  cases hvalue : raw.lookup field with
  | none => rfl
  | some value =>
    cases value with
    | null => exact absurd hvalue hnull
    | _ => rfl

namespace Stepped

variable {t : MonitorTransition} {g c : Nat} (h : Stepped clock todo todo' s plan raw t r g c)
include h

theorem raw_ne_null (field : String) : raw.lookup field ≠ some .null := by
  rw [h.metadata]
  split
  · exact replayMetadata_ne_null todo field
  · exact observedMetadata_ne_null _ _ field

theorem lookup_metadata {field : String} (hdue : field ≠ "next_due_at") :
    plan.metadata.lookup field = (normalFields raw).lookup field := by
  rcases h.filled with heq | ⟨-, -, due, heq⟩
  · rw [heq]
  · rw [heq, lookup_setKey, if_neg hdue]

private theorem lookup_of_metadata {field : String} (hfield : field ∈ MONITOR_METADATA_FIELDS)
    (hmetadata : plan.metadata.lookup field = (normalFields raw).lookup field) :
    todo'.lookup field = if text (raw.lookup field) = "" then todo.lookup field
      else some (storedValue field (.string (text (raw.lookup field)))) := by
  rw [h.merged field (not_mem_stampFields hfield), mergedField, hmetadata,
    lookup_normalFields_of_ne_null hfield (h.raw_ne_null field)]
  by_cases hempty : text (raw.lookup field) = ""
  · simp only [if_pos hempty]
  · simp only [if_neg hempty]

/-- Outside the due time, the Todo takes what the poll hands over and keeps the rest. -/
theorem lookup_field {field : String} (hfield : field ∈ MONITOR_METADATA_FIELDS)
    (hdue : field ≠ "next_due_at") :
    todo'.lookup field = if text (raw.lookup field) = "" then todo.lookup field
      else some (storedValue field (.string (text (raw.lookup field)))) :=
  h.lookup_of_metadata hfield (h.lookup_metadata hdue)

/-- The due time too, when the plan has one with its cadence. -/
theorem lookup_due (hkept : text (raw.lookup "cadence") ≠ "" →
    text (raw.lookup "next_due_at") ≠ "") :
    todo'.lookup "next_due_at" = if text (raw.lookup "next_due_at") = "" then
      todo.lookup "next_due_at" else some (.string (text (raw.lookup "next_due_at"))) := by
  refine h.lookup_of_metadata (by decide) ?_
  rcases h.filled with heq | ⟨hdue, hcadence, -⟩
  · rw [heq]
  · rw [lookup_normalFields_of_ne_null (by decide) (h.raw_ne_null _)] at hdue hcadence
    by_cases hempty : text (raw.lookup "cadence") = ""
    · rw [if_pos hempty] at hcadence
      cases hcadence
    · rw [if_neg (hkept hempty)] at hdue
      cases hdue

theorem lookup_frame {field : String} (hfield : field ∉ MONITOR_METADATA_FIELDS)
    (hstamp : field ∉ stampFields) : todo'.lookup field = todo.lookup field := by
  have hdue : field ≠ "next_due_at" := by
    rintro rfl
    exact hfield (by decide)
  rw [h.merged field hstamp, mergedField, h.lookup_metadata hdue, lookup_normalFields,
    if_neg hfield]

theorem text_field {field : String} (hfield : field ∈ MONITOR_METADATA_FIELDS)
    (hdue : field ≠ "next_due_at") (hgeneration : field ≠ "material_change_generation") :
    text (todo'.lookup field) = if text (raw.lookup field) = "" then text (todo.lookup field)
      else text (raw.lookup field) := by
  rw [h.lookup_field hfield hdue]
  by_cases hempty : text (raw.lookup field) = ""
  · simp only [if_pos hempty]
  · simp only [if_neg hempty, storedValue, if_neg hgeneration, text_text]

end Stepped

end Outcome

end Loopx.Todos
