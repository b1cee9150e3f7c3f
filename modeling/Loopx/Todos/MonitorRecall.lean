/- GID: Loopx/Todos/MonitorRecall
   generality: I
   source: loopx/control_plane/todos/monitor_metadata.ts
   digest: Counters and check times after a step, and when a repeated observation is a replay. -/

import Loopx.Todos.MonitorSteps

set_option autoImplicit false
set_option relaxedAutoImplicit false

namespace Loopx.Todos

open Loopx.Lib.KeyedList
open Loopx.Lib.Fallible (bind_eq_ok ok_bind throwWhen throwWhen_eq_ok throwWhen_of_not)
open Loopx.Json (JsNumber)
open Loopx.Authority (trim)
open Loopx.Scheduler (HostClock)

namespace Stepped

variable {clock : HostClock} {todo todo' raw : Fields} {s : Submission}
  {plan : MonitorMetadataPlan} {r : Observed} {t : MonitorTransition} {g c : Nat}
  (h : Stepped clock todo todo' s plan raw t r g c)
include h

theorem text_raw_of_replay (replay : isReplay todo s.observation = true) (field : String)
    (hfield : field ∈ MONITOR_METADATA_FIELDS) :
    text (raw.lookup field) = text (todo.lookup field) := by
  rw [h.metadata, if_pos replay, text_replayMetadata todo hfield]

theorem lookup_raw_of_new (new : isReplay todo s.observation = false) (field : String) :
    raw.lookup field = (observedField r (nextNoChange todo s.observation c)
      (nextGeneration todo s.observation s.reactivate g) field).map Json.string := by
  rw [h.metadata, if_neg (by simp [new]), lookup_observedMetadata]

/-- A replay leaves the text of every field but the generation's as it was. -/
theorem text_of_replay (replay : isReplay todo s.observation = true) (field : String)
    (hfield : field ∈ MONITOR_METADATA_FIELDS) (hdue : field ≠ "next_due_at")
    (hgeneration : field ≠ "material_change_generation") :
    text (todo'.lookup field) = text (todo.lookup field) := by
  rw [h.text_field hfield hdue hgeneration, h.text_raw_of_replay replay field hfield]
  split
  · rfl
  · rfl

theorem text_of_new (new : isReplay todo s.observation = false) (field value : String)
    (hfield : field ∈ MONITOR_METADATA_FIELDS) (hdue : field ≠ "next_due_at")
    (hgeneration : field ≠ "material_change_generation")
    (hvalue : observedField r (nextNoChange todo s.observation c)
      (nextGeneration todo s.observation s.reactivate g) field = some value)
    (hstable : text (some (.string value)) = value) (hpresent : value ≠ "") :
    todo'.lookup field = some (.string value) := by
  have hraw : text (raw.lookup field) = value := by
    rw [h.lookup_raw_of_new new, hvalue, Option.map_some, hstable]
  rw [h.lookup_field hfield hdue, hraw, if_neg hpresent, storedValue, if_neg hgeneration]

theorem generatedAt_ne_empty : r.generatedAt ≠ "" := by
  intro hempty
  have hparse := h.reads.observedAt
  have hnone : parseTodoTimestampMicros "" = none := by decide
  rw [hempty, hnone] at hparse
  cases hparse

theorem checkField_of_written (field : String) (hfield : field ∈ MONITOR_METADATA_FIELDS)
    (hchecked : field ∈ checkOrder) (hpresent : text (raw.lookup field) ≠ "") :
    checkField clock field (text (raw.lookup field)) = .ok () := by
  have hcheck := h.checks field hchecked
  rwa [lookup_normalFields_of_ne_null hfield (h.raw_ne_null field), if_neg hpresent] at hcheck

end Stepped

theorem repr_ne_empty (n : Nat) : n.repr ≠ "" := by
  intro hempty
  have hlist := congrArg String.toList hempty
  rw [Nat.toList_repr] at hlist
  exact Nat.toDigits_ne_nil hlist

/-- A counter text that passes its check is one the counter reads, and the number it is kept as. -/
private theorem counter_of_check {clock : HostClock} {value : Option Json} {field : String}
    (hfield : field ∈ ["consecutive_no_change", "material_change_generation"])
    (hcheck : checkField clock field (text value) = .ok ()) :
    ∃ n ≤ JsNumber.maxSafeInteger, counter value = .ok n ∧
      numberOf (.string (text value)) = .number (JsNumber.ofNat n) := by
  have hrule : checkField clock field (text value) =
      (signedDigits? (text value)).elim (.error (flag field ++ " must be an integer"))
        (fun signed =>
          throwWhen (JsNumber.maxSafeInteger < signed.2 ∨ (signed.1 ∧ 0 < signed.2))
            (flag field ++ " must be a non-negative safe integer")) := by
    simp only [List.mem_cons, List.not_mem_nil, or_false] at hfield
    rcases hfield with rfl | rfl
    · rw [checkField, if_neg (by decide), if_neg (by decide), if_pos (by decide)]
      cases signedDigits? (text value) <;> rfl
    · rw [checkField, if_neg (by decide), if_neg (by decide), if_pos (by decide)]
      cases signedDigits? (text value) <;> rfl
  rw [hrule] at hcheck
  rw [counter, numberOf, text_text]
  cases hdigits : signedDigits? (text value) with
  | none =>
    rw [hdigits] at hcheck
    cases hcheck
  | some signed =>
    obtain ⟨negative, magnitude⟩ := signed
    rw [hdigits] at hcheck
    have hbounds := not_or.mp (throwWhen_eq_ok.mp hcheck)
    have hsafe := Nat.not_lt.mp hbounds.1
    cases negative with
    | false => exact ⟨magnitude, hsafe, if_neg hbounds.1, rfl⟩
    | true =>
      obtain rfl : magnitude = 0 := by simpa using hbounds.2
      exact ⟨0, hsafe, if_neg hbounds.1, rfl⟩

namespace Stepped

variable {clock : HostClock} {todo todo' raw : Fields} {s : Submission}
  {plan : MonitorMetadataPlan} {r : Observed} {t : MonitorTransition} {g c : Nat}
  (h : Stepped clock todo todo' s plan raw t r g c)
include h

theorem lookup_generation :
    todo'.lookup "material_change_generation" = todo.lookup "material_change_generation" ∧
      text (todo.lookup "material_change_generation") = "" ∧
      isReplay todo s.observation = true ∨
    todo'.lookup "material_change_generation" =
      some (.number (JsNumber.ofNat (nextGeneration todo s.observation s.reactivate g))) := by
  have hlookup := h.lookup_field
    (by decide : "material_change_generation" ∈ MONITOR_METADATA_FIELDS) (by decide)
  cases hreplay : isReplay todo s.observation with
  | true =>
    have hraw := h.text_raw_of_replay hreplay "material_change_generation" (by decide)
    have hsame : nextGeneration todo s.observation s.reactivate g = g := by
      simp [nextGeneration, raises, hreplay]
    by_cases hempty : text (todo.lookup "material_change_generation") = ""
    · rw [hraw, if_pos hempty] at hlookup
      exact Or.inl ⟨hlookup, hempty, rfl⟩
    · have hcheck := h.checkField_of_written "material_change_generation" (by decide)
        (by decide) (by rwa [hraw])
      rw [hraw] at hcheck
      obtain ⟨n, -, hcounter, hnumber⟩ := counter_of_check (by decide) hcheck
      obtain rfl : n = g := Except.ok.inj (hcounter.symm.trans h.generation)
      rw [hraw, if_neg hempty, storedValue, if_pos rfl, hnumber] at hlookup
      exact Or.inr (by rw [hlookup, hsame])
  | false =>
    rw [h.lookup_raw_of_new hreplay] at hlookup
    right
    have hvalue : observedField r (nextNoChange todo s.observation c)
        (nextGeneration todo s.observation s.reactivate g) "material_change_generation" =
        some (nextGeneration todo s.observation s.reactivate g).repr := rfl
    rw [hvalue, Option.map_some, text_repr, if_neg (repr_ne_empty _), storedValue, if_pos rfl,
      numberOf_repr] at hlookup
    exact hlookup

/-- The generation after the step. -/
theorem generation_after : counter (todo'.lookup "material_change_generation") =
    .ok (nextGeneration todo s.observation s.reactivate g) := by
  rcases h.lookup_generation with ⟨hsame, -, hreplay⟩ | hnumber
  · rw [hsame, h.generation]
    simp [nextGeneration, raises, hreplay]
  · rw [hnumber, counter_ofNat h.generation_safe]

/-- The no-change counter after the step. -/
theorem noChange_after : counter (todo'.lookup "consecutive_no_change") =
    .ok (nextNoChange todo s.observation c) := by
  cases hreplay : isReplay todo s.observation with
  | true =>
    have htext := h.text_of_replay hreplay "consecutive_no_change" (by decide)
      (by decide) (by decide)
    have hcounter : counter (todo'.lookup "consecutive_no_change") =
        counter (todo.lookup "consecutive_no_change") := by
      rw [← counter_text, htext, counter_text]
    rw [hcounter, h.noChange]
    simp [nextNoChange, hreplay]
  | false =>
    have hlookup := h.text_of_new hreplay "consecutive_no_change"
      (nextNoChange todo s.observation c).repr (by decide) (by decide) (by decide) rfl
      (text_repr _) (repr_ne_empty _)
    rw [hlookup, counter_repr h.noChange_safe]

/-- The time of the last check does not move back. -/
theorem checked_after {persistedAt : Int}
    (hpersisted : timestampOrNull (todo.lookup "last_checked_at") = some persistedAt) :
    ∃ checkedAt, timestampOrNull (todo'.lookup "last_checked_at") = some checkedAt ∧
      persistedAt ≤ checkedAt := by
  cases hreplay : isReplay todo s.observation with
  | true =>
    have htext := h.text_of_replay hreplay "last_checked_at" (by decide) (by decide)
      (by decide)
    exact ⟨persistedAt, by rw [timestampOrNull, htext]; exact hpersisted, le_rfl⟩
  | false =>
    have hstable : text (some (.string r.generatedAt)) = r.generatedAt := by
      rw [h.reads.generatedAt, text_text]
    have hlookup := h.text_of_new hreplay "last_checked_at" r.generatedAt
      (by decide) (by decide) (by decide) rfl hstable h.generatedAt_ne_empty
    refine ⟨r.observedAt, ?_, ?_⟩
    · rw [timestampOrNull, hlookup, hstable]
      exact h.reads.observedAt
    · have hhistory := h.history
      rw [hreplay] at hhistory
      simp only [checkHistory, Bool.false_eq_true, if_false, hpersisted] at hhistory
      have hnewer := not_or.mp (throwWhen_eq_ok.mp hhistory)
      exact Int.not_lt.mp hnewer.1

end Stepped

section Due

/-- The due time an observation names itself, trimmed. -/
def explicitDue (observation : Fields) : String :=
  match observation.lookup "next_due_at" with
  | some (.string due) => trim due
  | _ => ""

variable {clock : HostClock} {generatedAt cadence : String} {planned : MonitorSchedule}

/-- Where a due time comes from: the observation, or the cadence, or nowhere. -/
private theorem schedule_cases {explicit : Option Json}
    (h : schedule clock generatedAt cadence explicit = .ok planned) :
    ∃ due, optionalRequestString explicit "explicit_next_due_at" = .ok due ∧
      (due ≠ "" ∧ planned = ⟨some due, monitorCadenceSeconds cadence⟩ ∨
        due = "" ∧ monitorCadenceSeconds cadence = none ∧ planned = ⟨none, none⟩ ∨
        due = "" ∧ ∃ seconds milliseconds derived, monitorCadenceSeconds cadence = some seconds ∧
          monitorScheduleTimestamp milliseconds = some derived ∧
          planned = ⟨some derived, some seconds⟩) := by
  unfold schedule at h
  obtain ⟨due, hdue, h⟩ := bind_eq_ok.mp h
  refine ⟨due, hdue, ?_⟩
  by_cases hempty : due = ""
  · rw [if_neg (not_not.mpr hempty)] at h
    split at h
    · rename_i hnone
      exact Or.inr (Or.inl ⟨hempty, hnone, (Except.ok.inj h).symm⟩)
    · rename_i seconds hseconds
      split at h
      · cases h
      · rename_i milliseconds hms
        split at h
        · cases h
        · rename_i derived hderived
          exact Or.inr (Or.inr ⟨hempty, seconds, _, derived, hseconds, hderived,
            (Except.ok.inj h).symm⟩)
  · rw [if_pos hempty] at h
    split at h
    · cases h
    · exact Or.inl ⟨hempty, (Except.ok.inj h).symm⟩

private theorem explicitDue_of_ok {observation : Fields} {due : String}
    (h : optionalRequestString (observation.lookup "next_due_at") "explicit_next_due_at" =
      .ok due) : explicitDue observation = due := by
  unfold optionalRequestString at h
  unfold explicitDue
  split at h
  · rename_i hvalue
    simp [hvalue, Except.ok.inj h]
  · rename_i hvalue
    simp [hvalue, Except.ok.inj h]
  · rename_i hvalue
    simp [hvalue, Except.ok.inj h]
  · cases h

private def Spaceless (s : String) : Prop := ∀ c ∈ s.toList, isPythonSpace c = false

private theorem Spaceless.append {a b : String} (ha : Spaceless a) (hb : Spaceless b) :
    Spaceless (a ++ b) := by
  intro c hc
  rw [String.toList_append, List.mem_append] at hc
  rcases hc with hc | hc
  · exact ha c hc
  · exact hb c hc

private theorem spaceless_padded (width n : Nat) : Spaceless (padded width n) := by
  intro c hc
  rw [padded, String.toList_ofList, List.mem_append] at hc
  rcases hc with hc | hc
  · rw [List.eq_of_mem_replicate hc]
    decide
  · exact isPythonSpace_of_isDigit (Loopx.Lib.Decimal.isDigit_toDigits hc)

private theorem strip_of_spaceless {s : String} (h : Spaceless s) : stripPythonWhitespace s = s := by
  rw [stripPythonWhitespace, Loopx.Lib.Strip.stripEnds_of_forall h, String.ofList_toList]

private theorem spaceless_isoText (year : Int) (month day ofDay : Nat) :
    Spaceless (isoText year month day ofDay) := by
  have hmark : ∀ mark ∈ ["-", "+", "T", ":", ".", "Z", ""], Spaceless mark := by
    have hmarks : ["-", "+", "T", ":", ".", "Z", ""].all
        (fun mark => mark.toList.all (fun c => !isPythonSpace c)) = true := by decide
    intro mark hmark c hc
    exact Bool.not_eq_true' _ ▸ List.all_eq_true.mp (List.all_eq_true.mp hmarks mark hmark) c hc
  unfold isoText
  refine Spaceless.append (Spaceless.append (Spaceless.append (Spaceless.append (Spaceless.append
    (Spaceless.append (Spaceless.append (Spaceless.append (Spaceless.append (Spaceless.append
    (Spaceless.append (Spaceless.append ?_ ?_) ?_) ?_) ?_) ?_) ?_) ?_) ?_) ?_) ?_) ?_) ?_
  · split
    · exact spaceless_padded _ _
    · refine Spaceless.append ?_ (spaceless_padded _ _)
      split
      · exact hmark "-" (by simp)
      · exact hmark "+" (by simp)
  · exact hmark "-" (by simp)
  · exact spaceless_padded _ _
  · exact hmark "-" (by simp)
  · exact spaceless_padded _ _
  · exact hmark "T" (by simp)
  · exact spaceless_padded _ _
  · exact hmark ":" (by simp)
  · exact spaceless_padded _ _
  · exact hmark ":" (by simp)
  · exact spaceless_padded _ _
  · split
    · exact hmark "" (by simp)
    · exact (hmark "." (by simp)).append (spaceless_padded _ _)
  · exact hmark "Z" (by simp)

private theorem isoText_ne_empty (year : Int) (month day ofDay : Nat) :
    isoText year month day ofDay ≠ "" := by
  intro hempty
  have hlist := congrArg String.toList hempty
  rw [isoText, String.toList_append] at hlist
  exact absurd hlist (by simp)

/-- A derived due time is printed, and without white space. -/
private theorem strip_scheduleTimestamp {milliseconds : Int} {due : String}
    (h : monitorScheduleTimestamp milliseconds = some due) :
    stripPythonWhitespace due = due ∧ due ≠ "" := by
  unfold monitorScheduleTimestamp at h
  split at h
  · cases h
  · rw [← Option.some.inj h]
    exact ⟨strip_of_spaceless (spaceless_isoText _ _ _ _), isoText_ne_empty _ _ _ _⟩

/-- A planned due time is a text, and its own text unless the observation names it padded. -/
theorem due_of_schedule {observation : Fields} {due : String}
    (h : schedule clock generatedAt cadence (observation.lookup "next_due_at") = .ok planned)
    (hdue : planned.nextDueAt = some due) :
    due ≠ "" ∧ (stripPythonWhitespace (explicitDue observation) = explicitDue observation →
      stripPythonWhitespace due = due) := by
  obtain ⟨named, hnamed, hcases⟩ := schedule_cases h
  rw [explicitDue_of_ok hnamed]
  rcases hcases with ⟨hne, rfl⟩ | ⟨-, -, rfl⟩ | ⟨-, _, _, derived, -, hderived, rfl⟩
  · obtain rfl := Option.some.inj hdue
    exact ⟨hne, id⟩
  · cases hdue
  · obtain rfl := Option.some.inj hdue
    exact ⟨(strip_scheduleTimestamp hderived).2, fun _ => (strip_scheduleTimestamp hderived).1⟩

/-- No due time means that the observation names none and the cadence gives none. -/
theorem undue_of_schedule {observation : Fields}
    (h : schedule clock generatedAt cadence (observation.lookup "next_due_at") = .ok planned)
    (hdue : planned.nextDueAt = none) :
    explicitDue observation = "" ∧ monitorCadenceSeconds cadence = none := by
  obtain ⟨named, hnamed, hcases⟩ := schedule_cases h
  rw [explicitDue_of_ok hnamed]
  rcases hcases with ⟨-, rfl⟩ | ⟨hempty, hnone, rfl⟩ | ⟨-, _, _, _, -, -, rfl⟩
  · cases hdue
  · exact ⟨hempty, hnone⟩
  · cases hdue

theorem cadenceSeconds_of_check {value : String}
    (h : checkField clock "cadence" value = .ok ()) : monitorCadenceSeconds value ≠ none := by
  have hrule : checkField clock "cadence" value =
      (schedule clock "1970-01-01T00:00:00Z" value none >>= fun planned =>
        throwWhen (planned.cadenceSeconds = none) "--cadence must look like 30m, 2h, or 1d") := by
    rw [checkField, if_pos rfl]
  rw [hrule] at h
  obtain ⟨planned, hplanned, hthrow⟩ := bind_eq_ok.mp h
  have hseconds := throwWhen_eq_ok.mp hthrow
  obtain ⟨named, -, hcases⟩ := schedule_cases hplanned
  clear hrule h hthrow hplanned
  generalize monitorCadenceSeconds value = seconds at hcases ⊢
  rcases hcases with ⟨-, rfl⟩ | ⟨-, hnone, rfl⟩ | ⟨-, _, _, _, hsome, -, rfl⟩
  · exact hseconds
  · exact absurd rfl hseconds
  · simp [hsome]

end Due

section Settled

variable {clock : HostClock} {todo todo' raw : Fields} {s : Submission}
  {plan : MonitorMetadataPlan} {r : Observed} {t : MonitorTransition} {g c : Nat}

/-- A field that a replay hands back as it stands: blank, or its own text and past its check. -/
def FieldPlain (clock : HostClock) (todo : Fields) (field : String) : Prop :=
  text (todo.lookup field) = "" ∨
    (todo.lookup field = some (.string (text (todo.lookup field))) ∧
      checkField clock field (text (todo.lookup field)) = .ok ())

/-- The same of the generation, which is kept as a number. -/
def GenerationPlain (todo : Fields) : Prop :=
  text (todo.lookup "material_change_generation") = "" ∨
    ∃ n ≤ JsNumber.maxSafeInteger,
      todo.lookup "material_change_generation" = some (.number (JsNumber.ofNat n))

/-- A Todo whose Monitor metadata a replay leaves alone. -/
structure Settled (clock : HostClock) (todo : Fields) : Prop where
  fields : ∀ field ∈ MONITOR_METADATA_FIELDS, field ≠ "material_change_generation" →
    FieldPlain clock todo field
  generation : GenerationPlain todo

theorem checkField_unchecked {field : String} (h : field ∉ checkOrder) (value : String) :
    checkField clock field value = .ok () := by
  simp only [checkOrder, List.mem_cons, List.not_mem_nil, or_false, not_or] at h
  simp [checkField, h]

private theorem checkField_generation_repr {n : Nat} (safe : n ≤ JsNumber.maxSafeInteger) :
    checkField clock "material_change_generation" n.repr = .ok () := by
  have hdigits : signedDigits? n.repr = some (false, n) := signedDigits?_repr n
  simp only [checkField, String.reduceEq, if_false, List.mem_cons, List.not_mem_nil, or_false,
    or_self, or_true, if_true, hdigits]
  exact throwWhen_of_not (by simp [safe]) _

namespace Settled

variable (h : Settled clock todo)
include h

theorem checks : checkAll clock (normalFields (replayMetadata todo)) checkOrder = .ok () := by
  rw [checkAll_eq_ok]
  intro field hchecked
  have hfield : field ∈ MONITOR_METADATA_FIELDS := by
    revert field
    decide
  have hlookup := lookup_normalFields_of_ne_null hfield (replayMetadata_ne_null todo field)
  rw [text_replayMetadata todo hfield] at hlookup
  rw [hlookup]
  by_cases hempty : text (todo.lookup field) = ""
  · rw [if_pos hempty]
    rfl
  · rw [if_neg hempty]
    change checkField clock field _ = _
    by_cases hgeneration : field = "material_change_generation"
    · subst hgeneration
      rcases h.generation with hblank | ⟨n, safe, hn⟩
      · exact absurd hblank hempty
      · rw [hn, text_ofNat safe] at hempty ⊢
        by_cases hzero : n = 0
        · exact absurd (if_pos hzero) hempty
        · rw [if_neg hzero]
          exact checkField_generation_repr safe
    · rcases h.fields field hfield hgeneration with hblank | ⟨-, hcheck⟩
      · exact absurd hblank hempty
      · exact hcheck

theorem counters : ∃ g c, counter (todo.lookup "material_change_generation") = .ok g ∧
    counter (todo.lookup "consecutive_no_change") = .ok c ∧ g ≤ JsNumber.maxSafeInteger ∧
    c ≤ JsNumber.maxSafeInteger := by
  have hgeneration : ∃ g, counter (todo.lookup "material_change_generation") = .ok g ∧
      g ≤ JsNumber.maxSafeInteger := by
    rcases h.generation with hblank | ⟨n, safe, hn⟩
    · refine ⟨0, ?_, Nat.zero_le _⟩
      rw [← counter_text, hblank]
      rfl
    · exact ⟨n, by rw [hn, counter_ofNat safe], safe⟩
  have hnoChange : ∃ c, counter (todo.lookup "consecutive_no_change") = .ok c ∧
      c ≤ JsNumber.maxSafeInteger := by
    rcases h.fields "consecutive_no_change" (by decide) (by decide) with hblank | ⟨-, hcheck⟩
    · refine ⟨0, ?_, Nat.zero_le _⟩
      rw [← counter_text, hblank]
      rfl
    · obtain ⟨c, csafe, hcounter, -⟩ := counter_of_check (by decide) hcheck
      exact ⟨c, hcounter, csafe⟩
  obtain ⟨g, hg, gsafe⟩ := hgeneration
  obtain ⟨c, hc, csafe⟩ := hnoChange
  exact ⟨g, c, hg, hc, gsafe, csafe⟩

/-- What a replay writes is what is there. -/
theorem merged {field : String} (hfield : field ∈ MONITOR_METADATA_FIELDS) :
    mergedField todo (normalFields (replayMetadata todo)) field = todo.lookup field := by
  rw [mergedField, lookup_normalFields_of_ne_null hfield (replayMetadata_ne_null todo field),
    text_replayMetadata todo hfield]
  by_cases hempty : text (todo.lookup field) = ""
  · simp only [if_pos hempty]
  · simp only [if_neg hempty]
    by_cases hgeneration : field = "material_change_generation"
    · subst hgeneration
      rcases h.generation with hblank | ⟨n, safe, hn⟩
      · exact absurd hblank hempty
      · rw [hn, text_ofNat safe] at hempty ⊢
        by_cases hzero : n = 0
        · exact absurd (if_pos hzero) hempty
        · rw [if_neg hzero, storedValue, if_pos rfl, numberOf_repr]
    · rcases h.fields field hfield hgeneration with hblank | ⟨hvalue, -⟩
      · exact absurd hblank hempty
      · rw [storedValue, if_neg hgeneration, ← hvalue]

end Settled

end Settled

section Recall

variable {clock : HostClock} {todo todo' raw : Fields} {s : Submission}
  {plan : MonitorMetadataPlan} {r : Observed} {t : MonitorTransition} {g c : Nat}

theorem conflicts_eq_nil :
    conflicts todo r = [] ↔ ∀ fact ∈ r.facts, text (todo.lookup fact.1) = fact.2 := by
  simp [conflicts, List.filter_eq_nil_iff]

/-- The Monitor passes the boundedness check of the request, if it asks for one. -/
def Bounded (s : Submission) (todo : Fields) : Prop :=
  ¬(s.enforceBoundedness = true ∧ text (todo.lookup "expires_at") = "" ∧
    text (some (s.resumeWhen.getD .null)) = "" ∧
    String.ofList ((text (todo.lookup "watch_only")).toList.map Char.toLower) ≠ "true")

theorem checkBounded_iff {metadata : Fields}
    (hexpires : text ((metadata.lookup "expires_at").or (todo.lookup "expires_at")) =
      text (todo.lookup "expires_at"))
    (hwatch : text ((metadata.lookup "watch_only").or (todo.lookup "watch_only")) =
      text (todo.lookup "watch_only")) :
    checkBounded (s.request todo) todo metadata = .ok () ↔ Bounded s todo := by
  simp only [checkBounded, lookup_request_enforce, requireBoolean, ok_bind, throwWhen_eq_ok,
    lookup_request_class, lookup_request_resume, hexpires, hwatch, Bounded, and_true]

/-- The Todo carries everything the submission reports, in the form a replay looks for. -/
structure Recalls (clock : HostClock) (todo : Fields) (s : Submission) (r : Observed) : Prop where
  reads : Reads clock todo s.observation r
  keyed : r.effectId ≠ ""
  effect : text (todo.lookup "monitor_effect_id") = r.effectId
  carries : ∀ fact ∈ r.facts, text (todo.lookup fact.1) = fact.2
  settled : Settled clock todo
  bounded : Bounded s todo
  reason : ∃ reason, optionalNonEmptyString (s.observation.lookup "reason_summary")
    "reason_summary" = .ok reason

/-- A due time goes with every cadence a replay reads. -/
theorem due_of_cadence (reads : Reads clock todo s.observation r)
    (hcheck : r.cadence ≠ "" → checkField clock "cadence" r.cadence = .ok ())
    (hcadence : r.cadence ≠ "") : ∃ due, r.due = some due ∧ due ≠ "" := by
  obtain ⟨planned, hplanned, hdue⟩ := reads.due
  cases hnone : r.due with
  | none =>
    have hundue := undue_of_schedule hplanned (hdue.trans hnone)
    exact absurd hundue.2 (cadenceSeconds_of_check (hcheck hcadence))
  | some due =>
    exact ⟨due, rfl, (due_of_schedule hplanned (hdue.trans hnone)).1⟩

/-- Submitting again what the Todo recalls is a replay that changes no metadata. -/
theorem Recalls.replay (h : Recalls clock todo s r) (hquiet : s.reactivate = false) :
    ∃ todo' plan t, writeback clock todo s = .ok (todo', plan) ∧ plan.transition = some t ∧
      t.providerReplayed = true ∧
      counter (todo.lookup "material_change_generation") = .ok t.materialChangeGeneration ∧
      counter (todo.lookup "consecutive_no_change") = .ok t.consecutiveNoChange ∧
      ∀ field ∈ MONITOR_METADATA_FIELDS, todo'.lookup field = todo.lookup field := by
  obtain ⟨g, c, hg, hc, gsafe, csafe⟩ := h.settled.counters
  have hreplay : isReplay todo s.observation = true := by
    simp only [isReplay, ← h.reads.effectId, h.effect, decide_eq_true_eq]
    exact ⟨h.keyed, trivial⟩
  obtain ⟨t, hpoll, hreplayed, hgeneration, hnoChange⟩ :=
    poll_of_replay h.reads hreplay (conflicts_eq_nil.2 h.carries) hg hc gsafe csafe
  have hlookup : ∀ field ∈ MONITOR_METADATA_FIELDS,
      (normalFields (replayMetadata todo)).lookup field = if text (todo.lookup field) = "" then none
        else some (.string (text (todo.lookup field))) := by
    intro field hfield
    rw [lookup_normalFields_of_ne_null hfield (replayMetadata_ne_null todo field),
      text_replayMetadata todo hfield]
  have hcarried : text (todo.lookup "cadence") = r.cadence :=
    h.carries ("cadence", r.cadence) (by simp [Observed.facts])
  have hdue : text (todo.lookup "next_due_at") = r.due.getD "" :=
    h.carries ("next_due_at", r.due.getD "") (by simp [Observed.facts])
  have hfill : fillDue clock (s.request todo) (normalFields (replayMetadata todo)) =
      .ok (normalFields (replayMetadata todo)) := by
    apply fillDue_of_kept
    rw [hlookup _ (by decide), hlookup _ (by decide)]
    intro hcadence
    have hpresent : text (todo.lookup "cadence") ≠ "" := by
      intro hempty
      rw [if_pos hempty] at hcadence
      cases hcadence
    have hcheck : r.cadence ≠ "" → checkField clock "cadence" r.cadence = .ok () := by
      intro _
      rcases h.settled.fields "cadence" (by decide) (by decide) with hblank | ⟨-, hcheck⟩
      · exact absurd hblank hpresent
      · rwa [hcarried] at hcheck
    obtain ⟨due, hsome, hne⟩ := due_of_cadence h.reads hcheck (hcarried ▸ hpresent)
    rw [hdue, hsome, Option.getD_some, if_neg hne]
    rfl
  have htext : ∀ field ∈ MONITOR_METADATA_FIELDS,
      text (((normalFields (replayMetadata todo)).lookup field).or (todo.lookup field)) =
        text (todo.lookup field) := by
    intro field hfield
    rw [hlookup field hfield]
    by_cases hempty : text (todo.lookup field) = ""
    · rw [if_pos hempty, Option.none_or]
    · rw [if_neg hempty, Option.some_or, text_text]
  have hbounded : checkBounded (s.request todo) todo (normalFields (replayMetadata todo)) =
      .ok () :=
    (checkBounded_iff (htext _ (by decide)) (htext _ (by decide))).mpr h.bounded
  have hplan : planMonitorMetadata clock (some (.object (s.request todo))) =
      .ok ⟨normalFields (replayMetadata todo), some t⟩ := by
    refine plan_eq_ok.mpr ⟨replayMetadata todo, t, ?_, h.settled.checks, hfill, hbounded, rfl⟩
    rw [hquiet]
    exact hpoll
  obtain ⟨todo', hwriteback⟩ := writeback_of_plan hplan h.reason
  refine ⟨todo', _, t, hwriteback, rfl, hreplayed, by rw [hgeneration, hg], by rw [hnoChange, hc],
    ?_⟩
  intro field hfield
  rw [(writeback_eq_ok hwriteback).2.2 (nodup_keys_normalFields _) field
    (not_mem_stampFields hfield)]
  exact h.settled.merged hfield

end Recall

end Loopx.Todos
