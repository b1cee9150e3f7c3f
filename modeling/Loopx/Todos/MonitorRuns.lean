/- GID: Loopx/Todos/MonitorRuns
   generality: I
   source: loopx/control_plane/todos/monitor_metadata.ts
   digest: Runs of observations on one Monitor: counters, order of checks, and replays. -/

import Loopx.Todos.MonitorRecall

set_option autoImplicit false
set_option relaxedAutoImplicit false

namespace Loopx.Todos

open Loopx.Lib.KeyedList
open Loopx.Lib.Fallible (throwWhen_eq_ok)
open Loopx.Json (JsNumber)
open Loopx.Scheduler (HostClock)

private theorem text_textOrNull {s : String} (h : ∃ value, s = text value) :
    text ((textOrNull s).map Json.string) = s := by
  obtain ⟨value, rfl⟩ := h
  by_cases hempty : text value = ""
  · rw [textOrNull, if_pos hempty, hempty]
    rfl
  · rw [textOrNull, if_neg hempty, Option.map_some, text_text]

private theorem text_boolText (b : Bool) : text (some (.string (boolText b))) = boolText b := by
  revert b
  decide

private theorem boolText_ne_empty (b : Bool) : boolText b ≠ "" := by
  revert b
  decide

namespace Stepped

variable {clock : HostClock} {todo todo' raw : Fields} {s : Submission}
  {plan : MonitorMetadataPlan} {r : Observed} {t : MonitorTransition} {g c : Nat}
  (h : Stepped clock todo todo' s plan raw t r g c)
include h

theorem target_eq : ∃ value, r.target = text value := by
  rw [h.reads.target]
  split
  · exact ⟨_, rfl⟩
  · exact ⟨_, rfl⟩

theorem cadence_eq : ∃ value, r.cadence = text value := by
  rw [h.reads.cadence, cadenceText]
  split
  · exact ⟨_, rfl⟩
  · exact ⟨_, rfl⟩

theorem raw_effect (new : isReplay todo s.observation = false) :
    text (raw.lookup "monitor_effect_id") = r.effectId := by
  rw [h.lookup_raw_of_new new]
  exact text_textOrNull ⟨_, h.reads.effectId⟩

theorem raw_target (new : isReplay todo s.observation = false) :
    text (raw.lookup "target_key") = r.target := by
  rw [h.lookup_raw_of_new new]
  exact text_textOrNull h.target_eq

theorem raw_cadence (new : isReplay todo s.observation = false) :
    text (raw.lookup "cadence") = r.cadence := by
  rw [h.lookup_raw_of_new new]
  exact text_textOrNull h.cadence_eq

theorem raw_due (new : isReplay todo s.observation = false) :
    text (raw.lookup "next_due_at") = text (r.due.map Json.string) := by
  rw [h.lookup_raw_of_new new]
  rfl

theorem raw_hash (new : isReplay todo s.observation = false) :
    text (raw.lookup "result_hash") = r.resultHash := by
  have hfield : observedField r (nextNoChange todo s.observation c)
      (nextGeneration todo s.observation s.reactivate g) "result_hash" = some r.resultHash := rfl
  rw [h.lookup_raw_of_new new, hfield, h.reads.resultHash, Option.map_some, text_text]

theorem raw_checked (new : isReplay todo s.observation = false) :
    text (raw.lookup "last_checked_at") = r.generatedAt := by
  have hfield : observedField r (nextNoChange todo s.observation c)
      (nextGeneration todo s.observation s.reactivate g) "last_checked_at" =
      some r.generatedAt := rfl
  rw [h.lookup_raw_of_new new, hfield, h.reads.generatedAt, Option.map_some, text_text]

theorem raw_material (new : isReplay todo s.observation = false) :
    text (raw.lookup "material_change") = boolText r.material := by
  have hfield : observedField r (nextNoChange todo s.observation c)
      (nextGeneration todo s.observation s.reactivate g) "material_change" =
      some (boolText r.material) := rfl
  rw [h.lookup_raw_of_new new, hfield, Option.map_some, text_boolText]

theorem raw_noChange (new : isReplay todo s.observation = false) :
    text (raw.lookup "consecutive_no_change") = (nextNoChange todo s.observation c).repr := by
  have hfield : observedField r (nextNoChange todo s.observation c)
      (nextGeneration todo s.observation s.reactivate g) "consecutive_no_change" =
      some (nextNoChange todo s.observation c).repr := rfl
  rw [h.lookup_raw_of_new new, hfield, Option.map_some, text_repr]

/-- A cadence that passes its check gives a due time. -/
theorem due_of_raw_cadence (hraw : text (raw.lookup "cadence") = r.cadence)
    (hcadence : r.cadence ≠ "") : ∃ due, r.due = some due ∧ due ≠ "" := by
  refine due_of_cadence h.reads (fun _ => ?_) hcadence
  have hcheck := h.checkField_of_written "cadence" (by decide) (by decide) (by rwa [hraw])
  rwa [hraw] at hcheck

/-- The Todo takes the text of every field the poll hands over, and keeps the others. -/
theorem text_after (hkept : text (raw.lookup "cadence") ≠ "" →
    text (raw.lookup "next_due_at") ≠ "") {field : String}
    (hfield : field ∈ MONITOR_METADATA_FIELDS) (hgeneration : field ≠ "material_change_generation") :
    text (todo'.lookup field) = if text (raw.lookup field) = "" then text (todo.lookup field)
      else text (raw.lookup field) := by
  by_cases hdue : field = "next_due_at"
  · subst hdue
    rw [h.lookup_due hkept]
    by_cases hempty : text (raw.lookup "next_due_at") = ""
    · simp only [if_pos hempty]
    · simp only [if_neg hempty, text_text]
  · exact h.text_field hfield hdue hgeneration

/-- After the step a replay finds nothing to normalize, if it would not on what the step kept. -/
theorem settled_after (hkept : text (raw.lookup "cadence") ≠ "" →
    text (raw.lookup "next_due_at") ≠ "")
    (hplain : ∀ field ∈ MONITOR_METADATA_FIELDS, field ≠ "material_change_generation" →
      text (raw.lookup field) = "" → FieldPlain clock todo field) : Settled clock todo' := by
  constructor
  · intro field hfield hgeneration
    have hlookup : todo'.lookup field = if text (raw.lookup field) = "" then todo.lookup field
        else some (.string (text (raw.lookup field))) := by
      by_cases hdue : field = "next_due_at"
      · subst hdue
        exact h.lookup_due hkept
      · rw [h.lookup_field hfield hdue, storedValue, if_neg hgeneration]
    unfold FieldPlain
    by_cases hempty : text (raw.lookup field) = ""
    · rw [hlookup, if_pos hempty]
      exact hplain field hfield hgeneration hempty
    · rw [hlookup, if_neg hempty, text_text]
      refine Or.inr ⟨rfl, ?_⟩
      by_cases hchecked : field ∈ checkOrder
      · exact h.checkField_of_written field hfield hchecked hempty
      · exact checkField_unchecked hchecked _
  · rcases h.lookup_generation with ⟨hsame, hblank, -⟩ | hnumber
    · exact Or.inl (by rw [hsame, hblank])
    · exact Or.inr ⟨_, h.generation_safe, hnumber⟩

/-- The metadata leaves the two fields of the boundedness check alone. -/
theorem text_unobserved {field : String}
    (hfield : field ∈ ["expires_at", "watch_only", "max_no_change_before_replan"]) :
    text (raw.lookup field) = "" ∨ text (raw.lookup field) = text (todo.lookup field) := by
  cases hreplay : isReplay todo s.observation with
  | true =>
    right
    apply h.text_raw_of_replay hreplay
    revert field
    decide
  | false =>
    left
    rw [h.lookup_raw_of_new hreplay]
    simp only [List.mem_cons, List.not_mem_nil, or_false] at hfield
    rcases hfield with rfl | rfl | rfl <;> rfl

theorem bounded_before : Bounded s todo := by
  have htext : ∀ field ∈ ["expires_at", "watch_only"],
      text ((plan.metadata.lookup field).or (todo.lookup field)) = text (todo.lookup field) := by
    intro field hfield
    have hmember : field ∈ MONITOR_METADATA_FIELDS ∧ field ≠ "next_due_at" ∧
        field ∈ ["expires_at", "watch_only", "max_no_change_before_replan"] := by
      revert field
      decide
    rw [h.lookup_metadata hmember.2.1,
      lookup_normalFields_of_ne_null hmember.1 (h.raw_ne_null field)]
    by_cases hempty : text (raw.lookup field) = ""
    · rw [if_pos hempty, Option.none_or]
    · rw [if_neg hempty, Option.some_or, text_text]
      rcases h.text_unobserved hmember.2.2 with hblank | hsame
      · exact absurd hblank hempty
      · exact hsame
  exact (checkBounded_iff (htext _ (by decide)) (htext _ (by decide))).mp h.bounded

/-- A bounded Monitor stays bounded. -/
theorem bounded_after {u : Submission} (hbounded : Bounded u todo) : Bounded u todo' := by
  have htext : ∀ field ∈ ["expires_at", "watch_only"],
      text (todo'.lookup field) = text (todo.lookup field) := by
    intro field hfield
    have hmember : field ∈ MONITOR_METADATA_FIELDS ∧ field ≠ "next_due_at" ∧
        field ≠ "material_change_generation" ∧
        field ∈ ["expires_at", "watch_only", "max_no_change_before_replan"] := by
      revert field
      decide
    rw [h.text_field hmember.1 hmember.2.1 hmember.2.2.1]
    rcases h.text_unobserved hmember.2.2.2 with hblank | hsame
    · rw [if_pos hblank]
    · rw [hsame]
      split
      · rfl
      · rfl
  unfold Bounded at hbounded ⊢
  rwa [htext _ (by decide), htext _ (by decide)]

end Stepped

section Steps

variable {clock : HostClock} {todo todo' raw observation : Fields} {s : Submission}
  {plan : MonitorMetadataPlan} {r : Observed} {t : MonitorTransition} {g c : Nat}

/-- An observation reads the same where its target and cadence are the Todo's. -/
theorem Reads.transfer (h : Reads clock todo observation r)
    (hclass : todo'.lookup "task_class" = todo.lookup "task_class")
    (htarget : text (todo'.lookup "target_key") = r.target)
    (hcadence : text (todo'.lookup "cadence") = r.cadence) :
    Reads clock todo' observation r := by
  have hrequested : text (observation.lookup "target_key") ≠ "" →
      r.target = text (observation.lookup "target_key") := by
    intro hne
    rw [h.target, if_pos hne]
  refine { h with monitor := hclass.trans h.monitor, target := ?_, sameTarget := ?_, cadence := ?_ }
  · by_cases hne : text (observation.lookup "target_key") ≠ ""
    · rw [if_pos hne, hrequested hne]
    · rw [if_neg hne, htarget]
  · rintro ⟨hne, -, hother⟩
    exact hother ((hrequested hne).symm.trans htarget.symm)
  · have hread := h.cadence
    unfold cadenceText at hread ⊢
    split at hread
    · rename_i htruthy
      rw [if_pos htruthy, hread]
    · rename_i hfalsy
      rw [if_neg hfalsy, hcadence]

/-- The observation reports what the Todo carries already. -/
def Restates (clock : HostClock) (todo observation : Fields) : Prop :=
  text (observation.lookup "result_hash") = text (todo.lookup "result_hash") ∧
  boolText (isMaterial observation) = text (todo.lookup "material_change") ∧
  text (observation.lookup "generated_at") = text (todo.lookup "last_checked_at") ∧
  (text (observation.lookup "target_key") = "" ∨
    text (observation.lookup "target_key") = text (todo.lookup "target_key")) ∧
  cadenceText todo observation = text (todo.lookup "cadence") ∧
  ∀ planned, schedule clock (text (observation.lookup "generated_at"))
      (cadenceText todo observation) (observation.lookup "next_due_at") = .ok planned →
    planned.nextDueAt.getD "" = text (todo.lookup "next_due_at")

/-- The fields of a Monitor that no observation writes. -/
def configuredFields : List String := ["expires_at", "watch_only", "max_no_change_before_replan"]

/-- What a submission has to meet for its repetition to be found on the Todo. A keyed one writes
over every stale text it will be compared with, and finds the configured fields in the form a replay
writes them; an unkeyed one restates an effect that is already bound. -/
def RepeatsCleanly (clock : HostClock) (todo : Fields) (s : Submission) : Prop :=
  if text (s.observation.lookup "monitor_effect_id") = "" then
    text (todo.lookup "monitor_effect_id") = "" ∨ Restates clock todo s.observation
  else isReplay todo s.observation = true ∨
    (stripPythonWhitespace (explicitDue s.observation) = explicitDue s.observation ∧
      (explicitDue s.observation = "" → cadenceText todo s.observation = "" →
        text (todo.lookup "next_due_at") = "") ∧
      (cadenceText todo s.observation = "" → text (todo.lookup "cadence") = "") ∧
      ∀ field ∈ configuredFields, FieldPlain clock todo field)

private theorem carries_iff : (∀ fact ∈ r.facts, text (todo.lookup fact.1) = fact.2) ↔
    text (todo.lookup "result_hash") = r.resultHash ∧
      text (todo.lookup "material_change") = boolText r.material ∧
      text (todo.lookup "last_checked_at") = r.generatedAt ∧
      text (todo.lookup "target_key") = r.target ∧ text (todo.lookup "cadence") = r.cadence ∧
      text (todo.lookup "next_due_at") = r.due.getD "" := by
  simp only [Observed.facts, List.forall_mem_cons, List.not_mem_nil, false_implies, implies_true,
    and_true]

namespace Stepped

variable (h : Stepped clock todo todo' s plan raw t r g c)
include h

private theorem lookup_class : todo'.lookup "task_class" = todo.lookup "task_class" :=
  h.lookup_frame (by decide) (by decide)

/-- A planned due time that is its own text is the text the plan hands over. -/
private theorem raw_due_of_stable (new : isReplay todo s.observation = false)
    (stable : ∀ due, r.due = some due → stripPythonWhitespace due = due) :
    text (raw.lookup "next_due_at") = r.due.getD "" := by
  rw [h.raw_due new]
  cases hdue : r.due with
  | none => rfl
  | some due => exact stable due hdue

private theorem kept_of_stable (new : isReplay todo s.observation = false)
    (stable : ∀ due, r.due = some due → stripPythonWhitespace due = due)
    (hcadence : text (raw.lookup "cadence") ≠ "") : text (raw.lookup "next_due_at") ≠ "" := by
  obtain ⟨due, hdue, hne⟩ := h.due_of_raw_cadence (h.raw_cadence new) (h.raw_cadence new ▸ hcadence)
  rw [h.raw_due_of_stable new stable, hdue]
  exact hne

/-- A new keyed observation is recalled after the step. -/
theorem recalls_of_keyed (new : isReplay todo s.observation = false) (keyed : r.effectId ≠ "")
    (clean : RepeatsCleanly clock todo s) : Recalls clock todo' s r := by
  rw [RepeatsCleanly, ← h.reads.effectId, if_neg keyed, new] at clean
  obtain ⟨hexplicit, hundue, huncadenced, hconfigured⟩ := clean.resolve_left (by simp)
  rw [← h.reads.cadence] at hundue huncadenced
  obtain ⟨planned, hplanned, hplannedDue⟩ := h.reads.due
  have stable : ∀ due, r.due = some due → stripPythonWhitespace due = due := by
    intro due hdue
    exact (due_of_schedule hplanned (hplannedDue.trans hdue)).2 hexplicit
  have hkept := h.kept_of_stable new stable
  have hrawDue := h.raw_due_of_stable new stable
  -- what the step leaves on the Todo is blank, or one of the configured fields
  have hblankDue : r.due.getD "" = "" → text (todo.lookup "next_due_at") = "" := by
    intro hempty
    cases hdue : r.due with
    | none =>
      have hnothing := undue_of_schedule hplanned (hplannedDue.trans hdue)
      refine hundue hnothing.1 ?_
      by_contra hcadence
      obtain ⟨due, hsome, -⟩ := h.due_of_raw_cadence (h.raw_cadence new) hcadence
      rw [hdue] at hsome
      cases hsome
    | some due =>
      rw [hdue] at hempty
      exact absurd hempty (due_of_schedule hplanned (hplannedDue.trans hdue)).1
  have htarget : r.target = "" → text (todo.lookup "target_key") = "" := by
    intro hempty
    have hread := h.reads.target
    rw [hempty] at hread
    split at hread
    · rename_i hne
      exact absurd hread.symm hne
    · exact hread.symm
  have htext : ∀ field ∈ MONITOR_METADATA_FIELDS, field ≠ "material_change_generation" →
      ∀ value, text (raw.lookup field) = value →
      (value = "" → text (todo.lookup field) = "") → text (todo'.lookup field) = value := by
    intro field hfield hgeneration value hraw hblank
    rw [h.text_after hkept hfield hgeneration, hraw]
    by_cases hempty : value = ""
    · rw [if_pos hempty, hblank hempty, hempty]
    · rw [if_neg hempty]
  have htarget' := htext "target_key" (by decide) (by decide) _ (h.raw_target new) htarget
  have hcadence' := htext "cadence" (by decide) (by decide) _ (h.raw_cadence new) huncadenced
  have hdue' := htext "next_due_at" (by decide) (by decide) _ hrawDue hblankDue
  refine {
    reads := h.reads.transfer h.lookup_class htarget' hcadence'
    keyed := keyed
    effect := htext "monitor_effect_id" (by decide) (by decide) _ (h.raw_effect new)
      (fun hempty => absurd hempty keyed)
    carries := carries_iff.2 ⟨?_, ?_, ?_, htarget', hcadence', hdue'⟩
    settled := h.settled_after hkept ?_
    bounded := h.bounded_after h.bounded_before
    reason := h.reason }
  · exact htext "result_hash" (by decide) (by decide) _ (h.raw_hash new)
      (fun hempty => absurd hempty h.reads.hashed)
  · exact htext "material_change" (by decide) (by decide) _ (h.raw_material new)
      (fun hempty => absurd hempty (boolText_ne_empty _))
  · exact htext "last_checked_at" (by decide) (by decide) _ (h.raw_checked new)
      (fun hempty => absurd hempty h.generatedAt_ne_empty)
  · intro field hfield hgeneration hempty
    by_cases hconfig : field ∈ configuredFields
    · exact hconfigured field hconfig
    · left
      have hfields : field ∈ ["target_key", "cadence", "next_due_at", "monitor_effect_id",
          "last_checked_at", "result_hash", "consecutive_no_change", "material_change"] := by
        clear hempty
        revert field
        decide
      simp only [List.mem_cons, List.not_mem_nil, or_false] at hfields
      rcases hfields with rfl | rfl | rfl | rfl | rfl | rfl | rfl | rfl
      · exact htarget (h.raw_target new ▸ hempty)
      · exact huncadenced (h.raw_cadence new ▸ hempty)
      · exact hblankDue (hrawDue ▸ hempty)
      · exact absurd (h.raw_effect new ▸ hempty) keyed
      · exact absurd (h.raw_checked new ▸ hempty) h.generatedAt_ne_empty
      · exact absurd (h.raw_hash new ▸ hempty) h.reads.hashed
      · exact absurd (h.raw_noChange new ▸ hempty) (repr_ne_empty _)
      · exact absurd (h.raw_material new ▸ hempty) (boolText_ne_empty _)

/-- A replay is recalled after the step. -/
theorem recalls_of_replay (replay : isReplay todo s.observation = true) :
    Recalls clock todo' s r := by
  have hreplay := replay
  simp only [isReplay, ← h.reads.effectId, decide_eq_true_eq] at hreplay
  have hhistory := h.history
  rw [replay] at hhistory
  simp only [checkHistory, if_true] at hhistory
  have hcarries := conflicts_eq_nil.mp (not_not.mp (throwWhen_eq_ok.mp hhistory))
  obtain ⟨hhash, hmaterial, hchecked, htarget, hcadence, hdue⟩ := carries_iff.1 hcarries
  have hraw : ∀ field ∈ MONITOR_METADATA_FIELDS,
      text (raw.lookup field) = text (todo.lookup field) :=
    fun field hfield => h.text_raw_of_replay replay field hfield
  have hkept : text (raw.lookup "cadence") ≠ "" → text (raw.lookup "next_due_at") ≠ "" := by
    have hrawCadence := (hraw "cadence" (by decide)).trans hcadence
    intro hpresent
    obtain ⟨due, hsome, hne⟩ := h.due_of_raw_cadence hrawCadence (hrawCadence ▸ hpresent)
    rw [hraw _ (by decide), hdue, hsome]
    exact hne
  have htext : ∀ field ∈ MONITOR_METADATA_FIELDS, field ≠ "material_change_generation" →
      text (todo'.lookup field) = text (todo.lookup field) := by
    intro field hfield hgeneration
    rw [h.text_after hkept hfield hgeneration, hraw field hfield]
    split
    · rfl
    · rfl
  have htarget' := (htext "target_key" (by decide) (by decide)).trans htarget
  have hcadence' := (htext "cadence" (by decide) (by decide)).trans hcadence
  exact {
    reads := h.reads.transfer h.lookup_class htarget' hcadence'
    keyed := hreplay.1
    effect := (htext "monitor_effect_id" (by decide) (by decide)).trans hreplay.2.symm
    carries := carries_iff.2 ⟨(htext _ (by decide) (by decide)).trans hhash,
      (htext _ (by decide) (by decide)).trans hmaterial,
      (htext _ (by decide) (by decide)).trans hchecked, htarget', hcadence',
      (htext _ (by decide) (by decide)).trans hdue⟩
    settled := h.settled_after hkept (fun field hfield _ hempty =>
      Or.inl ((hraw field hfield).symm.trans hempty))
    bounded := h.bounded_after h.bounded_before
    reason := h.reason }

/-- An unkeyed observation that restates the Todo leaves a recalled submission recalled. -/
theorem recalls_of_unkeyed {u : Submission} {q : Observed} (recalled : Recalls clock todo u q)
    (unkeyed : r.effectId = "") (restates : Restates clock todo s.observation) :
    Recalls clock todo' u q := by
  obtain ⟨hhash, hmaterial, hchecked, htarget, hcadence, hdue⟩ := restates
  have new : isReplay todo s.observation = false := by
    simp [isReplay, ← h.reads.effectId, unkeyed]
  obtain ⟨planned, hplanned, hplannedDue⟩ := h.reads.due
  have hrestatedDue : r.due.getD "" = text (todo.lookup "next_due_at") := by
    rw [← hplannedDue]
    apply hdue
    rw [← h.reads.generatedAt, ← h.reads.cadence]
    exact hplanned
  have stable : ∀ due, r.due = some due → stripPythonWhitespace due = due := by
    intro due hsome
    have hvalue : due = text (todo.lookup "next_due_at") := by
      rw [← hrestatedDue, hsome, Option.getD_some]
    rw [hvalue]
    exact text_text _
  have hkept := h.kept_of_stable new stable
  have htext : ∀ field ∈ MONITOR_METADATA_FIELDS, field ≠ "material_change_generation" →
      (text (raw.lookup field) = "" ∨ text (raw.lookup field) = text (todo.lookup field)) →
      text (todo'.lookup field) = text (todo.lookup field) := by
    intro field hfield hgeneration hraw
    rw [h.text_after hkept hfield hgeneration]
    rcases hraw with hblank | hsame
    · rw [if_pos hblank]
    · rw [hsame]
      split
      · rfl
      · rfl
  have htarget' : text (todo'.lookup "target_key") = text (todo.lookup "target_key") := by
    refine htext _ (by decide) (by decide) (Or.inr ?_)
    rw [h.raw_target new, h.reads.target]
    rcases htarget with hempty | hsame
    · rw [if_neg (not_not.mpr hempty)]
    · rw [hsame]
      split
      · rfl
      · rfl
  have hcadence' : text (todo'.lookup "cadence") = text (todo.lookup "cadence") := by
    refine htext _ (by decide) (by decide) (Or.inr ?_)
    rw [h.raw_cadence new, h.reads.cadence, hcadence]
  obtain ⟨qhash, qmaterial, qchecked, qtarget, qcadence, qdue⟩ := carries_iff.1 recalled.carries
  refine {
    reads := recalled.reads.transfer h.lookup_class (htarget'.trans qtarget)
      (hcadence'.trans qcadence)
    keyed := recalled.keyed
    effect := ?_
    carries := carries_iff.2 ⟨?_, ?_, ?_, htarget'.trans qtarget, hcadence'.trans qcadence, ?_⟩
    settled := h.settled_after hkept (fun field hfield hgeneration _ =>
      recalled.settled.fields field hfield hgeneration)
    bounded := h.bounded_after recalled.bounded
    reason := recalled.reason }
  · refine (htext _ (by decide) (by decide) (Or.inl ?_)).trans recalled.effect
    rw [h.raw_effect new, unkeyed]
  · refine (htext _ (by decide) (by decide) (Or.inr ?_)).trans qhash
    rw [h.raw_hash new, h.reads.resultHash, hhash]
  · refine (htext _ (by decide) (by decide) (Or.inr ?_)).trans qmaterial
    rw [h.raw_material new, ← hmaterial, isMaterial, h.reads.material]
    simp
  · refine (htext _ (by decide) (by decide) (Or.inr ?_)).trans qchecked
    rw [h.raw_checked new, h.reads.generatedAt, hchecked]
  · refine (htext _ (by decide) (by decide) (Or.inr ?_)).trans qdue
    rw [h.raw_due_of_stable new stable, hrestatedDue]

end Stepped

end Steps

section Runs

variable {clock : HostClock}

/-- The Todo after a submission; a refused one leaves it as it was. -/
def submit (clock : HostClock) (todo : Fields) (s : Submission) : Fields :=
  match writeback clock todo s with
  | .ok (todo', _) => todo'
  | .error _ => todo

/-- A run of submissions on one Monitor. -/
def runMonitor (clock : HostClock) (todo : Fields) (run : List Submission) : Fields :=
  run.foldl (submit clock) todo

/-- The accepted submissions of a run, each with the Todo it was applied to. -/
def history (clock : HostClock) : Fields → List Submission → List (Fields × Submission)
  | _, [] => []
  | todo, s :: rest =>
    match writeback clock todo s with
    | .ok (todo', _) => (todo, s) :: history clock todo' rest
    | .error _ => history clock todo rest

example (clock : HostClock) (todo : Fields) : history clock todo [] = [] := by
  simp [history]

def Submission.keyed (s : Submission) : Bool :=
  text (s.observation.lookup "monitor_effect_id") ≠ ""

/-- The last accepted keyed submission of a run, with the Todo it was applied to. -/
def lastKeyed (clock : HostClock) (todo : Fields) (run : List Submission) :
    Option (Fields × Submission) :=
  (history clock todo run).reverse.find? fun entry => entry.2.keyed

/-- Accepted observations that raise the generation. -/
def raisingCount (clock : HostClock) (todo : Fields) (run : List Submission) : Nat :=
  (history clock todo run).countP fun entry =>
    raises entry.1 entry.2.observation entry.2.reactivate

/-- Accepted new observations after the last one that shows a change. -/
def unchangedCount (clock : HostClock) (todo : Fields) (run : List Submission) : Nat :=
  ((history clock todo run).reverse.takeWhile fun entry =>
    !changes entry.1 entry.2.observation).countP fun entry =>
      !isReplay entry.1 entry.2.observation

def changedInRun (clock : HostClock) (todo : Fields) (run : List Submission) : Bool :=
  (history clock todo run).any fun entry => changes entry.1 entry.2.observation

private theorem history_append (todo : Fields) (first rest : List Submission) :
    history clock todo (first ++ rest) =
      history clock todo first ++ history clock (runMonitor clock todo first) rest := by
  induction first generalizing todo with
  | nil => rfl
  | cons s first ih =>
    simp only [List.cons_append, history, runMonitor, List.foldl_cons, submit]
    cases hstep : writeback clock todo s with
    | error e => exact ih todo
    | ok written => simpa [runMonitor] using ih written.1

private theorem runMonitor_concat (todo : Fields) (run : List Submission) (s : Submission) :
    runMonitor clock todo (run ++ [s]) = submit clock (runMonitor clock todo run) s := by
  simp [runMonitor]

/-- A longer run either refuses its last submission, or takes one accepted step. -/
private theorem run_concat_cases (todo : Fields) (run : List Submission) (s : Submission) :
    (runMonitor clock todo (run ++ [s]) = runMonitor clock todo run ∧
      history clock todo (run ++ [s]) = history clock todo run) ∨
    (∃ plan raw t r g c, Stepped clock (runMonitor clock todo run)
      (runMonitor clock todo (run ++ [s])) s plan raw t r g c) ∧
      history clock todo (run ++ [s]) =
        history clock todo run ++ [(runMonitor clock todo run, s)] := by
  rw [runMonitor_concat, history_append]
  cases hstep : writeback clock (runMonitor clock todo run) s with
  | error e =>
    left
    simp [submit, history, hstep]
  | ok written =>
    obtain ⟨todo', plan⟩ := written
    obtain ⟨raw, t, r, g, c, hstepped⟩ := writeback_stepped hstep
    right
    simp only [submit, history, hstep]
    exact ⟨⟨plan, raw, t, r, g, c, hstepped⟩, trivial⟩

theorem run_generation (todo : Fields) (run : List Submission) {g : Nat}
    (start : counter (todo.lookup "material_change_generation") = .ok g) :
    counter ((runMonitor clock todo run).lookup "material_change_generation") =
      .ok (g + raisingCount clock todo run) := by
  unfold raisingCount
  induction run using List.reverseRecOn with
  | nil => simpa [runMonitor, history] using start
  | append_singleton run s ih =>
    rcases @run_concat_cases clock todo run s with ⟨hrun, hhistory⟩ |
      ⟨⟨plan, raw, t, r, g', c, hstep⟩, hhistory⟩
    · rw [hrun, hhistory, ih]
    · obtain rfl := Except.ok.inj (hstep.generation.symm.trans ih)
      rw [hstep.generation_after, hhistory, List.countP_append, List.countP_singleton,
        nextGeneration]
      cases raises (runMonitor clock todo run) s.observation s.reactivate <;> simp [Nat.add_assoc]

theorem run_noChange (todo : Fields) (run : List Submission) {c : Nat}
    (start : counter (todo.lookup "consecutive_no_change") = .ok c) :
    counter ((runMonitor clock todo run).lookup "consecutive_no_change") =
      .ok (unchangedCount clock todo run + if changedInRun clock todo run then 0 else c) := by
  unfold unchangedCount changedInRun
  induction run using List.reverseRecOn with
  | nil => simpa [runMonitor, history] using start
  | append_singleton run s ih =>
    rcases @run_concat_cases clock todo run s with ⟨hrun, hhistory⟩ |
      ⟨⟨plan, raw, t, r, g, c', hstep⟩, hhistory⟩
    · rw [hrun, hhistory, ih]
    · have hbefore := Except.ok.inj (hstep.noChange.symm.trans ih)
      have hany : (history clock todo (run ++ [s])).any
          (fun entry => changes entry.1 entry.2.observation) =
          ((history clock todo run).any (fun entry => changes entry.1 entry.2.observation) ||
            changes (runMonitor clock todo run) s.observation) := by
        rw [hhistory, List.any_append, List.any_cons, List.any_nil, Bool.or_false]
      rw [hstep.noChange_after, hany, hhistory, List.reverse_append, List.reverse_singleton,
        List.singleton_append, List.takeWhile_cons, nextNoChange]
      cases hreplay : isReplay (runMonitor clock todo run) s.observation with
      | true =>
        have hunchanged : changes (runMonitor clock todo run) s.observation = false := by
          simp [changes, hreplay]
        rw [hunchanged, Bool.or_false, if_pos rfl, Bool.not_false, if_pos rfl,
          List.countP_cons_of_neg (by simp [hreplay]), ← hbefore]
      | false =>
        cases hchanges : changes (runMonitor clock todo run) s.observation with
        | true => simp
        | false =>
          rw [Bool.or_false, if_neg (by simp), if_neg (by simp), Bool.not_false, if_pos rfl,
            List.countP_cons_of_pos (by simp [hreplay]), hbefore]
          exact congrArg Except.ok (Nat.add_right_comm _ _ _)

theorem run_checked (todo : Fields) (run : List Submission) {persistedAt : Int}
    (start : timestampOrNull (todo.lookup "last_checked_at") = some persistedAt) :
    ∃ checkedAt,
      timestampOrNull ((runMonitor clock todo run).lookup "last_checked_at") = some checkedAt ∧
      persistedAt ≤ checkedAt := by
  induction run using List.reverseRecOn with
  | nil => exact ⟨persistedAt, start, le_rfl⟩
  | append_singleton run s ih =>
    rcases @run_concat_cases clock todo run s with ⟨hrun, -⟩ |
      ⟨⟨plan, raw, t, r, g, c, hstep⟩, -⟩
    · rw [hrun]
      exact ih
    · obtain ⟨before, hbefore, hle⟩ := ih
      obtain ⟨after, hafter, hle'⟩ := hstep.checked_after hbefore
      exact ⟨after, hafter, hle.trans hle'⟩

/-- Every state of a clean run recalls its last accepted keyed submission. -/
theorem run_recalls (todo : Fields) (run : List Submission)
    (clean : ∀ entry ∈ history clock todo run, RepeatsCleanly clock entry.1 entry.2)
    {entry : Fields × Submission} (hlast : lastKeyed clock todo run = some entry) :
    ∃ r, Recalls clock (runMonitor clock todo run) entry.2 r := by
  unfold lastKeyed at hlast
  induction run using List.reverseRecOn with
  | nil => simp [history] at hlast
  | append_singleton run s ih =>
    rcases @run_concat_cases clock todo run s with ⟨hrun, hhistory⟩ |
      ⟨⟨plan, raw, t, r, g, c, hstep⟩, hhistory⟩
    · rw [hhistory] at clean hlast
      rw [hrun]
      exact ih clean hlast
    · rw [hhistory] at clean hlast
      have hclean := clean (runMonitor clock todo run, s) (by simp)
      have hbefore := ih fun e he => clean e (by simp [he])
      rw [List.reverse_append, List.reverse_singleton, List.singleton_append,
        List.find?_cons] at hlast
      cases hkeyed : s.keyed with
      | true =>
        simp only [hkeyed, Option.some.injEq] at hlast
        subst hlast
        have hid : r.effectId ≠ "" := by
          simpa [Submission.keyed, ← hstep.reads.effectId] using hkeyed
        cases hreplay : isReplay (runMonitor clock todo run) s.observation with
        | true => exact ⟨r, hstep.recalls_of_replay hreplay⟩
        | false => exact ⟨r, hstep.recalls_of_keyed hreplay hid hclean⟩
      | false =>
        simp only [hkeyed] at hlast
        obtain ⟨q, hrecalls⟩ := hbefore hlast
        have hid : r.effectId = "" := by
          simpa [Submission.keyed, ← hstep.reads.effectId] using hkeyed
        rw [RepeatsCleanly, ← hstep.reads.effectId, if_pos hid] at hclean
        rcases hclean with hunbound | hrestates
        · exact absurd (hrecalls.effect.symm.trans hunbound) hrecalls.keyed
        · exact ⟨q, hstep.recalls_of_unkeyed hrecalls hid hrestates⟩

end Runs

section Laws

/-- The run laws of a Monitor's observations. The counters and the order of checks hold of every
run; that the last accepted keyed observation can be submitted again holds of the runs whose accepted
submissions repeat cleanly. -/
theorem monitorRun_laws (clock : HostClock) (todo : Fields) (run : List Submission) :
    (∀ g, counter (todo.lookup "material_change_generation") = .ok g →
      counter ((runMonitor clock todo run).lookup "material_change_generation") =
        .ok (g + raisingCount clock todo run)) ∧
    (∀ c, counter (todo.lookup "consecutive_no_change") = .ok c →
      counter ((runMonitor clock todo run).lookup "consecutive_no_change") =
        .ok (unchangedCount clock todo run + if changedInRun clock todo run then 0 else c)) ∧
    (∀ persistedAt, timestampOrNull (todo.lookup "last_checked_at") = some persistedAt →
      ∃ checkedAt,
        timestampOrNull ((runMonitor clock todo run).lookup "last_checked_at") = some checkedAt ∧
        persistedAt ≤ checkedAt) ∧
    ((∀ entry ∈ history clock todo run, RepeatsCleanly clock entry.1 entry.2) →
      ∀ entry, lastKeyed clock todo run = some entry →
      ∃ todo' plan t,
        writeback clock (runMonitor clock todo run) { entry.2 with reactivate := false } =
          .ok (todo', plan) ∧
        plan.transition = some t ∧ t.providerReplayed = true ∧
        counter ((runMonitor clock todo run).lookup "material_change_generation") =
          .ok t.materialChangeGeneration ∧
        counter ((runMonitor clock todo run).lookup "consecutive_no_change") =
          .ok t.consecutiveNoChange ∧
        ∀ field ∈ MONITOR_METADATA_FIELDS,
          todo'.lookup field = (runMonitor clock todo run).lookup field) := by
  refine ⟨fun g => run_generation todo run, fun c => run_noChange todo run,
    fun persistedAt => run_checked todo run, ?_⟩
  intro clean entry hlast
  obtain ⟨r, hrecalls⟩ := run_recalls todo run clean hlast
  have hquiet : Recalls clock (runMonitor clock todo run) { entry.2 with reactivate := false } r := {
    reads := hrecalls.reads
    keyed := hrecalls.keyed
    effect := hrecalls.effect
    carries := hrecalls.carries
    settled := hrecalls.settled
    bounded := hrecalls.bounded
    reason := hrecalls.reason }
  exact hquiet.replay rfl

/-- A host clock that reads the two texts of the runs below. -/
def hourClock : HostClock where
  dateParse text :=
    if text = "1970-01-01T00:00:00Z" then some 0
    else if text = "2030-01-01T01:00:00Z" then some 1893459600000
    else none
  now := 0

/-- A material poll of one o'clock, keyed, with or without a cadence. -/
def hourPoll (cadence : Option String) : Submission where
  observation := [("generated_at", .string "2030-01-01T01:00:00Z"), ("result_hash", .string "after"),
    ("material_change", .bool true), ("monitor_effect_id", .string "effect-a")] ++
    (cadence.map fun text => ("cadence", Json.string text)).toList
  reactivate := false
  enforceBoundedness := false
  resumeWhen := none
  generatedAt := none
  actor := some "agent-a"

/-- A Monitor with a due time and no cadence. -/
def hourMonitor : Fields :=
  [("task_class", .string "continuous_monitor"), ("next_due_at", .string "2030-01-01T00:30:00Z"),
    ("watch_only", .string "true")]

private theorem history_hourly (cadence : Option String) (h : cadence = none ∨ cadence = some "1h") :
    history hourClock hourMonitor [hourPoll cadence] = [(hourMonitor, hourPoll cadence)] := by
  rcases h with rfl | rfl
  · decide +kernel
  · decide +kernel

theorem monitorRun_laws_hourly :
    lastKeyed hourClock hourMonitor [hourPoll (some "1h")] =
      some (hourMonitor, hourPoll (some "1h")) ∧
    ∃ todo' plan t,
      writeback hourClock (runMonitor hourClock hourMonitor [hourPoll (some "1h")])
        { hourPoll (some "1h") with reactivate := false } = .ok (todo', plan) ∧
      plan.transition = some t ∧ t.providerReplayed = true := by
  have hlast : lastKeyed hourClock hourMonitor [hourPoll (some "1h")] =
      some (hourMonitor, hourPoll (some "1h")) := by
    rw [lastKeyed, history_hourly _ (Or.inr rfl)]
    decide
  have hplain : ∀ field ∈ configuredFields, FieldPlain hourClock hourMonitor field := by
    unfold FieldPlain
    decide
  have hclean : RepeatsCleanly hourClock hourMonitor (hourPoll (some "1h")) := by
    rw [RepeatsCleanly, if_neg (by decide)]
    refine Or.inr ⟨by decide, fun _ hcadence => ?_, fun hcadence => ?_, hplain⟩
    · exact absurd hcadence (by decide)
    · exact absurd hcadence (by decide)
  have hrun : ∀ entry ∈ history hourClock hourMonitor [hourPoll (some "1h")],
      RepeatsCleanly hourClock entry.1 entry.2 := by
    rw [history_hourly _ (Or.inr rfl)]
    simpa using hclean
  obtain ⟨todo', plan, t, hwriteback, htransition, hreplayed, -⟩ :=
    (monitorRun_laws hourClock hourMonitor [hourPoll (some "1h")]).2.2.2 hrun _ hlast
  exact ⟨hlast, todo', plan, t, hwriteback, htransition, hreplayed⟩

/-- A material poll without a due time leaves the Todo's old one in place, and its own repetition is
then refused because of it. -/
theorem stale_due_refused :
    lastKeyed hourClock hourMonitor [hourPoll none] = some (hourMonitor, hourPoll none) ∧
    writeback hourClock (runMonitor hourClock hourMonitor [hourPoll none])
        { hourPoll none with reactivate := false } =
      .error ("monitor effect identity is already bound to different observation fields: " ++
        "next_due_at") := by
  constructor
  · rw [lastKeyed, history_hourly _ (Or.inl rfl)]
    decide
  · decide +kernel

end Laws

end Loopx.Todos
