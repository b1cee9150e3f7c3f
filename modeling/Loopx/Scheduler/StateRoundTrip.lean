/- GID: Loopx/Scheduler/StateRoundTrip
   generality: I
   source: loopx/control_plane/scheduler/state_store.ts
   digest: The failure cache normalization keeps, and the states it reads back unchanged. -/

import Loopx.Scheduler.State

set_option autoImplicit false
set_option relaxedAutoImplicit false

namespace Loopx.Scheduler

open Loopx.Json (JsNumber isNumberChar isNumberChar_numberText numberText)
open Loopx.Authority (trim trim_trim isJsSpace isJsSpace_of_isDigit)
open Loopx.Lib.KeyedList

@[simp] theorem stringOrEmpty_string (s : String) : stringOrEmpty (some (.string s)) = s := by
  by_cases h : s = ""
  · simp [stringOrEmpty, pythonTruthy, h]
  · simp [stringOrEmpty, pythonTruthy, pythonString, jsString, h]

@[simp] theorem trimmed_string (s : String) : trimmed (some (.string s)) = trim s := by
  simp [trimmed]

@[simp] theorem normalizeSchedulerRrule_string (s : String) :
    normalizeSchedulerRrule (some (.string s)) = normalizeRruleText s := by
  simp [normalizeSchedulerRrule]

private theorem truncate_of_toInt? {n : JsNumber} {i : Int} (h : n.toInt? = some i) :
    truncate n = i := by
  unfold JsNumber.toInt? at h
  unfold truncate
  split at h
  · rename_i hexp
    rw [if_pos hexp]
    exact Option.some.inj h
  · simp at h

@[simp] theorem pythonInteger_intJson (i : Int) : pythonInteger (some (intJson i)) = some i := by
  simp [pythonInteger, intJson, truncate_of_toInt? (JsNumber.toInt?_ofInt i)]

private theorem positiveIntegers_map {l : List Int} (positive : ∀ m ∈ l, 0 < m) :
    positiveIntegers (l.map intJson) = some l := by
  induction l with
  | nil => rfl
  | cons m l ih =>
    have hm : ¬m ≤ 0 := by
      have := positive m (by simp)
      omega
    have hrest := ih (fun n hn => positive n (by simp [hn]))
    simp [positiveIntegers, hrest, hm]

theorem positiveIntegerList_map {l : List Int} (nonempty : l ≠ []) (positive : ∀ m ∈ l, 0 < m) :
    positiveIntegerList (some (.array (l.map intJson))) = some l := by
  cases l with
  | nil => exact absurd rfl nonempty
  | cons m l => rw [positiveIntegerList, positiveIntegers_map positive]

private theorem collapseSpace_plain {cs : List Char} (h : ∀ c ∈ cs, isJsSpace c = false)
    (after : Bool) : collapseSpace after cs = cs := by
  induction cs generalizing after with
  | nil => rfl
  | cons c cs ih =>
    rw [collapseSpace, if_neg (by simp [h c (by simp)]), ih (fun d hd => h d (by simp [hd]))]

private theorem dropWhile_plain {cs : List Char} (h : ∀ c ∈ cs, isJsSpace c = false) :
    cs.dropWhile isJsSpace = cs := by
  cases cs with
  | nil => rfl
  | cons c cs => rw [List.dropWhile_cons_of_neg (by simp [h c (by simp)])]

/-- A text without white space is already trimmed. -/
theorem trim_plain {s : String} (h : ∀ c ∈ s.toList, isJsSpace c = false) : trim s = s := by
  have hreverse : ∀ c ∈ s.toList.reverse, isJsSpace c = false := by
    intro c hc
    exact h c (List.mem_reverse.mp hc)
  rw [trim, dropWhile_plain h, dropWhile_plain hreverse, List.reverse_reverse,
    String.ofList_toList]

theorem toList_rruleForMinutes (minutes : Int) :
    (rruleForMinutes minutes).toList =
      "FREQ=MINUTELY;INTERVAL=".toList ++ numberText (JsNumber.ofInt (max 1 minutes)) := by
  unfold rruleForMinutes
  simp only [String.toList_append, String.toList_ofList]

theorem isJsSpace_of_isNumberChar {c : Char} (h : isNumberChar c = true) :
    isJsSpace c = false := by
  simp only [isNumberChar, Bool.or_eq_true, decide_eq_true_eq] at h
  rcases h with ((((h | rfl) | rfl) | rfl) | rfl) | rfl
  · exact isJsSpace_of_isDigit h
  all_goals decide

private theorem isJsSpace_rruleForMinutes (minutes : Int) :
    ∀ c ∈ (rruleForMinutes minutes).toList, isJsSpace c = false := by
  have hname : "FREQ=MINUTELY;INTERVAL=".toList.all (fun c => !isJsSpace c) = true := by decide
  intro c hc
  rw [toList_rruleForMinutes] at hc
  rcases List.mem_append.mp hc with hc | hc
  · exact Bool.not_eq_true' _ ▸ List.all_eq_true.mp hname c hc
  · exact isJsSpace_of_isNumberChar (isNumberChar_numberText _ c hc)

theorem trim_rruleForMinutes (minutes : Int) :
    trim (rruleForMinutes minutes) = rruleForMinutes minutes :=
  trim_plain (isJsSpace_rruleForMinutes minutes)

/-- The RRULE texts the progression derives are settled. -/
theorem normalizeRruleText_rruleForMinutes (minutes : Int) :
    normalizeRruleText (rruleForMinutes minutes) = rruleForMinutes minutes := by
  have hfirst : ((rruleForMinutes minutes).toList.take 6).map upperChar ≠ "RRULE:".toList := by
    rw [toList_rruleForMinutes, List.take_append_of_le_length (by decide)]
    decide
  rw [normalizeRruleText, trim_rruleForMinutes,
    collapseSpace_plain (isJsSpace_rruleForMinutes minutes)]
  simp only [if_neg hfirst, String.ofList_toList]

theorem rruleForMinutes_ne_empty (minutes : Int) : rruleForMinutes minutes ≠ "" := by
  intro h
  have := congrArg String.toList h
  rw [toList_rruleForMinutes] at this
  simp at this

/-- Further normalization leaves the text alone from the `n`-th time on. -/
def SettlesAfter (n : Nat) (text : String) : Prop :=
  normalizeRruleText (normalizeRruleText^[n] text) = normalizeRruleText^[n] text

instance (n : Nat) (text : String) : Decidable (SettlesAfter n text) :=
  inferInstanceAs (Decidable (_ = _))

theorem SettlesAfter.normalized {n : Nat} {text : String} (h : SettlesAfter (n + 1) text) :
    SettlesAfter n (normalizeRruleText text) := by
  simpa only [SettlesAfter, Function.iterate_succ_apply] using h

theorem SettlesAfter.succ {n : Nat} {text : String} (h : SettlesAfter n text) :
    SettlesAfter (n + 1) text := by
  rw [SettlesAfter, Function.iterate_succ_apply', h]
  exact h

theorem SettlesAfter.of_fixed {text : String} (h : normalizeRruleText text = text) (n : Nat) :
    SettlesAfter n text := by
  rw [SettlesAfter, Function.iterate_fixed h, h]

theorem SettlesAfter.fixed {text : String} (h : SettlesAfter 0 text) :
    normalizeRruleText text = text := h

/-- A failure as one normalization leaves it. -/
def HostUpdateFailure.normalized (f : HostUpdateFailure) : HostUpdateFailure :=
  ⟨normalizeRruleText f.targetRrule, normalizeRruleText f.observedHostRrule, trim f.failureKind,
    f.failureCount, trim f.failedAt⟩

theorem normalizeSchedulerHostUpdateFailure_toJson (f : HostUpdateFailure) :
    normalizeSchedulerHostUpdateFailure (some f.toJson) =
      if normalizeRruleText f.targetRrule = "" ∨ trim f.failureKind = "" ∨ trim f.failedAt = "" ∨
        f.failureCount < 1 then none else some f.normalized := by
  simp [normalizeSchedulerHostUpdateFailure, HostUpdateFailure.toJson, List.lookup_cons,
    HostUpdateFailure.normalized]

/-- What normalization asks of the other texts, and the count. -/
structure HostUpdateFailure.Sound (f : HostUpdateFailure) : Prop where
  target_nonempty : f.targetRrule ≠ ""
  kind : trim f.failureKind = f.failureKind
  kind_nonempty : f.failureKind ≠ ""
  failedAt : trim f.failedAt = f.failedAt
  failedAt_nonempty : f.failedAt ≠ ""
  positive : 1 ≤ f.failureCount

/-- Both RRULE texts of the failure settle. -/
structure HostUpdateFailure.Settles (n : Nat) (f : HostUpdateFailure) : Prop where
  target : SettlesAfter n f.targetRrule
  observed : SettlesAfter n f.observedHostRrule

theorem HostUpdateFailure.Settles.normalized {n : Nat} {f : HostUpdateFailure}
    (h : f.Settles (n + 1)) : f.normalized.Settles n := by
  constructor
  · simpa only [HostUpdateFailure.normalized] using h.target.normalized
  · simpa only [HostUpdateFailure.normalized] using h.observed.normalized

theorem HostUpdateFailure.Settles.succ {n : Nat} {f : HostUpdateFailure} (h : f.Settles n) :
    f.Settles (n + 1) :=
  ⟨h.target.succ, h.observed.succ⟩

theorem HostUpdateFailure.normalized_eq {f : HostUpdateFailure} (sound : f.Sound)
    (settled : f.Settles 0) : f.normalized = f := by
  cases f
  simp only [HostUpdateFailure.normalized, HostUpdateFailure.mk.injEq]
  exact ⟨settled.target, settled.observed, sound.kind, trivial, sound.failedAt⟩

private theorem sound_trimmed {target observed kind failedAt : String} {count : Int}
    (h : ¬(target = "" ∨ trim kind = "" ∨ trim failedAt = "" ∨ count < 1)) :
    (HostUpdateFailure.mk target observed (trim kind) count (trim failedAt)).Sound := by
  simp only [not_or, not_lt] at h
  exact ⟨h.1, trim_trim kind, h.2.1, trim_trim failedAt, h.2.2.1, h.2.2.2⟩

theorem sound_of_normalized {value : Option Json} {f : HostUpdateFailure}
    (h : normalizeSchedulerHostUpdateFailure value = some f) : f.Sound := by
  unfold normalizeSchedulerHostUpdateFailure at h
  split at h
  · split at h
    · simp at h
    · dsimp only at h
      split at h
      · simp at h
      · split at h
        · simp at h
        · rename_i hkeeps
          rw [← Option.some.inj h]
          exact sound_trimmed hkeeps
  · simp at h

/-- Pairwise different (target, observed) pairs. -/
def DistinctPairs (failures : List HostUpdateFailure) : Prop :=
  failures.Pairwise (fun f g => failurePair f ≠ failurePair g)

private theorem distinctPairs_eraseP {failures : List HostUpdateFailure}
    (h : DistinctPairs failures) (f : HostUpdateFailure) :
    ∀ g ∈ failures.eraseP (fun item => failurePair item = failurePair f),
      failurePair g ≠ failurePair f := by
  induction failures with
  | nil => simp
  | cons head rest ih =>
    obtain ⟨hhead, hrest⟩ := List.pairwise_cons.mp h
    by_cases hsame : failurePair head = failurePair f
    · rw [List.eraseP_cons_of_pos (by simpa using hsame)]
      intro g hg hg'
      exact hhead g hg (hsame.trans hg'.symm)
    · rw [List.eraseP_cons_of_neg (by simpa using hsame)]
      intro g hg
      rcases List.mem_cons.mp hg with rfl | hg
      · exact hsame
      · exact ih hrest g hg

private theorem distinctPairs_pushFailure {failures : List HostUpdateFailure}
    (h : DistinctPairs failures) (f : HostUpdateFailure) :
    DistinctPairs (pushFailure failures f) := by
  refine List.pairwise_append.mpr ⟨h.sublist List.eraseP_sublist, by simp, ?_⟩
  intro g hg f' hf'
  obtain rfl := List.mem_singleton.mp hf'
  exact distinctPairs_eraseP h f' g hg

private theorem mem_pushFailure {failures : List HostUpdateFailure} {f g : HostUpdateFailure}
    (h : g ∈ pushFailure failures f) : g ∈ failures ∨ g = f := by
  rcases List.mem_append.mp h with h | h
  · exact .inl (List.mem_of_mem_eraseP h)
  · exact .inr (List.mem_singleton.mp h)

private theorem distinctPairs_foldl (new : List HostUpdateFailure) :
    ∀ failures : List HostUpdateFailure, DistinctPairs failures →
      DistinctPairs (new.foldl pushFailure failures) := by
  induction new with
  | nil =>
    intro failures h
    exact h
  | cons f new ih =>
    intro failures h
    exact ih _ (distinctPairs_pushFailure h f)

private theorem mem_foldl_pushFailure (new : List HostUpdateFailure) :
    ∀ (failures : List HostUpdateFailure) (g : HostUpdateFailure),
      g ∈ new.foldl pushFailure failures → g ∈ failures ∨ g ∈ new := by
  induction new with
  | nil =>
    intro failures g h
    exact .inl h
  | cons f new ih =>
    intro failures g h
    rcases ih _ g h with h | h
    · rcases mem_pushFailure h with h | rfl
      · exact .inl h
      · exact .inr (by simp)
    · exact .inr (by simp [h])

private theorem pushFailure_fresh {failures : List HostUpdateFailure} {f : HostUpdateFailure}
    (fresh : ∀ g ∈ failures, failurePair g ≠ failurePair f) :
    pushFailure failures f = failures ++ [f] := by
  rw [pushFailure, List.eraseP_of_forall_not (by simpa using fresh)]

private theorem foldl_pushFailure_distinct (new : List HostUpdateFailure) :
    ∀ failures : List HostUpdateFailure, DistinctPairs (failures ++ new) →
      new.foldl pushFailure failures = failures ++ new := by
  induction new with
  | nil => simp
  | cons f new ih =>
    intro failures h
    have hfresh : ∀ g ∈ failures, failurePair g ≠ failurePair f := by
      intro g hg
      exact (List.pairwise_append.mp h).2.2 g hg f (by simp)
    rw [List.foldl_cons, pushFailure_fresh hfresh, ih (failures ++ [f]) (by simpa using h)]
    simp

/-- Pushing the last failure again changes nothing. -/
private theorem pushFailure_last {failures : List HostUpdateFailure} {f : HostUpdateFailure}
    (h : DistinctPairs (failures ++ [f])) : pushFailure (failures ++ [f]) f = failures ++ [f] := by
  have hfresh : ∀ g ∈ failures, ¬decide (failurePair g = failurePair f) = true := by
    intro g hg
    simpa using (List.pairwise_append.mp h).2.2 g hg f (by simp)
  rw [pushFailure, List.eraseP_append_right _ hfresh]
  simp

private theorem lastFour_sublist (failures : List HostUpdateFailure) :
    (lastFour failures).Sublist failures :=
  List.drop_sublist _ _

private theorem length_lastFour (failures : List HostUpdateFailure) :
    (lastFour failures).length ≤ HOST_UPDATE_FAILURE_CACHE_LIMIT := by
  simp only [lastFour, List.length_drop]
  omega

private theorem lastFour_of_short {failures : List HostUpdateFailure}
    (h : failures.length ≤ HOST_UPDATE_FAILURE_CACHE_LIMIT) : lastFour failures = failures := by
  rw [lastFour, Nat.sub_eq_zero_of_le h, List.drop_zero]

/-- What a normalized failure list always is. -/
structure FailureCache (failures : List HostUpdateFailure) : Prop where
  sound : ∀ f ∈ failures, f.Sound
  distinct : DistinctPairs failures
  short : failures.length ≤ HOST_UPDATE_FAILURE_CACHE_LIMIT

theorem FailureCache.sublist {failures failures' : List HostUpdateFailure}
    (h : FailureCache failures) (hsub : failures'.Sublist failures) : FailureCache failures' where
  sound := fun f hf => h.sound f (hsub.subset hf)
  distinct := h.distinct.sublist hsub
  short := hsub.length_le.trans h.short

theorem failureCache_normalize (value legacyFailure : Option Json) :
    FailureCache (normalizeSchedulerHostUpdateFailures value legacyFailure) where
  sound := by
    intro f hf
    have hf' := mem_foldl_pushFailure _ _ _ ((lastFour_sublist _).subset hf)
    simp only [List.not_mem_nil, false_or, List.mem_filterMap] at hf'
    obtain ⟨candidate, -, hcandidate⟩ := hf'
    exact sound_of_normalized hcandidate
  distinct := (distinctPairs_foldl _ [] List.Pairwise.nil).sublist (lastFour_sublist _)
  short := length_lastFour _

private theorem normalized_of_mem {failures : List HostUpdateFailure} {f : HostUpdateFailure}
    (h : f ∈ (failures.map (fun f => some f.toJson)).filterMap
      normalizeSchedulerHostUpdateFailure) : ∃ g ∈ failures, f = g.normalized := by
  simp only [List.mem_filterMap, List.mem_map] at h
  obtain ⟨_, ⟨g, hg, rfl⟩, h⟩ := h
  rw [normalizeSchedulerHostUpdateFailure_toJson] at h
  split at h
  · simp at h
  · exact ⟨g, hg, (Option.some.inj h).symm⟩

/-- Every failure of the outcome is one of the list's, normalized once. -/
theorem exists_of_mem_normalize {failures : List HostUpdateFailure} {f : HostUpdateFailure}
    (h : f ∈ normalizeSchedulerHostUpdateFailures (some (failuresJson failures)) none) :
    ∃ g ∈ failures, f = g.normalized := by
  have h' := mem_foldl_pushFailure _ _ _ ((lastFour_sublist _).subset h)
  simp only [List.not_mem_nil, false_or, failuresJson, List.map_map, List.filterMap_append,
    List.mem_append] at h'
  rcases h' with h' | h'
  · exact normalized_of_mem h'
  · simp [normalizeSchedulerHostUpdateFailure] at h'

theorem settles_normalize {failures : List HostUpdateFailure} {n : Nat}
    (h : ∀ f ∈ failures, f.Settles (n + 1)) :
    ∀ f ∈ normalizeSchedulerHostUpdateFailures (some (failuresJson failures)) none,
      f.Settles n := by
  intro f hf
  obtain ⟨g, hg, rfl⟩ := exists_of_mem_normalize hf
  exact (h g hg).normalized

theorem normalize_settled {f : HostUpdateFailure} (sound : f.Sound)
    (settled : f.Settles 0) : normalizeSchedulerHostUpdateFailure (some f.toJson) = some f := by
  have hkeeps : ¬(normalizeRruleText f.targetRrule = "" ∨ trim f.failureKind = "" ∨
      trim f.failedAt = "" ∨ f.failureCount < 1) := by
    rw [settled.target.fixed, sound.kind, sound.failedAt]
    rintro (h | h | h | h)
    · exact sound.target_nonempty h
    · exact sound.kind_nonempty h
    · exact sound.failedAt_nonempty h
    · exact absurd h (by have := sound.positive; omega)
  rw [normalizeSchedulerHostUpdateFailure_toJson, if_neg hkeeps,
    HostUpdateFailure.normalized_eq sound settled]

private theorem filterMap_settled {failures : List HostUpdateFailure}
    (sound : ∀ f ∈ failures, f.Sound) (settled : ∀ f ∈ failures, f.Settles 0) :
    (failures.map (fun f => some f.toJson)).filterMap normalizeSchedulerHostUpdateFailure =
      failures := by
  induction failures with
  | nil => rfl
  | cons f rest ih =>
    have hf := normalize_settled (sound f (by simp)) (settled f (by simp))
    have hrest := ih (fun g hg => sound g (by simp [hg])) (fun g hg => settled g (by simp [hg]))
    rw [List.map_cons, List.filterMap_cons, hf, hrest]

/-- A settled cache is normalized to itself. -/
theorem normalize_failureCache {failures : List HostUpdateFailure} (cache : FailureCache failures)
    (settled : ∀ f ∈ failures, f.Settles 0) :
    normalizeSchedulerHostUpdateFailures (some (failuresJson failures)) none = failures := by
  have hnone : normalizeSchedulerHostUpdateFailure none = none := rfl
  have hmap : ((failures.map HostUpdateFailure.toJson).map some) =
      failures.map (fun f => some f.toJson) := List.map_map
  simp only [normalizeSchedulerHostUpdateFailures, failuresJson, List.filterMap_append, hmap,
    filterMap_settled cache.sound settled, List.filterMap_cons, hnone, List.filterMap_nil,
    List.append_nil]
  rw [foldl_pushFailure_distinct failures [] cache.distinct, List.nil_append,
    lastFour_of_short cache.short]

private theorem getLast?_lastFour (failures : List HostUpdateFailure) (f : HostUpdateFailure) :
    (lastFour (failures ++ [f])).getLast? = some f := by
  have hle : (failures ++ [f]).length - HOST_UPDATE_FAILURE_CACHE_LIMIT ≤ failures.length := by
    simp only [List.length_append, List.length_singleton, HOST_UPDATE_FAILURE_CACHE_LIMIT]
    omega
  rw [lastFour, List.drop_append_of_le_length hle, List.getLast?_concat]

/-- The failure that came last in the list is the last one of the outcome. -/
theorem getLast?_normalize {failures : List HostUpdateFailure} {f g : HostUpdateFailure}
    (h : normalizeSchedulerHostUpdateFailure (some f.toJson) = some g) :
    (normalizeSchedulerHostUpdateFailures (some (failuresJson (failures ++ [f]))) none).getLast? =
      some g := by
  have hnone : normalizeSchedulerHostUpdateFailure none = none := rfl
  simp only [normalizeSchedulerHostUpdateFailures, failuresJson, List.map_append, List.map_cons,
    List.map_nil, List.filterMap_append, List.filterMap_cons, h, hnone, List.filterMap_nil,
    List.append_nil, List.foldl_append, List.foldl_cons, List.foldl_nil, pushFailure]
  exact getLast?_lastFour _ g

/-- The legacy failure is the last one of the outcome. -/
theorem getLast?_normalize_legacy {value legacy : Option Json} {g : HostUpdateFailure}
    (h : normalizeSchedulerHostUpdateFailure legacy = some g) :
    (normalizeSchedulerHostUpdateFailures value legacy).getLast? = some g := by
  simp only [normalizeSchedulerHostUpdateFailures, List.filterMap_append, List.filterMap_cons, h,
    List.filterMap_nil, List.foldl_append, List.foldl_cons, List.foldl_nil, pushFailure]
  exact getLast?_lastFour _ g

/-- A last failure given once more as the legacy one does not count twice. -/
theorem normalize_failureCache_last {failures : List HostUpdateFailure} {last f : HostUpdateFailure}
    (cache : FailureCache failures) (settled : ∀ f ∈ failures, f.Settles 0)
    (hlast : failures.getLast? = some last)
    (hf : normalizeSchedulerHostUpdateFailure (some f.toJson) = some last) :
    normalizeSchedulerHostUpdateFailures (some (failuresJson failures)) (some f.toJson) =
      failures := by
  have hmap : ((failures.map HostUpdateFailure.toJson).map some) =
      failures.map (fun f => some f.toJson) := List.map_map
  obtain ⟨front, rfl⟩ := List.getLast?_eq_some_iff.mp hlast
  simp only [normalizeSchedulerHostUpdateFailures, failuresJson, List.filterMap_append, hmap,
    filterMap_settled cache.sound settled, List.filterMap_cons, hf, List.filterMap_nil]
  rw [List.foldl_append, foldl_pushFailure_distinct (front ++ [last]) [] cache.distinct,
    List.nil_append, List.foldl_cons, List.foldl_nil, pushFailure_last cache.distinct,
    lastFour_of_short cache.short]

/-- A state that normalization reads back unchanged. -/
structure SchedulerState.Plain (s : SchedulerState) : Prop where
  goalId : trim s.scope.goalId = s.scope.goalId
  agentId : trim s.scope.agentId = s.scope.agentId
  surface : trim s.scope.surface = s.scope.surface
  stateKey : trim s.scope.stateKey = s.scope.stateKey
  resetToken : trim s.resetToken = s.resetToken ∧ s.resetToken ≠ ""
  identitySignature : trim s.identitySignature = s.identitySignature ∧ s.identitySignature ≠ ""
  index : 0 ≤ s.progressionIndex
  minutes : s.progressionMinutes ≠ []
  positive : ∀ m ∈ s.progressionMinutes, 0 < m
  applied : trim s.lastAppliedRrule = s.lastAppliedRrule
  present : s.lastAppliedRrule = "" → s.failures ≠ []
  cache : FailureCache s.failures
  settled : ∀ f ∈ s.failures, f.Settles 0
  others : ∀ k ∈ keys s.others, k ∉ normalizedKeys

theorem SchedulerState.lookup_others {s : SchedulerState}
    (others : ∀ k ∈ keys s.others, k ∉ normalizedKeys) {k : String} (hk : k ∈ normalizedKeys) :
    s.others.lookup k = none :=
  lookup_eq_none.mpr (fun h => others k h hk)

private theorem lookup_failureFields {failures : List HostUpdateFailure} {last : HostUpdateFailure}
    (hlast : failures.getLast? = some last) (k : String) :
    (failureFields failures).lookup k = if k = "host_update_failures" then
      some (failuresJson failures) else if k = "host_update_failure" then some last.toJson
      else none := by
  rw [failureFields, hlast]
  simp only [lookup_cons_ite, List.lookup_nil]

section Lookup

variable (s : SchedulerState)

@[simp] theorem lookup_fields_resetToken :
    s.fields.lookup "reset_token" = some (.string s.resetToken) := by
  simp [SchedulerState.fields, lookup_cons_ite]

@[simp] theorem lookup_fields_identitySignature :
    s.fields.lookup "identity_signature" = some (.string s.identitySignature) := by
  simp [SchedulerState.fields, lookup_cons_ite]

@[simp] theorem lookup_fields_progressionIndex :
    s.fields.lookup "progression_index" = some (intJson s.progressionIndex) := by
  simp [SchedulerState.fields, lookup_cons_ite]

@[simp] theorem lookup_fields_progressionMinutes :
    s.fields.lookup "progression_minutes" =
      some (.array (s.progressionMinutes.map intJson)) := by
  simp [SchedulerState.fields, lookup_cons_ite]

@[simp] theorem lookup_fields_lastAppliedRrule :
    s.fields.lookup "last_applied_rrule" = some (.string s.lastAppliedRrule) := by
  simp [SchedulerState.fields, lookup_cons_ite]

private theorem namesScope_fields (plain : s.Plain) : namesScope s.fields s.scope = true := by
  have hschema : trim SCHEDULER_STATE_SCHEMA_VERSION = SCHEDULER_STATE_SCHEMA_VERSION := by
    decide
  simp [namesScope, SchedulerState.fields, lookup_cons_ite, hschema, plain.goalId,
    plain.agentId, plain.surface, plain.stateKey]

variable {s}

private theorem lookup_fields_failures (others : ∀ k ∈ keys s.others, k ∉ normalizedKeys)
    {k : String} (hk : k = "host_update_failures" ∨ k = "host_update_failure") :
    s.fields.lookup k = (failureFields s.failures).lookup k := by
  have hothers : s.others.lookup k = none :=
    SchedulerState.lookup_others others (by rcases hk with rfl | rfl <;> decide)
  rcases hk with rfl | rfl <;>
    simp [SchedulerState.fields, lookup_cons_ite, List.lookup_append, hothers]

/-- The failure fields of a state are read back as its failures. -/
theorem normalize_fields_failures (cache : FailureCache s.failures)
    (settled : ∀ f ∈ s.failures, f.Settles 0)
    (others : ∀ k ∈ keys s.others, k ∉ normalizedKeys) :
    normalizeSchedulerHostUpdateFailures (s.fields.lookup "host_update_failures")
      (s.fields.lookup "host_update_failure") = s.failures := by
  rw [lookup_fields_failures others (.inl rfl), lookup_fields_failures others (.inr rfl)]
  cases hlast : s.failures.getLast? with
  | none =>
    rw [List.getLast?_eq_none_iff] at hlast
    rw [hlast]
    rfl
  | some last =>
    have hmem : last ∈ s.failures := List.mem_of_getLast? hlast
    rw [lookup_failureFields hlast, lookup_failureFields hlast, if_pos rfl,
      if_neg (by decide), if_pos rfl]
    exact normalize_failureCache_last cache settled hlast
      (normalize_settled (cache.sound last hmem) (settled last hmem))

/-- Where normalization leaves a state as it is, the last failure is in its normal form. -/
theorem normalized_last_of_unchanged {last : HostUpdateFailure}
    (others : ∀ k ∈ keys s.others, k ∉ normalizedKeys)
    (hlast : s.failures.getLast? = some last)
    (normal : normalizeSchedulerHostUpdateFailure (some last.toJson) = some last.normalized)
    (unchanged : normalizeSchedulerState (some s.toJson) s.scope = some s) :
    last.normalized = last := by
  have hfailures : normalizeSchedulerHostUpdateFailures (s.fields.lookup "host_update_failures")
      (s.fields.lookup "host_update_failure") = s.failures := by
    simp only [SchedulerState.toJson, normalizeSchedulerState] at unchanged
    split_ifs at unchanged
    split at unchanged
    · split_ifs at unchanged
      exact congrArg SchedulerState.failures (Option.some.inj unchanged)
    · cases unchanged
  have hlegacy : s.fields.lookup "host_update_failure" = some last.toJson := by
    rw [lookup_fields_failures others (.inr rfl), lookup_failureFields hlast, if_neg (by decide),
      if_pos rfl]
  rw [hlegacy] at hfailures
  rw [← hfailures, getLast?_normalize_legacy normal] at hlast
  exact Option.some.inj hlast

private theorem filter_fields (others : ∀ k ∈ keys s.others, k ∉ normalizedKeys) :
    s.fields.filter (fun field => decide (field.1 ∉ normalizedKeys)) = s.others := by
  have hothers : s.others.filter (fun field => decide (field.1 ∉ normalizedKeys)) = s.others := by
    rw [List.filter_eq_self]
    intro field hfield
    simpa using others field.1 (List.mem_map_of_mem hfield)
  have hfailures :
      (failureFields s.failures).filter (fun field => decide (field.1 ∉ normalizedKeys)) = [] := by
    unfold failureFields
    split
    · rfl
    · simp [normalizedKeys]
  simp only [SchedulerState.fields, List.filter_append, hothers, hfailures]
  simp [normalizedKeys]

/-- The stored document of a plain state is read back as that state. -/
theorem normalizeSchedulerState_toJson (plain : s.Plain) :
    normalizeSchedulerState (some s.toJson) s.scope = some s := by
  have hpresent : ¬(s.lastAppliedRrule = "" ∧ s.failures = []) := by
    rintro ⟨happlied, hfailures⟩
    exact plain.present happlied hfailures
  have hidentity : ¬(s.resetToken = "" ∨ s.identitySignature = "") := by
    rintro (h | h)
    · exact plain.resetToken.2 h
    · exact plain.identitySignature.2 h
  have hindex : ¬s.progressionIndex < 0 := by
    have := plain.index
    omega
  simp only [SchedulerState.toJson, normalizeSchedulerState, namesScope_fields s plain,
    lookup_fields_resetToken, lookup_fields_identitySignature, lookup_fields_progressionIndex,
    lookup_fields_progressionMinutes, lookup_fields_lastAppliedRrule, trimmed_string,
    plain.resetToken.1, plain.identitySignature.1, plain.applied,
    normalize_fields_failures plain.cache plain.settled plain.others, pythonInteger_intJson,
    positiveIntegerList_map plain.minutes plain.positive, filter_fields plain.others]
  rw [if_neg (by simp), if_neg hidentity, if_neg hpresent, if_neg hindex]

/-- A plain state is read for no other scope than its own. -/
theorem scope_of_normalizeSchedulerState (plain : s.Plain) {scope : SchedulerScope}
    {x : SchedulerState} (h : normalizeSchedulerState (some s.toJson) scope = some x) :
    scope = s.scope := by
  have hnames : namesScope s.fields scope = true := by
    by_contra hnames
    simp [normalizeSchedulerState, SchedulerState.toJson, hnames] at h
  simp [namesScope, SchedulerState.fields, lookup_cons_ite, plain.goalId, plain.agentId,
    plain.surface, plain.stateKey] at hnames
  obtain ⟨⟨⟨⟨-, hgoal⟩, hagent⟩, hsurface⟩, hkey⟩ := hnames
  have heta : scope = ⟨scope.goalId, scope.agentId, scope.surface, scope.stateKey⟩ := rfl
  rw [heta, ← hgoal, ← hagent, ← hsurface, ← hkey]

end Lookup

end Loopx.Scheduler
