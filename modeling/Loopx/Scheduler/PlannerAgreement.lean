/- GID: Loopx/Scheduler/PlannerAgreement
   generality: I
   source: loopx/control_plane/scheduler/state_transition_rules.ts
   digest: The cadence the planner asks for is one the commit kernel accepts and settles. -/

import Loopx.Scheduler.HeartbeatRuns

set_option autoImplicit false
set_option relaxedAutoImplicit false

namespace Loopx.Scheduler

open Loopx.Json (JsNumber numberText numberText_ofInt magnitudeText isNumberChar
  isNumberChar_numberText)
open Loopx.Authority (Sha256 trim trim_trim isJsSpace isJsSpace_of_isDigit IsStoreId)
open Loopx.Lib.KeyedList
open Loopx.Lib.Decimal (isDigit_toDigits head?_toDigits_ne_zero toDigits_ofDigitChars)
open Loopx.Lib.Fallible (ok_bind bind_eq_ok)

section Interval

private theorem toList_rrule (m : Int) : (rruleForMinutes m).toList =
    "FREQ=MINUTELY".toList ++ ';' :: ("INTERVAL".toList ++ '=' ::
      numberText (JsNumber.ofInt (max 1 m))) := by
  rw [toList_rruleForMinutes]
  rfl

private theorem splitAtEquals_cons {name value : List Char} (h : '=' ∉ name) :
    splitAtEquals (name ++ '=' :: value) = some (name, value) := by
  have hname : ∀ c ∈ name, decide (c ≠ '=') = true := by
    intro c hc
    simp only [decide_eq_true_eq]
    rintro rfl
    exact h hc
  rw [splitAtEquals, if_pos (by simp), List.takeWhile_append_of_pos hname,
    List.dropWhile_append_of_pos hname]
  simp

private theorem isJsSpace_numberText (n : JsNumber) :
    ∀ c ∈ numberText n, isJsSpace c = false := by
  intro c hc
  exact isJsSpace_of_isNumberChar (isNumberChar_numberText n c hc)

private theorem rruleParts_rruleForMinutes (m : Int) : rruleParts (rruleForMinutes m) =
    [("FREQ", "MINUTELY"),
      ("INTERVAL", String.ofList (numberText (JsNumber.ofInt (max 1 m))))] := by
  have hfreq : ';' ∉ "FREQ=MINUTELY".toList := by decide
  have hinterval : ';' ∉ "INTERVAL".toList ++ '=' :: numberText (JsNumber.ofInt (max 1 m)) := by
    intro h
    rcases List.mem_append.mp h with h | h
    · revert h
      decide
    · rcases List.mem_cons.mp h with h | h
      · simp at h
      · have := isNumberChar_numberText _ _ h
        simp [isNumberChar] at this
  have hfirst : splitAtEquals "FREQ=MINUTELY".toList =
      some ("FREQ".toList, "MINUTELY".toList) := by decide
  have hsecond := @splitAtEquals_cons "INTERVAL".toList
    (numberText (JsNumber.ofInt (max 1 m))) (by decide)
  have htrim : trim (String.ofList (numberText (JsNumber.ofInt (max 1 m)))) =
      String.ofList (numberText (JsNumber.ofInt (max 1 m))) := by
    apply trim_plain
    rw [String.toList_ofList]
    exact isJsSpace_numberText _
  rw [rruleParts, toList_rrule, List.splitOn_append_cons_self, List.splitOn_eq_singleton hfreq,
    List.splitOn_eq_singleton hinterval]
  have hname : String.ofList ((trim (String.ofList "FREQ".toList)).toList.map upperChar) =
      "FREQ" := by decide
  have hvalue : trim (String.ofList "MINUTELY".toList) = "MINUTELY" := by decide
  have hname' : String.ofList ((trim (String.ofList "INTERVAL".toList)).toList.map upperChar) =
      "INTERVAL" := by decide
  have hset : setKey (setKey [] "FREQ" "MINUTELY") "INTERVAL"
      (String.ofList (numberText (JsNumber.ofInt (max 1 m)))) = [("FREQ", "MINUTELY"),
        ("INTERVAL", String.ofList (numberText (JsNumber.ofInt (max 1 m))))] := by
    simp [setKey]
  rw [List.singleton_append, List.foldl_cons, List.foldl_cons, List.foldl_nil, hfirst, hsecond]
  dsimp only
  rw [hname, hvalue, hname', htrim, hset]

private theorem integerText?_digits {n : Nat} (safe : n ≤ JsNumber.maxSafeInteger) :
    integerText? (String.ofList (Nat.toDigits 10 n)) = some (n : Int) := by
  have hall : (Nat.toDigits 10 n).all Char.isDigit = true := by
    rw [List.all_eq_true]
    intro d hd
    exact isDigit_toDigits hd
  have hnonempty : Nat.toDigits 10 n ≠ [] := Nat.toDigits_ne_nil
  have hsign : ∀ d rest, Nat.toDigits 10 n = d :: rest → d ≠ '-' ∧ d ≠ '+' := by
    intro d rest h
    have hd : d.isDigit = true := isDigit_toDigits (by rw [h]; exact List.mem_cons_self)
    constructor <;> rintro rfl <;> simp at hd
  unfold integerText?
  rw [String.toList_ofList]
  split
  rename_i negative digits hread
  split at hread
  · rename_i rest h
    exact absurd rfl (hsign _ rest h).1
  · rename_i rest h
    exact absurd rfl (hsign _ rest h).2
  · obtain ⟨rfl, rfl⟩ := Prod.mk.inj hread
    simp only [hnonempty, hall, ne_eq, not_false_eq_true, and_self, if_true,
      Nat.ofDigitChars_ten_toDigits, safe]
    simp

/-- The interval is read back from the text of the minutes. -/
theorem schedulerRruleIntervalMinutes_rruleForMinutes {m : Int} (pos : 0 < m)
    (safe : m ≤ JsNumber.maxSafeInteger) :
    schedulerRruleIntervalMinutes (some (.string (rruleForMinutes m))) = some m := by
  have hmax : max 1 m = m := by omega
  have hmaxNat : m.toNat ≤ JsNumber.maxSafeInteger := by omega
  have hdigits : trim (String.ofList (Nat.toDigits 10 m.toNat)) =
      String.ofList (Nat.toDigits 10 m.toNat) := by
    apply trim_plain
    rw [String.toList_ofList]
    intro c hc
    exact isJsSpace_of_isDigit (isDigit_toDigits hc)
  have hupper : "MINUTELY".toList.map upperChar = "MINUTELY".toList := by decide
  have hinterval : integerText? (trim (String.ofList (Nat.toDigits 10 m.toNat))) = some m := by
    rw [hdigits, integerText?_digits hmaxNat, Int.toNat_of_nonneg pos.le]
  simp only [schedulerRruleIntervalMinutes, normalizeSchedulerRrule_string,
    normalizeRruleText_rruleForMinutes, rruleParts_rruleForMinutes, hmax,
    numberText_ofInt pos safe, lookup_cons_ite, if_true, Option.getD_some, hupper]
  rw [if_neg (by simp), if_neg (by decide)]
  simp only [Option.getD_some, hinterval, pos, if_true]

end Interval

/-- The record a planner request carries: no state is an empty object. -/
def plannedState (existing : Option SchedulerState) : List (String × Json) :=
  (existing.map SchedulerState.fields).getD []

/-- The state was written for the identity the request names. -/
def SameIdentity (b : BackoffRequest) (e : SchedulerState) : Prop :=
  e.resetToken = b.resetToken ∧ e.identitySignature = b.identitySignature

instance (b : BackoffRequest) (e : SchedulerState) : Decidable (SameIdentity b e) :=
  inferInstanceAs (Decidable (_ ∧ _))

/-- The recorded index is one of the recorded progression. -/
def SchedulerState.InRange (e : SchedulerState) : Prop :=
  0 ≤ e.progressionIndex ∧ e.progressionIndex < e.progressionMinutes.length

section Planner

variable {clock : HostClock} {b : BackoffRequest} {e : SchedulerState}

private theorem fields_ne_nil : e.fields ≠ [] := by
  simp [SchedulerState.fields]

private theorem identityMatches_fields :
    (cadenceFacts clock b e.fields).identityMatches = decide (SameIdentity b e) := by
  rw [Bool.eq_iff_iff, decide_eq_true_iff]
  simp [cadenceFacts, fields_ne_nil, SameIdentity]

private theorem statePresent_fields : (cadenceFacts clock b e.fields).statePresent = true := by
  simp [cadenceFacts, fields_ne_nil]

private theorem schedulerAppliedIndex_fields (inRange : e.InRange)
    (progression : e.progressionMinutes = b.progressionMinutes) :
    schedulerAppliedIndex b.progressionMinutes e.fields = e.progressionIndex := by
  have hrange : 0 ≤ e.progressionIndex ∧ e.progressionIndex < b.progressionMinutes.length := by
    rw [← progression]
    exact inRange
  simp [schedulerAppliedIndex, intJson, hrange]

/-- The planner's index: zero off the identity, else within one stage of the recorded one. -/
private theorem evaluateCadence_fresh (h : ¬SameIdentity b e) :
    (evaluateCadence (cadenceFacts clock b e.fields)).currentIndex = 0 := by
  simp [evaluateCadence, statePresent_fields, identityMatches_fields, h]

/-- Where the index goes from one that is in range. -/
private theorem currentIndex_matched (facts : CadenceFacts) (present : facts.statePresent = true)
    (matched : facts.identityMatches = true) (low : 0 ≤ facts.appliedIndex)
    (high : facts.appliedIndex < facts.progressionSize) :
    (facts.advanceSameIdentity = true ∨ facts.appliedIndex = 0 →
      facts.appliedIndex ≤ (evaluateCadence facts).currentIndex) ∧
      ((evaluateCadence facts).currentIndex : Int) ≤ facts.appliedIndex + 1 ∧
      (facts.advanceSameIdentity = false → facts.appliedIndex = 0 →
        (evaluateCadence facts).currentIndex = 0) := by
  unfold evaluateCadence
  rw [if_neg (by simp [present]), if_neg (by simp [matched])]
  by_cases hretry : facts.hasHostUpdateFailures = true ∧ facts.currentCadenceAcknowledged = false
  · simp only [if_pos hretry, clampIndex]
    omega
  · by_cases hadvance : facts.advanceSameIdentity = false
    · simp only [if_neg hretry, hadvance, if_true, Bool.false_eq_true, false_or, clampIndex]
      omega
    · have hfalse : ∀ p : Prop, facts.advanceSameIdentity = false → p :=
        fun p h => absurd h hadvance
      by_cases helapsed : facts.appliedIntervalElapsed = true
      · simp only [if_neg hretry, if_neg hadvance, if_pos helapsed, clampIndex]
        exact ⟨fun _ => by omega, by omega, hfalse _⟩
      · simp only [if_neg hretry, if_neg hadvance, if_neg helapsed, clampIndex]
        exact ⟨fun _ => by omega, by omega, hfalse _⟩

private theorem evaluateCadence_same (same : SameIdentity b e) (inRange : e.InRange)
    (progression : e.progressionMinutes = b.progressionMinutes)
    (held : b.advanceSameIdentity = true ∨ e.progressionIndex = 0) :
    e.progressionIndex ≤ (evaluateCadence (cadenceFacts clock b e.fields)).currentIndex ∧
      ((evaluateCadence (cadenceFacts clock b e.fields)).currentIndex : Int) ≤
        e.progressionIndex + 1 ∧
      (b.advanceSameIdentity = false →
        (evaluateCadence (cadenceFacts clock b e.fields)).currentIndex = 0) := by
  have happlied : (cadenceFacts clock b e.fields).appliedIndex = e.progressionIndex :=
    schedulerAppliedIndex_fields inRange progression
  have hsize : (cadenceFacts clock b e.fields).progressionSize = e.progressionMinutes.length := by
    simp [cadenceFacts, progression]
  have hadvance : (cadenceFacts clock b e.fields).advanceSameIdentity = b.advanceSameIdentity :=
    rfl
  obtain ⟨hlower, hupper, hzero⟩ := currentIndex_matched (cadenceFacts clock b e.fields)
    statePresent_fields (by simp [identityMatches_fields, same]) (by rw [happlied]; exact inRange.1)
    (by rw [happlied, hsize]; exact inRange.2)
  rw [happlied, hadvance] at hlower hzero
  rw [happlied] at hupper
  refine ⟨hlower held, hupper, ?_⟩
  intro hhold
  refine hzero hhold ?_
  rcases held with h | h
  · rw [h] at hhold
    simp at hhold
  · exact h

end Planner

/-- An ACK of what the planner asked for, against the state it was planned on. -/
structure AckOf (sha : Sha256) (b : BackoffRequest) (plan : BackoffResult)
    (existing : Option SchedulerState) (q : CommitRequest) : Prop where
  decoded : q.Decoded
  operation : q.operation = .ack
  resetToken : q.resetToken = b.resetToken
  identitySignature : q.identitySignature = b.identitySignature
  progressionMinutes : q.progressionMinutes = b.progressionMinutes
  progressionIndex : q.progressionIndex = plan.currentIndex
  expected : q.expectedRrule = plan.currentRrule
  applied : q.appliedRrule = plan.currentRrule
  observed : q.observedHostRrule = plan.currentRrule
  generatedAt : q.generatedAt = trim b.currentTime
  digest : q.expectedStateDigest = schedulerHeartbeatCommitStateDigest sha existing
  execute : q.execute = true
  needed : ¬(q.ackNeeded = some false ∧ q.applyNeeded = some false)
  /- An effect id that is already bound is bound to this very request. -/
  effect : ∀ metadata, commitMetadata existing = some metadata →
    metadata.effectId = q.effectId →
      metadata.operation = q.operation ∧ metadata.requestDigest = requestDigest sha q

/-- When planner and kernel agree: the progression is the recorded one, an identity that does not
advance is still at its first stage, and the time and the intervals can be read. -/
structure Plannable (clock : HostClock) (b : BackoffRequest) (existing : Option SchedulerState) :
    Prop where
  progression : ∀ e ∈ existing, SameIdentity b e → e.progressionMinutes = b.progressionMinutes
  held : b.advanceSameIdentity = true ∨
    ∀ e ∈ existing, SameIdentity b e → e.progressionIndex = 0
  time : b.advanceSameIdentity = true →
    (schedulerTimestampMilliseconds clock (some (.string b.currentTime))).isSome = true
  safe : b.advanceSameIdentity = true →
    ∀ m ∈ b.progressionMinutes, m ≤ JsNumber.maxSafeInteger

section Agreement

variable {sha : Sha256} {clock : HostClock} {b : BackoffRequest}
  {existing : Option SchedulerState} {q : CommitRequest}

private theorem currentRrule_eq (state : List (String × Json)) :
    (evaluateBackoff clock b state).currentRrule = rruleForMinutes
      (minutesAt b.progressionMinutes (evaluateBackoff clock b state).currentIndex) := rfl

private theorem AckOf.rrule (ack : AckOf sha b
    (evaluateBackoff clock b (plannedState existing)) existing q) : q.appliedRrule =
    rruleForMinutes (minutesAt b.progressionMinutes q.progressionIndex) := by
  rw [ack.applied, currentRrule_eq, ack.progressionIndex]

private theorem AckOf.derived (ack : AckOf sha b
    (evaluateBackoff clock b (plannedState existing)) existing q) :
    derivedRrule q = q.expectedRrule := by
  rw [derivedRrule, ack.progressionMinutes, ack.progressionIndex, ack.expected, currentRrule_eq]

private theorem AckOf.admitted (ack : AckOf sha b
    (evaluateBackoff clock b (plannedState existing)) existing q)
    (inRange : ∀ e ∈ existing, e.InRange) (plannable : Plannable clock b existing) :
    admitProgression q existing = none := by
  have hexact : q.appliedRrule = q.expectedRrule := ack.applied.trans ack.expected.symm
  have hstale : isStaleMonitorAck q = false := by simp [isStaleMonitorAck, hexact]
  cases existing with
  | none =>
    have hzero : q.progressionIndex = 0 := ack.progressionIndex
    simp [admitProgression, hzero]
  | some e =>
    by_cases hsame : SameIdentity b e
    · have hequal : identityEqual q e = true := by
        simp [identityEqual, ack.resetToken, ack.identitySignature, hsame.1, hsame.2]
      obtain ⟨hlow, hhigh, -⟩ := @evaluateCadence_same clock b e hsame (inRange e rfl)
        (plannable.progression e rfl hsame) (plannable.held.imp id (fun h => h e rfl hsame))
      have hindex : q.progressionIndex =
        (evaluateCadence (cadenceFacts clock b e.fields)).currentIndex := ack.progressionIndex
      rw [← hindex] at hlow hhigh
      have hback : ¬(q.progressionIndex : Int) < e.progressionIndex := by omega
      have hskip : ¬e.progressionIndex + 1 < (q.progressionIndex : Int) := by omega
      simp [admitProgression, hequal, hback, hskip]
    · have hequal : identityEqual q e = false := by
        rw [SameIdentity, ← ack.resetToken, ← ack.identitySignature] at hsame
        simpa [identityEqual] using hsame
      have hzero : q.progressionIndex = 0 :=
        ack.progressionIndex.trans (evaluateCadence_fresh hsame)
      simp [admitProgression, hequal, hstale, hexact, ack.operation, hzero]

private theorem AckOf.fresh_or_replayed {plan : BackoffResult} (ack : AckOf sha b plan existing q) :
    replayOrStale sha q existing = none ∨ replayOrStale sha q existing =
      some ⟨.replayed, existing, "scheduler heartbeat commit replayed", none⟩ := by
  have hcurrent : ¬q.expectedStateDigest ≠ schedulerHeartbeatCommitStateDigest sha existing :=
    not_not_intro ack.digest
  unfold replayOrStale
  split
  · rename_i metadata hmetadata
    by_cases heffect : metadata.effectId = q.effectId
    · rw [if_pos heffect, if_pos (ack.effect metadata hmetadata heffect)]
      exact .inr rfl
    · rw [if_neg heffect, if_neg hcurrent]
      exact .inl rfl
  · rw [if_neg hcurrent]
    exact .inl rfl

/-- The ACK passes every check of the kernel: it is written, or it was already. -/
private theorem AckOf.accepted (ack : AckOf sha b
    (evaluateBackoff clock b (plannedState existing)) existing q)
    (inRange : ∀ e ∈ existing, e.InRange) (plannable : Plannable clock b existing)
    {receipt : Option ReceiptStatus} (hreceipt : ∀ status ∈ receipt, status = .fresh) :
    ∃ result saved, commitLocked sha clock q receipt existing = .ok (result, saved) ∧
      (result.status = .written ∨ result.status = .replayed) ∧
      ∀ s ∈ saved, s = commitState q (requestDigest sha q) q.appliedRrule
        (ackCache clock q existing) := by
  have hexact : q.appliedRrule = q.expectedRrule := ack.applied.trans ack.expected.symm
  have hrrule := ack.rrule
  have hnonempty : q.appliedRrule ≠ "" := by
    rw [hrrule]
    exact rruleForMinutes_ne_empty _
  have htrim : trim q.appliedRrule ≠ "" := by
    rw [hrrule, trim_rruleForMinutes]
    exact rruleForMinutes_ne_empty _
  have hpass : receipt.bind (receiptConflict existing) = none := by
    cases receipt with
    | none => rfl
    | some status => rw [hreceipt status rfl]; rfl
  have hmatch : hostMatchMismatch q = false := by
    simp [hostMatchMismatch, ack.operation, ack.observed, ← ack.applied, hnonempty]
  have hbuilt : buildAckState clock q existing (requestDigest sha q) =
      .state (commitState q (requestDigest sha q) q.appliedRrule (ackCache clock q existing)) :=
    buildAckState_exact ack.decoded ack.needed ack.derived.symm hexact htrim
  rcases ack.fresh_or_replayed with hfresh | hreplayed
  · refine ⟨_, _, commitLocked_of_built hpass hmatch hfresh (ack.admitted inRange plannable)
      (by rw [if_pos ack.operation]; exact hbuilt) ack.execute, .inl rfl, ?_⟩
    intro s hs
    exact (Option.mem_some.mp hs).symm
  · refine ⟨_, _, commitLocked_of_replayed hpass hmatch hreplayed, .inr rfl, by simp⟩

/-- The same request once the host runs on the RRULE that was asked for. -/
def BackoffRequest.onHost (b : BackoffRequest) (rrule : String) : BackoffRequest :=
  { b with observedHostRrule := some (.string rrule) }

private theorem schedulerTimestampMilliseconds_trim (time : String) :
    schedulerTimestampMilliseconds clock (some (.string (trim time))) =
      schedulerTimestampMilliseconds clock (some (.string time)) := by
  simp only [schedulerTimestampMilliseconds, trimmed_string, trim_trim]

private theorem recentFailures_plain {s : SchedulerState} (plain : s.Plain) {time : String}
    {f : HostUpdateFailure} (h : f ∈ recentFailures clock s.fields time) : f ∈ s.failures := by
  rw [recentFailures, normalize_fields_failures plain.cache plain.settled plain.others] at h
  have hmem := List.mem_of_mem_filter h
  rwa [normalize_failureCache plain.cache plain.settled] at hmem

/-- No failure that an ACK keeps speaks of the RRULE it applied. -/
private theorem target_ne_of_ackCache {f : HostUpdateFailure}
    (h : f ∈ ackCache clock q existing) : f.targetRrule ≠ q.appliedRrule := by
  rw [ackCache] at h
  obtain ⟨g, hg, hf⟩ := exists_of_mem_normalize h
  rw [ackFailures, List.mem_filter, decide_eq_true_eq] at hg
  have htarget : f.targetRrule = normalizeRruleText g.targetRrule := by
    rw [hf, HostUpdateFailure.normalized]
  rw [htarget]
  exact hg.2

/-- The host settles on a cadence that is recorded, acknowledged and without a failure. -/
private theorem hostTransition_settled {s : SchedulerState} {rrule : String}
    (nonempty : rrule ≠ "") (fixed : normalizeRruleText rrule = rrule)
    (applied : normalizeRruleText s.lastAppliedRrule = rrule)
    (trimmedRrule : trim s.lastAppliedRrule = s.lastAppliedRrule)
    (cadence : (evaluateCadence (cadenceFacts clock b s.fields)).stateStatus = .sameIdentity)
    (current : rruleForMinutes (minutesAt b.progressionMinutes
      (evaluateCadence (cadenceFacts clock b s.fields)).currentIndex) = rrule)
    (host : b.observedHostRrule = some (.string rrule))
    (failures : ∀ f ∈ recentFailures clock s.fields b.currentTime,
      normalizeRruleText f.targetRrule ≠ rrule) :
    (evaluateBackoff clock b s.fields).hostTransition = .settled := by
  have hlast : lastAppliedText s.fields = s.lastAppliedRrule := by
    simp only [lastAppliedText, lookup_fields_lastAppliedRrule, trimmedRrule]
  have hany : (recentFailures clock s.fields b.currentTime).any
      (fun f => normalizeRruleText f.targetRrule = rrule) = false := by
    rw [List.any_eq_false]
    intro f hf
    simpa using failures f hf
  simp only [evaluateBackoff, host, normalizeSchedulerRrule_string, fixed, nonempty, if_false,
    current, cadence, hlast, applied, hany, evaluateHost]
  simp

/-- After the ACK is written the planner stays where it is. -/
private theorem evaluateCadence_after {s : SchedulerState} (same : SameIdentity b s)
    (inRange : s.InRange) (progression : s.progressionMinutes = b.progressionMinutes)
    (acknowledged : (cadenceFacts clock b s.fields).currentCadenceAcknowledged = true)
    (held : b.advanceSameIdentity = false → s.progressionIndex = 0)
    (waiting : b.advanceSameIdentity = true →
      schedulerProgressionIntervalElapsed clock s.fields b.currentTime = false) :
    (evaluateCadence (cadenceFacts clock b s.fields)).stateStatus = .sameIdentity ∧
      ((evaluateCadence (cadenceFacts clock b s.fields)).currentIndex : Int) =
        s.progressionIndex := by
  have happlied : (cadenceFacts clock b s.fields).appliedIndex = s.progressionIndex :=
    schedulerAppliedIndex_fields inRange progression
  have hsize : (cadenceFacts clock b s.fields).progressionSize = s.progressionMinutes.length := by
    simp [cadenceFacts, progression]
  have hadvance : (cadenceFacts clock b s.fields).advanceSameIdentity =
      b.advanceSameIdentity := by
    simp only [cadenceFacts]
  obtain ⟨hlow, hhigh⟩ := inRange
  unfold evaluateCadence
  rw [if_neg (by simp [statePresent_fields]), if_neg (by simp [identityMatches_fields, same])]
  refine ⟨rfl, ?_⟩
  simp only [acknowledged, hadvance, happlied, hsize, Bool.true_eq_false, and_false, if_false,
    clampIndex]
  by_cases hhold : b.advanceSameIdentity = false
  · rw [if_pos hhold, held hhold]
    simp
  · have helapsed : (cadenceFacts clock b s.fields).appliedIntervalElapsed = false := by
      simp only [cadenceFacts, waiting (by simpa using hhold)]
    simp only [if_neg hhold, helapsed, Bool.false_eq_true, if_false]
    omega

/-- The cadence of a state just written has not run out. -/
private theorem elapsed_after {digest : String} {failures : List HostUpdateFailure} {m : Int}
    (htime : q.generatedAt = trim b.currentTime)
    (hrrule : q.appliedRrule = rruleForMinutes m) (pos : 0 < m)
    (safe : m ≤ JsNumber.maxSafeInteger)
    (readable : (schedulerTimestampMilliseconds clock (some (.string b.currentTime))).isSome) :
    schedulerProgressionIntervalElapsed clock
      (commitState q digest q.appliedRrule failures).fields b.currentTime = false := by
  obtain ⟨now, hnow⟩ := Option.isSome_iff_exists.mp readable
  have happlied : (commitState q digest q.appliedRrule failures).lastAppliedRrule =
      rruleForMinutes m := by
    rw [commitState, hrrule, trim_rruleForMinutes]
  rw [schedulerProgressionIntervalElapsed, (lookup_commitState q digest q.appliedRrule failures).1,
    lookup_fields_lastAppliedRrule, happlied, htime, schedulerTimestampMilliseconds_trim, hnow,
    schedulerRruleIntervalMinutes_rruleForMinutes pos safe]
  simp only [decide_eq_false_iff_not]
  omega

/-- An identity that does not advance is asked for its first stage. -/
private theorem AckOf.held (ack : AckOf sha b
    (evaluateBackoff clock b (plannedState existing)) existing q)
    (inRange : ∀ e ∈ existing, e.InRange) (plannable : Plannable clock b existing)
    (hold : b.advanceSameIdentity = false) : q.progressionIndex = 0 := by
  rw [ack.progressionIndex]
  cases existing with
  | none => rfl
  | some e =>
    by_cases hsame : SameIdentity b e
    · obtain ⟨-, -, hzero⟩ := @evaluateCadence_same clock b e hsame (inRange e rfl)
        (plannable.progression e rfl hsame) (plannable.held.imp id (fun h => h e rfl hsame))
      exact hzero hold
    · exact evaluateCadence_fresh hsame

private theorem acknowledged_after {s : SchedulerState} (inRange : s.InRange)
    (progression : s.progressionMinutes = b.progressionMinutes)
    (applied : s.lastAppliedRrule = rruleForMinutes
      (minutesAt b.progressionMinutes s.progressionIndex.toNat)) :
    (cadenceFacts clock b s.fields).currentCadenceAcknowledged = true := by
  have hlast : normalizeRruleText (lastAppliedText s.fields) = rruleForMinutes
      (minutesAt b.progressionMinutes s.progressionIndex.toNat) := by
    simp only [lastAppliedText, lookup_fields_lastAppliedRrule, applied, trim_rruleForMinutes,
      normalizeRruleText_rruleForMinutes]
  simp only [cadenceFacts, schedulerAppliedIndex_fields inRange progression, hlast, inRange.1,
    and_self, decide_true]

/-- The planner at the same time, on the state the ACK wrote and the host it left. -/
private theorem AckOf.settled (ack : AckOf sha b
    (evaluateBackoff clock b (plannedState existing)) existing q)
    (plain : ∀ e ∈ existing, e.Plain) (inRange : ∀ e ∈ existing, e.InRange)
    (plannable : Plannable clock b existing) (settled : q.Settled) {digest : String} :
    (evaluateBackoff clock (b.onHost q.appliedRrule)
      (commitState q digest q.appliedRrule (ackCache clock q existing)).fields).hostTransition =
      .settled := by
  set s := commitState q digest q.appliedRrule (ackCache clock q existing) with hs
  have hrrule := ack.rrule
  have happlied : s.lastAppliedRrule = q.appliedRrule := by
    rw [hs, commitState, hrrule, trim_rruleForMinutes]
  have hnonempty : trim q.appliedRrule ≠ "" := by
    rw [hrrule, trim_rruleForMinutes]
    exact rruleForMinutes_ne_empty _
  have hplain : s.Plain := Writes.plain (.ack ack.operation (fun h => absurd h hnonempty))
    ack.decoded settled plain
  have hfailures : s.failures = ackCache clock q existing := by rw [hs, commitState]
  have hindex : s.progressionIndex = q.progressionIndex := by rw [hs, commitState]
  have hminutes : s.progressionMinutes = b.progressionMinutes := by
    rw [hs, commitState]
    exact ack.progressionMinutes
  have hrange : s.InRange := by
    have hvalid := ack.decoded.valid.index
    rw [ack.progressionMinutes, ← hminutes] at hvalid
    rw [SchedulerState.InRange, hindex]
    omega
  have hmem : minutesAt b.progressionMinutes q.progressionIndex ∈ b.progressionMinutes := by
    have hvalid := ack.decoded.valid.index
    rw [ack.progressionMinutes] at hvalid
    rw [minutesAt, List.getD_eq_getElem?_getD, List.getElem?_eq_getElem hvalid,
      Option.getD_some]
    exact List.getElem_mem hvalid
  obtain ⟨hstatus, hcurrent⟩ := @evaluateCadence_after clock (b.onHost q.appliedRrule) s
    ⟨ack.resetToken, ack.identitySignature⟩ hrange hminutes
    (acknowledged_after hrange hminutes (by rw [happlied, hindex, Int.toNat_natCast]; exact hrrule))
    (fun hold => by rw [hindex, ack.held inRange plannable hold]; rfl)
    (fun hadvance => elapsed_after ack.generatedAt hrrule (b.positive _ hmem)
      (plannable.safe hadvance _ hmem) (plannable.time hadvance))
  refine hostTransition_settled ?_ ?_ ?_ hplain.applied hstatus ?_ rfl ?_
  · intro h
    rw [h] at hnonempty
    exact hnonempty rfl
  · rw [hrrule, normalizeRruleText_rruleForMinutes]
  · rw [happlied, hrrule, normalizeRruleText_rruleForMinutes]
  · rw [hindex] at hcurrent
    rw [Int.natCast_inj.mp hcurrent]
    exact hrrule.symm
  · intro f hf
    have hkept : f ∈ s.failures := recentFailures_plain hplain hf
    have hfixed := (hplain.settled f hkept).target.fixed
    rw [hfailures] at hkept
    rw [hfixed]
    exact target_ne_of_ackCache hkept

end Agreement

/-- The state file after a run of commits. -/
def runFile (sha : Sha256) : Option Json → List Delivery → Option Json
  | file, [] => file
  | file, d :: rest => runFile sha (fileAfter file (d.outcome sha file)) rest

/-- No file, or the document of a plain state whose index is in range. -/
def StoredPlain (file : Option Json) : Prop :=
  ∀ document ∈ file, ∃ s : SchedulerState, document = s.toJson ∧ s.Plain ∧ s.InRange

private theorem StoredPlain.read {file : Option Json} (h : StoredPlain file)
    {scope : SchedulerScope} {existing : Option SchedulerState}
    (hread : readStateUnderLock file scope = .ok existing) :
    ∀ e ∈ existing, e.Plain ∧ e.InRange := by
  cases file with
  | none =>
    rw [← Except.ok.inj hread]
    simp
  | some document =>
    obtain ⟨s, rfl, hplain, hrange⟩ := h document rfl
    rw [readStateUnderLock_plain hplain hread]
    intro e he
    obtain rfl := Option.mem_some.mp he
    exact ⟨hplain, hrange⟩

private theorem Writes.inRange {clock : HostClock} {r : CommitRequest}
    {existing : Option SchedulerState} {digest : String} {s : SchedulerState}
    (h : Writes clock r existing digest s) (decoded : r.Decoded) : s.InRange := by
  obtain ⟨applied, failures, rfl, -⟩ := h.commitState_eq
  have := decoded.valid.index
  simp only [SchedulerState.InRange, commitState]
  omega

/-- One commit of a settled request keeps the stored state plain. -/
private theorem StoredPlain.step {sha : Sha256} {file : Option Json} (h : StoredPlain file)
    (d : Delivery) (settled : ∀ r, commitRequest d.request = .ok r → r.Settled) :
    StoredPlain (fileAfter file (d.outcome sha file)) := by
  unfold fileAfter
  split
  · rename_i result s houtcome
    obtain ⟨r, hr, houtcome⟩ := bind_eq_ok.mp houtcome
    obtain ⟨existing, hread, hcommit⟩ := bind_eq_ok.mp houtcome
    have decoded := decoded_of_commitRequest hr
    obtain ⟨-, -, -, -, -, hwrites⟩ := commitLocked_written decoded hcommit
    have hplain := hwrites.plain decoded (settled r hr) (fun e he => (h.read hread e he).1)
    intro document hdocument
    exact ⟨s, (Option.mem_some.mp hdocument).symm, hplain, hwrites.inRange decoded⟩
  · exact h

private theorem StoredPlain.run {sha : Sha256} {deliveries : List Delivery}
    (settled : ∀ r ∈ requestsOf deliveries, r.Settled) {file : Option Json}
    (h : StoredPlain file) : StoredPlain (runFile sha file deliveries) := by
  induction deliveries generalizing file with
  | nil => exact h
  | cons d rest ih =>
    have hrest : ∀ r ∈ requestsOf rest, r.Settled := by
      intro r hr
      exact settled r (requestsOf_cons_subset d rest hr)
    refine ih hrest (h.step d ?_)
    intro r hr
    exact settled r (mem_requestsOf List.mem_cons_self hr)

/-- On every state a run of commits leaves, an ACK of what the planner asks for is written or
replayed, and once written the planner is settled on it. -/
theorem planner_ack_accepted (sha : Sha256) (clock : HostClock) (deliveries : List Delivery)
    (settled : ∀ r ∈ requestsOf deliveries, r.Settled) (b : BackoffRequest) (q : CommitRequest)
    (receipt : Option ReceiptStatus) (existing : Option SchedulerState)
    (stored : readStateUnderLock (runFile sha none deliveries) q.scope = .ok existing)
    (plannable : Plannable clock b existing)
    (ack : AckOf sha b (evaluateBackoff clock b (plannedState existing)) existing q)
    (ackSettled : q.Settled) (fresh : ∀ status ∈ receipt, status = .fresh) :
    ∃ result saved, evaluateSchedulerHeartbeatCommit sha clock q receipt
        (runFile sha none deliveries) = .ok (result, saved) ∧
      (result.status = .written ∨ result.status = .replayed) ∧
      (result.status = .written → ∃ s, saved = some s ∧
        (evaluateBackoff clock (b.onHost (evaluateBackoff clock b (plannedState
          existing)).currentRrule) s.fields).hostTransition = .settled) := by
  have hnone : StoredPlain none := by
    intro document h
    simp at h
  have hread := (@StoredPlain.run sha deliveries settled none hnone).read stored
  have hplain := fun e he => (hread e he).1
  have hrange := fun e he => (hread e he).2
  obtain ⟨result, saved, hcommit, hstatus, hsaved⟩ := ack.accepted hrange plannable fresh
  refine ⟨result, saved, ?_, hstatus, ?_⟩
  · rw [evaluateSchedulerHeartbeatCommit, stored]
    exact hcommit
  · intro hwritten
    cases saved with
    | none => exact absurd hwritten (commitLocked_kept hcommit)
    | some s =>
      refine ⟨s, rfl, ?_⟩
      rw [hsaved s rfl, ← ack.applied]
      exact ack.settled hplain hrange plannable ackSettled

section Stages

private def stageClock : HostClock where
  dateParse := fun s =>
    if s = "2026-01-01T08:00:00Z" then some 1767254400000
    else if s = "2026-01-01T08:05:00Z" then some 1767254700000
    else if s = "2026-01-01T08:06:00Z" then some 1767254760000
    else none
  now := 1767254760000

/-- An ACK of one stage of the progression 5, 10. -/
private def stageRequest (effectId : String) (index : Nat) (rrule time : String)
    (digest : Option String) : CommitRequest :=
  ⟨.ack, effectId, "/runtime", goalScope, "token", "signature", index, [5, 10], rrule, rrule,
    "default", 2, time, digest, true, none, none, "quota_scheduler_ack", false, none, rrule, []⟩

private def backoff (time host : String) (advance : Bool) : BackoffRequest :=
  ⟨[5, 10], by decide, by decide, "token", "signature", time, some (.string host), "default", 2,
    advance⟩

/-- The second stage, five minutes after the first. -/
private def secondStage : CommitRequest :=
  stageRequest "stage-2" 1 "FREQ=MINUTELY;INTERVAL=10" "2026-01-01T08:05:00Z"
    (some (stateDigest (ackState "ack-1" none)))

private def secondStageFields : List (String × Json) :=
  [("schema_version", .string SCHEDULER_HEARTBEAT_COMMIT_REQUEST_SCHEMA),
    ("operation", .string "ack"), ("effect_id", .string "stage-2"),
    ("runtime_root", .string "/runtime"), ("goal_id", .string "goal"),
    ("agent_id", .string "agent"), ("reset_token", .string "token"),
    ("identity_signature", .string "signature"), ("progression_index", intJson 1),
    ("progression_minutes", .array [intJson 5, intJson 10]),
    ("generated_at", .string "2026-01-01T08:05:00Z"),
    ("applied_rrule", .string "FREQ=MINUTELY;INTERVAL=10"),
    ("observed_host_rrule", .string "FREQ=MINUTELY;INTERVAL=10")]

private def secondStageCall : Delivery :=
  ⟨.object (secondStageFields ++
    [("expected_state_digest", .string (stateDigest (ackState "ack-1" none)))]), none, stageClock⟩

private theorem commitRequest_secondStage :
    commitRequest secondStageCall.request = .ok secondStage :=
  commitRequest_digest (isStoreId_sha256Text _ _)
    (show (requestObject secondStageFields).toOption = some (stageRequest "stage-2" 1
      "FREQ=MINUTELY;INTERVAL=10" "2026-01-01T08:05:00Z" none) by decide +kernel)
    (by decide)

private theorem runFile_firstAck (rest : List Delivery) :
    runFile Sha256.node none (firstAck :: rest) =
      runFile Sha256.node (some (ackState "ack-1" none).toJson) rest := by
  obtain ⟨result, h⟩ := outcome_firstAck
  rw [runFile, h, fileAfter]

private theorem plain_firstStage : (ackState "ack-1" none).Plain :=
  plain_ackState (decoded_of_commitRequest commitRequest_firstAck)

private theorem read_firstStage :
    readStateUnderLock (runFile Sha256.node none [firstAck]) goalScope =
      .ok (some (ackState "ack-1" none)) := by
  have hscope : goalScope = (ackState "ack-1" none).scope := rfl
  rw [runFile_firstAck, runFile, readStateUnderLock, hscope,
    normalizeSchedulerState_toJson plain_firstStage]

/-- Five minutes later, with the host still on the first stage. -/
private def advancing : BackoffRequest :=
  backoff "2026-01-01T08:05:00Z" "FREQ=MINUTELY;INTERVAL=5" true

private theorem plan_secondStage :
    (evaluateBackoff stageClock advancing (plannedState (some (ackState "ack-1" none)))).currentIndex
        = 1 ∧
      (evaluateBackoff stageClock advancing
        (plannedState (some (ackState "ack-1" none)))).currentRrule =
        "FREQ=MINUTELY;INTERVAL=10" ∧
      (evaluateBackoff stageClock advancing
        (plannedState (some (ackState "ack-1" none)))).hostTransition = .applyRequired := by
  decide +kernel

private theorem ackOf_secondStage : AckOf Sha256.node advancing
    (evaluateBackoff stageClock advancing (plannedState (some (ackState "ack-1" none))))
    (some (ackState "ack-1" none)) secondStage where
  decoded := decoded_of_commitRequest commitRequest_secondStage
  operation := rfl
  resetToken := rfl
  identitySignature := rfl
  progressionMinutes := rfl
  progressionIndex := plan_secondStage.1.symm
  expected := plan_secondStage.2.1.symm
  applied := plan_secondStage.2.1.symm
  observed := plan_secondStage.2.1.symm
  generatedAt := by decide
  digest := (digest_some _).symm
  execute := rfl
  needed := fun h => nomatch h.1
  effect := by
    intro metadata hmetadata heffect
    rw [ackState, commitMetadata_commitState] at hmetadata
    rw [← Option.some.inj hmetadata] at heffect
    exact absurd heffect (show ¬"ack-1" = "stage-2" by decide)

private theorem settled_firstAck : ∀ r ∈ requestsOf [firstAck], r.Settled := by
  intro r hr
  obtain ⟨d, hd, hr⟩ := List.mem_filterMap.mp hr
  rw [List.mem_singleton.mp hd, commitRequest_firstAck] at hr
  rw [← Option.some.inj hr]
  exact ⟨by decide, by simp [ackRequest]⟩

private theorem plannable_secondStage :
    Plannable stageClock advancing (some (ackState "ack-1" none)) where
  progression := by
    intro e he _
    rw [← Option.mem_some.mp he]
    rfl
  held := .inl rfl
  time := fun _ => by decide
  safe := fun _ => by decide

/-- The agreement at the second stage of a progression. -/
theorem planner_ack_accepted_second_stage :
    (evaluateBackoff stageClock advancing
      (plannedState (some (ackState "ack-1" none)))).hostTransition = .applyRequired ∧
    ∃ result saved, evaluateSchedulerHeartbeatCommit Sha256.node stageClock secondStage none
        (runFile Sha256.node none [firstAck]) = .ok (result, saved) ∧
      (result.status = .written ∨ result.status = .replayed) := by
  refine ⟨plan_secondStage.2.2, ?_⟩
  obtain ⟨result, saved, hcommit, hstatus, -⟩ := planner_ack_accepted Sha256.node stageClock
    [firstAck] settled_firstAck advancing secondStage none (some (ackState "ack-1" none))
    read_firstStage plannable_secondStage ackOf_secondStage ⟨by decide, by simp [secondStage,
      stageRequest]⟩ (by simp)
  exact ⟨result, saved, hcommit, hstatus⟩

/-- The state the second stage writes. -/
private def secondState : SchedulerState :=
  commitState secondStage (requestDigest Sha256.node secondStage) "FREQ=MINUTELY;INTERVAL=10" []

private theorem plain_secondState : secondState.Plain :=
  plain_commitState (decoded_of_commitRequest commitRequest_secondStage)
    (fun h => absurd h (by decide)) ⟨by simp, List.Pairwise.nil, by simp⟩ (by simp)

private theorem outcome_secondStage : ∃ result,
    secondStageCall.outcome Sha256.node (some (ackState "ack-1" none).toJson) =
      .ok (result, some secondState) := by
  have hrrule : "FREQ=MINUTELY;INTERVAL=10" = rruleForMinutes 10 := by decide
  have hbuilt := @buildAckState_exact secondStage stageClock (some (ackState "ack-1" none))
    (requestDigest Sha256.node secondStage) (decoded_of_commitRequest commitRequest_secondStage)
    (fun h => nomatch h.1) hrrule rfl (show trim "FREQ=MINUTELY;INTERVAL=10" ≠ "" by decide)
  have hempty : ackCache stageClock secondStage (some (ackState "ack-1" none)) = [] := by
    decide
  have hfresh : replayOrStale Sha256.node secondStage (some (ackState "ack-1" none)) = none :=
    replayOrStale_commitState (show "ack-1" ≠ "stage-2" by decide) (digest_some _).symm
  rw [hempty] at hbuilt
  exact ⟨_, outcome_later commitRequest_secondStage plain_firstStage rfl
    (commitLocked_of_ack rfl rfl rfl hfresh (by decide) hbuilt rfl)⟩

private theorem runFile_secondStage :
    runFile Sha256.node none [firstAck, secondStageCall] = some secondState.toJson := by
  obtain ⟨result, h⟩ := outcome_secondStage
  rw [runFile_firstAck, runFile, h, fileAfter, runFile]

/-- A minute later the profile holds active work at its first stage. -/
private def holding : BackoffRequest :=
  backoff "2026-01-01T08:06:00Z" "FREQ=MINUTELY;INTERVAL=10" false

private theorem plan_holding :
    (evaluateBackoff stageClock holding (plannedState (some secondState))).currentIndex = 0 ∧
      (evaluateBackoff stageClock holding (plannedState (some secondState))).currentRrule =
        "FREQ=MINUTELY;INTERVAL=5" ∧
      (evaluateBackoff stageClock holding (plannedState (some secondState))).hostTransition =
        .applyRequired := by
  decide

/-- The ACK of what was asked for. -/
private def heldStage : CommitRequest :=
  stageRequest "stage-3" 0 "FREQ=MINUTELY;INTERVAL=5" "2026-01-01T08:06:00Z"
    (some (stateDigest secondState))

private theorem ackOf_heldStage : AckOf Sha256.node holding
    (evaluateBackoff stageClock holding (plannedState (some secondState))) (some secondState)
    heldStage where
  decoded := {
    valid := ⟨by decide, by decide⟩
    goalId := by decide
    agentId := by decide
    surface := by decide
    stateKey := by decide
    resetToken := by decide
    identitySignature := by decide
    generatedAt := by decide
    source := by decide
    failureKind := by simp [heldStage, stageRequest]
    prior := ⟨by simp [heldStage, stageRequest], List.Pairwise.nil, by decide⟩ }
  operation := rfl
  resetToken := rfl
  identitySignature := rfl
  progressionMinutes := rfl
  progressionIndex := plan_holding.1.symm
  expected := plan_holding.2.1.symm
  applied := plan_holding.2.1.symm
  observed := plan_holding.2.1.symm
  generatedAt := by decide
  digest := (digest_some _).symm
  execute := rfl
  needed := fun h => nomatch h.1
  effect := by
    intro metadata hmetadata heffect
    rw [secondState, commitMetadata_commitState] at hmetadata
    rw [← Option.some.inj hmetadata] at heffect
    exact absurd heffect (show ¬"stage-2" = "stage-3" by decide)

/-- The planner asks for the first stage again, and the kernel refuses to go back to it. -/
theorem held_stage_refused :
    readStateUnderLock (runFile Sha256.node none [firstAck, secondStageCall]) heldStage.scope =
      .ok (some secondState) ∧
    SameIdentity holding secondState ∧
    secondState.progressionMinutes = holding.progressionMinutes ∧
    (evaluateBackoff stageClock holding (plannedState (some secondState))).hostTransition =
      .applyRequired ∧
    AckOf Sha256.node holding (evaluateBackoff stageClock holding
      (plannedState (some secondState))) (some secondState) heldStage ∧
    ∃ result, evaluateSchedulerHeartbeatCommit Sha256.node stageClock heldStage none
        (runFile Sha256.node none [firstAck, secondStageCall]) = .ok (result, none) ∧
      result.status = .conflict ∧ result.reasonCode = some "progression_regression" := by
  have hscope : heldStage.scope = secondState.scope := rfl
  have hread : readStateUnderLock (runFile Sha256.node none [firstAck, secondStageCall])
      heldStage.scope = .ok (some secondState) := by
    rw [runFile_secondStage, readStateUnderLock, hscope,
      normalizeSchedulerState_toJson plain_secondState]
  have hfresh : replayOrStale Sha256.node heldStage (some secondState) = none :=
    replayOrStale_commitState (show "stage-2" ≠ "stage-3" by decide) (digest_some _).symm
  have hrefused := @admitProgression_back heldStage secondState (by decide) (by decide)
  have hcommit : evaluateSchedulerHeartbeatCommit Sha256.node stageClock heldStage none
      (runFile Sha256.node none [firstAck, secondStageCall]) = .ok (conflictResult
        (some secondState) "scheduler heartbeat progression would move backwards"
        "progression_regression", none) := by
    rw [evaluateSchedulerHeartbeatCommit, hread, ok_bind]
    exact commitLocked_of_refused rfl rfl hfresh hrefused
  exact ⟨hread, ⟨rfl, rfl⟩, rfl, plan_holding.2.2, ackOf_heldStage, _, hcommit, rfl, rfl⟩

end Stages

end Loopx.Scheduler
