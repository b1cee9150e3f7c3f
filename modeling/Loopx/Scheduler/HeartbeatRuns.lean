/- GID: Loopx/Scheduler/HeartbeatRuns
   generality: I
   source: loopx/control_plane/scheduler/heartbeat_commit.ts
   digest: Runs of heartbeat commits against one scheduler state file, and what they keep. -/

import Loopx.Scheduler.CommitSteps
import Loopx.Authority.StoreLog

set_option autoImplicit false
set_option relaxedAutoImplicit false

namespace Loopx.Scheduler

open Loopx.Json (JsNumber OwnOrdered fromEntries fromEntries_fromEntries lookup_fromEntries
  mem_of_mem_fromEntries ownOrdered_object ownOrdered_array stringify_injective)
open Loopx.Authority (Sha256 NoCollision trim IsStoreId isBareSha256 isHexDigit isJsSpace
  isStoreId_of_ends)
open Loopx.Lib.KeyedList
open Loopx.Lib.Fallible (ok_bind ok_of_toOption bind_eq_ok)

/-- One call: its raw request, what the receipt store answers, the host's clock. -/
structure Delivery where
  request : Json
  receipt : Option ReceiptStatus
  clock : HostClock

def commitRequest (value : Json) : Decoding CommitRequest :=
  match value with
  | .object fields => requestObject fields
  | _ => .error "scheduler.heartbeat.commit params must be an object"

def Delivery.outcome (sha : Sha256) (d : Delivery) (file : Option Json) :
    Decoding (CommitResult × Option SchedulerState) := do
  let r ← commitRequest d.request
  evaluateSchedulerHeartbeatCommit sha d.clock r d.receipt file

theorem decoded_of_commitRequest {value : Json} {r : CommitRequest}
    (h : commitRequest value = .ok r) : r.Decoded := by
  unfold commitRequest at h
  split at h
  · exact decoded_of_requestObject h
  · simp at h

/-- The file is replaced by a written state and stands otherwise. -/
def fileAfter (file : Option Json) (outcome : Decoding (CommitResult × Option SchedulerState)) :
    Option Json :=
  match outcome with
  | .ok (_, some s) => some s.toJson
  | _ => file

structure HeartbeatStep where
  before : Option Json
  delivery : Delivery
  outcome : Decoding (CommitResult × Option SchedulerState)
  after : Option Json

def heartbeatSteps (sha : Sha256) : Option Json → List Delivery → List HeartbeatStep
  | _, [] => []
  | file, d :: rest =>
    let outcome := d.outcome sha file
    let after := fileAfter file outcome
    ⟨file, d, outcome, after⟩ :: heartbeatSteps sha after rest

/-- The request a step applied, with the state it wrote. -/
def HeartbeatStep.applied (step : HeartbeatStep) : Option (CommitRequest × SchedulerState) :=
  match commitRequest step.delivery.request, step.outcome with
  | .ok r, .ok (_, some s) => some (r, s)
  | _, _ => none

def appliedCommits (steps : List HeartbeatStep) : List (CommitRequest × SchedulerState) :=
  steps.filterMap HeartbeatStep.applied

/-- What is hashed of a stored state. -/
def domainBytes (s : SchedulerState) : ByteArray := (canonicalJson (domainState s)).toByteArray

section Digest

private theorem stableItems_eq_map (items : List Json) :
    stableItems items = items.map stableValue := by
  induction items with
  | nil => rfl
  | cons item rest ih => rw [stableItems, ih, List.map_cons]

private theorem stableFields_eq_map (fields : List (String × Json)) :
    stableFields fields = fields.map (fun f => (f.1, stableValue f.2)) := by
  induction fields with
  | nil => rfl
  | cons f rest ih => rw [stableFields, ih, List.map_cons]

private theorem perm_sortFields (fields : List (String × Json)) : (sortFields fields).Perm fields :=
  List.perm_insertionSort _ _

theorem ownOrdered_stableValue (v : Json) : OwnOrdered (stableValue v) := by
  induction v with
  | null => trivial
  | bool b => trivial
  | number n => trivial
  | string s => trivial
  | array items ih =>
    rw [stableValue, stableItems_eq_map]
    refine (ownOrdered_array _).mpr ?_
    intro v hv
    obtain ⟨w, hw, rfl⟩ := List.mem_map.mp hv
    exact ih w hw
  | object fields ih =>
    rw [stableValue, stableFields_eq_map]
    refine (ownOrdered_object _).mpr ⟨fromEntries_fromEntries _, ?_⟩
    intro f hf
    have hmem := (perm_sortFields _).mem_iff.mp (mem_of_mem_fromEntries hf)
    obtain ⟨g, hg, rfl⟩ := List.mem_map.mp hmem
    exact ih g hg

/-- The stable form moves the fields of an object but reads each of them in place. -/
theorem lookup_stable {fields : List (String × Json)} (nodup : (keys fields).Nodup) (k : String) :
    (fromEntries (sortFields (stableFields fields))).lookup k =
      (fields.lookup k).map stableValue := by
  have hmap : (keys (fields.map (fun f => (f.1, stableValue f.2)))).Nodup := by
    rwa [keys_map_snd]
  have hperm := perm_sortFields (fields.map (fun f => (f.1, stableValue f.2)))
  have hsorted : (keys (sortFields (fields.map (fun f => (f.1, stableValue f.2))))).Nodup :=
    (hperm.map Prod.fst).nodup_iff.mpr hmap
  rw [stableFields_eq_map, lookup_fromEntries hsorted, lookup_of_perm hsorted hperm,
    lookup_map_snd]

private theorem nodup_keys_commitState (r : CommitRequest) (digest applied : String)
    (failures : List HostUpdateFailure) :
    (keys (commitState r digest applied failures).fields).Nodup := by
  simp only [SchedulerState.fields, commitState, failureFields]
  cases failures.getLast? with
  | none =>
    simp only [keys, List.append_nil, List.map_append, List.map_cons, List.map_nil]
    decide
  | some last =>
    simp only [keys, List.map_append, List.map_cons, List.map_nil]
    decide

/-- What the digest of a written state fixes of the request that wrote it. -/
structure StoredFacts where
  generatedAt : String
  resetToken : String
  identitySignature : String
  progressionIndex : Nat
  progressionMinutes : List Int
  storedRrule : String
  source : String
deriving DecidableEq

/-- An ACK stores the RRULE it applied, a host failure the one it observed. -/
def CommitRequest.storedFacts (r : CommitRequest) : StoredFacts :=
  ⟨r.generatedAt, r.resetToken, r.identitySignature, r.progressionIndex, r.progressionMinutes,
    trim (match r.operation with
      | .ack => r.appliedRrule
      | .hostFailure => r.observedHostRrule), r.source⟩

theorem Writes.commitState_eq {clock : HostClock} {r : CommitRequest}
    {existing : Option SchedulerState} {digest : String} {s : SchedulerState}
    (h : Writes clock r existing digest s) :
    ∃ applied failures, s = commitState r digest applied failures ∧
      trim applied = r.storedFacts.storedRrule := by
  cases h with
  | ack operation present =>
    exact ⟨_, _, rfl, by simp [CommitRequest.storedFacts, operation]⟩
  | hostFailure operation target =>
    exact ⟨_, _, rfl, by simp [CommitRequest.storedFacts, operation]⟩

private theorem intJson_injective : Function.Injective intJson := by
  intro i j h
  have hnumber : JsNumber.ofInt i = JsNumber.ofInt j := Json.number.inj h
  have hvalue := congrArg JsNumber.toInt? hnumber
  simpa using hvalue

private theorem stableValue_intArray (l : List Int) :
    stableValue (.array (l.map intJson)) = .array (l.map intJson) := by
  rw [stableValue, stableItems_eq_map, List.map_map]
  rfl

theorem lookup_commitState (r : CommitRequest) (digest applied : String)
    (failures : List HostUpdateFailure) :
    (commitState r digest applied failures).fields.lookup "updated_at" =
        some (.string r.generatedAt) ∧
      (commitState r digest applied failures).fields.lookup "source" =
        some (.string r.source) := by
  have hfailures : ∀ k, k ≠ "host_update_failures" → k ≠ "host_update_failure" →
      (failureFields failures).lookup k = none := by
    intro k h h'
    unfold failureFields
    split <;> simp [lookup_cons_ite, h, h']
  constructor
  · simp [SchedulerState.fields, commitState, lookup_cons_ite, List.lookup_append,
      hfailures "updated_at" (by decide) (by decide)]
  · simp [SchedulerState.fields, commitState, lookup_cons_ite, List.lookup_append,
      hfailures "source" (by decide) (by decide)]

/-- What two states with one canonical text have in common. -/
private theorem lookup_of_domainBytes {s t : SchedulerState} (hs : (keys s.fields).Nodup)
    (ht : (keys t.fields).Nodup) (h : domainBytes s = domainBytes t) {k : String}
    (hk : k ≠ "heartbeat_commit") :
    (s.fields.lookup k).map stableValue = (t.fields.lookup k).map stableValue := by
  have hdomain : ∀ u : SchedulerState,
      domainState u = .object (eraseKey u.fields "heartbeat_commit") := fun u => rfl
  have hstable : stableValue (domainState s) = stableValue (domainState t) :=
    stringify_injective (ownOrdered_stableValue _) (ownOrdered_stableValue _)
      (String.toByteArray_inj.mp h)
  rw [hdomain, hdomain, stableValue, stableValue] at hstable
  have hfields := congrArg (List.lookup k) (Json.object.inj hstable)
  rw [lookup_stable (nodup_keys_eraseKey hs _), lookup_stable (nodup_keys_eraseKey ht _),
    lookup_eraseKey, lookup_eraseKey, if_neg hk, if_neg hk] at hfields
  exact hfields

/-- Equal canonical texts come from commits that agree on everything the state stores. -/
private theorem storedFacts_of_domainBytes {r r' : CommitRequest} {digest digest' : String}
    {applied applied' : String} {failures failures' : List HostUpdateFailure}
    (hstored : trim applied = r.storedFacts.storedRrule)
    (hstored' : trim applied' = r'.storedFacts.storedRrule)
    (h : domainBytes (commitState r digest applied failures) =
      domainBytes (commitState r' digest' applied' failures')) :
    r.storedFacts = r'.storedFacts := by
  have hlookup := fun k hk => @lookup_of_domainBytes _ _
    (nodup_keys_commitState r digest applied failures)
    (nodup_keys_commitState r' digest' applied' failures') h k hk
  obtain ⟨htime, hsource⟩ := lookup_commitState r digest applied failures
  obtain ⟨htime', hsource'⟩ := lookup_commitState r' digest' applied' failures'
  have hgenerated : r.generatedAt = r'.generatedAt := by
    have := hlookup "updated_at" (by decide)
    rw [htime, htime'] at this
    simpa [stableValue] using this
  have hfrom : r.source = r'.source := by
    have := hlookup "source" (by decide)
    rw [hsource, hsource'] at this
    simpa [stableValue] using this
  have hreset : r.resetToken = r'.resetToken := by
    simpa [stableValue, commitState] using hlookup "reset_token" (by decide)
  have hidentity : r.identitySignature = r'.identitySignature := by
    simpa [stableValue, commitState] using hlookup "identity_signature" (by decide)
  have hrrule : trim applied = trim applied' := by
    simpa [stableValue, commitState] using hlookup "last_applied_rrule" (by decide)
  have hindex : r.progressionIndex = r'.progressionIndex := by
    have := hlookup "progression_index" (by decide)
    simp only [lookup_fields_progressionIndex, commitState, Option.map_some, Option.some.injEq]
      at this
    exact_mod_cast intJson_injective this
  have hminutes : r.progressionMinutes = r'.progressionMinutes := by
    have := hlookup "progression_minutes" (by decide)
    simp only [lookup_fields_progressionMinutes, commitState, Option.map_some, Option.some.injEq,
      stableValue_intArray, Json.array.injEq] at this
    exact List.map_injective_iff.mpr intJson_injective this
  rw [hstored, hstored'] at hrrule
  have heta : ∀ q : CommitRequest, q.storedFacts = ⟨q.generatedAt, q.resetToken,
      q.identitySignature, q.progressionIndex, q.progressionMinutes, q.storedFacts.storedRrule,
      q.source⟩ := fun q => rfl
  rw [heta r, heta r', hgenerated, hfrom, hreset, hidentity, hrrule, hindex, hminutes]

private theorem domainBytes_of_digest {sha : Sha256} {s t : SchedulerState}
    {documents : List ByteArray} (collisionFree : NoCollision sha documents)
    (hs : domainBytes s ∈ documents) (ht : domainBytes t ∈ documents)
    (h : schedulerHeartbeatCommitStateDigest sha (some s) =
      schedulerHeartbeatCommitStateDigest sha (some t)) : domainBytes s = domainBytes t := by
  simp only [schedulerHeartbeatCommitStateDigest, Option.map_some, Option.some.injEq,
    sha256Text] at h
  have hhex := congrArg String.toList h
  rw [String.toList_append, String.toList_append, List.append_cancel_left_eq] at hhex
  exact collisionFree _ hs _ ht (String.toList_injective hhex)

end Digest

/-- The commits of a run so far, oldest first, and the file they left. -/
structure History (sha : Sha256) (file : Option Json)
    (past : List (CommitRequest × SchedulerState)) : Prop where
  file_eq : file = past.getLast?.map (fun w => w.2.toJson)
  plain : ∀ w ∈ past, w.2.Plain
  stored : ∀ w ∈ past, ∃ digest applied failures, w.2 = commitState w.1 digest applied failures ∧
    trim applied = w.1.storedFacts.storedRrule
  executed : ∀ w ∈ past, w.1.execute = true
  expected : ∀ pre w post, past = pre ++ w :: post → w.1.expectedStateDigest =
    schedulerHeartbeatCommitStateDigest sha (pre.getLast?.map Prod.snd)
  distinct : past.Pairwise (fun v w => v.1.storedFacts ≠ w.1.storedFacts)

theorem history_nil (sha : Sha256) : History sha none [] where
  file_eq := rfl
  plain := by simp
  stored := by simp
  executed := by simp
  expected := by simp
  distinct := List.Pairwise.nil

section Step

variable {sha : Sha256} {file : Option Json} {past : List (CommitRequest × SchedulerState)}

private theorem applied_eq_none {step : HeartbeatStep}
    (h : ∀ result s, step.outcome ≠ .ok (result, some s)) : step.applied = none := by
  unfold HeartbeatStep.applied
  split
  · rename_i houtcome
    exact absurd houtcome (h _ _)
  · rfl

private theorem History.last_plain (h : History sha file past) :
    ∀ e ∈ past.getLast?.map Prod.snd, e.Plain := by
  intro e he
  obtain ⟨w, hw, rfl⟩ := Option.map_eq_some_iff.mp he
  exact h.plain w (List.mem_of_getLast? hw)

/-- A plain state is read back, or the request names another scope. -/
theorem readStateUnderLock_plain {e : SchedulerState} (plain : e.Plain) {scope : SchedulerScope}
    {existing : Option SchedulerState}
    (h : readStateUnderLock (some e.toJson) scope = .ok existing) : existing = some e := by
  simp only [readStateUnderLock] at h
  split at h
  · simp at h
  · rename_i state hstate
    have hscope := scope_of_normalizeSchedulerState plain hstate
    rw [hscope, normalizeSchedulerState_toJson plain] at hstate
    rw [← Except.ok.inj h, hstate]

/-- The commit reads the last written state, or throws. -/
private theorem History.read (h : History sha file past) {scope : SchedulerScope}
    {existing : Option SchedulerState} (hread : readStateUnderLock file scope = .ok existing) :
    existing = past.getLast?.map Prod.snd := by
  rw [h.file_eq] at hread
  cases hlast : past.getLast? with
  | none =>
    rw [hlast] at hread
    exact (Except.ok.inj hread).symm
  | some w =>
    rw [hlast, Option.map_some] at hread
    exact readStateUnderLock_plain (h.plain w (List.mem_of_getLast? hlast)) hread

private theorem expected_of_replayOrStale {r : CommitRequest} {existing : Option SchedulerState}
    (h : replayOrStale sha r existing = none) :
    r.expectedStateDigest = schedulerHeartbeatCommitStateDigest sha existing := by
  by_contra hne
  unfold replayOrStale at h
  split at h
  · split at h
    · split at h <;> simp at h
    · simp at h
  · rw [if_pos hne] at h
    simp at h

/-- No earlier commit stored what this one stores: the compare-and-swap would have failed. -/
private theorem History.fresh (h : History sha file past)
    (collisionFree : NoCollision sha (past.map (fun w => domainBytes w.2))) {r : CommitRequest}
    (hexpected : r.expectedStateDigest =
      schedulerHeartbeatCommitStateDigest sha (past.getLast?.map Prod.snd))
    (facts : ∀ w ∈ past, r.storedFacts = w.1.storedFacts → r = w.1) :
    ∀ w ∈ past, w.1.storedFacts ≠ r.storedFacts := by
  intro w hw hsame
  obtain rfl := facts w hw hsame.symm
  obtain ⟨pre, post, rfl⟩ := List.append_of_mem hw
  have hdigest := (h.expected pre w post rfl).symm.trans hexpected
  obtain ⟨last, hlast⟩ : ∃ last, (pre ++ w :: post).getLast? = some last :=
    Option.isSome_iff_exists.mp (by simp)
  cases hpre : pre.getLast? with
  | none =>
    rw [hpre, hlast] at hdigest
    simp [schedulerHeartbeatCommitStateDigest] at hdigest
  | some u =>
    have hu : u ∈ pre := List.mem_of_getLast? hpre
    have hlast' : last ∈ w :: post := by
      rw [List.getLast?_append_of_ne_nil _ (by simp)] at hlast
      exact List.mem_of_getLast? hlast
    rw [hpre, hlast] at hdigest
    have hdocument : ∀ v ∈ pre ++ w :: post,
        domainBytes v.2 ∈ (pre ++ w :: post).map (fun w => domainBytes w.2) := by
      intro v hv
      exact List.mem_map.mpr ⟨v, hv, rfl⟩
    have hbytes := domainBytes_of_digest collisionFree (hdocument u (List.mem_append_left _ hu))
      (hdocument last (List.mem_append_right _ hlast')) hdigest
    obtain ⟨_, _, _, hustate, hurrule⟩ := h.stored u (List.mem_append_left _ hu)
    obtain ⟨_, _, _, hlstate, hlrrule⟩ := h.stored last (List.mem_append_right _ hlast')
    rw [hustate, hlstate] at hbytes
    have hequal := storedFacts_of_domainBytes hurrule hlrrule hbytes
    exact (List.pairwise_append.mp h.distinct).2.2 u hu last hlast' hequal

/-- An applied commit joins the history. -/
private theorem History.append (h : History sha file past)
    (collisionFree : NoCollision sha (past.map (fun w => domainBytes w.2))) {clock : HostClock}
    {r : CommitRequest} {s : SchedulerState} {digest : String}
    (hexpected : r.expectedStateDigest =
      schedulerHeartbeatCommitStateDigest sha (past.getLast?.map Prod.snd))
    (hexecute : r.execute = true)
    (hwrites : Writes clock r (past.getLast?.map Prod.snd) digest s) (hplain : s.Plain)
    (facts : ∀ w ∈ past, r.storedFacts = w.1.storedFacts → r = w.1) :
    History sha (some s.toJson) (past ++ [(r, s)]) where
  file_eq := by simp
  plain := by
    intro w hw
    rcases List.mem_append.mp hw with hw | hw
    · exact h.plain w hw
    · obtain rfl := List.mem_singleton.mp hw
      exact hplain
  stored := by
    intro w hw
    rcases List.mem_append.mp hw with hw | hw
    · exact h.stored w hw
    · obtain rfl := List.mem_singleton.mp hw
      obtain ⟨applied, failures, hstate, hrrule⟩ := hwrites.commitState_eq
      exact ⟨digest, applied, failures, hstate, hrrule⟩
  executed := by
    intro w hw
    rcases List.mem_append.mp hw with hw | hw
    · exact h.executed w hw
    · obtain rfl := List.mem_singleton.mp hw
      exact hexecute
  expected := by
    intro pre w post hsplit
    rcases List.eq_nil_or_concat post with rfl | ⟨post', last, rfl⟩
    · obtain ⟨rfl, hw⟩ := List.append_inj' hsplit rfl
      obtain rfl := List.singleton_inj.mp hw
      exact hexpected
    · rw [List.concat_eq_append, ← List.cons_append, ← List.append_assoc] at hsplit
      obtain ⟨hpast, -⟩ := List.append_inj' hsplit rfl
      exact h.expected pre w post' hpast
  distinct := by
    refine List.pairwise_append.mpr ⟨h.distinct, by simp, ?_⟩
    intro w hw v hv
    obtain rfl := List.mem_singleton.mp hv
    exact h.fresh collisionFree hexpected facts w hw

/-- What a write guarantees of the file before it, the file after it and the state. -/
structure WriteLaws (before after : Option Json) (s : SchedulerState) : Prop where
  stored : after = some s.toJson
  unchanged : normalizeSchedulerState (some s.toJson) s.scope = some s
  atMostFour : s.failures.length ≤ 4
  distinct : s.failures.Pairwise (fun f g =>
    (f.targetRrule, f.observedHostRrule) ≠ (g.targetRrule, g.observedHostRrule))
  positive : ∀ f ∈ s.failures, 1 ≤ f.failureCount
  progression : ∃ existing, readStateUnderLock before s.scope = .ok existing ∧
    ProgressionLaw existing s

/-- What one call guarantees: a written state keeps the laws, any other answer the file. -/
structure StepLaws (step : HeartbeatStep) : Prop where
  written : ∀ result saved, step.outcome = .ok (result, saved) → result.status = .written →
    ∃ s, saved = some s ∧ result.state = some s ∧ WriteLaws step.before step.after s
  kept : ∀ result saved, step.outcome = .ok (result, saved) → result.status ≠ .written →
    step.after = step.before
  failed : ∀ message, step.outcome = .error message → step.after = step.before

private theorem distinct_texts {failures : List HostUpdateFailure}
    (h : DistinctPairs failures) : failures.Pairwise (fun f g =>
      (f.targetRrule, f.observedHostRrule) ≠ (g.targetRrule, g.observedHostRrule)) := by
  refine h.imp ?_
  intro f g hne hsame
  apply hne
  obtain ⟨htarget, hobserved⟩ := Prod.mk.inj hsame
  rw [failurePair, failurePair, htarget, hobserved]

/-- Everything a call can come to, from the history before it. -/
private theorem History.outcome (h : History sha file past) {d : Delivery} {result : CommitResult}
    {saved : Option SchedulerState} (houtcome : d.outcome sha file = .ok (result, saved)) :
    ∃ r, commitRequest d.request = .ok r ∧ r.Decoded ∧
      readStateUnderLock file r.scope = .ok (past.getLast?.map Prod.snd) ∧
      commitLocked sha d.clock r d.receipt (past.getLast?.map Prod.snd) = .ok (result, saved) := by
  obtain ⟨r, hr, houtcome⟩ := bind_eq_ok.mp houtcome
  obtain ⟨existing, hread, houtcome⟩ := bind_eq_ok.mp houtcome
  obtain rfl := h.read hread
  refine ⟨r, hr, ?_, hread, houtcome⟩
  exact decoded_of_commitRequest hr

private theorem writeLaws (hplain : ∀ e ∈ past.getLast?.map Prod.snd, e.Plain) {d : Delivery}
    {r : CommitRequest} {result : CommitResult} {s : SchedulerState} (decoded : r.Decoded)
    (settled : r.Settled)
    (hread : readStateUnderLock file r.scope = .ok (past.getLast?.map Prod.snd))
    (hcommit : commitLocked sha d.clock r d.receipt (past.getLast?.map Prod.snd) =
      .ok (result, some s)) : WriteLaws file (some s.toJson) s := by
  obtain ⟨-, -, -, hadmitted, -, hwrites⟩ := commitLocked_written decoded hcommit
  have hs := hwrites.plain decoded settled hplain
  refine ⟨rfl, normalizeSchedulerState_toJson hs, hs.cache.short, distinct_texts hs.cache.distinct,
    fun f hf => (hs.cache.sound f hf).positive, _, ?_, progressionLaw_of_admitted hwrites hadmitted⟩
  rw [hwrites.request.1]
  exact hread

/-- A call keeps the laws of its step. -/
private theorem History.stepLaws (h : History sha file past) (d : Delivery)
    (settled : ∀ r, commitRequest d.request = .ok r → r.Settled) :
    StepLaws ⟨file, d, d.outcome sha file, fileAfter file (d.outcome sha file)⟩ where
  written := by
    intro result saved houtcome hstatus
    obtain ⟨r, hr, decoded, hread, hcommit⟩ := h.outcome houtcome
    cases saved with
    | none => exact absurd hstatus (commitLocked_kept hcommit)
    | some s =>
      refine ⟨s, rfl, (commitLocked_written decoded hcommit).2.1, ?_⟩
      have hafter : fileAfter file (d.outcome sha file) = some s.toJson := by
        have houtcome : d.outcome sha file = .ok (result, some s) := houtcome
        rw [houtcome, fileAfter]
      simp only [hafter]
      exact writeLaws h.last_plain decoded (settled r hr) hread hcommit
  kept := by
    intro result saved houtcome hstatus
    obtain ⟨r, hr, decoded, -, hcommit⟩ := h.outcome houtcome
    have houtcome : d.outcome sha file = .ok (result, saved) := houtcome
    cases saved with
    | none => simp only [houtcome, fileAfter]
    | some s => exact absurd (commitLocked_written decoded hcommit).1 hstatus
  failed := by
    intro message houtcome
    have houtcome : d.outcome sha file = .error message := houtcome
    simp only [houtcome, fileAfter]

/-- The history after one call. -/
private theorem History.step (h : History sha file past)
    (collisionFree : NoCollision sha (past.map (fun w => domainBytes w.2))) (d : Delivery)
    (settled : ∀ r, commitRequest d.request = .ok r → r.Settled)
    (facts : ∀ r, commitRequest d.request = .ok r → r.execute = true → ∀ w ∈ past,
      r.storedFacts = w.1.storedFacts → r = w.1) :
    History sha (fileAfter file (d.outcome sha file)) (past ++
      (HeartbeatStep.applied ⟨file, d, d.outcome sha file,
        fileAfter file (d.outcome sha file)⟩).toList) := by
  cases houtcome : d.outcome sha file with
  | error message =>
    rw [applied_eq_none (by simp)]
    simpa [fileAfter] using h
  | ok answer =>
    obtain ⟨result, saved⟩ := answer
    obtain ⟨r, hr, decoded, -, hcommit⟩ := h.outcome houtcome
    cases saved with
    | none =>
      rw [applied_eq_none (by simp)]
      simpa [fileAfter] using h
    | some s =>
      have happlied : HeartbeatStep.applied ⟨file, d, .ok (result, some s),
          fileAfter file (.ok (result, some s))⟩ = some (r, s) := by
        simp only [HeartbeatStep.applied, hr]
      obtain ⟨-, -, hfresh, -, hexecute, hwrites⟩ := commitLocked_written decoded hcommit
      rw [happlied]
      exact h.append collisionFree (expected_of_replayOrStale hfresh) hexecute hwrites
        (hwrites.plain decoded (settled r hr) h.last_plain) (facts r hr hexecute)

end Step

/-- The requests of a run that decode. -/
def requestsOf (deliveries : List Delivery) : List CommitRequest :=
  deliveries.filterMap (fun d => (commitRequest d.request).toOption)

/-- Every RRULE text settles before it is stored, and two requests that would store the same facts
are one request. -/
structure SettledRun (deliveries : List Delivery) : Prop where
  settled : ∀ r ∈ requestsOf deliveries, r.Settled
  facts : ∀ r ∈ requestsOf deliveries, ∀ r' ∈ requestsOf deliveries, r.execute = true →
    r'.execute = true → r.storedFacts = r'.storedFacts → r = r'

theorem mem_requestsOf {deliveries : List Delivery} {d : Delivery} {r : CommitRequest}
    (hd : d ∈ deliveries) (hr : commitRequest d.request = .ok r) : r ∈ requestsOf deliveries :=
  List.mem_filterMap.mpr ⟨d, hd, by rw [hr]; rfl⟩

theorem requestsOf_cons_subset (d : Delivery) (rest : List Delivery) :
    requestsOf rest ⊆ requestsOf (d :: rest) := by
  intro r hr
  obtain ⟨d', hd', hr⟩ := List.mem_filterMap.mp hr
  exact List.mem_filterMap.mpr ⟨d', List.mem_cons_of_mem d hd', hr⟩

private theorem applied_request {step : HeartbeatStep} {w : CommitRequest × SchedulerState}
    (h : step.applied = some w) : commitRequest step.delivery.request = .ok w.1 := by
  unfold HeartbeatStep.applied at h
  split at h
  · rename_i hr _
    rw [hr, ← Option.some.inj h]
  · simp at h

private theorem appliedCommits_cons (step : HeartbeatStep) (steps : List HeartbeatStep) :
    appliedCommits (step :: steps) = step.applied.toList ++ appliedCommits steps := by
  cases h : step.applied <;> simp [appliedCommits, h]

/-- From any history, the calls that follow keep their laws and only extend it. -/
private theorem History.run {sha : Sha256} {file : Option Json}
    {past : List (CommitRequest × SchedulerState)} (h : History sha file past)
    {all : List CommitRequest} (hsettled : ∀ r ∈ all, r.Settled)
    (hfacts : ∀ r ∈ all, ∀ r' ∈ all, r.execute = true → r'.execute = true →
      r.storedFacts = r'.storedFacts → r = r')
    (hpast : ∀ w ∈ past, w.1 ∈ all) (deliveries : List Delivery)
    (hall : ∀ r ∈ requestsOf deliveries, r ∈ all)
    (collisionFree : NoCollision sha ((past ++ appliedCommits
      (heartbeatSteps sha file deliveries)).map (fun w => domainBytes w.2))) :
    (∀ step ∈ heartbeatSteps sha file deliveries, StepLaws step) ∧
      (past ++ appliedCommits (heartbeatSteps sha file deliveries)).Pairwise
        (fun v w => v.1.storedFacts ≠ w.1.storedFacts) := by
  induction deliveries generalizing file past with
  | nil =>
    refine ⟨by simp [heartbeatSteps], ?_⟩
    simpa [heartbeatSteps, appliedCommits] using h.distinct
  | cons d rest ih =>
    have hd : ∀ r, commitRequest d.request = .ok r → r ∈ all := by
      intro r hr
      exact hall r (mem_requestsOf (List.mem_cons_self) hr)
    simp only [heartbeatSteps, appliedCommits_cons, ← List.append_assoc] at collisionFree ⊢
    have hold : NoCollision sha (past.map (fun w => domainBytes w.2)) := by
      refine collisionFree.mono ?_
      simp only [List.map_append]
      intro bytes hbytes
      exact List.mem_append_left _ (List.mem_append_left _ hbytes)
    have hnext := h.step hold d (fun r hr => hsettled r (hd r hr)) (fun r hr hexecute w hw =>
      hfacts r (hd r hr) w.1 (hpast w hw) hexecute (h.executed w hw))
    have hpast' : ∀ w ∈ past ++ (HeartbeatStep.applied ⟨file, d, d.outcome sha file,
        fileAfter file (d.outcome sha file)⟩).toList, w.1 ∈ all := by
      intro w hw
      rcases List.mem_append.mp hw with hw | hw
      · exact hpast w hw
      · exact hd w.1 (applied_request (Option.mem_toList.mp hw))
    obtain ⟨hsteps, hdistinct⟩ := ih hnext hpast'
      (fun r hr => hall r (requestsOf_cons_subset d rest hr)) collisionFree
    refine ⟨?_, hdistinct⟩
    intro step hstep
    rcases List.mem_cons.mp hstep with rfl | hstep
    · exact h.stepLaws d (fun r hr => hsettled r (hd r hr))
    · exact hsteps step hstep

/-- Runs of acks and host failures: every call keeps its laws, and no request is applied twice. -/
theorem heartbeatRun_laws (sha : Sha256) (deliveries : List Delivery)
    (settled : SettledRun deliveries)
    (collisionFree : NoCollision sha ((appliedCommits (heartbeatSteps sha none deliveries)).map
      (fun w => domainBytes w.2))) :
    (∀ step ∈ heartbeatSteps sha none deliveries, StepLaws step) ∧
      ((appliedCommits (heartbeatSteps sha none deliveries)).map Prod.fst).Nodup := by
  obtain ⟨hsteps, hdistinct⟩ := (history_nil sha).run settled.settled settled.facts (by simp)
    deliveries (fun r hr => hr) collisionFree
  refine ⟨hsteps, List.pairwise_map.mpr (hdistinct.imp ?_)⟩
  intro v w hne hsame
  exact hne (congrArg CommitRequest.storedFacts hsame)

section Runs

/-- A store id is read back as it stands. -/
private theorem optionalText_storeId {digest : String} (hdigest : IsStoreId digest) :
    optionalText (some (.string digest)) "expected_state_digest" = .ok (some digest) := by
  have hblank : isBlank (some (.string digest)) = false := by
    unfold isBlank
    split
    · rename_i heq
      cases heq
    · rename_i heq
      cases heq
    · rename_i heq
      exact absurd (Json.string.inj (Option.some.inj heq)) hdigest.2
    · rfl
  have hnonempty : trim digest ≠ "" := by
    rw [hdigest.1]
    exact hdigest.2
  have hrequired : requiredString (some (.string digest)) "expected_state_digest" =
      .ok digest := by
    rw [requiredString, if_neg hnonempty]
  rw [optionalText, hblank, trimmedString, hrequired]
  simp [hdigest.1]

/-- The expected digest is read on its own: adding it to a request changes nothing else. -/
theorem requestObject_digest {fields : List (String × Json)} {r : CommitRequest}
    {digest : String} (hdigest : IsStoreId digest) (h : requestObject fields = .ok r)
    (absent : fields.lookup "expected_state_digest" = none) :
    requestObject (fields ++ [("expected_state_digest", .string digest)]) =
      .ok { r with expectedStateDigest := some digest } := by
  have hlookup : ∀ k, k ≠ "expected_state_digest" →
      (fields ++ [("expected_state_digest", Json.string digest)]).lookup k = fields.lookup k := by
    intro k hk
    simp [List.lookup_append, lookup_cons_ite, hk]
  have hadded : (fields ++ [("expected_state_digest", Json.string digest)]).lookup
      "expected_state_digest" = some (.string digest) := by
    simp [List.lookup_append, absent, lookup_cons_ite]
  unfold requestObject at h
  split at h
  · simp at h
  rename_i hschema
  obtain ⟨operation, hoperation, h⟩ := bind_eq_ok.mp h
  obtain ⟨effectId, heffect, h⟩ := bind_eq_ok.mp h
  obtain ⟨runtimeRoot, hroot, h⟩ := bind_eq_ok.mp h
  obtain ⟨goalId, hgoal, h⟩ := bind_eq_ok.mp h
  obtain ⟨agentId, hagent, h⟩ := bind_eq_ok.mp h
  obtain ⟨surface, hsurface, h⟩ := bind_eq_ok.mp h
  obtain ⟨stateKey, hkey, h⟩ := bind_eq_ok.mp h
  obtain ⟨resetToken, hreset, h⟩ := bind_eq_ok.mp h
  obtain ⟨identity, hidentity, h⟩ := bind_eq_ok.mp h
  obtain ⟨index, hindex, h⟩ := bind_eq_ok.mp h
  obtain ⟨minutes, hminutes, h⟩ := bind_eq_ok.mp h
  split at h
  · simp at h
  rename_i hrange
  obtain ⟨generatedAt, hgenerated, h⟩ := bind_eq_ok.mp h
  obtain ⟨execute, hexecute, h⟩ := bind_eq_ok.mp h
  obtain ⟨ackNeeded, hack, h⟩ := bind_eq_ok.mp h
  obtain ⟨hostMatch, hmatch, h⟩ := bind_eq_ok.mp h
  obtain ⟨source, hsource, h⟩ := bind_eq_ok.mp h
  obtain ⟨tolerance, htolerance, h⟩ := bind_eq_ok.mp h
  dsimp only at h
  split at h
  · simp at h
  rename_i hexpected
  obtain ⟨cadenceClass, hclass, h⟩ := bind_eq_ok.mp h
  obtain ⟨failureKind, hkind, h⟩ := bind_eq_ok.mp h
  obtain ⟨prior, hprior, h⟩ := bind_eq_ok.mp h
  obtain ⟨expected, -, h⟩ := bind_eq_ok.mp h
  obtain ⟨applyNeeded, happly, h⟩ := bind_eq_ok.mp h
  rw [← Except.ok.inj h]
  unfold requestObject
  simp only [hadded, optionalText_storeId hdigest, hlookup "schema_version" (by decide), hlookup "operation" (by decide),
    hlookup "effect_id" (by decide), hlookup "runtime_root" (by decide),
    hlookup "goal_id" (by decide), hlookup "agent_id" (by decide), hlookup "surface" (by decide),
    hlookup "state_key" (by decide), hlookup "reset_token" (by decide),
    hlookup "identity_signature" (by decide), hlookup "progression_index" (by decide),
    hlookup "progression_minutes" (by decide), hlookup "generated_at" (by decide),
    hlookup "execute" (by decide), hlookup "ack_needed" (by decide),
    hlookup "host_match_observed" (by decide), hlookup "source" (by decide),
    hlookup "stale_tolerance_minutes" (by decide), hlookup "expected_rrule" (by decide),
    hlookup "target_rrule" (by decide), hlookup "applied_rrule" (by decide),
    hlookup "acknowledged_rrule" (by decide), hlookup "observed_host_rrule" (by decide),
    hlookup "observed_rrule" (by decide), hlookup "cadence_class" (by decide),
    hlookup "failure_kind" (by decide), hlookup "prior_host_update_failures" (by decide),
    hlookup "apply_needed" (by decide), hoperation, heffect, hroot, hgoal, hagent, hsurface, hkey,
    hreset, hidentity, hindex, hminutes, hgenerated, hexecute, hack, hmatch, hsource, htolerance,
    hclass, hkind, hprior, happly, ok_bind, if_neg hschema, if_neg hrange, if_neg hexpected]

def morning : HostClock where
  dateParse := fun s => if s = "2026-01-01T08:00:00Z" then some 1767254400000 else none
  now := 1767254400000

/-- A commit of one goal at its first stage, without the expected digest. -/
def commitFields (operation effectId : String) (extra : List (String × Json)) :
    List (String × Json) :=
  [("schema_version", .string SCHEDULER_HEARTBEAT_COMMIT_REQUEST_SCHEMA),
    ("operation", .string operation), ("effect_id", .string effectId),
    ("runtime_root", .string "/runtime"), ("goal_id", .string "goal"),
    ("agent_id", .string "agent"), ("reset_token", .string "token"),
    ("identity_signature", .string "signature"), ("progression_index", intJson 0),
    ("progression_minutes", .array [intJson 5, intJson 10]),
    ("generated_at", .string "2026-01-01T08:00:00Z")] ++ extra

def ackFields (effectId : String) : List (String × Json) :=
  commitFields "ack" effectId [("applied_rrule", .string "FREQ=MINUTELY;INTERVAL=5")]

def ackCall (receipt : Option ReceiptStatus) : Delivery :=
  ⟨.object (ackFields "ack-1"), receipt, morning⟩

def goalScope : SchedulerScope :=
  ⟨"goal", "agent", CODEX_APP_SURFACE, CODEX_APP_STATEFUL_BACKOFF_STATE_KEY⟩

def ackRequest (effectId : String) (digest : Option String) : CommitRequest :=
  ⟨.ack, effectId, "/runtime", goalScope, "token", "signature", 0, [5, 10],
    "FREQ=MINUTELY;INTERVAL=5", "FREQ=MINUTELY;INTERVAL=5", "default", 2, "2026-01-01T08:00:00Z",
    digest, true, none, none, "quota_scheduler_ack", false, none, "", []⟩

private theorem commitRequest_ackFields :
    commitRequest (.object (ackFields "ack-1")) = .ok (ackRequest "ack-1" none) :=
  ok_of_toOption (by decide +kernel)

/-- An ACK, and the same request again after its heartbeat receipt was superseded. -/
private def lateRun : List Delivery := [ackCall (some .fresh), ackCall (some .superseded)]

private theorem noCollision_of_length {sha : Sha256} {documents : List ByteArray}
    (h : documents.length = 1) : NoCollision sha documents := by
  obtain ⟨bytes, rfl⟩ := List.length_eq_one_iff.mp h
  intro a ha b hb _
  rw [List.mem_singleton.mp ha, List.mem_singleton.mp hb]

/-- A host failure whose observed RRULE says `RRULE:` three times. -/
private def nestedCall : Delivery :=
  ⟨.object (commitFields "host_failure" "effect" [("apply_needed", .bool true),
    ("observed_host_rrule", .string "RRULE:RRULE:RRULE:FREQ=DAILY")]), none, morning⟩

theorem outcome_first {sha : Sha256} {d : Delivery} {r : CommitRequest}
    (hr : commitRequest d.request = .ok r) :
    d.outcome sha none = commitLocked sha d.clock r d.receipt none := by
  unfold Delivery.outcome
  rw [hr]
  rfl

/-- That request as it is decoded: one `RRULE:` is taken off. -/
private def nestedRequest : CommitRequest :=
  ⟨.hostFailure, "effect", "/runtime", ⟨"goal", "agent", CODEX_APP_SURFACE,
    CODEX_APP_STATEFUL_BACKOFF_STATE_KEY⟩, "token", "signature", 0, [5, 10],
    "FREQ=MINUTELY;INTERVAL=5", "", "default", 2, "2026-01-01T08:00:00Z", none, true, none,
    some true, "quota_scheduler_host_update_failure", false, none, "RRULE:RRULE:FREQ=DAILY", []⟩

/-- The nested RRULE is written, and normalization changes what was written. -/
private theorem nested_rrule_changed :
    ¬∀ step ∈ heartbeatSteps Sha256.node none [nestedCall], StepLaws step := by
  have hrequest : commitRequest nestedCall.request = .ok nestedRequest :=
    ok_of_toOption (by decide +kernel)
  have hdecoded := decoded_of_commitRequest hrequest
  have htarget : nestedRequest.expectedRrule = derivedRrule nestedRequest := by decide
  have hbuilt := @buildHostFailureState_exact nestedRequest morning none
    (requestDigest Sha256.node nestedRequest) hdecoded rfl htarget (by decide)
  have hfresh : replayOrStale Sha256.node nestedRequest none = none := rfl
  have hadmitted : admitProgression nestedRequest none = none := by decide
  have hcommit := @commitLocked_of_built nestedRequest Sha256.node morning none none _ rfl rfl
    hfresh hadmitted hbuilt rfl
  intro hlaws
  have hstep := hlaws _ (List.mem_singleton_self _)
  obtain ⟨s, hs, -, hwrite⟩ := hstep.written _ _ ((outcome_first hrequest).trans hcommit) rfl
  have hs := Option.some.inj hs
  have hothers : ∀ k ∈ keys s.others, k ∉ normalizedKeys := by
    rw [← hs, commitState]
    decide
  have hfirst := @normalize_newFailure nestedRequest morning none hdecoded htarget
  have hlast : s.failures.getLast? = some (newFailure morning nestedRequest none).normalized := by
    have hfailures : s.failures = normalizeSchedulerHostUpdateFailures
        (some (failuresJson (failureCacheAfter morning nestedRequest none)))
        (some (newFailure morning nestedRequest none).toJson) := by
      rw [← hs, commitState]
    rw [hfailures, getLast?_normalize_legacy hfirst]
  have hnormal : normalizeSchedulerHostUpdateFailure
      (some (newFailure morning nestedRequest none).normalized.toJson) =
      some (newFailure morning nestedRequest none).normalized.normalized := by
    decide +kernel
  have hsame := normalized_last_of_unchanged hothers hlast hnormal hwrite.unchanged
  have hobserved := congrArg HostUpdateFailure.observedHostRrule hsame
  exact absurd hobserved (by decide)

/-- A digest text is a trimmed string. -/
theorem isStoreId_sha256Text (sha : Sha256) (text : String) : IsStoreId (sha256Text sha text) := by
  have hbare := sha.bare text.toByteArray
  simp only [isBareSha256, Bool.and_eq_true, decide_eq_true_eq, List.all_eq_true] at hbare
  obtain ⟨hlength, hdigits⟩ := hbare
  obtain ⟨last, hlast⟩ : ∃ last, (sha.hex text.toByteArray).toList.getLast? = some last := by
    cases h : (sha.hex text.toByteArray).toList.getLast? with
    | none =>
      rw [List.getLast?_eq_none_iff.mp h] at hlength
      simp at hlength
    | some last => exact ⟨last, rfl⟩
  have hspace : isJsSpace last = false := by
    have hhex := hdigits last (List.mem_of_getLast? hlast)
    simp only [isHexDigit, Bool.or_eq_true, Bool.and_eq_true, decide_eq_true_eq] at hhex
    simp only [isJsSpace, Bool.or_eq_false_iff, Bool.and_eq_false_iff, decide_eq_false_iff_not]
    omega
  refine isStoreId_of_ends (a := 's') (b := last) ?_ ?_ (by decide) hspace
  · rw [sha256Text, String.toList_append]
    rfl
  · rw [sha256Text, String.toList_append, List.getLast?_append, hlast, Option.some_or]

theorem outcome_later {sha : Sha256} {d : Delivery} {r : CommitRequest}
    {e : SchedulerState} {written : Option SchedulerState} {result : CommitResult}
    (hr : commitRequest d.request = .ok r) (plain : e.Plain) (scope : r.scope = e.scope)
    (h : commitLocked sha d.clock r d.receipt (some e) = .ok (result, written)) :
    d.outcome sha (some e.toJson) = .ok (result, written) := by
  have hread : readStateUnderLock (some e.toJson) r.scope = .ok (some e) := by
    rw [scope, readStateUnderLock, normalizeSchedulerState_toJson plain]
  unfold Delivery.outcome
  rw [hr, ok_bind, evaluateSchedulerHeartbeatCommit, hread, ok_bind, h]

theorem commitRequest_digest {fields : List (String × Json)} {r : CommitRequest}
    {digest : String} (hdigest : IsStoreId digest)
    (h : (requestObject fields).toOption = some r)
    (absent : fields.lookup "expected_state_digest" = none) :
    commitRequest (.object (fields ++ [("expected_state_digest", .string digest)])) =
      .ok { r with expectedStateDigest := some digest } :=
  requestObject_digest hdigest (ok_of_toOption h) absent

private def hostFailureFields : List (String × Json) :=
  commitFields "host_failure" "failure" [("apply_needed", .bool true),
    ("observed_host_rrule", .string "FREQ=DAILY")]

private def failureRequest (digest : Option String) : CommitRequest :=
  ⟨.hostFailure, "failure", "/runtime", goalScope, "token", "signature", 0, [5, 10],
    "FREQ=MINUTELY;INTERVAL=5", "", "default", 2, "2026-01-01T08:00:00Z", digest, true, none,
    some true, "quota_scheduler_host_update_failure", false, none, "FREQ=DAILY", []⟩

/-- The state an ACK of the first stage writes where no failure is left. -/
def ackState (effectId : String) (digest : Option String) : SchedulerState :=
  commitState (ackRequest effectId digest) (requestDigest Sha256.node (ackRequest effectId digest))
    "FREQ=MINUTELY;INTERVAL=5" []

def stateDigest (s : SchedulerState) : String :=
  sha256Text Sha256.node (canonicalJson (domainState s))

theorem digest_some (s : SchedulerState) :
    schedulerHeartbeatCommitStateDigest Sha256.node (some s) = some (stateDigest s) := rfl

/-- The failure that the request reports. -/
private def firstFailure : HostUpdateFailure :=
  ⟨"FREQ=MINUTELY;INTERVAL=5", "FREQ=DAILY", "host_tool_failure", 1, "2026-01-01T08:00:00Z"⟩

private theorem settles_firstFailure : firstFailure.Settles 0 := ⟨by decide, by decide⟩

private theorem sound_firstFailure : firstFailure.Sound :=
  ⟨by decide, by decide, by decide, by decide, by decide, by decide⟩

private theorem failureCache_firstFailure : FailureCache [firstFailure] := by
  refine ⟨?_, List.pairwise_singleton _ _, by simp [HOST_UPDATE_FAILURE_CACHE_LIMIT]⟩
  intro f hf
  rw [List.mem_singleton.mp hf]
  exact sound_firstFailure

private theorem settles_of_mem_firstFailure :
    ∀ f ∈ [firstFailure], HostUpdateFailure.Settles 0 f := by
  intro f hf
  rw [List.mem_singleton.mp hf]
  exact settles_firstFailure

/-- The state the host failure writes over the first ACK. -/
private def failureState : SchedulerState :=
  let r := failureRequest (some (stateDigest (ackState "ack-1" none)))
  commitState r (requestDigest Sha256.node r) "FREQ=DAILY" [firstFailure]

/-- The second ACK stores the same facts as the first: nothing of the failure is left. -/
private theorem stateDigest_returns (effectId effectId' : String) (digest digest' : Option String) :
    stateDigest (ackState effectId digest) = stateDigest (ackState effectId' digest') := by
  rfl

theorem plain_ackState {effectId : String} {digest : Option String}
    (decoded : (ackRequest effectId digest).Decoded) : (ackState effectId digest).Plain :=
  plain_commitState decoded (fun h => absurd h (by decide)) ⟨by simp, List.Pairwise.nil, by simp⟩
    (by simp)

private theorem plain_failureState
    (decoded : (failureRequest (some (stateDigest (ackState "ack-1" none)))).Decoded) :
    failureState.Plain :=
  plain_commitState decoded (fun h => absurd h (by decide)) failureCache_firstFailure
    settles_of_mem_firstFailure

def firstAck : Delivery := ackCall none

private def hostFailure : Delivery :=
  ⟨.object (hostFailureFields ++
    [("expected_state_digest", .string (stateDigest (ackState "ack-1" none)))]), none, morning⟩

private def secondAck : Delivery :=
  ⟨.object (ackFields "ack-2" ++
    [("expected_state_digest", .string (stateDigest failureState))]), none, morning⟩

theorem commitRequest_firstAck :
    commitRequest firstAck.request = .ok (ackRequest "ack-1" none) :=
  commitRequest_ackFields

private theorem commitRequest_hostFailure : commitRequest hostFailure.request =
    .ok (failureRequest (some (stateDigest (ackState "ack-1" none)))) :=
  commitRequest_digest (isStoreId_sha256Text _ _)
    (show (requestObject hostFailureFields).toOption = some (failureRequest none) by
      decide +kernel)
    (by decide)

private theorem commitRequest_secondAck : commitRequest secondAck.request =
    .ok (ackRequest "ack-2" (some (stateDigest failureState))) :=
  commitRequest_digest (isStoreId_sha256Text _ _)
    (show (requestObject (ackFields "ack-2")).toOption = some (ackRequest "ack-2" none) by
      decide +kernel)
    (by decide)

private theorem firstStage_rrule : "FREQ=MINUTELY;INTERVAL=5" = rruleForMinutes 5 := by decide

/-- An ACK of the first stage on a state without failures for the host it finds. -/
private theorem commitLocked_ackRequest {effectId : String} {digest : Option String}
    {existing : Option SchedulerState} {receipt : Option ReceiptStatus}
    (decoded : (ackRequest effectId digest).Decoded)
    (pass : receipt.bind (receiptConflict existing) = none)
    (fresh : replayOrStale Sha256.node (ackRequest effectId digest) existing = none)
    (admitted : admitProgression (ackRequest effectId digest) existing = none)
    (empty : ackCache morning (ackRequest effectId digest) existing = []) :
    ∃ result, commitLocked Sha256.node morning (ackRequest effectId digest) receipt existing =
      .ok (result, some (ackState effectId digest)) := by
  have hbuilt := @buildAckState_exact _ morning existing
    (requestDigest Sha256.node (ackRequest effectId digest)) decoded (fun h => nomatch h.1)
    firstStage_rrule rfl (show trim "FREQ=MINUTELY;INTERVAL=5" ≠ "" by decide)
  rw [empty] at hbuilt
  exact ⟨_, commitLocked_of_ack rfl pass rfl fresh admitted hbuilt rfl⟩

private theorem outcome_ackCall {receipt : Option ReceiptStatus}
    (pass : receipt.bind (receiptConflict none) = none) : ∃ result,
    (ackCall receipt).outcome Sha256.node none = .ok (result, some (ackState "ack-1" none)) := by
  obtain ⟨result, hcommit⟩ := @commitLocked_ackRequest "ack-1" none none receipt
    (decoded_of_commitRequest commitRequest_firstAck) pass rfl (by decide)
    (by decide)
  exact ⟨result, (outcome_first commitRequest_ackFields).trans hcommit⟩

theorem outcome_firstAck : ∃ result,
    firstAck.outcome Sha256.node none = .ok (result, some (ackState "ack-1" none)) :=
  outcome_ackCall rfl

private theorem replayOrStale_same (sha : Sha256) (r : CommitRequest) (rrule : String)
    (failures : List HostUpdateFailure) : ∃ answer,
    replayOrStale sha r (some (commitState r (requestDigest sha r) rrule failures)) =
      some answer := by
  unfold replayOrStale
  rw [commitMetadata_commitState]
  simp only [and_self, if_true]
  exact ⟨_, rfl⟩

/-- The same ACK again is answered without a write, whatever its receipt says. -/
private theorem outcome_ackCall_again (receipt : Option ReceiptStatus) : ∃ result,
    (ackCall receipt).outcome Sha256.node (some (ackState "ack-1" none).toJson) =
      .ok (result, none) := by
  have plain := plain_ackState (decoded_of_commitRequest commitRequest_firstAck)
  have hcommit : ∃ result, commitLocked Sha256.node morning (ackRequest "ack-1" none) receipt
      (some (ackState "ack-1" none)) = .ok (result, none) := by
    cases hconflict : receipt.bind (receiptConflict (some (ackState "ack-1" none))) with
    | some refusal => exact ⟨refusal, by simp only [commitLocked, hconflict]⟩
    | none =>
      obtain ⟨answer, replayed⟩ := replayOrStale_same Sha256.node (ackRequest "ack-1" none)
        "FREQ=MINUTELY;INTERVAL=5" []
      exact ⟨answer, commitLocked_of_replayed hconflict rfl replayed⟩
  obtain ⟨result, hcommit⟩ := hcommit
  exact ⟨result, outcome_later commitRequest_ackFields plain rfl hcommit⟩

private theorem outcome_secondAck : ∃ result,
    secondAck.outcome Sha256.node (some failureState.toJson) =
      .ok (result, some (ackState "ack-2" (some (stateDigest failureState)))) := by
  have hplain := plain_failureState (decoded_of_commitRequest commitRequest_hostFailure)
  obtain ⟨result, hcommit⟩ := commitLocked_ackRequest
    (decoded_of_commitRequest commitRequest_secondAck)
    (show Option.bind none _ = none from rfl)
    (replayOrStale_commitState (show "failure" ≠ "ack-2" by decide) rfl)
    (show admitProgression (ackRequest "ack-2" _) (some failureState) = none by decide +kernel)
    (show ackCache morning (ackRequest "ack-2" _) (some failureState) = [] by decide +kernel)
  exact ⟨result, outcome_later commitRequest_secondAck hplain rfl hcommit⟩

/-- On the state of an ACK the failure is the first one. -/
private theorem failureCache_ackState {effectId : String} {digest : Option String}
    (decoded : (ackRequest effectId digest).Decoded) (expected : Option String) :
    normalizeSchedulerHostUpdateFailures
      (some (failuresJson (failureCacheAfter morning (failureRequest expected)
        (some (ackState effectId digest)))))
      (some (newFailure morning (failureRequest expected)
        (some (ackState effectId digest))).toJson) = failureState.failures := by
  have seen : seenFailures morning (failureRequest expected) (some (ackState effectId digest)) =
      [] := by
    rw [seenFailures, priorFailuresForRequest_some (plain_ackState decoded)]
    rfl
  have new : newFailure morning (failureRequest expected) (some (ackState effectId digest)) =
      firstFailure := by
    rw [newFailure, seen]
    rfl
  have normal := firstFailure.normalized_eq sound_firstFailure settles_firstFailure
  have none_retained (time observed : Option Json) :
      retainedSchedulerHostUpdateFailures morning (some (failuresJson [])) time observed = [] :=
    rfl
  rw [failureCacheAfter, seen, new, normal, none_retained, List.nil_append,
    normalize_failureCache failureCache_firstFailure settles_of_mem_firstFailure]
  exact normalize_failureCache_last failureCache_firstFailure settles_of_mem_firstFailure rfl
    (normalize_settled sound_firstFailure settles_firstFailure)

/-- The failure is applied on the state of the ACK it names, whichever effect wrote it. -/
private theorem outcome_hostFailure {effectId : String} {digest : Option String}
    (decoded : (ackRequest effectId digest).Decoded) (other : effectId ≠ "failure")
    (admitted : admitProgression (failureRequest (some (stateDigest (ackState "ack-1" none))))
      (some (ackState effectId digest)) = none) : ∃ result,
    hostFailure.outcome Sha256.node (some (ackState effectId digest).toJson) =
      .ok (result, some failureState) := by
  set r := failureRequest (some (stateDigest (ackState "ack-1" none))) with hr
  have hoperation : ¬r.operation = .ack := by
    rw [hr, failureRequest]
    simp
  have hstate : commitState r (requestDigest Sha256.node r) r.observedHostRrule
      failureState.failures = failureState := rfl
  have hbuilt := @buildHostFailureState_exact r morning (some (ackState effectId digest))
    (requestDigest Sha256.node r) (decoded_of_commitRequest commitRequest_hostFailure) rfl
    firstStage_rrule (show trim "FREQ=DAILY" ≠ "" by decide)
  rw [failureCache_ackState decoded, hstate] at hbuilt
  have hexpected : r.expectedStateDigest =
      schedulerHeartbeatCommitStateDigest Sha256.node (some (ackState effectId digest)) := by
    rw [digest_some, stateDigest_returns effectId "ack-1" digest none, hr, failureRequest]
  have hfresh : replayOrStale Sha256.node r (some (ackState effectId digest)) = none :=
    replayOrStale_commitState other hexpected
  have hcommit := @commitLocked_of_built r Sha256.node morning none
    (some (ackState effectId digest)) failureState rfl rfl hfresh admitted
    (by rw [if_neg hoperation]; exact hbuilt) rfl
  exact ⟨_, outcome_later commitRequest_hostFailure (plain_ackState decoded) rfl hcommit⟩

/-- A second ACK at the same time brings the first state back before the failure comes again. -/
private def returningRun : List Delivery := [firstAck, hostFailure, secondAck, hostFailure]

private theorem appliedCommits_step {sha : Sha256} {file : Option Json} {d : Delivery}
    {rest : List Delivery} {r : CommitRequest} {s : SchedulerState} {result : CommitResult}
    (hr : commitRequest d.request = .ok r) (h : d.outcome sha file = .ok (result, some s)) :
    appliedCommits (heartbeatSteps sha file (d :: rest)) =
      (r, s) :: appliedCommits (heartbeatSteps sha (some s.toJson) rest) := by
  rw [heartbeatSteps, appliedCommits_cons]
  simp only [HeartbeatStep.applied, hr, h, fileAfter, Option.toList_some, List.singleton_append]

/-- The laws at a run that delivers its one request twice. -/
theorem heartbeatRun_laws_late :
    SettledRun lateRun ∧
    NoCollision Sha256.node ((appliedCommits (heartbeatSteps Sha256.node none lateRun)).map
      (fun w => domainBytes w.2)) ∧
    (appliedCommits (heartbeatSteps Sha256.node none lateRun)).length = 1 ∧
    ∀ step ∈ heartbeatSteps Sha256.node none lateRun, StepLaws step := by
  have hrequests : ∀ r ∈ requestsOf lateRun, r = ackRequest "ack-1" none := by
    intro r hr
    simpa [requestsOf, lateRun, ackCall, commitRequest_ackFields, Except.toOption] using hr
  have hsettled : SettledRun lateRun := by
    constructor
    · intro r hr
      obtain rfl := hrequests r hr
      have hobserved : SettlesAfter 1 (ackRequest "ack-1" none).observedHostRrule := by
        decide
      exact ⟨hobserved, by simp [ackRequest]⟩
    · intro r hr r' hr' _ _ _
      rw [hrequests r hr, hrequests r' hr']
  have hlength : (appliedCommits (heartbeatSteps Sha256.node none lateRun)).length = 1 := by
    obtain ⟨first, hfirst⟩ := @outcome_ackCall (some .fresh) rfl
    obtain ⟨again, hagain⟩ := outcome_ackCall_again (some .superseded)
    rw [lateRun, appliedCommits_step commitRequest_ackFields hfirst, heartbeatSteps,
      appliedCommits_cons]
    simp only [HeartbeatStep.applied, hagain]
    cases commitRequest (ackCall (some .superseded)).request <;> rfl
  have hfree : NoCollision Sha256.node ((appliedCommits
      (heartbeatSteps Sha256.node none lateRun)).map (fun w => domainBytes w.2)) :=
    noCollision_of_length (by rw [List.length_map, hlength])
  exact ⟨hsettled, hfree, hlength, (heartbeatRun_laws _ _ hsettled hfree).1⟩

/-- The late duplicate of the failure passes the compare-and-swap. -/
private theorem failure_applied_again :
    ¬((appliedCommits (heartbeatSteps Sha256.node none returningRun)).map Prod.fst).Nodup := by
  obtain ⟨_, hfirst⟩ := outcome_firstAck
  obtain ⟨_, hfailure⟩ := outcome_hostFailure
    (decoded_of_commitRequest commitRequest_firstAck) (by decide) (by decide)
  obtain ⟨_, hsecond⟩ := outcome_secondAck
  obtain ⟨_, hagain⟩ := outcome_hostFailure
    (decoded_of_commitRequest commitRequest_secondAck) (by decide) (by decide)
  rw [returningRun, appliedCommits_step commitRequest_firstAck hfirst,
    appliedCommits_step commitRequest_hostFailure hfailure,
    appliedCommits_step commitRequest_secondAck hsecond,
    appliedCommits_step commitRequest_hostFailure hagain]
  simp

/-- A written state that normalization changes, and a request that is applied twice. -/
theorem nested_rrule_and_late_duplicate :
    (¬∀ step ∈ heartbeatSteps Sha256.node none [nestedCall], StepLaws step) ∧
    ¬((appliedCommits (heartbeatSteps Sha256.node none returningRun)).map Prod.fst).Nodup :=
  ⟨nested_rrule_changed, failure_applied_again⟩

end Runs

end Loopx.Scheduler
