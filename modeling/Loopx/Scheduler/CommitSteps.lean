/- GID: Loopx/Scheduler/CommitSteps
   generality: I
   source: loopx/control_plane/scheduler/heartbeat_commit.ts
   digest: What a decoded request is, what the two builders build, what one commit may write. -/

import Loopx.Scheduler.HeartbeatCommit
import Loopx.Scheduler.StateRoundTrip

set_option autoImplicit false
set_option relaxedAutoImplicit false

namespace Loopx.Scheduler

open Loopx.Json (JsNumber)
open Loopx.Authority (Sha256 trim trim_trim IsStoreId)
open Loopx.Lib.KeyedList
open Loopx.Lib.Fallible (bind_eq_ok)

/-- What `requestObject` promises of the requests it lets through. -/
structure CommitRequest.Decoded (r : CommitRequest) : Prop where
  valid : r.Valid
  goalId : IsStoreId r.scope.goalId
  agentId : IsStoreId r.scope.agentId
  surface : IsStoreId r.scope.surface
  stateKey : IsStoreId r.scope.stateKey
  resetToken : IsStoreId r.resetToken
  identitySignature : IsStoreId r.identitySignature
  generatedAt : IsStoreId r.generatedAt
  source : IsStoreId r.source
  failureKind : ∀ kind ∈ r.failureKind, IsStoreId kind
  prior : FailureCache r.priorHostUpdateFailures

private theorem isStoreId_of_trimmedString {value : Option Json} {label s : String}
    (h : trimmedString value label = .ok s) : IsStoreId s := by
  obtain ⟨raw, hraw, h⟩ := bind_eq_ok.mp h
  obtain rfl := Except.ok.inj h
  refine ⟨trim_trim raw, ?_⟩
  unfold requiredString at hraw
  split at hraw
  · split at hraw
    · simp at hraw
    · rename_i hnonempty
      rw [← Except.ok.inj hraw]
      exact hnonempty
  · simp at hraw

private theorem isStoreId_of_textOrDefault {value : Option Json} {label defaultValue s : String}
    (hdefault : IsStoreId defaultValue) (h : textOrDefault value label defaultValue = .ok s) :
    IsStoreId s := by
  unfold textOrDefault at h
  split at h
  · rw [← Except.ok.inj h]
    exact hdefault
  · exact isStoreId_of_trimmedString h

private theorem isStoreId_of_optionalText {value : Option Json} {label : String}
    {found : Option String} (h : optionalText value label = .ok found) :
    ∀ s ∈ found, IsStoreId s := by
  unfold optionalText at h
  split at h
  · rw [← Except.ok.inj h]
    simp
  · obtain ⟨s, hs, h⟩ := bind_eq_ok.mp h
    rw [← Except.ok.inj h]
    intro s' hs'
    obtain rfl := Option.mem_some.mp hs'
    exact isStoreId_of_trimmedString hs

private theorem positive_of_requiredPositives {label : String} (items : List Json) :
    ∀ (index : Nat) (l : List Int), requiredPositives label index items = .ok l →
      ∀ m ∈ l, 0 < m := by
  induction items with
  | nil =>
    intro index l h
    rw [← Except.ok.inj h]
    simp
  | cons item items ih =>
    intro index l h
    obtain ⟨n, -, h⟩ := bind_eq_ok.mp h
    split at h
    · simp at h
    · obtain ⟨ns, hns, h⟩ := bind_eq_ok.mp h
      rw [← Except.ok.inj h]
      intro m hm
      rcases List.mem_cons.mp hm with rfl | hm
      · omega
      · exact ih _ ns hns m hm

private theorem positive_of_requiredPositiveList {value : Option Json} {label : String}
    {l : List Int} (h : requiredPositiveList value label = .ok l) : ∀ m ∈ l, 0 < m := by
  unfold requiredPositiveList at h
  split at h
  · exact positive_of_requiredPositives _ _ l h
  · simp at h

private theorem failureCache_of_optionalFailureList {value : Option Json}
    {failures : List HostUpdateFailure} (h : optionalFailureList value = .ok failures) :
    FailureCache failures := by
  unfold optionalFailureList at h
  split at h
  · rw [← Except.ok.inj h]
    exact ⟨by simp, List.Pairwise.nil, by simp⟩
  · rw [← Except.ok.inj h]
    exact ⟨by simp, List.Pairwise.nil, by simp⟩
  · obtain ⟨read, -, h⟩ := bind_eq_ok.mp h
    rw [← Except.ok.inj h]
    exact failureCache_normalize _ _
  · simp at h

private theorem isStoreId_defaultSource (operation : CommitOperation) :
    IsStoreId (defaultSource operation) := by
  cases operation <;> decide

theorem decoded_of_requestObject {fields : List (String × Json)} {r : CommitRequest}
    (h : requestObject fields = .ok r) : r.Decoded := by
  unfold requestObject at h
  split at h
  · simp at h
  obtain ⟨operation, -, h⟩ := bind_eq_ok.mp h
  obtain ⟨effectId, -, h⟩ := bind_eq_ok.mp h
  obtain ⟨runtimeRoot, -, h⟩ := bind_eq_ok.mp h
  obtain ⟨goalId, hgoal, h⟩ := bind_eq_ok.mp h
  obtain ⟨agentId, hagent, h⟩ := bind_eq_ok.mp h
  obtain ⟨surface, hsurface, h⟩ := bind_eq_ok.mp h
  obtain ⟨stateKey, hkey, h⟩ := bind_eq_ok.mp h
  obtain ⟨resetToken, hreset, h⟩ := bind_eq_ok.mp h
  obtain ⟨identity, hidentity, h⟩ := bind_eq_ok.mp h
  obtain ⟨index, -, h⟩ := bind_eq_ok.mp h
  obtain ⟨minutes, hminutes, h⟩ := bind_eq_ok.mp h
  split at h
  · simp at h
  rename_i hindex
  obtain ⟨generatedAt, hgenerated, h⟩ := bind_eq_ok.mp h
  obtain ⟨execute, -, h⟩ := bind_eq_ok.mp h
  obtain ⟨ackNeeded, -, h⟩ := bind_eq_ok.mp h
  obtain ⟨hostMatch, -, h⟩ := bind_eq_ok.mp h
  obtain ⟨source, hsource, h⟩ := bind_eq_ok.mp h
  obtain ⟨tolerance, -, h⟩ := bind_eq_ok.mp h
  dsimp only at h
  split at h
  · simp at h
  obtain ⟨cadenceClass, -, h⟩ := bind_eq_ok.mp h
  obtain ⟨failureKind, hkind, h⟩ := bind_eq_ok.mp h
  obtain ⟨prior, hprior, h⟩ := bind_eq_ok.mp h
  obtain ⟨digest, -, h⟩ := bind_eq_ok.mp h
  obtain ⟨applyNeeded, -, h⟩ := bind_eq_ok.mp h
  rw [← Except.ok.inj h]
  exact {
    valid := ⟨by simp only; omega, positive_of_requiredPositiveList hminutes⟩
    goalId := isStoreId_of_trimmedString hgoal
    agentId := isStoreId_of_trimmedString hagent
    surface := isStoreId_of_textOrDefault (by decide) hsurface
    stateKey := isStoreId_of_textOrDefault (by decide) hkey
    resetToken := isStoreId_of_trimmedString hreset
    identitySignature := isStoreId_of_trimmedString hidentity
    generatedAt := isStoreId_of_trimmedString hgenerated
    source := isStoreId_of_textOrDefault (isStoreId_defaultSource operation) hsource
    failureKind := isStoreId_of_optionalText hkind
    prior := failureCache_of_optionalFailureList hprior }

/-- The state a commit writes, but for the RRULE and the failures its builder chose. -/
def commitState (r : CommitRequest) (digest applied : String) (failures : List HostUpdateFailure) :
    SchedulerState :=
  ⟨r.scope, r.resetToken, r.identitySignature, r.progressionIndex, r.progressionMinutes,
    trim applied, failures, [("updated_at", .string r.generatedAt), ("source", .string r.source),
      ("heartbeat_commit", CommitMetadata.toJson ⟨r.effectId, digest, r.operation⟩)]⟩

section Builders

variable {r : CommitRequest}

private theorem schedulerScope_stateParams (decoded : r.Decoded) (applied : String)
    (extra : List (String × Json)) :
    schedulerScope (stateParams r applied ++ extra) = r.scope := by
  have hgoal := decoded.goalId
  have hagent := decoded.agentId
  have hsurface := decoded.surface
  have hkey := decoded.stateKey
  simp [schedulerScope, stateParams, lookup_cons_ite, hgoal.1, hagent.1, hsurface.1, hkey.1,
    hsurface.2, hkey.2]

private theorem lookup_presentField (params : List (String × Json)) {name : String}
    (h : params.lookup name ≠ some .null) (k : String) :
    (presentField params name).lookup k = if k = name then params.lookup name else none := by
  unfold presentField
  split
  · rename_i hnone
    simp [hnone]
  · rename_i hnull
    exact absurd hnull h
  · rename_i value hvalue
    simp [lookup_cons_ite, hvalue]

private theorem filter_presentField (params : List (String × Json)) {name : String}
    (h : name ∈ normalizedKeys) :
    (presentField params name).filter (fun field => decide (field.1 ∉ normalizedKeys)) = [] := by
  unfold presentField
  split
  · rfl
  · rfl
  · simp [h]

/-- The record that `buildSchedulerState` hands to normalization. -/
private def builtFields (r : CommitRequest) (applied : String) (extra : List (String × Json)) :
    List (String × Json) :=
  [("schema_version", .string SCHEDULER_STATE_SCHEMA_VERSION), ("goal_id", .string r.scope.goalId),
    ("agent_id", .string r.scope.agentId), ("surface", .string r.scope.surface),
    ("state_key", .string r.scope.stateKey), ("reset_token", .string r.resetToken),
    ("identity_signature", .string r.identitySignature),
    ("progression_index", intJson r.progressionIndex),
    ("progression_minutes", .array (r.progressionMinutes.map intJson)),
    ("last_applied_rrule", .string applied), ("updated_at", .string r.generatedAt)] ++
    presentField extra "host_update_failure" ++ presentField extra "host_update_failures" ++
    [("source", .string r.source)]

private theorem presentField_stateParams (applied : String) (extra : List (String × Json))
    {name : String} (h : name = "host_update_failure" ∨ name = "host_update_failures") :
    presentField (stateParams r applied ++ extra) name = presentField extra name := by
  have hlookup : (stateParams r applied ++ extra).lookup name = extra.lookup name := by
    rcases h with rfl | rfl <;> simp [stateParams, lookup_cons_ite]
  rw [presentField, presentField, hlookup]

private theorem buildSchedulerState_eq (decoded : r.Decoded) (applied : String)
    (extra : List (String × Json)) :
    buildSchedulerState (stateParams r applied ++ extra) =
      normalizeSchedulerState (some (.object (builtFields r applied extra))) r.scope := by
  have hsource : pythonTruthy (some (.string r.source)) = true := by
    simp [pythonTruthy, decoded.source.2]
  have htext : pythonString (some (.string r.source)) = r.source := by
    simp [pythonString, jsString]
  have hlookup : ∀ name value, (stateParams r applied).lookup name = some value →
      (stateParams r applied ++ extra).lookup name = some value := by
    intro name value h
    rw [List.lookup_append, h, Option.some_or]
  simp only [buildSchedulerState, schedulerScope_stateParams decoded, paramOrNull,
    presentField_stateParams applied extra (.inl rfl),
    presentField_stateParams applied extra (.inr rfl),
    hlookup "source" (.string r.source) (by simp [stateParams, lookup_cons_ite]),
    hlookup "reset_token" (.string r.resetToken) (by simp [stateParams, lookup_cons_ite]),
    hlookup "identity_signature" (.string r.identitySignature)
      (by simp [stateParams, lookup_cons_ite]),
    hlookup "progression_index" (intJson r.progressionIndex)
      (by simp [stateParams, lookup_cons_ite]),
    hlookup "progression_minutes" (.array (r.progressionMinutes.map intJson))
      (by simp [stateParams, lookup_cons_ite]),
    hlookup "last_applied_rrule" (.string applied) (by simp [stateParams, lookup_cons_ite]),
    hlookup "updated_at" (.string r.generatedAt) (by simp [stateParams, lookup_cons_ite]),
    stringOrEmpty_string, Option.getD_some, hsource, htext, if_true]
  rfl

private theorem lookup_builtFields_failures (applied : String) {extra : List (String × Json)}
    (hvalue : extra.lookup "host_update_failures" ≠ some .null)
    (hlegacy : extra.lookup "host_update_failure" ≠ some .null) :
    (builtFields r applied extra).lookup "host_update_failures" =
        extra.lookup "host_update_failures" ∧
      (builtFields r applied extra).lookup "host_update_failure" =
        extra.lookup "host_update_failure" := by
  constructor
  · simp [builtFields, lookup_cons_ite, List.lookup_append, lookup_presentField _ hvalue,
      lookup_presentField _ hlegacy]
  · simp [builtFields, lookup_cons_ite, List.lookup_append, lookup_presentField _ hvalue,
      lookup_presentField _ hlegacy]

private theorem filter_builtFields (applied : String) (extra : List (String × Json)) :
    (builtFields r applied extra).filter (fun field => decide (field.1 ∉ normalizedKeys)) =
      [("updated_at", .string r.generatedAt), ("source", .string r.source)] := by
  have hlegacy := filter_presentField extra
    (show "host_update_failure" ∈ normalizedKeys by decide)
  have hvalue := filter_presentField extra
    (show "host_update_failures" ∈ normalizedKeys by decide)
  simp only [builtFields, List.filter_append, hlegacy, hvalue]
  simp [normalizedKeys]

private theorem namesScope_builtFields (decoded : r.Decoded) (applied : String)
    (extra : List (String × Json)) : namesScope (builtFields r applied extra) r.scope = true := by
  have hschema : trim SCHEDULER_STATE_SCHEMA_VERSION = SCHEDULER_STATE_SCHEMA_VERSION := by
    decide
  simp [namesScope, builtFields, lookup_cons_ite, hschema, decoded.goalId.1, decoded.agentId.1,
    decoded.surface.1, decoded.stateKey.1]

/-- One state comes out of the parameters, unless it would say nothing about the host. -/
theorem buildSchedulerState_stateParams (decoded : r.Decoded) (applied : String)
    {extra : List (String × Json)} (hvalue : extra.lookup "host_update_failures" ≠ some .null)
    (hlegacy : extra.lookup "host_update_failure" ≠ some .null) :
    buildSchedulerState (stateParams r applied ++ extra) =
      let failures := normalizeSchedulerHostUpdateFailures
        (extra.lookup "host_update_failures") (extra.lookup "host_update_failure")
      if trim applied = "" ∧ failures = [] then none
      else some ⟨r.scope, r.resetToken, r.identitySignature, r.progressionIndex,
        r.progressionMinutes, trim applied, failures,
        [("updated_at", .string r.generatedAt), ("source", .string r.source)]⟩ := by
  obtain ⟨hfailures, hfailure⟩ := lookup_builtFields_failures (r := r) applied hvalue hlegacy
  have hidentity : ¬(r.resetToken = "" ∨ r.identitySignature = "") := by
    rintro (h | h)
    · exact decoded.resetToken.2 h
    · exact decoded.identitySignature.2 h
  have hminutes : r.progressionMinutes ≠ [] := by
    intro h
    have := decoded.valid.index
    simp [h] at this
  have hreset : (builtFields r applied extra).lookup "reset_token" =
      some (.string r.resetToken) := by simp [builtFields, lookup_cons_ite]
  have hsignature : (builtFields r applied extra).lookup "identity_signature" =
      some (.string r.identitySignature) := by simp [builtFields, lookup_cons_ite]
  have happlied : (builtFields r applied extra).lookup "last_applied_rrule" =
      some (.string applied) := by simp [builtFields, lookup_cons_ite]
  have hindex : (builtFields r applied extra).lookup "progression_index" =
      some (intJson r.progressionIndex) := by simp [builtFields, lookup_cons_ite]
  have hlist : (builtFields r applied extra).lookup "progression_minutes" =
      some (.array (r.progressionMinutes.map intJson)) := by simp [builtFields, lookup_cons_ite]
  simp only [buildSchedulerState_eq decoded, normalizeSchedulerState,
    namesScope_builtFields decoded, hreset, hsignature, happlied, hindex, hlist, hfailures,
    hfailure, filter_builtFields, trimmed_string, decoded.resetToken.1,
    decoded.identitySignature.1, pythonInteger_intJson,
    positiveIntegerList_map hminutes decoded.valid.positive, hidentity, if_false]
  rw [if_neg (by simp)]
  split
  · rfl
  · rw [if_neg (by omega)]

/-- The failures that an ACK keeps, as they are stored. -/
def ackCache (clock : HostClock) (r : CommitRequest) (existing : Option SchedulerState) :
    List HostUpdateFailure :=
  normalizeSchedulerHostUpdateFailures (some (failuresJson (ackFailures clock r existing))) none

/-- The failures that a host failure leaves. -/
def failureCacheAfter (clock : HostClock) (r : CommitRequest) (existing : Option SchedulerState) :
    List HostUpdateFailure :=
  normalizeSchedulerHostUpdateFailures (some (failuresJson
    (retainedSchedulerHostUpdateFailures clock
      (some (failuresJson (seenFailures clock r existing))) (some (.string r.generatedAt))
      (some (.string (newFailure clock r existing).normalized.observedHostRrule)) ++
        [(newFailure clock r existing).normalized]))) none

private theorem withCommitMetadata_built (digest applied : String)
    (failures : List HostUpdateFailure) :
    withCommitMetadata ⟨r.scope, r.resetToken, r.identitySignature, r.progressionIndex,
      r.progressionMinutes, trim applied, failures,
      [("updated_at", .string r.generatedAt), ("source", .string r.source)]⟩ r digest =
      commitState r digest applied failures := by
  simp [withCommitMetadata, commitState, setKey]

/-- The state before the receipt of the commit is put in. -/
private def bareState (r : CommitRequest) (applied : String) (failures : List HostUpdateFailure) :
    SchedulerState :=
  ⟨r.scope, r.resetToken, r.identitySignature, r.progressionIndex, r.progressionMinutes,
    trim applied, failures, [("updated_at", .string r.generatedAt), ("source", .string r.source)]⟩

private theorem build_ackParams (decoded : r.Decoded) (applied : String)
    (failures : List HostUpdateFailure) :
    buildSchedulerState (stateParams r applied ++
      (if failures = [] then [] else [("host_update_failures", failuresJson failures)])) =
      let cache := normalizeSchedulerHostUpdateFailures (some (failuresJson failures)) none
      if trim applied = "" ∧ cache = [] then none else some (bareState r applied cache) := by
  by_cases hfailures : failures = []
  · subst hfailures
    rw [if_pos rfl, buildSchedulerState_stateParams decoded applied (by simp) (by simp)]
    rfl
  · rw [if_neg hfailures, buildSchedulerState_stateParams decoded applied
      (by simp [lookup_cons_ite, failuresJson]) (by simp [lookup_cons_ite])]
    simp only [lookup_cons_ite, List.lookup_nil, if_true, bareState]
    rw [if_neg (show ¬"host_update_failure" = "host_update_failures" by decide)]

private theorem lookup_failureParams (failure failures : Json) :
    [("host_update_failure", failure), ("host_update_failures", failures)].lookup
        "host_update_failures" = some failures ∧
      [("host_update_failure", failure), ("host_update_failures", failures)].lookup
        "host_update_failure" = some failure := by
  simp [lookup_cons_ite]

private theorem build_failureParams (decoded : r.Decoded) (applied : String)
    (failure : HostUpdateFailure) (failures : List HostUpdateFailure) :
    buildSchedulerState (stateParams r applied ++
      [("host_update_failure", failure.toJson), ("host_update_failures", failuresJson failures)]) =
      let cache := normalizeSchedulerHostUpdateFailures (some (failuresJson failures))
        (some failure.toJson)
      if trim applied = "" ∧ cache = [] then none else some (bareState r applied cache) := by
  obtain ⟨hvalue, hlegacy⟩ := lookup_failureParams failure.toJson (failuresJson failures)
  rw [buildSchedulerState_stateParams decoded applied
    (by rw [hvalue]; simp [failuresJson]) (by rw [hlegacy]; simp [HostUpdateFailure.toJson]),
    hvalue, hlegacy]
  rfl

private theorem builtState_eq {params : List (String × Json)} {digest applied : String}
    {cache : List HostUpdateFailure}
    (h : buildSchedulerState params =
      if trim applied = "" ∧ cache = [] then none else some (bareState r applied cache)) :
    builtState r digest params = if trim applied = "" ∧ cache = [] then .thrown MISSING_FIELDS
      else .state (commitState r digest applied cache) := by
  unfold builtState
  rw [h]
  split
  · rename_i hnone
    split at hnone
    · rename_i hcond
      rw [if_pos hcond]
    · simp at hnone
  · rename_i state hsome
    split at hsome
    · simp at hsome
    · rename_i hcond
      rw [if_neg hcond, ← Option.some.inj hsome]
      exact congrArg Built.state (withCommitMetadata_built digest applied cache)

/-- The state an ACK builds. -/
theorem buildAckState_state {clock : HostClock} {existing : Option SchedulerState}
    {digest : String} {s : SchedulerState} (decoded : r.Decoded)
    (h : buildAckState clock r existing digest = .state s) :
    s = commitState r digest r.appliedRrule (ackCache clock r existing) ∧
      (trim r.appliedRrule = "" → ackCache clock r existing ≠ []) := by
  unfold buildAckState at h
  dsimp only at h
  split at h
  · cases h
  split at h
  · cases h
  split at h
  · cases h
  split at h
  · cases h
  split at h
  · cases h
  rw [builtState_eq (build_ackParams decoded r.appliedRrule (ackFailures clock r existing))] at h
  split at h
  · cases h
  · rename_i hcond
    refine ⟨(Built.state.inj h).symm, ?_⟩
    intro happlied hcache
    exact hcond ⟨happlied, hcache⟩

/-- An ACK of exactly the expected RRULE always builds its state. -/
theorem buildAckState_exact {clock : HostClock} {existing : Option SchedulerState}
    {digest : String} (decoded : r.Decoded)
    (needed : ¬(r.ackNeeded = some false ∧ r.applyNeeded = some false))
    (target : r.expectedRrule = derivedRrule r) (exact : r.appliedRrule = r.expectedRrule)
    (nonempty : trim r.appliedRrule ≠ "") :
    buildAckState clock r existing digest =
      .state (commitState r digest r.appliedRrule (ackCache clock r existing)) := by
  have happlied : r.appliedRrule ≠ "" := by
    intro h
    rw [h] at nonempty
    exact nonempty rfl
  simp only [buildAckState]
  rw [if_neg needed, if_neg (not_not_intro target), if_neg (fun h => h.1 exact),
    if_neg (fun h => h.1 exact), if_neg happlied,
    builtState_eq (build_ackParams decoded r.appliedRrule (ackFailures clock r existing)),
    if_neg (fun h => nonempty h.1), ackCache]

/-- The RRULE texts that a request brings settle before they are stored: the observed one is
normalized once more, the prior failures twice. -/
structure CommitRequest.Settled (r : CommitRequest) : Prop where
  observed : SettlesAfter 1 r.observedHostRrule
  prior : ∀ f ∈ r.priorHostUpdateFailures, f.Settles 2

private theorem one_le_failureCount {clock : HostClock} {existing : Option SchedulerState} :
    1 ≤ (newFailure clock r existing).failureCount := by
  simp only [newFailure]
  cases hprior : (seenFailures clock r existing).reverse.find?
      (fun failure => normalizeRruleText failure.targetRrule = r.expectedRrule) with
  | none => simp
  | some prior =>
    have hmem : prior ∈ seenFailures clock r existing :=
      List.mem_reverse.mp (List.mem_of_find?_eq_some hprior)
    have hpositive := ((failureCache_normalize _ _).sound prior (List.mem_of_mem_filter hmem)).positive
    simp only [Option.map_some, Option.getD_some]
    omega

theorem normalize_newFailure {clock : HostClock} {existing : Option SchedulerState}
    (decoded : r.Decoded) (target : r.expectedRrule = derivedRrule r) :
    normalizeSchedulerHostUpdateFailure (some (newFailure clock r existing).toJson) =
      some (newFailure clock r existing).normalized := by
  have hkind : IsStoreId (r.failureKind.getD "host_tool_failure") := by
    cases hkind : r.failureKind with
    | none => decide
    | some kind => exact decoded.failureKind kind hkind
  have hcount := @one_le_failureCount r clock existing
  rw [normalizeSchedulerHostUpdateFailure_toJson, if_neg]
  rintro (h | h | h | h)
  · simp only [newFailure] at h
    rw [target, derivedRrule, normalizeRruleText_rruleForMinutes] at h
    exact rruleForMinutes_ne_empty _ h
  · simp only [newFailure] at h
    rw [hkind.1] at h
    exact hkind.2 h
  · simp only [newFailure] at h
    rw [decoded.generatedAt.1] at h
    exact decoded.generatedAt.2 h
  · omega

private theorem merge_newFailure {clock : HostClock} {existing : Option SchedulerState}
    (decoded : r.Decoded) (target : r.expectedRrule = derivedRrule r) :
    mergeSchedulerHostUpdateFailure clock (some (failuresJson (seenFailures clock r existing)))
        (some (newFailure clock r existing).toJson) (some (.string r.generatedAt)) =
      some (failureCacheAfter clock r existing) := by
  rw [mergeSchedulerHostUpdateFailure, normalize_newFailure decoded target, Option.map_some,
    failureCacheAfter]

/-- The state a host failure builds. -/
theorem buildHostFailureState_state {clock : HostClock} {existing : Option SchedulerState}
    {digest : String} {s : SchedulerState} (decoded : r.Decoded)
    (h : buildHostFailureState clock r existing digest = .state s) :
    r.expectedRrule = derivedRrule r ∧
      s = commitState r digest r.observedHostRrule (normalizeSchedulerHostUpdateFailures
        (some (failuresJson (failureCacheAfter clock r existing)))
        (some (newFailure clock r existing).toJson)) := by
  unfold buildHostFailureState at h
  split at h
  · cases h
  split at h
  · cases h
  rename_i htarget
  have htarget : r.expectedRrule = derivedRrule r := not_ne_iff.mp htarget
  refine ⟨htarget, ?_⟩
  dsimp only at h
  rw [merge_newFailure decoded htarget] at h
  dsimp only at h
  rw [builtState_eq (build_failureParams decoded r.observedHostRrule
    (newFailure clock r existing) (failureCacheAfter clock r existing))] at h
  split at h
  · cases h
  · exact (Built.state.inj h).symm

/-- A recordable host failure always builds its state. -/
theorem buildHostFailureState_exact {clock : HostClock} {existing : Option SchedulerState}
    {digest : String} (decoded : r.Decoded) (needed : r.applyNeeded = some true)
    (target : r.expectedRrule = derivedRrule r) (nonempty : trim r.observedHostRrule ≠ "") :
    buildHostFailureState clock r existing digest = .state (commitState r digest
      r.observedHostRrule (normalizeSchedulerHostUpdateFailures
        (some (failuresJson (failureCacheAfter clock r existing)))
        (some (newFailure clock r existing).toJson))) := by
  simp only [buildHostFailureState]
  rw [if_neg (not_not_intro needed), if_neg (not_not_intro target),
    merge_newFailure decoded target]
  dsimp only
  rw [builtState_eq (build_failureParams decoded r.observedHostRrule
    (newFailure clock r existing) (failureCacheAfter clock r existing)),
    if_neg (fun h => nonempty h.1)]

private theorem settles_seenFailures {clock : HostClock} {existing : Option SchedulerState}
    {n : Nat} (prior : ∀ f ∈ priorFailuresForRequest r existing, f.Settles (n + 1)) :
    ∀ f ∈ seenFailures clock r existing, f.Settles n := by
  intro f hf
  exact settles_normalize prior f (List.mem_of_mem_filter hf)

private theorem settles_newFailure {clock : HostClock} {existing : Option SchedulerState}
    (target : r.expectedRrule = derivedRrule r) (observed : SettlesAfter 1 r.observedHostRrule) :
    (newFailure clock r existing).normalized.Settles 0 := by
  refine HostUpdateFailure.Settles.normalized ⟨?_, observed⟩
  simp only [newFailure]
  rw [target]
  exact SettlesAfter.of_fixed (normalizeRruleText_rruleForMinutes _) _

theorem settles_failureCacheAfter {clock : HostClock} {existing : Option SchedulerState}
    (target : r.expectedRrule = derivedRrule r) (observed : SettlesAfter 1 r.observedHostRrule)
    (prior : ∀ f ∈ priorFailuresForRequest r existing, f.Settles 2) :
    ∀ f ∈ failureCacheAfter clock r existing, f.Settles 0 := by
  apply settles_normalize
  intro f hf
  rcases List.mem_append.mp hf with hf | hf
  · have hseen := @settles_seenFailures r clock existing _ prior
    exact (settles_normalize hseen f (List.mem_of_mem_filter hf)).succ
  · obtain rfl := List.mem_singleton.mp hf
    exact (settles_newFailure target observed).succ

theorem settles_ackCache {clock : HostClock} {existing : Option SchedulerState}
    (prior : ∀ f ∈ priorFailuresForRequest r existing, f.Settles 2) :
    ∀ f ∈ ackCache clock r existing, f.Settles 0 := by
  apply settles_normalize
  intro f hf
  exact settles_normalize prior f (List.mem_of_mem_filter (List.mem_of_mem_filter hf))

/-- The new failure stands last. -/
private theorem getLast?_failureCacheAfter {clock : HostClock} {existing : Option SchedulerState}
    (decoded : r.Decoded) (target : r.expectedRrule = derivedRrule r)
    (observed : SettlesAfter 1 r.observedHostRrule) :
    (failureCacheAfter clock r existing).getLast? =
      some (newFailure clock r existing).normalized := by
  have hsound := sound_of_normalized (@normalize_newFailure r clock existing decoded target)
  exact getLast?_normalize (normalize_settled hsound (settles_newFailure target observed))

/-- Building the state once more from the merged list changes nothing. -/
private theorem normalize_failureCacheAfter {clock : HostClock} {existing : Option SchedulerState}
    (decoded : r.Decoded) (target : r.expectedRrule = derivedRrule r)
    (observed : SettlesAfter 1 r.observedHostRrule)
    (prior : ∀ f ∈ priorFailuresForRequest r existing, f.Settles 2) :
    normalizeSchedulerHostUpdateFailures
        (some (failuresJson (failureCacheAfter clock r existing)))
        (some (newFailure clock r existing).toJson) = failureCacheAfter clock r existing := by
  exact normalize_failureCache_last (failureCache_normalize _ _)
    (settles_failureCacheAfter target observed prior)
    (getLast?_failureCacheAfter decoded target observed) (normalize_newFailure decoded target)

/-- What a commit may write: the state of an ACK, or that of a host failure. -/
inductive Writes (clock : HostClock) (r : CommitRequest) (existing : Option SchedulerState)
    (digest : String) : SchedulerState → Prop where
  | ack (operation : r.operation = .ack)
      (present : trim r.appliedRrule = "" → ackCache clock r existing ≠ []) :
      Writes clock r existing digest
        (commitState r digest r.appliedRrule (ackCache clock r existing))
  | hostFailure (operation : r.operation = .hostFailure)
      (target : r.expectedRrule = derivedRrule r) :
      Writes clock r existing digest (commitState r digest r.observedHostRrule
        (normalizeSchedulerHostUpdateFailures
          (some (failuresJson (failureCacheAfter clock r existing)))
          (some (newFailure clock r existing).toJson)))

/-- One commit inverted: whatever is written passed every check of the kernel. -/
theorem commitLocked_written {sha : Sha256} {clock : HostClock} {receipt : Option ReceiptStatus}
    {existing : Option SchedulerState} {result : CommitResult} {s : SchedulerState}
    (decoded : r.Decoded)
    (h : commitLocked sha clock r receipt existing = .ok (result, some s)) :
    result.status = .written ∧ result.state = some s ∧ replayOrStale sha r existing = none ∧
      admitProgression r existing = none ∧ r.execute = true ∧
      Writes clock r existing (requestDigest sha r) s := by
  unfold commitLocked at h
  split at h
  · simp at h
  split at h
  · simp at h
  split at h
  · simp at h
  rename_i hfresh
  split at h
  · simp at h
  rename_i hadmitted
  split at h
  · simp at h
  · simp at h
  rename_i state hbuilt
  split at h
  · rename_i hexecute
    simp only [Except.ok.injEq, Prod.mk.injEq, Option.some.injEq] at h
    obtain ⟨rfl, rfl⟩ := h
    refine ⟨rfl, rfl, hfresh, hadmitted, hexecute, ?_⟩
    split at hbuilt
    · rename_i hoperation
      obtain ⟨rfl, hpresent⟩ := buildAckState_state decoded hbuilt
      exact .ack hoperation hpresent
    · rename_i hoperation
      obtain ⟨htarget, rfl⟩ := buildHostFailureState_state decoded hbuilt
      have hfailure : r.operation = .hostFailure := by
        cases hop : r.operation with
        | ack => exact absurd hop hoperation
        | hostFailure => rfl
      exact .hostFailure hfailure htarget
  · simp at h

theorem commitMetadata_commitState (digest applied : String)
    (failures : List HostUpdateFailure) :
    commitMetadata (some (commitState r digest applied failures)) =
      some ⟨r.effectId, digest, r.operation⟩ := by
  cases hoperation : r.operation <;>
    simp [commitMetadata, commitState, lookup_cons_ite, decodeMetadata, CommitMetadata.toJson,
      CommitOperation.text, hoperation]

/-- Another effect that expects the stored digest is neither a replay nor stale. -/
theorem replayOrStale_commitState {sha : Sha256} {r' : CommitRequest} {digest applied : String}
    {failures : List HostUpdateFailure} (other : r'.effectId ≠ r.effectId)
    (expected : r.expectedStateDigest = schedulerHeartbeatCommitStateDigest sha
      (some (commitState r' digest applied failures))) :
    replayOrStale sha r (some (commitState r' digest applied failures)) = none := by
  unfold replayOrStale
  rw [commitMetadata_commitState]
  simp only
  rw [if_neg other, if_neg (not_not_intro expected)]

/-- A request that passes every check writes the state that was built. -/
theorem commitLocked_of_built {sha : Sha256} {clock : HostClock} {receipt : Option ReceiptStatus}
    {existing : Option SchedulerState} {s : SchedulerState}
    (pass : receipt.bind (receiptConflict existing) = none) (host : hostMatchMismatch r = false)
    (fresh : replayOrStale sha r existing = none) (admitted : admitProgression r existing = none)
    (built : (if r.operation = .ack then buildAckState clock r existing (requestDigest sha r)
      else buildHostFailureState clock r existing (requestDigest sha r)) = .state s)
    (execute : r.execute = true) :
    commitLocked sha clock r receipt existing =
      .ok (⟨.written, some s, "scheduler heartbeat commit written", none⟩, some s) := by
  unfold commitLocked
  rw [pass]
  simp only [host, Bool.false_eq_true, if_false, fresh, admitted, built, execute, if_true]

theorem commitLocked_of_ack {sha : Sha256} {clock : HostClock} {receipt : Option ReceiptStatus}
    {existing : Option SchedulerState} {s : SchedulerState} (ack : r.operation = .ack)
    (pass : receipt.bind (receiptConflict existing) = none) (host : hostMatchMismatch r = false)
    (fresh : replayOrStale sha r existing = none) (admitted : admitProgression r existing = none)
    (built : buildAckState clock r existing (requestDigest sha r) = .state s)
    (execute : r.execute = true) :
    commitLocked sha clock r receipt existing =
      .ok (⟨.written, some s, "scheduler heartbeat commit written", none⟩, some s) :=
  commitLocked_of_built pass host fresh admitted (by rw [if_pos ack, built]) execute

theorem commitLocked_of_replayed {sha : Sha256} {clock : HostClock}
    {receipt : Option ReceiptStatus} {existing : Option SchedulerState} {answer : CommitResult}
    (pass : receipt.bind (receiptConflict existing) = none) (host : hostMatchMismatch r = false)
    (replayed : replayOrStale sha r existing = some answer) :
    commitLocked sha clock r receipt existing = .ok (answer, none) := by
  unfold commitLocked
  rw [pass]
  simp only [host, Bool.false_eq_true, if_false, replayed]

theorem commitLocked_of_refused {sha : Sha256} {clock : HostClock}
    {receipt : Option ReceiptStatus} {existing : Option SchedulerState} {refusal : CommitResult}
    (pass : receipt.bind (receiptConflict existing) = none) (host : hostMatchMismatch r = false)
    (fresh : replayOrStale sha r existing = none)
    (refused : admitProgression r existing = some refusal) :
    commitLocked sha clock r receipt existing = .ok (refusal, none) := by
  unfold commitLocked
  rw [pass]
  simp only [host, Bool.false_eq_true, if_false, fresh, refused]

/-- Within an identity no request goes back to an earlier stage. -/
theorem admitProgression_back {e : SchedulerState} (same : identityEqual r e = true)
    (back : (r.progressionIndex : Int) < e.progressionIndex) :
    admitProgression r (some e) = some (conflictResult (some e)
      "scheduler heartbeat progression would move backwards" "progression_regression") := by
  simp [admitProgression, same, back]

private theorem status_receiptConflict {existing : Option SchedulerState}
    {status : ReceiptStatus} {result : CommitResult}
    (h : receiptConflict existing status = some result) : result.status ≠ .written := by
  cases status <;> simp [receiptConflict, conflictResult] at h <;> simp [← h]

private theorem status_replayOrStale {sha : Sha256} {existing : Option SchedulerState}
    {result : CommitResult} (h : replayOrStale sha r existing = some result) :
    result.status ≠ .written := by
  unfold replayOrStale conflictResult at h
  split at h
  · split at h
    · split at h <;> simp [← Option.some.inj h]
    · split at h
      · simp [← Option.some.inj h]
      · simp at h
  · split at h
    · simp [← Option.some.inj h]
    · simp at h

private theorem status_admitProgression {existing : Option SchedulerState} {result : CommitResult}
    (h : admitProgression r existing = some result) : result.status ≠ .written := by
  unfold admitProgression conflictResult at h
  dsimp only at h
  split at h
  · simp [← Option.some.inj h]
  split at h
  · simp [← Option.some.inj h]
  split at h
  · simp [← Option.some.inj h]
  split at h
  · simp [← Option.some.inj h]
  · simp at h

private theorem builtState_ne_refused {digest : String} {params : List (String × Json)}
    {result : CommitResult} : builtState r digest params ≠ .refused result := by
  unfold builtState
  split <;> simp

private theorem status_buildAckState {clock : HostClock} {existing : Option SchedulerState}
    {digest : String} {result : CommitResult}
    (h : buildAckState clock r existing digest = .refused result) : result.status ≠ .written := by
  unfold buildAckState conflictResult at h
  dsimp only at h
  split at h
  · simp [← Built.refused.inj h]
  split at h
  · simp [← Built.refused.inj h]
  split at h
  · simp [← Built.refused.inj h]
  split at h
  · simp [← Built.refused.inj h]
  split at h
  · simp [← Built.refused.inj h]
  · exact absurd h builtState_ne_refused

private theorem status_buildHostFailureState {clock : HostClock}
    {existing : Option SchedulerState} {digest : String} {result : CommitResult}
    (h : buildHostFailureState clock r existing digest = .refused result) :
    result.status ≠ .written := by
  unfold buildHostFailureState conflictResult at h
  dsimp only at h
  split at h
  · simp [← Built.refused.inj h]
  split at h
  · simp [← Built.refused.inj h]
  split at h
  · cases h
  · exact absurd h builtState_ne_refused

/-- An answer that writes nothing does not say that it was written. -/
theorem commitLocked_kept {sha : Sha256} {clock : HostClock} {receipt : Option ReceiptStatus}
    {existing : Option SchedulerState} {result : CommitResult}
    (h : commitLocked sha clock r receipt existing = .ok (result, none)) :
    result.status ≠ .written := by
  unfold commitLocked at h
  split at h
  · rename_i refusal hreceipt
    obtain ⟨status, -, hstatus⟩ := Option.bind_eq_some_iff.mp hreceipt
    obtain rfl : refusal = result := by simpa using h
    exact status_receiptConflict hstatus
  split at h
  · simp [← (Prod.mk.inj (Except.ok.inj h)).1, conflictResult]
  split at h
  · rename_i answer hanswer
    obtain rfl : answer = result := by simpa using h
    exact status_replayOrStale hanswer
  split at h
  · rename_i refusal hrefusal
    obtain rfl : refusal = result := by simpa using h
    exact status_admitProgression hrefusal
  split at h
  · simp at h
  · rename_i refusal hbuilt
    obtain rfl : refusal = result := by simpa using h
    split at hbuilt
    · exact status_buildAckState hbuilt
    · exact status_buildHostFailureState hbuilt
  · split at h
    · simp at h
    · simp [← (Prod.mk.inj (Except.ok.inj h)).1]

/-- The failures of a plain stored state are read as they are. -/
theorem priorFailuresForRequest_some {e : SchedulerState} (plain : e.Plain) :
    priorFailuresForRequest r (some e) = e.failures :=
  normalize_fields_failures plain.cache plain.settled plain.others

theorem settles_priorFailures {existing : Option SchedulerState} (settled : r.Settled)
    (plain : ∀ e ∈ existing, e.Plain) :
    ∀ f ∈ priorFailuresForRequest r existing, f.Settles 2 := by
  cases existing with
  | none => exact settled.prior
  | some e =>
    intro f hf
    rw [priorFailuresForRequest_some (plain e rfl)] at hf
    exact ((plain e rfl).settled f hf).succ.succ

theorem plain_commitState (decoded : r.Decoded) {digest applied : String}
    {failures : List HostUpdateFailure} (present : trim applied = "" → failures ≠ [])
    (cache : FailureCache failures) (settled : ∀ f ∈ failures, f.Settles 0) :
    (commitState r digest applied failures).Plain where
  goalId := decoded.goalId.1
  agentId := decoded.agentId.1
  surface := decoded.surface.1
  stateKey := decoded.stateKey.1
  resetToken := decoded.resetToken
  identitySignature := decoded.identitySignature
  index := Int.natCast_nonneg _
  minutes := by
    intro h
    have hindex := decoded.valid.index
    rw [show r.progressionMinutes = [] from h] at hindex
    exact absurd hindex (by simp)
  positive := decoded.valid.positive
  applied := trim_trim applied
  present := present
  cache := cache
  settled := settled
  others := by
    intro k hk
    simp only [commitState, keys_cons, keys_nil, List.mem_cons, List.not_mem_nil, or_false] at hk
    rcases hk with rfl | rfl | rfl <;> decide

/-- Whatever a settled request writes over a plain state is plain. -/
theorem Writes.plain {clock : HostClock} {existing : Option SchedulerState} {digest : String}
    {s : SchedulerState} (h : Writes clock r existing digest s) (decoded : r.Decoded)
    (settled : r.Settled) (plain : ∀ e ∈ existing, e.Plain) : s.Plain := by
  have hprior := settles_priorFailures settled plain
  cases h with
  | ack operation present =>
    exact plain_commitState decoded present (failureCache_normalize _ _) (settles_ackCache hprior)
  | hostFailure operation target =>
    rw [normalize_failureCacheAfter decoded target settled.observed hprior]
    refine plain_commitState decoded ?_ (failureCache_normalize _ _)
      (settles_failureCacheAfter target settled.observed hprior)
    intro _ hempty
    have hlast := @getLast?_failureCacheAfter r clock existing decoded target settled.observed
    rw [hempty] at hlast
    simp at hlast

/-- How the index may move from one stored state to the next. -/
def ProgressionLaw (existing : Option SchedulerState) (s : SchedulerState) : Prop :=
  match existing with
  | none => s.progressionIndex = 0
  | some e =>
    if e.resetToken = s.resetToken ∧ e.identitySignature = s.identitySignature then
      e.progressionIndex ≤ s.progressionIndex ∧ s.progressionIndex ≤ e.progressionIndex + 1
    else s.progressionIndex = 0

theorem Writes.request {clock : HostClock} {existing : Option SchedulerState}
    {digest : String} {s : SchedulerState} (h : Writes clock r existing digest s) :
    s.scope = r.scope ∧ s.resetToken = r.resetToken ∧
      s.identitySignature = r.identitySignature ∧ s.progressionIndex = r.progressionIndex ∧
      s.others.lookup "updated_at" = some (.string r.generatedAt) := by
  cases h <;> simp [commitState, lookup_cons_ite]

/-- The kernel's own checks allow no other move of the index. -/
theorem progressionLaw_of_admitted {clock : HostClock} {existing : Option SchedulerState}
    {digest : String} {s : SchedulerState} (h : Writes clock r existing digest s)
    (admitted : admitProgression r existing = none) : ProgressionLaw existing s := by
  obtain ⟨-, hreset, hidentity, hindex, -⟩ := h.request
  cases existing with
  | none =>
    have hzero : r.progressionIndex = 0 := by
      by_contra hne
      simp [admitProgression, hne] at admitted
    simp [ProgressionLaw, hindex, hzero]
  | some e =>
    by_cases hsame : e.resetToken = r.resetToken ∧ e.identitySignature = r.identitySignature
    · have hequal : identityEqual r e = true := by simp [identityEqual, hsame]
      simp only [admitProgression, Option.all_some, hequal, Option.isSome_some, Option.any_some]
        at admitted
      simp only [ProgressionLaw, hreset, hidentity, hindex, hsame, and_self, if_true]
      by_contra hlaw
      grind
    · have hequal : identityEqual r e = false := by
        simpa [identityEqual] using hsame
      simp only [ProgressionLaw, hreset, hidentity, hindex, hsame, if_false]
      by_contra hlaw
      simp only [admitProgression, Option.all_some, hequal, Option.isSome_some, Option.any_some]
        at admitted
      grind

end Builders

end Loopx.Scheduler
