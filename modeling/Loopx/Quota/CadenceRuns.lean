/- GID: Loopx/Quota/CadenceRuns
   generality: I
   source: loopx/control_plane/quota/automation_cadence.ts
   digest: Runs of configure, admit and confirm calls: spacing, fencing and readable stores. -/

import Loopx.Authority.StoreLog
import Loopx.Quota.CadenceStore

set_option autoImplicit false
set_option relaxedAutoImplicit false

namespace Loopx.Quota

open Loopx.Json (JsNumber stringify)
open Loopx.Lib.Fallible (ok_bind error_bind bind_eq_ok)
open Loopx.Authority (Sha256 NoCollision)

/-- One call with its raw request; a policy read also reads the wall clock. -/
inductive CadenceCall where
  | admission (p : List (String × Json))
  | confirm (p : List (String × Json))
  | manage (p : List (String × Json)) (nowMs : Nat)

/-- What a call answered. -/
inductive CadenceRecord where
  | admission (r : AdmitRequest) (answer : AdmitAnswer)
  | confirmation (r : ConfirmRequest) (answer : ConfirmAnswer)
  | management (r : ManageRequest) (answer : ManageAnswer)
  | refused (error : CadenceError)
deriving DecidableEq

/-- The store files, by goal. -/
abbrev CadenceFiles := String → Option Json

structure CadenceEntry where
  before : CadenceFiles
  record : CadenceRecord
  written : Option Store

def CadenceCall.perform (sha : Sha256) (files : CadenceFiles) : CadenceCall → CadenceEntry
  | .admission p =>
    match AdmitRequest.decode p with
    | .error e => ⟨files, .refused e, none⟩
    | .ok r =>
      match admitAutomationStart sha (files r.goal) r with
      | .error e => ⟨files, .refused e, none⟩
      | .ok (answer, written) => ⟨files, .admission r answer, written⟩
  | .confirm p =>
    match ConfirmRequest.decode p with
    | .error e => ⟨files, .refused e, none⟩
    | .ok r =>
      match confirmAutomationStart sha (files r.goal) r with
      | .error e => ⟨files, .refused e, none⟩
      | .ok (answer, written) => ⟨files, .confirmation r answer, written⟩
  | .manage p nowMs =>
    match ManageRequest.decode p with
    | .error e => ⟨files, .refused e, none⟩
    | .ok r =>
      match manageAutomationCadence sha (files r.goal) r nowMs with
      | .error e => ⟨files, .refused e, none⟩
      | .ok (answer, written) => ⟨files, .management r answer, written⟩

def CadenceEntry.files (entry : CadenceEntry) : CadenceFiles :=
  match entry.written with
  | none => entry.before
  | some store => Function.update entry.before store.goalId (some store.toJson)

structure CadenceWorld where
  files : CadenceFiles
  log : List CadenceEntry

def CadenceWorld.step (sha : Sha256) (w : CadenceWorld) (call : CadenceCall) : CadenceWorld :=
  let entry := call.perform sha w.files
  ⟨entry.files, w.log ++ [entry]⟩

/-- The calls in the order in which they held the store's lock, from no store at all. -/
def cadenceRun (sha : Sha256) (calls : List CadenceCall) : CadenceWorld :=
  calls.foldl (CadenceWorld.step sha) ⟨fun _ => none, []⟩

def CadenceCall.request? : CadenceCall → Option AdmitRequest
  | .admission p => (AdmitRequest.decode p).toOption
  | _ => none

/-- The clock the admissions carry never runs backwards. -/
def Ordered (calls : List CadenceCall) : Prop :=
  ((calls.filterMap CadenceCall.request?).map (fun r => r.now)).Pairwise (· ≤ ·)

/-- The scopes that starts can be recorded under. -/
def startScopes (calls : List CadenceCall) : List Scope :=
  (calls.filterMap CadenceCall.request?).flatMap (fun r => [⟨some r.agentId, none⟩, r.scope])

/-- The store a goal's calls read. -/
def CadenceEntry.Reads (sha : Sha256) (entry : CadenceEntry) (goal : String) (store : Store) :
    Prop :=
  load sha (entry.before goal) goal = .ok store

/-- The call was admitted and made the reservation itself. -/
structure CadenceEntry.Reserves (entry : CadenceEntry) (r : AdmitRequest) : Prop where
  fresh : ∃ answer, entry.record = .admission r answer ∧ answer.admitted = true ∧
    answer.reserved = true ∧ answer.resumed = false

/-- A rule of this scope and interval covers requests of the lane. -/
def InForce (store : Store) (ruleScope : Scope) (interval : Nat) (lane : Scope) : Prop :=
  ∃ rule ∈ store.rules, rule.scope = ruleScope ∧ rule.minIntervalMinutes = interval ∧
    applicable rule lane = true

/-- Two reservations under one positive rule are its interval apart. -/
def Spaced (sha : Sha256) (earlier later : CadenceEntry) : Prop :=
  ∀ r r' store store' ruleScope interval, earlier.Reserves r → later.Reserves r' →
    r.goal = r'.goal → r.agentId = r'.agentId → r.request ≠ r'.request → r.manual = none →
    r'.manual = none → earlier.Reads sha r.goal store → later.Reads sha r'.goal store' →
    0 < interval → InForce store ruleScope interval r.scope →
    InForce store' ruleScope interval r'.scope → r.now + interval * 60000 ≤ r'.now

/-- A resumed admission holds a reservation that an earlier call made, at that call's time. -/
def ResumesReservation (sha : Sha256) (earlier : List CadenceEntry) (entry : CadenceEntry) : Prop :=
  ∀ r answer store, entry.record = .admission r answer → answer.resumed = true →
    entry.Reads sha r.goal store →
    ∃ held ∈ priorStarts store r.scope, held.requestId = r.request ∧ held.state = .reserved ∧
      ∃ origin ∈ earlier, ∃ r', origin.Reserves r' ∧ r'.goal = r.goal ∧ r'.agentId = r.agentId ∧
        r'.request = r.request ∧ held.startedAtMs = r'.now

def CadenceEntry.Confirms (entry : CadenceEntry) (r : ConfirmRequest) : Prop :=
  ∃ answer, entry.record = .confirmation r answer ∧ answer.confirmed = true

/-- The request is the confirmed one, presented again. -/
structure Again (c : ConfirmRequest) (r : AdmitRequest) : Prop where
  goal : r.goal = c.goal
  agent : r.agentId = c.agentId
  request : r.request = c.request

/-- A confirmed request is not admitted again under a positive covering rule. -/
def NeverAgain (sha : Sha256) (earlier later : CadenceEntry) : Prop :=
  ∀ c r answer store ruleScope interval, earlier.Confirms c →
    later.record = .admission r answer → Again c r → later.Reads sha r.goal store →
    0 < interval → InForce store ruleScope interval r.scope → answer.admitted = false

/-- A confirmed request that is presented again meets its own record, a newer trigger, or the
wait of its interval. -/
def Remembered (sha : Sha256) (earlier later : CadenceEntry) : Prop :=
  ∀ c r answer store, earlier.Confirms c → later.record = .admission r answer → Again c r →
    later.Reads sha r.goal store → (projection store r.scope r.now).enabled = true →
    (∃ start ∈ priorStarts store r.scope,
      start.requestId = r.request ∨ r.trigger < start.triggerAtMs) ∨
    (r.manual = none ∧ (projection store r.scope r.now).eligibleNow = false)

/-- A trigger older than a recorded start's in an active scope is refused. -/
def StaleRefused (sha : Sha256) (entry : CadenceEntry) : Prop :=
  ∀ r answer store start, entry.record = .admission r answer → entry.Reads sha r.goal store →
    start ∈ store.starts → start.scope.agentId = some r.agentId →
    start.scope.automationId ∈ activeScopes store r.scope → r.trigger < start.triggerAtMs →
    answer.admitted = false

/-- The configuration that is written still has a safe successor revision. -/
def BelowLimit (sha : Sha256) (entry : CadenceEntry) : Prop :=
  ∀ r answer store, entry.record = .management r answer → answer.written = true →
    entry.Reads sha r.goal store → store.revision < JsNumber.maxSafeInteger

/-- A written store is accepted by `decode`, with one rule and one start a scope. -/
def WrittenReads (sha : Sha256) (entry : CadenceEntry) : Prop :=
  ∀ store, entry.written = some store →
    decode sha store.toJson store.goalId = .ok store ∧
    (store.rules.map (fun r => r.scope)).Nodup ∧ (store.starts.map (fun s => s.scope)).Nodup

section Projection

variable {store : Store} {s : Scope} {nowMs : Nat}

private theorem le_maximum {values : List Nat} {n : Nat} (h : n ∈ values) : n ≤ maximum values := by
  induction values with
  | nil => simp at h
  | cons m values ih =>
    rw [maximum, List.foldr_cons]
    rcases List.mem_cons.mp h with rfl | hmem
    · exact Nat.le_max_left _ _
    · exact (ih hmem).trans (Nat.le_max_right _ _)

theorem enabled_of_rule {rule : Rule} (mem : rule ∈ store.rules)
    (positive : 0 < rule.minIntervalMinutes) (covers : applicable rule s = true) :
    (projection store s nowMs).enabled = true := by
  have hfloor : rule.minIntervalMinutes ≤
      maximum ((store.rules.filter (fun r => applicable r s)).map (fun r => r.minIntervalMinutes)) :=
    le_maximum (List.mem_map.mpr ⟨rule, List.mem_filter.mpr ⟨mem, covers⟩, rfl⟩)
  exact decide_eq_true (positive.trans_le hfloor)

theorem enabled_of_inForce {ruleScope : Scope} {interval : Nat} (positive : 0 < interval)
    (h : InForce store ruleScope interval s) : (projection store s nowMs).enabled = true := by
  obtain ⟨rule, hmem, -, rfl, hcovers⟩ := h
  exact enabled_of_rule hmem positive hcovers

theorem mem_activeScopes {automationId : Option String} :
    automationId ∈ activeScopes store s ↔ ∃ rule ∈ store.rules, 0 < rule.minIntervalMinutes ∧
      applicable rule s = true ∧ rule.scope.automationId = automationId := by
  simp only [activeScopes, List.mem_map, List.mem_filter, Bool.and_eq_true, decide_eq_true_eq,
    and_assoc]

/-- Once a lane is eligible, each covering rule's interval since its start has passed. -/
theorem eligible_spaced {rule : Rule} (agent : s.agentId.isSome) (mem : rule ∈ store.rules)
    (positive : 0 < rule.minIntervalMinutes) (covers : applicable rule s = true) {start : Start}
    (recorded : store.startAt s.agentId rule.scope.automationId = some start)
    (eligible : (projection store s nowMs).eligibleNow = true) :
    start.startedAtMs + rule.minIntervalMinutes * 60000 ≤ nowMs := by
  have hdue : start.startedAtMs + rule.minIntervalMinutes * 60000 ∈
      dueTimes store s (store.rules.filter (fun r => applicable r s)) := by
    rw [dueTimes, if_pos agent, List.mem_filterMap]
    refine ⟨rule, ?_, by rw [recorded]; rfl⟩
    simp [List.mem_filter, mem, covers, positive]
  have hle := le_maximum hdue
  have hne : dueTimes store s (store.rules.filter (fun r => applicable r s)) ≠ [] :=
    List.ne_nil_of_mem hdue
  simp only [projection, if_neg hne, Option.all_some, decide_eq_true_eq] at eligible
  omega

end Projection

section Calls

variable {sha : Sha256} {files : CadenceFiles} {call : CadenceCall}

structure AdmitRequest.Valid (r : AdmitRequest) : Prop where
  scope : r.scope.Valid
  now : r.now ≤ JsNumber.maxSafeInteger
  trigger : r.trigger ≤ r.now
  request : IsText r.request
  manual : ∀ reason ∈ r.manual, IsText reason

private theorem valid_of_decode {p : List (String × Json)} {r : AdmitRequest}
    (h : AdmitRequest.decode p = .ok r) : r.Valid := by
  simp only [AdmitRequest.decode, bind_eq_ok] at h
  obtain ⟨goal, hgoal, s, hscope, h⟩ := h
  split at h
  · simp at h
  rename_i agentId hagent
  simp only [bind_eq_ok] at h
  obtain ⟨_, -, now, hnow, trigger, htrigger, h⟩ := h
  split at h
  · simp at h
  rename_i hordered
  simp only [bind_eq_ok] at h
  obtain ⟨request, hrequest, manual, hmanual, h⟩ := h
  obtain rfl := Except.ok.inj h
  have hvalid := valid_of_scope hscope
  refine ⟨⟨?_, hvalid.automation, fun _ => rfl⟩, le_of_integer hnow, by
    simpa using hordered, isText_of_text hrequest, isText_of_optionalText hmanual⟩
  intro a ha
  exact hvalid.agent a (hagent.trans ha)

/-- The default-off path answers what the locked path would. -/
theorem admitAutomationStart_eq (file : Option Json) (r : AdmitRequest) :
    admitAutomationStart sha file r =
      (do let store ← load sha file r.goal; .ok (admitLocked sha store r)) := by
  cases hload : load sha file r.goal with
  | error e => simp only [admitAutomationStart, hload, error_bind]
  | ok store =>
    simp only [admitAutomationStart, hload, ok_bind]
    split
    · rename_i hdisabled
      simp only [admitLocked, hdisabled, if_true]
    · rfl

theorem confirmAutomationStart_eq (file : Option Json) (r : ConfirmRequest) :
    confirmAutomationStart sha file r =
      (do let store ← load sha file r.goal; .ok (confirmRecord store r)) := by
  cases hload : load sha file r.goal with
  | error e => simp only [confirmAutomationStart, hload, error_bind]
  | ok store =>
    simp only [confirmAutomationStart, hload, ok_bind]
    split
    · rename_i hmissing
      have hnone : store.starts.filter r.names = [] := by
        rw [List.filter_eq_nil_iff]
        rw [List.any_eq_false] at hmissing
        exact hmissing
      simp only [confirmRecord, hnone, if_true]
    · rfl

/-- What a call does to a store that it could read. -/
inductive Performed (sha : Sha256) (files : CadenceFiles) (call : CadenceCall) : CadenceEntry → Prop
  | refused (e : CadenceError) : Performed sha files call ⟨files, .refused e, none⟩
  | admission (r : AdmitRequest) (store : Store) (requested : call.request? = some r)
      (valid : r.Valid) (read : load sha (files r.goal) r.goal = .ok store) :
      Performed sha files call
        ⟨files, .admission r (admitLocked sha store r).1, (admitLocked sha store r).2⟩
  | confirmation (r : ConfirmRequest) (store : Store)
      (read : load sha (files r.goal) r.goal = .ok store) :
      Performed sha files call
        ⟨files, .confirmation r (confirmRecord store r).1, (confirmRecord store r).2⟩
  | kept (r : ManageRequest) (answer : ManageAnswer) (unwritten : answer.written = false) :
      Performed sha files call ⟨files, .management r answer, none⟩
  | configured (r : ManageRequest) (store : Store) (answer : ManageAnswer) (value : Nat)
      (reference : String) (read : load sha (files r.goal) r.goal = .ok store)
      (written : answer.written = true) (scope : r.scope.Valid) (interval : value ≤ 525600)
      (named : IsText reference) :
      Performed sha files call
        ⟨files, .management r answer, some (putRule sha store r.scope value reference)⟩

/-- The paths through the locked section. -/
inductive Admits (sha : Sha256) (store : Store) (r : AdmitRequest) :
    AdmitAnswer × Option Store → Prop
  | unconfigured (answer : AdmitAnswer)
      (disabled : (projection store r.scope r.now).enabled = false)
      (unreserved : answer.reserved = false) (fresh : answer.resumed = false) :
      Admits sha store r (answer, none)
  | refused (answer : AdmitAnswer) (enabled : (projection store r.scope r.now).enabled = true)
      (refused : answer.admitted = false) (fresh : answer.resumed = false) :
      Admits sha store r (answer, none)
  | resumed (answer : AdmitAnswer) (held : Start) (resumed : answer.resumed = true)
      (current : ∀ start ∈ priorStarts store r.scope, start.triggerAtMs ≤ r.trigger)
      (prior : held ∈ priorStarts store r.scope) (named : held.requestId = r.request)
      (unstarted : held.state = .reserved) : Admits sha store r (answer, none)
  | reserved (answer : AdmitAnswer) (admitted : answer.admitted = true)
      (reserved : answer.reserved = true) (fresh : answer.resumed = false)
      (enabled : (projection store r.scope r.now).enabled = true)
      (current : ∀ start ∈ priorStarts store r.scope, start.triggerAtMs ≤ r.trigger)
      (unheld : ∀ start ∈ priorStarts store r.scope, start.requestId ≠ r.request)
      (due : r.manual = none → (projection store r.scope r.now).eligibleNow = true) :
      Admits sha store r (answer, some (reserve sha store r))

theorem admitLocked_admits (sha : Sha256) (store : Store) (r : AdmitRequest) :
    Admits sha store r (admitLocked sha store r) := by
  unfold admitLocked
  dsimp only
  split
  · rename_i hdisabled
    exact .unconfigured _ hdisabled rfl rfl
  rename_i henabled
  rw [Bool.not_eq_false] at henabled
  split
  · exact .refused _ henabled rfl rfl
  rename_i hadmissible
  rw [not_or, Bool.not_eq_true, List.any_eq_false] at hadmissible
  have hcurrent : ∀ start ∈ priorStarts store r.scope, start.triggerAtMs ≤ r.trigger := by
    intro start hstart
    have := hadmissible.1 start hstart
    simpa using this
  split
  · rename_i hheld
    obtain ⟨held, hfind⟩ := Option.isSome_iff_exists.mp hheld
    have hnamed := List.find?_some hfind
    have hstate := hadmissible.2
    rw [hfind, Option.any_some, decide_eq_true_eq] at hstate
    refine .resumed _ held rfl hcurrent (List.mem_of_find?_eq_some hfind)
      (by simpa using hnamed) ?_
    cases hs : held.state with
    | reserved => rfl
    | started => exact absurd hs hstate
  rename_i hunheld
  have hnone : ∀ start ∈ priorStarts store r.scope, start.requestId ≠ r.request := by
    intro start hstart hsame
    apply hunheld
    rw [List.find?_isSome]
    exact ⟨start, hstart, by simpa using hsame⟩
  split
  · exact .refused _ henabled rfl rfl
  rename_i hdue
  refine .reserved _ rfl rfl rfl henabled hcurrent hnone ?_
  intro hmanual
  cases heligible : (projection store r.scope r.now).eligibleNow with
  | true => rfl
  | false => exact absurd ⟨hmanual, heligible⟩ hdue

private theorem scope_of_manage {p : List (String × Json)} {r : ManageRequest}
    (h : ManageRequest.decode p = .ok r) : r.scope.Valid := by
  simp only [ManageRequest.decode, bind_eq_ok] at h
  obtain ⟨operation, -, h⟩ := h
  split at h
  · simp at h
  simp only [bind_eq_ok] at h
  obtain ⟨goal, -, s, hscope, _, -, h⟩ := h
  obtain rfl := Except.ok.inj h
  exact valid_of_scope hscope

private theorem performed_manage {p : List (String × Json)} {nowMs : Nat} {r : ManageRequest}
    (hdecode : ManageRequest.decode p = .ok r) {answer : ManageAnswer} {written : Option Store}
    (h : manageAutomationCadence sha (files r.goal) r nowMs = .ok (answer, written)) :
    Performed sha files (.manage p nowMs) ⟨files, .management r answer, written⟩ := by
  simp only [manageAutomationCadence, bind_eq_ok] at h
  obtain ⟨store, hload, h⟩ := h
  split at h
  · obtain ⟨rfl, rfl⟩ := Prod.mk.inj (Except.ok.inj h)
    exact .kept r _ rfl
  simp only [bind_eq_ok] at h
  obtain ⟨expected, -, h⟩ := h
  split at h
  · simp at h
  simp only [bind_eq_ok] at h
  obtain ⟨value, hvalue, reference, hreference, h⟩ := h
  split at h
  · simp at h
  obtain ⟨rfl, rfl⟩ := Prod.mk.inj (Except.ok.inj h)
  cases hexecute : executes r with
  | false => exact .kept r _ rfl
  | true =>
    exact .configured r store _ value reference hload rfl (scope_of_manage hdecode)
      (le_of_minutes hvalue) (isText_of_text hreference)

theorem perform_performed (sha : Sha256) (files : CadenceFiles) (call : CadenceCall) :
    Performed sha files call (call.perform sha files) := by
  cases call with
  | admission p =>
    simp only [CadenceCall.perform]
    cases hdecode : AdmitRequest.decode p with
    | error e => exact .refused e
    | ok r =>
      simp only [admitAutomationStart_eq]
      cases hload : load sha (files r.goal) r.goal with
      | error e => exact .refused e
      | ok store =>
        exact .admission r store (by simp [CadenceCall.request?, hdecode, Except.toOption])
          (valid_of_decode hdecode) hload
  | confirm p =>
    simp only [CadenceCall.perform]
    cases hdecode : ConfirmRequest.decode p with
    | error e => exact .refused e
    | ok r =>
      simp only [confirmAutomationStart_eq]
      cases hload : load sha (files r.goal) r.goal with
      | error e => exact .refused e
      | ok store => exact .confirmation r store hload
  | manage p nowMs =>
    simp only [CadenceCall.perform]
    cases hdecode : ManageRequest.decode p with
    | error e => exact .refused e
    | ok r =>
      simp only
      cases hmanage : manageAutomationCadence sha (files r.goal) r nowMs with
      | error e => exact .refused e
      | ok result =>
        obtain ⟨answer, written⟩ := result
        exact performed_manage hdecode hmanage

/-- An admission is decided by one path through the locked section, on the store it read. -/
theorem admits_of_perform {r : AdmitRequest} {answer : AdmitAnswer}
    (h : (call.perform sha files).record = .admission r answer) :
    call.request? = some r ∧ ∃ store written, load sha (files r.goal) r.goal = .ok store ∧
      (call.perform sha files).written = written ∧ Admits sha store r (answer, written) := by
  have hperformed := perform_performed sha files call
  generalize call.perform sha files = entry at hperformed h
  cases hperformed with
  | refused e => simp at h
  | confirmation r' store read => simp at h
  | kept r' answer' unwritten => simp at h
  | configured r' store answer' value reference read written scope interval named => simp at h
  | admission r' store requested valid read =>
    obtain ⟨rfl, rfl⟩ := CadenceRecord.admission.inj h
    exact ⟨requested, store, _, read, rfl, admitLocked_admits sha store r'⟩

/-- Only a reservation of this very call makes an entry that reserves. -/
theorem reserves_of_perform {r : AdmitRequest} (h : (call.perform sha files).Reserves r) :
    call.request? = some r ∧ ∃ store, load sha (files r.goal) r.goal = .ok store ∧
      (r.manual = none → (projection store r.scope r.now).eligibleNow = true) := by
  obtain ⟨answer, hrecord, hadmitted, hreserved, hfresh⟩ := h.fresh
  obtain ⟨hrequested, store, _, hload, -, hadmits⟩ := admits_of_perform hrecord
  refine ⟨hrequested, store, hload, ?_⟩
  cases hadmits with
  | unconfigured _ disabled unreserved fresh =>
    rw [unreserved] at hreserved
    simp at hreserved
  | refused _ enabled refused fresh =>
    rw [refused] at hadmitted
    simp at hadmitted
  | resumed _ held resumed current prior named unstarted =>
    rw [resumed] at hfresh
    simp at hfresh
  | reserved _ admitted reserved fresh enabled current unheld due => exact due

end Calls

/-- The file holds this store; none at all is the empty store. -/
def Holds (file : Option Json) (goal : String) (store : Store) : Prop :=
  (file = none ∧ store = ⟨goal, 0, [], []⟩) ∨ file = some store.toJson

/-- What is known of a goal's store from the calls so far. -/
structure StoreInv (sha : Sha256) (scopes : List Scope) (log : List CadenceEntry) (goal : String)
    (store : Store) : Prop where
  owner : store.goalId = goal
  valid : store.Valid sha
  within : ∀ s ∈ store.starts, s.scope ∈ scopes
  latest : ∀ entry ∈ log, ∀ r base, entry.Reserves r → r.goal = goal →
    entry.Reads sha goal base → ∀ item ∈ reservationScopes base r,
      ∃ start, startIn store.starts item = some start ∧ r.now ≤ start.startedAtMs
  origin : ∀ start ∈ store.starts, ∃ entry ∈ log, ∃ r, entry.Reserves r ∧ r.goal = goal ∧
    start.scope.agentId = some r.agentId ∧ start.requestId = r.request ∧
    start.startedAtMs = r.now
  confirmed : log.Pairwise (Remembered sha) → ∀ entry ∈ log, ∀ c, entry.Confirms c →
    c.goal = goal → ∀ start ∈ store.starts, c.names start = true → start.state = .started

section Stores

variable {sha : Sha256} {scopes : List Scope} {log : List CadenceEntry} {goal : String}
  {store : Store}

/-- A file that can be read at all reads as the store it holds. -/
theorem Holds.load_eq {file : Option Json} (h : Holds file goal store)
    (inv : StoreInv sha scopes log goal store) {found : Store}
    (read : load sha file goal = .ok found) : found = store := by
  rcases h with ⟨rfl, rfl⟩ | rfl
  · exact (Except.ok.inj read).symm
  · rw [← inv.owner] at read
    by_cases hsafe : store.revision ≤ JsNumber.maxSafeInteger
    · rw [load, decode_toJson inv.valid hsafe] at read
      exact (Except.ok.inj read).symm
    · rw [load, decode_unsafe (by omega)] at read
      simp at read

theorem storeInv_empty (sha : Sha256) (scopes : List Scope) (goal : String) :
    StoreInv sha scopes [] goal ⟨goal, 0, [], []⟩ where
  owner := rfl
  valid := ⟨by simp, by simp, by simp, by simp⟩
  within := by simp
  latest := by simp
  origin := by simp
  confirmed := by simp

/-- A further call that reserves nothing for the goal changes nothing that is known. -/
theorem StoreInv.extend (inv : StoreInv sha scopes log goal store) {entry : CadenceEntry}
    (quiet : ∀ r, entry.Reserves r → r.goal ≠ goal)
    (settled : ∀ c, entry.Confirms c → c.goal = goal → ∀ start ∈ store.starts,
      c.names start = true → start.state = .started) :
    StoreInv sha scopes (log ++ [entry]) goal store where
  owner := inv.owner
  valid := inv.valid
  within := inv.within
  latest := by
    intro entry' hentry r base hreserves hgoal
    rcases List.mem_append.mp hentry with hold | hnew
    · exact inv.latest entry' hold r base hreserves hgoal
    · obtain rfl := List.mem_singleton.mp hnew
      exact absurd hgoal (quiet r hreserves)
  origin := by
    intro start hstart
    obtain ⟨entry', hentry, hrest⟩ := inv.origin start hstart
    exact ⟨entry', List.mem_append_left _ hentry, hrest⟩
  confirmed := by
    intro hremembered entry' hentry c hconfirms
    rcases List.mem_append.mp hentry with hold | hnew
    · exact inv.confirmed (List.pairwise_append.mp hremembered).1 entry' hold c hconfirms
    · obtain rfl := List.mem_singleton.mp hnew
      exact settled c hconfirms

/-- A confirmation leaves scopes, times and requests alone. -/
theorem StoreInv.confirm (inv : StoreInv sha scopes log goal store) (r : ConfirmRequest) :
    StoreInv sha scopes log goal { store with starts := confirmStarts r store.starts } := by
  have hstart : ∀ start ∈ confirmStarts r store.starts, ∃ old ∈ store.starts,
      start.scope = old.scope ∧ start.startedAtMs = old.startedAtMs ∧
      start.triggerAtMs = old.triggerAtMs ∧ start.requestId = old.requestId ∧
      start.manualReason = old.manualReason ∧
      (old.state = .started → start.state = .started) := by
    intro start hmem
    obtain ⟨old, hold, rfl⟩ := List.mem_map.mp hmem
    refine ⟨old, hold, ?_⟩
    split
    · exact ⟨rfl, rfl, rfl, rfl, rfl, fun _ => rfl⟩
    · exact ⟨rfl, rfl, rfl, rfl, rfl, id⟩
  have hkeys : (confirmStarts r store.starts).map (fun s => key sha s.scope) =
      store.starts.map (fun s => key sha s.scope) := by
    rw [confirmStarts, List.map_map]
    apply List.map_congr_left
    intro start _
    simp only [Function.comp_apply]
    split <;> rfl
  have hfind : ∀ (starts : List Start) (item : Scope) (start : Start),
      startIn starts item = some start → ∃ start', startIn (confirmStarts r starts) item =
        some start' ∧ start'.startedAtMs = start.startedAtMs := by
    intro starts item start hfound
    induction starts with
    | nil => simp at hfound
    | cons old starts ih =>
      rw [startIn_cons] at hfound
      rw [confirmStarts, List.map_cons, startIn_cons]
      have hscope : (if r.names old then { old with state := .started } else old).scope =
          old.scope := by
        split <;> rfl
      rw [hscope]
      by_cases hsame : old.scope = item
      · rw [if_pos hsame] at hfound ⊢
        obtain rfl := Option.some.inj hfound
        refine ⟨_, rfl, ?_⟩
        split <;> rfl
      · rw [if_neg hsame] at hfound ⊢
        exact ih hfound
  constructor
  · exact inv.owner
  · refine ⟨inv.valid.rules, ?_, inv.valid.ruleKeys, ?_⟩
    · intro start hmem
      obtain ⟨old, hold, hscope, hstarted, htrigger, hrequest, hmanual, -⟩ := hstart start hmem
      have hvalid := inv.valid.starts old hold
      constructor
      · rw [hscope]
        exact hvalid.scope
      · rw [hscope]
        exact hvalid.owned
      · rw [hstarted]
        exact hvalid.started
      · rw [hstarted, htrigger]
        exact hvalid.ordered
      · rw [hrequest]
        exact hvalid.request
      · rw [hmanual]
        exact hvalid.manual
    · rw [hkeys]
      exact inv.valid.startKeys
  · intro start hmem
    obtain ⟨old, hold, hscope, -⟩ := hstart start hmem
    rw [hscope]
    exact inv.within old hold
  · intro entry hentry r' base hreserves hgoal hreads item hitem
    obtain ⟨start, hfound, hle⟩ := inv.latest entry hentry r' base hreserves hgoal hreads item hitem
    obtain ⟨start', hfound', htime⟩ := hfind _ _ _ hfound
    exact ⟨start', hfound', by omega⟩
  · intro start hmem
    obtain ⟨old, hold, hscope, hstarted, -, hrequest, -⟩ := hstart start hmem
    rw [hscope, hstarted, hrequest]
    exact inv.origin old hold
  · intro hremembered entry hentry c hconfirms hgoal start hmem hnames
    obtain ⟨old, hold, hscope, -, -, hrequest, -, hkeeps⟩ := hstart start hmem
    apply hkeeps
    apply inv.confirmed hremembered entry hentry c hconfirms hgoal old hold
    rw [ConfirmRequest.names, ← hscope, ← hrequest]
    exact hnames

/-- A rule change leaves the starts alone. -/
theorem StoreInv.configure (inv : StoreInv sha scopes log goal store) {s : Scope} {value : Nat}
    {reference : String} (hscope : s.Valid) (interval : value ≤ 525600)
    (named : IsText reference) :
    StoreInv sha scopes log goal (putRule sha store s value reference) where
  owner := inv.owner
  valid := by
    refine ⟨?_, inv.valid.starts, ?_, inv.valid.startKeys⟩
    · intro rule hrule
      rcases List.mem_append.mp hrule with hold | hnew
      · have hvalid := inv.valid.rules rule (List.mem_of_mem_filter hold)
        exact ⟨hvalid.scope, hvalid.interval, Nat.le_succ_of_le hvalid.revised, hvalid.reference⟩
      · obtain rfl := List.mem_singleton.mp hnew
        exact ⟨hscope, interval, Nat.le_refl _, named⟩
    · rw [putRule, List.map_append, List.nodup_append]
      refine ⟨(List.filter_sublist.map _).nodup inv.valid.ruleKeys, List.nodup_singleton _, ?_⟩
      intro a ha b hb hsame
      obtain ⟨old, hold, rfl⟩ := List.mem_map.mp ha
      obtain rfl := List.mem_singleton.mp hb
      have hkept := (List.mem_filter.mp hold).2
      simp [hsame] at hkept
  within := inv.within
  latest := inv.latest
  origin := inv.origin
  confirmed := inv.confirmed

theorem mem_reservationScopes {r : AdmitRequest} {item : Scope}
    (h : item ∈ reservationScopes store r) : item = ⟨some r.agentId, none⟩ ∨ item = r.scope := by
  rw [reservationScopes] at h
  rcases List.mem_cons.mp h with rfl | h
  · exact Or.inl rfl
  · split at h
    · exact Or.inr (List.mem_singleton.mp h)
    · simp at h

/-- A reservation is the latest start of its scopes; the clock keeps it behind no earlier one. -/
theorem StoreInv.reserve (inv : StoreInv sha scopes log goal store)
    (differ : KeysDiffer sha scopes) {r : AdmitRequest} (hvalid : r.Valid)
    (known : ∀ item ∈ reservationScopes store r, item ∈ scopes)
    (clock : ∀ entry ∈ log, ∀ r', entry.Reserves r' → r'.now ≤ r.now) {entry : CadenceEntry}
    (reserves : entry.Reserves r) (hgoal : r.goal = goal) (reads : entry.Reads sha goal store)
    (unconfirmed : log.Pairwise (Remembered sha) → (∀ e ∈ log, Remembered sha e entry) →
      ∀ e ∈ log, ∀ c, e.Confirms c → ¬Again c r) :
    StoreInv sha scopes (log ++ [entry]) goal (reserve sha store r) := by
  have hfind := startIn_reserved r differ known inv.within
  have hrecord : ∀ r', entry.Reserves r' → r' = r := by
    intro r' hreserves
    obtain ⟨answer, hanswer, -⟩ := reserves.fresh
    obtain ⟨answer', hanswer', -⟩ := hreserves.fresh
    rw [hanswer] at hanswer'
    exact (CadenceRecord.admission.inj hanswer').1.symm
  constructor
  · exact inv.owner
  · refine ⟨inv.valid.rules, ?_, inv.valid.ruleKeys, nodup_reserved r inv.valid.startKeys⟩
    intro start hstart
    rcases mem_reserved r hstart with hold | ⟨item, hitem, rfl⟩
    · exact inv.valid.starts start hold
    · rcases mem_reservationScopes hitem with rfl | rfl
      · exact ⟨⟨hvalid.scope.agent, by simp [reservationStart], by simp [reservationStart]⟩, rfl,
          hvalid.now, hvalid.trigger, hvalid.request, hvalid.manual⟩
      · exact ⟨hvalid.scope, rfl, hvalid.now, hvalid.trigger, hvalid.request, hvalid.manual⟩
  · intro start hstart
    rcases mem_reserved r hstart with hold | ⟨item, hitem, rfl⟩
    · exact inv.within start hold
    · exact known item hitem
  · intro entry' hentry r' base hreserves hgoal' hreads item hitem
    rw [Quota.reserve, hfind]
    rcases List.mem_append.mp hentry with hold | hnew
    · by_cases hmem : item ∈ reservationScopes store r
      · rw [if_pos hmem]
        exact ⟨_, rfl, clock entry' hold r' hreserves⟩
      · rw [if_neg hmem]
        exact inv.latest entry' hold r' base hreserves hgoal' hreads item hitem
    · obtain rfl := List.mem_singleton.mp hnew
      obtain rfl := hrecord r' hreserves
      obtain rfl : base = store := Except.ok.inj (hreads.symm.trans reads)
      rw [if_pos hitem]
      exact ⟨_, rfl, Nat.le_refl _⟩
  · intro start hstart
    rcases mem_reserved r hstart with hold | ⟨item, hitem, rfl⟩
    · obtain ⟨entry', hentry, hrest⟩ := inv.origin start hold
      exact ⟨entry', List.mem_append_left _ hentry, hrest⟩
    · refine ⟨entry, by simp, r, reserves, hgoal, ?_, rfl, rfl⟩
      rcases mem_reservationScopes hitem with rfl | rfl <;> rfl
  · intro hremembered entry' hentry c hconfirms hgoal' start hstart hnames
    rw [List.pairwise_append] at hremembered
    rcases List.mem_append.mp hentry with hentry | hnew
    · rcases mem_reserved r hstart with hold | ⟨item, hitem, rfl⟩
      · exact inv.confirmed hremembered.1 entry' hentry c hconfirms hgoal' start hold hnames
      · exfalso
        refine unconfirmed hremembered.1 (fun e he => hremembered.2.2 e he entry (by simp))
          entry' hentry c hconfirms ⟨hgoal.trans hgoal'.symm, ?_, ?_⟩
        · have howner : item.agentId = some r.agentId := by
            rcases mem_reservationScopes hitem with rfl | rfl <;> rfl
          rw [ConfirmRequest.names, Bool.and_eq_true, decide_eq_true_eq] at hnames
          exact Option.some.inj (howner.symm.trans hnames.1)
        · rw [ConfirmRequest.names, Bool.and_eq_true, decide_eq_true_eq,
            decide_eq_true_eq] at hnames
          exact hnames.2
    · obtain rfl := List.mem_singleton.mp hnew
      obtain ⟨answer, hanswer, -⟩ := reserves.fresh
      obtain ⟨answer', hanswer', -⟩ := hconfirms
      rw [hanswer] at hanswer'
      simp at hanswer'

end Stores

/-- What is known of every goal after a run. -/
structure RunInv (sha : Sha256) (scopes : List Scope) (calls : List CadenceCall)
    (w : CadenceWorld) : Prop where
  stores : ∀ goal, ∃ store, Holds (w.files goal) goal store ∧
    StoreInv sha scopes w.log goal store
  requested : ∀ entry ∈ w.log, ∀ r, entry.Reserves r → r ∈ calls.filterMap CadenceCall.request?

section Run

variable {sha : Sha256} {scopes : List Scope} {calls : List CadenceCall} {w : CadenceWorld}
  {call : CadenceCall}

theorem perform_before (sha : Sha256) (files : CadenceFiles) (call : CadenceCall) :
    (call.perform sha files).before = files := by
  have hperformed := perform_performed sha files call
  generalize call.perform sha files = entry at hperformed
  cases hperformed <;> rfl

/-- A call that reads gets the store that its goal's file holds. -/
theorem RunInv.read_eq (inv : RunInv sha scopes calls w) {goal : String} {store : Store}
    (reads : load sha (w.files goal) goal = .ok store) :
    Holds (w.files goal) goal store ∧ StoreInv sha scopes w.log goal store := by
  obtain ⟨held, hholds, hinv⟩ := inv.stores goal
  obtain rfl := hholds.load_eq hinv reads
  exact ⟨hholds, hinv⟩

/-- The call leaves every goal with a known store, and what it wrote was valid. -/
def StepKeeps (sha : Sha256) (scopes : List Scope) (w : CadenceWorld) (entry : CadenceEntry) :
    Prop :=
  (∀ goal, ∃ store, Holds (entry.files goal) goal store ∧
    StoreInv sha scopes (w.log ++ [entry]) goal store) ∧
  ∀ store, entry.written = some store → store.Valid sha

private theorem stores_unwritten (inv : RunInv sha scopes calls w) {entry : CadenceEntry}
    (before : entry.before = w.files) (written : entry.written = none)
    (quiet : ∀ r, ¬entry.Reserves r)
    (settled : ∀ c, entry.Confirms c → ∃ store, load sha (w.files c.goal) c.goal = .ok store ∧
      ∀ start ∈ store.starts, c.names start = true → start.state = .started) :
    StepKeeps sha scopes w entry := by
  refine ⟨?_, by simp [written]⟩
  intro goal
  obtain ⟨store, hholds, hinv⟩ := inv.stores goal
  refine ⟨store, ?_, hinv.extend (fun r hreserves => absurd hreserves (quiet r)) ?_⟩
  · rw [CadenceEntry.files, written, before]
    exact hholds
  · rintro c hconfirms rfl
    obtain ⟨found, hload, hstarted⟩ := settled c hconfirms
    obtain rfl := hholds.load_eq hinv hload
    exact hstarted

private theorem stores_written (inv : RunInv sha scopes calls w) {entry : CadenceEntry}
    (before : entry.before = w.files) {store' : Store} (written : entry.written = some store')
    (own : String) (quiet : ∀ r, entry.Reserves r → r.goal = own)
    (confirms : ∀ c, entry.Confirms c → c.goal = own)
    (known : StoreInv sha scopes (w.log ++ [entry]) own store') :
    StepKeeps sha scopes w entry := by
  obtain rfl := known.owner
  refine ⟨?_, by simpa [written] using known.valid⟩
  intro goal
  rw [CadenceEntry.files, written, before]
  by_cases hgoal : goal = store'.goalId
  · subst hgoal
    refine ⟨store', Or.inr ?_, known⟩
    simp
  · obtain ⟨store, hholds, hinv⟩ := inv.stores goal
    refine ⟨store, ?_, hinv.extend ?_ ?_⟩
    · simp only [Function.update_of_ne hgoal]
      exact hholds
    · intro r hreserves hsame
      exact hgoal (hsame.symm.trans (quiet r hreserves))
    · intro c hconfirms hsame
      exact absurd (hsame.symm.trans (confirms c hconfirms)) hgoal

private theorem reserves_admission {entry : CadenceEntry} {r r' : AdmitRequest}
    {answer : AdmitAnswer} (record : entry.record = .admission r answer)
    (h : entry.Reserves r') : r' = r ∧ answer.admitted = true ∧ answer.reserved = true ∧
      answer.resumed = false := by
  obtain ⟨answer', hrecord, hadmitted⟩ := h.fresh
  rw [record] at hrecord
  obtain ⟨rfl, rfl⟩ := CadenceRecord.admission.inj hrecord
  exact ⟨rfl, hadmitted⟩

private theorem not_confirms {entry : CadenceEntry} {r : AdmitRequest} {answer : AdmitAnswer}
    (record : entry.record = .admission r answer) (c : ConfirmRequest) : ¬entry.Confirms c := by
  rintro ⟨answer', hrecord, -⟩
  rw [record] at hrecord
  simp at hrecord

private theorem stores_admission (inv : RunInv sha scopes calls w) (differ : KeysDiffer sha scopes)
    (known : startScopes (calls ++ [call]) ⊆ scopes) (ordered : Ordered (calls ++ [call]))
    {r : AdmitRequest} {store : Store} (requested : call.request? = some r) (valid : r.Valid)
    (read : load sha (w.files r.goal) r.goal = .ok store) {result : AdmitAnswer × Option Store}
    (admits : Admits sha store r result) :
    StepKeeps sha scopes w ⟨w.files, .admission r result.1, result.2⟩ := by
  obtain ⟨-, hinv⟩ := inv.read_eq read
  cases admits with
  | unconfigured answer disabled unreserved fresh =>
    refine stores_unwritten inv rfl rfl ?_ (fun c h => absurd h (not_confirms rfl c))
    intro r' h
    have hreserved := (reserves_admission rfl h).2.2.1
    simp [unreserved] at hreserved
  | refused answer enabled refused fresh =>
    refine stores_unwritten inv rfl rfl ?_ (fun c h => absurd h (not_confirms rfl c))
    intro r' h
    have hadmitted := (reserves_admission rfl h).2.1
    simp [refused] at hadmitted
  | resumed answer held resumed current prior named unstarted =>
    refine stores_unwritten inv rfl rfl ?_ (fun c h => absurd h (not_confirms rfl c))
    intro r' h
    have hfresh := (reserves_admission rfl h).2.2.2
    simp [resumed] at hfresh
  | reserved answer admitted reserved fresh enabled current unheld due =>
    have hself : (CadenceEntry.mk w.files (.admission r answer)
        (some (reserve sha store r))).Reserves r :=
      ⟨answer, rfl, admitted, reserved, fresh⟩
    have hmem : r ∈ (calls ++ [call]).filterMap CadenceCall.request? := by
      simp [requested]
    refine stores_written inv rfl rfl r.goal ?_ (fun c h => absurd h (not_confirms rfl c)) ?_
    · intro r' h
      rw [(reserves_admission rfl h).1]
    · refine hinv.reserve differ valid ?_ ?_ hself rfl read ?_
      · intro item hitem
        apply known
        rw [startScopes, List.mem_flatMap]
        refine ⟨r, hmem, ?_⟩
        rcases mem_reservationScopes hitem with rfl | rfl <;> simp
      · intro entry hentry r' hreserved
        have hearlier := inv.requested entry hentry r' hreserved
        rw [Ordered, List.filterMap_append, List.map_append, List.pairwise_append] at ordered
        exact ordered.2.2 _ (List.mem_map.mpr ⟨r', hearlier, rfl⟩) _
          (List.mem_map.mpr ⟨r, by simp [requested], rfl⟩)
      · -- The path that reserves is closed to a confirmed request that is remembered.
        intro _ hremembered e he c hconfirms hagain
        rcases hremembered e he c r answer store hconfirms rfl hagain read enabled with
          ⟨start, hstart, hnamed | hnewer⟩ | ⟨hmanual, hwaits⟩
        · exact unheld start hstart hnamed
        · have := current start hstart
          omega
        · rw [due hmanual] at hwaits
          simp at hwaits

private theorem stores_confirmation (inv : RunInv sha scopes calls w) {r : ConfirmRequest}
    {store : Store} (read : load sha (w.files r.goal) r.goal = .ok store) :
    StepKeeps sha scopes w
      ⟨w.files, .confirmation r (confirmRecord store r).1, (confirmRecord store r).2⟩ := by
  obtain ⟨-, hinv⟩ := inv.read_eq read
  have hquiet : ∀ answer written r', ¬(CadenceEntry.mk w.files (.confirmation r answer)
      written).Reserves r' := by
    rintro answer written r' ⟨answer', hrecord, -⟩
    simp at hrecord
  have hsame : ∀ answer written c, (CadenceEntry.mk w.files (.confirmation r answer)
      written).Confirms c → c = r ∧ answer.confirmed = true := by
    rintro answer written c ⟨answer', hrecord, hconfirmed⟩
    obtain ⟨rfl, rfl⟩ := CadenceRecord.confirmation.inj hrecord
    exact ⟨rfl, hconfirmed⟩
  unfold confirmRecord
  dsimp only
  split
  · refine stores_unwritten inv rfl rfl (hquiet _ _) ?_
    intro c hconfirms
    have hconfirmed := (hsame _ _ c hconfirms).2
    simp at hconfirmed
  split
  · refine stores_written inv rfl rfl r.goal (fun r' h => absurd h (hquiet _ _ r')) ?_ ?_
    · intro c hconfirms
      rw [(hsame _ _ c hconfirms).1]
    · refine (hinv.confirm r).extend (fun r' h => absurd h (hquiet _ _ r')) ?_
      intro c hconfirms _ start hstart hnames
      obtain ⟨rfl, -⟩ := hsame _ _ c hconfirms
      obtain ⟨old, -, rfl⟩ := List.mem_map.mp hstart
      cases hold : c.names old with
      | true => simp
      | false =>
        simp only [hold] at hnames
        exact absurd hnames (by simp [hold])
  · rename_i hstarted
    refine stores_unwritten inv rfl rfl (hquiet _ _) ?_
    intro c hconfirms
    obtain ⟨rfl, -⟩ := hsame _ _ c hconfirms
    refine ⟨store, read, ?_⟩
    intro start hstart hnames
    rw [Bool.not_eq_true, List.any_eq_false] at hstarted
    have hstate := hstarted start (List.mem_filter.mpr ⟨hstart, hnames⟩)
    cases hs : start.state with
    | started => rfl
    | reserved => simp [hs] at hstate

theorem perform_keeps (inv : RunInv sha scopes calls w) (differ : KeysDiffer sha scopes)
    (known : startScopes (calls ++ [call]) ⊆ scopes) (ordered : Ordered (calls ++ [call])) :
    StepKeeps sha scopes w (call.perform sha w.files) := by
  have hperformed := perform_performed sha w.files call
  generalize call.perform sha w.files = entry at hperformed
  cases hperformed with
  | refused e =>
    refine stores_unwritten inv rfl rfl ?_ ?_
    · rintro r ⟨answer, hrecord, -⟩
      simp at hrecord
    · rintro c ⟨answer, hrecord, -⟩
      simp at hrecord
  | kept r answer unwritten =>
    refine stores_unwritten inv rfl rfl ?_ ?_
    · rintro r ⟨answer, hrecord, -⟩
      simp at hrecord
    · rintro c ⟨answer, hrecord, -⟩
      simp at hrecord
  | configured r store answer value reference read written scope interval named =>
    obtain ⟨-, hinv⟩ := inv.read_eq read
    have hquiet : ∀ r', ¬(CadenceEntry.mk w.files (.management r answer)
        (some (putRule sha store r.scope value reference))).Reserves r' := by
      rintro r' ⟨answer', hrecord, -⟩
      simp at hrecord
    have hsilent : ∀ c, ¬(CadenceEntry.mk w.files (.management r answer)
        (some (putRule sha store r.scope value reference))).Confirms c := by
      rintro c ⟨answer', hrecord, -⟩
      simp at hrecord
    refine stores_written inv rfl rfl r.goal (fun r' h => absurd h (hquiet r'))
      (fun c h => absurd h (hsilent c)) ?_
    exact (hinv.configure scope interval named).extend (fun r' h => absurd h (hquiet r'))
      (fun c h => absurd h (hsilent c))
  | confirmation r store read => exact stores_confirmation inv read
  | admission r store requested valid read =>
    exact stores_admission inv differ known ordered requested valid read
      (admitLocked_admits sha store r)

/-- One call keeps what is known, as long as the clock does not run backwards. -/
theorem RunInv.step (inv : RunInv sha scopes calls w) (differ : KeysDiffer sha scopes)
    (known : startScopes (calls ++ [call]) ⊆ scopes) (ordered : Ordered (calls ++ [call])) :
    RunInv sha scopes (calls ++ [call]) (w.step sha call) := by
  refine ⟨(perform_keeps inv differ known ordered).1, ?_⟩
  intro entry hentry r hreserves
  rw [List.filterMap_append, List.mem_append]
  rcases List.mem_append.mp hentry with hold | hnew
  · exact Or.inl (inv.requested entry hold r hreserves)
  · obtain rfl := List.mem_singleton.mp hnew
    right
    simp [(reserves_of_perform hreserves).1]

theorem cadenceRun_snoc (sha : Sha256) (calls : List CadenceCall) (call : CadenceCall) :
    cadenceRun sha (calls ++ [call]) = (cadenceRun sha calls).step sha call := by
  rw [cadenceRun, List.foldl_append]
  rfl

theorem Ordered.init {calls : List CadenceCall} {call : CadenceCall}
    (h : Ordered (calls ++ [call])) : Ordered calls := by
  rw [Ordered, List.filterMap_append, List.map_append, List.pairwise_append] at h
  exact h.1

theorem startScopes_init (calls : List CadenceCall) (call : CadenceCall) :
    startScopes calls ⊆ startScopes (calls ++ [call]) := by
  rw [startScopes, startScopes, List.filterMap_append, List.flatMap_append]
  exact List.subset_append_left _ _

theorem runInv_cadenceRun (differ : KeysDiffer sha scopes) (known : startScopes calls ⊆ scopes)
    (ordered : Ordered calls) : RunInv sha scopes calls (cadenceRun sha calls) := by
  induction calls using List.reverseRecOn with
  | nil =>
    refine ⟨?_, by simp [cadenceRun]⟩
    intro goal
    exact ⟨_, Or.inl ⟨rfl, rfl⟩, storeInv_empty sha scopes goal⟩
  | append_singleton calls call ih =>
    rw [cadenceRun_snoc]
    have hinit := ih (fun _ h => known (startScopes_init calls call h)) ordered.init
    exact hinit.step differ known ordered

/-- A reservation made now keeps its interval to every earlier one under the same rule. -/
private theorem spaced_perform (inv : RunInv sha scopes calls w) {earlier : CadenceEntry}
    (mem : earlier ∈ w.log) : Spaced sha earlier (call.perform sha w.files) := by
  intro r r' store store' ruleScope interval hearlier hlater hgoal hagent _ _ hmanual hreads
    hreads' hpositive hforce hforce'
  obtain ⟨-, found, hload, hdue⟩ := reserves_of_perform hlater
  rw [CadenceEntry.Reads, perform_before] at hreads'
  obtain rfl : store' = found := Except.ok.inj (hreads'.symm.trans hload)
  obtain ⟨rule, hrule, hscope, rfl, hcovers⟩ := hforce
  obtain ⟨rule', hrule', hscope', hsame, hcovers'⟩ := hforce'
  obtain ⟨-, hinv⟩ := inv.read_eq hload
  -- The rule's own scope is among those the earlier reservation was recorded under.
  have hitem : (⟨some r.agentId, rule.scope.automationId⟩ : Scope) ∈ reservationScopes store r := by
    rw [reservationScopes]
    cases hautomation : rule.scope.automationId with
    | none => exact List.mem_cons_self
    | some automation =>
      have howned : rule.scope.agentId.isSome := by
        have hvalid := (hinv.valid.rules rule' hrule').scope.owned
        rw [hscope', ← hscope] at hvalid
        exact hvalid (by rw [hautomation]; rfl)
      have hlane : r.automationId = some automation := by
        have hcover := hcovers
        simp only [applicable, Bool.or_eq_true, decide_eq_true_eq, Bool.and_eq_true,
          hautomation] at hcover
        rcases hcover with hnone | ⟨-, hnone | hsome⟩
        · simp [hnone] at howned
        · simp at hnone
        · exact hsome.symm
      have hactive : r.automationId ∈ activeScopes store r.scope :=
        mem_activeScopes.2 ⟨rule, hrule, hpositive, hcovers, hautomation.trans hlane.symm⟩
      rw [if_pos ⟨by rw [hlane]; rfl, hactive⟩]
      simp [AdmitRequest.scope, hlane]
  obtain ⟨start, hfound, hle⟩ := hinv.latest earlier mem r store hearlier hgoal
    (by rw [← hgoal]; exact hreads) _ hitem
  have hrecorded : store'.startAt r'.scope.agentId rule'.scope.automationId = some start := by
    rw [hscope', ← hscope, ← hfound, hagent]
    rfl
  have howner : r'.scope.agentId.isSome := rfl
  have hspaced := eligible_spaced howner hrule' (by omega) hcovers' hrecorded (hdue hmanual)
  rw [hsame] at hspaced
  omega

private theorem resumes_perform (inv : RunInv sha scopes calls w) :
    ResumesReservation sha w.log (call.perform sha w.files) := by
  intro r answer store hrecord hresumed hreads
  rw [CadenceEntry.Reads, perform_before] at hreads
  obtain ⟨-, hinv⟩ := inv.read_eq hreads
  obtain ⟨-, found, _, hload, -, hadmits⟩ := admits_of_perform hrecord
  obtain rfl : found = store := Except.ok.inj (hload.symm.trans hreads)
  obtain ⟨held, hprior, hnamed, hstate⟩ : ∃ held ∈ priorStarts found r.scope,
      held.requestId = r.request ∧ held.state = .reserved := by
    cases hadmits with
    | resumed _ held resumed current prior named unstarted =>
      exact ⟨held, prior, named, unstarted⟩
    | unconfigured _ disabled unreserved fresh =>
      rw [fresh] at hresumed
      simp at hresumed
    | refused _ enabled refused fresh =>
      rw [fresh] at hresumed
      simp at hresumed
    | reserved _ admitted reserved fresh enabled current unheld due =>
      rw [fresh] at hresumed
      simp at hresumed
  have hmem := List.mem_filter.mp hprior
  obtain ⟨origin, horigin, r', hreserves, hgoal, hagent, hrequest, htime⟩ :=
    hinv.origin held hmem.1
  have howner : held.scope.agentId = some r.agentId := by
    have := hmem.2
    rw [Bool.and_eq_true, decide_eq_true_eq] at this
    exact this.1
  refine ⟨held, hprior, hnamed, hstate, origin, horigin, r', hreserves, hgoal, ?_, ?_, htime⟩
  · exact (Option.some.inj (howner.symm.trans hagent)).symm
  · exact hrequest.symm.trans hnamed

private theorem staleRefused_perform (files : CadenceFiles) (call : CadenceCall) :
    StaleRefused sha (call.perform sha files) := by
  intro r answer store start hrecord hreads hstart hagent hactive hstale
  rw [CadenceEntry.Reads, perform_before] at hreads
  obtain ⟨-, found, _, hload, -, hadmits⟩ := admits_of_perform hrecord
  obtain rfl : found = store := Except.ok.inj (hload.symm.trans hreads)
  have hprior : start ∈ priorStarts found r.scope := by
    rw [priorStarts, List.mem_filter]
    refine ⟨hstart, ?_⟩
    rw [Bool.and_eq_true, decide_eq_true_eq, decide_eq_true_eq]
    exact ⟨hagent, hactive⟩
  have hnewest : ¬∀ start ∈ priorStarts found r.scope, start.triggerAtMs ≤ r.trigger := by
    intro hall
    have := hall start hprior
    omega
  obtain ⟨rule, hrule, hpositive, hcovers, -⟩ := mem_activeScopes.1 hactive
  cases hadmits with
  | refused _ enabled refused fresh => exact refused
  | unconfigured _ disabled unreserved fresh =>
    rw [enabled_of_rule hrule hpositive hcovers] at disabled
    simp at disabled
  | resumed _ held resumed current prior named unstarted => exact absurd current hnewest
  | reserved _ admitted reserved fresh enabled current unheld due => exact absurd current hnewest

private theorem neverAgain_perform (inv : RunInv sha scopes calls w)
    (remembered : w.log.Pairwise (Remembered sha)) {earlier : CadenceEntry}
    (mem : earlier ∈ w.log) (recalls : Remembered sha earlier (call.perform sha w.files)) :
    NeverAgain sha earlier (call.perform sha w.files) := by
  intro c r answer store ruleScope interval hconfirms hrecord hagain hreads hpositive hforce
  have henabled := @enabled_of_inForce _ _ r.now _ _ hpositive hforce
  have hrecall := recalls c r answer store hconfirms hrecord hagain hreads henabled
  rw [CadenceEntry.Reads, perform_before] at hreads
  obtain ⟨-, hinv⟩ := inv.read_eq hreads
  obtain ⟨-, found, _, hload, -, hadmits⟩ := admits_of_perform hrecord
  obtain rfl : found = store := Except.ok.inj (hload.symm.trans hreads)
  cases hadmits with
  | refused _ enabled refused fresh => exact refused
  | unconfigured _ disabled unreserved fresh =>
    rw [henabled] at disabled
    simp at disabled
  | resumed _ held resumed current prior named unstarted =>
    have hprior := List.mem_filter.mp prior
    have howner := hprior.2
    rw [Bool.and_eq_true, decide_eq_true_eq] at howner
    have hnames : c.names held = true := by
      rw [ConfirmRequest.names, Bool.and_eq_true, decide_eq_true_eq, decide_eq_true_eq]
      exact ⟨howner.1.trans (congrArg some hagain.agent), named.trans hagain.request⟩
    rw [hinv.confirmed remembered earlier mem c hconfirms hagain.goal.symm held hprior.1
      hnames] at unstarted
    simp at unstarted
  | reserved _ admitted reserved fresh enabled current unheld due =>
    rcases hrecall with ⟨start, hstart, hnamed | hnewer⟩ | ⟨hmanual, hwaits⟩
    · exact absurd hnamed (unheld start hstart)
    · have := current start hstart
      omega
    · rw [due hmanual] at hwaits
      simp at hwaits

private theorem revision_le_of_load {file : Option Json} {goal : String} {store : Store}
    (h : load sha file goal = .ok store) : store.revision ≤ JsNumber.maxSafeInteger := by
  cases file with
  | none =>
    obtain rfl := Except.ok.inj h
    exact Nat.zero_le _
  | some document =>
    simp only [load, decode, bind_eq_ok] at h
    obtain ⟨p, -, h⟩ := h
    split at h
    · simp at h
    simp only [bind_eq_ok] at h
    obtain ⟨revision, hrevision, _, -, rules, -, _, -, starts, -, h⟩ := h
    obtain rfl := Except.ok.inj h
    exact le_of_integer hrevision

/-- Only a configuration moves the revision, and by one. -/
private theorem revision_of_written {files : CadenceFiles} {store' : Store}
    (written : (call.perform sha files).written = some store')
    (below : BelowLimit sha (call.perform sha files)) :
    store'.revision ≤ JsNumber.maxSafeInteger := by
  have hbefore := perform_before sha files call
  have hperformed := perform_performed sha files call
  generalize call.perform sha files = entry at hperformed written below hbefore
  cases hperformed with
  | refused e => simp at written
  | kept r answer unwritten => simp at written
  | configured r store answer value reference read hwritten scope interval named =>
    obtain rfl := Option.some.inj written
    exact below r answer store rfl hwritten read
  | confirmation r store read =>
    have hle := revision_le_of_load read
    simp only [confirmRecord] at written
    split at written
    · simp at written
    split at written
    · obtain rfl := Option.some.inj written
      exact hle
    · simp at written
  | admission r store requested valid read =>
    have hle := revision_le_of_load read
    have hadmits := admitLocked_admits sha store r
    simp only at written
    generalize admitLocked sha store r = result at hadmits written
    cases hadmits with
    | unconfigured answer disabled unreserved fresh => simp at written
    | refused answer enabled refused fresh => simp at written
    | resumed answer held resumed current prior named unstarted => simp at written
    | reserved answer admitted reserved fresh enabled current unheld due =>
      obtain rfl := Option.some.inj written
      exact hle

private theorem writtenReads_perform (inv : RunInv sha scopes calls w)
    (differ : KeysDiffer sha scopes) (known : startScopes (calls ++ [call]) ⊆ scopes)
    (ordered : Ordered (calls ++ [call])) (below : BelowLimit sha (call.perform sha w.files)) :
    WrittenReads sha (call.perform sha w.files) := by
  intro store hwritten
  have hvalid := (perform_keeps inv differ known ordered).2 store hwritten
  refine ⟨decode_toJson hvalid (revision_of_written hwritten below), ?_, ?_⟩
  · have hkeys := hvalid.ruleKeys
    rw [show (fun r : Rule => key sha r.scope) = key sha ∘ (fun r => r.scope) from rfl,
      ← List.map_map] at hkeys
    exact hkeys.of_map _
  · have hkeys := hvalid.startKeys
    rw [show (fun s : Start => key sha s.scope) = key sha ∘ (fun s => s.scope) from rfl,
      ← List.map_map] at hkeys
    exact hkeys.of_map _

end Run

section Main

variable {sha : Sha256}

private theorem nullable_injective : Function.Injective nullable := by
  intro a b h
  cases a <;> cases b <;> simp_all [nullable]

private theorem canonical_nullable (value : Option String) : Json.Canonical (nullable value) := by
  cases value <;> simp [nullable]

theorem Scope.bytes_injective : Function.Injective Scope.bytes := by
  intro a b h
  have hordered : ∀ s : Scope, Json.OwnOrdered
      (.array [nullable s.agentId, nullable s.automationId]) := by
    intro s
    apply Json.Canonical.ownOrdered
    simp [canonical_nullable]
  have htext := Json.stringify_injective (hordered a) (hordered b) (String.toByteArray_inj.mp h)
  simp only [Json.array.injEq, List.cons.injEq, and_true] at htext
  cases a
  cases b
  simp_all [nullable_injective.eq_iff]

private theorem keysDiffer_of_noCollision {scopes : List Scope}
    (h : NoCollision sha (scopes.map Scope.bytes)) : KeysDiffer sha scopes := by
  intro a ha b hb hsame
  apply Scope.bytes_injective
  exact h _ (List.mem_map_of_mem ha) _ (List.mem_map_of_mem hb) hsame

/-- What a run of calls guarantees: reservations under one rule keep its interval, a resumed
admission stands for an earlier reservation, stale triggers are refused; a confirmed request is
never admitted again while it is remembered, and below the last safe revision every written store
can be read. -/
def RunLaws (sha : Sha256) (log : List CadenceEntry) : Prop :=
  log.Pairwise (Spaced sha) ∧
  (∀ before entry after, log = before ++ entry :: after → ResumesReservation sha before entry) ∧
  (∀ entry ∈ log, StaleRefused sha entry) ∧
  (log.Pairwise (Remembered sha) → log.Pairwise (NeverAgain sha)) ∧
  ((∀ entry ∈ log, BelowLimit sha entry) → ∀ entry ∈ log, WrittenReads sha entry)

theorem runLaws_snoc {calls : List CadenceCall} {scopes : List Scope} {w : CadenceWorld}
    {call : CadenceCall} (inv : RunInv sha scopes calls w) (differ : KeysDiffer sha scopes)
    (known : startScopes (calls ++ [call]) ⊆ scopes) (ordered : Ordered (calls ++ [call]))
    (laws : RunLaws sha w.log) : RunLaws sha (w.step sha call).log := by
  obtain ⟨hspaced, hresumes, hstale, hnever, hreads⟩ := laws
  refine ⟨?_, ?_, ?_, ?_, ?_⟩
  · refine List.pairwise_append.mpr ⟨hspaced, List.pairwise_singleton _ _, ?_⟩
    intro earlier hmem entry hentry
    obtain rfl := List.mem_singleton.mp hentry
    exact spaced_perform inv hmem
  · intro before entry after hsplit
    rcases List.eq_nil_or_concat after with rfl | ⟨init, last, rfl⟩
    · obtain ⟨rfl, hentry⟩ := List.append_inj' hsplit rfl
      obtain rfl := (List.cons.inj hentry).1
      exact resumes_perform inv
    · have hinit : w.log = before ++ entry :: init := by
        have hcons : before ++ entry :: (init ++ [last]) = (before ++ entry :: init) ++ [last] := by
          simp
        rw [List.concat_eq_append, hcons] at hsplit
        exact (List.append_inj' hsplit rfl).1
      exact hresumes before entry init hinit
  · intro entry hentry
    rcases List.mem_append.mp hentry with hold | hnew
    · exact hstale entry hold
    · obtain rfl := List.mem_singleton.mp hnew
      exact staleRefused_perform w.files call
  · intro hremembered
    have hparts := List.pairwise_append.mp hremembered
    refine List.pairwise_append.mpr ⟨hnever hparts.1, List.pairwise_singleton _ _, ?_⟩
    intro earlier hmem entry hentry
    obtain rfl := List.mem_singleton.mp hentry
    exact neverAgain_perform inv hparts.1 hmem (hparts.2.2 earlier hmem _ (by simp))
  · intro hbelow entry hentry
    rcases List.mem_append.mp hentry with hold | hnew
    · exact hreads (fun e he => hbelow e (List.mem_append_left _ he)) entry hold
    · obtain rfl := List.mem_singleton.mp hnew
      exact writtenReads_perform inv differ known ordered (hbelow _ (by simp [CadenceWorld.step]))

end Main

section Samples

def laneFields (fields : List (String × Json)) : List (String × Json) :=
  [("runtime_root", .string "/run"), ("goal_id", .string "goal"), ("agent_id", .string "agent")] ++
    fields

def configureCall : CadenceCall :=
  .manage (laneFields [("operation", .string "configure"), ("expected_revision", natJson 0),
    ("min_interval_minutes", natJson 1), ("owner_reference", .string "owner"),
    ("execute", .bool true)]) 0

def admitCall (request : String) (now : Nat) : CadenceCall :=
  .admission (laneFields [("now_ms", natJson now), ("trigger_at_ms", natJson now),
    ("request_id", .string request)])

def confirmCall (request : String) : CadenceCall :=
  .confirm (laneFields [("request_id", .string request)])

def sampleRequest (request : String) (now : Nat) : AdmitRequest :=
  ⟨"goal", "agent", none, now, now, request, none⟩

/-- The store of one agent rule of a minute and one start. -/
def sampleStore (request : String) (now : Nat) (state : StartState) : Store :=
  ⟨"goal", 1, [⟨⟨some "agent", none⟩, 1, 1, "owner"⟩],
    [⟨⟨some "agent", none⟩, now, now, request, none, state⟩]⟩

/-- A confirmed request, another start, and the confirmed request again. -/
def forgottenCalls : List CadenceCall :=
  [configureCall, admitCall "turn:1" 0, confirmCall "turn:1", admitCall "turn:2" 60000,
    admitCall "turn:1" 120000]

/-- A confirmed request presented again while its start is still the recorded one. -/
def rememberedCalls : List CadenceCall :=
  [configureCall, admitCall "turn:1" 0, confirmCall "turn:1", admitCall "turn:1" 60000]

private theorem not_confirms_of_request {sha : Sha256} {files : CadenceFiles} {call : CadenceCall}
    (h : ∀ p, call ≠ .confirm p) (c : ConfirmRequest) :
    ¬(call.perform sha files).Confirms c := by
  rintro ⟨answer, hrecord, -⟩
  cases call with
  | confirm p => exact h p rfl
  | admission p =>
    simp only [CadenceCall.perform] at hrecord
    split at hrecord
    · simp at hrecord
    · split at hrecord <;> simp at hrecord
  | manage p nowMs =>
    simp only [CadenceCall.perform] at hrecord
    split at hrecord
    · simp at hrecord
    · split at hrecord <;> simp at hrecord

private theorem rememberedCalls_remembered :
    (cadenceRun Sha256.node rememberedCalls).log.Pairwise (Remembered Sha256.node) := by
  have hnever : ∀ (earlier later : CadenceEntry), (∀ c, ¬earlier.Confirms c) →
      Remembered Sha256.node earlier later :=
    fun earlier later hnot c r answer store hconfirms => absurd hconfirms (hnot c)
  have hconfigure := fun files => @not_confirms_of_request Sha256.node files configureCall
    (by simp [configureCall])
  have hadmission := fun files => @not_confirms_of_request Sha256.node files (admitCall "turn:1" 0)
    (by simp [admitCall])
  simp only [cadenceRun, rememberedCalls, List.foldl_cons, List.foldl_nil, CadenceWorld.step,
    List.nil_append, List.cons_append, List.pairwise_cons, List.mem_cons, List.not_mem_nil,
    or_false, forall_eq_or_imp, forall_eq, false_imp_iff, implies_true, and_true,
    List.Pairwise.nil]
  refine ⟨⟨hnever _ _ (hconfigure _), hnever _ _ (hconfigure _), hnever _ _ (hconfigure _)⟩,
    ⟨hnever _ _ (hadmission _), hnever _ _ (hadmission _)⟩, ?_⟩
  intro c r answer store _ hrecord _ hreads _
  have hrequest := (admits_of_perform hrecord).1
  obtain rfl : sampleRequest "turn:1" 60000 = r :=
    Option.some.inj ((by decide : (admitCall "turn:1" 60000).request? =
      some (sampleRequest "turn:1" 60000)).symm.trans hrequest)
  rw [CadenceEntry.Reads, perform_before] at hreads
  obtain rfl : sampleStore "turn:1" 0 .started = store :=
    Except.ok.inj (Eq.trans (by decide) hreads)
  refine Or.inl ⟨⟨⟨some "agent", none⟩, 0, 0, "turn:1", none, .started⟩, ?_, Or.inl rfl⟩
  decide

end Samples

end Loopx.Quota
