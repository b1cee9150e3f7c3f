/- GID: Loopx/Quota/CadenceStore
   generality: I
   source: loopx/control_plane/quota/automation_cadence.ts
   digest: What every cadence store keeps, and that decoding reads a written store back. -/

import Loopx.Quota.AutomationCadence

set_option autoImplicit false
set_option relaxedAutoImplicit false

namespace Loopx.Quota

open Loopx.Json (JsNumber)
open Loopx.Lib.Fallible (ok_bind bind_eq_ok)
open Loopx.Authority (Sha256 trim trim_trim)
open Loopx.Lease (utf16Length)

/-- What `text` lets through. -/
structure IsText (s : String) : Prop where
  trimmed : trim s = s
  nonempty : s ≠ ""
  short : utf16Length s.toList ≤ 256
  plain : s.toList.any (fun c => c.toNat < 0x20) = false

theorem text_ok {s : String} (h : IsText s) (name : String) :
    text (some (.string s)) name = .ok s := by
  have hkeeps : ¬(s = "" ∨ 256 < utf16Length s.toList ∨
      s.toList.any (fun c => c.toNat < 0x20) = true) := by
    rintro (hempty | hlong | hcontrol)
    · exact h.nonempty hempty
    · exact absurd hlong (by have := h.short; omega)
    · rw [h.plain] at hcontrol
      exact Bool.noConfusion hcontrol
  simp only [text, requireNonEmptyString, h.trimmed, if_neg h.nonempty, ok_bind, if_neg hkeeps]

theorem isText_of_text {value : Option Json} {name s : String} (h : text value name = .ok s) :
    IsText s := by
  simp only [text, bind_eq_ok] at h
  obtain ⟨raw, -, hbody⟩ := h
  split at hbody
  · simp at hbody
  rename_i hkeeps
  obtain rfl := Except.ok.inj hbody
  rw [not_or, not_or] at hkeeps
  exact ⟨trim_trim raw, hkeeps.1, by omega, by simpa using hkeeps.2.2⟩

theorem isText_of_optionalText {value : Option Json} {name : String} {result : Option String}
    (h : optionalText value name = .ok result) : ∀ s ∈ result, IsText s := by
  intro s hs
  unfold optionalText at h
  split at h
  · obtain rfl := Except.ok.inj h
    simp at hs
  · obtain rfl := Except.ok.inj h
    simp at hs
  · obtain ⟨s', hs', heq⟩ := bind_eq_ok.mp h
    obtain rfl := Except.ok.inj heq
    obtain rfl := Option.mem_some_iff.mp hs
    exact isText_of_text hs'

theorem optionalText_ok {value : Option String} (h : ∀ s ∈ value, IsText s) (name : String) :
    optionalText (some (nullable value)) name = .ok value := by
  cases value with
  | none => rfl
  | some s =>
    have hs := h s rfl
    simp only [nullable, Option.map_some, Option.getD_some, optionalText, text_ok hs, ok_bind]

theorem integer_ok {n : Nat} (h : n ≤ JsNumber.maxSafeInteger) (name : String) :
    integer (some (natJson n)) name = .ok n := by
  have hsafe : ¬((n : Int) < 0 ∨ (JsNumber.maxSafeInteger : Int) < n) := by omega
  simp only [integer, natJson, requireInteger, JsNumber.toInt?_ofNat, ok_bind, if_neg hsafe,
    Int.toNat_natCast]

theorem integer_unsafe {n : Nat} (h : JsNumber.maxSafeInteger < n) (name : String) :
    integer (some (natJson n)) name =
      .error (.invalid (name ++ " must be a non-negative safe integer")) := by
  have hunsafe : (n : Int) < 0 ∨ (JsNumber.maxSafeInteger : Int) < n := by omega
  simp only [integer, natJson, requireInteger, JsNumber.toInt?_ofNat, ok_bind, if_pos hunsafe]

theorem le_of_integer {value : Option Json} {name : String} {n : Nat}
    (h : integer value name = .ok n) : n ≤ JsNumber.maxSafeInteger := by
  simp only [integer, bind_eq_ok] at h
  obtain ⟨i, -, hbody⟩ := h
  split at hbody
  · simp at hbody
  obtain rfl := Except.ok.inj hbody
  omega

theorem le_of_minutes {value : Option Json} {n : Nat} (h : minutes value = .ok n) :
    n ≤ 525600 := by
  simp only [minutes, bind_eq_ok] at h
  obtain ⟨i, -, hbody⟩ := h
  split at hbody
  · simp at hbody
  obtain rfl := Except.ok.inj hbody
  omega

structure Scope.Valid (s : Scope) : Prop where
  agent : ∀ a ∈ s.agentId, IsText a
  automation : ∀ a ∈ s.automationId, IsText a
  owned : s.automationId.isSome → s.agentId.isSome

theorem valid_of_scope {p : List (String × Json)} {s : Scope} (h : scope p = .ok s) : s.Valid := by
  simp only [scope, bind_eq_ok] at h
  obtain ⟨agent, hagent, automation, hautomation, hbody⟩ := h
  split at hbody
  · simp at hbody
  rename_i howned
  obtain rfl := Except.ok.inj hbody
  refine ⟨isText_of_optionalText hagent, isText_of_optionalText hautomation, ?_⟩
  intro hsome
  cases agent with
  | some a => rfl
  | none => exact absurd ⟨hsome, rfl⟩ howned

theorem scope_ok {s : Scope} (h : s.Valid) {p : List (String × Json)}
    (agent : p.lookup "agent_id" = some (nullable s.agentId))
    (automation : p.lookup "automation_id" = some (nullable s.automationId)) :
    scope p = .ok s := by
  have howned : ¬(s.automationId.isSome = true ∧ s.agentId.isNone = true) := by
    rintro ⟨hsome, hnone⟩
    have := h.owned hsome
    rw [Option.isNone_iff_eq_none] at hnone
    simp [hnone] at this
  simp only [scope, agent, automation, optionalText_ok h.agent, optionalText_ok h.automation,
    ok_bind, if_neg howned]

structure Rule.Valid (revision : Nat) (r : Rule) : Prop where
  scope : r.scope.Valid
  interval : r.minIntervalMinutes ≤ 525600
  revised : r.revision ≤ revision
  reference : IsText r.ownerReference

structure Start.Valid (s : Start) : Prop where
  scope : s.scope.Valid
  owned : s.scope.agentId.isSome
  started : s.startedAtMs ≤ JsNumber.maxSafeInteger
  ordered : s.triggerAtMs ≤ s.startedAtMs
  request : IsText s.requestId
  manual : ∀ reason ∈ s.manualReason, IsText reason

/-- What the checks of `decode` ask of a store, its own revision apart. -/
structure Store.Valid (sha : Sha256) (store : Store) : Prop where
  rules : ∀ r ∈ store.rules, r.Valid store.revision
  starts : ∀ s ∈ store.starts, s.Valid
  ruleKeys : (store.rules.map (fun r => key sha r.scope)).Nodup
  startKeys : (store.starts.map (fun s => key sha s.scope)).Nodup

section Decode

variable (sha : Sha256)

private theorem decodeRule_toJson {revision : Nat} (safe : revision ≤ JsNumber.maxSafeInteger)
    {r : Rule} (h : r.Valid revision) {seen : List String} (fresh : key sha r.scope ∉ seen) :
    decodeRule sha revision seen r.toJson = .ok r := by
  have hrevision : ¬revision < r.revision := by have := h.revised; omega
  have hinterval : ¬525600 < r.minIntervalMinutes := by have := h.interval; omega
  have hlong : r.minIntervalMinutes ≤ JsNumber.maxSafeInteger :=
    h.interval.trans (by decide)
  have hscope : scope [("agent_id", nullable r.scope.agentId),
      ("automation_id", nullable r.scope.automationId),
      ("min_interval_minutes", natJson r.minIntervalMinutes), ("revision", natJson r.revision),
      ("owner_reference", .string r.ownerReference)] = .ok r.scope :=
    scope_ok h.scope rfl rfl
  have hrev : integer (some (natJson r.revision)) "rule revision" = .ok r.revision :=
    integer_ok (h.revised.trans safe) _
  simp only [decodeRule, Rule.toJson, requireJsonObject, ok_bind, hscope, if_neg fresh]
  simp [List.lookup_cons, hrev, hrevision, minutes, integer_ok hlong, hinterval, text_ok h.reference]

private theorem decodeRules_toJson {revision : Nat} (safe : revision ≤ JsNumber.maxSafeInteger)
    {rules : List Rule} (valid : ∀ r ∈ rules, r.Valid revision) (seen : List String)
    (nodup : (rules.map (fun r => key sha r.scope)).Nodup)
    (fresh : ∀ r ∈ rules, key sha r.scope ∉ seen) :
    decodeRules sha revision seen (rules.map Rule.toJson) = .ok rules := by
  induction rules generalizing seen with
  | nil => rfl
  | cons r rules ih =>
    rw [List.map_cons, List.nodup_cons] at nodup
    have hrest := ih (fun r hr => valid r (List.mem_cons_of_mem _ hr))
      (key sha r.scope :: seen) nodup.2 (by
        intro r' hr' hmem
        rcases List.mem_cons.mp hmem with hsame | hmem
        · exact nodup.1 (List.mem_map.mpr ⟨r', hr', hsame⟩)
        · exact fresh r' (List.mem_cons_of_mem _ hr') hmem)
    simp only [List.map_cons, decodeRules, ok_bind, hrest,
      decodeRule_toJson sha safe (valid r List.mem_cons_self) (fresh r List.mem_cons_self)]

private theorem decodeStart_toJson {s : Start} (h : s.Valid) {seen : List String}
    (fresh : key sha s.scope ∉ seen) : decodeStart sha seen s.toJson = .ok s := by
  have howned : ¬(s.scope.agentId.isNone = true ∨ key sha s.scope ∈ seen) := by
    rintro (hnone | hseen)
    · have := h.owned
      rw [Option.isNone_iff_eq_none] at hnone
      simp [hnone] at this
    · exact fresh hseen
  have hordered : ¬s.startedAtMs < s.triggerAtMs := by have := h.ordered; omega
  have hscope : scope [("agent_id", nullable s.scope.agentId),
      ("automation_id", nullable s.scope.automationId),
      ("started_at_ms", natJson s.startedAtMs), ("trigger_at_ms", natJson s.triggerAtMs),
      ("request_id", .string s.requestId), ("manual_reason", nullable s.manualReason),
      ("state", .string s.state.text)] = .ok s.scope :=
    scope_ok h.scope rfl rfl
  have hstate : decodeState (some (.string s.state.text)) = .ok s.state := by
    cases s.state <;> decide
  simp only [decodeStart, Start.toJson, requireJsonObject, ok_bind, hscope, if_neg howned]
  simp [List.lookup_cons, integer_ok h.started, integer_ok (h.ordered.trans h.started), hordered,
    text_ok h.request, optionalText_ok h.manual, hstate]

private theorem decodeStarts_toJson {starts : List Start} (valid : ∀ s ∈ starts, s.Valid)
    (seen : List String) (nodup : (starts.map (fun s => key sha s.scope)).Nodup)
    (fresh : ∀ s ∈ starts, key sha s.scope ∉ seen) :
    decodeStarts sha seen (starts.map Start.toJson) = .ok starts := by
  induction starts generalizing seen with
  | nil => rfl
  | cons s starts ih =>
    rw [List.map_cons, List.nodup_cons] at nodup
    have hrest := ih (fun s hs => valid s (List.mem_cons_of_mem _ hs))
      (key sha s.scope :: seen) nodup.2 (by
        intro s' hs' hmem
        rcases List.mem_cons.mp hmem with hsame | hmem
        · exact nodup.1 (List.mem_map.mpr ⟨s', hs', hsame⟩)
        · exact fresh s' (List.mem_cons_of_mem _ hs') hmem)
    simp only [List.map_cons, decodeStarts, ok_bind, hrest,
      decodeStart_toJson sha (valid s List.mem_cons_self) (fresh s List.mem_cons_self)]

variable {sha}

/-- A valid store within the safe revisions reads back as itself. -/
theorem decode_toJson {store : Store} (h : store.Valid sha)
    (safe : store.revision ≤ JsNumber.maxSafeInteger) :
    decode sha store.toJson store.goalId = .ok store := by
  have hrules := decodeRules_toJson sha safe h.rules [] h.ruleKeys (by simp)
  have hstarts := decodeStarts_toJson sha h.starts [] h.startKeys (by simp)
  simp [decode, Store.toJson, requireJsonObject, List.lookup_cons, integer_ok safe, rulesOf, startsOf,
    hrules, hstarts]

/-- Beyond the safe integers a store can no longer be read. -/
theorem decode_unsafe {store : Store} (h : JsNumber.maxSafeInteger < store.revision) :
    decode sha store.toJson store.goalId =
      .error (.invalid "revision must be a non-negative safe integer") := by
  simp [decode, Store.toJson, requireJsonObject, List.lookup_cons, integer_unsafe h]

end Decode

section Starts

variable {sha : Sha256}

/-- The record of one scope. -/
def startIn (starts : List Start) (s : Scope) : Option Start :=
  starts.find? (fun item =>
    item.scope.agentId = s.agentId && item.scope.automationId = s.automationId)

theorem startAt_eq (store : Store) (s : Scope) :
    store.startAt s.agentId s.automationId = startIn store.starts s := rfl

private theorem sameScope_iff (item s : Scope) :
    (decide (item.agentId = s.agentId) && decide (item.automationId = s.automationId)) = true ↔
      item = s := by
  rw [Bool.and_eq_true, decide_eq_true_eq, decide_eq_true_eq]
  constructor
  · rintro ⟨ha, hb⟩
    cases item
    cases s
    simp_all
  · rintro rfl
    exact ⟨rfl, rfl⟩

@[simp] theorem startIn_nil (s : Scope) : startIn [] s = none := rfl

theorem startIn_cons (start : Start) (starts : List Start) (s : Scope) :
    startIn (start :: starts) s = if start.scope = s then some start else startIn starts s := by
  have hsame := sameScope_iff start.scope s
  by_cases hscope : start.scope = s
  · rw [if_pos hscope, startIn, List.find?_cons, hsame.mpr hscope]
  · rw [if_neg hscope, startIn, List.find?_cons, Bool.eq_false_iff.mpr (mt hsame.mp hscope)]
    rfl

theorem startIn_append (starts starts' : List Start) (s : Scope) :
    startIn (starts ++ starts') s = (startIn starts s).or (startIn starts' s) :=
  List.find?_append

/-- The keys tell these scopes apart. -/
def KeysDiffer (sha : Sha256) (scopes : List Scope) : Prop :=
  ∀ a ∈ scopes, ∀ b ∈ scopes, key sha a = key sha b → a = b

theorem mem_putStart {starts : List Start} {start s : Start}
    (h : s ∈ putStart sha starts start) : s ∈ starts ∨ s = start := by
  rcases List.mem_append.mp h with hold | hnew
  · exact Or.inl (List.mem_of_mem_filter hold)
  · exact Or.inr (List.mem_singleton.mp hnew)

theorem nodup_putStart {starts : List Start}
    (nodup : (starts.map (fun s => key sha s.scope)).Nodup) (start : Start) :
    ((putStart sha starts start).map (fun s => key sha s.scope)).Nodup := by
  rw [putStart, List.map_append, List.nodup_append]
  refine ⟨(List.filter_sublist.map _).nodup nodup, List.nodup_singleton _, ?_⟩
  intro a ha b hb hsame
  obtain ⟨old, hold, rfl⟩ := List.mem_map.mp ha
  obtain rfl := List.mem_singleton.mp hb
  have hkept := (List.mem_filter.mp hold).2
  simp [hsame] at hkept

/-- The new record answers for its scope, every other scope keeps its own. -/
theorem startIn_putStart {scopes : List Scope} (differ : KeysDiffer sha scopes)
    {starts : List Start} (within : ∀ s ∈ starts, s.scope ∈ scopes) {start : Start}
    (known : start.scope ∈ scopes) (s : Scope) :
    startIn (putStart sha starts start) s =
      if start.scope = s then some start else startIn starts s := by
  have hfilter : startIn (starts.filter (fun old => key sha old.scope ≠ key sha start.scope)) s =
      if start.scope = s then none else startIn starts s := by
    induction starts with
    | nil => simp [startIn]
    | cons old starts ih =>
      have hih := ih (fun s hs => within s (List.mem_cons_of_mem _ hs))
      have hold := within old List.mem_cons_self
      by_cases hsame : key sha old.scope = key sha start.scope
      · have hscope := differ _ hold _ known hsame
        rw [List.filter_cons_of_neg (by simpa using hsame), hih, startIn_cons, hscope]
        split <;> rfl
      · rw [List.filter_cons_of_pos (by simpa using hsame), startIn_cons, startIn_cons, hih]
        by_cases hfound : old.scope = s
        · have hne : start.scope ≠ s := by
            rintro rfl
            exact hsame (by rw [hfound])
          rw [if_pos hfound, if_neg hne, if_pos hfound]
        · rw [if_neg hfound, if_neg hfound]
  rw [putStart, startIn_append, hfilter, startIn_cons, startIn_nil]
  by_cases hscope : start.scope = s
  · rw [if_pos hscope, if_pos hscope, Option.none_or, if_pos hscope]
  · rw [if_neg hscope, if_neg hscope, Option.or_none, if_neg hscope]

variable (r : AdmitRequest)

theorem mem_reserved {items : List Scope} {starts : List Start} {s : Start}
    (h : s ∈ items.foldl (fun starts item => putStart sha starts (reservationStart r item))
      starts) : s ∈ starts ∨ ∃ item ∈ items, s = reservationStart r item := by
  induction items generalizing starts with
  | nil => exact Or.inl h
  | cons item items ih =>
    rcases ih h with hold | ⟨item', hmem, rfl⟩
    · rcases mem_putStart hold with hold | rfl
      · exact Or.inl hold
      · exact Or.inr ⟨item, List.mem_cons_self, rfl⟩
    · exact Or.inr ⟨item', List.mem_cons_of_mem _ hmem, rfl⟩

theorem nodup_reserved {items : List Scope} {starts : List Start}
    (nodup : (starts.map (fun s => key sha s.scope)).Nodup) :
    ((items.foldl (fun starts item => putStart sha starts (reservationStart r item))
      starts).map (fun s => key sha s.scope)).Nodup := by
  induction items generalizing starts with
  | nil => exact nodup
  | cons item items ih => exact ih (nodup_putStart nodup _)

theorem startIn_reserved {scopes : List Scope} (differ : KeysDiffer sha scopes)
    {items : List Scope} (known : ∀ item ∈ items, item ∈ scopes) {starts : List Start}
    (within : ∀ s ∈ starts, s.scope ∈ scopes) (s : Scope) :
    startIn (items.foldl (fun starts item => putStart sha starts (reservationStart r item))
      starts) s = if s ∈ items then some (reservationStart r s) else startIn starts s := by
  induction items generalizing starts with
  | nil => simp
  | cons item items ih =>
    have hitem := known item List.mem_cons_self
    have hwithin : ∀ s ∈ putStart sha starts (reservationStart r item), s.scope ∈ scopes := by
      intro s hs
      rcases mem_putStart hs with hold | rfl
      · exact within s hold
      · exact hitem
    rw [List.foldl_cons, ih (fun item hmem => known item (List.mem_cons_of_mem _ hmem)) hwithin,
      startIn_putStart differ within hitem]
    by_cases hmem : s ∈ items
    · rw [if_pos hmem, if_pos (List.mem_cons_of_mem _ hmem)]
    · rw [if_neg hmem]
      by_cases hsame : item = s
      · subst hsame
        rw [if_pos List.mem_cons_self]
        exact if_pos rfl
      · have hnone : s ∉ item :: items := by
          rw [List.mem_cons, not_or]
          exact ⟨Ne.symm hsame, hmem⟩
        rw [if_neg hnone]
        exact if_neg hsame

end Starts

end Loopx.Quota
