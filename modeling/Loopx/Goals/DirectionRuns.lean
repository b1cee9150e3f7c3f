/- GID: Loopx/Goals/DirectionRuns
   generality: I
   source: loopx/control_plane/goals/direction_authority.ts
   digest: Material reads and their acknowledgement over every run of a Goal. -/

import Loopx.Goals.DirectionAdmission
import Loopx.Lib.SnapshotRun
import Mathlib.Tactic.Ring

set_option autoImplicit false
set_option relaxedAutoImplicit false

namespace Loopx.Goals.Direction

open Loopx.Lib.KeyedList
open Loopx.Lib.Fallible (bind_eq_ok ok_bind)
open Loopx.Lib.SnapshotRun
open Loopx.Json (Protocol canonicalAuthorityJson canonicalAuthorityBytes Distinct byteLength)
open Loopx.Authority (Sha256 canonicalAuthoritySha256 isBareSha256 isHexDigit)

/-! ## Runs -/

/-- A commit on the Goal: by a call, by a call of the version that fenced its offers by count and
generation, or by another writer. -/
inductive DirectionAction where
  | call (call : DirectionCall)
  | countedOffer (offer : Offer)
  | other
deriving DecidableEq

/-- The state that the store keeps of a commit. -/
def DirectionState.committed (state : DirectionState) (commit : DirectionCommit) :
    DirectionState :=
  ⟨storedFields commit.next, state.journal ++ [(commit.operationId, .direction commit.result)]⟩

/-- The state after an offer, which leaves the head alone. -/
def DirectionState.offered (state : DirectionState) (offer : Offer) (digest : String) :
    DirectionState :=
  ⟨state.head, state.journal ++
    [(offer.readOperationId, .direction (.offered offer.goalRef offer.agentId offer digest))]⟩

/-- The commits that the store takes over a snapshot. The fields of the direction authority belong
to its calls alone. -/
inductive Step (host : DirectionHost) (observed : Snapshot DirectionState String) :
    DirectionAction → DirectionState → Prop where
  | call {call : DirectionCall} {commit : DirectionCommit}
      (planned : executeDirectionOperation host call observed.value observed.token =
        .ok (some commit)) :
      Step host observed (.call call) (observed.value.committed commit)
  | countedOffer {offer : Offer} {basis : MaterialBasis} {rows : List Receipt} {digest : String}
      (fresh : observed.value.journal.lookup offer.readOperationId = none)
      (unfenced : offer.usageBasisSha256 = none)
      (current : currentMaterial host observed.value.head offer.goalRef offer.fields = .ok basis)
      (read : usage host.dateParse observed.value.head offer.goalRef = .ok rows)
      (count : offer.usageCount = (pairRows rows offer.agentId offer.materialId).length) :
      Step host observed (.countedOffer offer) (observed.value.offered offer digest)
  | other {head : Fields} {operationId : String}
      (fresh : observed.value.journal.lookup operationId = none)
      (scopeKey : AgreeAt "goal_direction_scope" observed.value.head head)
      (registry : AgreeAt "authority_registry" observed.value.head head)
      (receipts : AgreeAt "material_usage_receipts" observed.value.head head)
      (object : (keys head).Nodup) :
      Step host observed .other
        ⟨storedFields head, observed.value.journal ++ [(operationId, .other)]⟩

/-- A commit of a run, between the snapshots on both sides of it. -/
abbrev DirectionStep := Transition (Snapshot DirectionState String) DirectionAction

/-- The Goal has no direction authority yet, and no offer stands in its journal. -/
structure FreshGoal (state : DirectionState) : Prop where
  head : Untouched state.head
  journal : ∀ entry ∈ state.journal, entry.2 = .other

/-! ## How the retained rows advance -/

/-- Some row of the later rows was recorded after all of the earlier ones. -/
def Beyond (dateParse : String → Option Int) (rows rows' : List Receipt) : Prop :=
  ∃ last ∈ rows', Later dateParse rows last

/-- What any number of commits does to a view: the rows of a pair stay, or one was recorded after
all that were there; while nothing was archived, they are only added to. -/
structure Advances (host : DirectionHost) (view view' : DirectionView) : Prop where
  generation : view.scope.generation ≤ view'.scope.generation
  pairs : ∀ agentId materialId,
    pairRows view.rows agentId materialId = pairRows view'.rows agentId materialId ∨
      Beyond host.dateParse (pairRows view.rows agentId materialId)
        (pairRows view'.rows agentId materialId)
  prefixes : view'.scope.generation = view.scope.generation → ∀ agentId materialId,
    pairRows view.rows agentId materialId <+: pairRows view'.rows agentId materialId

section Advance

variable {host : DirectionHost} {view view' view'' : DirectionView} {receipt : Receipt}
  {displaced : Option Receipt} {rows rows' rows'' : List Receipt}
  {dateParse : String → Option Int}

theorem Beyond.ne (h : Beyond dateParse rows rows') : rows ≠ rows' := by
  rintro rfl
  obtain ⟨last, hlast, j, hj, before⟩ := h
  exact lt_irrefl j (before last hlast j hj)

theorem Beyond.trans (h : Beyond dateParse rows rows') (h' : Beyond dateParse rows' rows'') :
    Beyond dateParse rows rows'' := by
  obtain ⟨last, hlast, j, hj, before⟩ := h
  obtain ⟨last', hlast', j', hj', before'⟩ := h'
  refine ⟨last', hlast', j', hj', fun row hrow i hi => ?_⟩
  exact lt_trans (before row hrow i hi) (before' last hlast j hj)

theorem Advances.refl (view : DirectionView) : Advances host view view :=
  ⟨Nat.le_refl _, fun _ _ => Or.inl rfl, fun _ _ _ => List.prefix_rfl⟩

theorem Advances.trans (h : Advances host view view') (h' : Advances host view' view'') :
    Advances host view view'' where
  generation := h.generation.trans h'.generation
  pairs := by
    intro agentId materialId
    rcases h.pairs agentId materialId with same | beyond
    · rw [same]
      exact h'.pairs agentId materialId
    · rcases h'.pairs agentId materialId with same | beyond'
      · rw [← same]
        exact Or.inr beyond
      · exact Or.inr (beyond.trans beyond')
  prefixes := by
    intro same agentId materialId
    have upper := h.generation
    have lower := h'.generation
    exact (h.prefixes (by omega) agentId materialId).trans
      (h'.prefixes (by omega) agentId materialId)

/-- A record leaves the rows of every other pair alone. -/
theorem Retained.pairRows_other (h : Retained rows receipt displaced rows')
    {agentId materialId : String} (other : samePair receipt agentId materialId = false) :
    pairRows rows' agentId materialId = pairRows rows agentId materialId := by
  cases h with
  | appended _ => simp [pairRows, other]
  | @displaced front back oldest split pair _ =>
    have apart : samePair oldest agentId materialId = false := by
      simp only [samePair, Bool.and_eq_true, decide_eq_true_eq] at pair
      rw [samePair, pair.1, pair.2]
      exact other
    simp [pairRows, split, apart, other]

theorem Retained.mem (h : Retained rows receipt displaced rows') : receipt ∈ rows' := by
  cases h <;> simp

theorem Recorded.beyond (h : Recorded host view view' receipt displaced)
    {agentId materialId : String} (pair : samePair receipt agentId materialId = true) :
    Beyond host.dateParse (pairRows view.rows agentId materialId)
      (pairRows view'.rows agentId materialId) := by
  obtain ⟨j, hj, before⟩ := h.later
  refine ⟨receipt, List.mem_filter.mpr ⟨h.retained.mem, pair⟩, j, hj, fun row hrow => ?_⟩
  exact before row (List.mem_filter.mp hrow).1

theorem Recorded.advances (h : Recorded host view view' receipt displaced) :
    Advances host view view' where
  generation := by
    rw [h.generation]
    exact Nat.le_add_right _ _
  pairs := by
    intro agentId materialId
    cases pair : samePair receipt agentId materialId with
    | false => exact Or.inl (h.retained.pairRows_other pair).symm
    | true => exact Or.inr (h.beyond pair)
  prefixes := by
    intro same agentId materialId
    have retained := h.retained
    rw [h.generation] at same
    generalize hrows' : view'.rows = rows' at retained
    cases retained with
    | appended _ =>
      rw [pairRows, pairRows, List.filter_append]
      exact List.prefix_append _ _
    | displaced _ _ _ => simp at same

theorem Performs.advances {goalRef : WireExactGoalRef} {request : DirectionRequest}
    {operationId : String} {journal : List (String × JournalEntry)} {result : DirectionResult}
    (h : Performs host goalRef request operationId journal view result view') :
    Advances host view view' := by
  cases h with
  | configured generation =>
    exact ⟨generation.ge, fun _ _ => Or.inl rfl, fun _ _ _ => List.prefix_rfl⟩
  | disabled generation =>
    exact ⟨generation.ge, fun _ _ => Or.inl rfl, fun _ _ _ => List.prefix_rfl⟩
  | offered => exact Advances.refl view
  | unavailable recorded => exact recorded.advances
  | repeated => exact Advances.refl view
  | recorded _ _ _ _ _ _ recorded => exact recorded.advances

end Advance

/-! ## What a commit leaves -/

/-- The result that the journal holds of a commit. -/
def committedResult (t : DirectionStep) : Option DirectionResult :=
  match t.after.value.journal.getLast? with
  | some (_, .direction result) => some result
  | _ => none

/-- The receipt that an operation retained. -/
def DirectionResult.recorded : DirectionResult → Option Receipt
  | .unavailable _ _ receipt _ => some receipt
  | .acknowledged _ _ true receipt _ => some receipt
  | _ => none

/-- The commit retained an observation of the agent and the material. -/
def RecordsPair (t : DirectionStep) (agentId materialId : String) : Prop :=
  ∃ receipt, (committedResult t).bind DirectionResult.recorded = some receipt ∧
    samePair receipt agentId materialId = true

/-- The commit leaves the offer in the journal, under the read operation that it names. -/
def Offers (t : DirectionStep) (offer : Offer) : Prop :=
  ∃ goalRef agentId digest, t.after.value.journal = t.before.value.journal ++
    [(offer.readOperationId, .direction (.offered goalRef agentId offer digest))]

/-- The commit acknowledges the read operation. It records the read, or finds it recorded. -/
def Acknowledges (host : DirectionHost) (t : DirectionStep) (readId : String) (records : Bool) :
    Prop :=
  ∃ call request goalRef agentId receipt archived, t.action = .call call ∧
    directionRequest host call.request = .ok request ∧
    request.fields.lookup "read_operation_id" = some (.string readId) ∧
    committedResult t = some (.acknowledged goalRef agentId records receipt archived)

/-- The fence that an offer carries is the one of the rows it was made over. -/
def Fenced (host : DirectionHost) (goalRef : WireExactGoalRef) (view : DirectionView)
    (offer : Offer) : Prop :=
  match offer.usageBasisSha256 with
  | none => offer.usageCount = (pairRows view.rows offer.agentId offer.materialId).length
  | some basis =>
    basis = usageBasis host.sha goalRef view.rows offer.agentId offer.materialId

/-- What a step does to a live head. -/
inductive Moves (host : DirectionHost) (goalRef : WireExactGoalRef)
    (observed : Snapshot DirectionState String) (view : DirectionView) :
    DirectionAction → DirectionState → DirectionView → Prop
  | call {call : DirectionCall} {commit : DirectionCommit} {request : DirectionRequest}
      {view' : DirectionView} (parsed : directionRequest host call.request = .ok request)
      (fresh : observed.value.journal.lookup commit.operationId = none)
      (performs : Performs host goalRef request commit.operationId observed.value.journal view
        commit.result view') :
      Moves host goalRef observed view (.call call) (observed.value.committed commit) view'
  | countedOffer {offer : Offer} {digest : String}
      (fresh : observed.value.journal.lookup offer.readOperationId = none)
      (own : offer.goalRef = goalRef) (registered : RegisteredIn view offer)
      (fenced : Fenced host goalRef view offer) :
      Moves host goalRef observed view (.countedOffer offer)
        (observed.value.offered offer digest) view
  | other {head : Fields} {operationId : String}
      (fresh : observed.value.journal.lookup operationId = none) :
      Moves host goalRef observed view .other
        ⟨head, observed.value.journal ++ [(operationId, .other)]⟩ view

section Steps

variable {host : DirectionHost} {goalRef : WireExactGoalRef}
  {observed : Snapshot DirectionState String} {view view' : DirectionView}
  {action : DirectionAction} {next : DirectionState}

/-- A step over a live head leaves a live head, by a move. -/
theorem Step.moves (h : Step host observed action next)
    (live : Live host goalRef observed.value.head view)
    (reads : ReadsBack host.dateParse view.rows) :
    ∃ view', Live host goalRef next.head view' ∧
      Moves host goalRef observed view action next view' := by
  cases h with
  | call planned =>
    obtain ⟨request, calls⟩ := calls_of_execute planned
    obtain ⟨view', live', performs⟩ := calls.performs live reads
    exact ⟨view', live', Moves.call calls.parsed calls.fresh performs⟩
  | @countedOffer offer _ _ _ fresh unfenced current read count =>
    have own := (currentMaterial_eq_ok live current).1
    rw [own] at read
    obtain rfl := Except.ok.inj (live.read.symm.trans read)
    have fenced : Fenced host goalRef view offer := by
      rw [Fenced, unfenced]
      exact count
    exact ⟨view, live, Moves.countedOffer fresh own
      (registeredIn_of_currentMaterial live current) fenced⟩
  | other fresh scopeKey registry receipts object =>
    exact ⟨view, (live.congr scopeKey registry receipts object).stored, Moves.other fresh⟩

theorem Moves.advances (h : Moves host goalRef observed view action next view') :
    Advances host view view' := by
  cases h with
  | call _ _ performs => exact performs.advances
  | countedOffer => exact Advances.refl view
  | other => exact Advances.refl view

private theorem committedResult_committed {commit : DirectionCommit} {t : DirectionStep}
    {state : DirectionState} (after : t.after.value = state.committed commit) :
    committedResult t = some commit.result := by
  rw [committedResult, after]
  simp [DirectionState.committed]

/-- The rows of a pair change only with a record of that pair, and then beyond what they were. -/
theorem Moves.pair (h : Moves host goalRef observed view action next view')
    (token agentId materialId : String) :
    (¬RecordsPair ⟨observed, action, ⟨next, token⟩⟩ agentId materialId ∧
        pairRows view'.rows agentId materialId = pairRows view.rows agentId materialId) ∨
      (RecordsPair ⟨observed, action, ⟨next, token⟩⟩ agentId materialId ∧
        Beyond host.dateParse (pairRows view.rows agentId materialId)
          (pairRows view'.rows agentId materialId)) := by
  have recordedCase : ∀ {receipt : Receipt} {displaced : Option Receipt}
      (_ : Recorded host view view' receipt displaced)
      (_ : (committedResult ⟨observed, action, ⟨next, token⟩⟩).bind DirectionResult.recorded =
        some receipt),
      (¬RecordsPair ⟨observed, action, ⟨next, token⟩⟩ agentId materialId ∧
          pairRows view'.rows agentId materialId = pairRows view.rows agentId materialId) ∨
        (RecordsPair ⟨observed, action, ⟨next, token⟩⟩ agentId materialId ∧
          Beyond host.dateParse (pairRows view.rows agentId materialId)
            (pairRows view'.rows agentId materialId)) := by
    intro receipt displaced recorded result
    cases pair : samePair receipt agentId materialId with
    | false =>
      refine Or.inl ⟨?_, recorded.retained.pairRows_other pair⟩
      rintro ⟨other, hother, same⟩
      rw [result, Option.some.injEq] at hother
      rw [hother, same] at pair
      cases pair
    | true => exact Or.inr ⟨⟨receipt, result, pair⟩, recorded.beyond pair⟩
  have quietCase : ∀ (_ : (committedResult ⟨observed, action, ⟨next, token⟩⟩).bind
      DirectionResult.recorded = none), ¬RecordsPair ⟨observed, action, ⟨next, token⟩⟩ agentId
        materialId := by
    rintro none ⟨receipt, result, _⟩
    rw [none] at result
    cases result
  cases h with
  | @call call commit request view' parsed fresh performs =>
    have result : committedResult
        (⟨observed, .call call, ⟨observed.value.committed commit, token⟩⟩ : DirectionStep) =
          some commit.result := committedResult_committed rfl
    rw [result, Option.bind_some] at recordedCase quietCase
    generalize hresult : commit.result = committed at performs recordedCase quietCase
    cases performs with
    | configured => exact Or.inl ⟨quietCase rfl, rfl⟩
    | disabled => exact Or.inl ⟨quietCase rfl, rfl⟩
    | offered => exact Or.inl ⟨quietCase rfl, rfl⟩
    | repeated => exact Or.inl ⟨quietCase rfl, rfl⟩
    | unavailable recorded => exact recordedCase recorded rfl
    | recorded _ _ _ _ _ _ recorded => exact recordedCase recorded rfl
  | countedOffer =>
    refine Or.inl ⟨quietCase ?_, rfl⟩
    simp [committedResult, DirectionState.offered, DirectionResult.recorded]
  | other =>
    refine Or.inl ⟨quietCase ?_, rfl⟩
    simp [committedResult]

end Steps

/-! ## The history of a run -/

/-- The head is untouched, or live for one instance. -/
def Known (host : DirectionHost) (state : DirectionState) : Prop :=
  Untouched state.head ∨ ∃ goalRef view, Live host goalRef state.head view

/-- One commit, at an instant that `Date.parse` reads back. -/
def TimedStep (host : DirectionHost) (observed : Snapshot DirectionState String)
    (action : DirectionAction) (after : Snapshot DirectionState String) : Prop :=
  Step host observed action after.value ∧ ∀ goalRef rows,
    usage host.dateParse observed.value.head goalRef = .ok rows → ReadsBack host.dateParse rows

/-- A live head stays live for its instance, its rows advance and the journal is kept. -/
def Follows (host : DirectionHost) (before after : Snapshot DirectionState String) : Prop :=
  (∀ goalRef view, Live host goalRef before.value.head view →
    ∃ view', Live host goalRef after.value.head view' ∧ Advances host view view') ∧
  ∀ id entry, before.value.journal.lookup id = some entry →
    after.value.journal.lookup id = some entry

section History

variable {host : DirectionHost} {goalRef : WireExactGoalRef}
  {before after : Snapshot DirectionState String} {view view' : DirectionView}
  {action : DirectionAction}

/-- Over an untouched head only a declaration or another writer commits. -/
theorem Step.untouched {next : DirectionState} (h : Step host before action next)
    (untouched : Untouched before.value.head) :
    Known host next ∧ ∃ id entry, before.value.journal.lookup id = none ∧
      next.journal = before.value.journal ++ [(id, entry)] ∧
      (entry = .other ∨ ∃ goalRef changed digest,
        entry = .direction (.configured goalRef changed digest)) := by
  cases h with
  | @call call commit planned =>
    obtain ⟨request, calls⟩ := calls_of_execute planned
    obtain ⟨goalRef, view, changed, digest, live, result⟩ := calls.declares untouched
    exact ⟨Or.inr ⟨goalRef, view, live⟩, commit.operationId, .direction commit.result,
      calls.fresh, rfl, Or.inr ⟨goalRef, changed, digest, by rw [result]⟩⟩
  | countedOffer _ _ current => exact absurd current (untouched_currentMaterial untouched)
  | @other head operationId fresh scopeKey registry receipts object =>
    have stored : Untouched (storedFields head) :=
      (untouched.congr scopeKey receipts object).congr (agreeAt_stored object _).symm
        (agreeAt_stored object _).symm
        (nodup_keys_of_pairwise (Json.pairwise_canonicalEntries _))
    exact ⟨Or.inl stored, operationId, .other, fresh, rfl, Or.inl rfl⟩

/-- The one entry that a move adds to the journal. An offer is entered under the operation it
names, over the rows it is fenced by. -/
theorem Moves.entry {next : DirectionState}
    (h : Moves host goalRef before view action next view') :
    ∃ id entry, before.value.journal.lookup id = none ∧
      next.journal = before.value.journal ++ [(id, entry)] ∧
      ∀ offeredRef agentId offer digest,
        entry = .direction (.offered offeredRef agentId offer digest) →
          offer.readOperationId = id ∧ offer.goalRef = goalRef ∧ RegisteredIn view offer ∧
            Fenced host goalRef view offer := by
  cases h with
  | @call call commit request view' parsed fresh performs =>
    refine ⟨commit.operationId, .direction commit.result, fresh, rfl, ?_⟩
    intro offeredRef agentId offer digest same
    rw [JournalEntry.direction.injEq] at same
    rw [same] at performs
    cases performs with
    | offered own named registered fence count =>
      refine ⟨named, own, registered, ?_⟩
      rw [Fenced, fence]
  | @countedOffer offer digest fresh own registered fenced =>
    refine ⟨offer.readOperationId, _, fresh, rfl, ?_⟩
    intro offeredRef agentId offer' digest' same
    rw [JournalEntry.direction.injEq, DirectionResult.offered.injEq] at same
    obtain ⟨_, _, rfl, _⟩ := same
    exact ⟨rfl, own, registered, fenced⟩
  | @other head operationId fresh =>
    refine ⟨operationId, .other, fresh, rfl, ?_⟩
    intro _ _ _ _ same
    cases same

private theorem lookup_snoc {journal : List (String × JournalEntry)} {id id' : String}
    {entry entry' : JournalEntry} (h : journal.lookup id = some entry) :
    (journal ++ [(id', entry')]).lookup id = some entry := by
  rw [List.lookup_append, h]
  rfl

theorem TimedStep.known (h : TimedStep host before action after)
    (known : Known host before.value) :
    Known host after.value ∧ Follows host before after := by
  obtain ⟨step, reads⟩ := h
  rcases known with untouched | ⟨goalRef, view, live⟩
  · obtain ⟨known', id, entry, _, journal, _⟩ := step.untouched untouched
    refine ⟨known', fun goalRef view live => ?_, fun id entry held => ?_⟩
    · have absurdScope := live.scope_eq goalRef
      rw [untouched.scope_eq, if_pos rfl] at absurdScope
      cases Except.ok.inj absurdScope
    · rw [journal]
      exact lookup_snoc held
  · obtain ⟨view', live', moves⟩ := step.moves live (reads goalRef _ live.read)
    obtain ⟨id, entry, _, journal, _⟩ := moves.entry
    refine ⟨Or.inr ⟨goalRef, view', live'⟩, fun other view'' live'' => ?_, fun id entry held => ?_⟩
    · obtain ⟨last, liveLast, moves⟩ := step.moves live'' (reads other _ live''.read)
      exact ⟨last, liveLast, moves.advances⟩
    · rw [journal]
      exact lookup_snoc held

theorem Follows.refl (before : Snapshot DirectionState String) : Follows host before before :=
  ⟨fun _ view live => ⟨view, live, Advances.refl view⟩, fun _ _ held => held⟩

theorem Follows.trans {last : Snapshot DirectionState String} (h : Follows host before after)
    (h' : Follows host after last) : Follows host before last := by
  refine ⟨fun goalRef view live => ?_, fun id entry held => h'.2 id entry (h.2 id entry held)⟩
  obtain ⟨view', live', advances⟩ := h.1 goalRef view live
  obtain ⟨view'', live'', advances'⟩ := h'.1 goalRef view' live'
  exact ⟨view'', live'', advances.trans advances'⟩

variable {transitions : List DirectionStep}

theorem follows_of_path (path : Path (TimedStep host) before transitions after)
    (known : Known host before.value) : Known host after.value ∧ Follows host before after := by
  refine ⟨path.invariant (I := fun x => Known host x.value) ?_ known,
    path.related Follows.refl (fun _ _ _ => Follows.trans) (I := fun x => Known host x.value)
      (fun x action y hx hstep => (hstep.known hx)) known⟩
  exact fun x action y hx hstep => (hstep.known hx).1

/-- An offer that stands in the journal was entered by one commit of the run. -/
theorem offered_of_path (path : Path (TimedStep host) before transitions after)
    (fresh : FreshGoal before.value) {id : String} {offeredRef : WireExactGoalRef}
    {agentId digest : String} {offer : Offer}
    (held : after.value.journal.lookup id =
      some (.direction (.offered offeredRef agentId offer digest))) :
    ∃ front t middle view, transitions = front ++ t :: middle ∧ Offers t offer ∧
      Live host offer.goalRef t.before.value.head view ∧ RegisteredIn view offer ∧
      Fenced host offer.goalRef view offer := by
  induction transitions using List.reverseRecOn generalizing after with
  | nil =>
    obtain rfl : before = after := path
    have other := fresh.journal _ (mem_of_lookup held)
    cases other
  | append_singleton front t ih =>
    obtain ⟨last, first, rfl, hstep, rfl⟩ := path_append.mp path
    obtain ⟨known, _⟩ := follows_of_path first (Or.inl fresh.head)
    rcases known with untouched | ⟨goalRef, view, live⟩
    · obtain ⟨_, id', entry, _, journal, other⟩ := hstep.1.untouched untouched
      rw [journal, List.lookup_append] at held
      cases inside : t.before.value.journal.lookup id with
      | some entry' =>
        rw [inside, Option.some_or] at held
        obtain ⟨front', t', middle, view, rfl, rest⟩ := ih first (inside.trans held)
        exact ⟨front', t', middle ++ [t], view, by simp, rest⟩
      | none =>
        rw [inside, Option.none_or, List.lookup_cons] at held
        split at held
        · rcases other with rfl | ⟨_, _, _, rfl⟩
          · cases held
          · cases held
        · cases held
    · obtain ⟨view', live', moves⟩ := hstep.1.moves live (hstep.2 goalRef _ live.read)
      obtain ⟨id', entry, _, journal, own⟩ := moves.entry
      have offers := journal
      rw [journal, List.lookup_append] at held
      cases inside : t.before.value.journal.lookup id with
      | some entry' =>
        rw [inside, Option.some_or] at held
        obtain ⟨front', t', middle, view, rfl, rest⟩ := ih first (inside.trans held)
        exact ⟨front', t', middle ++ [t], view, by simp, rest⟩
      | none =>
        rw [inside, Option.none_or, List.lookup_cons] at held
        split at held
        · obtain rfl := Option.some.inj held
          obtain ⟨rfl, rfl, registered, fenced⟩ := own _ _ _ _ rfl
          exact ⟨front, t, [], view, rfl, ⟨_, _, _, offers⟩, live, registered, fenced⟩
        · cases held

end History

/-! ## The laws of a run -/

/-- The revision under which the head registers a material. -/
def registeredRevision (head : Fields) (materialId : String) : Protocol (Option Json) := do
  let registry ← authorityFields (head.lookup "authority_registry") "authority registry"
  let materials ← authorityFields (registry.lookup "project_materials") "materials"
  let item ← authorityFields (materials.lookup materialId) "registered material"
  .ok (item.lookup "revision")

/-- The enabled scope has the offer's digest, and the material the offer's revision. -/
def OfferedBasis (host : DirectionHost) (state : DirectionState) (offer : Offer) : Prop :=
  (∃ current, scope host.isPrivate host.sha state.head offer.goalRef = .ok (some current) ∧
    current.enabled = true ∧ current.authorityDigest = offer.authorityDigest) ∧
  registeredRevision state.head offer.materialId = .ok (some (.string offer.requiredRevision))

/-- Both readers accept the head, within the limit and in the order of the records. -/
def Accepted (host : DirectionHost) (state : DirectionState) : Prop :=
  ∃ goalRef stored rows, scope host.isPrivate host.sha state.head goalRef = .ok stored ∧
    usage host.dateParse state.head goalRef = .ok rows ∧ rows.length ≤ maxReceipts ∧
    (rows.map (·.receiptId)).Nodup ∧ Increasing host.dateParse rows

/-- Every commit of the run stands at an instant that `Date.parse` reads back. -/
def Timed (host : DirectionHost) (transitions : List DirectionStep) : Prop :=
  ∀ t ∈ transitions, ∀ goalRef rows,
    usage host.dateParse t.before.value.head goalRef = .ok rows → ReadsBack host.dateParse rows

/-- No two documents under the fences of the run share a digest. -/
def FencesApart (host : DirectionHost) (transitions : List DirectionStep) : Prop :=
  ∀ t ∈ transitions, ∀ u ∈ transitions, ∀ goalRef agentId materialId rows rows',
    usage host.dateParse t.before.value.head goalRef = .ok rows →
    usage host.dateParse u.before.value.head goalRef = .ok rows' →
    usageBasis host.sha goalRef rows agentId materialId =
      usageBasis host.sha goalRef rows' agentId materialId →
    canonicalAuthorityBytes (usageBasisJson goalRef rows agentId materialId) =
      canonicalAuthorityBytes (usageBasisJson goalRef rows' agentId materialId)

structure DirectionLaws (host : DirectionHost) (first : Snapshot DirectionState String)
    (transitions : List DirectionStep) : Prop where
  /-- Every head that was ever current is accepted by both readers. -/
  accepted : ∀ snapshot, Occurs first transitions snapshot → Accepted host snapshot.value
  /-- A read operation is recorded at most once. -/
  once : ∀ before t between u after readId,
    transitions = before ++ t :: between ++ u :: after →
      Acknowledges host t readId true → ¬Acknowledges host u readId true
  /-- An acknowledged offer was made in the run and its basis still stands. Either nothing of its
  pair was recorded since, or the read is found recorded and no row changes. -/
  acknowledged : ∀ before u after readId records,
    transitions = before ++ u :: after → Acknowledges host u readId records →
      ∃ front t middle offer, before = front ++ t :: middle ∧ Offers t offer ∧
        offer.readOperationId = readId ∧ OfferedBasis host t.before.value offer ∧
        OfferedBasis host u.before.value offer ∧
        if records then ∀ w ∈ middle, ¬RecordsPair w offer.agentId offer.materialId
        else ∃ rows, usage host.dateParse u.before.value.head offer.goalRef = .ok rows ∧
          usage host.dateParse u.after.value.head offer.goalRef = .ok rows ∧
          ∃ row ∈ rows,
            row.receiptId = readReceiptId host offer.goalRef offer.agentId readId
  /-- A commit leaves the rows of every pair that it does not record. -/
  kept : ∀ t ∈ transitions, ∀ goalRef stored rows,
    scope host.isPrivate host.sha t.before.value.head goalRef = .ok (some stored) →
    usage host.dateParse t.before.value.head goalRef = .ok rows →
      ∃ rows', usage host.dateParse t.after.value.head goalRef = .ok rows' ∧
        ∀ agentId materialId, ¬RecordsPair t agentId materialId →
          pairRows rows' agentId materialId = pairRows rows agentId materialId

section Laws

variable {host : DirectionHost} {goalRef : WireExactGoalRef} {view view' view'' : DirectionView}
  {before after : Snapshot DirectionState String} {first current : Snapshot DirectionState String}
  {transitions : List DirectionStep} {offer : Offer}

theorem offeredBasis_of_live {state : DirectionState}
    (live : Live host offer.goalRef state.head view) (registered : RegisteredIn view offer) :
    OfferedBasis host state offer := by
  refine ⟨⟨view.scope, ?_, registered.enabled, registered.digest⟩, ?_⟩
  · rw [live.scope_eq, if_pos rfl]
  · obtain ⟨material, hm, id, revision, _⟩ := registered.material
    have stored : authorityFields
        ((storedFields (registryFields view.materials)).lookup "project_materials") "materials" =
          .ok (storedFields (view.materials.map fun m => (m.id, m.toJson))) := by
      rw [lookup_registry, authorityFields_canonical]
      exact authorityFields_object _ _
    obtain ⟨_, _, held⟩ := material_reads material (live.held.declared.each material hm).canonical
    rw [registeredRevision, authorityFields_of_canonical live.held.registered, ok_bind, stored,
      ok_bind, ← id, authorityFields_storedMaterial live.held.declared.nodup hm, ok_bind, held,
      revision]

theorem accepted_of_known {state : DirectionState} (known : Known host state) :
    Accepted host state := by
  rcases known with untouched | ⟨goalRef, view, live⟩
  · refine ⟨⟨"", ""⟩, none, [], untouched.scope_eq _, untouched.usage_eq _, Nat.zero_le _,
      List.nodup_nil, List.Pairwise.nil⟩
  · obtain ⟨items, hitems, read, nodup⟩ := usage_eq_ok.mp live.read
    refine ⟨goalRef, some view.scope, view.rows, ?_, live.read, length_le_of_usage live.read,
      nodup, live.increasing⟩
    rw [live.scope_eq, if_pos rfl]

/-- A head is live for one instance only. -/
theorem Live.unique {state : DirectionState} {goalRef' : WireExactGoalRef}
    (live : Live host goalRef state.head view) (live' : Live host goalRef' state.head view') :
    goalRef' = goalRef ∧ view'.scope = view.scope ∧ view'.rows = view.rows := by
  have scope' := live'.scope_eq goalRef'
  rw [if_pos rfl] at scope'
  obtain ⟨rfl, same⟩ := live.scope_eq_ok scope'
  exact ⟨rfl, Option.some.inj same, Except.ok.inj (live'.read.symm.trans live.read)⟩

theorem Stands.fenced (h : Stands host goalRef view offer) : Fenced host goalRef view offer := by
  rw [Stands] at h
  rw [Fenced]
  cases fence : offer.usageBasisSha256 with
  | none =>
    rw [fence] at h
    exact h.2.symm
  | some basis =>
    rw [fence] at h
    exact h

/-- An offer stands only over the very rows of its pair that it was fenced by. -/
theorem pairRows_of_stands (fenced : Fenced host goalRef view offer)
    (stands : Stands host goalRef view' offer) (advances : Advances host view view')
    (apart : usageBasis host.sha goalRef view.rows offer.agentId offer.materialId =
        usageBasis host.sha goalRef view'.rows offer.agentId offer.materialId →
      canonicalAuthorityBytes
          (usageBasisJson goalRef view.rows offer.agentId offer.materialId) =
        canonicalAuthorityBytes
          (usageBasisJson goalRef view'.rows offer.agentId offer.materialId)) :
    pairRows view.rows offer.agentId offer.materialId =
      pairRows view'.rows offer.agentId offer.materialId := by
  rw [Fenced] at fenced
  rw [Stands] at stands
  cases fence : offer.usageBasisSha256 with
  | none =>
    rw [fence] at fenced stands
    obtain ⟨generation, count⟩ := stands
    have same : view'.scope.generation = view.scope.generation := by
      have le := advances.generation
      omega
    have ext := advances.prefixes same offer.agentId offer.materialId
    exact ext.eq_of_length (fenced.symm.trans count.symm)
  | some basis =>
    rw [fence] at fenced stands
    exact pairRows_of_canonical
      ((Json.canonicalAuthorityBytes_eq_iff _ _).mp (apart (fenced.symm.trans stands)))

/-- A record in between moves the pair beyond what it was. -/
theorem Advances.beyond {last : DirectionView} {agentId materialId : String}
    (earlier : Advances host view view')
    (h : Beyond host.dateParse (pairRows view'.rows agentId materialId)
      (pairRows view''.rows agentId materialId)) (later : Advances host view'' last) :
    Beyond host.dateParse (pairRows view.rows agentId materialId)
      (pairRows last.rows agentId materialId) := by
  have reached : Beyond host.dateParse (pairRows view.rows agentId materialId)
      (pairRows view''.rows agentId materialId) := by
    rcases earlier.pairs agentId materialId with same | beyond
    · rw [same]
      exact h
    · exact beyond.trans h
  rcases later.pairs agentId materialId with same | beyond
  · rw [← same]
    exact reached
  · exact reached.trans beyond

theorem path_of_runs (run : Runs (Step host) first transitions current)
    (timed : Timed host transitions) : Path (TimedStep host) first transitions current := by
  have path := Path.strengthen (P := fun t : DirectionStep => ∀ goalRef rows,
    usage host.dateParse t.before.value.head goalRef = .ok rows → ReadsBack host.dateParse rows)
    run.path timed
  exact path

/-- What an acknowledgement is based on. -/
theorem Performs.acknowledged {request : DirectionRequest} {operationId agentId : String}
    {journal : List (String × JournalEntry)} {resultRef : WireExactGoalRef} {records : Bool}
    {receipt : Receipt} {archived : Option Json}
    (h : Performs host goalRef request operationId journal view
      (.acknowledged resultRef agentId records receipt archived) view') :
    ∃ offer offeredRef agentId digest,
      request.fields.lookup "read_operation_id" = some (.string offer.readOperationId) ∧
      journal.lookup offer.readOperationId =
        some (.direction (.offered offeredRef agentId offer digest)) ∧
      RegisteredIn view offer ∧
      if records then Stands host goalRef view offer ∧
          samePair receipt offer.agentId offer.materialId = true
      else view'.rows = view.rows ∧ receipt ∈ view.rows ∧
        receipt.receiptId = readReceiptId host goalRef offer.agentId offer.readOperationId := by
  cases h with
  | @repeated offer _ agentId digest offeredRef asked original registered held identity =>
    exact ⟨offer, offeredRef, agentId, digest, asked, original, registered, rfl, held, identity⟩
  | @recorded offer _ _ _ _ agentId digest offeredRef asked original registered stands same _ _ =>
    have pair : samePair receipt offer.agentId offer.materialId = true := by
      rw [samePair, same.1, same.2]
      simp
    exact ⟨offer, offeredRef, agentId, digest, asked, original, registered, stands, pair⟩

/-- What an acknowledgement finds: the offer in the journal, its basis and its fence. -/
theorem acknowledged_of_step {u : DirectionStep} {readId : String} {records : Bool}
    (step : TimedStep host u.before u.action u.after) (known : Known host u.before.value)
    (acknowledges : Acknowledges host u readId records) :
    ∃ goalRef view offer offeredRef agentId digest, Live host goalRef u.before.value.head view ∧
      offer.readOperationId = readId ∧
      u.before.value.journal.lookup readId =
        some (.direction (.offered offeredRef agentId offer digest)) ∧
      RegisteredIn view offer ∧
      if records then Stands host goalRef view offer ∧
          RecordsPair u offer.agentId offer.materialId
      else usage host.dateParse u.after.value.head goalRef = .ok view.rows ∧
        ∃ row ∈ view.rows,
          row.receiptId = readReceiptId host goalRef offer.agentId readId := by
  obtain ⟨call, request, resultRef, resultAgent, receipt, archived, action, parsed, asked,
    result⟩ := acknowledges
  obtain ⟨hstep, reads⟩ := step
  rcases known with untouched | ⟨goalRef, view, live⟩
  · obtain ⟨_, id, entry, _, journal, other⟩ := hstep.untouched untouched
    rw [committedResult, journal] at result
    rcases other with rfl | ⟨_, _, _, rfl⟩
    · simp at result
    · simp at result
  · obtain ⟨view', live', moves⟩ := hstep.moves live (reads goalRef _ live.read)
    rw [action] at moves
    generalize hnext : u.after.value = next at moves live'
    cases moves with
    | @call _ commit request' _ parsed' fresh performs =>
      obtain rfl := Except.ok.inj (parsed'.symm.trans parsed)
      have recorded := committedResult_committed hnext
      rw [recorded, Option.some.injEq] at result
      rw [result] at performs recorded
      obtain ⟨offer, offeredRef, agentId, digest, asked', original, registered, found⟩ :=
        performs.acknowledged
      have same : offer.readOperationId = readId := by
        rw [asked', Option.some.injEq, Json.string.injEq] at asked
        exact asked
      rw [same] at original
      refine ⟨goalRef, view, offer, offeredRef, agentId, digest, live, same, original, registered,
        ?_⟩
      cases records with
      | true => exact ⟨found.1, receipt, by rw [recorded]; rfl, found.2⟩
      | false =>
        obtain ⟨kept, held, identity⟩ := found
        have read := live'.read
        rw [kept] at read
        exact ⟨read, receipt, held, same ▸ identity⟩

/-- Two moments of a run at which an offer stands have the same rows of its pair, so that nothing
of the pair was recorded from the one to the other. -/
theorem no_record_between {t : DirectionStep} {middle : List DirectionStep}
    {last : Snapshot DirectionState String} (known : Known host before.value)
    (path : Path (TimedStep host) before middle last)
    (live : Live host goalRef before.value.head view)
    (live' : Live host goalRef last.value.head view')
    (same : pairRows view.rows offer.agentId offer.materialId =
      pairRows view'.rows offer.agentId offer.materialId) (ht : t ∈ middle) :
    ¬RecordsPair t offer.agentId offer.materialId := by
  intro records
  obtain ⟨front, back, rfl⟩ := List.append_of_mem ht
  obtain ⟨x, first, rfl, hstep, rest⟩ := path_append.mp path
  obtain ⟨known', toT⟩ := follows_of_path first known
  obtain ⟨known'', _⟩ := hstep.known known'
  obtain ⟨_, fromT⟩ := follows_of_path rest known''
  obtain ⟨viewT, liveT, earlier⟩ := toT.1 goalRef view live
  obtain ⟨viewT', liveT', moves⟩ := hstep.1.moves liveT (hstep.2 goalRef _ liveT.read)
  obtain ⟨viewLast, liveLast, later⟩ := fromT.1 goalRef viewT' liveT'
  have beyond : Beyond host.dateParse (pairRows viewT.rows offer.agentId offer.materialId)
      (pairRows viewT'.rows offer.agentId offer.materialId) := by
    rcases moves.pair t.after.token offer.agentId offer.materialId with
      ⟨quiet, _⟩ | ⟨_, beyond⟩
    · exact absurd records quiet
    · exact beyond
  have moved := earlier.beyond beyond later
  rw [(live'.unique liveLast).2.2, ← same] at moved
  exact moved.ne rfl

private theorem Advances.congr (h : Advances host view view') (scope : view''.scope = view'.scope)
    (rows : view''.rows = view'.rows) : Advances host view view'' := by
  obtain ⟨_, _, _⟩ := view'
  obtain ⟨_, _, _⟩ := view''
  simp only at scope rows
  subst scope rows
  exact ⟨h.generation, h.pairs, h.prefixes⟩

/-- From the offer, or from its first record, to a moment at which the offer stands nothing of its
pair is recorded. -/
theorem no_record_of_stands {middle : List DirectionStep} {last : Snapshot DirectionState String}
    (known : Known host before.value) (path : Path (TimedStep host) before middle last)
    (live : Live host goalRef before.value.head view)
    (live' : Live host goalRef last.value.head view') (fenced : Fenced host goalRef view offer)
    (stands : Stands host goalRef view' offer)
    (apart : usageBasis host.sha goalRef view.rows offer.agentId offer.materialId =
        usageBasis host.sha goalRef view'.rows offer.agentId offer.materialId →
      canonicalAuthorityBytes
          (usageBasisJson goalRef view.rows offer.agentId offer.materialId) =
        canonicalAuthorityBytes
          (usageBasisJson goalRef view'.rows offer.agentId offer.materialId)) :
    ∀ t ∈ middle, ¬RecordsPair t offer.agentId offer.materialId := by
  obtain ⟨viewLast, liveLast, advances⟩ := (follows_of_path path known).2.1 goalRef view live
  obtain ⟨_, scope, rows⟩ := liveLast.unique live'
  have same := pairRows_of_stands fenced stands (advances.congr scope rows) apart
  exact fun t ht => no_record_between known path live live' same ht

variable {front between rest : List DirectionStep} {t u : DirectionStep} {readId : String}

private theorem recorded_once (path : Path (TimedStep host) first
      (front ++ t :: between ++ u :: rest) current) (start : Known host first.value)
    (apart : FencesApart host (front ++ t :: between ++ u :: rest))
    (acknowledges : Acknowledges host t readId true) : ¬Acknowledges host u readId true := by
  intro again
  obtain ⟨hstep, inner, hstep'⟩ := path.between
  have knownT := (path.transition (I := fun x => Known host x.value)
    (fun x action y known step => (step.known known).1) start
    (show t ∈ front ++ t :: between ++ u :: rest by simp)).1
  have segment : Path (TimedStep host) t.before (t :: between) u.before := ⟨rfl, hstep, inner⟩
  obtain ⟨knownU, follows⟩ := follows_of_path segment knownT
  obtain ⟨goalRef, view, offer, _, _, _, live, named, original, _, stands, records⟩ :=
    acknowledged_of_step hstep knownT acknowledges
  obtain ⟨goalRef', view', offer', _, _, _, live', _, original', _, stands', _⟩ :=
    acknowledged_of_step hstep' knownU again
  have sameEntry := (follows.2 _ _ original).symm.trans original'
  obtain rfl : offer = offer' := by
    simp only [Option.some.injEq, JournalEntry.direction.injEq, DirectionResult.offered.injEq]
      at sameEntry
    exact sameEntry.2.2.1
  obtain ⟨viewU, liveU, _⟩ := follows.1 goalRef view live
  obtain ⟨rfl, _, _⟩ := liveU.unique live'
  refine no_record_of_stands knownT segment live live' stands.fenced stands' ?_ t
    List.mem_cons_self records
  exact apart t (by simp) u (by simp) _ _ _ _ _ live.read live'.read

private theorem acknowledged_offer {records : Bool} (path : Path (TimedStep host) first
      (front ++ u :: rest) current) (fresh : FreshGoal first.value)
    (apart : FencesApart host (front ++ u :: rest))
    (acknowledges : Acknowledges host u readId records) :
    ∃ earlier t middle offer, front = earlier ++ t :: middle ∧ Offers t offer ∧
      offer.readOperationId = readId ∧ OfferedBasis host t.before.value offer ∧
      OfferedBasis host u.before.value offer ∧
      if records then ∀ w ∈ middle, ¬RecordsPair w offer.agentId offer.materialId
      else ∃ rows, usage host.dateParse u.before.value.head offer.goalRef = .ok rows ∧
        usage host.dateParse u.after.value.head offer.goalRef = .ok rows ∧
        ∃ row ∈ rows, row.receiptId = readReceiptId host offer.goalRef offer.agentId readId := by
  obtain ⟨x, first', rfl, hstep, _⟩ := path_append.mp path
  obtain ⟨knownU, _⟩ := follows_of_path first' (Or.inl fresh.head)
  obtain ⟨goalRef, view, offer, _, _, _, live, named, original, registered, found⟩ :=
    acknowledged_of_step hstep knownU acknowledges
  obtain ⟨earlier, t, middle, viewT, rfl, offers, liveT, registeredT, fenced⟩ :=
    offered_of_path first' fresh original
  obtain ⟨y, first'', rfl, hstepT, inner⟩ := path_append.mp first'
  obtain ⟨knownT, _⟩ := follows_of_path first'' (Or.inl fresh.head)
  have segment : Path (TimedStep host) t.before (t :: middle) u.before := ⟨rfl, hstepT, inner⟩
  obtain ⟨viewU, liveU, _⟩ := (follows_of_path segment knownT).2.1 offer.goalRef viewT liveT
  obtain ⟨rfl, _, _⟩ := liveU.unique live
  refine ⟨earlier, t, middle, offer, rfl, offers, named, offeredBasis_of_live liveT registeredT,
    offeredBasis_of_live live registered, ?_⟩
  cases records with
  | true =>
    have quiet := no_record_of_stands knownT segment liveT live fenced found.1
      (apart t (by simp) u (by simp) _ _ _ _ _ liveT.read live.read)
    exact fun w hw => quiet w (List.mem_cons_of_mem _ hw)
  | false => exact ⟨view.rows, live.read, found⟩

private theorem kept_of_step (hstep : TimedStep host t.before t.action t.after)
    (known : Known host t.before.value) {stored : DirectionScope} {rows : List Receipt}
    (hscope : scope host.isPrivate host.sha t.before.value.head goalRef = .ok (some stored))
    (read : usage host.dateParse t.before.value.head goalRef = .ok rows) :
    ∃ rows', usage host.dateParse t.after.value.head goalRef = .ok rows' ∧
      ∀ agentId materialId, ¬RecordsPair t agentId materialId →
        pairRows rows' agentId materialId = pairRows rows agentId materialId := by
  rcases known with untouched | ⟨goalRef', view, live⟩
  · rw [untouched.scope_eq] at hscope
    cases Except.ok.inj hscope
  · obtain ⟨rfl, _⟩ := live.scope_eq_ok hscope
    obtain rfl := Except.ok.inj (live.read.symm.trans read)
    obtain ⟨view', live', moves⟩ := hstep.1.moves live (hstep.2 _ _ live.read)
    refine ⟨view'.rows, live'.read, fun agentId materialId quiet => ?_⟩
    rcases moves.pair t.after.token agentId materialId with ⟨_, same⟩ | ⟨records, _⟩
    · exact same
    · exact absurd records quiet

/-- Over every run of configurations, offers and acknowledgements on a fresh Goal, whatever the
clocks say: both readers accept every head; a read is recorded at most once; an acknowledged
offer's basis still stands and nothing of its pair was recorded since; and no commit touches the
rows of another pair. -/
theorem directionRun_laws (host : DirectionHost) (first current : Snapshot DirectionState String)
    (transitions : List DirectionStep) (fresh : FreshGoal first.value)
    (run : Runs (Step host) first transitions current) (timed : Timed host transitions)
    (apart : FencesApart host transitions) : DirectionLaws host first transitions := by
  have path := path_of_runs run timed
  have start : Known host first.value := Or.inl fresh.head
  have keep : ∀ (x : Snapshot DirectionState String) (action : DirectionAction)
      (y : Snapshot DirectionState String), Known host x.value → TimedStep host x action y →
        Known host y.value := fun x action y known step => (step.known known).1
  refine ⟨?_, ?_, ?_, ?_⟩
  · rintro snapshot (rfl | ⟨t, ht, rfl⟩)
    · exact accepted_of_known start
    · exact accepted_of_known (path.transition (I := fun x => Known host x.value) keep start ht).2.2
  · rintro before t between u after readId rfl acknowledges
    exact recorded_once path start apart acknowledges
  · rintro before u after readId records rfl acknowledges
    exact acknowledged_offer path fresh apart acknowledges
  · intro t ht goalRef stored rows hscope read
    obtain ⟨known, step, _⟩ :=
      path.transition (I := fun x => Known host x.value) keep start ht
    exact kept_of_step step known hscope read

end Laws

/-! ## A read of a registered material -/

private def readGoal : WireExactGoalRef := ⟨"goal", "ginst_aaaaaaaaaaaaaaaaaaaaaaaaaaaaaaaa"⟩

private def readContent : String := String.ofList (List.replicate 64 'a')

private def readMaterial : Material where
  id := "brief"
  purpose := "scope"
  topics := ["plan"]
  required := true
  boundary := .string "public"
  sourceRefSha256 := readContent
  revision := "sha256:" ++ readContent

private def readHost : DirectionHost where
  sha := Sha256.node
  dateParse := fun s => if s = "2026-01-01T00:00:00.000Z" then some 1767225600000 else none
  isPrivate := fun _ => false
  ready := fun _ _ => true
  validIdentity := fun _ => true
  readable := fun _ _ _ _ _ => true

private def readDigest : String :=
  authorityDigest readHost.sha readGoal (registryJson [readMaterial])

private def readOffer : Offer :=
  readMaterial.offer readGoal readHost.sha readDigest readContent "agent" "read-1" 12 []

private def readDelivery : String := readOffer.deliveryDigest readHost.sha

private def readSource (observation : Fields) : Fields :=
  [("registered_agents", .array [.string "agent"]), ("legacy_authority_present", .bool false)] ++
    observation

private def readFields (name operationId : String) (actor : Json) (observation own : Fields) :
    Fields :=
  [("operation", .string name), ("goal_ref", readGoal.toJson), ("actor_agent_id", actor),
    ("source", .object (readSource observation)),
    ("observed_at", .string "2026-01-01T00:00:00.000Z"), ("dry_run", .bool false)] ++ own ++
    [("operation_id", .string operationId)]

private def readObservation : Fields :=
  [("revision", .string readMaterial.revision), ("source_ref_sha256", .string readContent),
    ("byte_count", .number (Json.JsNumber.ofNat 12)), ("content_sha256", .string readContent)]

private def configureFields : Fields :=
  readFields "configure" "configure-1" .null []
    [("materials", .array [readMaterial.declaration]),
      ("expected_provider_revision", .string "revision-0")]

private def offerFields (digest : String) : Fields :=
  readFields "offer_read" "read-1" (.string "agent")
    [("material_observation", .object readObservation)]
    [("material_id", .string "brief"), ("required_revision", .string readMaterial.revision),
      ("authority_digest", .string digest), ("source_ref_sha256", .string readContent)]

private def acknowledgeFields (digest : String) : Fields :=
  readFields "acknowledge" "acknowledge-1" (.string "agent") []
    [("read_operation_id", .string "read-1"), ("delivery_digest", .string digest)]

private def readReceiptOf (id : String) : Receipt :=
  ⟨id, "agent", "brief", some readMaterial.revision, "2026-01-01T00:00:00.000Z"⟩

private theorem utf8Size_of_isHexDigit {c : Char} (h : isHexDigit c = true) : c.utf8Size = 1 := by
  have ascii : c.toNat ≤ 127 := by
    simp only [isHexDigit, Bool.or_eq_true, Bool.and_eq_true, decide_eq_true_eq] at h
    omega
  exact Char.utf8Size_eq_one_iff.mpr ascii

/-- A bare digest takes a byte a digit. -/
private theorem utf8ByteSize_bare {digest : String} (h : isBareSha256 digest = true) :
    digest.utf8ByteSize = 64 := by
  obtain ⟨length, digits⟩ : digest.toList.length = 64 ∧ digest.toList.all isHexDigit = true := by
    simpa [isBareSha256] using h
  have size : ∀ c ∈ digest.toList, c.utf8Size = 1 :=
    fun c hc => utf8Size_of_isHexDigit (List.all_eq_true.mp digits c hc)
  rw [← String.ofList_toList (s := digest), Json.utf8ByteSize_ofList, Json.charBytes,
    List.map_congr_left size, List.map_const', List.sum_replicate, length]
  rfl

private theorem toList_readContent : readContent.toList = List.replicate 64 'a' :=
  String.toList_ofList

private theorem isBareSha256_readContent : isBareSha256 readContent = true := by
  rw [isBareSha256, toList_readContent]
  decide

private theorem toList_readRevision :
    ("sha256:" ++ readContent).toList = "sha256:".toList ++ List.replicate 64 'a' := by
  rw [String.toList_append, toList_readContent]

private theorem isEnvelopedSha256_readContent :
    isEnvelopedSha256 ("sha256:" ++ readContent) = true := by
  rw [isEnvelopedSha256, toList_readRevision]
  decide

private theorem exactRef_readGoal : ExactRef readGoal := by
  constructor <;> decide

/-- The texts of the run that no digest enters. -/
private theorem read_texts : Json.byteBound (.object configureFields) ≤ 10000 ∧
    Json.byteBound (.object (offerFields "")) ≤ 10000 ∧
    Json.byteBound (.object (acknowledgeFields "")) ≤ 10000 ∧
    Json.byteBound (registryJson [readMaterial]) ≤ 10000 ∧
    Json.byteBound (.array [(readReceiptOf "").toJson readGoal]) ≤ 5000 ∧
    Json.byteBound (.array [.string "local_private"]) ≤ 200 ∧
    Json.fieldsBound [("goal_id", .string readGoal.goalId), ("agent_id", .string ""),
      ("generated_at", .string "2026-01-01T00:00:00.000Z"), ("authority_registry", .string ""),
      ("receipts", .string ""), ("available_boundaries", .string "")] ≤ 2000 ∧
    isRecordedAt "2026-01-01T00:00:00.000Z" = true ∧
    usageRecordedAt readHost.dateParse [] "2026-01-01T00:00:00.000Z" =
      .ok "2026-01-01T00:00:00.000Z" ∧
    toISOString 1767225600000 = some "2026-01-01T00:00:00.000Z" := by
  decide

private theorem byteBound_offerFields (digest : String) :
    Json.byteBound (.object (offerFields digest)) =
      Json.byteBound (.object (offerFields "")) + 6 * digest.utf8ByteSize := by
  have empty : "".utf8ByteSize = 0 := rfl
  simp only [offerFields, readFields, Json.byteBound, Json.fieldsBound, List.cons_append,
    List.nil_append, empty]
  ring

private theorem byteBound_acknowledgeFields (digest : String) :
    Json.byteBound (.object (acknowledgeFields digest)) =
      Json.byteBound (.object (acknowledgeFields "")) + 6 * digest.utf8ByteSize := by
  have empty : "".utf8ByteSize = 0 := rfl
  simp only [acknowledgeFields, readFields, Json.byteBound, Json.fieldsBound, List.cons_append,
    List.nil_append, empty]
  ring

private theorem byteBound_readReceipt (id : String) :
    Json.byteBound (.array [(readReceiptOf id).toJson readGoal]) =
      Json.byteBound (.array [(readReceiptOf "").toJson readGoal]) + 6 * id.utf8ByteSize := by
  have empty : "".utf8ByteSize = 0 := rfl
  simp only [Receipt.toJson, Receipt.fields, readReceiptOf, Receipt.outcome, Json.byteBound,
    Json.itemsBound, Json.fieldsBound, empty, Option.isSome_some, if_true]
  ring

private theorem read_formed {operation : DirectionOperation} {name operationId : String}
    {actor : Json} {agent : Option String} {observation own : Fields}
    (distinct : Distinct (.object (readFields name operationId actor observation own)))
    (small : byteLength (.object (readFields name operationId actor observation own)) ≤
      inputBytes)
    (named : directionOperation [("operation", .string name)] = .ok operation)
    (known : keys own = operation.fields)
    (acting : requestActor (some actor) = .ok agent) (member : ∀ a ∈ agent, a ∈ ["agent"]) :
    Formed readHost (readFields name operationId actor observation own) (readSource observation)
      operation readGoal ["agent"] agent "2026-01-01T00:00:00.000Z" false where
  distinct := distinct
  small := small
  named := by
    have read : (storedFields (readFields name operationId actor observation own)).lookup
        "operation" = some (.string name) :=
      Json.lookup_canonicalFields ((Json.distinct_object _).mp distinct).1 "operation"
    rw [← named, directionOperation, directionOperation, read]
    rfl
  known := by
    have names : keys (readFields name operationId actor observation own) =
        ["operation", "goal_ref", "actor_agent_id", "source", "observed_at", "dry_run"] ++
          operation.fields ++ ["operation_id"] := by
      rw [← known]
      simp [readFields, keys]
    have optional : "operation_id" ∈ operation.optional := by
      cases operation <;> simp [DirectionOperation.optional]
    rw [directionKeys_eq_ok, names]
    refine ⟨fun key hkey => List.mem_append_left _ hkey, fun key hkey => ?_⟩
    rcases List.mem_append.mp hkey with hkey | hkey
    · exact Or.inl hkey
    · rw [List.mem_singleton.mp hkey]
      exact Or.inr optional
  goal := rfl
  exact := exactRef_readGoal
  valid := rfl
  facts := rfl
  dry := rfl
  registered := by
    have source : Distinct (.object (readSource observation)) :=
      ((Json.distinct_object _).mp distinct).2 ("source", .object (readSource observation))
        (by simp [readFields])
    have nodup := ((Json.distinct_object _).mp source).1
    exact Json.lookup_canonicalFields nodup "registered_agents"
  few := by decide
  tokens := by decide
  apart := by decide
  acting := acting
  member := member
  observed := rfl
  instant := by decide

private theorem isBareSha256_readDigest : isBareSha256 readDigest = true := Sha256.node.bare _

private theorem isBareSha256_readDelivery : isBareSha256 readDelivery = true :=
  Sha256.node.bare _

private theorem formed_configure : Formed readHost configureFields (readSource []) .configure
    readGoal ["agent"] none "2026-01-01T00:00:00.000Z" false := by
  refine read_formed ?_ ?_ (by decide) rfl rfl (by simp)
  · simp [Distinct, Json.DistinctFields, Json.DistinctItems, readFields, readSource, readGoal,
      readMaterial, WireExactGoalRef.toJson, Material.declaration, Material.declarationFields,
      texts, keys]
  · exact ((Json.byteLength_le_byteBound _).trans read_texts.1).trans (by decide)

private theorem formed_offer {digest : String} (h : isBareSha256 digest = true) :
    Formed readHost (offerFields digest)
      (readSource [("material_observation", .object readObservation)]) .offerRead
      readGoal ["agent"] (some "agent") "2026-01-01T00:00:00.000Z" false := by
  refine read_formed ?_ ?_ (by decide) rfl (by decide) (by simp)
  · simp [Distinct, Json.DistinctFields, Json.DistinctItems, readFields, readSource, readGoal,
      readMaterial, readObservation, WireExactGoalRef.toJson, keys]
  · have bound := Json.byteLength_le_byteBound (.object (offerFields digest))
    rw [byteBound_offerFields, utf8ByteSize_bare h] at bound
    have texts := read_texts.2.1
    have room : 10000 + 6 * 64 ≤ inputBytes := by decide
    exact (bound.trans (Nat.add_le_add_right texts _)).trans room

private theorem formed_acknowledge {digest : String} (h : isBareSha256 digest = true) :
    Formed readHost (acknowledgeFields digest) (readSource []) .acknowledge readGoal ["agent"]
      (some "agent") "2026-01-01T00:00:00.000Z" false := by
  refine read_formed ?_ ?_ (by decide) rfl (by decide) (by simp)
  · simp [Distinct, Json.DistinctFields, Json.DistinctItems, readFields, readSource, readGoal,
      WireExactGoalRef.toJson, keys]
  · have bound := Json.byteLength_le_byteBound (.object (acknowledgeFields digest))
    rw [byteBound_acknowledgeFields, utf8ByteSize_bare h] at bound
    have texts := read_texts.2.2.1
    have room : 10000 + 6 * 64 ≤ inputBytes := by decide
    exact (bound.trans (Nat.add_le_add_right texts _)).trans room

private def readRequest (fields observation : Fields) (operation : DirectionOperation)
    (agent : Option String) : DirectionRequest :=
  ⟨storedFields fields, operation, readGoal, storedFields (readSource observation), ["agent"],
    agent, "2026-01-01T00:00:00.000Z", false⟩

/-! The states of the run -/

private def readHead : Fields := [("goal_id", .string "goal")]

private def declaredHead : Fields :=
  setKey (setKey readHead "authority_registry" (registryJson [readMaterial]))
    "goal_direction_scope" ((DirectionScope.mk true readDigest none).toJson readGoal)

private def declaredCommit : DirectionCommit :=
  ⟨"configure-1", declaredHead, .configured readGoal true readDigest⟩

private def readFirst : Snapshot DirectionState String := ⟨⟨readHead, []⟩, "revision-0"⟩

private def declaredState : DirectionState := readFirst.value.committed declaredCommit

private def offerCommit : DirectionCommit :=
  ⟨"read-1", storedFields declaredHead, .offered readGoal "agent" readOffer readDelivery⟩

private def offeredState : DirectionState := declaredState.committed offerCommit

private def readView : DirectionView := ⟨[readMaterial], ⟨true, readDigest, none⟩, []⟩

private theorem untouched_readHead : Untouched readHead := by
  exact ⟨rfl, rfl, by decide⟩

private theorem byteLength_readRegistry : byteLength (registryJson [readMaterial]) ≤ 10000 :=
  (Json.byteLength_le_byteBound _).trans read_texts.2.2.2.1

private theorem declared_readMaterial : Declared readHost.isPrivate [readMaterial] := by
  refine ⟨?_, by decide, List.pairwise_singleton _ _, by decide, by decide, by decide,
    byteLength_readRegistry.trans (by decide)⟩
  intro material hmaterial
  rw [List.mem_singleton] at hmaterial
  subst hmaterial
  exact ⟨by decide, List.mem_cons_self, rfl, by decide, by decide, by decide,
    isEnvelopedSha256_readContent, isBareSha256_readContent, by decide⟩

private theorem live_declaredHead : Live readHost readGoal declaredHead readView := by
  have object : (keys declaredHead).Nodup :=
    nodup_keys_setKey (nodup_keys_setKey untouched_readHead.object _ _) _ _
  have read : usage readHost.dateParse declaredHead readGoal = .ok [] := by
    have none : declaredHead.lookup "material_usage_receipts" = none := rfl
    rw [usage, usageItems, none]
    rfl
  exact live_declared object declared_readMaterial exactRef_readGoal rfl rfl rfl
    rfl read List.Pairwise.nil

private theorem lookup_stored {fields : Fields} (h : Distinct (.object fields)) (key : String) :
    (storedFields fields).lookup key = (fields.lookup key).map canonicalAuthorityJson :=
  Json.lookup_canonicalFields ((Json.distinct_object fields).mp h).1 key

private theorem execute_of_formed {fields observation next : Fields}
    {operation : DirectionOperation} {agent : Option String} {operationId token' : String}
    {state : DirectionState} {result : DirectionResult} {rows : List Receipt}
    (formed : Formed readHost fields (readSource observation) operation readGoal ["agent"] agent
      "2026-01-01T00:00:00.000Z" false) (writes : operation.readOnly = false)
    (named : fields.lookup "operation_id" = some (.string operationId))
    (isName : isToken operationId = true) (fresh : state.journal.lookup operationId = none)
    (unretired : state.head.lookup "goal_acceptance_lifecycle" = none)
    (planned : planOperation readHost (readRequest fields observation operation agent) operationId
      state token' = .ok (next, result))
    (read : usage readHost.dateParse next readGoal = .ok rows)
    (small : byteLength (projectionInput (readRequest fields observation operation agent) next
      rows) ≤ inputBytes) :
    executeDirectionOperation readHost ⟨.object fields, true, true⟩ state token' =
      .ok (some ⟨operationId, next, result⟩) := by
  have id : (storedFields fields).lookup "operation_id" = some (.string operationId) := by
    rw [lookup_stored formed.distinct, named]
    rfl
  have source := ((Json.distinct_object _).mp formed.distinct).2 ("source", _)
    (mem_of_lookup formed.facts)
  have unclaimed : (storedFields (readSource observation)).lookup "legacy_authority_present" =
      some (.bool false) := lookup_stored source _
  rw [executeDirectionOperation, formed.read, ok_bind]
  simp only [writes, Bool.false_eq_true, if_false]
  rw [id, token_eq_ok.mpr ⟨rfl, isName⟩, ok_bind, fresh, if_neg (by simp)]
  exact admittedCommit_of_planned rfl rfl rfl unclaimed unretired planned read small rfl

private theorem distinct_readRegistry : Distinct (registryJson [readMaterial]) :=
  distinct_registry declared_readMaterial.each declared_readMaterial.nodup

private theorem small_projection {request : DirectionRequest} {next : Fields} {registry : Json}
    {rows : List Receipt} (goal : request.goalRef = readGoal)
    (now : request.now = "2026-01-01T00:00:00.000Z")
    (stored : next.lookup "authority_registry" = some registry)
    (hr : byteLength registry ≤ 10000)
    (hrows : byteLength (.array (rows.map fun row => row.toJson readGoal)) ≤ 10000) :
    byteLength (projectionInput request next rows) ≤ inputBytes := by
  have room : 30000 ≤ inputBytes := by decide
  obtain ⟨_, _, _, _, _, array, frame, _⟩ := read_texts
  have empty : "".utf8ByteSize = 0 := rfl
  simp only [Json.fieldsBound, Json.byteBound, empty] at frame
  have boundaries := (Json.byteLength_le_byteBound _).trans array
  have goalId := Json.byteLength_le_byteBound (.string readGoal.goalId)
  have time := Json.byteLength_le_byteBound (.string "2026-01-01T00:00:00.000Z")
  rw [Json.byteBound] at goalId time
  rw [projectionInput, goal, now, stored]
  generalize hagent : String.ofList (List.replicate 128 'a') = agent
  have agentId : byteLength (.string agent) ≤ 770 := by
    have size : agent.utf8ByteSize = 128 := by
      rw [← hagent, Json.utf8ByteSize_ofList, Json.charBytes, List.map_replicate,
        List.sum_replicate]
      rfl
    have bound := Json.byteLength_le_byteBound (.string agent)
    rw [Json.byteBound, size] at bound
    omega
  have first := Json.fieldBytes_le "goal_id" (.string readGoal.goalId)
  have second := Json.fieldBytes_le "agent_id" (.string agent)
  have third := Json.fieldBytes_le "generated_at" (.string "2026-01-01T00:00:00.000Z")
  have fourth := Json.fieldBytes_le "authority_registry" registry
  have fifth := Json.fieldBytes_le "receipts" (.array (rows.map fun row => row.toJson readGoal))
  have sixth := Json.fieldBytes_le "available_boundaries" (.array [.string "local_private"])
  simp only [Option.map_some, Option.toList_some, List.cons_append, List.nil_append,
    Json.byteLength_object, List.map_cons, List.map_nil, List.sum_cons, List.sum_nil,
    List.length_cons, List.length_nil]
  omega

private theorem execute_configure : executeDirectionOperation readHost
    ⟨.object configureFields, true, true⟩ readFirst.value "revision-0" =
      .ok (some declaredCommit) := by
  have reads := lookup_stored formed_configure.distinct
  have materials : policyMaterials readHost.isPrivate
      ((storedFields configureFields).lookup "materials") = .ok [readMaterial] := by
    have declared : configureFields.lookup "materials" =
        some (.array ([readMaterial].map Material.declaration)) := rfl
    rw [reads, policyMaterials_canonical, declared]
    exact policyMaterials_declaration declared_readMaterial
  refine execute_of_formed formed_configure rfl rfl (by decide) rfl (by decide) ?_
    live_declaredHead.read (small_projection rfl rfl rfl byteLength_readRegistry (by decide))
  exact configure_of_untouched untouched_readHead rfl (reads _) rfl materials rfl rfl (reads _)

private theorem registry_declared : (storedFields declaredHead).lookup "authority_registry" =
    some (canonicalAuthorityJson (registryJson [readMaterial])) :=
  Json.lookup_canonicalFields live_declaredHead.object "authority_registry"

private theorem hash_readContent : hash (some (.string readContent)) = .ok readContent := by
  rw [hash, if_pos isBareSha256_readContent]

private theorem execute_offer : executeDirectionOperation readHost
    ⟨.object (offerFields readDigest), true, true⟩ declaredState "revision-1" =
      .ok (some offerCommit) := by
  have formed := formed_offer isBareSha256_readDigest
  have reads := lookup_stored formed.distinct
  have live : Live readHost readGoal declaredState.head readView := live_declaredHead.stored
  have source := ((Json.distinct_object _).mp formed.distinct).2 ("source", _)
    (mem_of_lookup formed.facts)
  have observed := lookup_stored source "material_observation"
  have observation : Distinct (.object readObservation) :=
    ((Json.distinct_object _).mp source).2 ("material_observation", .object readObservation)
      (by simp [readSource])
  have observes := lookup_stored observation
  have facts : authorityFields ((storedFields
      (readSource [("material_observation", .object readObservation)])).lookup
        "material_observation") "actual material read" = .ok (storedFields readObservation) := by
    rw [observed]
    exact authorityFields_object _ _
  have known : directionKeys (storedFields readObservation)
      ["revision", "source_ref_sha256", "byte_count", "content_sha256"] [] = .ok () :=
    directionKeys_stored ((Json.distinct_object _).mp observation).1 (by decide)
  refine execute_of_formed formed rfl rfl (by decide) rfl ?_ ?_ live.read ?_
  · exact Json.lookup_canonicalFields live_declaredHead.object "goal_acceptance_lifecycle"
  · refine offerRead_of_registered live rfl rfl rfl (List.mem_singleton.mpr rfl) (reads _)
      (reads _) (reads _) (reads _) facts (observes _) known (observes _) (observes _) ?_ ?_ rfl
    · rw [observes]
      exact hash_readContent
    · rw [observes]
      decide
  · refine small_projection rfl rfl registry_declared ?_ (by decide)
    rw [Json.byteLength_canonical distinct_readRegistry]
    exact byteLength_readRegistry

/-- The identity of a read is a prefix and hex digits. -/
private theorem readReceiptId_digits : ∃ digits : List Char, digits.length = 24 ∧
    (∀ c ∈ digits, isHexDigit c = true) ∧
    readReceiptId readHost readGoal "agent" "read-1" = "read_" ++ String.ofList digits := by
  rw [readReceiptId, sliced]
  generalize hdigest : readHost.sha.hex _ = digest
  have bare : isBareSha256 digest = true := hdigest ▸ Sha256.node.bare _
  obtain ⟨length, digits⟩ : digest.toList.length = 64 ∧ digest.toList.all isHexDigit = true := by
    simpa [isBareSha256] using bare
  refine ⟨digest.toList.take 24, by rw [List.length_take]; omega, fun c hc => ?_, rfl⟩
  exact List.all_eq_true.mp digits c (List.mem_of_mem_take hc)

private theorem isAlphanum_of_isHexDigit {c : Char} (h : isHexDigit c = true) :
    c.isAlphanum = true := by
  have hex : (48 ≤ c.toNat ∧ c.toNat ≤ 57) ∨ (97 ≤ c.toNat ∧ c.toNat ≤ 102) := by
    simpa [isHexDigit] using h
  obtain ⟨n, hn, rfl⟩ : ∃ n < 103, c = Char.ofNat n :=
    ⟨c.toNat, by omega, (Char.ofNat_toNat c).symm⟩
  interval_cases n <;> revert hex <;> decide

private theorem isToken_readReceiptId :
    isToken (readReceiptId readHost readGoal "agent" "read-1") = true := by
  obtain ⟨digits, length, hex, id⟩ := readReceiptId_digits
  have chars : (readReceiptId readHost readGoal "agent" "read-1").toList =
      'r' :: ("ead_".toList ++ digits) := by
    simp [id]
  rw [isToken, chars]
  have alphanum : ∀ c ∈ digits, c.isAlphanum = true :=
    fun c hc => isAlphanum_of_isHexDigit (hex c hc)
  simp only [List.length_append, length, List.all_append, Bool.and_eq_true, decide_eq_true_eq]
  refine ⟨⟨by decide, by decide⟩, by decide, List.all_eq_true.mpr fun c hc => ?_⟩
  simp [alphanum c hc]

private theorem utf8ByteSize_readReceiptId :
    (readReceiptId readHost readGoal "agent" "read-1").utf8ByteSize = 29 := by
  obtain ⟨digits, length, hex, id⟩ := readReceiptId_digits
  have size : ∀ c ∈ digits, c.utf8Size = 1 := fun c hc => utf8Size_of_isHexDigit (hex c hc)
  have digitBytes : (String.ofList digits).utf8ByteSize = 24 := by
    rw [Json.utf8ByteSize_ofList, Json.charBytes, List.map_congr_left size, List.map_const',
      List.sum_replicate, length]
    rfl
  rw [id, String.utf8ByteSize_append, digitBytes]
  decide

private theorem formed_record : (UsageRecord.mk (readReceiptOf
    (readReceiptId readHost readGoal "agent" "read-1")) "read-1" readDelivery).Formed
      readHost.dateParse readGoal where
  exact := exactRef_readGoal
  operation := show isToken "read-1" = true by decide
  delivery := isBareSha256_readDelivery
  agent := show isToken "agent" = true by decide
  material := show isToken "brief" = true by decide
  id := isToken_readReceiptId
  recorded := read_texts.2.2.2.2.2.2.2.1
  parses := show (readHost.dateParse "2026-01-01T00:00:00.000Z").isSome = true by decide
  revision := by
    intro revision hrevision
    obtain rfl := Option.some.inj hrevision
    exact isEnvelopedSha256_readContent

private theorem lookup_offeredState (key : String) : offeredState.head.lookup key =
    ((declaredHead.lookup key).map canonicalAuthorityJson).map canonicalAuthorityJson := by
  have inner := Json.lookup_canonicalFields live_declaredHead.object key
  have outer := Json.lookup_canonicalFields live_declaredHead.stored.object key
  exact outer.trans (congrArg (Option.map canonicalAuthorityJson) inner)

private theorem byteLength_readReceipt {id : String} (h : id.utf8ByteSize = 29) :
    byteLength (.array [(readReceiptOf id).toJson readGoal]) ≤ 10000 := by
  have bound := Json.byteLength_le_byteBound (.array [(readReceiptOf id).toJson readGoal])
  rw [byteBound_readReceipt, h] at bound
  have texts := read_texts.2.2.2.2.1
  omega

private theorem execute_acknowledge : ∃ commit, executeDirectionOperation readHost
    ⟨.object (acknowledgeFields readDelivery), true, true⟩ offeredState "revision-2" =
      .ok (some commit) := by
  have formed := formed_acknowledge isBareSha256_readDelivery
  have reads := lookup_stored formed.distinct
  have live : Live readHost readGoal offeredState.head readView := live_declaredHead.stored.stored
  have journal : offeredState.journal.lookup readOffer.readOperationId =
      some (.direction (.offered readGoal "agent" readOffer (readOffer.deliveryDigest
        readHost.sha))) := rfl
  have registered : RegisteredIn readView readOffer :=
    ⟨rfl, rfl, readMaterial, List.mem_singleton.mpr rfl, rfl, rfl, rfl⟩
  have bare : ∀ basis ∈ readOffer.usageBasisSha256, isBareSha256 basis = true := by
    intro basis hbasis
    obtain rfl := Option.some.inj hbasis
    exact Sha256.node.bare _
  have timed := read_texts.2.2.2.2.2.2.2.2.1
  have own : (readRequest (acknowledgeFields readDelivery) [] .acknowledge
      (some "agent")).goalRef = readGoal := rfl
  obtain ⟨head, planned, read, registry⟩ := acknowledge_of_stands live own rfl (reads _)
    (reads _) journal rfl registered rfl bare (by decide) (by simp [readView]) timed formed_record
  have size : (readReceiptId readHost readGoal readOffer.agentId
      readOffer.readOperationId).utf8ByteSize = 29 := utf8ByteSize_readReceiptId
  generalize readReceiptId readHost readGoal readOffer.agentId readOffer.readOperationId = id
    at planned read size
  have unretired : offeredState.head.lookup "goal_acceptance_lifecycle" = none := by
    rw [lookup_offeredState]
    rfl
  refine ⟨⟨"acknowledge-1", head, _⟩,
    execute_of_formed formed rfl rfl (by decide) (by decide) unretired planned read ?_⟩
  have stored := registry.trans (lookup_offeredState _)
  refine small_projection rfl rfl stored ?_ (byteLength_readReceipt size)
  rw [Json.byteLength_canonical (Json.canonical_canonicalAuthorityJson _).distinct,
    Json.byteLength_canonical distinct_readRegistry]
  exact byteLength_readRegistry

/-! The run of the three calls -/

private def readTransitions (commit : DirectionCommit) : List DirectionStep :=
  [⟨readFirst, .call ⟨.object configureFields, true, true⟩, ⟨declaredState, "revision-1"⟩⟩,
    ⟨⟨declaredState, "revision-1"⟩, .call ⟨.object (offerFields readDigest), true, true⟩,
      ⟨offeredState, "revision-2"⟩⟩,
    ⟨⟨offeredState, "revision-2"⟩, .call ⟨.object (acknowledgeFields readDelivery), true, true⟩,
      ⟨offeredState.committed commit, "revision-3"⟩⟩]

/-- Calls that each plan over the state before them make a run. -/
private theorem runs_of_calls {host : DirectionHost} {first : Snapshot DirectionState String}
    {one two three : DirectionCall} {a b c : DirectionCommit} {s t u : String}
    (distinct : [first.token, s, t, u].Nodup)
    (declares : executeDirectionOperation host one first.value first.token = .ok (some a))
    (offers : executeDirectionOperation host two (first.value.committed a) s = .ok (some b))
    (acknowledges : executeDirectionOperation host three ((first.value.committed a).committed b) t =
      .ok (some c)) :
    Runs (Step host) first
      [⟨first, .call one, ⟨first.value.committed a, s⟩⟩,
        ⟨⟨first.value.committed a, s⟩, .call two, ⟨(first.value.committed a).committed b, t⟩⟩,
        ⟨⟨(first.value.committed a).committed b, t⟩, .call three,
          ⟨((first.value.committed a).committed b).committed c, u⟩⟩]
      ⟨((first.value.committed a).committed b).committed c, u⟩ := by
  simp only [List.nodup_cons, List.mem_cons, List.not_mem_nil, not_or, or_false] at distinct
  obtain ⟨⟨fs, ft, fu⟩, ⟨st, su⟩, tu, _⟩ := distinct
  have declared : Runs (Step host) first [⟨first, .call one, ⟨first.value.committed a, s⟩⟩]
      ⟨first.value.committed a, s⟩ := by
    refine Runs.start.committed (Or.inl rfl) (Step.call declares) rfl ?_
    rintro snapshot (rfl | ⟨x, hx, rfl⟩)
    · exact Ne.symm fs
    · cases hx
  have offered : Runs (Step host) first [⟨first, .call one, ⟨first.value.committed a, s⟩⟩,
      ⟨⟨first.value.committed a, s⟩, .call two, ⟨(first.value.committed a).committed b, t⟩⟩]
      ⟨(first.value.committed a).committed b, t⟩ := by
    refine declared.committed declared.occurs (Step.call offers) rfl ?_
    rintro snapshot (rfl | ⟨x, hx, rfl⟩)
    · exact Ne.symm ft
    · obtain rfl := List.mem_singleton.mp hx
      exact Ne.symm st
  refine offered.committed offered.occurs (Step.call acknowledges) rfl ?_
  rintro snapshot (rfl | ⟨x, hx, rfl⟩)
  · exact Ne.symm fu
  · rw [List.mem_cons, List.mem_singleton] at hx
    rcases hx with rfl | rfl
    · exact Ne.symm su
    · exact Ne.symm tu

private theorem runs_readTransitions : ∃ commit last,
    Runs (Step readHost) readFirst (readTransitions commit) last := by
  obtain ⟨commit, acknowledged⟩ := execute_acknowledge
  exact ⟨commit, _, runs_of_calls (by decide) execute_configure execute_offer acknowledged⟩

/-- Before each of the three calls no observation is retained. -/
private theorem usage_readTransitions {commit : DirectionCommit} {t : DirectionStep}
    (ht : t ∈ readTransitions commit) {goalRef : WireExactGoalRef} {rows : List Receipt}
    (h : usage readHost.dateParse t.before.value.head goalRef = .ok rows) : rows = [] := by
  have read : ∃ ref, usage readHost.dateParse t.before.value.head ref = .ok [] := by
    simp only [readTransitions, List.mem_cons, List.not_mem_nil, or_false] at ht
    rcases ht with rfl | rfl | rfl
    · exact ⟨readGoal, untouched_readHead.usage_eq readGoal⟩
    · exact ⟨readGoal, live_declaredHead.stored.read⟩
    · exact ⟨readGoal, live_declaredHead.stored.stored.read⟩
  obtain ⟨ref, read⟩ := read
  obtain ⟨items, hitems, each, _⟩ := usage_eq_ok.mp read
  obtain ⟨items', hitems', each', _⟩ := usage_eq_ok.mp h
  obtain rfl := Except.ok.inj (hitems.symm.trans hitems')
  rw [List.forall₂_nil_right_iff] at each
  rwa [each, List.forall₂_nil_left_iff] at each'

private theorem timed_readTransitions (commit : DirectionCommit) :
    Timed readHost (readTransitions commit) := by
  intro t ht goalRef rows read now instant text recorded iso
  obtain rfl := usage_readTransitions ht read
  have instant_eq : instant = 1767225600000 := by
    simp only [recordingInstant, readHost, latestRecorded] at recorded
    by_cases h : now = "2026-01-01T00:00:00.000Z" <;> simp [h] at recorded
    omega
  subst instant_eq
  have text_eq := read_texts.2.2.2.2.2.2.2.2.2
  obtain rfl := Option.some.inj (text_eq.symm.trans iso)
  rfl

/-- A declaration, a read and its acknowledgement. -/
theorem directionRun_laws_read :
    ∃ commit, DirectionLaws readHost readFirst (readTransitions commit) := by
  obtain ⟨commit, last, run⟩ := runs_readTransitions
  refine ⟨commit, directionRun_laws readHost readFirst last (readTransitions commit)
    ⟨untouched_readHead, by simp [readFirst]⟩ run (timed_readTransitions commit) ?_⟩
  intro t ht u hu goalRef agentId materialId rows rows' read read' _
  rw [usage_readTransitions ht read, usage_readTransitions hu read']

end Loopx.Goals.Direction
