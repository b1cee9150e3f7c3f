/- GID: Loopx/Collaboration/ControlRuns
   generality: I
   source: loopx/control_plane/collaboration/request_control.ts
   digest: What any run of operations on one request keeps, and what a repeated request finds. -/

import Loopx.Authority.StoreLog
import Loopx.Collaboration.ControlSteps

set_option autoImplicit false
set_option relaxedAutoImplicit false

namespace Loopx.Collaboration

open Loopx.Lib.KeyedList
open Loopx.Lib.RowLog
open Loopx.Lib.Fallible (bind_eq_ok ok_bind error_bind throwWhen throwWhen_eq_ok)
open Loopx.Authority (Sha256 canonicalAuthoritySha256 isBareSha256 NoCollision)
open Loopx.Json (byteLength_le_byteBound canonicalAuthorityBytes canonicalAuthorityBytes_eq_iff)

/-- A request to operate on the record, with what the host knows of its sender. -/
structure ControlRequest where
  input : Fields
  source : Fields

section

variable (host : ControlHost)

/-- The host stores the entry of an accepted plan; a refusal leaves the entry. -/
def controlStep (entry : Fields) (request : ControlRequest) : Fields :=
  match planRequestControl host entry request.input request.source with
  | .ok plan => plan.entry
  | .error _ => entry

def runControl (entry : Fields) (requests : List ControlRequest) : Fields :=
  requests.foldl (controlStep host) entry

end

section

variable {host : ControlHost} {entry : Fields} {control : Control}

/-! ## The operations read the entry without its control -/

@[simp] theorem controlOperation_withControl (input : Fields) :
    controlOperation (withControl entry control) input = controlOperation entry input := by
  simp only [controlOperation, isConversation_withControl]

private theorem receiverMatches_withControl (source : Fields) :
    receiverMatches host (withControl entry control) source =
      receiverMatches host entry source := by
  unfold receiverMatches
  rw [isConversation_withControl, lookup_withControl "recipient", lookup_withControl "agent_id"]

@[simp] theorem authenticate_withControl (source : Fields) :
    authenticate host (withControl entry control) source = authenticate host entry source := by
  unfold authenticate
  rw [receiverMatches_withControl, isConversation_withControl, lookup_withControl "source_kind",
    lookup_withControl "source_agent_id", lookup_withControl "requester"]

@[simp] theorem requestIdentity_withControl (op : ControlOperation) (input source : Fields) :
    requestIdentity op (withControl entry control) input source =
      requestIdentity op entry input source := by
  simp only [requestIdentity, isConversation_withControl]

@[simp] theorem requestedBasis_withControl (source : Fields) (s : Control) :
    requestedBasis host (withControl entry control) source s =
      requestedBasis host entry source s := by
  unfold requestedBasis
  simp only [requestRevisionDigest_withControl]
  rw [lookup_withControl "request_id"]

/-- A readable record can be shown. -/
theorem requestControlView_ok {s : Control} (read : readRequestControl host entry = .ok s)
    (legacy : LegacyReceipts) : ∃ view, requestControlView host entry legacy = .ok view := by
  obtain ⟨original, _, valid⟩ := valid_of_readRequestControl read
  have declared := valid.declared
  rw [requestControlView, read, ok_bind]
  split
  · next none =>
    rw [List.getLast?_eq_none_iff.mp none] at declared
    cases declared
  · exact ⟨_, rfl⟩

/-! ## Accepted operations -/

/-- An operation the record takes: who sent it, what it does and what it is admitted by. -/
structure Admitted (host : ControlHost) (entry : Fields) (request : ControlRequest) (s : Control)
    (plan : ControlPlan) (op : ControlOperation) (operationId now : String) (after : Control)
    (result : Fields) : Prop where
  operation : controlOperation entry request.input = .ok op
  writes : op ≠ .inspect
  basis : ∃ basis, requestedBasis host entry request.source s = .ok basis
  named : controlId (request.input.lookup "operation_id") "request operation_id" = .ok operationId
  identity : checkIdentity op request.source = .ok ()
  authentic : authenticate host entry request.source = .ok ()
  fresh : ∀ row ∈ s.operations, row.operationId ≠ operationId
  time : timestamp host (request.source.lookup "observed_at") = .ok now
  effect : Effect host entry request.input request.source operationId now s op after result
  count : s.operations.length < operationLimit op
  bytes : recordBytes op entry after ⟨operationId, canonicalAuthoritySha256 host.sha
    (requestIdentity op entry request.input request.source), result⟩ ≤ MAX_RECORD_BYTES
  answer : plan.result = some result
  stored : plan.entry = withControl entry (after.record ⟨operationId,
    canonicalAuthoritySha256 host.sha (requestIdentity op entry request.input request.source),
    result⟩)

/-- A receiver's effects are for Goals. -/
private theorem controlOperation_goal {input : Fields} {op : ControlOperation}
    (h : controlOperation entry input = .ok op) (writes : op = .reserve) :
    isConversation entry = false := by
  unfold controlOperation at h
  split at h
  · cases h
  · obtain ⟨_, profile, h⟩ := bind_eq_ok.mp h
    obtain ⟨_, _, h⟩ := bind_eq_ok.mp h
    obtain rfl := Except.ok.inj h
    rcases ensure_eq_ok.mp profile with goal | ⟨not, _⟩
    · exact Bool.not_eq_eq_eq_not.mp goal
    · exact absurd writes not

private theorem planNew_eq_ok {op : ControlOperation} {input source : Fields}
    {s original next : Control} {operationId requestSha : String} {result : Fields}
    (valid : s.Valid host entry original) (goal : op = .reserve → isConversation entry = false)
    (h : planNew host op entry input source s operationId requestSha = .ok (next, result)) :
    ∃ now after, timestamp host (source.lookup "observed_at") = .ok now ∧
      Effect host entry input source operationId now s op after result ∧
      s.operations.length < operationLimit op ∧
      recordBytes op entry after ⟨operationId, requestSha, result⟩ ≤ MAX_RECORD_BYTES ∧
      next = after.record ⟨operationId, requestSha, result⟩ := by
  obtain ⟨now, time, h⟩ := bind_eq_ok.mp h
  split at h
  · cases h
  · next current latest =>
    obtain ⟨_, _, h⟩ := bind_eq_ok.mp h
    obtain ⟨⟨after, result'⟩, done, h⟩ := bind_eq_ok.mp h
    obtain ⟨_, count, h⟩ := bind_eq_ok.mp h
    obtain ⟨_, bytes, h⟩ := bind_eq_ok.mp h
    obtain ⟨_, _, h⟩ := bind_eq_ok.mp h
    obtain ⟨rfl, rfl⟩ := Prod.mk.inj (Except.ok.inj h)
    exact ⟨now, after, time, applyOperation_effect valid goal latest done, ensure_eq_ok.mp count,
      ensure_eq_ok.mp bytes, rfl⟩

theorem planRequestControl_eq_ok {request : ControlRequest} {s : Control} {plan : ControlPlan}
    (read : readRequestControl host entry = .ok s)
    (planned : planRequestControl host entry request.input request.source = .ok plan) :
    (plan.changed = false ∧ plan.entry = entry) ∨ (plan.changed = true ∧
      ∃ op operationId now after result,
        Admitted host entry request s plan op operationId now after result) := by
  obtain ⟨original, _, valid⟩ := valid_of_readRequestControl read
  obtain ⟨op, operation, planned⟩ := bind_eq_ok.mp planned
  rw [read, ok_bind] at planned
  obtain ⟨basis, hbasis, planned⟩ := bind_eq_ok.mp planned
  split at planned
  · obtain ⟨view, _, planned⟩ := bind_eq_ok.mp planned
    obtain rfl := Except.ok.inj planned
    exact Or.inl ⟨rfl, rfl⟩
  · next writes =>
    obtain ⟨operationId, named, planned⟩ := bind_eq_ok.mp planned
    obtain ⟨_, identity, planned⟩ := bind_eq_ok.mp planned
    obtain ⟨_, authentic, planned⟩ := bind_eq_ok.mp planned
    split at planned
    · obtain ⟨_, _, planned⟩ := bind_eq_ok.mp planned
      obtain ⟨view, _, planned⟩ := bind_eq_ok.mp planned
      obtain rfl := Except.ok.inj planned
      exact Or.inl ⟨rfl, rfl⟩
    · next absent =>
      obtain ⟨⟨next, result⟩, done, planned⟩ := bind_eq_ok.mp planned
      obtain ⟨view, _, planned⟩ := bind_eq_ok.mp planned
      obtain rfl := Except.ok.inj planned
      obtain ⟨now, after, time, effect, count, bytes, rfl⟩ :=
        planNew_eq_ok valid (controlOperation_goal operation) done
      refine Or.inr ⟨rfl, op, operationId, now, after, result, operation, writes, ⟨basis, hbasis⟩,
        named, identity, authentic, fun row mem same => ?_, time, effect, count, bytes, rfl, rfl⟩
      have other := List.find?_eq_none.mp absent row mem
      exact other (decide_eq_true same)

theorem Effect.operations {input source : Fields} {op : ControlOperation}
    {operationId now : String} {s t : Control} {result : Fields}
    (effect : Effect host entry input source operationId now s op t result) :
    t.operations = s.operations := by
  cases effect <;> rfl

/-- The record stays readable under an operation within the limits. -/
private theorem Effect.readback {input source : Fields} {op : ControlOperation}
    {operationId now requestSha : String} {s t : Control} {result : Fields}
    (effect : Effect host entry input source operationId now s op t result)
    (read : readRequestControl host entry = .ok s) (named : IsSafeId operationId)
    (time : IsTime host now) (fresh : ∀ row ∈ s.operations, row.operationId ≠ operationId)
    (count : s.operations.length < operationLimit op)
    (digest : isBareSha256 requestSha = true) :
    readRequestControl host (withControl entry (t.record ⟨operationId, requestSha, result⟩)) =
      .ok (t.record ⟨operationId, requestSha, result⟩) := by
  obtain ⟨original, declared, valid⟩ := valid_of_readRequestControl read
  have limit : operationLimit op ≤ MAX_OPERATIONS := by
    cases op <;> decide
  have settled := effect.valid valid time named
  refine readRequestControl_withControl declared (settled.record ⟨named, digest⟩ ?_ ?_)
  · rw [effect.operations]
    exact count.trans_le limit
  · rw [effect.operations]
    exact fresh

/-- The record after an accepted operation is read back as it was stored. -/
theorem Admitted.read {request : ControlRequest} {s : Control} {plan : ControlPlan}
    {op : ControlOperation} {operationId now : String} {after : Control} {result : Fields}
    (h : Admitted host entry request s plan op operationId now after result)
    (read : readRequestControl host entry = .ok s) :
    readRequestControl host plan.entry = .ok (after.record ⟨operationId,
      canonicalAuthoritySha256 host.sha (requestIdentity op entry request.input request.source),
      result⟩) := by
  rw [h.stored]
  exact h.effect.readback read (controlId_eq_ok.mp h.named).2 (timestamp_eq_ok.mp h.time).2 h.fresh
    h.count (host.sha.bare _)

/-- A new operation within the limits is accepted. -/
theorem planRequestControl_accepts {request : ControlRequest} {s after : Control}
    {op : ControlOperation} {operationId now : String} {current : Revision} {result : Fields}
    (read : readRequestControl host entry = .ok s)
    (operation : controlOperation entry request.input = .ok op) (writes : op ≠ .inspect)
    (basis : ∃ basis, requestedBasis host entry request.source s = .ok basis)
    (named : controlId (request.input.lookup "operation_id") "request operation_id" =
      .ok operationId)
    (identity : checkIdentity op request.source = .ok ())
    (authentic : authenticate host entry request.source = .ok ())
    (fresh : ∀ row ∈ s.operations, row.operationId ≠ operationId)
    (time : timestamp host (request.source.lookup "observed_at") = .ok now)
    (active : checkActive op entry request.source = .ok ())
    (latest : s.revisions.getLast? = some current)
    (done : applyOperation host op entry request.input request.source s current operationId now =
      .ok (after, result))
    (count : s.operations.length < operationLimit op)
    (bytes : recordBytes op entry after ⟨operationId, canonicalAuthoritySha256 host.sha
      (requestIdentity op entry request.input request.source), result⟩ ≤ MAX_RECORD_BYTES) :
    ∃ plan, planRequestControl host entry request.input request.source = .ok plan ∧
      plan.changed = true ∧ plan.entry = withControl entry (after.record ⟨operationId,
        canonicalAuthoritySha256 host.sha (requestIdentity op entry request.input request.source),
        result⟩) ∧ readRequestControl host plan.entry = .ok (after.record ⟨operationId,
          canonicalAuthoritySha256 host.sha (requestIdentity op entry request.input request.source),
          result⟩) := by
  obtain ⟨original, _, valid⟩ := valid_of_readRequestControl read
  obtain ⟨basis, hbasis⟩ := basis
  have effect := applyOperation_effect valid (controlOperation_goal operation) latest done
  have stored := effect.readback read (controlId_eq_ok.mp named).2 (timestamp_eq_ok.mp time).2 fresh
    count (host.sha.bare (canonicalAuthorityBytes
      (requestIdentity op entry request.input request.source)))
  obtain ⟨view, shown⟩ := requestControlView_ok stored (legacyReceipts request.source)
  have absent : s.operations.find? (fun row => decide (row.operationId = operationId)) = none :=
    List.find?_eq_none.mpr fun row mem same => fresh row mem (of_decide_eq_true same)
  have planned : planNew host op entry request.input request.source s operationId
      (canonicalAuthoritySha256 host.sha (requestIdentity op entry request.input request.source)) =
        .ok (after.record ⟨operationId, canonicalAuthoritySha256 host.sha
          (requestIdentity op entry request.input request.source), result⟩, result) := by
    rw [planNew, time, ok_bind, latest]
    simp only [active, done, ok_bind, ensure_of count, ensure_of bytes]
    rw [canonicalAuthoritySha256, stored, ok_bind]
  refine ⟨⟨true, false, some result, none, withControl entry (after.record ⟨operationId,
    canonicalAuthoritySha256 host.sha (requestIdentity op entry request.input request.source),
    result⟩), view⟩, ?_, rfl, rfl, stored⟩
  rw [planRequestControl, operation, ok_bind, read, ok_bind, hbasis, ok_bind, if_neg writes, named,
    ok_bind, identity, ok_bind, authentic, ok_bind, absent]
  simp only [planned, ok_bind]
  rw [canonicalAuthoritySha256, shown, ok_bind]

/-! ## What a run keeps -/

/-- A revision keeps its text and its read time; its assessment is kept once it is made, once a
later revision stands, and once the request is cancelled. -/
def KeepsRevision (s : Control) (i : Nat) (before after : Revision) : Prop :=
  after.text = before.text ∧ (before.readAt.isSome → after.readAt = before.readAt) ∧
    (before.assessment.isSome ∨ i + 1 < s.revisions.length ∨ s.cancellation.isSome →
      after.assessment = before.assessment)

/-- Two objects of one digest, which are the same JSON unless the digest collides. -/
def SameObject (host : ControlHost) (a b : Fields) : Prop :=
  sameJson host (.object a) (.object b) = true ∧
    (NoCollision host.sha [canonicalAuthorityBytes (.object a), canonicalAuthorityBytes (.object b)] →
      (Json.object a).canonicalAuthorityJson = (Json.object b).canonicalAuthorityJson)

theorem sameObject_iff {a b : Fields} :
    SameObject host a b ↔ sameJson host (.object a) (.object b) = true := by
  refine ⟨And.left, fun same => ⟨same, fun collisionFree => ?_⟩⟩
  rw [← canonicalAuthorityBytes_eq_iff]
  exact collisionFree _ List.mem_cons_self _ (List.mem_cons_of_mem _ List.mem_cons_self)
    (of_decide_eq_true same)

/-- A reservation keeps its binding, and its terminal receipt once it is recorded. -/
def KeepsReservation (host : ControlHost) (_ : Nat) (before after : Reservation) : Prop :=
  after.binding = before.binding ∧ after.digest = before.digest ∧
    ∀ recorded ∈ before.terminal, ∃ terminal ∈ after.terminal, SameObject host recorded terminal

/-- A later state of the same record. -/
structure Extends (host : ControlHost) (s t : Control) : Prop where
  requestSha256 : t.requestSha256 = s.requestSha256
  revisions : Kept (KeepsRevision s) s.revisions t.revisions
  reservations : Kept (KeepsReservation host) s.reservations t.reservations
  cancellation : ∀ c ∈ s.cancellation, t.cancellation = some c ∧
    t.revisions.length = s.revisions.length ∧ t.reservations.length = s.reservations.length
  operations : s.operations <+: t.operations

theorem keepsRevision_refl (s : Control) (i : Nat) (row : Revision) : KeepsRevision s i row row :=
  ⟨rfl, fun _ => rfl, fun _ => rfl⟩

theorem keepsReservation_refl (i : Nat) (row : Reservation) : KeepsReservation host i row row :=
  ⟨rfl, rfl, fun recorded known => ⟨recorded, known, sameObject_iff.2 (sameJson_self _)⟩⟩

theorem Extends.refl (s : Control) : Extends host s s where
  requestSha256 := rfl
  revisions := Kept.refl (keepsRevision_refl s) _
  reservations := Kept.refl keepsReservation_refl _
  cancellation _ known := ⟨known, rfl, rfl⟩
  operations := List.prefix_rfl

theorem Extends.trans {s t u : Control} (first : Extends host s t) (second : Extends host t u) :
    Extends host s u where
  requestSha256 := second.requestSha256.trans first.requestSha256
  revisions := by
    refine first.revisions.trans second.revisions fun i a b c _ ab bc => ?_
    have longer := first.revisions.length_le
    refine ⟨bc.1.trans ab.1, fun known => ?_, fun fixed => ?_⟩
    · have same := ab.2.1 known
      rw [bc.2.1 (same ▸ known), same]
    · have same := ab.2.2 fixed
      rw [bc.2.2 ?_, same]
      rcases fixed with known | superseded | cancelled
      · exact Or.inl (same ▸ known)
      · exact Or.inr (Or.inl (superseded.trans_le longer))
      · obtain ⟨cancellation, known⟩ := Option.isSome_iff_exists.mp cancelled
        rw [(first.cancellation cancellation known).1]
        exact Or.inr (Or.inr rfl)
  reservations := by
    refine first.reservations.trans second.reservations fun i a b c _ ab bc => ?_
    refine ⟨bc.1.trans ab.1, bc.2.1.trans ab.2.1, fun recorded known => ?_⟩
    obtain ⟨middle, known', same⟩ := ab.2.2 recorded known
    obtain ⟨terminal, known'', same'⟩ := bc.2.2 middle known'
    exact ⟨terminal, known'', sameObject_iff.2 (decide_eq_true
      ((of_decide_eq_true same.1).trans (of_decide_eq_true same'.1)))⟩
  cancellation c known := by
    obtain ⟨kept, revisions, reservations⟩ := first.cancellation c known
    obtain ⟨kept', revisions', reservations'⟩ := second.cancellation c kept
    exact ⟨kept', revisions'.trans revisions, reservations'.trans reservations⟩
  operations := first.operations.trans second.operations

theorem Extends.textsKept {s t : Control} (h : Extends host s t) :
    TextsKept s.revisions t.revisions :=
  h.revisions.mono fun _ _ _ _ kept => kept.1

theorem Effect.extends {input source : Fields} {op : ControlOperation} {operationId now : String}
    {s t : Control} {result : Fields}
    (effect : Effect host entry input source operationId now s op t result) : Extends host s t := by
  have same : Extends host s s := Extends.refl s
  cases effect with
  | revise normal text uncancelled room =>
    refine { same with revisions := kept_append (keepsRevision_refl s) _ _, cancellation := ?_ }
    rw [uncancelled]
    simp
  | cancel text uncancelled =>
    refine { same with cancellation := ?_ }
    rw [uncancelled]
    simp
  | @read i row found =>
    refine { same with revisions := kept_set (keepsRevision_refl s) found ?_, cancellation := ?_ }
    · refine ⟨rfl, fun known => ?_, fun _ => rfl⟩
      obtain ⟨t, known⟩ := Option.isSome_iff_exists.mp known
      rw [known, Option.getD_some]
    · intro c known
      exact ⟨known, by rw [List.length_set], rfl⟩
  | @assess i row decision reason found latest uncancelled fresh text =>
    refine { same with revisions := kept_set (keepsRevision_refl s) found ?_, cancellation := ?_ }
    · refine ⟨rfl, fun _ => rfl, fun fixed => ?_⟩
      rw [fresh, uncancelled] at fixed
      rcases fixed with known | superseded | cancelled
      · cases known
      · omega
      · cases cancelled
    · rw [uncancelled]
      simp
  | reserve latest goal uncancelled idle adopted room binding revision digest ref fresh =>
    refine { same with
      reservations := kept_append keepsReservation_refl _ _
      cancellation := ?_ }
    rw [uncancelled]
    simp
  | settle found named given summary agrees =>
    refine { same with
      reservations := kept_set keepsReservation_refl found ⟨rfl, rfl, fun recorded known =>
        ⟨_, rfl, sameObject_iff.2 (agrees recorded known)⟩⟩
      cancellation := ?_ }
    intro c known
    exact ⟨known, rfl, by rw [List.length_set]⟩

theorem extends_record (s : Control) (receipt : OperationReceipt) :
    Extends host s (s.record receipt) :=
  { Extends.refl s with operations := List.prefix_append _ _ }

/-- One step leaves the entry, or writes a later state of its record. -/
theorem controlStep_extends {s : Control} (read : readRequestControl host entry = .ok s)
    (request : ControlRequest) :
    ∃ t, readRequestControl host (controlStep host entry request) = .ok t ∧ Extends host s t ∧
      (controlStep host entry request = entry ∨
        ∃ control, controlStep host entry request = withControl entry control) := by
  unfold controlStep
  split
  · next plan planned =>
    rcases planRequestControl_eq_ok read planned with ⟨_, same⟩ | ⟨_, op, id, now, after, result, h⟩
    · rw [same]
      exact ⟨s, read, Extends.refl s, Or.inl rfl⟩
    · exact ⟨_, h.read read, h.effect.extends.trans (extends_record _ _), Or.inr ⟨_, h.stored⟩⟩
  · exact ⟨s, read, Extends.refl s, Or.inl rfl⟩

theorem runControl_extends {s : Control} (read : readRequestControl host entry = .ok s)
    (requests : List ControlRequest) :
    ∃ t, readRequestControl host (runControl host entry requests) = .ok t ∧ Extends host s t ∧
      (runControl host entry requests = entry ∨
        ∃ control, runControl host entry requests = withControl entry control) := by
  induction requests generalizing entry s with
  | nil => exact ⟨s, read, Extends.refl s, Or.inl rfl⟩
  | cons request requests ih =>
    obtain ⟨t, readt, first, shape⟩ := controlStep_extends read request
    obtain ⟨u, readu, later, shape'⟩ := ih readt
    refine ⟨u, readu, first.trans later, ?_⟩
    rw [runControl, List.foldl_cons, ← runControl]
    rcases shape' with same | ⟨control, written⟩
    · rw [same]
      exact shape
    · refine Or.inr ⟨control, ?_⟩
      rw [written]
      rcases shape with same | ⟨before, written'⟩
      · rw [same]
      · rw [written', withControl_withControl]

/-! ## Repeated requests -/

/-- The fields of a source that a repetition shares with its original. -/
def repeatedKeys : List String :=
  ["actor", "actor_agent_id", "actor_recipient", "actor_requester", "amendment", "terminal",
    "requested_basis"]

/-- The same request from the same sender, at any time and in any state of its receiver. -/
structure Repeats (request again : ControlRequest) : Prop where
  input : again.input = request.input
  source : ∀ key ∈ repeatedKeys, again.source.lookup key = request.source.lookup key

/-- What a request is identified by. -/
def requestIdentityOf (entry : Fields) (request : ControlRequest) : Option Json :=
  match controlOperation entry request.input with
  | .ok op => some (requestIdentity op entry request.input request.source)
  | .error _ => none

private theorem find?_operation {receipts : List OperationReceipt} {receipt : OperationReceipt}
    (distinct : (receipts.map OperationReceipt.operationId).Nodup) (mem : receipt ∈ receipts) :
    receipts.find? (fun row => decide (row.operationId = receipt.operationId)) = some receipt := by
  cases found : receipts.find? (fun row => decide (row.operationId = receipt.operationId)) with
  | none => exact absurd (decide_eq_true rfl) (List.find?_eq_none.mp found receipt mem)
  | some row =>
    have picked := List.find?_some found
    have same := of_decide_eq_true picked
    rw [List.inj_on_of_nodup_map distinct (List.mem_of_find?_eq_some found) mem same]

/-- A known operation identifier is answered from its receipt, or refused. -/
private theorem planRequestControl_known {request : ControlRequest} {s : Control}
    {plan : ControlPlan} {receipt : OperationReceipt}
    (read : readRequestControl host entry = .ok s) (mem : receipt ∈ s.operations)
    (named : request.input.lookup "operation_id" = some (.string receipt.operationId))
    (planned : planRequestControl host entry request.input request.source = .ok plan) :
    (plan.changed = false ∧ plan.replayed = true ∧ plan.result = some receipt.result ∧
      plan.entry = entry) ∧ ∃ identity ∈ requestIdentityOf entry request,
        receipt.requestSha256 = canonicalAuthoritySha256 host.sha identity := by
  obtain ⟨original, _, valid⟩ := valid_of_readRequestControl read
  obtain ⟨op, operation, planned⟩ := bind_eq_ok.mp planned
  rw [read, ok_bind] at planned
  obtain ⟨basis, _, planned⟩ := bind_eq_ok.mp planned
  split at planned
  · next inspects =>
    -- an inspection carries its operation and nothing else
    subst inspects
    unfold controlOperation at operation
    split at operation
    · cases operation
    · obtain ⟨_, _, operation⟩ := bind_eq_ok.mp operation
      obtain ⟨_, fields, operation⟩ := bind_eq_ok.mp operation
      obtain rfl := Except.ok.inj operation
      obtain ⟨one, each⟩ := controlKeys_eq_ok.mp fields
      obtain ⟨field, single⟩ := List.length_eq_one_iff.mp one
      have operation := each "operation" List.mem_cons_self
      rw [single, lookup_cons_ite] at operation named
      split at operation
      · next here =>
        rw [← here, if_neg (by decide)] at named
        cases named
      · cases operation
  · obtain ⟨operationId, hid, planned⟩ := bind_eq_ok.mp planned
    obtain ⟨_, _, planned⟩ := bind_eq_ok.mp planned
    obtain ⟨_, _, planned⟩ := bind_eq_ok.mp planned
    obtain rfl : operationId = receipt.operationId := by
      have same := (controlId_eq_ok.mp hid).1.symm.trans named
      exact Json.string.inj (Option.some.inj same)
    rw [find?_operation valid.distinct mem] at planned
    obtain ⟨_, agrees, planned⟩ := bind_eq_ok.mp planned
    obtain ⟨view, _, planned⟩ := bind_eq_ok.mp planned
    obtain rfl := Except.ok.inj planned
    refine ⟨⟨rfl, rfl, rfl, rfl⟩, requestIdentity op entry request.input request.source, ?_, ?_⟩
    · rw [requestIdentityOf, operation]
      rfl
    · exact not_not.mp (throwWhen_eq_ok.mp agrees)

private theorem requestedBasis_kept {source : Fields} {s t : Control}
    {basis : Option (String × Nat × String)} (kept : TextsKept s.revisions t.revisions)
    (h : requestedBasis host entry source s = .ok basis) :
    requestedBasis host entry source t = .ok basis := by
  unfold requestedBasis at h ⊢
  split
  · next none =>
    rw [none] at h
    exact h
  · next value named =>
    split at h
    · next none => exact absurd none named
    · obtain ⟨found, hfound, h⟩ := bind_eq_ok.mp h
      obtain ⟨_, retained, h⟩ := bind_eq_ok.mp h
      obtain ⟨any, request⟩ := ensure_eq_ok.mp retained
      obtain ⟨revision, at_, same⟩ := (Option.any_eq_true _ _).mp any
      obtain ⟨i, number, here⟩ := revisionAt_eq_some.mp at_
      obtain ⟨revision', here', text⟩ := kept i revision here
      have any' : (revisionAt t.revisions found.2.1).any (fun revision =>
          decide (found.2.2 = requestRevisionDigest host entry revision)) = true := by
        refine (Option.any_eq_true _ _).mpr ⟨revision', revisionAt_eq_some.mpr ⟨i, number, here'⟩, ?_⟩
        rw [requestRevisionDigest_congr text]
        exact same
      rw [hfound, ok_bind, ensure_of ⟨any', request⟩, ok_bind]
      exact h

private theorem authenticate_congr {source source' : Fields}
    (same : ∀ key ∈ repeatedKeys, source'.lookup key = source.lookup key) :
    authenticate host entry source' = authenticate host entry source := by
  have actor : source'.lookup "actor" = source.lookup "actor" := same _ (by simp [repeatedKeys])
  have agent : source'.lookup "actor_agent_id" = source.lookup "actor_agent_id" :=
    same _ (by simp [repeatedKeys])
  have recipient : source'.lookup "actor_recipient" = source.lookup "actor_recipient" :=
    same _ (by simp [repeatedKeys])
  have requester : source'.lookup "actor_requester" = source.lookup "actor_requester" :=
    same _ (by simp [repeatedKeys])
  unfold authenticate isSource isReceiver receiverMatches
  rw [actor, agent, recipient, requester]

private theorem requestIdentity_congr {op : ControlOperation} {input source source' : Fields}
    (same : ∀ key ∈ repeatedKeys, source'.lookup key = source.lookup key) :
    requestIdentity op entry input source' = requestIdentity op entry input source := by
  simp only [requestIdentity, same "actor" (by simp [repeatedKeys]),
    same "actor_agent_id" (by simp [repeatedKeys]), same "actor_recipient" (by simp [repeatedKeys]),
    same "actor_requester" (by simp [repeatedKeys]), same "amendment" (by simp [repeatedKeys]),
    same "terminal" (by simp [repeatedKeys])]

private theorem checkIdentity_congr {op : ControlOperation} {source source' : Fields}
    (same : ∀ key ∈ repeatedKeys, source'.lookup key = source.lookup key) :
    checkIdentity op source' = checkIdentity op source := by
  unfold checkIdentity
  rw [same "actor" (by simp [repeatedKeys]), same "amendment" (by simp [repeatedKeys]),
    same "terminal" (by simp [repeatedKeys])]

private theorem requestedBasis_congr {source source' : Fields} {s : Control}
    (same : ∀ key ∈ repeatedKeys, source'.lookup key = source.lookup key) :
    requestedBasis host entry source' s = requestedBasis host entry source s := by
  unfold requestedBasis
  rw [same "requested_basis" (by simp [repeatedKeys])]

/-- A repetition finds the receipt of its original, whatever happened in between. -/
private theorem planRequestControl_repeat {request again : ControlRequest} {s t : Control}
    {plan : ControlPlan} {op : ControlOperation} {operationId now : String}
    {after control : Control} {result : Fields}
    (h : Admitted host entry request s plan op operationId now after result)
    (repeats : Repeats request again)
    (read : readRequestControl host (withControl entry control) = .ok t)
    (texts : TextsKept s.revisions t.revisions)
    (mem : ⟨operationId, canonicalAuthoritySha256 host.sha
      (requestIdentity op entry request.input request.source), result⟩ ∈ t.operations) :
    ∃ answer, planRequestControl host (withControl entry control) again.input again.source =
        .ok answer ∧ answer.changed = false ∧ answer.replayed = true ∧
      answer.result = plan.result ∧ answer.entry = withControl entry control := by
  obtain ⟨original, _, valid⟩ := valid_of_readRequestControl read
  obtain ⟨basis, hbasis⟩ := h.basis
  obtain ⟨view, shown⟩ := requestControlView_ok read (legacyReceipts again.source)
  refine ⟨⟨false, true, some result, none, withControl entry control, view⟩, ?_, rfl, rfl,
    h.answer.symm, rfl⟩
  rw [planRequestControl, repeats.input, controlOperation_withControl, h.operation, ok_bind, read,
    ok_bind, requestedBasis_withControl, requestedBasis_congr repeats.source,
    requestedBasis_kept texts hbasis, ok_bind, if_neg h.writes, h.named, ok_bind,
    checkIdentity_congr repeats.source, h.identity, ok_bind, authenticate_withControl,
    authenticate_congr repeats.source, h.authentic, ok_bind, find?_operation valid.distinct mem]
  simp only [requestIdentity_withControl, requestIdentity_congr repeats.source, ne_eq,
    not_true_eq_false, throwWhen, if_false, ok_bind, shown]

/-! ## The laws of a run -/

/-- The reservation that an operation adds: of the latest revision, adopted by its receiver. -/
def Reserves (host : ControlHost) (entry source : Fields) (s t : Control) : Prop :=
  ∃ current row, s.revisions.getLast? = some current ∧ s.cancellation = none ∧ s.active = none ∧
    (assessmentObservation host entry current
      (legacyReceipts source).assessment).1.map Assessment.decision = some .adopt ∧
    t.reservations = s.reservations ++ [row] ∧ row.terminal = none ∧
    row.binding.lookup "request_revision" = some (natJson current.revision) ∧
    row.binding.lookup "request_digest" =
      some (.string (requestRevisionDigest host entry current))

/-- What one accepted operation does: it is new, reserves only what was adopted, and after a
cancellation only reads and settles. -/
structure StepLaw (host : ControlHost) (entry : Fields) (request : ControlRequest)
    (s t : Control) : Prop where
  extension : Extends host s t
  operation : ∃ receipt, t.operations = s.operations ++ [receipt] ∧
    request.input.lookup "operation_id" = some (.string receipt.operationId) ∧
    ∀ row ∈ s.operations, row.operationId ≠ receipt.operationId
  reserved : t.reservations.length = s.reservations.length ∨
    Reserves host entry request.source s t
  cancelled : s.cancellation.isSome → controlOperation entry request.input = .ok .read ∨
    controlOperation entry request.input = .ok .settle

/-- A request under the identifier of an accepted one finds the original result or is refused: a
repetition finds it, and another request is refused. -/
structure AnsweredOnce (host : ControlHost) (entry : Fields) (request again : ControlRequest)
    (plan : ControlPlan) : Prop where
  once : ∀ answer, planRequestControl host entry again.input again.source = .ok answer →
    answer.changed = false ∧ answer.replayed = true ∧ answer.result = plan.result ∧
      answer.entry = entry
  repeated : Repeats request again → ∃ answer,
    planRequestControl host entry again.input again.source = .ok answer
  refused : ∀ identity ∈ requestIdentityOf entry request,
    ∀ other ∈ requestIdentityOf entry again,
    identity.canonicalAuthorityJson ≠ other.canonicalAuthorityJson →
    NoCollision host.sha [canonicalAuthorityBytes identity, canonicalAuthorityBytes other] →
    controlStep host entry again = entry ∧
      ∃ error, planRequestControl host entry again.input again.source = .error error

private theorem Admitted.law {request : ControlRequest} {s : Control} {plan : ControlPlan}
    {op : ControlOperation} {operationId now : String} {after : Control} {result : Fields}
    (h : Admitted host entry request s plan op operationId now after result) :
    StepLaw host entry request s (after.record ⟨operationId, canonicalAuthoritySha256 host.sha
      (requestIdentity op entry request.input request.source), result⟩) where
  extension := h.effect.extends.trans (extends_record _ _)
  operation := ⟨_, by rw [Control.record, h.effect.operations],
    (controlId_eq_ok.mp h.named).1, h.fresh⟩
  reserved := by
    cases h.effect with
    | reserve latest goal uncancelled idle adopted room binding revision digest ref fresh =>
      exact Or.inr ⟨_, _, latest, uncancelled, idle, adopted, rfl, rfl, revision, digest⟩
    | settle found named given summary agrees => exact Or.inl (List.length_set ..)
    | _ => exact Or.inl rfl
  cancelled closed := by
    rw [h.operation]
    cases h.effect with
    | read found => exact Or.inl rfl
    | settle found named given summary agrees => exact Or.inr rfl
    | revise _ _ uncancelled => rw [uncancelled] at closed; cases closed
    | cancel _ uncancelled => rw [uncancelled] at closed; cases closed
    | assess _ _ uncancelled => rw [uncancelled] at closed; cases closed
    | reserve _ _ uncancelled => rw [uncancelled] at closed; cases closed

private theorem Admitted.answered {request again : ControlRequest} {s : Control}
    {plan : ControlPlan} {op : ControlOperation} {operationId now : String} {after : Control}
    {result : Fields} (h : Admitted host entry request s plan op operationId now after result)
    (read : readRequestControl host entry = .ok s) (back : List ControlRequest)
    (named : again.input.lookup "operation_id" = request.input.lookup "operation_id") :
    AnsweredOnce host (runControl host plan.entry back) request again plan := by
  obtain ⟨t, readt, later, shape⟩ := runControl_extends (h.read read) back
  obtain ⟨control, written⟩ : ∃ control, runControl host plan.entry back =
      withControl entry control := by
    rcases shape with same | ⟨control, written⟩
    · exact ⟨_, same.trans h.stored⟩
    · exact ⟨control, by rw [written, h.stored, withControl_withControl]⟩
  rw [written] at readt ⊢
  have texts := h.effect.extends.textsKept.trans (later.textsKept) (T := SameText)
    fun _ _ _ _ _ ab bc => bc.trans ab
  have mem := later.operations.subset (List.mem_append_right _ List.mem_cons_self)
  have known := (controlId_eq_ok.mp h.named).1
  have own : requestIdentityOf (withControl entry control) request =
      some (requestIdentity op entry request.input request.source) := by
    rw [requestIdentityOf, controlOperation_withControl, h.operation]
    simp only [requestIdentity_withControl]
  constructor
  · intro answer planned
    obtain ⟨⟨unchanged, replayed, answered, same⟩, _⟩ :=
      planRequestControl_known readt mem (named.trans known) planned
    exact ⟨unchanged, replayed, answered.trans h.answer.symm, same⟩
  · intro repeats
    obtain ⟨answer, planned, _⟩ := planRequestControl_repeat h repeats readt texts mem
    exact ⟨answer, planned⟩
  · intro identity hidentity other hother differ collisionFree
    obtain rfl := Option.some.inj (own.symm.trans hidentity)
    cases planned : planRequestControl host (withControl entry control) again.input
        again.source with
    | error error => exact ⟨by rw [controlStep, planned], error, rfl⟩
    | ok answer =>
      obtain ⟨_, found, hfound, same⟩ :=
        planRequestControl_known readt mem (named.trans known) planned
      obtain rfl := Option.some.inj (hother.symm.trans hfound)
      refine absurd ?_ differ
      rw [← canonicalAuthorityBytes_eq_iff]
      exact collisionFree _ List.mem_cons_self _ (List.mem_cons_of_mem _ List.mem_cons_self) same

/-- The receipts of the receiver's host are requests like any other. -/
theorem recordControlledRequestRead_planned {params readback : Fields} {plan : ControlPlan}
    (h : recordControlledRequestRead host entry params = .ok (plan, readback)) :
    ∃ request : ControlRequest,
      planRequestControl host entry request.input request.source = .ok plan := by
  obtain ⟨_, _, h⟩ := bind_eq_ok.mp h
  obtain ⟨revision, _, h⟩ := bind_eq_ok.mp h
  obtain ⟨found, planned, h⟩ := bind_eq_ok.mp h
  obtain ⟨rfl, rfl⟩ := Prod.mk.inj (Except.ok.inj h)
  exact ⟨⟨_, _⟩, planned⟩

theorem recordControlledRequestAssessment_planned {params : Fields} {plan : ControlPlan}
    (h : recordControlledRequestAssessment host entry params = .ok plan) :
    (plan.changed = false ∧ plan.entry = entry) ∨ ∃ request : ControlRequest,
      planRequestControl host entry request.input request.source = .ok plan := by
  obtain ⟨_, _, h⟩ := bind_eq_ok.mp h
  obtain ⟨revision, _, h⟩ := bind_eq_ok.mp h
  obtain ⟨reason, _, h⟩ := bind_eq_ok.mp h
  split at h
  · cases h
  · obtain ⟨_, _, h⟩ := bind_eq_ok.mp h
    obtain ⟨_, _, h⟩ := bind_eq_ok.mp h
    split at h
    · obtain ⟨_, _, h⟩ := bind_eq_ok.mp h
      obtain ⟨view, _, h⟩ := bind_eq_ok.mp h
      obtain rfl := Except.ok.inj h
      exact Or.inl ⟨rfl, rfl⟩
    · exact Or.inr ⟨⟨_, _⟩, h⟩

end

/-- A request for a review, as its receiver's Goal holds it. -/
def reviewBrief : CollaborationBrief where
  purpose := "Review"
  context := "Change"
  constraints := []
  inputs := []
  acceptance := ["Reviewed"]
  returnRequirement := "Findings"

def reviewTime : String := "2026-01-01T00:00:00Z"

def reviewHost : ControlHost where
  sha := Sha256.node
  dateParse s := if s = reviewTime then some 1767225600000 else none

def reviewGoal : Json :=
  .object [("goal_id", .string "g"),
    ("goal_instance_id", .string "ginst_00000000000000000000000000000000")]

def reviewEntry : Fields :=
  [("schema_version", .string "loopx_manager_context_entry_v2"),
    ("request_id", .string "0000000000000000000000000000000000000000000000000000000000000000"),
    ("goal_id", .string "g"), ("goal_ref", reviewGoal), ("agent_id", .string "worker"),
    ("source_id", .string "message"), ("source_kind", .string "peer"),
    ("source_agent_id", .string "manager"), ("brief", reviewBrief.toJson),
    ("delivered_at", .string reviewTime)]

def reviewControl : Control :=
  ⟨requestOriginalDigest reviewHost reviewEntry,
    [⟨1, reviewBrief, "Original request", reviewTime, none, none⟩], none, [], []⟩

theorem reviewBrief_normal : reviewBrief.Normal where
  purpose := by decide
  context := by decide
  constraints := by decide
  inputs := by simp [reviewBrief]
  acceptance := by decide
  observable := by decide
  returnRequirement := by decide
  bytes := (byteLength_le_byteBound _).trans (by decide)

theorem readRequestControl_review :
    readRequestControl reviewHost reviewEntry = .ok reviewControl := by
  have profile : checkProfile reviewEntry = .ok () := by decide
  have brief : normalizeCollaborationBrief (reviewEntry.lookup "brief") = .ok reviewBrief :=
    normalizeCollaborationBrief_toJson reviewBrief_normal
  have request : controlDigest (reviewEntry.lookup "request_id") "request_id" =
      .ok "0000000000000000000000000000000000000000000000000000000000000000" := by decide
  have source : controlText (reviewEntry.lookup "source_id") "source_id" 512 = .ok "message" := by
    decide
  have time : timestamp reviewHost (reviewEntry.lookup "delivered_at") = .ok reviewTime := by
    decide
  have none : reviewEntry.lookup "request_control" = none := by decide
  rw [readRequestControl, initial, profile, ok_bind, request, ok_bind, source, ok_bind, brief,
    ok_bind, time, ok_bind, ok_bind, none]
  rfl

def reviewCancel : ControlRequest where
  input := [("operation", .string "cancel"), ("operation_id", .string "stop"),
    ("expected_revision", natJson 1), ("expected_digest", .string "0"),
    ("reason", .string "No longer needed")]
  source := [("actor", .string "source"), ("actor_agent_id", .string "manager"),
    ("observed_at", .string reviewTime)]

end Loopx.Collaboration
