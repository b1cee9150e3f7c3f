/- GID: Loopx/Collaboration/ControlRecovery
   generality: I
   source: loopx/control_plane/collaboration/request_control.ts,
     loopx/control_plane/collaboration/request_amendment.py
   digest: Whether a record can still be stopped, and its admitted effect settled. -/

import Loopx.Collaboration.ControlRoom

set_option autoImplicit false
set_option relaxedAutoImplicit false

namespace Loopx.Collaboration

open Loopx.Lib.KeyedList
open Loopx.Lib.RowLog
open Loopx.Lib.Fallible (bind_eq_ok ok_bind throwWhen_of_not)
open Loopx.Lib.AsciiCase (isLower_iff)
open Loopx.Authority (canonicalAuthoritySha256 isBareSha256 isHexDigit NoCollision)
open Loopx.Json

/-- The operation by which the host settles a reservation. -/
def settleName (digest : String) : String := "settle:" ++ digest

theorem settleName_injective {a b : String} (h : settleName a = settleName b) : a = b := by
  have lists := congrArg String.toList h
  rw [settleName, settleName, String.toList_append, String.toList_append] at lists
  exact String.toList_inj.mp (List.append_cancel_left lists)

theorem isSafeId_settleName {digest : String} (bare : isBareSha256 digest = true) :
    IsSafeId (settleName digest) := by
  obtain ⟨length, hex⟩ := Bool.and_eq_true_iff.mp bare
  have listed : (settleName digest).toList =
      's' :: (['e', 't', 't', 'l', 'e', ':'] ++ digest.toList) := String.toList_append
  have each : ∀ c ∈ digest.toList, c.isAlphanum = true := by
    intro c mem
    have digit := List.all_eq_true.mp hex c mem
    simp only [isHexDigit, Bool.or_eq_true, Bool.and_eq_true, decide_eq_true_eq] at digit
    change ((c.isUpper || c.isLower) || c.isDigit) = true
    rw [Bool.or_eq_true, Bool.or_eq_true]
    rcases digit with digit | letter
    · exact Or.inr (Char.isDigit_iff_toNat.mpr digit)
    · exact Or.inl (Or.inr (isLower_iff.mpr (by omega)))
  refine isSafeId_of_length ?_ ?_
  · unfold isSafeIdentifier
    rw [listed]
    refine Bool.and_eq_true_iff.mpr ⟨by decide, ?_⟩
    rw [List.all_append, Bool.and_eq_true_iff]
    refine ⟨by decide, List.all_eq_true.mpr fun c mem => ?_⟩
    rw [each c mem, Bool.true_or]
  · have count : digest.toList.length = 64 := of_decide_eq_true length
    rw [listed, List.length_cons, List.length_append, count]
    decide

section

variable {host : ControlHost} {entry : Fields}

/-- The host settles a reservation under its own name, and gives that name to nothing else. -/
structure WellNamed (entry : Fields) (request : ControlRequest) : Prop where
  settles : controlOperation entry request.input = .ok .settle → ∀ digest,
    request.input.lookup "reservation_digest" = some (.string digest) →
      request.input.lookup "operation_id" = some (.string (settleName digest))
  others : ∀ op, controlOperation entry request.input = .ok op → op ≠ .settle → ∀ digest,
    isBareSha256 digest = true →
      request.input.lookup "operation_id" ≠ some (.string (settleName digest))

/-- The Goal of a terminal receipt is a JSON value, and its digest is that of no other Goal. -/
def TerminalFormed (host : ControlHost) (entry : Fields) (request : ControlRequest) : Prop :=
  ∀ terminal ref, request.source.lookup "terminal" = some (.object terminal) →
    terminal.lookup "goal_ref" = some ref → Distinct ref ∧ NoCollision host.sha
      [canonicalAuthorityBytes ref, canonicalAuthorityBytes (orNull (entry.lookup "goal_ref"))]

/-- A record that keeps room for its cancellation and for the settlement of its effect. -/
structure Recoverable (entry : Fields) (s : Control) : Prop where
  bytes : recoverableRecordBytes entry s ≤ MAX_RECORD_BYTES
  count : s.active.isSome → s.operations.length ≤
    if s.cancellation.isSome then MAX_OPERATIONS - 1 else MAX_OPERATIONS - 2
  settled : ∀ row ∈ s.reservations, row.terminal.isSome →
    ∃ receipt ∈ s.operations, receipt.operationId = settleName row.digest
  named : ∀ receipt ∈ s.operations, ∀ digest, isBareSha256 digest = true →
    receipt.operationId = settleName digest →
      ∃ row ∈ s.reservations, row.digest = digest ∧ row.terminal.isSome
  goal : ∀ row ∈ s.reservations,
    row.binding.lookup "goal_ref" = some (orNull (entry.lookup "goal_ref"))

theorem recoverable_withControl {s control : Control} :
    Recoverable (withControl entry control) s ↔ Recoverable entry s := by
  have ref : (withControl entry control).lookup "goal_ref" = entry.lookup "goal_ref" :=
    lookup_withControl "goal_ref"
  have bytes : recoverableRecordBytes (withControl entry control) s =
      recoverableRecordBytes entry s := by
    rw [recoverable_eq, recoverable_eq, withControl_withControl]
  constructor
  · rintro ⟨room, count, settled, named, goal⟩
    rw [bytes] at room
    simp only [ref] at goal
    exact ⟨room, count, settled, named, goal⟩
  · rintro ⟨room, count, settled, named, goal⟩
    refine ⟨bytes.le.trans room, count, settled, named, ?_⟩
    simp only [ref]
    exact goal

/-! ## One step -/

/-- An exact Goal reference is two texts. -/
private theorem distinct_of_goalRef {value : Option Json} {ref : Fields}
    (h : goalRef value = .ok ref) : Distinct (orNull value) := by
  obtain ⟨given, hgiven, h⟩ := bind_eq_ok.mp h
  obtain ⟨_, names, h⟩ := bind_eq_ok.mp h
  obtain ⟨_, exact', h⟩ := bind_eq_ok.mp h
  have same := requireJsonObject_eq_ok.mp hgiven
  obtain ⟨distinct, named⟩ := nodup_of_controlKeys (by decide) names
  rw [same]
  refine (distinct_object given).mpr ⟨distinct, fun field mem => ?_⟩
  have looked := lookup_of_mem distinct mem
  have parsed := ensure_eq_ok.mp exact'
  unfold parseExactGoalRef at parsed
  dsimp only at parsed
  split at parsed
  · next goal goalInstance isGoal isInstance =>
    have name := named field mem
    simp only [List.mem_cons, List.not_mem_nil, or_false] at name
    rcases name with name | name <;> rw [name] at looked
    · rw [Option.some.inj (looked.symm.trans isGoal)]
      trivial
    · rw [Option.some.inj (looked.symm.trans isInstance)]
      trivial
  · cases parsed

/-- What a reserved amendment says of its Goal and of its effect. -/
private structure BindingFields (row : Fields) : Prop where
  distinct : (keys row).Nodup
  goalRef : Distinct (orNull (row.lookup "goal_ref"))
  operationId : ∃ operationId, row.lookup "operation_id" = some (.string operationId)

private theorem bindingFields_of_amendmentBinding {row : Fields} {epoch : Nat}
    {revisions : List Revision}
    (h : amendmentBinding host (some (.object row)) entry revisions epoch = .ok row) :
    BindingFields row := by
  obtain ⟨given, hgiven, h⟩ := bind_eq_ok.mp h
  obtain rfl := Json.object.inj (Option.some.inj (requireJsonObject_eq_ok.mp hgiven))
  obtain ⟨_, names, h⟩ := bind_eq_ok.mp h
  obtain ⟨_, _, h⟩ := bind_eq_ok.mp h
  obtain ⟨ref, href, h⟩ := bind_eq_ok.mp h
  obtain ⟨_, _, h⟩ := bind_eq_ok.mp h
  -- the four digests and the proposal
  obtain ⟨_, _, h⟩ := bind_eq_ok.mp h
  obtain ⟨_, _, h⟩ := bind_eq_ok.mp h
  obtain ⟨_, _, h⟩ := bind_eq_ok.mp h
  obtain ⟨_, _, h⟩ := bind_eq_ok.mp h
  obtain ⟨_, _, h⟩ := bind_eq_ok.mp h
  obtain ⟨operationId, named, _⟩ := bind_eq_ok.mp h
  exact ⟨(nodup_of_controlKeys (by decide) names).1, distinct_of_goalRef href, operationId,
    (controlId_eq_ok.mp named).1⟩

private theorem goalRef_of_summary {row : Fields} {reservation : Reservation}
    (h : requestTerminalSummary host (some (.object row)) reservation = .ok row) :
    ∃ ref, row.lookup "goal_ref" = some ref ∧
      sameJson host ref (orNull (reservation.binding.lookup "goal_ref")) = true := by
  obtain ⟨given, hgiven, h⟩ := bind_eq_ok.mp h
  obtain rfl := Json.object.inj (Option.some.inj (requireJsonObject_eq_ok.mp hgiven))
  obtain ⟨_, names, h⟩ := bind_eq_ok.mp h
  obtain ⟨_, matched, _⟩ := bind_eq_ok.mp h
  obtain ⟨_, each⟩ := controlKeys_eq_ok.mp names
  obtain ⟨ref, known⟩ := Option.isSome_iff_exists.mp (each "goal_ref" (by decide))
  obtain ⟨_, _, same, _⟩ := ensure_eq_ok.mp matched
  rw [known] at same
  exact ⟨ref, known, same⟩

/-- The Goal of a receipt is as long as the one of its reservation. -/
private theorem byteLength_goalRef {request : ControlRequest} {row : Reservation}
    {terminal : Fields} {i : Nat} {revisions : List Revision}
    (formed : TerminalFormed host entry request)
    (given : request.source.lookup "terminal" = some (.object terminal))
    (summary : requestTerminalSummary host (some (.object terminal)) row = .ok terminal)
    (valid : row.Valid host entry revisions i)
    (goal : row.binding.lookup "goal_ref" = some (orNull (entry.lookup "goal_ref"))) :
    byteLength (orNull (terminal.lookup "goal_ref")) ≤
      byteLength (orNull (row.binding.lookup "goal_ref")) := by
  obtain ⟨ref, known, same⟩ := goalRef_of_summary summary
  obtain ⟨distinct, collisionFree⟩ := formed terminal ref given known
  have bound : Distinct (orNull (row.binding.lookup "goal_ref")) :=
    (bindingFields_of_amendmentBinding valid.binding).goalRef
  have twice : orNull (some (orNull (entry.lookup "goal_ref"))) =
      orNull (entry.lookup "goal_ref") := rfl
  rw [goal, twice] at same bound ⊢
  have bytes := collisionFree _ List.mem_cons_self _ (List.mem_cons_of_mem _ List.mem_cons_self)
    (of_decide_eq_true same)
  have canonical := (canonicalAuthorityBytes_eq_iff _ _).mp bytes
  rw [known]
  change byteLength ref ≤ byteLength (orNull (entry.lookup "goal_ref"))
  rw [← byteLength_canonical distinct, canonical, byteLength_canonical bound]

section

variable {request : ControlRequest} {s after : Control} {plan : ControlPlan}
  {op : ControlOperation} {operationId now requestSha : String} {result : Fields}

private theorem byteLength_settleName {digest : String} (bare : isBareSha256 digest = true) :
    byteLength (.string (settleName digest)) = 73 := by
  obtain ⟨length, _⟩ := Bool.and_eq_true_iff.mp bare
  have count : digest.toList.length = 64 := of_decide_eq_true length
  rw [byteLength_safeId_eq (isSafeId_settleName bare), settleName, String.toList_append, List.length_append, count]
  rfl

/-- The new receipt stands beside the older ones. -/
private theorem mem_record {receipt row : OperationReceipt} :
    row ∈ (s.record receipt).operations ↔ row ∈ s.operations ∨ row = receipt := by
  rw [Control.record, List.mem_append, List.mem_singleton]

/-- An operation that reserves nothing and settles nothing is admitted by what it leaves. -/
private theorem Recoverable.keeps (h : Recoverable entry s)
    (bytes : recoverableRecordBytes entry (after.record ⟨operationId, requestSha, result⟩) ≤
      MAX_RECORD_BYTES)
    (count : after.active.isSome → s.operations.length + 1 ≤
      if after.cancellation.isSome then MAX_OPERATIONS - 1 else MAX_OPERATIONS - 2)
    (operations : after.operations = s.operations)
    (reservations : ∃ added, after.reservations = s.reservations ++ added ∧ ∀ row ∈ added,
      row.terminal = none ∧ row.binding.lookup "goal_ref" = some (orNull (entry.lookup "goal_ref")))
    (other : ∀ digest, isBareSha256 digest = true → operationId ≠ settleName digest) :
    Recoverable entry (after.record ⟨operationId, requestSha, result⟩) := by
  obtain ⟨added, grown, fresh⟩ := reservations
  refine ⟨bytes, fun active => ?_, fun row mem known => ?_, fun receipt mem digest bare name => ?_,
    fun row mem => ?_⟩
  · rw [Control.record, List.length_append, List.length_singleton, operations]
    exact count active
  · change row ∈ after.reservations at mem
    rw [grown] at mem
    rcases List.mem_append.mp mem with old | new
    · obtain ⟨receipt, there, name⟩ := h.settled row old known
      exact ⟨receipt, mem_record.2 (Or.inl (operations ▸ there)), name⟩
    · rw [(fresh row new).1] at known
      cases known
  · rcases mem_record.1 mem with old | rfl
    · obtain ⟨row, there, named⟩ := h.named receipt (operations ▸ old) digest bare name
      refine ⟨row, ?_, named⟩
      change row ∈ after.reservations
      rw [grown]
      exact List.mem_append_left _ there
    · exact absurd name (other digest bare)
  · change row ∈ after.reservations at mem
    rw [grown] at mem
    rcases List.mem_append.mp mem with old | new
    · exact h.goal row old
    · exact (fresh row new).2

/-- A settlement fills the room kept for it. -/
private theorem Recoverable.settles {i : Nat} {row : Reservation} {terminal : Fields}
    {original : Control} (h : Recoverable entry s) (valid : s.Valid host entry original)
    (found : s.reservations[i]? = some row) (unsettled : row.terminal = none)
    (smaller : byteLength (.object terminal) ≤ byteLength (.object (worstTerminal row)))
    (digest : isBareSha256 requestSha = true) :
    byteLength (.object (withControl entry
        (settledRecord s i row terminal (settleName row.digest) requestSha))) ≤ MAX_RECORD_BYTES ∧
      Recoverable entry (settledRecord s i row terminal (settleName row.digest) requestSha) := by
  have bare : isBareSha256 row.digest = true := by
    rw [(valid.reservations.2 i row found).digest]
    exact host.sha.bare _
  obtain ⟨stored, kept⟩ := @recoverable_settle entry s i row terminal _ requestSha valid.ordered
    found unsettled smaller ((byteLength_settleName bare).le.trans (by decide)) digest
  have inside : i < s.reservations.length := (List.getElem?_eq_some_iff.mp found).1
  have settledRow : (⟨row.binding, row.digest, some terminal⟩ : Reservation) ∈
      (settledRecord s i row terminal (settleName row.digest) requestSha).reservations :=
    List.mem_of_getElem? (List.getElem?_set_self inside)
  refine ⟨stored.trans h.bytes, kept.trans h.bytes, fun active => ?_, fun r mem known => ?_,
    fun receipt mem name bare' same => ?_, fun r mem => ?_⟩
  · rw [active_settle valid.ordered found unsettled (t := settledRecord s i row terminal
      (settleName row.digest) requestSha) rfl] at active
    cases active
  · obtain ⟨j, there⟩ := List.getElem?_of_mem mem
    rcases getElem?_set_cases there with ⟨_, rfl⟩ | ⟨_, there⟩
    · exact ⟨_, mem_record.2 (Or.inr rfl), rfl⟩
    · obtain ⟨receipt, old, same⟩ := h.settled r (List.mem_of_getElem? there) known
      exact ⟨receipt, mem_record.2 (Or.inl old), same⟩
  · rcases mem_record.1 mem with old | rfl
    · obtain ⟨r, there, same', known⟩ := h.named receipt old name bare' same
      obtain ⟨j, there⟩ := List.getElem?_of_mem there
      refine ⟨r, List.mem_of_getElem? (i := j) ?_, same', known⟩
      change (s.reservations.set i _)[j]? = some r
      rw [List.getElem?_set_ne, there]
      rintro rfl
      rw [Option.some.inj (there.symm.trans found), unsettled] at known
      cases known
    · exact ⟨_, settledRow, settleName_injective same, rfl⟩
  · obtain ⟨j, there⟩ := List.getElem?_of_mem mem
    rcases getElem?_set_cases there with ⟨_, rfl⟩ | ⟨_, there⟩
    · exact h.goal row (List.mem_of_getElem? found)
    · exact h.goal r (List.mem_of_getElem? there)

/-- Every operation the record takes leaves it recoverable. -/
private theorem Admitted.recoverable (admitted : Admitted host entry request s plan op operationId
      now after result) {original : Control} (valid : s.Valid host entry original)
    (named : WellNamed entry request) (formed : TerminalFormed host entry request)
    (h : Recoverable entry s) :
    Recoverable entry (after.record ⟨operationId, canonicalAuthoritySha256 host.sha
      (requestIdentity op entry request.input request.source), result⟩) := by
  obtain ⟨operation, _, _, identifier, _, _, fresh, _, effect, count, bytes, _, _⟩ := admitted
  obtain ⟨given, safe⟩ := controlId_eq_ok.mp identifier
  have other : op ≠ .settle → ∀ digest, isBareSha256 digest = true →
      operationId ≠ settleName digest := by
    rintro different digest bare rfl
    exact named.others op operation different digest bare given
  have same : after.operations = s.operations := effect.operations
  have bare := host.sha.bare
    (canonicalAuthorityBytes (requestIdentity op entry request.input request.source))
  have within : ∀ cancelled : Bool, s.operations.length < MAX_OPERATIONS - 2 →
      s.operations.length + 1 ≤
        if cancelled then MAX_OPERATIONS - 1 else MAX_OPERATIONS - 2 := by
    intro cancelled room
    split <;> omega
  cases effect with
  | revise normal text uncancelled room =>
    exact h.keeps bytes (fun _ => within _ count) same ⟨[], (List.append_nil _).symm, by simp⟩
      (other (by decide))
  | cancel text uncancelled =>
    exact h.keeps bytes (fun _ => count) same ⟨[], (List.append_nil _).symm, by simp⟩
      (other (by decide))
  | read found =>
    exact h.keeps bytes (fun _ => within _ count) same ⟨[], (List.append_nil _).symm, by simp⟩
      (other (by decide))
  | assess found latest uncancelled unassessed text =>
    exact h.keeps bytes (fun _ => within _ count) same ⟨[], (List.append_nil _).symm, by simp⟩
      (other (by decide))
  | @reserve current bound latest goal uncancelled idle adopted room binding revision digest ref =>
    have active : Control.active { s with reservations := s.reservations ++
        [⟨bound, canonicalAuthoritySha256 host.sha (.object bound), none⟩] } =
        some ⟨bound, canonicalAuthoritySha256 host.sha (.object bound), none⟩ := by
      rw [Control.active] at idle ⊢
      rw [List.find?_append, idle]
      rfl
    unfold recordBytes at bytes
    rw [active] at bytes
    have weighed := fun requestSha => @recoverable_reserve entry { s with
      reservations := s.reservations ++
        [⟨bound, canonicalAuthoritySha256 host.sha (.object bound), none⟩] } _ operationId requestSha
          uncancelled active rfl
    refine h.keeps ((weighed _).trans bytes) (fun _ => within _ count) same ⟨_, rfl, fun row mem => ?_⟩
      (other (by decide))
    obtain rfl := List.mem_singleton.mp mem
    exact ⟨rfl, ref⟩
  | @settle i row terminal found name source summary agrees =>
    obtain rfl : operationId = settleName row.digest :=
      Json.string.inj (Option.some.inj (given.symm.trans (named.settles operation _ name)))
    have unsettled : row.terminal = none := by
      cases known : row.terminal with
      | none => rfl
      | some recorded =>
        obtain ⟨receipt, mem, taken⟩ := h.settled row (List.mem_of_getElem? found)
          (by rw [known, Option.isSome_some])
        exact absurd taken (fresh receipt mem)
    have smaller := byteLength_terminal summary (byteLength_goalRef formed source summary
      (valid.reservations.2 i row found) (h.goal row (List.mem_of_getElem? found)))
    exact (h.settles valid found unsettled smaller bare).2

end

/-! ## Runs -/

/-- A record that is not cancelled has an operation left for its cancellation. -/
def HasRoom (s : Control) : Prop :=
  s.cancellation = none → s.operations.length ≤ MAX_OPERATIONS - 2

/-- A new settlement finds a cancelled record, or one that the other operations still fit in. -/
def LeavesRoom (host : ControlHost) (entry : Fields) (request : ControlRequest) : Prop :=
  controlOperation entry request.input = .ok .settle →
    ∀ s, readRequestControl host entry = .ok s → s.cancellation.isSome ∨
      s.operations.length < MAX_OPERATIONS - 2 ∨ ∃ receipt ∈ s.operations,
        request.input.lookup "operation_id" = some (.string receipt.operationId)

/-- Every settlement of a run leaves room for the cancellation. -/
def SettlesLeaveRoom (host : ControlHost) (entry : Fields) : List ControlRequest → Prop
  | [] => True
  | request :: requests => LeavesRoom host entry request ∧
      SettlesLeaveRoom host (controlStep host entry request) requests

private theorem Admitted.hasRoom {request : ControlRequest} {s after : Control} {plan : ControlPlan}
    {op : ControlOperation} {operationId now requestSha : String} {result : Fields}
    (admitted : Admitted host entry request s plan op operationId now after result)
    (read : readRequestControl host entry = .ok s) (leaves : LeavesRoom host entry request) :
    HasRoom (after.record ⟨operationId, requestSha, result⟩) := by
  obtain ⟨operation, _, _, identifier, _, _, fresh, _, effect, count, _, _, _⟩ := admitted
  intro uncancelled
  rw [Control.record, List.length_append, List.length_singleton, effect.operations]
  cases effect with
  | cancel text before => cases uncancelled
  | settle found name source summary agrees =>
    rcases leaves operation s read with cancelled | fits | ⟨receipt, mem, taken⟩
    · rw [Option.isSome_iff_ne_none] at cancelled
      exact absurd uncancelled cancelled
    · exact fits
    · have given := (controlId_eq_ok.mp identifier).1
      exact absurd (Json.string.inj (Option.some.inj (taken.symm.trans given))) (fresh receipt mem)
  | revise => exact count
  | read => exact count
  | assess => exact count
  | reserve => exact count

theorem controlStep_recoverable {s : Control} {request : ControlRequest}
    (read : readRequestControl host entry = .ok s) (h : Recoverable entry s)
    (named : WellNamed entry request) (formed : TerminalFormed host entry request) :
    ∃ t, readRequestControl host (controlStep host entry request) = .ok t ∧ Recoverable entry t ∧
      (controlStep host entry request = entry ∨
        ∃ control, controlStep host entry request = withControl entry control) ∧
      (LeavesRoom host entry request → HasRoom s → HasRoom t) := by
  unfold controlStep
  split
  · next plan planned =>
    rcases planRequestControl_eq_ok read planned with
      ⟨_, same⟩ | ⟨_, op, operationId, now, after, result, admitted⟩
    · rw [same]
      exact ⟨s, read, h, Or.inl rfl, fun _ room => room⟩
    · obtain ⟨original, _, valid⟩ := valid_of_readRequestControl read
      exact ⟨_, admitted.read read, admitted.recoverable valid named formed h,
        Or.inr ⟨_, admitted.stored⟩, fun leaves _ => admitted.hasRoom read leaves⟩
  · exact ⟨s, read, h, Or.inl rfl, fun _ room => room⟩

theorem wellNamed_withControl {control : Control} {request : ControlRequest} :
    WellNamed (withControl entry control) request ↔ WellNamed entry request := by
  constructor
  · rintro ⟨settles, others⟩
    rw [controlOperation_withControl] at settles others
    exact ⟨settles, others⟩
  · rintro ⟨settles, others⟩
    rw [← @controlOperation_withControl entry control] at settles others
    exact ⟨settles, others⟩

theorem terminalFormed_withControl {control : Control} {request : ControlRequest} :
    TerminalFormed host (withControl entry control) request ↔
      TerminalFormed host entry request := by
  rw [TerminalFormed, lookup_withControl "goal_ref", TerminalFormed]

theorem runControl_recoverable {s : Control} (read : readRequestControl host entry = .ok s)
    (h : Recoverable entry s) (requests : List ControlRequest)
    (named : ∀ request ∈ requests, WellNamed entry request)
    (formed : ∀ request ∈ requests, TerminalFormed host entry request) :
    ∃ t, readRequestControl host (runControl host entry requests) = .ok t ∧ Recoverable entry t ∧
      (runControl host entry requests = entry ∨
        ∃ control, runControl host entry requests = withControl entry control) ∧
      (SettlesLeaveRoom host entry requests → HasRoom s → HasRoom t) := by
  induction requests generalizing entry s with
  | nil => exact ⟨s, read, h, Or.inl rfl, fun _ room => room⟩
  | cons request requests ih =>
    obtain ⟨t, readt, recoverable, shape, step⟩ := controlStep_recoverable read h
      (named request List.mem_cons_self) (formed request List.mem_cons_self)
    have later := fun r mem => named r (List.mem_cons_of_mem _ mem)
    have later' := fun r mem => formed r (List.mem_cons_of_mem _ mem)
    rcases shape with same | ⟨control, written⟩
    · rw [same] at readt
      obtain ⟨u, readu, recoverable', shape', run⟩ := ih readt recoverable later later'
      rw [runControl, List.foldl_cons, same]
      refine ⟨u, readu, recoverable', shape', fun leaves room => ?_⟩
      rw [SettlesLeaveRoom, same] at leaves
      exact run leaves.2 (step leaves.1 room)
    · rw [written] at readt
      obtain ⟨u, readu, recoverable', shape', run⟩ := ih readt (recoverable_withControl.2 recoverable)
        (fun r mem => wellNamed_withControl.2 (later r mem))
        (fun r mem => terminalFormed_withControl.2 (later' r mem))
      rw [runControl, List.foldl_cons, written]
      refine ⟨u, readu, recoverable_withControl.1 recoverable', Or.inr ?_, fun leaves room => ?_⟩
      · rcases shape' with same | ⟨control', written'⟩
        · exact ⟨control, same⟩
        · refine ⟨control', ?_⟩
          rw [← withControl_withControl entry control control']
          exact written'
      · rw [SettlesLeaveRoom, written] at leaves
        exact run leaves.2 (step leaves.1 room)

/-- A record as the host opens it. -/
theorem initializeControlledRequest_recoverable {start : Fields}
    (fresh : entry.lookup "request_control" = none)
    (started : initializeControlledRequest host entry = .ok start) :
    ∃ s, readRequestControl host start = .ok s ∧ start = withControl entry s ∧
      Recoverable entry s ∧ HasRoom s := by
  obtain ⟨s, read, started⟩ := bind_eq_ok.mp started
  obtain ⟨_, bytes, started⟩ := bind_eq_ok.mp started
  obtain rfl := Except.ok.inj started
  obtain ⟨original, declared, valid⟩ := valid_of_readRequestControl read
  refine ⟨s, readRequestControl_withControl declared valid, rfl, ?_⟩
  rw [readRequestControl, declared, ok_bind, fresh] at read
  obtain rfl := Except.ok.inj read
  obtain ⟨reservations, operations⟩ : original.reservations = [] ∧ original.operations = [] := by
    obtain ⟨_, _, declared⟩ := bind_eq_ok.mp declared
    obtain ⟨_, _, declared⟩ := bind_eq_ok.mp declared
    obtain ⟨_, _, declared⟩ := bind_eq_ok.mp declared
    obtain ⟨_, _, declared⟩ := bind_eq_ok.mp declared
    obtain ⟨_, _, declared⟩ := bind_eq_ok.mp declared
    obtain rfl := Except.ok.inj declared
    exact ⟨rfl, rfl⟩
  refine ⟨⟨ensure_eq_ok.mp bytes, ?_, ?_, ?_, ?_⟩, ?_⟩ <;>
    simp [HasRoom, reservations, operations]

/-! ## What is accepted -/

/-- The record takes a new operation. -/
def Takes (host : ControlHost) (entry : Fields) (request : ControlRequest) : Prop :=
  ∃ plan, planRequestControl host entry request.input request.source = .ok plan ∧
    plan.changed = true

/-- The sender of a request is known, and what it names of the record is there. -/
structure Authenticated (host : ControlHost) (entry : Fields) (s : Control)
    (request : ControlRequest) : Prop where
  authentic : authenticate host entry request.source = .ok ()
  basis : ∃ basis, requestedBasis host entry request.source s = .ok basis
  time : ∃ now, request.source.lookup "observed_at" = some (.string now) ∧ IsTime host now

/-- The source cancels the current revision, for an admissible reason and by a fresh operation. -/
structure AdmissibleCancel (host : ControlHost) (entry : Fields) (s : Control)
    (request : ControlRequest) : Prop extends Authenticated host entry s request where
  operation : controlOperation entry request.input = .ok .cancel
  source : isSource request.source = true
  operationId : ∃ operationId, request.input.lookup "operation_id" = some (.string operationId) ∧
    IsSafeId operationId ∧ ∀ receipt ∈ s.operations, receipt.operationId ≠ operationId
  current : ∃ current, s.revisions.getLast? = some current ∧
    request.input.lookup "expected_revision" = some (natJson current.revision) ∧
    request.input.lookup "expected_digest" =
      some (.string (requestRevisionDigest host entry current))
  reason : ∃ reason, request.input.lookup "reason" = some (.string reason) ∧
    isControlText 2000 reason = true

/-- The host settles a reservation by the terminal receipt of its Goal. -/
structure MatchingSettle (host : ControlHost) (entry : Fields) (s : Control) (row : Reservation)
    (request : ControlRequest) : Prop extends Authenticated host entry s request where
  operation : controlOperation entry request.input = .ok .settle
  operationId : request.input.lookup "operation_id" = some (.string (settleName row.digest))
  digest : request.input.lookup "reservation_digest" = some (.string row.digest)
  terminal : ∃ terminal, request.source.lookup "terminal" = some (.object terminal) ∧
    requestTerminalSummary host (some (.object terminal)) row = .ok terminal
  formed : TerminalFormed host entry request

/-- The observation time needs no more bytes than were planned for it. -/
def ShortTime (request : ControlRequest) : Prop :=
  ∀ now, request.source.lookup "observed_at" = some (.string now) → byteLength (.string now) ≤ 66

/-- No two reservations share a digest. -/
def DigestsDiffer (host : ControlHost) (s : Control) : Prop :=
  NoCollision host.sha (s.reservations.map fun row => canonicalAuthorityBytes (.object row.binding))

private theorem unique_of_digest {s original : Control} {row row' : Reservation}
    (valid : s.Valid host entry original) (differ : DigestsDiffer host s)
    (mem : row ∈ s.reservations) (mem' : row' ∈ s.reservations)
    (same : row'.digest = row.digest) : row' = row := by
  obtain ⟨i, here⟩ := List.getElem?_of_mem mem
  obtain ⟨j, there⟩ := List.getElem?_of_mem mem'
  have bound := valid.reservations.2 i row here
  have bound' := valid.reservations.2 j row' there
  have fields := bindingFields_of_amendmentBinding bound.binding
  have fields' := bindingFields_of_amendmentBinding bound'.binding
  rw [bound.digest, bound'.digest] at same
  have bytes := differ _ (List.mem_map_of_mem mem') _ (List.mem_map_of_mem mem) same
  have named := lookup_of_canonical_eq fields'.distinct fields.distinct
    ((canonicalAuthorityBytes_eq_iff _ _).mp bytes) "operation_id"
  obtain ⟨operationId, known⟩ := fields.operationId
  obtain ⟨operationId', known'⟩ := fields'.operationId
  have texts : ∀ text, canonicalAuthorityJson (.string text) = .string text := fun text => by
    simp [canonicalAuthorityJson]
  rw [known, known', Option.map_some, Option.map_some, texts, texts] at named
  have inside : j < (s.reservations.map fun row => row.binding.lookup "operation_id").length := by
    rw [List.length_map]
    exact (List.getElem?_eq_some_iff.mp there).1
  have index : j = i := by
    refine (List.getElem?_inj inside valid.ordered.2.2).mp ?_
    rw [List.getElem?_map, List.getElem?_map, here, there, Option.map_some, Option.map_some, known,
      known', named]
  subst index
  exact Option.some.inj (there.symm.trans here)

private theorem latest_of_valid {s original : Control} (valid : s.Valid host entry original) :
    ∃ current, s.revisions.getLast? = some current := by
  have declared := valid.declared
  cases known : s.revisions.getLast? with
  | none =>
    rw [List.getLast?_eq_none_iff.mp known] at declared
    cases declared
  | some current => exact ⟨current, rfl⟩

/-- A record with an operation left takes its cancellation. -/
theorem Recoverable.takes_cancel {s : Control} {request : ControlRequest}
    (h : Recoverable entry s) (read : readRequestControl host entry = .ok s) (room : HasRoom s)
    (uncancelled : s.cancellation = none) (cancels : AdmissibleCancel host entry s request)
    (short : ShortTime request) : Takes host entry request := by
  obtain ⟨⟨authentic, basis, now, given, time⟩, operation, source, ⟨operationId, named, safe, fresh⟩,
    ⟨current, latest, revision, digest⟩, reason, hreason, text⟩ := cancels
  have actor : request.source.lookup "actor" = some (.string "source") := of_decide_eq_true source
  have identity : checkIdentity .cancel request.source = .ok () := by
    refine ensure_eq_ok.mpr ⟨Or.inr ?_, by simp, by simp⟩
    rw [actor, Option.isSome_some]
  have done : applyOperation host .cancel entry request.input request.source s current operationId
      now = .ok ({ s with cancellation := some ⟨operationId, reason, now⟩ },
        controlResult .cancel { s with cancellation := some ⟨operationId, reason, now⟩ }) := by
    rw [applyOperation, cancel, checkCurrent, throwWhen_of_not (not_not.mpr ⟨revision, digest⟩) _,
      ok_bind, checkCorrection, ensure_of source, ok_bind,
      ensure_of (Option.isNone_iff_eq_none.mpr uncancelled), ok_bind,
      controlText_eq_ok.mpr ⟨hreason, text⟩, ok_bind]
  have bytes := @recoverable_cancel entry s operationId reason now _ uncancelled safe text
    (short now given) (host.sha.bare (canonicalAuthorityBytes
      (requestIdentity .cancel entry request.input request.source)))
  obtain ⟨plan, planned, changed, _⟩ := planRequestControl_accepts read operation (by decide) basis
    (controlId_eq_ok.mpr ⟨named, safe⟩) identity authentic fresh (timestamp_eq_ok.mpr ⟨given, time⟩)
    (ensure_eq_ok.mpr (by simp)) latest done (Nat.lt_of_le_of_lt (room uncancelled) (by decide))
    (bytes.trans h.bytes)
  exact ⟨plan, planned, changed⟩

/-- The settlement of the active effect is taken. -/
theorem Recoverable.takes_settle {s : Control} {request : ControlRequest} {row : Reservation}
    (h : Recoverable entry s) (read : readRequestControl host entry = .ok s)
    (differ : DigestsDiffer host s) (mem : row ∈ s.reservations) (unsettled : row.terminal = none)
    (settles : MatchingSettle host entry s row request) : Takes host entry request := by
  obtain ⟨⟨authentic, basis, now, given, time⟩, operation, named, digest, ⟨terminal, hterminal,
    summary⟩, formed⟩ := settles
  obtain ⟨original, _, valid⟩ := valid_of_readRequestControl read
  obtain ⟨current, latest⟩ := latest_of_valid valid
  obtain ⟨i, found⟩ := List.getElem?_of_mem mem
  have active := (active_of_unsettled valid.ordered found unsettled).1
  have bare : isBareSha256 row.digest = true := by
    rw [(valid.reservations.2 i row found).digest]
    exact host.sha.bare _
  have smaller := byteLength_terminal summary (byteLength_goalRef formed hterminal summary
    (valid.reservations.2 i row found) (h.goal row mem))
  have picked : s.reservations.find? (fun reservation =>
      decide (request.input.lookup "reservation_digest" = some (.string reservation.digest))) =
        some row := by
    cases known : s.reservations.find? (fun reservation =>
        decide (request.input.lookup "reservation_digest" =
          some (.string reservation.digest))) with
    | none => exact absurd (decide_eq_true digest) (List.find?_eq_none.mp known row mem)
    | some first =>
      have picks := List.find?_some known
      have same := (of_decide_eq_true picks).symm.trans digest
      have one := Json.string.inj (Option.some.inj same)
      rw [unique_of_digest valid differ mem (List.mem_of_find?_eq_some known) one]
  obtain ⟨j, there, written⟩ := @settleFirst_eq_set _ terminal _ _ picked
  have identity : checkIdentity .settle request.source = .ok () := by
    refine ensure_eq_ok.mpr ⟨Or.inl rfl, by simp, fun _ => ?_⟩
    rw [hterminal, Option.isSome_some]
  have fresh : ∀ receipt ∈ s.operations, receipt.operationId ≠ settleName row.digest := by
    intro receipt recorded taken
    obtain ⟨other, there, same, settled⟩ := h.named receipt recorded _ bare taken
    rw [unique_of_digest valid differ mem there same, unsettled] at settled
    cases settled
  have done : applyOperation host .settle entry request.input request.source s current
      (settleName row.digest) now = .ok ({ s with
        reservations := s.reservations.set j { row with terminal := some terminal } },
        settleResult terminal) := by
    rw [applyOperation, settle]
    simp only [picked, hterminal, summary, ok_bind, written]
    rw [unsettled, Option.all_none, ensure_of rfl, ok_bind]
  have count : s.operations.length < MAX_OPERATIONS := by
    have bound := h.count (by rw [active, Option.isSome_some])
    refine Nat.lt_of_le_of_lt bound ?_
    split <;> decide
  have bytes := (h.settles valid there unsettled smaller (host.sha.bare (canonicalAuthorityBytes
    (requestIdentity .settle entry request.input request.source)))).1
  obtain ⟨plan, planned, changed, _⟩ := planRequestControl_accepts read operation (by decide) basis
    (controlId_eq_ok.mpr ⟨named, isSafeId_settleName bare⟩) identity authentic fresh
    (timestamp_eq_ok.mpr ⟨given, time⟩) (ensure_eq_ok.mpr (by simp)) latest done count bytes
  exact ⟨plan, planned, changed⟩

end

/-! ## A record that settles too late to be cancelled -/

/-- The revision of the review, as its receiver marks it. -/
def reviewMarks (read assessed : Bool) : Revision :=
  ⟨1, reviewBrief, "Original request", reviewTime, if read then some reviewTime else none,
    if assessed then some ⟨.adopt, "Will do", reviewTime⟩ else none⟩

def reviewDigest : String := requestRevisionDigest reviewHost reviewEntry (reviewMarks false false)

def reviewAmendment : Fields :=
  [("authority_source_sha256", .string (repeated 64 '0')), ("proposal_id", .string "proposal"),
    ("proposal_digest", .string (repeated 64 '0')), ("base_goal_revision", natJson 1),
    ("base_intent_digest", .string (repeated 64 '0')),
    ("base_work_digest", .string (repeated 64 '0')), ("operation_id", .string "effect")]

def reviewBinding : Fields :=
  boundAmendment reviewHost reviewEntry reviewAmendment reviewControl (reviewMarks false false)

def reviewReservation : Reservation :=
  ⟨reviewBinding, canonicalAuthoritySha256 reviewHost.sha (.object reviewBinding), none⟩

private theorem byteLength_reviewMarks (read assessed : Bool) :
    byteLength (reviewMarks read assessed).toJson ≤ 2000 := by
  refine (byteLength_le_byteBound _).trans ?_
  cases read <;> cases assessed <;> decide

/-- The reservation of the review with the terminal receipt that is planned for it. -/
def reviewWorst : Reservation :=
  { reviewReservation with terminal := some (worstTerminal reviewReservation) }

private theorem byteLength_array_singleton (v : Json) :
    byteLength (.array [v]) = 2 + byteLength v := by
  rw [byteLength_array, List.map_singleton, List.sum_singleton, List.length_singleton]

private theorem isBareSha256_canonical (host : ControlHost) (v : Json) :
    isBareSha256 (canonicalAuthoritySha256 host.sha v) = true :=
  host.sha.bare _

private theorem byteLength_reviewReservation :
    byteLength reviewReservation.toJson ≤ 4000 ∧
      byteLength (.object (worstTerminal reviewReservation)) ≤ 3000 := by
  have bound : byteLength (.object (setKey reviewBinding "request_digest" .null)) ≤ 3700 :=
    (byteLength_le_byteBound _).trans (by decide)
  have room : byteLength (.object (setKey (worstTerminal reviewReservation) "reservation_digest"
      .null)) ≤ 2500 :=
    (byteLength_le_byteBound _).trans (by decide +kernel)
  have request := byteLength_setKey reviewBinding "request_digest" (.string reviewDigest) .null
  have reservation := byteLength_setKey (worstTerminal reviewReservation) "reservation_digest"
    (.string reviewReservation.digest) .null
  rw [setKey_self (by rfl)] at request reservation
  have requestBytes : byteLength (.string reviewDigest) = 66 :=
    byteLength_bareSha256 (isBareSha256_canonical reviewHost _)
  have digestBytes : byteLength (.string reviewReservation.digest) = 66 :=
    byteLength_bareSha256 (isBareSha256_canonical reviewHost (.object reviewBinding))
  have rowBytes := byteLength_reservation reviewReservation
  have null : byteLength .null = 4 := rfl
  have unsettled : (reviewReservation.terminal.map Json.object).getD .null = .null := rfl
  have binding : reviewReservation.binding = reviewBinding := rfl
  rw [unsettled, binding] at rowBytes
  constructor <;> omega

private theorem byteLength_reviewWorst :
    byteLength (.object (reserveResult reviewWorst)) ≤ 120 + 10000 ∧
      byteLength (.object (reserveResult reviewReservation)) ≤
        byteLength (.object (reserveResult reviewWorst)) := by
  obtain ⟨rowBytes, terminalBytes⟩ := byteLength_reviewReservation
  have plain := byteLength_reserveResult reviewReservation
  have weighed := byteLength_reserveResult reviewWorst
  have plainRow := byteLength_reservation reviewReservation
  have weighedRow := byteLength_reservation reviewWorst
  have binding : reviewWorst.binding = reviewReservation.binding := rfl
  have digest : reviewWorst.digest = reviewReservation.digest := rfl
  have terminal : (reviewWorst.terminal.map Json.object).getD .null =
      .object (worstTerminal reviewReservation) := rfl
  rw [binding, digest, terminal] at weighedRow
  have null : byteLength ((reviewReservation.terminal.map Json.object).getD .null) = 4 := rfl
  have filled := null_le_worstTerminal reviewReservation
  constructor <;> omega

/-- A record of the review with few bytes in its operations is recoverable. -/
private theorem recoverable_review {digest : String} {read assessed : Bool}
    {reservations : List Reservation} {operations : List OperationReceipt}
    (bare : isBareSha256 digest = true)
    (known : reservations = [] ∨ reservations = [reviewReservation])
    (count : operations.length ≤ 62)
    (small : (operations.map fun receipt => byteLength receipt.toJson).sum ≤ 60000) :
    recoverableRecordBytes reviewEntry
      ⟨digest, [reviewMarks read assessed], none, reservations, operations⟩ ≤ MAX_RECORD_BYTES := by
  obtain ⟨rowBytes, terminalBytes⟩ := byteLength_reviewReservation
  have marks := byteLength_reviewMarks read assessed
  have digestBytes := byteLength_bareSha256 bare
  have frame := byteLength_withControl reviewEntry
    ⟨digest, [reviewMarks read assessed], none, reservations, operations⟩ ⟨"", [], none, [], []⟩
  have entryBytes : byteLength (.object (withControl reviewEntry ⟨"", [], none, [], []⟩)) ≤ 4000 :=
    (byteLength_le_byteBound _).trans (by decide)
  have kept : recoverableRecordBytes reviewEntry
      ⟨digest, [reviewMarks read assessed], none, reservations, operations⟩ ≤
        byteLength (.object (withControl reviewEntry
          ⟨digest, [reviewMarks read assessed], none, reservations, operations⟩)) +
            13000 + 2 * 3000 := by
    have one : byteLength (natJson 1) ≤ 16 := by decide
    refine recoverable_le_bytes rfl ?_ one fun row active => ?_
    · rcases known with rfl | rfl
      · exact ⟨Nat.zero_le 1, rfl, List.nodup_nil⟩
      · exact ⟨Nat.le_refl 1, rfl, List.nodup_singleton _⟩
    · have mem := List.mem_of_find?_eq_some (Option.mem_def.mp active)
      rcases known with rfl | rfl
      · cases mem
      · obtain rfl := List.mem_singleton.mp mem
        exact terminalBytes
  have rows : byteLength (.array (reservations.map Reservation.toJson)) ≤ 4002 := by
    rcases known with rfl | rfl
    · decide
    · rw [List.map_singleton, byteLength_array_singleton]
      omega
  have receipts : byteLength (.array (operations.map OperationReceipt.toJson)) ≤ 60064 := by
    rw [byteLength_array, List.length_map, List.map_map, Function.comp_def]
    omega
  have revisions : byteLength (.array ([reviewMarks read assessed].map Revision.toJson)) ≤
      2002 := by
    rw [List.map_singleton, byteLength_array_singleton]
    omega
  have payload : Control.payload ⟨digest, [reviewMarks read assessed], none, reservations,
      operations⟩ ≤ 67000 := by
    have none : byteLength (((none : Option Cancellation).map Cancellation.toJson).getD .null) =
      4 := rfl
    unfold Control.payload
    dsimp only
    omega
  have limit : MAX_RECORD_BYTES = 128000 := rfl
  omega

/-- What the receiver's host sends. -/
def fromWorker (fields : Fields) : Fields :=
  [("actor", .string "receiver"), ("actor_agent_id", .string "worker"), ("goal_active", .bool true),
    ("observed_at", .string reviewTime)] ++ fields

def reviewAssess : ControlRequest where
  input := [("operation", .string "assess"), ("operation_id", .string "assess"),
    ("revision", natJson 1), ("revision_digest", .string reviewDigest),
    ("decision", .string "adopt"), ("reason", .string "Will do")]
  source := fromWorker []

def reviewReserve : ControlRequest where
  input := [("operation", .string "reserve"), ("operation_id", .string "reserve"),
    ("expected_revision", natJson 1), ("expected_digest", .string reviewDigest)]
  source := fromWorker [("amendment", .object reviewAmendment)]

def reviewRead (operationId : String) : ControlRequest where
  input := [("operation", .string "read"), ("operation_id", .string operationId),
    ("revision", natJson 1), ("revision_digest", .string reviewDigest)]
  source := fromWorker []

/-- The record of the review while it fills up. -/
private structure Filling (s : Control) (assessed : Bool) (reservations : List Reservation)
    (names : List String) (budget : Nat) : Prop where
  read : readRequestControl reviewHost (withControl reviewEntry s) = .ok s
  bare : isBareSha256 s.requestSha256 = true
  revisions : ∃ read, s.revisions = [reviewMarks read assessed]
  uncancelled : s.cancellation = none
  reservations_ : s.reservations = reservations
  names_ : s.operations.map OperationReceipt.operationId = names
  bytes : (s.operations.map fun receipt => byteLength receipt.toJson).sum ≤
    budget + 400 * s.operations.length

private theorem requestedBasis_fromWorker {s control : Control} {fields : Fields}
    (plain : fields.lookup "requested_basis" = none) :
    requestedBasis reviewHost (withControl reviewEntry control) (fromWorker fields) s =
      .ok none := by
  have absent : (fromWorker fields).lookup "requested_basis" = none := plain
  rw [requestedBasis, absent]
  rfl

private theorem authenticate_fromWorker {control : Control} {fields : Fields}
    (plain : fields.lookup "actor_recipient" = none) :
    authenticate reviewHost (withControl reviewEntry control) (fromWorker fields) = .ok () := by
  have agent : (fromWorker fields).lookup "actor_agent_id" = some (.string "worker") := rfl
  have recipient : (fromWorker fields).lookup "actor_recipient" = none := plain
  have profile : isConversation reviewEntry = false := by decide
  have receiver : isReceiver (fromWorker fields) = true := decide_eq_true rfl
  have matched : receiverMatches reviewHost reviewEntry (fromWorker fields) = .ok true := by
    rw [receiverMatches, profile, agent, recipient]
    rfl
  rw [authenticate_withControl, authenticate, ensure_of (Or.inr receiver), ok_bind,
    if_pos receiver, matched]
  rfl

private theorem requestRevisionDigest_review (read assessed : Bool) :
    requestRevisionDigest reviewHost reviewEntry (reviewMarks read assessed) = reviewDigest :=
  requestRevisionDigest_congr rfl

section

variable {s after : Control} {request : ControlRequest} {op : ControlOperation}
  {operationId : String} {current : Revision} {result weighed : Fields} {assessed : Bool}
  {reservations : List Reservation} {names : List String} {budget : Nat}

/-- One more operation of the worker. -/
private theorem Filling.step {fields : Fields} {read' assessed' : Bool}
    {reservations' : List Reservation} {more : Nat}
    (h : Filling s assessed reservations names budget)
    (operation : controlOperation reviewEntry request.input = .ok op) (writes : op ≠ .inspect)
    (source : request.source = fromWorker fields)
    (plain : fields.lookup "requested_basis" = none ∧ fields.lookup "actor_recipient" = none)
    (given : request.input.lookup "operation_id" = some (.string operationId))
    (safe : IsSafeId operationId) (identity : checkIdentity op request.source = .ok ())
    (fresh : operationId ∉ names) (latest : s.revisions.getLast? = some current)
    (done : applyOperation reviewHost op (withControl reviewEntry s) request.input request.source s
      current operationId reviewTime = .ok (after, result))
    (same : after = ⟨s.requestSha256, [reviewMarks read' assessed'], none, reservations',
      s.operations⟩)
    (known : reservations' = [] ∨ reservations' = [reviewReservation])
    (count : names.length < operationLimit op) (limit : names.length < 62)
    (weighs : ∀ sha, recordBytes op (withControl reviewEntry s) after ⟨operationId, sha, result⟩ =
      recoverableRecordBytes reviewEntry (after.record ⟨operationId, sha, weighed⟩))
    (weight : byteLength (.object weighed) ≤ 120 + more)
    (lighter : byteLength (.object result) ≤ byteLength (.object weighed))
    (small : budget + more ≤ 10000) :
    ∃ t, controlStep reviewHost (withControl reviewEntry s) request = withControl reviewEntry t ∧
      Filling t assessed' reservations' (names ++ [operationId]) (budget + more) := by
  obtain ⟨read, bare, _, uncancelled, _, rfl, bytes⟩ := h
  rw [List.length_map] at count limit
  have basis : ∃ basis, requestedBasis reviewHost (withControl reviewEntry s) request.source s =
      .ok basis := ⟨none, by rw [source, requestedBasis_fromWorker plain.1]⟩
  have authentic : authenticate reviewHost (withControl reviewEntry s) request.source = .ok () := by
    rw [source, authenticate_fromWorker plain.2]
  have active : checkActive op (withControl reviewEntry s) request.source = .ok () := by
    have goal : request.source.lookup "goal_active" = some (.bool true) := by
      rw [source]
      rfl
    have profile : isConversation reviewEntry = false := by decide
    refine ensure_eq_ok.mpr fun _ => ?_
    rw [isConversation_withControl, profile, goal]
    rfl
  have time : timestamp reviewHost (request.source.lookup "observed_at") = .ok reviewTime := by
    have observed : request.source.lookup "observed_at" = some (.string reviewTime) := by
      rw [source]
      rfl
    rw [observed]
    decide
  have unused : ∀ row ∈ s.operations, row.operationId ≠ operationId := fun row mem taken =>
    fresh (List.mem_map.mpr ⟨row, mem, taken⟩)
  have receipt : ∀ (answer : Fields) (sha : String), isBareSha256 sha = true →
      byteLength (OperationReceipt.toJson ⟨operationId, sha, answer⟩) ≤
        280 + byteLength (.object answer) := by
    intro answer sha bare
    have name := byteLength_safeId safe
    have digest := byteLength_bareSha256 bare
    have bytes := byteLength_receipt ⟨operationId, sha, answer⟩
    dsimp only at bytes
    omega
  have sha := isBareSha256_canonical reviewHost
    (requestIdentity op (withControl reviewEntry s) request.input request.source)
  have sums : ∀ answer : Fields, (List.map (fun receipt : OperationReceipt =>
      byteLength receipt.toJson) (s.operations ++ [⟨operationId, canonicalAuthoritySha256
        reviewHost.sha (requestIdentity op (withControl reviewEntry s) request.input
          request.source), answer⟩])).sum ≤
      budget + 400 * s.operations.length + 280 + byteLength (.object answer) := by
    intro answer
    have one := receipt answer _ sha
    rw [List.map_append, List.sum_append, List.map_singleton, List.sum_singleton]
    omega
  have room : recoverableRecordBytes reviewEntry (after.record ⟨operationId,
      canonicalAuthoritySha256 reviewHost.sha
        (requestIdentity op (withControl reviewEntry s) request.input request.source), weighed⟩) ≤
      MAX_RECORD_BYTES := by
    have few := sums weighed
    rw [same]
    refine recoverable_review bare known ?_ (few.trans (by omega))
    rw [List.length_append, List.length_singleton]
    exact limit
  have operation' : controlOperation (withControl reviewEntry s) request.input = .ok op :=
    (controlOperation_withControl _).trans operation
  obtain ⟨plan, planned, _, stored, readback⟩ := planRequestControl_accepts read operation' writes
    basis
    (controlId_eq_ok.mpr ⟨given, safe⟩) identity authentic unused time active latest done count
    ((weighs _).le.trans room)
  have kept := sums result
  refine ⟨after.record ⟨operationId, canonicalAuthoritySha256 reviewHost.sha
    (requestIdentity op (withControl reviewEntry s) request.input request.source), result⟩, ?_, ?_⟩
  · rw [controlStep, planned]
    exact stored.trans (withControl_withControl _ _ _)
  · rw [stored, withControl_withControl] at readback
    subst same
    refine ⟨readback, bare, ⟨_, rfl⟩, rfl, rfl, ?_, ?_⟩
    · rw [Control.record, List.map_append, List.map_singleton]
    · refine kept.trans ?_
      rw [Control.record, List.length_append, List.length_singleton]
      dsimp only
      omega

private theorem observedRevision_review {read : Bool} {input : Fields}
    (revisions : s.revisions = [reviewMarks read assessed])
    (number : input.lookup "revision" = some (natJson 1))
    (digest : input.lookup "revision_digest" = some (.string reviewDigest)) (fields : Fields) :
    observedRevision reviewHost (withControl reviewEntry s) input (fromWorker fields) s =
      .ok (reviewMarks read assessed) := by
  have receiver : isReceiver (fromWorker fields) = true := decide_eq_true rfl
  have one : positiveInteger (some (natJson 1)) "observed revision" = .ok 1 := by decide
  have there : revisionAt s.revisions 1 = some (reviewMarks read assessed) := by
    rw [revisions]
    rfl
  rw [observedRevision, ensure_of receiver, ok_bind, number, one, ok_bind]
  simp only [there, digest, requestRevisionDigest_withControl, requestRevisionDigest_review]
  rw [ensure_of trivial, ok_bind]

private theorem Filling.takes_assess (h : Filling s false [] names budget)
    (fresh : "assess" ∉ names) (limit : names.length < 62) (small : budget ≤ 10000) :
    ∃ t, controlStep reviewHost (withControl reviewEntry s) reviewAssess =
      withControl reviewEntry t ∧ Filling t true [] (names ++ ["assess"]) budget := by
  obtain ⟨read, revisions⟩ := h.revisions
  have latest : s.revisions.getLast? = some (reviewMarks read false) := by
    rw [revisions]
    rfl
  have observed : observedRevision reviewHost (withControl reviewEntry s) reviewAssess.input
      reviewAssess.source s = .ok (reviewMarks read false) :=
    observedRevision_review revisions rfl rfl []
  have operation : controlOperation reviewEntry reviewAssess.input = .ok .assess := by rfl
  have identity : checkIdentity .assess reviewAssess.source = .ok () := by decide
  have done : applyOperation reviewHost .assess (withControl reviewEntry s) reviewAssess.input
      reviewAssess.source s (reviewMarks read false) "assess" reviewTime =
        .ok (setRevision s (reviewMarks read true), revisionResult .assess (reviewMarks read false)) := by
    have goal : isConversation (withControl reviewEntry s) = false := by
      rw [isConversation_withControl]
      decide
    have fits : (reviewMarks read false).revision = (reviewMarks read false).revision ∧
        s.cancellation.isNone := by
      rw [h.uncancelled]
      exact ⟨rfl, rfl⟩
    have decision : receiverDecision (reviewAssess.input.lookup "decision") = some .adopt := by
      decide
    have reason : controlText (reviewAssess.input.lookup "reason") "assessment reason" 2000 =
        .ok "Will do" := by decide
    rw [applyOperation, assess, observed, ok_bind, ensure_of fits, ok_bind, goal, ensure_of (by simp),
      ok_bind, decision]
    dsimp only
    have unassessed : (reviewMarks read false).assessment.isNone = true := rfl
    rw [reason, ok_bind, ensure_of unassessed, ok_bind]
    rfl
  have same : setRevision s (reviewMarks read true) = ⟨s.requestSha256, [reviewMarks read true],
      none, [], s.operations⟩ := by
    rw [setRevision, revisions, h.uncancelled, h.reservations_]
    rfl
  have weight : byteLength (.object (revisionResult .assess (reviewMarks read false))) ≤ 120 + 0 := by
    cases read <;> decide
  exact h.step operation (by decide) (show reviewAssess.source = fromWorker [] from rfl)
    ⟨rfl, rfl⟩ rfl ⟨by decide, by decide⟩ identity fresh latest done same (Or.inl rfl) limit limit
    (fun _ => rfl) weight (Nat.le_refl _) small

private theorem Filling.takes_read (h : Filling s assessed reservations names budget)
    (known : reservations = [] ∨ reservations = [reviewReservation]) (safe : IsSafeId operationId)
    (fresh : operationId ∉ names) (limit : names.length < 62) (small : budget ≤ 10000) :
    ∃ t, controlStep reviewHost (withControl reviewEntry s) (reviewRead operationId) =
      withControl reviewEntry t ∧
        Filling t assessed reservations (names ++ [operationId]) budget := by
  obtain ⟨read, revisions⟩ := h.revisions
  have latest : s.revisions.getLast? = some (reviewMarks read assessed) := by
    rw [revisions]
    rfl
  have observed : observedRevision reviewHost (withControl reviewEntry s)
      (reviewRead operationId).input (reviewRead operationId).source s =
        .ok (reviewMarks read assessed) :=
    observedRevision_review revisions rfl rfl []
  have operation : controlOperation reviewEntry (reviewRead operationId).input = .ok .read := by rfl
  have identity : checkIdentity .read (reviewRead operationId).source = .ok () := by rfl
  have done : applyOperation reviewHost .read (withControl reviewEntry s)
      (reviewRead operationId).input (reviewRead operationId).source s (reviewMarks read assessed)
        operationId reviewTime =
          .ok (setRevision s (reviewMarks true assessed),
            revisionResult .read (reviewMarks read assessed)) := by
    rw [applyOperation, readRequest, observed, ok_bind]
    cases read <;> rfl
  have same : setRevision s (reviewMarks true assessed) = ⟨s.requestSha256,
      [reviewMarks true assessed], none, reservations, s.operations⟩ := by
    rw [setRevision, revisions, h.uncancelled, h.reservations_]
    rfl
  have weight : byteLength (.object (revisionResult .read (reviewMarks read assessed))) ≤
      120 + 0 := by
    cases read <;> cases assessed <;> decide
  exact h.step operation (by decide) (show (reviewRead operationId).source = fromWorker [] from rfl)
    ⟨rfl, rfl⟩ rfl safe identity fresh latest done same known limit limit (fun _ => rfl) weight
    (Nat.le_refl _) small

private theorem amendmentBinding_review {read : Bool}
    (revisions : s.revisions = [reviewMarks read true]) :
    amendmentBinding reviewHost (some (.object reviewBinding)) (withControl reviewEntry s)
      s.revisions 1 = .ok reviewBinding := by
  have ref : goalRef (reviewBinding.lookup "goal_ref") = .ok
      [("goal_id", .string "g"),
        ("goal_instance_id", .string "ginst_00000000000000000000000000000000")] := by decide
  have number : positiveInteger (reviewBinding.lookup "request_revision") "request revision" =
      .ok 1 := by decide
  have given : reviewBinding.lookup "request_digest" = some (.string reviewDigest) := by rfl
  have there : revisionAt [reviewMarks read true] 1 = some (reviewMarks read true) := rfl
  have named : (revisionAt [reviewMarks read true] 1).any (fun revision =>
      decide (reviewBinding.lookup "request_digest" =
        some (.string (requestRevisionDigest reviewHost reviewEntry revision)))) = true := by
    rw [there, Option.any_some, requestRevisionDigest_review, given]
    exact decide_eq_true rfl
  have same : sameJson reviewHost (.object [("goal_id", .string "g"),
      ("goal_instance_id", .string "ginst_00000000000000000000000000000000")])
      (orNull (reviewEntry.lookup "goal_ref")) = true := sameJson_self _
  have row : requireJsonObject (some (.object reviewBinding)) "request amendment binding" =
      .ok reviewBinding := by rfl
  have names : controlKeys reviewBinding bindingKeys = .ok () := by rfl
  have rest : (do
      let _ ← controlDigest (reviewBinding.lookup "authority_source_sha256")
        "authority_source_sha256"
      let _ ← controlDigest (reviewBinding.lookup "proposal_digest") "proposal_digest"
      let _ ← controlDigest (reviewBinding.lookup "base_intent_digest") "base_intent_digest"
      let _ ← controlDigest (reviewBinding.lookup "base_work_digest") "base_work_digest"
      let _ ← controlId (reviewBinding.lookup "proposal_id") "proposal_id"
      let _ ← controlId (reviewBinding.lookup "operation_id") "effect operation_id"
      let _ ← positiveInteger (reviewBinding.lookup "base_goal_revision") "base Goal revision"
      (.ok reviewBinding : Checked Fields)) = .ok reviewBinding := by
    rfl
  rw [amendmentBinding_withControl, revisions, amendmentBinding, row, ok_bind, names, ok_bind,
    number, ok_bind, ref, ok_bind, ensure_of ⟨named, rfl, rfl, same, rfl⟩, ok_bind]
  exact rest

private theorem Filling.takes_reserve (h : Filling s true [] names 0)
    (fresh : "reserve" ∉ names) (limit : names.length < 62) :
    ∃ t, controlStep reviewHost (withControl reviewEntry s) reviewReserve =
      withControl reviewEntry t ∧
        Filling t true [reviewReservation] (names ++ ["reserve"]) 10000 := by
  obtain ⟨read, revisions⟩ := h.revisions
  have latest : s.revisions.getLast? = some (reviewMarks read true) := by
    rw [revisions]
    rfl
  have operation : controlOperation reviewEntry reviewReserve.input = .ok .reserve := by rfl
  have identity : checkIdentity .reserve reviewReserve.source = .ok () := by rfl
  have idle : s.active = none := by
    rw [Control.active, h.reservations_]
    rfl
  have done : applyOperation reviewHost .reserve (withControl reviewEntry s) reviewReserve.input
      reviewReserve.source s (reviewMarks read true) "reserve" reviewTime =
        .ok ({ s with reservations := s.reservations ++ [reviewReservation] },
          reserveResult reviewReservation) := by
    have current : checkCurrent reviewHost (withControl reviewEntry s) reviewReserve.input
        (reviewMarks read true) = .ok () := by
      refine throwWhen_of_not (not_not.mpr ⟨rfl, ?_⟩) _
      rw [requestRevisionDigest_withControl, requestRevisionDigest_review]
      rfl
    have free : isReceiver reviewReserve.source ∧ s.cancellation.isNone ∧ s.active.isNone := by
      rw [h.uncancelled, idle]
      exact ⟨decide_eq_true rfl, rfl, rfl⟩
    have adopted : (assessmentObservation reviewHost (withControl reviewEntry s)
        (reviewMarks read true) (legacyReceipts reviewReserve.source).assessment).1.map
          Assessment.decision = some .adopt := rfl
    have amendment : requireJsonObject (reviewReserve.source.lookup "amendment")
        "source-resolved amendment" = .ok reviewAmendment := by rfl
    have bound : boundAmendment reviewHost (withControl reviewEntry s) reviewAmendment s
        (reviewMarks read true) = reviewBinding := by
      rw [boundAmendment, requestRevisionDigest_withControl, requestRevisionDigest_review,
        lookup_withControl "request_id", lookup_withControl "agent_id",
        lookup_withControl "goal_ref", h.reservations_]
      rfl
    have first : s.reservations.length + 1 = 1 := by
      rw [h.reservations_]
      rfl
    have room : s.reservations.length < MAX_RESERVATIONS := by
      rw [h.reservations_]
      decide
    have distinct : (s.reservations.map fun row => row.binding.lookup "operation_id").all
        (fun operation => operation ≠ reviewBinding.lookup "operation_id") = true := by
      rw [h.reservations_]
      rfl
    rw [applyOperation, reserve, current, ok_bind, ensure_of free, ok_bind, ensure_of adopted,
      ok_bind, ensure_of room, ok_bind, amendment, ok_bind, bound, first,
      amendmentBinding_review revisions, ok_bind, ensure_of distinct, ok_bind]
    rfl
  have same : ({ s with reservations := s.reservations ++ [reviewReservation] } : Control) =
      ⟨s.requestSha256, [reviewMarks read true], none, [reviewReservation], s.operations⟩ := by
    rw [revisions, h.uncancelled, h.reservations_]
    rfl
  have active : ({ s with reservations := s.reservations ++ [reviewReservation] } : Control).active =
      some reviewReservation := by
    rw [same]
    rfl
  have weighs : ∀ sha, recordBytes .reserve (withControl reviewEntry s)
      { s with reservations := s.reservations ++ [reviewReservation] }
        ⟨"reserve", sha, reserveResult reviewReservation⟩ = recoverableRecordBytes reviewEntry
          (Control.record { s with reservations := s.reservations ++ [reviewReservation] }
            ⟨"reserve", sha, reserveResult reviewWorst⟩) := by
    intro sha
    unfold recordBytes
    rw [active]
    change recoverableRecordBytes (withControl reviewEntry s) _ = _
    rw [recoverable_eq, recoverable_eq, withControl_withControl]
    rfl
  obtain ⟨weight, lighter⟩ := byteLength_reviewWorst
  obtain ⟨t, stepped, filling⟩ := h.step operation (by decide)
    (show reviewReserve.source = fromWorker [("amendment", .object reviewAmendment)] from rfl)
    ⟨rfl, rfl⟩ rfl ⟨by decide, by decide⟩ identity fresh latest done same (Or.inr rfl) limit limit
    weighs weight lighter (Nat.le_refl _)
  exact ⟨t, stepped, filling⟩

end

def reviewName (n : Nat) : String := "r" ++ repeated n 'x'

def reviewTerminal : Fields :=
  [("operation_id", .string "effect"), ("reservation_digest", .string reviewReservation.digest),
    ("outcome", .string "rejected"), ("goal_ref", reviewGoal), ("goal_changed", .bool false),
    ("goal_revision", .null), ("todo_id", .null), ("receipt_sha256", .string (repeated 64 '0'))]

def reviewSettle : ControlRequest where
  input := [("operation", .string "settle"),
    ("operation_id", .string (settleName reviewReservation.digest)),
    ("reservation_digest", .string reviewReservation.digest)]
  source := fromWorker [("terminal", .object reviewTerminal)]

/-- The worker reserves an effect, fills the record with readings, and settles its effect. -/
def reviewFront : List ControlRequest :=
  [reviewAssess, reviewReserve] ++ (List.range 60).map fun n => reviewRead (reviewName n)

def reviewStop : ControlRequest where
  input := [("operation", .string "cancel"), ("operation_id", .string "stop"),
    ("expected_revision", natJson 1), ("expected_digest", .string reviewDigest),
    ("reason", .string "No longer needed")]
  source := [("actor", .string "source"), ("actor_agent_id", .string "manager"),
    ("observed_at", .string reviewTime)]

private theorem toList_reviewName (n : Nat) :
    (reviewName n).toList = 'r' :: List.replicate n 'x' := by
  rw [reviewName, String.toList_append, repeated]
  exact congrArg ('r' :: ·) String.toList_ofList

private theorem reviewName_injective {m n : Nat} (h : reviewName m = reviewName n) : m = n := by
  have lists := congrArg (fun s => s.toList.length) h
  simp only [toList_reviewName, List.length_cons, List.length_replicate] at lists
  omega

private theorem isSafeId_reviewName {n : Nat} (h : n < 60) : IsSafeId (reviewName n) := by
  refine isSafeId_of_length ?_ ?_
  · unfold isSafeIdentifier
    rw [toList_reviewName]
    refine Bool.and_eq_true_iff.mpr ⟨by decide, List.all_eq_true.mpr fun c mem => ?_⟩
    rw [List.eq_of_mem_replicate mem]
    decide
  · rw [toList_reviewName, List.length_cons, List.length_replicate]
    omega

private theorem apart_of_head {name : String} (h : name.toList.take 2 ≠ ['s', 'e'])
    (digest : String) : name ≠ settleName digest := by
  rintro rfl
  refine h ?_
  rw [settleName, String.toList_append]
  rfl

private theorem wellNamed_of_apart {request : ControlRequest} {name : String} (op : ControlOperation)
    (operation : controlOperation reviewEntry request.input = .ok op) (other : op ≠ .settle)
    (given : request.input.lookup "operation_id" = some (.string name))
    (apart : name.toList.take 2 ≠ ['s', 'e']) : WellNamed reviewEntry request where
  settles settle := by
    rw [operation] at settle
    exact absurd (Except.ok.inj settle) other
  others _ _ _ digest _ same := by
    rw [given] at same
    exact apart_of_head apart digest (Json.string.inj (Option.some.inj same))

private theorem wellNamed_reviewFront : ∀ request ∈ reviewFront, WellNamed reviewEntry request := by
  intro request mem
  rcases List.mem_append.mp mem with first | reading
  · simp only [List.mem_cons, List.not_mem_nil, or_false] at first
    rcases first with rfl | rfl
    · exact wellNamed_of_apart .assess rfl (by decide) rfl (by decide)
    · exact wellNamed_of_apart .reserve rfl (by decide) rfl (by decide)
  · obtain ⟨n, _, rfl⟩ := List.mem_map.mp reading
    refine wellNamed_of_apart .read rfl (by decide) rfl ?_
    rw [toList_reviewName]
    simp

private theorem terminalFormed_of_none {request : ControlRequest}
    (none : request.source.lookup "terminal" = none) :
    TerminalFormed reviewHost reviewEntry request := by
  intro terminal ref given
  rw [none] at given
  cases given

private theorem terminalFormed_reviewFront :
    ∀ request ∈ reviewFront, TerminalFormed reviewHost reviewEntry request := by
  intro request mem
  rcases List.mem_append.mp mem with first | reading
  · simp only [List.mem_cons, List.not_mem_nil, or_false] at first
    rcases first with rfl | rfl <;> exact terminalFormed_of_none rfl
  · obtain ⟨n, _, rfl⟩ := List.mem_map.mp reading
    exact terminalFormed_of_none rfl

private theorem terminalFormed_reviewSettle :
    TerminalFormed reviewHost reviewEntry reviewSettle := by
  intro terminal ref given known
  obtain rfl : reviewTerminal = terminal := Json.object.inj (Option.some.inj given)
  obtain rfl : reviewGoal = ref := Option.some.inj known
  refine ⟨?_, fun a mem b mem' _ => ?_⟩
  · refine (distinct_object _).mpr ⟨by decide, ?_⟩
    simp [Distinct]
  · have same : orNull (reviewEntry.lookup "goal_ref") = reviewGoal := rfl
    rw [same] at mem mem'
    simp only [List.mem_cons, List.not_mem_nil, or_false, or_self] at mem mem'
    rw [mem, mem']

private theorem runControl_append (host : ControlHost) (entry : Fields)
    (front back : List ControlRequest) :
    runControl host entry (front ++ back) = runControl host (runControl host entry front) back :=
  List.foldl_append

private theorem runControl_cons (host : ControlHost) (entry : Fields) (request : ControlRequest)
    (requests : List ControlRequest) :
    runControl host entry (request :: requests) =
      runControl host (controlStep host entry request) requests := rfl

private theorem runControl_nil (host : ControlHost) (entry : Fields) :
    runControl host entry [] = entry := rfl

private theorem reviewControl_valid : ∃ original,
    initial reviewHost reviewEntry = .ok original ∧
      reviewControl.Valid reviewHost reviewEntry original :=
  valid_of_readRequestControl readRequestControl_review

private theorem filling_review : Filling reviewControl false [] [] 0 := by
  obtain ⟨original, declared, valid⟩ := reviewControl_valid
  exact ⟨readRequestControl_withControl declared valid,
    isBareSha256_canonical reviewHost _, ⟨false, rfl⟩, rfl, rfl, rfl, Nat.zero_le _⟩

private theorem filling_reviewReads {s : Control} {n : Nat} (h : Filling s true [reviewReservation]
      ["assess", "reserve"] 10000) (bound : n ≤ 60) :
    ∃ t, runControl reviewHost (withControl reviewEntry s)
        ((List.range n).map fun k => reviewRead (reviewName k)) = withControl reviewEntry t ∧
      Filling t true [reviewReservation]
        (["assess", "reserve"] ++ (List.range n).map reviewName) 10000 := by
  induction n with
  | zero => exact ⟨s, rfl, h⟩
  | succ n ih =>
    obtain ⟨t, run, filling⟩ := ih (by omega)
    have fresh : reviewName n ∉ ["assess", "reserve"] ++ (List.range n).map reviewName := by
      intro mem
      rcases List.mem_append.mp mem with first | later
      · have lists := toList_reviewName n
        simp only [List.mem_cons, List.not_mem_nil, or_false] at first
        rcases first with same | same <;> rw [same] at lists
        · cases lists
        · cases n with
          | zero => cases lists
          | succ n => cases lists
      · obtain ⟨m, earlier, same⟩ := List.mem_map.mp later
        have one := reviewName_injective same
        rw [List.mem_range] at earlier
        omega
    have limit : (["assess", "reserve"] ++ (List.range n).map reviewName).length < 62 := by
      simp only [List.length_append, List.length_cons, List.length_nil, List.length_map,
        List.length_range]
      omega
    obtain ⟨u, stepped, filled⟩ := filling.takes_read (Or.inr rfl)
      (isSafeId_reviewName (n := n) (by omega)) fresh limit (Nat.le_refl _)
    refine ⟨u, ?_, ?_⟩
    · rw [List.range_succ, List.map_append, runControl_append, run, List.map_singleton,
        runControl_cons, stepped, runControl_nil]
    · rw [List.range_succ, List.map_append, ← List.append_assoc]
      exact filled

/-- The record is full, but for the room of its cancellation and of its settlement. -/
private theorem filling_reviewFront : ∃ s,
    runControl reviewHost (withControl reviewEntry reviewControl) reviewFront =
        withControl reviewEntry s ∧
      Filling s true [reviewReservation]
        (["assess", "reserve"] ++ (List.range 60).map reviewName) 10000 := by
  obtain ⟨a, assessed, filling⟩ := filling_review.takes_assess (by decide) (by decide) (by decide)
  obtain ⟨b, reserved, filling⟩ := filling.takes_reserve (by decide) (by decide)
  obtain ⟨s, run, filled⟩ := filling_reviewReads filling (Nat.le_refl 60)
  refine ⟨s, ?_, filled⟩
  rw [reviewFront, runControl_append, runControl_cons, assessed, runControl_cons, reserved,
    runControl_nil, run]

private theorem initializeControlledRequest_review :
    initializeControlledRequest reviewHost reviewEntry =
      .ok (withControl reviewEntry reviewControl) := by
  have room : recoverableRecordBytes reviewEntry reviewControl ≤ MAX_RECORD_BYTES :=
    @recoverable_review _ false false [] [] (isBareSha256_canonical reviewHost _) (Or.inl rfl)
      (by decide) (by decide)
  rw [initializeControlledRequest, readRequestControl_review, ok_bind, ensure_of room, ok_bind]

private theorem summary_reviewTerminal :
    requestTerminalSummary reviewHost (some (.object reviewTerminal)) reviewReservation =
      .ok reviewTerminal := by
  have row : requireJsonObject (some (.object reviewTerminal)) "Goal terminal receipt" =
      .ok reviewTerminal := by rfl
  have names : controlKeys reviewTerminal terminalKeys = .ok () := by rfl
  have same : sameJson reviewHost (orNull (reviewTerminal.lookup "goal_ref"))
      (orNull (reviewReservation.binding.lookup "goal_ref")) = true := sameJson_self _
  have rest : (do
      let _ ← controlDigest (reviewTerminal.lookup "receipt_sha256") "Goal terminal receipt digest"
      ensure (reviewTerminal.lookup "goal_changed" =
          some (Json.bool (decide (reviewTerminal.lookup "outcome" = some (Json.string "committed")))))
        "Goal terminal receipt has inconsistent effect facts"
      checkTerminalWork reviewTerminal reviewReservation
      (.ok reviewTerminal : Checked Fields)) = .ok reviewTerminal := by
    rfl
  rw [requestTerminalSummary, row, ok_bind, names, ok_bind,
    ensure_of ⟨rfl, rfl, same, by decide⟩, ok_bind]
  exact rest

/-- After the settlement the record holds one operation more than a cancellation may find. -/
private theorem filling_reviewSettle {s : Control}
    (h : Filling s true [reviewReservation]
      (["assess", "reserve"] ++ (List.range 60).map reviewName) 10000)
    (recoverable : Recoverable (withControl reviewEntry s) s) :
    ∃ t, readRequestControl reviewHost
        (controlStep reviewHost (withControl reviewEntry s) reviewSettle) = .ok t ∧
      (controlStep reviewHost (withControl reviewEntry s) reviewSettle = withControl reviewEntry t) ∧
      t.cancellation = none ∧ t.operations.length = 63 ∧ t.revisions = s.revisions ∧
      ∀ receipt ∈ t.operations, receipt.operationId ≠ "stop" := by
  have differ : DigestsDiffer reviewHost s := by
    rw [DigestsDiffer, h.reservations_]
    intro a mem b mem' _
    rw [List.mem_singleton.mp mem, List.mem_singleton.mp mem']
  have operation : controlOperation reviewEntry reviewSettle.input = .ok .settle := by rfl
  have settles : MatchingSettle reviewHost (withControl reviewEntry s) s reviewReservation
      reviewSettle := by
    refine ⟨⟨authenticate_fromWorker rfl, ⟨_, requestedBasis_fromWorker rfl⟩,
      ⟨reviewTime, rfl, by decide, by decide⟩⟩, ?_, rfl, rfl,
      ⟨reviewTerminal, rfl, summary_reviewTerminal⟩,
      terminalFormed_withControl.2 terminalFormed_reviewSettle⟩
    exact (controlOperation_withControl _).trans operation
  have mem : reviewReservation ∈ s.reservations := by
    rw [h.reservations_]
    exact List.mem_singleton_self _
  obtain ⟨plan, planned, changed⟩ := recoverable.takes_settle h.read differ mem rfl settles
  rcases planRequestControl_eq_ok h.read planned with
    ⟨unchanged, _⟩ | ⟨_, op, operationId, now, after, result, admitted⟩
  · rw [changed] at unchanged
    cases unchanged
  · have readback := admitted.read h.read
    have stored := admitted.stored
    have effect := admitted.effect
    have one := admitted.operation
    rw [controlOperation_withControl, operation] at one
    obtain rfl := Except.ok.inj one
    have given : operationId = settleName reviewReservation.digest := by
      have same := (controlId_eq_ok.mp admitted.named).1
      exact (Json.string.inj (Option.some.inj same)).symm
    have count : s.operations.length = 62 := by
      have names := congrArg List.length h.names_
      rw [List.length_map] at names
      exact names
    have stepped : controlStep reviewHost (withControl reviewEntry s) reviewSettle = plan.entry := by
      rw [controlStep, planned]
    refine ⟨_, by rw [stepped]; exact readback, ?_, ?_, ?_, ?_, ?_⟩
    · rw [stepped, stored, withControl_withControl]
    · cases effect
      exact h.uncancelled
    · rw [Control.record, List.length_append, List.length_singleton, effect.operations, count]
    · cases effect
      rfl
    · intro receipt mem
      rcases mem_record.1 mem with old | rfl
      · rw [effect.operations] at old
        have named := List.mem_map_of_mem (f := OperationReceipt.operationId) old
        rw [h.names_] at named
        rintro stop
        rw [stop] at named
        rcases List.mem_append.mp named with first | reading
        · exact absurd first (by decide)
        · obtain ⟨n, _, same⟩ := List.mem_map.mp reading
          have lists := toList_reviewName n
          rw [same] at lists
          cases lists
      · rw [given]
        exact (apart_of_head (by decide) _).symm

/-- A record that holds its last operation but one is never cancelled again. -/
theorem cancel_refused {host : ControlHost} {entry : Fields} {s : Control}
    {request : ControlRequest} (read : readRequestControl host entry = .ok s)
    (operation : controlOperation entry request.input = .ok .cancel)
    (full : MAX_OPERATIONS - 1 ≤ s.operations.length) : ¬Takes host entry request := by
  rintro ⟨plan, planned, changed⟩
  rcases planRequestControl_eq_ok read planned with
    ⟨unchanged, _⟩ | ⟨_, op, operationId, now, after, result, admitted⟩
  · rw [changed] at unchanged
    cases unchanged
  · obtain rfl := Except.ok.inj (operation.symm.trans admitted.operation)
    exact absurd admitted.count (Nat.not_lt.mpr full)

private theorem admissible_reviewStop {s : Control} (read assessed : Bool)
    (revisions : s.revisions = [reviewMarks read assessed])
    (unused : ∀ receipt ∈ s.operations, receipt.operationId ≠ "stop") :
    AdmissibleCancel reviewHost (withControl reviewEntry s) s reviewStop := by
  refine ⟨⟨?_, ⟨none, rfl⟩, ⟨reviewTime, rfl, by decide, by decide⟩⟩,
    controlOperation_withControl _, decide_eq_true rfl,
    ⟨"stop", rfl, ⟨by decide, by decide⟩, unused⟩,
    ⟨reviewMarks read assessed, ?_, rfl, ?_⟩, ⟨"No longer needed", rfl, by decide⟩⟩
  · rw [authenticate_withControl]
    decide
  · rw [revisions]
    rfl
  · rw [requestRevisionDigest_withControl, requestRevisionDigest_review]
    rfl

private theorem shortTime_reviewStop : ShortTime reviewStop := by
  intro now given
  rw [← Json.string.inj (Option.some.inj given)]
  decide

end Loopx.Collaboration
