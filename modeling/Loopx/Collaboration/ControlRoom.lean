/- GID: Loopx/Collaboration/ControlRoom
   generality: I
   source: loopx/control_plane/collaboration/request_control.ts
   digest: The bytes a record keeps free for its cancellation and for the receipt of its effect. -/

import Loopx.Collaboration.ControlRuns
import Loopx.Json.ByteBudget
import Loopx.Lib.AsciiCase

set_option autoImplicit false
set_option relaxedAutoImplicit false

namespace Loopx.Collaboration

open Loopx.Lib.KeyedList
open Loopx.Lib.RowLog
open Loopx.Lib.Fallible (bind_eq_ok ok_bind)
open Loopx.Lib.AsciiCase (isUpper_iff isLower_iff)
open Loopx.Lib.Strip (stripEnds stripEnds_of_forall)
open Loopx.Authority (canonicalAuthoritySha256 isBareSha256 isHexDigit isJsSpace trim)
open Loopx.Lease (utf16Length)
open Loopx.Json

/-! ## The bytes of a record -/

/-- The bytes of everything in a record but its frame. -/
def Control.payload (control : Control) : Nat :=
  byteLength (.string control.requestSha256) +
    byteLength (.array (control.revisions.map Revision.toJson)) +
    byteLength ((control.cancellation.map Cancellation.toJson).getD .null) +
    byteLength (.array (control.reservations.map Reservation.toJson)) +
    byteLength (.array (control.operations.map OperationReceipt.toJson))

theorem byteLength_control (control : Control) :
    byteLength control.toJson = control.payload + byteLength (.string REQUEST_CONTROL_SCHEMA) +
      charBytes (["schema_version", "request_sha256", "revisions", "cancellation",
        "reservations", "operations"].flatMap quoteString) + 13 := by
  simp only [Control.toJson, byteLength_object, Control.payload, List.length_cons, List.length_nil,
    List.map_cons, List.map_nil, List.sum_cons, List.sum_nil, fieldBytes, List.flatMap_cons,
    List.flatMap_nil, charBytes_append, charBytes_nil]
  omega

/-- Two records of one entry differ in their bytes as their payloads do. -/
theorem byteLength_withControl (entry : Fields) (a b : Control) :
    byteLength (.object (withControl entry a)) + b.payload =
      byteLength (.object (withControl entry b)) + a.payload := by
  have same := byteLength_setKey entry "request_control" a.toJson b.toJson
  rw [byteLength_control, byteLength_control] at same
  rw [withControl, withControl]
  omega

theorem byteLength_receipt (receipt : OperationReceipt) :
    byteLength receipt.toJson = 45 + byteLength (.string receipt.operationId) +
      byteLength (.string receipt.requestSha256) + byteLength (.object receipt.result) := by
  have operation : charBytes (quoteString "operation_id") = 14 := rfl
  have digest : charBytes (quoteString "request_sha256") = 16 := rfl
  have result : charBytes (quoteString "result") = 8 := rfl
  rw [OperationReceipt.toJson, byteLength_object]
  simp only [List.length_cons, List.length_nil, List.map_cons, List.map_nil, List.sum_cons,
    List.sum_nil, fieldBytes, operation, digest, result]
  omega

theorem byteLength_cancellation (cancellation : Cancellation) :
    byteLength cancellation.toJson = 43 + byteLength (.string cancellation.operationId) +
      byteLength (.string cancellation.reason) +
      byteLength (.string cancellation.requestedAt) := by
  have operation : charBytes (quoteString "operation_id") = 14 := rfl
  have reason : charBytes (quoteString "reason") = 8 := rfl
  have time : charBytes (quoteString "requested_at") = 14 := rfl
  rw [Cancellation.toJson, byteLength_object]
  simp only [List.length_cons, List.length_nil, List.map_cons, List.map_nil, List.sum_cons,
    List.sum_nil, fieldBytes, operation, reason, time]
  omega

theorem byteLength_reservation (reservation : Reservation) :
    byteLength reservation.toJson = 34 + byteLength (.object reservation.binding) +
      byteLength (.string reservation.digest) +
      byteLength ((reservation.terminal.map Json.object).getD .null) := by
  have binding : charBytes (quoteString "binding") = 9 := rfl
  have digest : charBytes (quoteString "digest") = 8 := rfl
  have terminal : charBytes (quoteString "terminal") = 10 := rfl
  rw [Reservation.toJson, Reservation.fields, byteLength_object]
  simp only [List.length_cons, List.length_nil, List.map_cons, List.map_nil, List.sum_cons,
    List.sum_nil, fieldBytes, binding, digest, terminal]
  omega

theorem byteLength_settleResult (terminal : Fields) :
    byteLength (.object (settleResult terminal)) = 34 + byteLength (.object terminal) := by
  have operation : charBytes (quoteString "operation") = 11 := rfl
  have settle : byteLength (.string "settle") = 8 := rfl
  have key : charBytes (quoteString "terminal") = 10 := rfl
  rw [settleResult, byteLength_object]
  simp only [List.length_cons, List.length_nil, List.map_cons, List.map_nil, List.sum_cons,
    List.sum_nil, fieldBytes, operation, settle, key]
  omega

theorem byteLength_reserveResult (reservation : Reservation) :
    byteLength (.object (reserveResult reservation)) = 38 + byteLength reservation.toJson := by
  have operation : charBytes (quoteString "operation") = 11 := rfl
  have reserve : byteLength (.string "reserve") = 9 := rfl
  have key : charBytes (quoteString "reservation") = 13 := rfl
  rw [reserveResult, byteLength_object]
  simp only [List.length_cons, List.length_nil, List.map_cons, List.map_nil, List.sum_cons,
    List.sum_nil, fieldBytes, operation, reserve, key]
  omega

/-- A receipt of a cancellation is one byte longer where no effect is pending. -/
theorem byteLength_cancelResult (revision : Nat) :
    byteLength (.object (cancelResult revision false)) =
      byteLength (.object (cancelResult revision true)) + 1 := by
  have yes : byteLength (.bool true) = 4 := rfl
  have no : byteLength (.bool false) = 5 := rfl
  simp only [cancelResult, byteLength_object, List.length_cons, List.length_nil, List.map_cons,
    List.map_nil, List.sum_cons, List.sum_nil, fieldBytes, yes, no]
  omega

/-! ## The bytes of admissible texts -/

private theorem isPlain_of_range {c : Char} (h : (48 ≤ c.toNat ∧ c.toNat ≤ 57) ∨
    (65 ≤ c.toNat ∧ c.toNat ≤ 90) ∨ (97 ≤ c.toNat ∧ c.toNat ≤ 122)) :
    IsPlain c ∧ c.toNat ≠ 32 := by
  have other : ∀ d : Char, d.toNat = 34 ∨ d.toNat = 92 → c ≠ d := by
    rintro d code rfl
    omega
  exact ⟨⟨by omega, by omega, other _ (Or.inl rfl), other _ (Or.inr rfl)⟩, by omega⟩

private theorem isPlain_of_isAlphanum {c : Char} (h : c.isAlphanum = true) :
    IsPlain c ∧ c.toNat ≠ 32 := by
  change ((c.isUpper || c.isLower) || c.isDigit) = true at h
  simp only [Bool.or_eq_true] at h
  rcases h with (upper | lower) | digit
  · exact isPlain_of_range (Or.inr (Or.inl (isUpper_iff.mp upper)))
  · exact isPlain_of_range (Or.inr (Or.inr (isLower_iff.mp lower)))
  · exact isPlain_of_range (Or.inl (Char.isDigit_iff_toNat.mp digit))

/-- A safe identifier is plain text without blanks. -/
private theorem isPlain_of_isSafeIdentifier {s : String} (h : isSafeIdentifier s = true) :
    ∀ c ∈ s.toList, IsPlain c ∧ c.toNat ≠ 32 := by
  have mark : ∀ c ∈ ['_', '.', ':', '-'], IsPlain c ∧ c.toNat ≠ 32 := by
    intro c mem
    simp only [List.mem_cons, List.not_mem_nil, or_false] at mem
    rcases mem with rfl | rfl | rfl | rfl <;> decide
  unfold isSafeIdentifier at h
  split at h
  · cases h
  · next first rest listed =>
    obtain ⟨start, later⟩ := Bool.and_eq_true_iff.mp h
    rw [listed]
    refine List.forall_mem_cons.mpr ⟨isPlain_of_isAlphanum start, fun c mem => ?_⟩
    have each := List.all_eq_true.mp later c mem
    rcases Bool.or_eq_true_iff.mp each with alphanum | marked
    · exact isPlain_of_isAlphanum alphanum
    · exact mark c (of_decide_eq_true marked)

private theorem utf16Length_cons (c : Char) (cs : List Char) :
    utf16Length (c :: cs) = (if 0xffff < c.toNat then 2 else 1) + utf16Length cs := by
  simp [utf16Length]

/-- Text of a bounded number of code units, which escaping may take to six bytes each. -/
theorem byteLength_controlText {max : Nat} {s : String} (h : isControlText max s = true) :
    byteLength (.string s) ≤ 6 * max + 2 := by
  have body : ∀ cs : List Char, charBytes (cs.flatMap quoteChar) ≤ 6 * utf16Length cs := by
    intro cs
    induction cs with
    | nil => exact Nat.le_refl _
    | cons c cs ih =>
      have one := charBytes_quoteChar_le_six c
      rw [List.flatMap_cons, charBytes_append, utf16Length_cons]
      split <;> omega
  simp only [isControlText, Bool.and_eq_true, decide_eq_true_eq] at h
  have units : utf16Length s.toList ≤ max := h.1.2
  have whole := body s.toList
  rw [byteLength_string]
  omega

private theorem length_le_stringLength (s : String) : s.toList.length ≤ stringLength s := by
  have each : ∀ cs : List Char, cs.length ≤ utf16Length cs := by
    intro cs
    induction cs with
    | nil => exact Nat.le_refl _
    | cons c cs ih =>
      rw [List.length_cons, utf16Length_cons]
      split <;> omega
  exact each s.toList

theorem byteLength_safeId_eq {s : String} (h : IsSafeId s) :
    byteLength (.string s) = s.toList.length + 2 := by
  rw [byteLength_string_plain fun c mem => (isPlain_of_isSafeIdentifier h.2 c mem).1, Nat.add_comm]

/-- A short safe identifier is text of the record. -/
theorem isSafeId_of_length {s : String} (h : isSafeIdentifier s = true)
    (short : s.toList.length ≤ 160) : IsSafeId s := by
  have plain := isPlain_of_isSafeIdentifier h
  have trimmed : trim s = s := by
    have blank : ∀ c ∈ s.toList, isJsSpace c = false := by
      intro c mem
      obtain ⟨⟨low, high, _⟩, space⟩ := plain c mem
      simp only [isJsSpace, Bool.or_eq_false_iff, Bool.and_eq_false_iff, decide_eq_false_iff_not]
      omega
    change String.ofList (stripEnds isJsSpace s.toList) = s
    rw [stripEnds_of_forall blank, String.ofList_toList]
  have units : ∀ cs : List Char, (∀ c ∈ cs, c.toNat < 127) → utf16Length cs = cs.length := by
    intro cs low
    induction cs with
    | nil => rfl
    | cons c cs ih =>
      have first := low c List.mem_cons_self
      rw [utf16Length_cons, ih fun d mem => low d (List.mem_cons_of_mem _ mem), if_neg (by omega),
        List.length_cons, Nat.add_comm]
  have nonempty : s ≠ "" := by
    rintro rfl
    cases h
  have control : '\x00' ∉ s.toList := fun mem => by
    have low := (plain _ mem).1.1
    exact absurd low (by decide)
  refine ⟨?_, h⟩
  have length : stringLength s ≤ 160 := by
    rw [stringLength, units s.toList fun c mem => (plain c mem).1.2.1]
    exact short
  simp [isControlText, trimmed, nonempty, length, control]

theorem byteLength_safeId {s : String} (h : IsSafeId s) : byteLength (.string s) ≤ 162 := by
  have bound := h.1
  simp only [isControlText, Bool.and_eq_true, decide_eq_true_eq] at bound
  have count := length_le_stringLength s
  rw [byteLength_safeId_eq h]
  omega

private theorem isPlain_of_isHexDigit {c : Char} (h : isHexDigit c = true) :
    IsPlain c ∧ c.toNat ≠ 32 := by
  simp only [isHexDigit, Bool.or_eq_true, Bool.and_eq_true, decide_eq_true_eq] at h
  exact isPlain_of_range (by omega)

theorem byteLength_bareSha256 {s : String} (h : isBareSha256 s = true) :
    byteLength (.string s) = 66 := by
  obtain ⟨length, digits⟩ := Bool.and_eq_true_iff.mp h
  rw [byteLength_string_plain fun c mem =>
    (isPlain_of_isHexDigit (List.all_eq_true.mp digits c mem)).1, of_decide_eq_true length]

/-! ## The bytes of a terminal receipt -/

section

variable {host : ControlHost} {entry : Fields}

/-- An object of exactly the given names has each once. -/
theorem nodup_of_controlKeys {row : Fields} {names : List String} {u : Unit}
    (distinct : names.Nodup) (h : controlKeys row names = .ok u) :
    (keys row).Nodup ∧ ∀ field ∈ row, field.1 ∈ names := by
  obtain ⟨length, each⟩ := controlKeys_eq_ok.mp h
  have subset : names ⊆ keys row := fun name mem => lookup_isSome.mp (each name mem)
  have count : (keys row).length = names.length := by rw [keys, List.length_map, length]
  have perm := (List.subperm_of_subset distinct subset).perm_of_length_le count.le
  exact ⟨perm.nodup_iff.mp distinct, fun field mem =>
    perm.mem_iff.mpr (List.mem_map_of_mem mem)⟩

/-- What a matching terminal receipt says. -/
private structure TerminalFields (row : Fields) (reservation : Reservation) : Prop where
  keys_ : (keys row).Nodup ∧ ∀ field ∈ row, field.1 ∈ terminalKeys
  operationId : row.lookup "operation_id" = reservation.binding.lookup "operation_id"
  digest : row.lookup "reservation_digest" = some (.string reservation.digest)
  outcome : ∃ outcome ∈ REQUEST_AMENDMENT_OUTCOMES, row.lookup "outcome" = some (.string outcome) ∧
    row.lookup "goal_changed" = some (.bool (decide (outcome = "committed")))
  revision : ∃ v, row.lookup "goal_revision" = some v ∧ byteLength v ≤ 16
  todo : ∃ v, row.lookup "todo_id" = some v ∧ byteLength v ≤ 162
  receipt : ∃ s, row.lookup "receipt_sha256" = some (.string s) ∧ isBareSha256 s = true

private theorem positiveInteger_bytes {value : Option Json} {name : String} {n : Nat}
    (h : positiveInteger value name = .ok n) : ∃ v, value = some v ∧ byteLength v ≤ 16 := by
  unfold positiveInteger at h
  split at h
  · next number =>
    split at h
    · next i safe =>
      split at h
      · next pos => exact ⟨_, rfl, byteLength_safeInteger safe pos⟩
      · cases h
    · cases h
  · cases h

private theorem terminalFields_of_summary {row : Fields} {reservation : Reservation}
    (h : requestTerminalSummary host (some (.object row)) reservation = .ok row) :
    TerminalFields row reservation := by
  obtain ⟨given, hgiven, h⟩ := bind_eq_ok.mp h
  obtain rfl := Json.object.inj (Option.some.inj (requireJsonObject_eq_ok.mp hgiven))
  obtain ⟨_, names, h⟩ := bind_eq_ok.mp h
  obtain ⟨_, matched, h⟩ := bind_eq_ok.mp h
  obtain ⟨receipt, hreceipt, h⟩ := bind_eq_ok.mp h
  obtain ⟨_, changed, h⟩ := bind_eq_ok.mp h
  obtain ⟨_, work, h⟩ := bind_eq_ok.mp h
  obtain ⟨operationId, digest, _, known⟩ := ensure_eq_ok.mp matched
  obtain ⟨outcome, houtcome, listed⟩ : ∃ outcome, row.lookup "outcome" = some (.string outcome) ∧
      outcome ∈ REQUEST_AMENDMENT_OUTCOMES := by
    unfold stringWhere at known
    split at known
    · next s same => exact ⟨s, same, List.contains_iff_mem.mp known⟩
    · cases known
  have changed' := ensure_eq_ok.mp changed
  rw [houtcome] at changed'
  obtain ⟨revision, todo⟩ : (∃ v, row.lookup "goal_revision" = some v ∧ byteLength v ≤ 16) ∧
      ∃ v, row.lookup "todo_id" = some v ∧ byteLength v ≤ 162 := by
    unfold checkTerminalWork at work
    split at work
    · obtain ⟨revision, hrevision, work⟩ := bind_eq_ok.mp work
      obtain ⟨base, _, work⟩ := bind_eq_ok.mp work
      obtain ⟨_, _, work⟩ := bind_eq_ok.mp work
      obtain ⟨todo, htodo, work⟩ := bind_eq_ok.mp work
      obtain ⟨same, safe⟩ := controlId_eq_ok.mp htodo
      exact ⟨positiveInteger_bytes hrevision, _, same, byteLength_safeId safe⟩
    · obtain ⟨revision, todo⟩ := ensure_eq_ok.mp work
      exact ⟨⟨_, revision, by decide⟩, _, todo, by decide⟩
  obtain ⟨shaGiven, sha⟩ := controlDigest_eq_ok.mp hreceipt
  refine ⟨nodup_of_controlKeys (by decide) names, operationId, digest, ⟨outcome, listed, houtcome, ?_⟩,
    revision, todo, _, shaGiven, sha⟩
  rw [changed']
  simp

theorem null_le_worstTerminal (row : Reservation) :
    4 ≤ byteLength (.object (worstTerminal row)) := by
  rw [byteLength_object, worstTerminal]
  simp only [List.length_cons]
  omega

/-- A terminal receipt is no longer than the largest one that is planned for. -/
theorem byteLength_terminal {row : Fields} {reservation : Reservation}
    (h : requestTerminalSummary host (some (.object row)) reservation = .ok row)
    (ref : byteLength (orNull (row.lookup "goal_ref")) ≤
      byteLength (orNull (reservation.binding.lookup "goal_ref"))) :
    byteLength (.object row) ≤ byteLength (.object (worstTerminal reservation)) := by
  obtain ⟨⟨distinct, named⟩, operationId, digest, ⟨outcome, listed, houtcome, changed⟩,
    ⟨revision, hrevision, revisionBytes⟩, ⟨todo, htodo, todoBytes⟩, receipt, hreceipt, sha⟩ :=
    terminalFields_of_summary h
  have largest : byteLength (natJson JsNumber.maxSafeInteger) = 16 := by decide
  have todoRoom : byteLength (.string (repeated 160 't')) = 162 :=
    byteLength_string_replicate 160 't'
  have shaRoom : byteLength (.string (repeated 64 'f')) = 66 := byteLength_string_replicate 64 'f'
  -- the planned receipt, with this receipt's own outcome
  let outcomePlanned := setKey (worstTerminal reservation) "outcome" (.string outcome)
  let planned := setKey outcomePlanned "goal_changed" (.bool (decide (outcome = "committed")))
  have within : byteLength (.object row) ≤ byteLength (.object planned) := by
    refine byteLength_object_le distinct fun field mem => ?_
    have looked := lookup_of_mem distinct mem
    have name := named field mem
    simp only [terminalKeys, List.mem_cons, List.not_mem_nil, or_false] at name
    simp only [planned, outcomePlanned, lookup_setKey, worstTerminal, lookup_cons_ite]
    rcases name with name | name | name | name | name | name | name | name <;>
      rw [name] at looked ⊢ <;> simp only [String.reduceEq, if_true, if_false]
    · refine ⟨_, rfl, ?_⟩
      rw [← operationId, looked]
      exact Nat.le_refl _
    · refine ⟨_, rfl, ?_⟩
      rw [Option.some.inj (looked.symm.trans digest)]
    · refine ⟨_, rfl, ?_⟩
      rw [Option.some.inj (looked.symm.trans houtcome)]
    · refine ⟨_, rfl, ?_⟩
      rw [looked] at ref
      exact ref
    · refine ⟨_, rfl, ?_⟩
      rw [Option.some.inj (looked.symm.trans changed)]
    · refine ⟨_, rfl, ?_⟩
      rw [Option.some.inj (looked.symm.trans hrevision), largest]
      exact revisionBytes
    · refine ⟨_, rfl, ?_⟩
      rw [Option.some.inj (looked.symm.trans htodo), todoRoom]
      exact todoBytes
    · refine ⟨_, rfl, ?_⟩
      rw [Option.some.inj (looked.symm.trans hreceipt), shaRoom, byteLength_bareSha256 sha]
  have outcomeBytes := byteLength_setKey (worstTerminal reservation) "outcome" (.string outcome)
    (.string "committed")
  have changedBytes := byteLength_setKey outcomePlanned "goal_changed"
    (.bool (decide (outcome = "committed"))) (.bool true)
  have outcomeSelf : setKey (worstTerminal reservation) "outcome" (.string "committed") =
      worstTerminal reservation := setKey_self (by simp [worstTerminal, lookup_cons_ite])
  have changedSelf : setKey outcomePlanned "goal_changed" (.bool true) = outcomePlanned :=
    setKey_self (by simp [outcomePlanned, lookup_setKey, worstTerminal, lookup_cons_ite])
  rw [outcomeSelf] at outcomeBytes
  rw [changedSelf] at changedBytes
  refine within.trans ?_
  have yes : byteLength (.bool true) = 4 := rfl
  have no : byteLength (.bool false) = 5 := rfl
  have committed : byteLength (.string "committed") = 11 := rfl
  have aborted : byteLength (.string "aborted") = 9 := rfl
  have rejected : byteLength (.string "rejected") = 10 := rfl
  have cost : byteLength (.string outcome) +
      byteLength (.bool (decide (outcome = "committed"))) ≤ 15 := by
    simp only [REQUEST_AMENDMENT_OUTCOMES, List.mem_cons, List.not_mem_nil, or_false] at listed
    rcases listed with rfl | rfl | rfl
    · rw [committed, decide_eq_true rfl, yes]
    · rw [aborted, decide_eq_false (by decide), no]
      omega
    · rw [rejected, decide_eq_false (by decide), no]
  change byteLength (.object planned) + _ = byteLength (.object outcomePlanned) + _ at changedBytes
  change byteLength (.object outcomePlanned) + _ = _ at outcomeBytes
  omega

/-! ## What stays recoverable -/

/-- The record with everything it may still have to take. -/
def Control.worst (control : Control) : Control :=
  withWorstTerminal control.active (withWorstCancellation control)

theorem recoverable_eq (control : Control) : recoverableRecordBytes entry control =
    byteLength (.object (withControl entry control.worst)) := rfl

theorem recoverable_le_of_payload {s t : Control} (h : s.worst.payload ≤ t.worst.payload) :
    recoverableRecordBytes entry s ≤ recoverableRecordBytes entry t := by
  have same := byteLength_withControl entry s.worst t.worst
  rw [recoverable_eq, recoverable_eq]
  omega

/-- The largest cancellation, and its receipt. -/
def worstCancellation : Cancellation := ⟨repeated 160 'c', repeated 2000 '\x01', repeated 64 '0'⟩

def worstCancellationReceipt (control : Control) : OperationReceipt :=
  ⟨repeated 160 'c', repeated 64 'f', cancelResult control.revisions.length control.active.isSome⟩

def worstSettlementReceipt (reservation : Reservation) : OperationReceipt :=
  ⟨repeated 160 's', repeated 64 'f', settleResult (worstTerminal reservation)⟩

private theorem byteLength_repeated_control (n : Nat) :
    byteLength (.string (repeated n '\x01')) = 2 + n * 6 :=
  byteLength_string_replicate n '\x01'

private theorem byteLength_worstCancellation : byteLength worstCancellation.toJson = 12273 := by
  have id : byteLength (.string worstCancellation.operationId) = 162 :=
    byteLength_string_replicate 160 'c'
  have reason : byteLength (.string worstCancellation.reason) = 2 + 2000 * 6 :=
    byteLength_repeated_control 2000
  have time : byteLength (.string worstCancellation.requestedAt) = 66 :=
    byteLength_string_replicate 64 '0'
  rw [byteLength_cancellation, id, reason, time]

private theorem byteLength_worstCancellationReceipt (control : Control) :
    byteLength (worstCancellationReceipt control).toJson = 273 +
      byteLength (.object (cancelResult control.revisions.length control.active.isSome)) := by
  have id : byteLength (.string (repeated 160 'c')) = 162 := byteLength_string_replicate 160 'c'
  have sha : byteLength (.string (repeated 64 'f')) = 66 := byteLength_string_replicate 64 'f'
  rw [byteLength_receipt, worstCancellationReceipt, id, sha]

private theorem byteLength_worstSettlementReceipt (reservation : Reservation) :
    byteLength (worstSettlementReceipt reservation).toJson = 307 +
      byteLength (.object (worstTerminal reservation)) := by
  have id : byteLength (.string (repeated 160 's')) = 162 := byteLength_string_replicate 160 's'
  have sha : byteLength (.string (repeated 64 'f')) = 66 := byteLength_string_replicate 64 'f'
  rw [byteLength_receipt, worstSettlementReceipt, id, sha, byteLength_settleResult]
  omega

private theorem withWorstCancellation_of_none {s : Control} (h : s.cancellation = none) :
    withWorstCancellation s = { s with
      cancellation := some worstCancellation
      operations := s.operations ++ [worstCancellationReceipt s] } := by
  rw [withWorstCancellation, h, if_neg (by simp)]
  rfl

private theorem withWorstCancellation_of_some {s : Control} (h : s.cancellation.isSome) :
    withWorstCancellation s = s := by
  rw [withWorstCancellation, if_pos h]

/-- The one unsettled reservation stands last. -/
theorem last_of_unsettled {rows : List Reservation} {i : Nat} {row : Reservation}
    (ordered : reservationsOrdered rows) (found : rows[i]? = some row)
    (unsettled : row.terminal = none) : i + 1 = rows.length := by
  obtain ⟨inside, here⟩ := List.getElem?_eq_some_iff.mp found
  by_contra earlier
  have settled := List.all_eq_true.mp ordered.2.1 row (by
    rw [List.dropLast_eq_take, List.mem_take_iff_getElem]
    exact ⟨i, by omega, here⟩)
  rw [unsettled] at settled
  cases settled

/-- The active reservation, at its place. -/
theorem active_of_unsettled {s : Control} {i : Nat} {row : Reservation}
    (ordered : reservationsOrdered s.reservations) (found : s.reservations[i]? = some row)
    (unsettled : row.terminal = none) : s.active = some row ∧ ∀ terminal,
      settleFirst (fun reservation => reservation.terminal.isNone) terminal s.reservations =
        s.reservations.set i { row with terminal := some terminal } := by
  have mem := List.mem_of_getElem? found
  cases known : s.active with
  | none =>
    have settled := List.find?_eq_none.mp known row mem
    rw [unsettled] at settled
    exact absurd rfl settled
  | some active =>
    have picked := List.find?_some known
    have place : ∀ terminal, ∃ j, s.reservations[j]? = some active ∧
        settleFirst (fun reservation => reservation.terminal.isNone) terminal s.reservations =
          s.reservations.set j { active with terminal := some terminal } :=
      fun terminal => settleFirst_eq_set known
    have same : ∀ j, s.reservations[j]? = some active → j = i ∧ active = row := by
      intro j there
      have last := last_of_unsettled ordered there (Option.isNone_iff_eq_none.mp picked)
      have last' := last_of_unsettled ordered found unsettled
      obtain rfl : j = i := by omega
      exact ⟨rfl, Option.some.inj (there.symm.trans found)⟩
    obtain ⟨j, there, _⟩ := place []
    obtain ⟨rfl, rfl⟩ := same j there
    refine ⟨rfl, fun terminal => ?_⟩
    obtain ⟨k, there', written⟩ := place terminal
    rw [written, (same k there').1]

/-- A cancellation takes no more than was kept for it. -/
theorem recoverable_cancel {s : Control} {operationId reason now requestSha : String}
    (uncancelled : s.cancellation = none) (named : IsSafeId operationId)
    (text : isControlText 2000 reason = true) (time : byteLength (.string now) ≤ 66)
    (digest : isBareSha256 requestSha = true) :
    recoverableRecordBytes entry (({ s with cancellation := some ⟨operationId, reason, now⟩ } :
      Control).record ⟨operationId, requestSha,
        controlResult .cancel { s with cancellation := some ⟨operationId, reason, now⟩ }⟩) ≤
      recoverableRecordBytes entry s := by
  have idBytes := byteLength_safeId named
  have reasonBytes := byteLength_controlText text
  have shaBytes := byteLength_bareSha256 digest
  have cancellationBytes := byteLength_cancellation ⟨operationId, reason, now⟩
  have worstBytes := byteLength_worstCancellation
  have receiptBytes := byteLength_receipt ⟨operationId, requestSha,
    controlResult .cancel { s with cancellation := some ⟨operationId, reason, now⟩ }⟩
  have resultBytes : byteLength (.object (controlResult .cancel { s with
      cancellation := some ⟨operationId, reason, now⟩ })) =
    byteLength (.object (cancelResult s.revisions.length s.active.isSome)) := rfl
  have worstReceipt := byteLength_worstCancellationReceipt s
  refine recoverable_le_of_payload ?_
  rw [Control.worst, Control.worst, withWorstCancellation_of_some rfl,
    withWorstCancellation_of_none uncancelled]
  change (withWorstTerminal s.active _).payload ≤ (withWorstTerminal s.active _).payload
  dsimp only at receiptBytes cancellationBytes
  cases s.active with
  | none =>
    unfold withWorstTerminal
    dsimp only
    unfold Control.payload Control.record
    dsimp only
    simp only [List.map_append, List.map_cons, List.map_nil, Option.map_some, Option.getD_some]
    rw [byteLength_array_concat, byteLength_array_concat]
    omega
  | some row =>
    unfold withWorstTerminal
    dsimp only
    unfold Control.payload Control.record
    dsimp only
    simp only [List.map_append, List.map_cons, List.map_nil, Option.map_some, Option.getD_some]
    rw [byteLength_array_concat_concat, byteLength_array_concat_concat]
    omega

/-- Once its last effect is settled, a request has none. -/
theorem active_settle {s : Control} {i : Nat} {row : Reservation} {terminal : Fields}
    (ordered : reservationsOrdered s.reservations) (found : s.reservations[i]? = some row)
    (unsettled : row.terminal = none) {t : Control}
    (settled : t.reservations = s.reservations.set i { row with terminal := some terminal }) :
    t.active = none := by
  rw [Control.active, settled, List.find?_eq_none]
  intro r mem pending
  obtain ⟨j, there⟩ := List.getElem?_of_mem mem
  rcases getElem?_set_cases there with ⟨_, rfl⟩ | ⟨apart, there⟩
  · cases pending
  · have last := last_of_unsettled ordered found unsettled
    have last' := last_of_unsettled ordered there (Option.isNone_iff_eq_none.mp pending)
    omega

private theorem worst_of_unsettled {s : Control} {i : Nat} {row : Reservation}
    (ordered : reservationsOrdered s.reservations) (found : s.reservations[i]? = some row)
    (unsettled : row.terminal = none) :
    s.worst = ⟨s.requestSha256, s.revisions, (withWorstCancellation s).cancellation,
      s.reservations.set i { row with terminal := some (worstTerminal row) },
      (withWorstCancellation s).operations ++ [worstSettlementReceipt row]⟩ := by
  obtain ⟨active, place⟩ := active_of_unsettled ordered found unsettled
  rw [Control.worst, active, withWorstTerminal, ← place]
  unfold withWorstCancellation
  split <;> rfl

private theorem byteLength_reservations_set {rows : List Reservation} {i : Nat}
    {row : Reservation} (found : rows[i]? = some row) (changed : Reservation) :
    byteLength (.array ((rows.set i changed).map Reservation.toJson)) + byteLength row.toJson =
      byteLength (.array (rows.map Reservation.toJson)) + byteLength changed.toJson := by
  have there : (rows.map Reservation.toJson)[i]? = some row.toJson := by
    rw [List.getElem?_map, found]
    rfl
  have sums := sum_map_set byteLength changed.toJson there
  rw [byteLength_array, byteLength_array, List.map_set, List.length_set]
  omega

section

variable {s : Control} {i : Nat} {row : Reservation} {terminal : Fields}
  {operationId requestSha : String}

/-- The record after the settlement of its active effect. -/
def settledRecord (s : Control) (i : Nat) (row : Reservation) (terminal : Fields)
    (operationId requestSha : String) : Control :=
  ({ s with reservations := s.reservations.set i { row with terminal := some terminal } } :
    Control).record ⟨operationId, requestSha, settleResult terminal⟩

/-- A settlement takes no more than was kept for it, and leaves what was kept for a cancellation. -/
theorem recoverable_settle (ordered : reservationsOrdered s.reservations)
    (found : s.reservations[i]? = some row) (unsettled : row.terminal = none)
    (smaller : byteLength (.object terminal) ≤ byteLength (.object (worstTerminal row)))
    (named : byteLength (.string operationId) ≤ 161) (digest : isBareSha256 requestSha = true) :
    byteLength (.object (withControl entry (settledRecord s i row terminal operationId requestSha))) ≤
        recoverableRecordBytes entry s ∧
      recoverableRecordBytes entry (settledRecord s i row terminal operationId requestSha) ≤
        recoverableRecordBytes entry s := by
  have shaBytes := byteLength_bareSha256 digest
  have receiptBytes := byteLength_receipt ⟨operationId, requestSha, settleResult terminal⟩
  have resultBytes := byteLength_settleResult terminal
  have worstReceipt := byteLength_worstSettlementReceipt row
  have settledBytes := byteLength_reservation { row with terminal := some terminal }
  have worstBytes := byteLength_reservation { row with terminal := some (worstTerminal row) }
  have settledSum := byteLength_reservations_set found { row with terminal := some terminal }
  have worstSum := byteLength_reservations_set found { row with terminal := some (worstTerminal row) }
  have active := (active_of_unsettled ordered found unsettled).1
  have idle : (settledRecord s i row terminal operationId requestSha).active = none :=
    active_settle ordered found unsettled rfl
  have idleWorst : (settledRecord s i row terminal operationId requestSha).worst =
      withWorstCancellation (settledRecord s i row terminal operationId requestSha) := by
    rw [Control.worst, idle]
    rfl
  dsimp only [Option.map_some, Option.getD_some] at receiptBytes settledBytes worstBytes
  have worst := worst_of_unsettled ordered found unsettled
  have within : (settledRecord s i row terminal operationId requestSha).payload ≤
      s.worst.payload ∧ (settledRecord s i row terminal operationId requestSha).worst.payload ≤
        s.worst.payload := by
    rw [idleWorst, worst]
    cases known : s.cancellation with
    | none =>
      have pendingBytes := byteLength_worstCancellationReceipt s
      have idleBytes := byteLength_worstCancellationReceipt
        (settledRecord s i row terminal operationId requestSha)
      have pending : s.active.isSome = true := by rw [active, Option.isSome_some]
      have cancelBytes := byteLength_worstCancellation
      have oneByte := byteLength_cancelResult s.revisions.length
      rw [pending] at pendingBytes
      rw [idle, Option.isSome_none] at idleBytes
      have known' : (settledRecord s i row terminal operationId requestSha).cancellation = none :=
        known
      rw [withWorstCancellation_of_none known, withWorstCancellation_of_none known']
      have noneBytes : byteLength ((s.cancellation.map Cancellation.toJson).getD .null) = 4 := by
        rw [known]
        rfl
      unfold settledRecord Control.payload Control.record at *
      dsimp only at *
      simp only [List.map_append, List.map_cons, List.map_nil, Option.map_some, Option.getD_some]
      rw [byteLength_array_concat, byteLength_array_concat_concat, byteLength_array_concat_concat]
      omega
    | some c =>
      have some : s.cancellation.isSome = true := by rw [known, Option.isSome_some]
      have some' : (settledRecord s i row terminal operationId requestSha).cancellation.isSome =
        true := some
      rw [withWorstCancellation_of_some some, withWorstCancellation_of_some some']
      unfold settledRecord Control.payload Control.record
      dsimp only
      simp only [List.map_append, List.map_cons, List.map_nil]
      rw [byteLength_array_concat, byteLength_array_concat]
      omega
  refine ⟨?_, recoverable_le_of_payload within.2⟩
  have frame := byteLength_withControl entry
    (settledRecord s i row terminal operationId requestSha) s.worst
  rw [recoverable_eq]
  omega

end

/-- What a record keeps free beyond its own bytes. -/
theorem recoverable_le_bytes {s : Control} {room : Nat} (uncancelled : s.cancellation = none)
    (ordered : reservationsOrdered s.reservations)
    (count : byteLength (natJson s.revisions.length) ≤ 16)
    (terminal : ∀ row ∈ s.active, byteLength (.object (worstTerminal row)) ≤ room) :
    recoverableRecordBytes entry s ≤
      byteLength (.object (withControl entry s)) + 13000 + 2 * room := by
  have cancelBytes := byteLength_worstCancellation
  have receiptBytes := byteLength_worstCancellationReceipt s
  have noneBytes : byteLength ((s.cancellation.map Cancellation.toJson).getD .null) = 4 := by
    rw [uncancelled]
    rfl
  have resultBytes : byteLength (.object (cancelResult s.revisions.length s.active.isSome)) ≤
      82 := by
    have pending : ∀ b : Bool, byteLength (.bool b) ≤ 5 := by decide
    have bound := pending s.active.isSome
    have operation : charBytes (quoteString "operation") = 11 := rfl
    have cancel : byteLength (.string "cancel") = 8 := rfl
    have revision : charBytes (quoteString "revision") = 10 := rfl
    have effect : charBytes (quoteString "reserved_effect_pending") = 25 := rfl
    rw [cancelResult, byteLength_object]
    simp only [List.length_cons, List.length_nil, List.map_cons, List.map_nil, List.sum_cons,
      List.sum_nil, fieldBytes, operation, cancel, revision, effect]
    omega
  have frame := byteLength_withControl entry s.worst s
  have operations := byteLength_array (s.operations.map OperationReceipt.toJson)
  rw [recoverable_eq]
  have within : s.worst.payload ≤ s.payload + 13000 + 2 * room := by
    cases known : s.active with
    | none =>
      rw [Control.worst, withWorstCancellation_of_none uncancelled, known]
      unfold withWorstTerminal
      dsimp only
      unfold Control.payload
      dsimp only
      simp only [List.map_append, List.map_cons, List.map_nil, Option.map_some, Option.getD_some]
      rw [byteLength_array_concat]
      omega
    | some row =>
      have settlement := byteLength_worstSettlementReceipt row
      have bound := terminal row known
      have unsettled : row.terminal = none := by
        have picked := List.find?_some known
        exact Option.isNone_iff_eq_none.mp picked
      obtain ⟨i, found⟩ := List.getElem?_of_mem (List.mem_of_find?_eq_some known)
      have worstSum := byteLength_reservations_set found
        { row with terminal := some (worstTerminal row) }
      have rowBytes := byteLength_reservation row
      have worstBytes := byteLength_reservation { row with terminal := some (worstTerminal row) }
      dsimp only [Option.map_some, Option.getD_some] at worstBytes
      rw [worst_of_unsettled ordered found unsettled, withWorstCancellation_of_none uncancelled]
      rw [unsettled] at rowBytes
      dsimp only [Option.map_none, Option.getD_none] at rowBytes
      unfold Control.payload
      dsimp only
      simp only [List.map_append, List.map_cons, List.map_nil, Option.map_some, Option.getD_some]
      rw [byteLength_array_concat_concat]
      omega
  omega

/-- A reservation is weighed with its terminal receipt in its own result as well. -/
theorem recoverable_reserve {s : Control} {row : Reservation} {operationId requestSha : String}
    (uncancelled : s.cancellation = none) (active : s.active = some row)
    (unsettled : row.terminal = none) :
    recoverableRecordBytes entry (s.record ⟨operationId, requestSha, reserveResult row⟩) ≤
      recoverableRecordBytes entry (s.record ⟨operationId, requestSha,
        reserveResult { row with terminal := some (worstTerminal row) }⟩) := by
  have rowBytes := byteLength_reservation row
  have worstBytes := byteLength_reservation { row with terminal := some (worstTerminal row) }
  have receiptBytes := byteLength_receipt ⟨operationId, requestSha, reserveResult row⟩
  have worstReceipt := byteLength_receipt ⟨operationId, requestSha,
    reserveResult { row with terminal := some (worstTerminal row) }⟩
  have resultBytes := byteLength_reserveResult row
  have worstResult := byteLength_reserveResult { row with terminal := some (worstTerminal row) }
  have filled := null_le_worstTerminal row
  have null : byteLength .null = 4 := rfl
  rw [unsettled] at rowBytes
  dsimp only [Option.map_none, Option.map_some, Option.getD_none, Option.getD_some] at *
  have shorter : byteLength (OperationReceipt.toJson ⟨operationId, requestSha,
      reserveResult row⟩) ≤ byteLength (OperationReceipt.toJson ⟨operationId, requestSha,
        reserveResult { row with terminal := some (worstTerminal row) }⟩) := by
    omega
  have replaced := byteLength_array_replace shorter (s.operations.map OperationReceipt.toJson)
    [(worstCancellationReceipt s).toJson, (worstSettlementReceipt row).toJson]
  have worst : ∀ receipt : OperationReceipt, (s.record receipt).worst =
      ⟨s.requestSha256, s.revisions, some worstCancellation,
        settleFirst (fun row => row.terminal.isNone) (worstTerminal row) s.reservations,
        s.operations ++ [receipt] ++ [worstCancellationReceipt s] ++
          [worstSettlementReceipt row]⟩ := by
    intro receipt
    have active' : (s.record receipt).active = some row := active
    have uncancelled' : (s.record receipt).cancellation = none := uncancelled
    rw [Control.worst, active', withWorstCancellation_of_none uncancelled']
    rfl
  have listed : ∀ receipt : OperationReceipt,
      (s.operations ++ [receipt] ++ [worstCancellationReceipt s] ++
        [worstSettlementReceipt row]).map OperationReceipt.toJson =
      s.operations.map OperationReceipt.toJson ++ receipt.toJson ::
        [(worstCancellationReceipt s).toJson, (worstSettlementReceipt row).toJson] := by
    intro receipt
    simp
  refine recoverable_le_of_payload ?_
  rw [worst, worst]
  unfold Control.payload
  dsimp only
  rw [listed, listed]
  omega

end

end Loopx.Collaboration
