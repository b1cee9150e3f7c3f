/- GID: Loopx/Collaboration/ControlSteps
   generality: I
   source: loopx/control_plane/collaboration/request_control.ts
   digest: What one accepted operation does to a record, and that the record stays valid. -/

import Loopx.Collaboration.ControlRoundTrip
import Loopx.Lib.RowLog

set_option autoImplicit false
set_option relaxedAutoImplicit false

namespace Loopx.Collaboration

open Loopx.Lib.KeyedList
open Loopx.Lib.RowLog
open Loopx.Lib.Fallible (bind_eq_ok ok_bind throwWhen_eq_ok)
open Loopx.Authority (canonicalAuthoritySha256 isBareSha256)

/-- What a revision says, without the marks of its receiver. -/
def Revision.text (revision : Revision) : Nat × CollaborationBrief × String × String :=
  (revision.revision, revision.brief, revision.reason, revision.createdAt)

section

variable {host : ControlHost} {entry input source : Fields}

theorem requestRevisionDigest_congr {a b : Revision} (same : a.text = b.text) :
    requestRevisionDigest host entry a = requestRevisionDigest host entry b := by
  simp only [Revision.text, Prod.mk.injEq] at same
  simp only [requestRevisionDigest, same]

theorem revisionAt_eq_some {revisions : List Revision} {number : Nat} {revision : Revision} :
    revisionAt revisions number = some revision ↔
      ∃ i, number = i + 1 ∧ revisions[i]? = some revision := by
  cases number with
  | zero => simp [revisionAt]
  | succ i => simp [revisionAt]

/-- What one accepted operation does to the record before its receipt is added, and its result. -/
inductive Effect (host : ControlHost) (entry input source : Fields) (operationId now : String)
    (s : Control) : ControlOperation → Control → Fields → Prop
  | revise {brief : CollaborationBrief} {reason : String} (normal : brief.Normal)
      (text : isControlText 2000 reason = true) (uncancelled : s.cancellation = none)
      (room : s.revisions.length < MAX_REVISIONS) :
      Effect host entry input source operationId now s .revise { s with
        revisions := s.revisions ++ [⟨s.revisions.length + 1, brief, reason, now, none, none⟩] }
        (controlResult .revise { s with
          revisions := s.revisions ++ [⟨s.revisions.length + 1, brief, reason, now, none, none⟩] })
  | cancel {reason : String} (text : isControlText 2000 reason = true)
      (uncancelled : s.cancellation = none) :
      Effect host entry input source operationId now s .cancel { s with
        cancellation := some ⟨operationId, reason, now⟩ }
        (controlResult .cancel { s with cancellation := some ⟨operationId, reason, now⟩ })
  | read {i : Nat} {row : Revision} (found : s.revisions[i]? = some row) :
      Effect host entry input source operationId now s .read { s with
        revisions := s.revisions.set i { row with readAt := some (row.readAt.getD now) } }
        (revisionResult .read row)
  | assess {i : Nat} {row : Revision} {decision : ReceiverDecision} {reason : String}
      (found : s.revisions[i]? = some row) (latest : i + 1 = s.revisions.length)
      (uncancelled : s.cancellation = none) (fresh : row.assessment = none)
      (text : isControlText 2000 reason = true) :
      Effect host entry input source operationId now s .assess { s with
        revisions := s.revisions.set i { row with assessment := some ⟨decision, reason, now⟩ } }
        (revisionResult .assess row)
  | reserve {current : Revision} {bound : Fields} (latest : s.revisions.getLast? = some current)
      (goal : isConversation entry = false) (uncancelled : s.cancellation = none)
      (idle : s.active = none)
      (adopted : (assessmentObservation host entry current
        (legacyReceipts source).assessment).1.map Assessment.decision = some .adopt)
      (room : s.reservations.length < MAX_RESERVATIONS)
      (binding : amendmentBinding host (some (.object bound)) entry s.revisions
        (s.reservations.length + 1) = .ok bound)
      (revision : bound.lookup "request_revision" = some (natJson current.revision))
      (digest : bound.lookup "request_digest" =
        some (.string (requestRevisionDigest host entry current)))
      (ref : bound.lookup "goal_ref" = some (orNull (entry.lookup "goal_ref")))
      (fresh : ∀ row ∈ s.reservations,
        row.binding.lookup "operation_id" ≠ bound.lookup "operation_id") :
      Effect host entry input source operationId now s .reserve { s with
        reservations := s.reservations ++
          [⟨bound, canonicalAuthoritySha256 host.sha (.object bound), none⟩] }
        (reserveResult ⟨bound, canonicalAuthoritySha256 host.sha (.object bound), none⟩)
  | settle {i : Nat} {row : Reservation} {terminal : Fields}
      (found : s.reservations[i]? = some row)
      (named : input.lookup "reservation_digest" = some (.string row.digest))
      (given : source.lookup "terminal" = some (.object terminal))
      (summary : requestTerminalSummary host (some (.object terminal)) row = .ok terminal)
      (agrees : ∀ recorded ∈ row.terminal,
        sameJson host (.object recorded) (.object terminal) = true) :
      Effect host entry input source operationId now s .settle { s with
        reservations := s.reservations.set i { row with terminal := some terminal } }
        (settleResult terminal)

/-! ## From the code to its effect -/

theorem settleFirst_eq_set {pick : Reservation → Bool} {terminal : Fields}
    {rows : List Reservation} {row : Reservation} (found : rows.find? pick = some row) :
    ∃ i, rows[i]? = some row ∧
      settleFirst pick terminal rows = rows.set i { row with terminal := some terminal } := by
  induction rows with
  | nil => simp at found
  | cons first rows ih =>
    cases picked : pick first with
    | true =>
      rw [List.find?_cons_of_pos picked] at found
      obtain rfl := Option.some.inj found
      exact ⟨0, rfl, by rw [settleFirst, if_pos picked, List.set_cons_zero]⟩
    | false =>
      rw [List.find?_cons_of_neg (by simp [picked])] at found
      obtain ⟨i, here, same⟩ := ih found
      exact ⟨i + 1, here, by rw [settleFirst, if_neg (by simp [picked]), same,
        List.set_cons_succ]⟩

theorem Control.Valid.current {control original : Control} {current : Revision}
    (h : control.Valid host entry original) (latest : control.revisions.getLast? = some current) :
    current.revision = control.revisions.length := by
  rw [List.getLast?_eq_getElem?] at latest
  have inside : control.revisions.length - 1 < control.revisions.length :=
    (List.getElem?_eq_some_iff.mp latest).1
  have number := (h.revisions.2 _ current latest).revision
  omega

private theorem observedRevision_eq_ok {s original : Control} {row : Revision}
    (h : s.Valid host entry original) (observed : observedRevision host entry input source s = .ok row) :
    ∃ i, s.revisions[i]? = some row ∧ row.revision = i + 1 := by
  obtain ⟨_, _, observed⟩ := bind_eq_ok.mp observed
  obtain ⟨number, _, observed⟩ := bind_eq_ok.mp observed
  split at observed
  · cases observed
  · next found =>
    obtain ⟨_, _, observed⟩ := bind_eq_ok.mp observed
    obtain rfl := Except.ok.inj observed
    obtain ⟨i, rfl, here⟩ := revisionAt_eq_some.1 found
    exact ⟨i, here, (h.revisions.2 i _ here).revision⟩

private theorem setRevision_eq {s : Control} {i : Nat} {row : Revision}
    (number : row.revision = i + 1) :
    setRevision s row = { s with revisions := s.revisions.set i row } := by
  rw [setRevision, number, Nat.add_sub_cancel]

private theorem checkCorrection_eq_ok {s : Control} {u : Unit}
    (h : checkCorrection source s = .ok u) : s.cancellation = none := by
  obtain ⟨_, _, h⟩ := bind_eq_ok.mp h
  exact Option.isNone_iff_eq_none.mp (ensure_eq_ok.mp h)

section

variable {s next original : Control} {current : Revision}
  {operationId now : String} {result : Fields}

private theorem revise_effect (h : s.Valid host entry original)
    (latest : s.revisions.getLast? = some current)
    (done : revise host entry input source s current now = .ok (next, result)) :
    Effect host entry input source operationId now s .revise next result := by
  obtain ⟨_, _, done⟩ := bind_eq_ok.mp done
  obtain ⟨_, corrects, done⟩ := bind_eq_ok.mp done
  obtain ⟨_, room, done⟩ := bind_eq_ok.mp done
  obtain ⟨brief, hbrief, done⟩ := bind_eq_ok.mp done
  obtain ⟨reason, hreason, done⟩ := bind_eq_ok.mp done
  obtain ⟨rfl, rfl⟩ := Prod.mk.inj (Except.ok.inj done)
  rw [h.current latest]
  exact .revise (normal_of_normalizeCollaborationBrief hbrief) (controlText_eq_ok.mp hreason).2
    (checkCorrection_eq_ok corrects) (ensure_eq_ok.mp room)

private theorem cancel_effect
    (done : cancel host entry input source s current operationId now = .ok (next, result)) :
    Effect host entry input source operationId now s .cancel next result := by
  obtain ⟨_, _, done⟩ := bind_eq_ok.mp done
  obtain ⟨_, corrects, done⟩ := bind_eq_ok.mp done
  obtain ⟨reason, hreason, done⟩ := bind_eq_ok.mp done
  obtain ⟨rfl, rfl⟩ := Prod.mk.inj (Except.ok.inj done)
  exact .cancel (controlText_eq_ok.mp hreason).2 (checkCorrection_eq_ok corrects)

private theorem read_effect (h : s.Valid host entry original)
    (done : readRequest host entry input source s now = .ok (next, result)) :
    Effect host entry input source operationId now s .read next result := by
  obtain ⟨row, observed, done⟩ := bind_eq_ok.mp done
  obtain ⟨rfl, rfl⟩ := Prod.mk.inj (Except.ok.inj done)
  obtain ⟨i, here, number⟩ := observedRevision_eq_ok h observed
  rw [setRevision_eq (i := i)]
  · exact .read here
  · exact number

private theorem assess_effect (h : s.Valid host entry original)
    (latest : s.revisions.getLast? = some current)
    (done : assess host entry input source s current now = .ok (next, result)) :
    Effect host entry input source operationId now s .assess next result := by
  obtain ⟨row, observed, done⟩ := bind_eq_ok.mp done
  obtain ⟨_, fresh, done⟩ := bind_eq_ok.mp done
  obtain ⟨_, _, done⟩ := bind_eq_ok.mp done
  split at done
  · cases done
  · obtain ⟨reason, hreason, done⟩ := bind_eq_ok.mp done
    obtain ⟨_, unassessed, done⟩ := bind_eq_ok.mp done
    obtain ⟨rfl, rfl⟩ := Prod.mk.inj (Except.ok.inj done)
    obtain ⟨i, here, number⟩ := observedRevision_eq_ok h observed
    obtain ⟨same, uncancelled⟩ := ensure_eq_ok.mp fresh
    rw [h.current latest, number] at same
    rw [setRevision_eq (i := i)]
    · exact .assess here same (Option.isNone_iff_eq_none.mp uncancelled)
        (Option.isNone_iff_eq_none.mp (ensure_eq_ok.mp unassessed)) (controlText_eq_ok.mp hreason).2
    · exact number

/-- The amendment keeps the identity that the request gives it. -/
private theorem lookup_boundAmendment (host : ControlHost) (entry amendment : Fields)
    (s : Control) (current : Revision) :
    (boundAmendment host entry amendment s current).lookup "request_revision" =
        some (natJson current.revision) ∧
      (boundAmendment host entry amendment s current).lookup "request_digest" =
        some (.string (requestRevisionDigest host entry current)) ∧
      (boundAmendment host entry amendment s current).lookup "goal_ref" =
        some (orNull (entry.lookup "goal_ref")) := by
  simp [boundAmendment, lookup_setKey]

private theorem reserve_effect (goal : isConversation entry = false)
    (latest : s.revisions.getLast? = some current)
    (done : reserve host entry input source s current = .ok (next, result)) :
    Effect host entry input source operationId now s .reserve next result := by
  obtain ⟨_, _, done⟩ := bind_eq_ok.mp done
  obtain ⟨_, free, done⟩ := bind_eq_ok.mp done
  obtain ⟨_, adopted, done⟩ := bind_eq_ok.mp done
  obtain ⟨_, room, done⟩ := bind_eq_ok.mp done
  obtain ⟨amendment, _, done⟩ := bind_eq_ok.mp done
  obtain ⟨bound, hbound, done⟩ := bind_eq_ok.mp done
  obtain ⟨_, fresh, done⟩ := bind_eq_ok.mp done
  obtain ⟨rfl, rfl⟩ := Prod.mk.inj (Except.ok.inj done)
  obtain ⟨_, uncancelled, idle⟩ := ensure_eq_ok.mp free
  have given := Json.object.inj (Option.some.inj (amendmentBinding_self hbound))
  have fields := lookup_boundAmendment host entry amendment s current
  rw [given] at hbound fields
  obtain ⟨revision, digest, ref⟩ := fields
  refine .reserve latest goal (Option.isNone_iff_eq_none.mp uncancelled)
    (Option.isNone_iff_eq_none.mp idle) (ensure_eq_ok.mp adopted) (ensure_eq_ok.mp room) hbound
    revision digest ref fun row mem => ?_
  have each := List.all_eq_true.mp (ensure_eq_ok.mp fresh) (row.binding.lookup "operation_id")
    (List.mem_map_of_mem mem)
  exact of_decide_eq_true each

private theorem settle_effect (done : settle host input source s = .ok (next, result)) :
    Effect host entry input source operationId now s .settle next result := by
  unfold settle at done
  dsimp only at done
  split at done
  · cases done
  · next row found =>
    obtain ⟨terminal, hterminal, done⟩ := bind_eq_ok.mp done
    obtain ⟨_, agrees, done⟩ := bind_eq_ok.mp done
    obtain ⟨rfl, rfl⟩ := Prod.mk.inj (Except.ok.inj done)
    have given := requestTerminalSummary_self hterminal
    have picked := List.find?_some found
    rw [given] at hterminal
    obtain ⟨i, here, same⟩ := settleFirst_eq_set found
    rw [same]
    refine .settle here (of_decide_eq_true picked) given hterminal fun recorded known => ?_
    have all := ensure_eq_ok.mp agrees
    rw [Option.mem_def.mp known, Option.all_some] at all
    exact all

theorem applyOperation_effect {op : ControlOperation} (h : s.Valid host entry original)
    (goal : op = .reserve → isConversation entry = false)
    (latest : s.revisions.getLast? = some current)
    (done : applyOperation host op entry input source s current operationId now =
      .ok (next, result)) :
    Effect host entry input source operationId now s op next result := by
  cases op with
  | inspect => cases done
  | revise => exact revise_effect h latest done
  | cancel => exact cancel_effect done
  | read => exact read_effect h done
  | assess => exact assess_effect h latest done
  | reserve => exact reserve_effect (goal rfl) latest done
  | settle => exact settle_effect done

end

/-! ## The record stays valid -/

def SameText (_ : Nat) (before after : Revision) : Prop := after.text = before.text

/-- Every revision keeps its text. -/
abbrev TextsKept : List Revision → List Revision → Prop := Kept SameText

private theorem revisionAt_kept {revisions revisions' : List Revision}
    (kept : TextsKept revisions revisions') {number : Nat} {digest : Option Json}
    (h : (revisionAt revisions number).any (fun revision =>
      decide (digest = some (.string (requestRevisionDigest host entry revision)))) = true) :
    (revisionAt revisions' number).any (fun revision =>
      decide (digest = some (.string (requestRevisionDigest host entry revision)))) = true := by
  obtain ⟨revision, found, named⟩ := (Option.any_eq_true _ _).mp h
  obtain ⟨i, rfl, here⟩ := revisionAt_eq_some.1 found
  obtain ⟨revision', here', same⟩ := kept i revision here
  refine (Option.any_eq_true _ _).mpr ⟨revision', revisionAt_eq_some.2 ⟨i, rfl, here'⟩, ?_⟩
  rw [requestRevisionDigest_congr same]
  exact named

theorem amendmentBinding_kept {value : Option Json} {row : Fields} {epoch : Nat}
    {revisions revisions' : List Revision} (kept : TextsKept revisions revisions')
    (h : amendmentBinding host value entry revisions epoch = .ok row) :
    amendmentBinding host value entry revisions' epoch = .ok row := by
  obtain ⟨given, hgiven, h⟩ := bind_eq_ok.mp h
  obtain ⟨_, hkeys, h⟩ := bind_eq_ok.mp h
  obtain ⟨number, hnumber, h⟩ := bind_eq_ok.mp h
  obtain ⟨ref, href, h⟩ := bind_eq_ok.mp h
  obtain ⟨_, identity, h⟩ := bind_eq_ok.mp h
  obtain ⟨named, rest⟩ := ensure_eq_ok.mp identity
  rw [amendmentBinding, hgiven, ok_bind, hkeys, ok_bind, hnumber, ok_bind, href, ok_bind,
    ensure_of ⟨revisionAt_kept kept named, rest⟩, ok_bind]
  exact h

private theorem Reservation.Valid.kept {revisions revisions' : List Revision} {index : Nat}
    {row : Reservation} (h : row.Valid host entry revisions index)
    (kept : TextsKept revisions revisions') : row.Valid host entry revisions' index where
  binding := amendmentBinding_kept kept h.binding
  digest := h.digest
  terminal := h.terminal

private theorem keepsOriginal_kept {revisions revisions' : List Revision} {original : Control}
    (kept : TextsKept revisions revisions') (h : keepsOriginal host revisions original = true) :
    keepsOriginal host revisions' original = true := by
  cases revisions with
  | nil => cases h
  | cons first rest =>
    obtain ⟨first', here, same⟩ := kept 0 first rfl
    cases revisions' with
    | nil => cases here
    | cons head tail =>
      obtain rfl := Option.some.inj here
      simp only [SameText, Revision.text, Prod.mk.injEq] at same
      unfold keepsOriginal at h ⊢
      split
      · next declared _ first rest' original' listed eq =>
        obtain ⟨rfl, rfl⟩ := List.cons.inj listed
        rw [eq] at h
        simp only [same]
        exact h
      · next off =>
        cases known : original.revisions with
        | nil => rw [known] at h; cases h
        | cons a b => exact absurd known (off _ _ _ _ rfl)

section

variable {s original : Control}

theorem Control.Valid.withRevisions (h : s.Valid host entry original) {revisions : List Revision}
    (kept : TextsKept s.revisions revisions) (room : revisions.length ≤ MAX_REVISIONS)
    (each : ∀ i (r : Revision), revisions[i]? = some r → r.Valid host i) :
    Control.Valid host entry { s with revisions := revisions } original where
  requestSha256 := h.requestSha256
  revisions := ⟨room, each⟩
  declared := keepsOriginal_kept kept h.declared
  reservations := ⟨h.reservations.1, fun i r found => (h.reservations.2 i r found).kept kept⟩
  conversation := h.conversation
  ordered := h.ordered
  cancellation := h.cancellation
  operations := h.operations
  distinct := h.distinct

/-- A revision whose marks are changed. -/
private theorem Control.Valid.markRevision (h : s.Valid host entry original) {i : Nat}
    {row marked : Revision} (found : s.revisions[i]? = some row) (same : marked.text = row.text)
    (valid : marked.Valid host i) :
    Control.Valid host entry { s with revisions := s.revisions.set i marked } original := by
  have kept : TextsKept s.revisions (s.revisions.set i marked) :=
    kept_set (R := SameText) (fun _ _ => rfl) found same
  refine h.withRevisions kept ?_ fun j r there => ?_
  · rw [List.length_set]
    exact h.revisions.1
  · rcases getElem?_set_cases there with ⟨rfl, rfl⟩ | ⟨_, there⟩
    · exact valid
    · exact h.revisions.2 j r there

private theorem Control.Valid.addRevision (h : s.Valid host entry original) {added : Revision}
    (room : s.revisions.length < MAX_REVISIONS) (valid : added.Valid host s.revisions.length) :
    Control.Valid host entry { s with revisions := s.revisions ++ [added] } original := by
  have kept : TextsKept s.revisions (s.revisions ++ [added]) :=
    kept_append (R := SameText) (fun _ _ => rfl) _ _
  refine h.withRevisions kept ?_ fun j r there => ?_
  · rw [List.length_append, List.length_singleton]
    exact room
  · rcases getElem?_append_singleton_cases there with ⟨rfl, rfl⟩ | there
    · exact valid
    · exact h.revisions.2 j r there

private theorem Control.Valid.withReservations (h : s.Valid host entry original)
    {reservations : List Reservation} (goal : isConversation entry = false)
    (room : reservations.length ≤ MAX_RESERVATIONS)
    (each : ∀ i (r : Reservation), reservations[i]? = some r → r.Valid host entry s.revisions i)
    (ordered : reservationsOrdered reservations) :
    Control.Valid host entry { s with reservations := reservations } original where
  requestSha256 := h.requestSha256
  revisions := h.revisions
  declared := h.declared
  reservations := ⟨room, each⟩
  conversation known := by
    rw [goal] at known
    cases known
  ordered := ordered
  cancellation := h.cancellation
  operations := h.operations
  distinct := h.distinct

/-- Another effect may follow where every earlier one is settled. -/
private theorem reservationsOrdered_append {rows : List Reservation} {added : Reservation}
    (h : reservationsOrdered rows)
    (idle : rows.find? (fun reservation => reservation.terminal.isNone) = none)
    (fresh : ∀ row ∈ rows, row.binding.lookup "operation_id" ≠ added.binding.lookup "operation_id") :
    reservationsOrdered (rows ++ [added]) := by
  have settled : ∀ row ∈ rows, ¬row.terminal.isNone = true := List.find?_eq_none.mp idle
  refine ⟨?_, ?_, ?_⟩
  · rw [List.filter_append, List.filter_eq_nil_iff.mpr settled, List.nil_append]
    exact (List.length_filter_le _ _).trans (Nat.le_refl _)
  · rw [List.dropLast_concat, List.all_eq_true]
    intro row mem
    have known := settled row mem
    exact Option.isSome_iff_ne_none.mpr fun none => known (Option.isNone_iff_eq_none.mpr none)
  · rw [List.map_append, List.nodup_append]
    refine ⟨h.2.2, List.nodup_singleton _, ?_⟩
    intro a mem b mem' same
    obtain ⟨row, hrow, rfl⟩ := List.mem_map.mp mem
    rw [List.map_singleton, List.mem_singleton] at mem'
    exact fresh row hrow (same.trans mem')

private theorem reservationsOrdered_settle {rows : List Reservation} {i : Nat} {row : Reservation}
    {terminal : Fields} (h : reservationsOrdered rows) (found : rows[i]? = some row) :
    reservationsOrdered (rows.set i { row with terminal := some terminal }) := by
  obtain ⟨one, settled, distinct⟩ := h
  obtain ⟨inside, here⟩ := List.getElem?_eq_some_iff.mp found
  refine ⟨?_, ?_, ?_⟩
  · rw [← List.countP_eq_length_filter] at one ⊢
    rw [List.countP_set inside]
    simp only [Option.isNone_some, Bool.false_eq_true, if_false]
    omega
  · rw [List.all_eq_true] at settled ⊢
    intro r mem
    rw [List.dropLast_eq_take, List.length_set, List.take_set] at mem
    rcases List.mem_or_eq_of_mem_set mem with mem | rfl
    · exact settled r (List.dropLast_eq_take ▸ mem)
    · rfl
  · have same : (rows.set i { row with terminal := some terminal }).map
        (fun reservation => reservation.binding.lookup "operation_id") =
          rows.map fun reservation => reservation.binding.lookup "operation_id" := by
      rw [List.map_set]
      refine List.ext_getElem? fun j => ?_
      rw [List.getElem?_set]
      split
      · next at_ =>
        subst at_
        simp [inside, here]
      · rfl
    rw [same]
    exact distinct

private theorem Control.Valid.addReservation (h : s.Valid host entry original) {added : Reservation}
    (goal : isConversation entry = false) (idle : s.active = none)
    (room : s.reservations.length < MAX_RESERVATIONS)
    (valid : added.Valid host entry s.revisions s.reservations.length)
    (fresh : ∀ row ∈ s.reservations,
      row.binding.lookup "operation_id" ≠ added.binding.lookup "operation_id") :
    Control.Valid host entry { s with reservations := s.reservations ++ [added] } original := by
  refine h.withReservations goal ?_ (fun j r there => ?_)
    (reservationsOrdered_append h.ordered idle fresh)
  · rw [List.length_append, List.length_singleton]
    exact room
  · rcases getElem?_append_singleton_cases there with ⟨rfl, rfl⟩ | there
    · exact valid
    · exact h.reservations.2 j r there

private theorem Control.Valid.settleReservation (h : s.Valid host entry original) {i : Nat}
    {row : Reservation} {terminal : Fields} (found : s.reservations[i]? = some row)
    (summary : requestTerminalSummary host (some (.object terminal)) row = .ok terminal) :
    Control.Valid host entry { s with
      reservations := s.reservations.set i { row with terminal := some terminal } } original := by
  have goal : isConversation entry = false := by
    cases known : isConversation entry with
    | false => rfl
    | true =>
      rw [h.conversation known] at found
      cases found
  refine h.withReservations goal ?_ (fun j r there => ?_) (reservationsOrdered_settle h.ordered found)
  · rw [List.length_set]
    exact h.reservations.1
  · rcases getElem?_set_cases there with ⟨rfl, rfl⟩ | ⟨_, there⟩
    · have valid := h.reservations.2 i row found
      refine ⟨valid.binding, valid.digest, ?_⟩
      rintro _ ⟨⟩
      exact summary
    · exact h.reservations.2 j r there

theorem Effect.valid {op : ControlOperation} {operationId now : String} {t : Control}
    {result : Fields} (effect : Effect host entry input source operationId now s op t result)
    (h : s.Valid host entry original) (time : IsTime host now) (named : IsSafeId operationId) :
    t.Valid host entry original := by
  cases effect with
  | revise normal text uncancelled room =>
    exact h.addRevision room ⟨rfl, normal, text, time, by simp, by simp⟩
  | cancel text uncancelled =>
    refine { h with cancellation := ?_ }
    rintro _ ⟨⟩
    exact ⟨named, text, time⟩
  | @read i row found =>
    have valid := h.revisions.2 i row found
    refine h.markRevision found rfl { valid with readAt := ?_ }
    rintro _ ⟨⟩
    cases known : row.readAt with
    | none => exact time
    | some t => exact valid.readAt t known
  | @assess i row decision reason found latest uncancelled fresh text =>
    have valid := h.revisions.2 i row found
    refine h.markRevision found rfl { valid with assessment := ?_ }
    rintro _ ⟨⟩
    exact ⟨text, time⟩
  | reserve latest goal uncancelled idle adopted room binding revision digest ref fresh =>
    exact h.addReservation goal idle room ⟨binding, rfl, by simp⟩ fresh
  | settle found named given summary agrees => exact h.settleReservation found summary

/-- The record with the receipt of a new operation. -/
theorem Control.Valid.record (h : s.Valid host entry original) {receipt : OperationReceipt}
    (valid : receipt.Valid) (room : s.operations.length < MAX_OPERATIONS)
    (fresh : ∀ row ∈ s.operations, row.operationId ≠ receipt.operationId) :
    (s.record receipt).Valid host entry original where
  requestSha256 := h.requestSha256
  revisions := h.revisions
  declared := h.declared
  reservations := h.reservations
  conversation := h.conversation
  ordered := h.ordered
  cancellation := h.cancellation
  operations := by
    refine ⟨?_, fun o mem => ?_⟩
    · rw [Control.record, List.length_append, List.length_singleton]
      exact room
    · rcases List.mem_append.mp mem with mem | mem
      · exact h.operations.2 o mem
      · obtain rfl := List.mem_singleton.mp mem
        exact valid
  distinct := by
    rw [Control.record, List.map_append, List.nodup_append]
    refine ⟨h.distinct, List.nodup_singleton _, ?_⟩
    intro a mem b mem' same
    obtain ⟨row, hrow, rfl⟩ := List.mem_map.mp mem
    rw [List.map_singleton, List.mem_singleton] at mem'
    exact fresh row hrow (same.trans mem')

end

end

end Loopx.Collaboration
