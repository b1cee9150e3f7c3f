/- GID: Loopx/Authority/FileJournalLineage
   generality: I
   source: loopx/control_plane/coordination/file_authority_journal.ts
   digest: The logical history behind stored rows, and that decode and scan read exactly it. -/

import Loopx.Authority.FileJournal
import Loopx.Authority.StateLogReplay

set_option autoImplicit false
set_option relaxedAutoImplicit false

namespace Loopx.Authority

open Loopx.Lib.KeyedList
open Loopx.Lib.Fallible (ok_bind bind_eq_ok)
open Loopx.Json (Protocol canonicalAuthorityJson canonicalAuthorityBytes Canonical)

/-- A committed transaction as the wire decoder leaves it. -/
structure AuthorityStoreCommittedTransaction.Lawful
    (transaction : AuthorityStoreCommittedTransaction) : Prop where
  providerRevision : IsStoreId transaction.providerRevision
  operationId : IsStoreId transaction.operationId
  events : ∀ v ∈ transaction.events, CanonicalObject v
  projection : CanonicalObject transaction.projection
  receipts : ∀ v ∈ transaction.receipts, CanonicalObject v

/-- A logical transaction together with the state its row stores. -/
structure JournalEntry extends AuthorityStoreCommittedTransaction where
  state : StoredState
deriving DecidableEq

abbrev JournalEntry.transaction (entry : JournalEntry) : AuthorityStoreCommittedTransaction :=
  entry.toAuthorityStoreCommittedTransaction

def JournalEntry.row (entry : JournalEntry) : StoredCommit :=
  ⟨entry.toTransactionMetadata, entry.state⟩

/-- The stored state at `index` stands for `projection` after `previous`. -/
def StoredState.StandsFor (index : Nat) (previous : Option Json) (projection : Json) :
    StoredState → Prop
  | .checkpoint stored => index % AUTHORITY_STATE_CHECKPOINT_INTERVAL = 0 ∧ stored = projection
  | .delta change => index % AUTHORITY_STATE_CHECKPOINT_INTERVAL ≠ 0 ∧ change.Clean ∧
      ∃ before, previous = some before ∧ CanonicalObject before ∧
        applyOperations change.operations before = .ok projection

/-- One row in its place: position, chained revision, checked fields and state. -/
structure JournalEntry.Follows (revisionFor : JournalRevision) (index : Nat)
    (previous : Option Json) (previousRevision : Option String) (entry : JournalEntry) : Prop where
  cursor : entry.cursor = (index + 1).repr
  revision : entry.providerRevision =
    revisionFor previousRevision (transactionForRevision entry.transaction)
  lawful : entry.transaction.Lawful
  state : entry.state.StandsFor index previous entry.projection

/-- Consecutive rows from position `index` on. -/
def Lineage (revisionFor : JournalRevision) :
    Nat → Option Json → Option String → List JournalEntry → Prop
  | _, _, _, [] => True
  | index, previous, previousRevision, entry :: entries =>
    entry.Follows revisionFor index previous previousRevision ∧
      Lineage revisionFor (index + 1) (some entry.projection) (some entry.providerRevision) entries

section Positions

theorem isAuthorityStateCheckpoint_succ (index : Nat) :
    isAuthorityStateCheckpoint (index + 1) =
      .ok (decide (index % AUTHORITY_STATE_CHECKPOINT_INTERVAL = 0)) := by
  have h : authorityStateCheckpointCursor (index + 1) =
      .ok (index / AUTHORITY_STATE_CHECKPOINT_INTERVAL * AUTHORITY_STATE_CHECKPOINT_INTERVAL + 1) := by
    simp [authorityStateCheckpointCursor]
  rw [isAuthorityStateCheckpoint, h, ok_bind]
  congr 1
  have hdiv := Nat.div_add_mod index AUTHORITY_STATE_CHECKPOINT_INTERVAL
  rw [Nat.mul_comm] at hdiv
  rw [Bool.eq_iff_iff]
  simp only [beq_iff_eq, decide_eq_true_eq]
  omega

theorem project_of_standsFor {state : StoredState} {index : Nat} {previous : Option Json}
    {projection : Json} (h : state.StandsFor index previous projection) :
    project state previous = .ok projection := by
  cases state with
  | checkpoint stored => rw [project, h.2]
  | delta change =>
    obtain ⟨-, clean, before, rfl, hbefore, happly⟩ := h
    rw [project, applyAuthorityStateDelta_of_clean clean hbefore, happly]

end Positions

/-- What the pass over the rows knows after one more of them. -/
def DecodeState.push (s : DecodeState) (entry : JournalEntry) : DecodeState :=
  ⟨s.rows ++ [entry.row], entry.operationId :: s.operations, some entry.projection,
    some entry.providerRevision, some ⟨entry.projection⟩⟩

/-- The replay owns exactly the previous projection, a canonical object. -/
structure DecodeState.Owned (s : DecodeState) : Prop where
  replay : s.replay = s.previous.map AuthorityStateReplay.mk
  canonical : ∀ previous ∈ s.previous, CanonicalObject previous

theorem DecodeState.owned_push (s : DecodeState) {entry : JournalEntry}
    (lawful : entry.transaction.Lawful) : (s.push entry).Owned := by
  refine ⟨rfl, ?_⟩
  intro previous h
  obtain rfl := Option.some.inj h
  exact lawful.projection

section Decode

variable {revisionFor : JournalRevision}

private theorem storedState_standsFor {value : Option Json} {index : Nat} {state : StoredState}
    (h : storedState value (index + 1) = .ok state) :
    match state with
    | .checkpoint stored => index % AUTHORITY_STATE_CHECKPOINT_INTERVAL = 0 ∧
        CanonicalObject stored
    | .delta change => index % AUTHORITY_STATE_CHECKPOINT_INTERVAL ≠ 0 ∧ change.Clean := by
  rcases value with _ | v
  · simp [storedState, invalid] at h
  · cases v with
    | object fields =>
      rw [storedState, isAuthorityStateCheckpoint_succ, ok_bind] at h
      by_cases hindex : index % AUTHORITY_STATE_CHECKPOINT_INTERVAL = 0
      · simp only [hindex, decide_true, if_true] at h
        split at h
        · simp [invalid] at h
        · obtain ⟨projection, hprojection, h⟩ := bind_eq_ok.mp h
          obtain rfl := Except.ok.inj h
          exact ⟨hindex, canonicalObject_of_ok hprojection⟩
      · simp only [hindex, decide_false, Bool.false_eq_true, if_false] at h
        split at h
        · simp [invalid] at h
        · obtain ⟨change, hchange, h⟩ := bind_eq_ok.mp h
          obtain rfl := Except.ok.inj h
          exact ⟨hindex, clean_of_decodeAuthorityStateDelta hchange⟩
    | _ => simp [storedState, invalid] at h

private theorem lawful_of_decodeAuthorityTransaction {value : Json}
    {transaction : AuthorityStoreCommittedTransaction}
    (h : decodeAuthorityTransaction value = .ok transaction) : transaction.Lawful := by
  cases value with
  | object fields =>
    simp only [decodeAuthorityTransaction] at h
    split at h
    · obtain ⟨cursor, -, h⟩ := bind_eq_ok.mp h
      obtain ⟨-, -, h⟩ := bind_eq_ok.mp h
      obtain ⟨revision, hrevision, h⟩ := bind_eq_ok.mp h
      obtain ⟨operation, hoperation, h⟩ := bind_eq_ok.mp h
      obtain ⟨events, hevents, h⟩ := bind_eq_ok.mp h
      obtain ⟨projection, hprojection, h⟩ := bind_eq_ok.mp h
      obtain ⟨receipts, hreceipts, h⟩ := bind_eq_ok.mp h
      obtain rfl := Except.ok.inj h
      exact ⟨(requireAuthorityStoreId_eq_ok.mp hrevision).2,
        (requireAuthorityStoreId_eq_ok.mp hoperation).2, canonicalObjects_of_ok hevents,
        canonicalObject_of_ok hprojection, canonicalObjects_of_ok hreceipts⟩
    · simp at h
  | _ => simp [decodeAuthorityTransaction] at h

/-- Everything an accepted row proves about itself. -/
theorem decodeRow_eq_ok {index : Nat} {raw : Json} {s s' : DecodeState} (owned : s.Owned)
    (h : decodeRow revisionFor index raw s = .ok s') :
    ∃ entry : JournalEntry, entry.Follows revisionFor index s.previous s.previousRevision ∧
      entry.operationId ∉ s.operations ∧ s' = s.push entry := by
  cases raw with
  | object fields =>
    simp only [decodeRow] at h
    split at h
    · obtain ⟨state, hstate, h⟩ := bind_eq_ok.mp h
      obtain ⟨replay, hreplay, h⟩ := bind_eq_ok.mp h
      obtain ⟨decoded, hdecoded, h⟩ := bind_eq_ok.mp h
      obtain ⟨cursor, hcursor, h⟩ := bind_eq_ok.mp h
      split at h
      · simp [invalid] at h
      rename_i hposition
      split at h
      · simp [invalid] at h
      rename_i fresh
      split at h
      · simp [invalid] at h
      rename_i hrevision
      obtain rfl := Except.ok.inj h
      have kind := storedState_standsFor hstate
      have lawful := lawful_of_decodeAuthorityTransaction hdecoded
      have hcursor' := (eq_repr_of_parseAuthorityCursor hcursor).2
      -- the replayed state is the projection that the row stands for
      have stands : state.StandsFor index s.previous replay.state ∧
          CanonicalObject replay.state := by
        cases state with
        | checkpoint stored =>
          rw [advanceReplay, create_of_canonical kind.2] at hreplay
          obtain rfl := Except.ok.inj hreplay
          exact ⟨⟨kind.1, rfl⟩, kind.2⟩
        | delta change =>
          rw [owned.replay] at hreplay
          cases hprevious : s.previous with
          | none => simp [hprevious, advanceReplay, invalid] at hreplay
          | some before =>
            have hbefore := owned.canonical before (by simp [hprevious])
            rw [hprevious, Option.map_some, advanceReplay, apply_of_clean kind.2] at hreplay
            obtain ⟨after, hafter, hreplay⟩ := bind_eq_ok.mp hreplay
            obtain rfl := Except.ok.inj hreplay
            exact ⟨⟨kind.1, kind.2, before, rfl, hbefore, hafter⟩,
              canonicalObject_applyOperations kind.2 hbefore hafter⟩
      refine ⟨⟨{ decoded with projection := replay.snapshot }, state⟩, ⟨?_, ?_, ?_, stands.1⟩,
        fresh, rfl⟩
      · rw [← not_ne_iff.mp hposition]
        exact hcursor'
      · exact not_ne_iff.mp hrevision
      · exact ⟨lawful.providerRevision, lawful.operationId, lawful.events, stands.2,
          lawful.receipts⟩
    · simp [invalid] at h
  | _ => simp [decodeRow, invalid] at h

/-- Everything an accepted pass proves about its rows. -/
theorem decodeRows_eq_ok {raws : List Json} {index : Nat} {s s' : DecodeState} (owned : s.Owned)
    (h : decodeRows revisionFor index raws s = .ok s') :
    ∃ entries : List JournalEntry, entries.length = raws.length ∧
      Lineage revisionFor index s.previous s.previousRevision entries ∧
      (s.operations.Nodup → s'.operations.Nodup) ∧
      s'.operations = (entries.map (·.operationId)).reverse ++ s.operations ∧
      s' = entries.foldl DecodeState.push s := by
  induction raws generalizing index s with
  | nil =>
    obtain rfl := Except.ok.inj h
    exact ⟨[], rfl, trivial, id, rfl, rfl⟩
  | cons raw raws ih =>
    obtain ⟨middle, hmiddle, h⟩ := bind_eq_ok.mp h
    obtain ⟨entry, follows, fresh, rfl⟩ := decodeRow_eq_ok owned hmiddle
    obtain ⟨entries, hlength, lineage, nodup, hoperations, hfold⟩ :=
      ih (s.owned_push follows.lawful) h
    refine ⟨entry :: entries, by simp [hlength], ⟨follows, lineage⟩, ?_, ?_, hfold⟩
    · intro hs
      exact nodup (List.nodup_cons.mpr ⟨fresh, hs⟩)
    · rw [hoperations]
      simp [DecodeState.push]

private theorem storedState_toJson {state : StoredState} {index : Nat} {previous : Option Json}
    {projection : Json} (h : state.StandsFor index previous projection)
    (hprojection : CanonicalObject projection) :
    storedState (some state.toJson) (index + 1) = .ok state := by
  cases state with
  | checkpoint stored =>
    obtain ⟨hindex, rfl⟩ := h
    simp [storedState, StoredState.toJson, isAuthorityStateCheckpoint_succ, hindex, List.lookup_cons,
      hasExactAuthorityKeys, keys, canonicalAuthorityObject_of_canonical hprojection]
  | delta change =>
    obtain ⟨hindex, clean, -⟩ := h
    simp [storedState, StoredState.toJson, isAuthorityStateCheckpoint_succ, hindex, List.lookup_cons,
      hasExactAuthorityKeys, keys, decodeAuthorityStateDelta_toJson clean]

private theorem advanceReplay_of_standsFor {s : DecodeState} (owned : s.Owned)
    {state : StoredState} {index : Nat} {projection : Json}
    (h : state.StandsFor index s.previous projection) (hprojection : CanonicalObject projection) :
    advanceReplay state s.replay = .ok ⟨projection⟩ := by
  cases state with
  | checkpoint stored =>
    obtain ⟨-, rfl⟩ := h
    rw [advanceReplay, create_of_canonical hprojection]
  | delta change =>
    obtain ⟨-, clean, before, hprevious, -, happly⟩ := h
    rw [owned.replay, hprevious, Option.map_some, advanceReplay, apply_of_clean clean, happly,
      ok_bind]

/-- The wire decoder sees a row without its state and with an empty projection. -/
private theorem decodeAuthorityTransaction_wire {entry : JournalEntry} {index : Nat}
    (hcursor : entry.cursor = (index + 1).repr) (lawful : entry.transaction.Lawful) :
    decodeAuthorityTransaction
      (.object (setKey (eraseKey entry.row.fields "state") "projection" (.object []))) =
        .ok ⟨entry.toTransactionMetadata, .object []⟩ := by
  have wire : setKey (eraseKey entry.row.fields "state") "projection" (.object []) =
      [("cursor", .string entry.cursor), ("provider_revision", .string entry.providerRevision),
        ("operation_id", .string entry.operationId), ("events", .array entry.events),
        ("receipts", .array entry.receipts), ("projection", .object [])] := by
    simp [StoredCommit.fields, JournalEntry.row, eraseKey, setKey]
  have exactKeys : ∀ fields : List (String × Json), keys fields =
      ["cursor", "provider_revision", "operation_id", "events", "receipts", "projection"] →
      hasExactAuthorityKeys fields
        ["cursor", "provider_revision", "operation_id", "events", "projection", "receipts"] =
          true := by
    intro fields h
    rw [hasExactAuthorityKeys, h]
    decide
  have empty : CanonicalObject (.object []) := by decide
  have hid : IsStoreId entry.cursor := hcursor ▸ isStoreId_repr (index + 1)
  have hparse : parseAuthorityCursor (some entry.cursor) = .ok (index + 1) :=
    hcursor ▸ parseAuthorityCursor_repr index
  rw [wire, decodeAuthorityTransaction, if_pos (exactKeys _ rfl)]
  simp [List.lookup_cons, requireAuthorityStoreId_eq_ok.mpr ⟨rfl, hid⟩, hparse,
    requireAuthorityStoreId_eq_ok.mpr ⟨rfl, lawful.providerRevision⟩,
    requireAuthorityStoreId_eq_ok.mpr ⟨rfl, lawful.operationId⟩,
    canonicalAuthorityObjectList_of_canonical lawful.events,
    canonicalAuthorityObjectList_of_canonical lawful.receipts,
    canonicalAuthorityObject_of_canonical empty]

/-- A row in its place is accepted and decodes to itself. -/
theorem decodeRow_toJson {index : Nat} {s : DecodeState} (owned : s.Owned) {entry : JournalEntry}
    (follows : entry.Follows revisionFor index s.previous s.previousRevision)
    (fresh : entry.operationId ∉ s.operations) :
    decodeRow revisionFor index entry.row.toJson s = .ok (s.push entry) := by
  have hparse : parseAuthorityCursor (some entry.cursor) = .ok (index + 1) :=
    follows.cursor ▸ parseAuthorityCursor_repr index
  have lookupState : entry.row.fields.lookup "state" = some entry.state.toJson := by
    simp [List.lookup_cons, StoredCommit.fields, JournalEntry.row]
  have exactKeys : hasExactAuthorityKeys entry.row.fields ROW_KEYS = true := by
    simp [hasExactAuthorityKeys, keys, ROW_KEYS, StoredCommit.fields]
  rw [StoredCommit.toJson, decodeRow, if_pos exactKeys]
  simp only [lookupState, decodeAuthorityTransaction_wire follows.cursor follows.lawful,
    storedState_toJson follows.state follows.lawful.projection,
    advanceReplay_of_standsFor owned follows.state follows.lawful.projection, ok_bind, hparse,
    ne_eq, not_true_eq_false, if_false, fresh]
  exact if_neg (not_not_intro follows.revision)

theorem decodeRows_toJson {entries : List JournalEntry} {index : Nat} {s : DecodeState}
    (owned : s.Owned) (lineage : Lineage revisionFor index s.previous s.previousRevision entries)
    (distinct : ((entries.map (·.operationId)).reverse ++ s.operations).Nodup) :
    decodeRows revisionFor index (entries.map (fun entry => entry.row.toJson)) s =
      .ok (entries.foldl DecodeState.push s) := by
  induction entries generalizing index s with
  | nil => rfl
  | cons entry entries ih =>
    obtain ⟨follows, lineage⟩ := lineage
    have distinct' : ((entries.map (·.operationId)).reverse ++
        (s.push entry).operations).Nodup := by
      simpa [DecodeState.push] using distinct
    have fresh : entry.operationId ∉ s.operations :=
      (List.nodup_cons.mp (List.nodup_append.mp distinct').2.1).1
    rw [List.map_cons, decodeRows, decodeRow_toJson owned follows fresh, ok_bind,
      ih (s.owned_push follows.lawful) lineage distinct', List.foldl_cons]

end Decode

section Journal

variable {revisionFor : JournalRevision}

/-- The projection, and the revision, that rows after `entries` build on. -/
def headAfter (previous : Option Json) (entries : List JournalEntry) : Option Json :=
  (entries.getLast?.map (fun entry => entry.projection)).or previous

def revisionAfter (previous : Option String) (entries : List JournalEntry) : Option String :=
  (entries.getLast?.map (fun entry => entry.providerRevision)).or previous

theorem headAfter_cons (previous : Option Json) (entry : JournalEntry)
    (entries : List JournalEntry) :
    headAfter previous (entry :: entries) = headAfter (some entry.projection) entries := by
  cases h : entries.getLast? <;> simp [headAfter, List.getLast?_cons, h]

theorem revisionAfter_cons (previous : Option String) (entry : JournalEntry)
    (entries : List JournalEntry) :
    revisionAfter previous (entry :: entries) =
      revisionAfter (some entry.providerRevision) entries := by
  cases h : entries.getLast? <;> simp [revisionAfter, List.getLast?_cons, h]

theorem lineage_append {index : Nat} {previous : Option Json} {previousRevision : Option String}
    {first second : List JournalEntry} :
    Lineage revisionFor index previous previousRevision (first ++ second) ↔
      Lineage revisionFor index previous previousRevision first ∧
        Lineage revisionFor (index + first.length) (headAfter previous first)
          (revisionAfter previousRevision first) second := by
  induction first generalizing index previous previousRevision with
  | nil => simp [Lineage, headAfter, revisionAfter]
  | cons entry first ih =>
    rw [List.cons_append, Lineage, Lineage, ih, headAfter_cons, revisionAfter_cons,
      List.length_cons, and_assoc, Nat.add_right_comm, Nat.add_assoc]

theorem Lineage.lawful {index : Nat} {previous : Option Json} {previousRevision : Option String}
    {entries : List JournalEntry} (h : Lineage revisionFor index previous previousRevision entries) :
    ∀ entry ∈ entries, entry.transaction.Lawful := by
  induction entries generalizing index previous previousRevision with
  | nil => simp
  | cons entry entries ih =>
    intro e he
    rcases List.mem_cons.mp he with rfl | he
    · exact h.1.lawful
    · exact ih h.2 e he

private theorem rows_foldl_push (entries : List JournalEntry) (s : DecodeState) :
    (entries.foldl DecodeState.push s).rows = s.rows ++ entries.map JournalEntry.row := by
  induction entries generalizing s with
  | nil => simp
  | cons entry entries ih => simp [ih, DecodeState.push]

private theorem previous_foldl_push (entries : List JournalEntry) (s : DecodeState) :
    (entries.foldl DecodeState.push s).previous = headAfter s.previous entries := by
  induction entries generalizing s with
  | nil => simp [headAfter]
  | cons entry entries ih =>
    rw [List.foldl_cons, ih, headAfter_cons]
    rfl

private theorem previousRevision_foldl_push (entries : List JournalEntry) (s : DecodeState) :
    (entries.foldl DecodeState.push s).previousRevision =
      revisionAfter s.previousRevision entries := by
  induction entries generalizing s with
  | nil => simp [revisionAfter]
  | cons entry entries ih =>
    rw [List.foldl_cons, ih, revisionAfter_cons]
    rfl

/-- A journal whose rows are the encoding of one logical history. -/
structure FileAuthorityJournal.Verified (revisionFor : JournalRevision)
    (journal : FileAuthorityJournal) (entries : List JournalEntry) : Prop where
  rows : journal.rows = entries.map JournalEntry.row
  lineage : Lineage revisionFor 0 none none entries
  distinct : (entries.map (fun entry => entry.operationId)).Nodup
  head : headAfter none entries = some journal.head

/-- The last entry of a verified journal gives its header. -/
theorem FileAuthorityJournal.Verified.exists_last {journal : FileAuthorityJournal}
    {entries : List JournalEntry} (h : journal.Verified revisionFor entries) :
    ∃ init last, entries = init ++ [last] ∧
      last.Follows revisionFor init.length (headAfter none init) (revisionAfter none init) ∧
      journal.cursor = last.cursor ∧ journal.providerRevision = last.providerRevision ∧
      journal.head = last.projection := by
  cases entries using List.reverseRecOn with
  | nil => exact absurd h.rows journal.nonempty
  | append_singleton init last =>
    have hlast : journal.rows.getLast journal.nonempty = last.row := by
      simp [h.rows]
    have hhead := h.head
    have lineage := (lineage_append.1 h.lineage).2.1
    rw [Nat.zero_add] at lineage
    refine ⟨init, last, rfl, lineage, ?_, ?_, ?_⟩
    · rw [cursor, hlast]
      rfl
    · rw [providerRevision, hlast]
      rfl
    · simpa [headAfter] using hhead.symm

theorem FileAuthorityJournal.Verified.revisionAfter_eq {journal : FileAuthorityJournal}
    {entries : List JournalEntry} (h : journal.Verified revisionFor entries) :
    revisionAfter none entries = some journal.providerRevision := by
  obtain ⟨init, last, hsplit, -, -, hrevision, -⟩ := h.exists_last
  simp [revisionAfter, hsplit, hrevision]

private theorem emptyOwned : DecodeState.Owned ⟨[], [], none, none, none⟩ :=
  ⟨rfl, by simp⟩

/-- `value[key]`, where `value` is an object. -/
def field? (value : Json) (key : String) : Option Json :=
  match value with
  | .object fields => fields.lookup key
  | _ => none

private theorem decodeCommitted_verified {goal identity cursor revision : String} {head : Json}
    {committed : Option Json} {journal : FileAuthorityJournal} (hhead : CanonicalObject head)
    (h : FileAuthorityJournal.decodeCommitted revisionFor goal identity cursor revision head
      committed = .ok journal) :
    journal.goalId = goal ∧ journal.storeIdentity = identity ∧
      journal.providerRevision = revision ∧ ∃ entries, journal.Verified revisionFor entries := by
  simp only [FileAuthorityJournal.decodeCommitted] at h
  split at h
  · obtain ⟨position, -, h⟩ := bind_eq_ok.mp h
    split at h
    · simp [invalid] at h
    obtain ⟨s, hrows, h⟩ := bind_eq_ok.mp h
    split at h
    · simp [invalid] at h
    rename_i consistent
    simp only [not_or, not_ne_iff] at consistent
    obtain ⟨-, hlastRevision, hbytes⟩ := consistent
    simp only [FileAuthorityJournal.create] at h
    split at h
    · rename_i nonempty
      obtain rfl := Except.ok.inj h
      obtain ⟨entries, -, lineage, nodup, hoperations, rfl⟩ := decodeRows_eq_ok emptyOwned hrows
      have verified : FileAuthorityJournal.Verified revisionFor
          ⟨goal, identity, head, _, nonempty⟩ entries := by
        refine ⟨by simp [rows_foldl_push], lineage, ?_, ?_⟩
        · have distinct := nodup List.nodup_nil
          rw [hoperations, List.append_nil, List.nodup_reverse] at distinct
          exact distinct
        · rw [previous_foldl_push] at hbytes
          cases hlast : entries.getLast? with
          | none =>
            obtain rfl := List.getLast?_eq_none_iff.mp hlast
            simp at nonempty
          | some last =>
            have hcanonical := (lineage.lawful last (List.mem_of_getLast? hlast)).projection.2
            have hafter : headAfter none entries = some last.projection := by
              simp [headAfter, hlast]
            rw [hafter, Option.getD_some, Json.canonicalAuthorityBytes_canonical hcanonical
              hhead.2] at hbytes
            rw [hafter, hbytes]
      refine ⟨rfl, rfl, ?_, entries, verified⟩
      rw [previousRevision_foldl_push, verified.revisionAfter_eq, Option.some.injEq]
        at hlastRevision
      exact hlastRevision
    · simp at h
  · simp [invalid] at h

/-- Decoding publishes only verified journals, under the revision the document names. -/
theorem FileAuthorityJournal.decode_verified {value : Json} {goal identity : String}
    {journal : FileAuthorityJournal}
    (h : FileAuthorityJournal.decode value goal identity revisionFor = .ok journal) :
    journal.goalId = goal ∧ journal.storeIdentity = identity ∧
      field? value "provider_revision" = some (.string journal.providerRevision) ∧
      ∃ entries, journal.Verified revisionFor entries := by
  cases value with
  | object fields =>
    simp only [FileAuthorityJournal.decode] at h
    split at h
    · simp [invalid] at h
    split at h
    · simp [invalid] at h
    split at h
    · simp [invalid] at h
    obtain ⟨cursor, -, h⟩ := bind_eq_ok.mp h
    obtain ⟨revision, hrevision, h⟩ := bind_eq_ok.mp h
    obtain ⟨head, hhead, h⟩ := bind_eq_ok.mp h
    obtain ⟨hgoal, hidentity, hname, entries, verified⟩ :=
      decodeCommitted_verified (canonicalObject_of_ok hhead) h
    refine ⟨hgoal, hidentity, ?_, entries, verified⟩
    rw [hname]
    exact (requireAuthorityStoreId_eq_ok.mp hrevision).1
  | _ => simp [FileAuthorityJournal.decode, invalid] at h

/-- A verified journal is read back from its own document. -/
theorem FileAuthorityJournal.decode_toDocument {journal : FileAuthorityJournal}
    {entries : List JournalEntry} (h : journal.Verified revisionFor entries) :
    FileAuthorityJournal.decode journal.toDocument journal.goalId journal.storeIdentity
      revisionFor = .ok journal := by
  obtain ⟨init, last, hsplit, follows, hcursor, hrevision, hhead⟩ := h.exists_last
  have hlength : entries.length = init.length + 1 := by simp [hsplit]
  have hid : IsStoreId journal.cursor := by
    rw [hcursor, follows.cursor]
    exact isStoreId_repr _
  have hparse : parseAuthorityCursor (some journal.cursor) = .ok entries.length := by
    rw [hcursor, follows.cursor, parseAuthorityCursor_repr, hlength]
  have hrevisionId : IsStoreId journal.providerRevision :=
    hrevision ▸ follows.lawful.providerRevision
  have hheadObject : CanonicalObject journal.head := hhead ▸ follows.lawful.projection
  have hjson : journal.rows.map StoredCommit.toJson =
      entries.map (fun entry => entry.row.toJson) := by
    rw [h.rows, List.map_map]
    rfl
  have hdecode := decodeRows_toJson emptyOwned h.lineage
    (by simpa using h.distinct)
  have hrows : (entries.foldl DecodeState.push ⟨[], [], none, none, none⟩).rows = journal.rows := by
    simp [rows_foldl_push, h.rows]
  have hlastRow : journal.rows.getLast?.map (fun row => row.cursor) = some journal.cursor := by
    rw [List.getLast?_eq_some_getLast journal.nonempty]
    rfl
  obtain ⟨raw, raws, hraw⟩ := List.exists_cons_of_ne_nil
    (show entries.map (fun entry => entry.row.toJson) ≠ [] by simp [hsplit])
  have hcount : (raw :: raws).length = entries.length := by
    rw [← hraw, List.length_map]
  rw [hraw] at hjson hdecode
  simp only [FileAuthorityJournal.toDocument, FileAuthorityJournal.decode,
    FileAuthorityJournal.decodeCommitted, List.lookup_cons, hasExactAuthorityKeys, keys, HEADER_KEYS, hjson, List.map_cons, List.map_nil, decide_true,
    String.reduceBEq, Bool.true_eq_false, ne_eq, not_true_eq_false, or_false, if_false,
    beq_self_eq_true, requireAuthorityStoreId_eq_ok.mpr ⟨rfl, hid⟩,
    requireAuthorityStoreId_eq_ok.mpr ⟨rfl, hrevisionId⟩,
    canonicalAuthorityObject_of_canonical hheadObject, hparse, hcount, hdecode, ok_bind]
  rw [hrows, previous_foldl_push, previousRevision_foldl_push, hlastRow]
  simp only [h.revisionAfter_eq, h.head, not_true_eq_false, Option.getD_some, or_self, if_false,
    FileAuthorityJournal.create, journal.nonempty, ne_eq, not_false_eq_true, dif_pos]

/-- Replay may start at any row whose predecessor is known, and at every checkpoint. -/
private theorem scanRows_of_lineage {offset index : Nat} {previous start : Option Json}
    {previousRevision : Option String} {entries : List JournalEntry}
    (lineage : Lineage revisionFor index previous previousRevision entries)
    (known : start = previous ∨ index % AUTHORITY_STATE_CHECKPOINT_INTERVAL = 0) :
    FileAuthorityJournal.scanRows offset index (entries.map JournalEntry.row) start =
      .ok ((entries.map JournalEntry.transaction).drop (offset - index)) := by
  induction entries generalizing index previous start previousRevision with
  | nil => simp [FileAuthorityJournal.scanRows]
  | cons entry entries ih =>
    obtain ⟨follows, lineage⟩ := lineage
    have hproject : project entry.state start = .ok entry.projection := by
      rcases known with rfl | hcheckpoint
      · exact project_of_standsFor follows.state
      · have stands := follows.state
        cases hstate : entry.state with
        | checkpoint stored =>
          rw [hstate] at stands
          rw [project, stands.2]
        | delta change =>
          rw [hstate] at stands
          exact absurd hcheckpoint stands.1
    rw [List.map_cons, FileAuthorityJournal.scanRows]
    simp only [JournalEntry.row, hproject, ok_bind]
    rw [ih lineage (Or.inl rfl), ok_bind]
    split
    · rename_i inside
      rw [Nat.sub_eq_zero_of_le inside, Nat.sub_eq_zero_of_le (by omega)]
      rfl
    · rename_i outside
      rw [show offset - index = offset - (index + 1) + 1 by omega, List.map_cons,
        List.drop_succ_cons]

/-- A scan returns the logical transactions of its interval, wherever the interval starts. -/
theorem FileAuthorityJournal.scan_of_verified {journal : FileAuthorityJournal}
    {entries : List JournalEntry} (h : journal.Verified revisionFor entries)
    (offset limit : Nat) :
    journal.scan offset limit =
      .ok (((entries.map JournalEntry.transaction).drop offset).take limit) := by
  have hlength : journal.rows.length = entries.length := by simp [h.rows]
  by_cases hend : journal.rows.length ≤ offset
  · rw [scan, if_pos hend, List.drop_eq_nil_of_le (by simp only [List.length_map]; omega),
      List.take_nil]
  let checkpoint := offset / AUTHORITY_STATE_CHECKPOINT_INTERVAL *
    AUTHORITY_STATE_CHECKPOINT_INTERVAL
  let stop := min journal.rows.length (offset + limit)
  have hcovering : authorityStateCheckpointCursor (offset + 1) = .ok (checkpoint + 1) := by
    simp [authorityStateCheckpointCursor, checkpoint]
  have hle : checkpoint ≤ offset := Nat.div_mul_le_self _ _
  have hslice : (journal.rows.take stop).drop checkpoint =
      ((entries.take stop).drop checkpoint).map JournalEntry.row := by
    rw [h.rows, List.map_drop, List.map_take]
  -- the replay starts at the covering checkpoint, where no predecessor is needed
  have hsplit : entries.take checkpoint ++ (entries.drop checkpoint).take (stop - checkpoint) ++
      (entries.drop checkpoint).drop (stop - checkpoint) = entries := by
    rw [List.append_assoc, List.take_append_drop, List.take_append_drop]
  have lineage := h.lineage
  rw [← hsplit, List.append_assoc] at lineage
  have inner := (lineage_append.1 (lineage_append.1 lineage).2).1
  have hcount : (entries.take checkpoint).length = checkpoint := by
    rw [List.length_take]
    omega
  rw [hcount, Nat.zero_add, ← List.drop_take] at inner
  have hzero : checkpoint % AUTHORITY_STATE_CHECKPOINT_INTERVAL = 0 := Nat.mul_mod_left _ _
  rw [scan, if_neg hend, hcovering, ok_bind]
  simp only [Nat.add_sub_cancel]
  rw [show min journal.rows.length (offset + limit) = stop from rfl, hslice,
    scanRows_of_lineage inner (Or.inr hzero)]
  congr 1
  rw [← List.map_drop, List.drop_drop, Nat.add_sub_cancel' hle, ← List.map_drop, ← List.map_take]
  congr 1
  rw [List.drop_take]
  simp only [stop]
  rcases Nat.le_total (offset + limit) journal.rows.length with hsmall | hlarge
  · rw [Nat.min_eq_right hsmall, Nat.add_sub_cancel_left]
  · rw [Nat.min_eq_left hlarge, List.take_of_length_le (by rw [List.length_drop]; omega),
      List.take_of_length_le (by rw [List.length_drop]; omega)]

/-- The whole logical history, as a scan from the first cursor returns it. -/
def FileAuthorityJournal.transactions (journal : FileAuthorityJournal) :
    Protocol (List AuthorityStoreCommittedTransaction) :=
  journal.scan 0 journal.rows.length

theorem FileAuthorityJournal.Verified.transactions_eq
    {journal : FileAuthorityJournal} {entries : List JournalEntry}
    (h : journal.Verified revisionFor entries) :
    journal.transactions = .ok (entries.map JournalEntry.transaction) := by
  rw [transactions, scan_of_verified h, List.drop_zero,
    List.take_of_length_le (by simp [h.rows])]

end Journal

end Loopx.Authority
