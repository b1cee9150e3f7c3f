/- GID: Loopx/Authority/SqliteStoreReads
   generality: I
   source: loopx/control_plane/coordination/sqlite_authority_store.ts
   digest: Every read of a SQLite store answers from the one history its file retains. -/

import Loopx.Authority.SqliteStoreInvariant

set_option autoImplicit false
set_option relaxedAutoImplicit false

namespace Loopx.Authority

open Loopx.Lib
open Loopx.Lib.CasLog (Distinct)
open Loopx.Lib.Fallible (ok_bind bind_eq_ok)
open Loopx.Json (JsNumber Protocol)

section History

variable {identity : String} {journal : Journal}

theorem sqliteEntry_of_history (history : SqliteHistory identity 0 journal) {index : Nat}
    {transaction : AuthorityStoreCommittedTransaction}
    (here : journal[index]? = some transaction) : SqliteEntry identity index transaction := by
  obtain ⟨before, rest, rfl, rfl⟩ := SqliteStore.split_of_getElem? here
  have entry := (sqliteHistory_append.mp history).2.1
  rwa [Nat.zero_add] at entry

theorem contiguous_of_history (history : SqliteHistory identity 0 journal) :
    Contiguous journal := by
  intro position hposition
  exact (sqliteEntry_of_history history (List.getElem?_eq_getElem hposition)).cursor

/-- The tokens the store hands out pass its own check of an expected revision. -/
theorem isSqliteRevision_sqliteRevision (pattern : isSqliteIdentity identity = true) (index : Nat) :
    isSqliteRevision (sqliteRevision identity (index + 1)) = true := by
  have length : identity.toList.length = 39 := by
    have hpattern := pattern
    simp only [isSqliteIdentity, Bool.and_eq_true, decide_eq_true_eq, List.length_drop] at hpattern
    omega
  have text : (sqliteRevision identity (index + 1)).toList =
      identity.toList ++ ':' :: (index + 1).repr.toList := by
    simp [sqliteRevision]
  rw [isSqliteRevision, text, List.take_left' length, String.ofList_toList, pattern]
  rw [show (40 : Nat) = identity.toList.length + 1 by omega, List.drop_append,
    List.drop_of_length_le (by omega)]
  have decimal := isDecimalText_repr index
  rw [← String.ofList_toList (s := (index + 1).repr)] at decimal
  simpa [length] using decimal

/-- A revision token names one transaction of its history. -/
theorem revision_inj_of_history (history : SqliteHistory identity 0 journal) :
    ∀ a ∈ journal, ∀ b ∈ journal, a.providerRevision = b.providerRevision → a = b := by
  intro a ha b hb same
  obtain ⟨i, hi⟩ := List.getElem?_of_mem ha
  obtain ⟨j, hj⟩ := List.getElem?_of_mem hb
  rw [(sqliteEntry_of_history history hi).revision, (sqliteEntry_of_history history hj).revision,
    sqliteRevision, sqliteRevision, String.append_right_inj] at same
  have hindex := Decimal.repr_injective same
  obtain rfl : i = j := by omega
  exact Option.some.inj (hi.symm.trans hj)

end History

namespace SqliteStore

variable {store : SqliteStore} {identity : String} {journal : Journal} {s : SqliteState}
  {env : SqliteEnvironment}

/-- The file is absent, or an installed store that the handle accepts. -/
def Settled (store : SqliteStore) (s : SqliteState) (journal : Journal) : Prop :=
  (s.database = none ∧ journal = []) ∨ ∃ identity, Opened store s journal identity

theorem openRead_opened (h : Opened store s journal identity) (available : env.unavailable = false) :
    store.openRead env s = .ok (some (store.databaseOf identity journal)) := by
  simp only [openRead, h.database, available, Bool.false_eq_true, if_false,
    identity_databaseOf h.opens.pattern h.opens.lineage, check, ok_bind]

variable (store) in
/-- The head of a history is the head a load of it reports. -/
private theorem headOfHistory_eq (history : SqliteHistory identity 0 journal) :
    (store.headOfHistory identity journal).map (fun head =>
        (⟨head.projection, head.providerRevision, head.cursor.repr⟩ : AuthorityStoreHead)) =
      journal.getLast?.map headOf := by
  cases journal using List.reverseRecOn with
  | nil => rfl
  | append_singleton init last =>
    have entry : SqliteEntry identity init.length last := by
      apply sqliteEntry_of_history history
      simp
    simp [headOfHistory, headOf, entry.cursor, entry.revision]

theorem loadAuthority_reads (h : Settled store s journal) (available : env.unavailable = false) :
    store.loadAuthority env s = journal.load := by
  rcases h with ⟨hnone, rfl⟩ | ⟨identity, opened⟩
  · simp only [loadAuthority, openRead, hnone, ok_bind]
    rfl
  · have head := headOfHistory_eq store opened.history
    simp only [loadAuthority, openRead_opened opened available, ok_bind,
      current_databaseOf opened.opens opened.history, check, Journal.load]
    cases hlast : journal.getLast? with
    | none =>
      rw [headOfHistory, hlast, Option.map_none]
    | some last =>
      rw [hlast] at head
      obtain ⟨found, hfound, heq⟩ := Option.map_eq_some_iff.mp head
      simp only [hfound, heq]

section Receipts

/-- Where a requested id stands in the history. -/
inductive Selected (journal : Journal) (id : String) : Option Nat → Prop where
  | missing (fresh : ∀ transaction ∈ journal, transaction.operationId ≠ id) :
      Selected journal id none
  | found (before rest : Journal) (transaction : AuthorityStoreCommittedTransaction)
      (split : journal = before ++ transaction :: rest) (used : transaction.operationId = id) :
      Selected journal id (some (before.length + 1))

/-- Every span lies inside the history. -/
def Within (length : Nat) (ranges : List ReceiptRange) : Prop :=
  ∀ range ∈ ranges, 1 ≤ range.first ∧ range.first ≤ range.last ∧ range.last ≤ length

def Covers (ranges : List ReceiptRange) (cursor : Nat) : Prop :=
  ∃ range ∈ ranges, range.first ≤ cursor ∧ cursor ≤ range.last

private theorem widenRange_within {length checkpoint cursor : Nat} {ranges : List ReceiptRange}
    (h : Within length ranges) (positive : 1 ≤ cursor) (retained : cursor ≤ length) :
    Within length (widenRange checkpoint cursor ranges) := by
  induction ranges with
  | nil =>
    intro range hrange
    obtain rfl : range = ⟨checkpoint, cursor, cursor⟩ := by simpa [widenRange] using hrange
    exact ⟨positive, Nat.le_refl _, retained⟩
  | cons first rest ih =>
    have hfirst := h first (by simp)
    have hrest : Within length rest := fun range hrange => h range (by simp [hrange])
    intro range hrange
    unfold widenRange at hrange
    split at hrange
    · rcases List.mem_cons.mp hrange with rfl | hrange
      · dsimp
        split_ifs <;> omega
      · exact hrest range hrange
    · rcases List.mem_cons.mp hrange with rfl | hrange
      · exact hfirst
      · exact ih hrest range hrange

private theorem covers_widenRange (checkpoint cursor : Nat) (ranges : List ReceiptRange) :
    Covers (widenRange checkpoint cursor ranges) cursor ∧
      ∀ covered, Covers ranges covered → Covers (widenRange checkpoint cursor ranges) covered := by
  induction ranges with
  | nil =>
    constructor
    · exact ⟨_, List.mem_singleton_self _, Nat.le_refl _, Nat.le_refl _⟩
    · rintro covered ⟨range, hrange, -⟩
      simp at hrange
  | cons first rest ih =>
    unfold widenRange
    split
    · constructor
      · refine ⟨_, List.mem_cons_self, ?_⟩
        dsimp
        split_ifs <;> omega
      · rintro covered ⟨range, hrange, hcovered⟩
        rcases List.mem_cons.mp hrange with rfl | hrange
        · refine ⟨_, List.mem_cons_self, ?_⟩
          dsimp
          split_ifs <;> omega
        · exact ⟨range, List.mem_cons_of_mem _ hrange, hcovered⟩
    · constructor
      · obtain ⟨range, hrange, hcovered⟩ := ih.1
        exact ⟨range, List.mem_cons_of_mem _ hrange, hcovered⟩
      · rintro covered ⟨range, hrange, hcovered⟩
        rcases List.mem_cons.mp hrange with rfl | hrange
        · exact ⟨range, List.mem_cons_self, hcovered⟩
        · obtain ⟨wider, hwider, hcovers⟩ := ih.2 covered ⟨range, hrange, hcovered⟩
          exact ⟨wider, List.mem_cons_of_mem _ hwider, hcovers⟩

variable (store) in
/-- The first pass finds every id and spans that cover the found ones. -/
private theorem selectReceipts_databaseOf (history : SqliteHistory identity 0 journal)
    (distinct : Distinct journalShape journal) (ids : List String) {ranges : List ReceiptRange}
    (within : Within journal.length ranges) :
    ∃ selected ranges',
      selectReceipts (store.databaseOf identity journal) ids ranges = .ok (selected, ranges') ∧
      List.Forall₂ (Selected journal) ids selected ∧ Within journal.length ranges' ∧
      (∀ cursor, Covers ranges cursor → Covers ranges' cursor) ∧
      ∀ cursor, some cursor ∈ selected → Covers ranges' cursor := by
  induction ids generalizing ranges with
  | nil => exact ⟨[], ranges, rfl, .nil, within, fun _ h => h, by simp⟩
  | cons id ids ih =>
    have rows : (store.databaseOf identity journal).commits =
      store.storedRows identity 0 none journal := rfl
    by_cases used : ∃ transaction ∈ journal, transaction.operationId = id
    · obtain ⟨transaction, hmem, rfl⟩ := used
      obtain ⟨before, rest, rfl⟩ := List.append_of_mem hmem
      have entry : SqliteEntry identity before.length transaction :=
        sqliteEntry_of_history history (by simp)
      have decoded := decodeCommitRow_storedRow store entry
        (isProjection_projectionAfter (sqliteHistory_append.mp history).1)
      have cursor : (store.decodedRow identity before.length (projectionAfter none before)
        transaction).cursor = before.length + 1 := rfl
      have checkpoint : authorityStateCheckpointCursor (before.length + 1) =
          .ok (before.length / AUTHORITY_STATE_CHECKPOINT_INTERVAL *
            AUTHORITY_STATE_CHECKPOINT_INTERVAL + 1) := by
        rw [authorityStateCheckpointCursor, if_neg (by omega), Nat.add_sub_cancel]
      let window := before.length / AUTHORITY_STATE_CHECKPOINT_INTERVAL *
        AUTHORITY_STATE_CHECKPOINT_INTERVAL + 1
      obtain ⟨covered, kept⟩ := covers_widenRange window (before.length + 1) ranges
      have widened : Within (before ++ transaction :: rest).length
          (widenRange window (before.length + 1) ranges) :=
        widenRange_within within (by omega) (by simp)
      obtain ⟨selected, ranges', hselect, hselected, hwithin, hkept, hcovers⟩ := ih widened
      refine ⟨some (before.length + 1) :: selected, ranges', ?_,
        .cons (.found before rest transaction rfl rfl) hselected, hwithin, ?_, ?_⟩
      · simp only [selectReceipts, rows, find_operation store identity distinct, decoded, ok_bind,
          cursor, checkpoint]
        rw [hselect, ok_bind]
      · exact fun cursor hcursor => hkept cursor (kept cursor hcursor)
      · intro cursor hcursor
        rcases List.mem_cons.mp hcursor with heq | hcursor
        · obtain rfl := Option.some.inj heq
          exact hkept _ covered
        · exact hcovers cursor hcursor
    · have fresh : ∀ transaction ∈ journal, transaction.operationId ≠ id :=
        fun transaction hmem same => used ⟨transaction, hmem, same⟩
      obtain ⟨selected, ranges', hselect, hselected, hwithin, hkept, hcovers⟩ := ih within
      refine ⟨none :: selected, ranges', ?_, .cons (.missing fresh) hselected, hwithin, hkept, ?_⟩
      · simp only [selectReceipts, rows, find_operation_none fresh, hselect, ok_bind]
      · intro cursor hcursor
        apply hcovers cursor
        simpa using hcursor

/-- A proven row is the transaction at its cursor. -/
structure RowOf (identity : String) (journal : Journal) (row : String × SqliteCommitRow)
    (index : Nat) (transaction : AuthorityStoreCommittedTransaction) : Prop where
  here : journal[index]? = some transaction
  identity : row.1 = identity
  cursor : row.2.cursor = index + 1
  operationId : row.2.operationId = transaction.operationId
  receipts : row.2.receipts = transaction.receipts

private theorem rowOf_decodedRows {before span rest : Journal} {previous : Option Json}
    {row : SqliteCommitRow × AuthorityStateReplay}
    (hrow : row ∈ store.decodedRows identity before.length previous span) :
    ∃ index transaction, RowOf identity (before ++ (span ++ rest)) (identity, row.1) index
      transaction := by
  induction span generalizing before previous with
  | nil => simp [decodedRows] at hrow
  | cons transaction span ih =>
    unfold decodedRows at hrow
    rcases List.mem_cons.mp hrow with rfl | hrow
    · exact ⟨before.length, transaction, by simp, rfl, rfl, rfl, rfl⟩
    · have later := @ih (before ++ [transaction]) (some transaction.projection) (by simpa using hrow)
      simpa using later

private theorem cursors_decodedRows (index : Nat) (previous : Option Json) (span : Journal) :
    (store.decodedRows identity index previous span).map (fun row => row.1.cursor) =
      List.range' (index + 1) span.length := by
  induction span generalizing index previous with
  | nil => rfl
  | cons transaction span ih =>
    rw [decodedRows, List.map_cons, ih, List.length_cons, List.range'_succ]
    rfl

/-- The second pass proves exactly the rows of the spans. -/
private theorem verifyRanges_databaseOf (opens : Opens store identity)
    (history : SqliteHistory identity 0 journal) {ranges : List ReceiptRange}
    (within : Within journal.length ranges) :
    ∃ verified, store.verifyRanges (store.databaseOf identity journal) ranges = .ok verified ∧
      (∀ row ∈ verified, ∃ index transaction, RowOf identity journal row index transaction) ∧
      ∀ cursor, Covers ranges cursor → ∃ row ∈ verified, row.2.cursor = cursor := by
  induction ranges with
  | nil =>
    refine ⟨[], rfl, by simp, ?_⟩
    rintro cursor ⟨range, hrange, -⟩
    simp at hrange
  | cons range ranges ih =>
    obtain ⟨positive, ordered, retained⟩ := within range (by simp)
    obtain ⟨rest, hrest, hrows, hcovered⟩ := ih (fun range hrange => within range (by simp [hrange]))
    obtain ⟨previous, hrange⟩ := verifiedRange_databaseOf opens history positive ordered retained
    let span := (journal.drop (range.first - 1)).take (range.last + 1 - range.first)
    have hspan : span.length = range.last + 1 - range.first := by
      simp only [span, List.length_take, List.length_drop]
      omega
    have hbefore : (journal.take (range.first - 1)).length = range.first - 1 := by
      rw [List.length_take]
      omega
    have hjournal : journal = journal.take (range.first - 1) ++
        (span ++ (journal.drop (range.first - 1)).drop (range.last + 1 - range.first)) := by
      rw [List.take_append_drop, List.take_append_drop]
    refine ⟨(store.decodedRows identity (range.first - 1) previous span).map
      (fun row => (identity, row.1)) ++ rest, ?_, ?_, ?_⟩
    · simp only [verifyRanges, hrange, hrest, ok_bind]
      rfl
    · intro row hrow
      rcases List.mem_append.mp hrow with hrow | hrow
      · obtain ⟨proven, hproven, rfl⟩ := List.mem_map.mp hrow
        rw [hjournal]
        rw [← hbefore] at hproven
        exact rowOf_decodedRows hproven
      · exact hrows row hrow
    · rintro cursor ⟨covering, hcovering, hcursor⟩
      rcases List.mem_cons.mp hcovering with rfl | hcovering
      · have hmem : cursor ∈ (store.decodedRows identity (covering.first - 1) previous span).map
            (fun row => row.1.cursor) := by
          rw [cursors_decodedRows, List.mem_range'_1]
          omega
        obtain ⟨row, hrow, rfl⟩ := List.mem_map.mp hmem
        exact ⟨(identity, row.1), List.mem_append_left _ (List.mem_map_of_mem hrow), rfl⟩
      · obtain ⟨row, hrow, heq⟩ := hcovered cursor ⟨covering, hcovering, hcursor⟩
        exact ⟨row, List.mem_append_right _ hrow, heq⟩

/-- The proven row of a used id carries the receipt of the transaction that used it. -/
private theorem verifiedReceipt_databaseOf (history : SqliteHistory identity 0 journal)
    (distinct : Distinct journalShape journal) {verified : List (String × SqliteCommitRow)}
    (rows : ∀ row ∈ verified, ∃ index transaction, RowOf identity journal row index transaction)
    {before rest : Journal} {transaction : AuthorityStoreCommittedTransaction}
    (split : journal = before ++ transaction :: rest)
    (covered : ∃ row ∈ verified, row.2.cursor = before.length + 1) :
    verifiedReceipt verified transaction.operationId = some (before.length + 1,
      .found transaction.cursor transaction.providerRevision transaction.receipts) := by
  have here : journal[before.length]? = some transaction := by simp [split]
  have hmem : transaction ∈ journal := List.mem_of_getElem? here
  have entry := sqliteEntry_of_history history here
  obtain ⟨proven, hproven, hcursor⟩ := covered
  have used : proven.2.operationId = transaction.operationId := by
    obtain ⟨index, owner, howner⟩ := rows proven hproven
    have hindex : index = before.length := by
      have := howner.cursor
      omega
    rw [howner.operationId]
    have same := howner.here
    rw [hindex, here] at same
    rw [Option.some.inj same]
  cases hlast : (verified.filter (fun row =>
      decide (row.2.operationId = transaction.operationId))).getLast? with
  | none =>
    rw [List.getLast?_eq_none_iff, List.filter_eq_nil_iff] at hlast
    exact absurd (by simpa using used) (hlast proven hproven)
  | some row =>
    obtain ⟨hrow, hid⟩ := List.mem_filter.mp (List.mem_of_getLast? hlast)
    obtain ⟨index, owner, howner⟩ := rows row hrow
    obtain rfl : owner = transaction := by
      apply CasLog.eq_of_id distinct (List.mem_of_getElem? howner.here) hmem
      exact howner.operationId.symm.trans (of_decide_eq_true hid)
    have hposition : index + 1 = before.length + 1 := by
      have := (sqliteEntry_of_history history howner.here).cursor.symm.trans entry.cursor
      exact Decimal.repr_injective this
    simp only [verifiedReceipt, hlast, Option.map_some, howner.cursor, howner.identity, hposition,
      howner.receipts, entry.cursor, entry.revision]

private theorem receipt_of_split {before rest : Journal}
    {transaction : AuthorityStoreCommittedTransaction}
    (distinct : Distinct journalShape (before ++ transaction :: rest)) :
    Journal.receipt (before ++ transaction :: rest) transaction.operationId =
      .found transaction.cursor transaction.providerRevision transaction.receipts := by
  have fresh : before.find? (fun entry => decide (entry.operationId = transaction.operationId)) =
      none := by
    rw [List.find?_eq_none]
    intro earlier hearlier
    rw [Distinct, List.map_append, List.nodup_append] at distinct
    have other := distinct.2.2 _ (List.mem_map_of_mem hearlier) _
      (List.mem_map_of_mem List.mem_cons_self)
    simpa [journalShape] using other
  simp [Journal.receipt, List.find?_append, fresh]

private theorem receiptResults_databaseOf (history : SqliteHistory identity 0 journal)
    (distinct : Distinct journalShape journal) {verified : List (String × SqliteCommitRow)}
    (rows : ∀ row ∈ verified, ∃ index transaction, RowOf identity journal row index transaction)
    {ids : List String} {selected : List (Option Nat)}
    (hselected : List.Forall₂ (Selected journal) ids selected)
    (covered : ∀ cursor, some cursor ∈ selected → ∃ row ∈ verified, row.2.cursor = cursor) :
    receiptResults verified (ids.zip selected) = .ok (ids.map journal.receipt) := by
  induction hselected with
  | nil => rfl
  | @cons id position ids selected hposition hselected ih =>
    have hrest := ih (fun cursor hcursor => covered cursor (List.mem_cons_of_mem _ hcursor))
    cases hposition with
    | missing fresh =>
      have absent : journal.receipt id = .missing := by
        have hfind : journal.find? (fun entry => decide (entry.operationId = id)) = none := by
          rw [List.find?_eq_none]
          intro entry hentry
          simpa using fresh entry hentry
        simp [Journal.receipt, hfind]
      simp only [List.zip_cons_cons, receiptResults, hrest, ok_bind, List.map_cons, absent]
    | found before rest transaction split used =>
      subst used
      have hfound := verifiedReceipt_databaseOf history distinct rows split
        (covered _ List.mem_cons_self)
      subst split
      simp only [List.zip_cons_cons, receiptResults, hfound, Option.filter_some, decide_true,
        if_true, hrest, ok_bind, List.map_cons, receipt_of_split distinct]

theorem readReceipts_reads (h : Settled store s journal) (available : env.unavailable = false)
    (operations : List String) :
    store.readReceipts env s operations = (match receiptBatch operations with
      | .error reason => .failure (readFailure (.protocol reason))
      | .ok ids => .receipts (ids.map journal.receipt)) := by
  cases hbatch : receiptBatch operations with
  | error reason => simp only [readReceipts, hbatch, check, Loopx.Lib.Fallible.error_bind]
  | ok ids =>
    rcases h with ⟨hnone, rfl⟩ | ⟨identity, opened⟩
    · simp only [readReceipts, hbatch, check, ok_bind, openRead, hnone]
      rfl
    · simp only [readReceipts, hbatch, check, ok_bind, openRead_opened opened available,
        current_databaseOf opened.opens opened.history]
      cases hlast : journal.getLast? with
      | none =>
        obtain rfl := List.getLast?_eq_none_iff.mp hlast
        rfl
      | some last =>
        obtain ⟨selected, ranges, hselect, hselected, hwithin, -, hcovers⟩ :=
          selectReceipts_databaseOf store opened.history opened.distinct ids
            (show Within journal.length [] by simp [Within])
        obtain ⟨verified, hverified, hrows, hcovered⟩ :=
          verifyRanges_databaseOf opened.opens opened.history hwithin
        have hresults := receiptResults_databaseOf opened.history opened.distinct hrows hselected
          (fun cursor hcursor => hcovered cursor (hcovers cursor hcursor))
        simp only [headOfHistory, hlast, Option.map_some, hselect, hverified, hresults, ok_bind]

/-- A single read is a batch of one; its id is checked by the batch. -/
theorem readReceipt_reads (h : Settled store s journal) (available : env.unavailable = false)
    (operation : String) :
    store.readReceipt env s operation =
      (match requireAuthorityStoreId (some (.string operation)) "operation id" with
        | .error reason => .failure (readFailure (.protocol reason))
        | .ok id => journal.receipt id) := by
  simp only [readReceipt, readReceipts_reads h available, receiptBatch, List.length_singleton,
    requireOperationIds]
  cases requireAuthorityStoreId (some (.string operation)) "operation id" with
  | error reason => rfl
  | ok id => rfl

end Receipts

section Scans

/-- The rows a proven span shows to a scan are the history's own. -/
theorem scannedRows_decodedRows {index : Nat} {previous : Option Json} {span : Journal}
    (history : SqliteHistory identity index span) :
    scannedRows identity (store.decodedRows identity index previous span) = span := by
  induction span generalizing index previous with
  | nil => rfl
  | cons transaction span ih =>
    obtain ⟨entry, hrest⟩ := history
    have rest := @ih (index + 1) (some transaction.projection) hrest
    unfold scannedRows at rest ⊢
    rw [decodedRows, List.map_cons, rest]
    congr 1
    obtain ⟨⟨cursor, revision, operationId, events, receipts⟩, projection⟩ := transaction
    have hcursor : cursor = (index + 1).repr := entry.cursor
    have hrevision : revision = sqliteRevision identity (index + 1) := entry.revision
    simp only [decodedRow, hcursor, hrevision, AuthorityStateReplay.snapshot, Json.copyAuthorityJson]

variable (store identity) in
private theorem rows_after {offset : Nat} (limit : Nat) (inside : offset ≤ journal.length) :
    ∃ previous, ((store.storedRows identity 0 none journal).filter
        (fun row => decide (offset < row.cursor))).take limit =
      store.storedRows identity offset previous ((journal.drop offset).take limit) := by
  have hlength : (journal.take offset).length = offset := by
    rw [List.length_take]
    omega
  have rows : store.storedRows identity 0 none (journal.take offset ++ journal.drop offset) = _ :=
    storedRows_append _ _ _ _
  have later : store.storedRows identity offset (projectionAfter none (journal.take offset))
      ((journal.drop offset).take limit ++ (journal.drop offset).drop limit) = _ :=
    storedRows_append _ _ _ _
  rw [List.take_append_drop, Nat.zero_add, hlength] at rows
  rw [List.take_append_drop] at later
  have early : (store.storedRows identity 0 none (journal.take offset)).filter
      (fun row => decide (offset < row.cursor)) = [] := by
    rw [List.filter_eq_nil_iff]
    intro row hrow
    have := cursor_of_mem_storedRows hrow
    simp only [decide_eq_true_eq]
    omega
  have kept : (store.storedRows identity offset (projectionAfter none (journal.take offset))
      (journal.drop offset)).filter (fun row => decide (offset < row.cursor)) =
      store.storedRows identity offset (projectionAfter none (journal.take offset))
        (journal.drop offset) := by
    rw [List.filter_eq_self]
    intro row hrow
    have := cursor_of_mem_storedRows hrow
    simp only [decide_eq_true_eq]
    omega
  refine ⟨projectionAfter none (journal.take offset), ?_⟩
  rw [rows, List.filter_append, early, kept, List.nil_append, later]
  by_cases short : (journal.drop offset).length ≤ limit
  · rw [List.drop_eq_nil_of_le short, storedRows, List.append_nil]
    apply List.take_of_length_le
    rw [length_storedRows, List.take_of_length_le short]
    exact short
  · apply List.take_left'
    rw [length_storedRows, List.length_take]
    omega

/-- The span from the first to the last row of a stretch is that stretch. -/
private theorem stretch_proven (h : Opened store s journal identity) {offset limit : Nat}
    (inside : offset ≤ journal.length) (previous : Option Json)
    {first : AuthorityStoreCommittedTransaction} {rest : Journal}
    (stretch : (journal.drop offset).take limit = first :: rest) :
    ∃ last verified,
      (store.storedRows identity offset previous (first :: rest)).getLast? = some last ∧
      store.verifiedRange (store.databaseOf identity journal) (offset + 1) last.cursor =
        .ok (identity, verified) ∧
      scannedRows identity verified = first :: rest := by
  have hlength : (first :: rest).length = min limit (journal.length - offset) := by
    rw [← stretch, List.length_take, List.length_drop]
  have positive : 1 ≤ (first :: rest).length := by simp
  have hlast : (store.storedRows identity offset previous (first :: rest)).getLast?.map
      (fun row => row.cursor) = some (offset + (first :: rest).length) := by
    rw [← List.getLast?_map, cursors_storedRows, List.getLast?_range', if_neg (by simp)]
    congr 1
    omega
  obtain ⟨last, hfound, hcursor⟩ := Option.map_eq_some_iff.mp hlast
  obtain ⟨before, verified⟩ := verifiedRange_databaseOf h.opens h.history
    (show 1 ≤ offset + 1 by omega)
    (show offset + 1 ≤ offset + (first :: rest).length by omega) (by omega)
  have whole : (journal.drop (offset + 1 - 1)).take
      (offset + (first :: rest).length + 1 - (offset + 1)) = first :: rest := by
    rw [Nat.add_sub_cancel, ← stretch, List.take_eq_take_iff, List.length_take, List.length_drop]
    omega
  have history : SqliteHistory identity offset (first :: rest) := by
    have hsplit := h.history
    rw [← List.take_append_drop offset journal, sqliteHistory_append, Nat.zero_add,
      List.length_take, Nat.min_eq_left inside] at hsplit
    have hrest := hsplit.2
    rw [← List.take_append_drop limit (journal.drop offset), sqliteHistory_append] at hrest
    rw [← stretch]
    exact hrest.1
  rw [whole, Nat.add_sub_cancel] at verified
  refine ⟨last, store.decodedRows identity offset before (first :: rest), hfound, ?_,
    scannedRows_decodedRows history⟩
  rw [hcursor]
  exact verified

/-- A scan proves exactly the stretch it hands to its page. -/
private theorem scanDatabase_reads (h : Opened store s journal identity)
    (scan : AuthorityJournalScan) :
    store.scanDatabase (store.databaseOf identity journal) scan = .ok (journal.scanned scan) := by
  have contiguous := contiguous_of_history h.history
  have head := headOfHistory_eq store h.history
  have cursor : (store.headOfHistory identity journal).map (fun head => head.cursor.repr) =
      (journal.getLast?.map headOf).map (fun head => head.cursor) := by
    rw [← head, Option.map_map]
    rfl
  have rows : (store.databaseOf identity journal).commits =
    store.storedRows identity 0 none journal := rfl
  simp only [scanDatabase, current_databaseOf h.opens h.history, ok_bind, cursor,
    rangeFailure_of_journal scan contiguous, head, rows]
  by_cases ahead : scan.offset > journal.length
  · simp only [ahead, if_true, Journal.scanned]
  · simp only [ahead, if_false]
    have inside : scan.offset ≤ journal.length := by omega
    obtain ⟨previous, hrows⟩ := rows_after store identity (scan.limit + 1) inside
    have page := page_of_journal scan contiguous h.distinct _ (fun _ => rfl)
    rw [hrows]
    cases hstretch : (journal.drop scan.offset).take (scan.limit + 1) with
    | nil =>
      rw [hstretch] at page
      exact page
    | cons first rest =>
      obtain ⟨last, verified, hlast, hverified, hscanned⟩ :=
        stretch_proven h inside previous hstretch
      rw [hstretch] at page
      simp only [hlast]
      rw [storedRows, List.head?_cons]
      simp only [storedRow, hverified, ok_bind, hscanned]
      exact page

theorem scanCommitted_reads (h : Settled store s journal)
    (available : s.database ≠ none → env.unavailable = false) (after : Option String) (limit : JsNumber) :
    store.scanCommitted env s after limit = (match AuthorityJournalScan.prepare after limit with
      | .error failure => .failure failure
      | .ok scan => journal.scanned scan) := by
  cases hprepare : AuthorityJournalScan.prepare after limit with
  | error failure => simp only [scanCommitted, hprepare]
  | ok scan =>
    rcases h with ⟨hnone, rfl⟩ | ⟨identity, opened⟩
    · have contiguous : Contiguous [] := by simp [Contiguous]
      have page : scan.page [] none = .ok (Journal.scanned [] scan) :=
        page_of_journal scan contiguous (by simp [Distinct]) [] (by simp)
      simp only [scanCommitted, hprepare, openRead, hnone, ok_bind, page, check]
    · have answers := available (by simp [opened.database])
      simp only [scanCommitted, hprepare, openRead_opened opened answers, ok_bind,
        scanDatabase_reads opened scan, check]

end Scans

end SqliteStore

end Loopx.Authority
