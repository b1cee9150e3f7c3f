/- GID: Loopx/Authority/ScanPages
   generality: I
   source: loopx/control_plane/coordination/authority_journal_scan.ts, file_authority_store.ts,
     sqlite_authority_store.ts
   digest: A reader that follows next_cursor sees a prefix of the growing journal, without a gap. -/

import Loopx.Authority.FileStoreRuns
import Loopx.Authority.SqliteStoreRuns

set_option autoImplicit false
set_option relaxedAutoImplicit false

namespace Loopx.Authority

open Loopx.Lib.CasLog (Distinct)
open Loopx.Lib.Fallible (error_bind)
open Loopx.Json (JsNumber)
open AuthorityJournalScan (scanLimit? prepare)
open FileStore (journalOf)

/-- A client that reads the journal page by page: where it goes on, and what it has read. -/
structure ScanReader where
  cursor : Option String
  read : Journal

namespace ScanReader

def start : ScanReader := ⟨none, []⟩

/-- A page is appended and its `next_cursor` followed; a failed read is repeated later. -/
def follow (reader : ScanReader) : AuthorityStoreScanResult → ScanReader
  | .page transactions nextCursor _ => ⟨nextCursor, reader.read ++ transactions⟩
  | .failure _ => reader

/-- The reader has read a prefix and its cursor is the last one it read. -/
structure At (reader : ScanReader) (journal : Journal) : Prop where
  isPrefix : reader.read <+: journal
  cursor : reader.cursor = if reader.read = [] then none else some reader.read.length.repr

theorem at_start (journal : Journal) : start.At journal := ⟨List.nil_prefix, rfl⟩

variable {reader : ScanReader} {journal journal' : Journal}

theorem At.mono (h : reader.At journal) (grown : journal <+: journal') : reader.At journal' :=
  ⟨h.isPrefix.trans grown, h.cursor⟩

/-- The reader's own cursor is accepted and stands for the length it has read. -/
theorem At.prepare (h : reader.At journal) {limit : JsNumber} {n : Nat}
    (hlimit : scanLimit? limit = some n) :
    AuthorityJournalScan.prepare reader.cursor limit =
      .ok ⟨reader.cursor, reader.read.length, n⟩ := by
  have parsed : parseAuthorityCursor reader.cursor = .ok reader.read.length := by
    rw [h.cursor]
    split
    · rename_i hnil
      rw [hnil]
      rfl
    · rename_i hread
      obtain ⟨m, hm⟩ := Nat.exists_eq_succ_of_ne_zero
        (fun hzero => hread (List.length_eq_zero_iff.mp hzero))
      rw [hm]
      exact parseAuthorityCursor_repr m
  rw [AuthorityJournalScan.prepare, parsed]
  simp only [hlimit]

/-- The next page of a contiguous journal: what follows the prefix, up to the limit. -/
theorem At.page (h : reader.At journal) (contiguous : Contiguous journal) (n : Nat) :
    ∃ next more, journal.scanned ⟨reader.cursor, reader.read.length, n⟩ =
        .page ((journal.drop reader.read.length).take n) next more ∧
      (more = false → reader.read ++ (journal.drop reader.read.length).take n = journal) ∧
      (reader.follow (.page ((journal.drop reader.read.length).take n) next more)).At journal := by
  obtain ⟨rest, rfl⟩ := h.isPrefix
  have hdrop : (reader.read ++ rest).drop reader.read.length = rest := List.drop_left
  rw [hdrop, Journal.scanned, if_neg (by simp)]
  simp only [hdrop]
  refine ⟨_, _, rfl, ?_, ?_⟩
  · intro hmore
    rw [decide_eq_false_iff_not, List.length_append] at hmore
    rw [List.take_of_length_le (by omega)]
  · refine ⟨?_, ?_⟩
    · simp only [follow]
      exact (List.prefix_append_right_inj _).mpr (List.take_prefix _ _)
    · simp only [follow]
      cases hpage : rest.take n using List.reverseRecOn with
      | nil => simp [h.cursor]
      | append_singleton init last =>
        have hsplit : reader.read ++ rest =
            (reader.read ++ init) ++ last :: rest.drop n := by
          conv => lhs; rw [← List.take_append_drop n rest, hpage]
          simp
        rw [hsplit] at contiguous
        have hcursor := contiguous.cursor_of_split
        simp [hcursor, Nat.add_assoc]

/-- Whatever a journal answers to the reader's request, the reader stays on it. -/
theorem At.follow (h : reader.At journal) (contiguous : Contiguous journal) (limit : JsNumber) :
    (reader.follow (match AuthorityJournalScan.prepare reader.cursor limit with
      | .error failure => .failure failure
      | .ok scan => journal.scanned scan)).At journal := by
  cases hlimit : scanLimit? limit with
  | none =>
    have refused : ∃ failure, AuthorityJournalScan.prepare reader.cursor limit = .error failure := by
      simp only [AuthorityJournalScan.prepare, hlimit]
      split
      · exact ⟨_, rfl⟩
      · exact ⟨_, rfl⟩
    obtain ⟨failure, hfailure⟩ := refused
    rw [hfailure]
    exact h
  | some n =>
    obtain ⟨next, more, hscan, -, hfollow⟩ := h.page contiguous n
    rw [h.prepare hlimit]
    simp only [hscan]
    exact hfollow

end ScanReader

/-- What a page read at the reader's cursor answers: the next stretch of the journal, for any
positive limit, and it says so when there is nothing left. -/
def PagesOn (journal : Journal) (reader : ScanReader)
    (read : JsNumber → AuthorityStoreScanResult) : Prop :=
  ∀ limit n, scanLimit? limit = some n → ∃ next more,
    read limit = .page ((journal.drop reader.read.length).take n) next more ∧
      (more = false → reader.read ++ (journal.drop reader.read.length).take n = journal)

section File

/-- A handle of the File store, and what happens around one read through it. -/
structure FileHandle where
  process : Nat
  existingOnly : Bool
  expectedIdentity : Option String
  env : FileEnvironment

def FileHandle.store (sha : Sha256) (goal : String) (handle : FileHandle) : FileStore :=
  ⟨sha, goal, handle.existingOnly, handle.expectedIdentity, handle.process⟩

/-- Any client's call, or the reader's next page. -/
inductive FileScanEvent where
  | client (call : FileCall)
  | page (handle : FileHandle) (limit : JsNumber)

structure FileScan where
  state : FileState
  reader : ScanReader

variable {sha : Sha256} {goal : String}

def FileScan.page (sha : Sha256) (goal : String) (p : FileScan) (handle : FileHandle)
    (limit : JsNumber) : FileState × AuthorityStoreScanResult :=
  (handle.store sha goal).scanCommitted handle.env p.state p.reader.cursor limit

def FileScanEvent.perform (sha : Sha256) (goal : String) (p : FileScan) :
    FileScanEvent → FileScan
  | .client call => ⟨(call.perform sha goal p.state).1, p.reader⟩
  | .page handle limit =>
    ⟨(p.page sha goal handle limit).1, p.reader.follow (p.page sha goal handle limit).2⟩

def fileScanAfter (sha : Sha256) (goal : String) (events : List FileScanEvent) : FileScan :=
  events.foldl (fun p event => event.perform sha goal p) ⟨FileState.empty, ScanReader.start⟩

private theorem FileScanEvent.perform_written (p : FileScan) (event : FileScanEvent) :
    p.state.written ⊆ (event.perform sha goal p).state.written := by
  cases event with
  | client call => exact call.perform_written sha goal p.state
  | page handle limit =>
    have kept : (p.page sha goal handle limit).1.written = p.state.written :=
      scanCommitted_written _ _ _ _ _
    simp only [FileScanEvent.perform, kept]
    exact List.Subset.refl _

/-- A page read of a sound directory: the reader stays on its journal. -/
private theorem FileScan.page_sound {p : FileScan} {entries : List JournalEntry}
    (h : p.state.Sound sha goal entries) (collisionFree : NoCollision sha p.state.written)
    (hreader : p.reader.At (journalOf entries)) (handle : FileHandle) (limit : JsNumber) :
    (p.page sha goal handle limit).1.Sound sha goal entries ∧
      (p.reader.follow (p.page sha goal handle limit).2).At (journalOf entries) := by
  cases hpage : p.page sha goal handle limit with
  | mk s' result =>
  have stored : p.state.Sound (handle.store sha goal).sha (handle.store sha goal).goalId entries := h
  obtain ⟨hsound, hresult⟩ := FileStore.scanCommitted_reads stored collisionFree hpage
  refine ⟨hsound, ?_⟩
  rcases hresult with rfl | ⟨-, failure, rfl⟩
  · exact hreader.follow h.contiguous limit
  · exact hreader

/-- Along every run the directory is sound and the reader stands on its journal. -/
private theorem fileScanAfter_at (events : List FileScanEvent)
    (collisionFree : NoCollision sha (fileScanAfter sha goal events).state.written) :
    ∃ entries, (fileScanAfter sha goal events).state.Sound sha goal entries ∧
      (fileScanAfter sha goal events).reader.At (journalOf entries) := by
  induction events using List.reverseRecOn with
  | nil => exact ⟨[], FileState.sound_empty sha goal, ScanReader.at_start _⟩
  | append_singleton events event ih =>
    have hstep : fileScanAfter sha goal (events ++ [event]) =
        event.perform sha goal (fileScanAfter sha goal events) := by
      rw [fileScanAfter, List.foldl_append]
      rfl
    rw [hstep] at collisionFree ⊢
    have earlier := collisionFree.mono (event.perform_written _)
    obtain ⟨entries, hsound, hreader⟩ := ih earlier
    cases event with
    | client call =>
      obtain ⟨s', result, entries', hrun, hsound', hstarts, -⟩ := call.perform_sound hsound earlier
      refine ⟨entries', ?_, hreader.mono hstarts⟩
      simp only [FileScanEvent.perform, hrun]
      exact hsound'
    | page handle limit =>
      exact ⟨entries, FileScan.page_sound hsound earlier hreader handle limit⟩

private theorem FileScan.pagesOn {p : FileScan} {entries : List JournalEntry}
    (h : p.state.Sound sha goal entries) (collisionFree : NoCollision sha p.state.written)
    (hreader : p.reader.At (journalOf entries)) {handle : FileHandle}
    (readable : FileStore.Readable (handle.store sha goal) handle.env p.state) :
    PagesOn (journalOf entries) p.reader (fun limit => (p.page sha goal handle limit).2) := by
  intro limit n hlimit
  cases hpage : p.page sha goal handle limit with
  | mk s' result =>
  have stored : p.state.Sound (handle.store sha goal).sha (handle.store sha goal).goalId entries := h
  obtain ⟨-, hresult⟩ := FileStore.scanCommitted_reads stored collisionFree hpage
  rcases hresult with rfl | ⟨unreadable, -⟩
  · obtain ⟨next, more, hscan, hdone, -⟩ := hreader.page h.contiguous n
    refine ⟨next, more, ?_, hdone⟩
    simp only [hpage, hreader.prepare hlimit, hscan]
  · exact absurd readable unreadable

end File

section Sqlite

/-- The transactions that replaying every retained row yields. -/
def SqliteState.journal (sha : Sha256) (goal : String) (s : SqliteState) : Option Journal :=
  match s.database with
  | none => some []
  | some db =>
    if db = .blank then some []
    else ((SqliteStore.replayHistory ⟨sha, goal, false, none⟩ (SqliteStore.storeIdentityOf db)
      db).toOption).map (SqliteStore.scannedRows (SqliteStore.storeIdentityOf db))

/-- A handle of the SQLite store, and what the driver does to one read through it. -/
structure SqliteHandle where
  existingOnly : Bool
  expectedIdentity : Option String
  env : SqliteEnvironment

def SqliteHandle.store (sha : Sha256) (goal : String) (handle : SqliteHandle) : SqliteStore :=
  ⟨sha, goal, handle.existingOnly, handle.expectedIdentity⟩

inductive SqliteScanEvent where
  | client (call : SqliteCall)
  | page (handle : SqliteHandle) (limit : JsNumber)

structure SqliteScan where
  state : SqliteState
  reader : ScanReader

variable {sha : Sha256} {goal : String}

def SqliteScan.page (sha : Sha256) (goal : String) (p : SqliteScan) (handle : SqliteHandle)
    (limit : JsNumber) : AuthorityStoreScanResult :=
  (handle.store sha goal).scanCommitted handle.env p.state p.reader.cursor limit

def SqliteScanEvent.perform (sha : Sha256) (goal : String) (p : SqliteScan) :
    SqliteScanEvent → SqliteScan
  | .client call => ⟨(call.perform sha goal p.state).1, p.reader⟩
  | .page handle limit => ⟨p.state, p.reader.follow (p.page sha goal handle limit)⟩

def sqliteScanAfter (sha : Sha256) (goal : String) (events : List SqliteScanEvent) : SqliteScan :=
  events.foldl (fun p event => event.perform sha goal p) ⟨SqliteState.empty, ScanReader.start⟩

/-- What a page read needs: a driver that answers and the store the handle was opened for. A file
without an installed store is refused, so no reader can hold a cursor of it. -/
structure SqliteScan.Readable (p : SqliteScan) (handle : SqliteHandle) : Prop where
  available : handle.env.unavailable = false
  lineage : ∀ db ∈ p.state.database, ∀ expected ∈ handle.expectedIdentity,
    expected = SqliteStore.storeIdentityOf db
  installed : p.reader.cursor = none → p.state.database ≠ some .blank

private theorem SqliteSound.journal_eq {s : SqliteState} {journal : Journal}
    (h : SqliteSound sha goal s journal) : s.journal sha goal = some journal := by
  rw [SqliteState.journal]
  cases hdb : s.database with
  | none => rw [h.missing (Or.inl hdb)]
  | some db =>
    rcases h.retained db hdb with rfl | ⟨identity, pattern, rfl, history, -⟩
    · rw [h.missing (Or.inr hdb)]
      simp
    · have hidentity : SqliteStore.storeIdentityOf ((⟨sha, goal, false, none⟩ :
          SqliteStore).databaseOf identity journal) = identity := rfl
      simp only [hidentity, SqliteStore.replayHistory_databaseOf history,
        if_neg SqliteStore.databaseOf_ne_blank, Except.toOption, Option.map_some,
        SqliteStore.scannedRows_decodedRows history]

/-- A handle that opens the file finds it settled. -/
private theorem SqliteSound.settled {s : SqliteState} {journal : Journal} {store : SqliteStore}
    {env : SqliteEnvironment} {db : Option SqliteDatabase} (h : SqliteStore.Sound store s journal)
    (hopen : store.openRead env s = .ok db) :
    SqliteStore.Settled store s journal ∧ (s.database ≠ none → env.unavailable = false) := by
  rw [SqliteStore.openRead] at hopen
  cases hdb : s.database with
  | none => exact ⟨Or.inl ⟨hdb, h.missing (Or.inl hdb)⟩, fun hne => absurd rfl hne⟩
  | some stored =>
    rw [hdb] at hopen
    simp only at hopen
    split at hopen
    · simp at hopen
    rename_i available
    refine ⟨?_, fun _ => by simpa using available⟩
    cases hidentity : store.identity stored with
    | error reason => simp [hidentity, check, error_bind] at hopen
    | ok found =>
      obtain ⟨rfl, opens⟩ := SqliteStore.identity_ok hidentity
      rcases h.retained stored hdb with rfl | ⟨identity, pattern, rfl, history, recorded⟩
      · simp [SqliteStore.identity, SqliteDatabase.blank] at hidentity
      · exact Or.inr ⟨identity, opens, hdb, history, h.distinct, recorded⟩

/-- A page read is the journal's, or the file could not be opened. -/
private theorem SqliteScan.page_reads {p : SqliteScan} {journal : Journal}
    (h : SqliteSound sha goal p.state journal) (handle : SqliteHandle) (limit : JsNumber) :
    p.page sha goal handle limit = (match prepare p.reader.cursor limit with
        | .error failure => .failure failure
        | .ok scan => journal.scanned scan) ∨
      ((∃ failure, p.page sha goal handle limit = .failure failure) ∧
        ∃ error, (handle.store sha goal).openRead handle.env p.state = .error error) := by
  have hsound : SqliteStore.Sound (handle.store sha goal) p.state journal := h.handle rfl rfl
  cases hopen : (handle.store sha goal).openRead handle.env p.state with
  | error error =>
    refine Or.inr ⟨?_, error, rfl⟩
    simp only [SqliteScan.page, SqliteStore.scanCommitted, hopen]
    cases prepare p.reader.cursor limit with
    | error failure => exact ⟨_, rfl⟩
    | ok scan => exact ⟨_, rfl⟩
  | ok db =>
    obtain ⟨settled, available⟩ := SqliteSound.settled hsound hopen
    exact Or.inl (SqliteStore.scanCommitted_reads settled available p.reader.cursor limit)

private theorem SqliteScanEvent.perform_proofs (p : SqliteScan) (event : SqliteScanEvent) :
    p.state.proofs ⊆ (event.perform sha goal p).state.proofs := by
  cases event with
  | client call => exact call.perform_proofs p.state
  | page handle limit => exact List.Subset.refl _

private theorem SqliteSound.contiguous {s : SqliteState} {journal : Journal}
    (h : SqliteSound sha goal s journal) : Contiguous journal := by
  cases hdb : s.database with
  | none =>
    rw [h.missing (Or.inl hdb)]
    simp [Contiguous]
  | some db =>
    rcases h.retained db hdb with rfl | ⟨identity, -, -, history, -⟩
    · rw [h.missing (Or.inr hdb)]
      simp [Contiguous]
    · exact contiguous_of_history history

private theorem SqliteScan.page_at {p : SqliteScan} {journal : Journal}
    (h : SqliteSound sha goal p.state journal) (hreader : p.reader.At journal)
    (handle : SqliteHandle) (limit : JsNumber) :
    (p.reader.follow (p.page sha goal handle limit)).At journal := by
  rcases SqliteScan.page_reads h handle limit with hpage | ⟨⟨failure, hfailure⟩, -⟩
  · rw [hpage]
    exact hreader.follow h.contiguous limit
  · rw [hfailure]
    exact hreader

/-- Along every run the file is sound and the reader stands on its journal. -/
private theorem sqliteScanAfter_at (events : List SqliteScanEvent)
    (collisionFree : NoCollision sha (sqliteScanAfter sha goal events).state.proofs) :
    ∃ journal, SqliteSound sha goal (sqliteScanAfter sha goal events).state journal ∧
      (sqliteScanAfter sha goal events).reader.At journal := by
  induction events using List.reverseRecOn with
  | nil => exact ⟨[], SqliteStore.sound_empty _, ScanReader.at_start _⟩
  | append_singleton events event ih =>
    have hstep : sqliteScanAfter sha goal (events ++ [event]) =
        event.perform sha goal (sqliteScanAfter sha goal events) := by
      rw [sqliteScanAfter, List.foldl_append]
      rfl
    rw [hstep] at collisionFree ⊢
    obtain ⟨journal, hsound, hreader⟩ := ih (collisionFree.mono (event.perform_proofs _))
    cases event with
    | client call =>
      obtain ⟨journal', hsound', hstarts⟩ := call.perform_sound hsound collisionFree
      exact ⟨journal', hsound', hreader.mono hstarts⟩
    | page handle limit => exact ⟨journal, hsound, SqliteScan.page_at hsound hreader handle limit⟩

private theorem SqliteScan.pagesOn {p : SqliteScan} {journal : Journal}
    (h : SqliteSound sha goal p.state journal) (hreader : p.reader.At journal)
    {handle : SqliteHandle} (readable : p.Readable handle) :
    PagesOn journal p.reader (p.page sha goal handle) := by
  intro limit n hlimit
  obtain ⟨next, more, hscan, hdone, -⟩ := hreader.page h.contiguous n
  rcases SqliteScan.page_reads h handle limit with hpage | ⟨-, error, hopen⟩
  · refine ⟨next, more, ?_, hdone⟩
    rw [hpage, hreader.prepare hlimit]
    exact hscan
  · -- a reader that holds a cursor has read something, so a store is installed
    exfalso
    rw [SqliteStore.openRead] at hopen
    cases hdb : p.state.database with
    | none => simp [hdb] at hopen
    | some db =>
      rcases h.retained db hdb with rfl | ⟨identity, pattern, rfl, -, -⟩
      · obtain rfl := h.missing (Or.inr hdb)
        have hread := List.prefix_nil.mp hreader.isPrefix
        exact readable.installed (by rw [hreader.cursor, if_pos hread]) hdb
      · have same : SqliteStore.SameGoal ⟨sha, goal, false, none⟩ (handle.store sha goal) := ⟨rfl, rfl⟩
        rw [← SqliteStore.databaseOf_handle same] at hdb
        have lineage : ∀ expected ∈ (handle.store sha goal).expectedIdentity,
            expected = identity := readable.lineage _ hdb
        simp [hdb, readable.available, SqliteStore.identity_databaseOf pattern lineage, check,
          Lib.Fallible.ok_bind] at hopen

end Sqlite

/-- The reader has read a prefix of this journal, each transaction once. -/
structure GapFree (reader : ScanReader) (journal : Journal) : Prop where
  isPrefix : reader.read <+: journal
  once : (reader.read.map (fun transaction => transaction.operationId)).Nodup

private theorem ScanReader.At.gapFree {reader : ScanReader} {journal : Journal}
    (h : reader.At journal) (distinct : Distinct journalShape journal) :
    GapFree reader journal := by
  refine ⟨h.isPrefix, ?_⟩
  exact List.Nodup.sublist (h.isPrefix.sublist.map _) distinct

/-- A reader that finds nothing, and a commit after it. -/
def pagedFile : List FileScanEvent :=
  [.page ⟨0, false, none, lostAnswer.env⟩ (.ofNat 1), .client lostAnswer]

def pagedSqlite : List SqliteScanEvent :=
  [.page ⟨false, none, (sqliteOpenCall none).env⟩ (.ofNat 1), .client (sqliteOpenCall none)]

private theorem sqliteScanAfter_page_client (sha : Sha256) (goal : String) (handle : SqliteHandle)
    (limit : JsNumber) (call : SqliteCall) :
    (sqliteScanAfter sha goal [.page handle limit, .client call]).state =
      sqliteAfter sha goal [call] := rfl

end Loopx.Authority
