/- GID: Loopx/Authority/FileStoreInvariant
   generality: I
   source: loopx/control_plane/coordination/file_authority_store.ts
   digest: What every state of a File store satisfies, and what one commit does to its history. -/

import Loopx.Authority.StoreLog
import Loopx.Authority.FileStore

set_option autoImplicit false
set_option relaxedAutoImplicit false

namespace Loopx.Authority

open Loopx.Lib
open Loopx.Lib.KeyedList
open Loopx.Lib.CasLog (Submit Request Answer)
open Loopx.Lib.Fallible (ok_bind bind_eq_ok)
open Loopx.Json (Protocol canonicalAuthorityJson canonicalAuthorityBytes Canonical)

section Receipts

variable {revisionFor : JournalRevision}

theorem operations_of_verified {journal : FileAuthorityJournal} {entries : List JournalEntry}
    (h : journal.Verified revisionFor entries) :
    journal.operations = entries.map (fun entry =>
      (entry.operationId, entry.toTransactionMetadata)) := by
  have hrows : journal.rows.map (fun row => (row.operationId, row.toTransactionMetadata)) =
      entries.map (fun entry => (entry.operationId, entry.toTransactionMetadata)) := by
    rw [h.rows, List.map_map]
    rfl
  rw [FileAuthorityJournal.operations, hrows]
  refine ofEntries_of_nodup ?_
  rw [keys, List.map_map]
  exact h.distinct

/-- The operation index finds the one entry of an id. -/
theorem receipt_eq_some {journal : FileAuthorityJournal} {entries : List JournalEntry}
    (h : journal.Verified revisionFor entries) {operation : String}
    {metadata : TransactionMetadata} :
    journal.receipt operation = some metadata ↔
      ∃ entry ∈ entries, entry.operationId = operation ∧
        entry.toTransactionMetadata = metadata := by
  have nodup : (keys journal.operations).Nodup := by
    rw [operations_of_verified h, keys, List.map_map]
    exact h.distinct
  rw [FileAuthorityJournal.receipt, lookup_iff_mem nodup, operations_of_verified h, List.mem_map]
  simp only [Prod.mk.injEq]

theorem receipt_eq_none {journal : FileAuthorityJournal} {entries : List JournalEntry}
    (h : journal.Verified revisionFor entries) {operation : String} :
    journal.receipt operation = none ↔ ∀ entry ∈ entries, entry.operationId ≠ operation := by
  rw [← not_iff_not, ← ne_eq, Option.ne_none_iff_exists']
  simp only [receipt_eq_some h, not_forall, not_not]
  constructor
  · rintro ⟨metadata, entry, hmem, hid, -⟩
    exact ⟨entry, hmem, hid⟩
  · rintro ⟨entry, hmem, hid⟩
    exact ⟨_, entry, hmem, hid, rfl⟩

/-- The entry at a position is what a scan of one row there returns. -/
theorem scan_entry {journal : FileAuthorityJournal} {entries : List JournalEntry}
    (h : journal.Verified revisionFor entries) {entry : JournalEntry} (hmem : entry ∈ entries) :
    ∃ position, parseAuthorityCursor (some entry.cursor) = .ok (position + 1) ∧
      journal.scan position 1 = .ok [entry.transaction] := by
  obtain ⟨first, second, rfl⟩ := List.append_of_mem hmem
  have follows := (lineage_append.mp h.lineage).2.1
  rw [Nat.zero_add] at follows
  refine ⟨first.length, ?_, ?_⟩
  · rw [follows.cursor, parseAuthorityCursor_repr]
  · rw [FileAuthorityJournal.scan_of_verified h, List.map_append, List.map_cons]
    simp

end Receipts

/-- A cached view says of its document exactly what verification said, or keeps no history. -/
structure ViewOf (view : VerifiedDocument) (journal : FileAuthorityJournal) : Prop where
  head : view.head = journal.head
  providerRevision : view.providerRevision = journal.providerRevision
  cursor : view.cursor = journal.cursor
  receipts : view.receipts = receiptIndex journal
  document : view.document = some journal ∨ view.document = none

theorem viewOf_verifiedView (identity digest : String) (journal : FileAuthorityJournal) :
    ViewOf (verifiedView identity digest journal) journal :=
  ⟨rfl, rfl, rfl, rfl, Or.inl rfl⟩

/-- A remembered document was written here and decodes to what the view says. -/
structure CacheSound (sha : Sha256) (goal : String) (written : List ByteArray)
    (view : VerifiedDocument) : Prop where
  intro ::
  source : ∃ raw ∈ written, view.digest = sha.hex raw ∧
    ∃ journal, decodeBytes raw goal view.identity
      (fileAuthorityRevision sha goal view.identity) = .ok journal ∧ ViewOf view journal

/-- The directory holds exactly the history `entries`. -/
structure FileState.Sound (sha : Sha256) (goal : String) (s : FileState)
    (entries : List JournalEntry) : Prop where
  pattern : ∀ identity ∈ s.identity, isFileIdentity identity = true
  missing : s.document = none → entries = []
  present : ∀ raw ∈ s.document, ∃ identity journal, s.identity = some identity ∧
    raw = journal.bytes ∧ raw ∈ s.written ∧
    Holds (fileAuthorityRevision sha goal identity) goal identity (some journal) entries
  caches : ∀ process view, s.caches process = some view → CacheSound sha goal s.written view

theorem written_subset {s s' : FileState} (h : s'.written = s.written) :
    s.written ⊆ s'.written := by
  rw [h]
  exact List.Subset.refl _

theorem FileState.sound_empty (sha : Sha256) (goal : String) :
    FileState.empty.Sound sha goal [] where
  pattern := by simp [FileState.empty]
  missing := fun _ => rfl
  present := by simp [FileState.empty]
  caches := by simp [FileState.empty]

theorem CacheSound.mono {sha : Sha256} {goal : String} {written written' : List ByteArray}
    {view : VerifiedDocument} (h : CacheSound sha goal written view) (sub : written ⊆ written') :
    CacheSound sha goal written' view := by
  obtain ⟨raw, hraw, rest⟩ := h.source
  exact ⟨raw, sub hraw, rest⟩

namespace FileStore

variable {store : FileStore} {s : FileState} {entries : List JournalEntry}

/-- Two states with the same durable contents. -/
structure SameDirectory (s s' : FileState) : Prop where
  identity : s'.identity = s.identity
  document : s'.document = s.document
  written : s'.written = s.written

theorem SameDirectory.refl (s : FileState) : SameDirectory s s := ⟨rfl, rfl, rfl⟩

/-- The second state may have gained an identity and is otherwise the same directory. -/
structure Keeps (s s' : FileState) : Prop where
  identity : ∀ identity ∈ s.identity, s'.identity = some identity
  document : s'.document = s.document
  written : s'.written = s.written

theorem Keeps.refl (s : FileState) : Keeps s s := ⟨fun _ h => h, rfl, rfl⟩

theorem Keeps.trans {s₁ s₂ s₃ : FileState} (h : Keeps s₁ s₂) (h' : Keeps s₂ s₃) : Keeps s₁ s₃ :=
  ⟨fun identity hi => h'.identity identity (h.identity identity hi),
    h'.document.trans h.document, h'.written.trans h.written⟩

theorem SameDirectory.keeps {s s' : FileState} (h : SameDirectory s s') : Keeps s s' :=
  ⟨fun _ hi => h.identity.trans hi, h.document, h.written⟩

private theorem sound_setCache (h : s.Sound store.sha store.goalId entries)
    {cached : Option VerifiedDocument}
    (hcached : ∀ view ∈ cached, CacheSound store.sha store.goalId s.written view) :
    (store.setCache s cached).Sound store.sha store.goalId entries where
  pattern := h.pattern
  missing := h.missing
  present := h.present
  caches := by
    intro process view hview
    simp only [setCache] at hview
    split at hview
    · exact hcached view hview
    · exact h.caches process view hview

theorem sound_forget (h : s.Sound store.sha store.goalId entries) :
    (store.setCache s none).Sound store.sha store.goalId entries :=
  sound_setCache h (by simp)

private theorem cacheSound_retained {identity : String} {raw : ByteArray}
    {journal : FileAuthorityJournal} {written : List ByteArray} (hraw : raw ∈ written)
    (hdecode : decodeBytes raw store.goalId identity
      (fileAuthorityRevision store.sha store.goalId identity) = .ok journal) :
    ∀ view ∈ retainedView (verifiedView identity (store.sha.hex raw) journal) raw journal,
      CacheSound store.sha store.goalId written view := by
  intro view hview
  simp only [retainedView] at hview
  split at hview
  · obtain rfl := Option.some.inj hview
    exact ⟨raw, hraw, rfl, journal, hdecode, viewOf_verifiedView _ _ _⟩
  · split at hview
    · obtain rfl := Option.some.inj hview
      exact ⟨raw, hraw, rfl, journal, hdecode, ⟨rfl, rfl, rfl, rfl, Or.inr rfl⟩⟩
    · simp at hview

/-- Reading the present document gives its journal, from memory or by verification. -/
theorem verifyDocument_sound (h : s.Sound store.sha store.goalId entries)
    (collisionFree : NoCollision store.sha s.written) {raw : ByteArray} {identity : String}
    {journal : FileAuthorityJournal} (hraw : raw ∈ s.written) (hbytes : raw = journal.bytes)
    (hholds : Holds (fileAuthorityRevision store.sha store.goalId identity) store.goalId identity
      (some journal) entries) (requireHistory : Bool) :
    ∃ s' view, store.verifyDocument s raw identity requireHistory = (s', .ok view) ∧
      ViewOf view journal ∧ (requireHistory = true → view.document = some journal) ∧
      SameDirectory s s' ∧ s'.Sound store.sha store.goalId entries := by
  obtain ⟨hgoal, hidentity, hverified, -⟩ := id hholds
  have hdecode : decodeBytes raw store.goalId identity
      (fileAuthorityRevision store.sha store.goalId identity) = .ok journal := by
    have hread := FileAuthorityJournal.decodeBytes_bytes hverified
    rwa [hgoal, hidentity, ← hbytes] at hread
  rw [verifyDocument]
  split
  · rename_i view hcached
    obtain ⟨hview, hmatch⟩ := Option.filter_eq_some_iff.mp hcached
    simp only [Bool.decide_and, Bool.and_eq_true, decide_eq_true_eq, Bool.decide_or,
      Bool.or_eq_true] at hmatch
    obtain ⟨hsameIdentity, hdigest, hhistory⟩ := hmatch
    obtain ⟨raw', hraw', hdigest', journal', hdecode', hviewOf⟩ :=
      (h.caches store.process view hview).source
    -- equal digests of written documents are equal documents
    obtain rfl := collisionFree raw' hraw' raw hraw (hdigest'.symm.trans hdigest)
    rw [hsameIdentity, hdecode, Except.ok.injEq] at hdecode'
    subst hdecode'
    refine ⟨s, view, rfl, hviewOf, ?_, SameDirectory.refl s, h⟩
    intro hrequired
    rcases hhistory with hno | hsome
    · simp [hrequired] at hno
    · rcases hviewOf.document with hdocument | hdocument
      · exact hdocument
      · simp [hdocument] at hsome
  · rw [show store.revisionFor identity =
      fileAuthorityRevision store.sha store.goalId identity from rfl, hdecode]
    refine ⟨_, _, rfl, viewOf_verifiedView _ _ _, fun _ => rfl, ⟨rfl, rfl, rfl⟩, ?_⟩
    exact sound_setCache h (cacheSound_retained hraw hdecode)

private theorem sound_identity (h : s.Sound store.sha store.goalId entries)
    (absent : s.identity = none) (fresh : FileIdentity) :
    FileState.Sound store.sha store.goalId { s with identity := some fresh.text } entries where
  pattern := by
    intro identity hidentity
    obtain rfl := Option.some.inj hidentity
    exact fresh.pattern
  missing := h.missing
  present := by
    intro raw hraw
    obtain ⟨identity, journal, hidentity, -⟩ := h.present raw hraw
    simp [absent] at hidentity
  caches := h.caches

/-- The identity file is created once and otherwise only read. -/
theorem readStoreIdentity_sound (h : s.Sound store.sha store.goalId entries)
    {env : FileEnvironment} {createIfMissing : Bool} {s' : FileState}
    {result : Except ReadError String}
    (hread : store.readStoreIdentity env createIfMissing s = (s', result)) :
    s'.Sound store.sha store.goalId entries ∧ Keeps s s' ∧
      ∀ identity, result = .ok identity → s'.identity = some identity := by
  have unchanged : ∀ {error : ReadError}, (s, .error error) = (s', result) →
      s'.Sound store.sha store.goalId entries ∧ Keeps s s' ∧
        ∀ identity, result = .ok identity → s'.identity = some identity := by
    intro error heq
    obtain ⟨rfl, rfl⟩ := Prod.mk.inj heq
    exact ⟨h, Keeps.refl s, by simp⟩
  simp only [readStoreIdentity] at hread
  split at hread
  · exact unchanged hread
  split at hread
  · rename_i identity hidentity
    split at hread
    · exact unchanged hread
    · obtain ⟨rfl, rfl⟩ := Prod.mk.inj hread
      refine ⟨h, Keeps.refl s, ?_⟩
      intro identity' hsame
      rw [hidentity, Except.ok.inj hsame]
  · rename_i absent
    split at hread
    · exact unchanged hread
    · split at hread
      · obtain ⟨rfl, rfl⟩ := Prod.mk.inj hread
        refine ⟨sound_identity h absent env.freshIdentity, ⟨by simp [absent], rfl, rfl⟩, ?_⟩
        intro identity hsame
        rw [Except.ok.inj hsame]
      · exact unchanged hread
      · obtain ⟨rfl, rfl⟩ := Prod.mk.inj hread
        exact ⟨sound_identity h absent env.freshIdentity, ⟨by simp [absent], rfl, rfl⟩, by simp⟩

/-- A view of the current journal, with its history where that was asked for. -/
def Shows (requireHistory : Bool) :
    Option VerifiedDocument → Option FileAuthorityJournal → Prop
  | none, none => True
  | some view, some journal => ViewOf view journal ∧
      (requireHistory = true → view.document = some journal)
  | _, _ => False

/-- Under a known identity a readable document is the history, and an absent one is none. -/
theorem readVerified_known (h : s.Sound store.sha store.goalId entries)
    (collisionFree : NoCollision store.sha s.written) {env : FileEnvironment}
    (readable : env.documentUnreadable = false) {identity : String}
    (hidentity : s.identity = some identity) (requireHistory : Bool) :
    ∃ s' view current, store.readVerified env s (some identity) requireHistory = (s', .ok view) ∧
      Holds (fileAuthorityRevision store.sha store.goalId identity) store.goalId identity current
        entries ∧
      Shows requireHistory view current ∧
      SameDirectory s s' ∧ s'.Sound store.sha store.goalId entries := by
  rw [readVerified, readable]
  cases hdocument : s.document with
  | none =>
    exact ⟨s, none, none, rfl, h.missing hdocument, trivial, SameDirectory.refl s, h⟩
  | some raw =>
    obtain ⟨identity', journal, hidentity', hbytes, hwritten, hholds⟩ := h.present raw hdocument
    obtain rfl : identity = identity' := Option.some.inj (hidentity.symm.trans hidentity')
    obtain ⟨s', view, hverify, hview, hhistory, hsame, hsound⟩ :=
      verifyDocument_sound h collisionFree hwritten hbytes hholds requireHistory
    refine ⟨s', some view, some journal, ?_, hholds, ⟨hview, hhistory⟩, hsame, hsound⟩
    simp only [Bool.false_eq_true, if_false, documentIdentity, hverify]

theorem readDocument_known (h : s.Sound store.sha store.goalId entries)
    (collisionFree : NoCollision store.sha s.written) {env : FileEnvironment}
    (readable : env.documentUnreadable = false) {identity : String}
    (hidentity : s.identity = some identity) :
    ∃ s' current, store.readDocument env s (some identity) = (s', .ok current) ∧
      Holds (fileAuthorityRevision store.sha store.goalId identity) store.goalId identity current
        entries ∧ SameDirectory s s' ∧ s'.Sound store.sha store.goalId entries := by
  obtain ⟨s', view, current, hread, hholds, hview, hsame, hsound⟩ :=
    readVerified_known h collisionFree readable hidentity true
  refine ⟨s', current, ?_, hholds, hsame, hsound⟩
  rw [readDocument, hread]
  cases view with
  | none =>
    cases current with
    | none => rfl
    | some journal => exact absurd hview id
  | some view =>
    cases current with
    | none => exact absurd hview id
    | some journal => simp only [Option.bind_some, hview.2 rfl]

/-- Without a known identity the store's own is read first. -/
theorem readVerified_unknown (h : s.Sound store.sha store.goalId entries)
    (collisionFree : NoCollision store.sha s.written) {env : FileEnvironment}
    {requireHistory : Bool} {s' : FileState} {result : Except ReadError (Option VerifiedDocument)}
    (hread : store.readVerified env s none requireHistory = (s', result)) :
    s'.Sound store.sha store.goalId entries ∧ Keeps s s' ∧
      ∀ view, result = .ok view → ∃ identity current,
        Holds (fileAuthorityRevision store.sha store.goalId identity) store.goalId identity current
          entries ∧ Shows requireHistory view current := by
  simp only [readVerified, documentIdentity] at hread
  split at hread
  · obtain ⟨rfl, rfl⟩ := Prod.mk.inj hread
    exact ⟨h, Keeps.refl s, by simp⟩
  split at hread
  · rename_i absent
    obtain ⟨rfl, rfl⟩ := Prod.mk.inj hread
    refine ⟨h, Keeps.refl s, ?_⟩
    intro view hview
    obtain rfl := Except.ok.inj hview
    exact ⟨"", none, h.missing absent, trivial⟩
  · rename_i raw hraw
    split at hread
    · rename_i s₁ error hidentity
      obtain ⟨rfl, rfl⟩ := Prod.mk.inj hread
      obtain ⟨hsound, hkeeps, -⟩ := readStoreIdentity_sound h hidentity
      exact ⟨hsound, hkeeps, by simp⟩
    · rename_i s₁ identity hidentity
      obtain ⟨hsound, hkeeps, hknown⟩ := readStoreIdentity_sound h hidentity
      obtain ⟨identity', journal, hpresent, hbytes, hwritten, hholds⟩ :=
        hsound.present raw (hkeeps.document.trans hraw)
      obtain rfl : identity = identity' :=
        Option.some.inj ((hknown identity rfl).symm.trans hpresent)
      obtain ⟨s₂, view, hverify, hview, hhistory, hsame, hsound'⟩ := verifyDocument_sound hsound
        (collisionFree.mono (written_subset hkeeps.written.symm)) hwritten hbytes
        hholds requireHistory
      rw [hverify] at hread
      obtain ⟨rfl, rfl⟩ := Prod.mk.inj hread
      refine ⟨hsound', hkeeps.trans hsame.keeps, ?_⟩
      intro view' hview'
      obtain rfl := Except.ok.inj hview'
      exact ⟨identity, some journal, hholds, hview, hhistory⟩

/-- Canonical bodies have equal bytes exactly when they are equal. -/
private theorem commitBody_bytes_eq {events events' receipts receipts' : List Json}
    {projection projection' : Json}
    (hevents : ∀ v ∈ events, CanonicalObject v) (hevents' : ∀ v ∈ events', CanonicalObject v)
    (hreceipts : ∀ v ∈ receipts, CanonicalObject v)
    (hreceipts' : ∀ v ∈ receipts', CanonicalObject v)
    (hprojection : CanonicalObject projection) (hprojection' : CanonicalObject projection') :
    canonicalAuthorityBytes (commitBody events receipts projection) =
        canonicalAuthorityBytes (commitBody events' receipts' projection') ↔
      (⟨events', receipts', projection'⟩ : CommitBody) = ⟨events, receipts, projection⟩ := by
  rw [Json.canonicalAuthorityBytes_eq_iff]
  constructor
  · intro h
    have bodyKeys : ∀ a b c : Json,
        (keys [("events", a), ("receipts", b), ("projection", c)]).Nodup := by
      intro a b c
      simp [keys]
    have fields := Json.lookup_of_canonical_eq (bodyKeys _ _ _) (bodyKeys _ _ _) h
    have h1 := fields "events"
    have h2 := fields "receipts"
    have h3 := fields "projection"
    simp only [List.lookup_cons, String.reduceBEq, beq_self_eq_true, Option.map_some,
      Option.some.injEq] at h1 h2 h3
    rw [hprojection.2, hprojection'.2] at h3
    rw [eq_of_canonical_items hevents hevents' h1, eq_of_canonical_items hreceipts hreceipts' h2,
      h3]
  · intro h
    obtain ⟨rfl, rfl, rfl⟩ := CommitBody.mk.inj h
    rfl

section Commit

variable {identity : String} {current : Option FileAuthorityJournal} {c : NormalizedCommit}

/-- The logical journal behind the stored entries. -/
def journalOf (entries : List JournalEntry) : Journal := entries.map JournalEntry.transaction

theorem headRevision_journalOf (entries : List JournalEntry) :
    (journalOf entries).headRevision = revisionAfter none entries := by
  rw [Journal.headRevision, CasLog.head, journalOf, List.getLast?_map, revisionAfter]
  cases entries.getLast? <;> rfl

theorem header_of_holds {revisionFor : JournalRevision} {goal : String}
    (h : Holds revisionFor goal identity current entries) :
    current.map (·.providerRevision) = (journalOf entries).headRevision ∧
      current.map (·.cursor) = (journalOf entries).headCursor := by
  cases current with
  | none =>
    obtain rfl : entries = [] := h
    exact ⟨rfl, rfl⟩
  | some journal =>
    obtain ⟨-, -, hverified, -⟩ := h
    rw [headRevision_journalOf, hverified.revisionAfter_eq]
    obtain ⟨init, last, rfl, -, hcursor, -, -⟩ := hverified.exists_last
    refine ⟨rfl, ?_⟩
    simp [Journal.headCursor, journalOf, hcursor]

theorem fresh_of_receipt_none {revisionFor : JournalRevision} {goal : String}
    (hholds : Holds revisionFor goal identity current entries) {operation : String}
    (hnone : current.bind (fun journal => journal.receipt operation) = none) :
    ∀ entry ∈ entries, entry.operationId ≠ operation := by
  cases current with
  | none =>
    obtain rfl : entries = [] := hholds
    simp
  | some journal => exact (receipt_eq_none hholds.2.2.1).mp hnone

theorem distinct_of_holds {revisionFor : JournalRevision} {goal : String}
    (hholds : Holds revisionFor goal identity current entries) :
    (entries.map (fun entry => entry.operationId)).Nodup := by
  cases current with
  | none =>
    obtain rfl : entries = [] := hholds
    simp
  | some journal => exact hholds.2.2.1.distinct

/-- A used operation id is answered from the entry that used it. -/
theorem replayExisting_submit {revisionFor : JournalRevision} {journal : FileAuthorityJournal}
    (hverified : journal.Verified revisionFor entries) {existing : TransactionMetadata}
    (hexisting : journal.receipt c.commit.operationId = some existing) :
    ∃ answer, Submit journalShape (journalOf entries) (commitRequest c.commit) (journalOf entries)
        answer ∧
      Reports (journalOf entries) answer (replayExisting journal existing c.commit) ∧
      answer ≠ .refused ∧ answer ≠ .unknown := by
  obtain ⟨entry, hmem, hid, rfl⟩ := (receipt_eq_some hverified).mp hexisting
  obtain ⟨position, hparse, hscan⟩ := scan_entry hverified hmem
  have lawful := hverified.lineage.lawful entry hmem
  have htransaction : entry.transaction ∈ journalOf entries := List.mem_map_of_mem hmem
  have hheader : some journal.providerRevision = (journalOf entries).headRevision ∧
      some journal.cursor = (journalOf entries).headCursor := by
    rw [headRevision_journalOf, hverified.revisionAfter_eq]
    obtain ⟨init, last, rfl, -, hcursor, -, -⟩ := hverified.exists_last
    exact ⟨rfl, by simp [Journal.headCursor, journalOf, hcursor]⟩
  rw [replayExisting, hparse, ok_bind, Nat.add_sub_cancel, hscan]
  simp only [commitBody_bytes_eq c.normal.events lawful.events c.normal.receipts lawful.receipts
    c.normal.nextProjection lawful.projection]
  split
  · rename_i hbody
    exact ⟨.applied entry.transaction, .replayed entry.transaction htransaction ⟨hid, hbody⟩,
      .applied entry.transaction, by simp, by simp⟩
  · rename_i hbody
    refine ⟨.idTaken, .idTaken entry.transaction htransaction hid hbody, ?_, by simp, by simp⟩
    rw [hheader.1, hheader.2]
    exact .idTaken

theorem sound_written (h : s.Sound store.sha store.goalId entries)
    (bytes : ByteArray) :
    FileState.Sound store.sha store.goalId { s with written := bytes :: s.written } entries where
  pattern := h.pattern
  missing := h.missing
  present := by
    intro raw hraw
    obtain ⟨identity, journal, hidentity, hbytes, hwritten, hholds⟩ := h.present raw hraw
    exact ⟨identity, journal, hidentity, hbytes, List.mem_cons_of_mem _ hwritten, hholds⟩
  caches := fun process view hview => (h.caches process view hview).mono (List.subset_cons_self _ _)

theorem sound_document (h : s.Sound store.sha store.goalId entries)
    (hidentity : s.identity = some identity) {document : FileAuthorityJournal}
    {entries' : List JournalEntry} (hwritten : document.bytes ∈ s.written)
    (hholds : Holds (fileAuthorityRevision store.sha store.goalId identity) store.goalId identity
      (some document) entries') :
    FileState.Sound store.sha store.goalId { s with document := some document.bytes }
      entries' where
  pattern := h.pattern
  missing := by simp
  present := by
    intro raw hraw
    obtain rfl := Option.some.inj hraw
    exact ⟨identity, document, hidentity, rfl, hwritten, hholds⟩
  caches := h.caches

/-- Publication moves the directory to the new history, or leaves it, and says which it knows. -/
theorem publishDocument_sound (h : s.Sound store.sha store.goalId entries)
    (hidentity : s.identity = some identity) (env : FileEnvironment)
    {document : FileAuthorityJournal} {entries' : List JournalEntry}
    (hholds : Holds (fileAuthorityRevision store.sha store.goalId identity) store.goalId identity
      (some document) entries') :
    ∃ s' result, store.publishDocument env s identity document = (s', result) ∧
      s'.identity = s.identity ∧ s'.written = document.bytes :: s.written ∧
      ((env.replaceDocument = .done ∧ s'.Sound store.sha store.goalId entries' ∧
          result = .applied document.providerRevision document.cursor) ∨
        (env.replaceDocument = .taken ∧ s'.Sound store.sha store.goalId entries' ∧
          result = .ambiguous "commit_outcome_unknown" "commit outcome unknown") ∨
        (env.replaceDocument = .lost ∧ s'.Sound store.sha store.goalId entries ∧
          result = .ambiguous "commit_outcome_unknown" "commit outcome unknown")) := by
  have hwritten : document.bytes ∈ document.bytes :: s.written := by simp
  have recorded := sound_written h document.bytes
  have moved := sound_document recorded hidentity hwritten hholds
  obtain ⟨hgoal, hstore, hverified, -⟩ := id hholds
  have hdecode := FileAuthorityJournal.decodeBytes_bytes hverified
  rw [hgoal, hstore] at hdecode
  rw [publishDocument]
  cases hreplace : env.replaceDocument with
  | done =>
    refine ⟨_, _, rfl, rfl, rfl, Or.inl ⟨rfl, ?_, rfl⟩⟩
    exact sound_setCache moved (cacheSound_retained hwritten hdecode)
  | lost =>
    exact ⟨_, _, rfl, rfl, rfl, Or.inr (Or.inr ⟨rfl, sound_forget recorded, rfl⟩)⟩
  | taken =>
    exact ⟨_, _, rfl, rfl, rfl, Or.inr (Or.inl ⟨rfl, sound_forget moved, rfl⟩)⟩

/-- Once the current journal is read, a commit is one submission to it. -/
theorem decideCommit_submit (h : s.Sound store.sha store.goalId entries)
    (hidentity : s.identity = some identity)
    (hholds : Holds (fileAuthorityRevision store.sha store.goalId identity) store.goalId identity
      current entries) (env : FileEnvironment) (c : NormalizedCommit) :
    ∃ s' result entries' answer,
      store.decideCommit env s identity current c.commit = (s', result) ∧
      s'.Sound store.sha store.goalId entries' ∧ s'.identity = s.identity ∧
      s.written ⊆ s'.written ∧
      Submit journalShape (journalOf entries) (commitRequest c.commit) (journalOf entries')
        answer ∧
      Reports (journalOf entries) answer result ∧ answer ≠ .refused ∧
      (env.replaceDocument = .done → answer ≠ .unknown) := by
  rw [decideCommit]
  cases hfound : current.bind (fun journal => (journal.receipt c.commit.operationId).map
      (fun existing => (journal, existing))) with
  | some found =>
    obtain ⟨journal, rfl, hmap⟩ := Option.bind_eq_some_iff.mp hfound
    obtain ⟨existing, hexisting, rfl⟩ := Option.map_eq_some_iff.mp hmap
    obtain ⟨answer, hsubmit, hreports, hserved, hknown⟩ :=
      replayExisting_submit (c := c) hholds.2.2.1 hexisting
    exact ⟨s, _, entries, answer, rfl, h, rfl, List.Subset.refl _, hsubmit, hreports, hserved,
      fun _ => hknown⟩
  | none =>
    obtain ⟨hrevision, hcursor⟩ := header_of_holds hholds
    have fresh : ∀ entry ∈ entries, entry.operationId ≠ c.commit.operationId := by
      refine fresh_of_receipt_none hholds ?_
      cases current with
      | none => rfl
      | some journal => simpa using hfound
    have freshJournal : ∀ transaction ∈ journalOf entries,
        journalShape.id transaction ≠ (commitRequest c.commit).id := by
      intro transaction htransaction
      obtain ⟨entry, hentry, rfl⟩ := List.mem_map.mp htransaction
      exact fresh entry hentry
    simp only
    split
    · rename_i moved
      have moved' : CasLog.head journalShape (journalOf entries) ≠
          (commitRequest c.commit).expected := fun same => moved (hrevision.trans same)
      refine ⟨s, _, entries, .stale, rfl, h, rfl, List.Subset.refl _, .stale freshJournal moved',
        ?_, by simp, by simp⟩
      rw [hrevision, hcursor]
      exact .stale
    · rename_i expected
      have expected' := (not_ne_iff.mp expected).symm.trans hrevision
      have ids := storeIds_fileAuthorityRevision store.sha store.goalId identity
      obtain ⟨document, happend, hdocument⟩ := appendCommits_holds ids hholds [c] (by simp) (by
        rw [List.nodup_append]
        refine ⟨distinct_of_holds hholds, by simp, ?_⟩
        intro a ha b hb
        obtain ⟨entry, hentry, rfl⟩ := List.mem_map.mp ha
        obtain rfl : b = c.commit.operationId := by simpa using hb
        exact fresh entry hentry)
      let entry := committedEntry (fileAuthorityRevision store.sha store.goalId identity)
        entries.length (headAfter none entries) (revisionAfter none entries) c.commit
      have hnew : entries ++ committedEntries
          (fileAuthorityRevision store.sha store.goalId identity) entries.length
            (headAfter none entries) (revisionAfter none entries)
              ([c].map NormalizedCommit.commit) = entries ++ [entry] := rfl
      rw [hnew] at hdocument
      obtain ⟨s', result, hpublish, hsameIdentity, hwritten, houtcome⟩ :=
        publishDocument_sound h hidentity env hdocument
      have hheader : document.providerRevision = entry.providerRevision ∧
          document.cursor = entry.cursor := by
        obtain ⟨h1, h2⟩ := header_of_holds hdocument
        simp only [Journal.headRevision, CasLog.head, Journal.headCursor, journalOf,
          List.map_append, List.map_cons, List.map_nil, List.getLast?_append_cons,
          List.getLast?_singleton, Option.map_some, Option.some.injEq] at h1 h2
        exact ⟨h1, h2⟩
      have admissible : CasLog.Admissible journalShape (journalOf entries)
          (commitRequest c.commit) := ⟨freshJournal, expected'.symm⟩
      have answers : CasLog.Answers journalShape (commitRequest c.commit) entry.transaction :=
        ⟨rfl, rfl⟩
      have hjournal : journalOf (entries ++ [entry]) = journalOf entries ++ [entry.transaction] := by
        simp [journalOf]
      have hrun : FileAuthorityJournal.append current store.goalId identity c.commit
          (store.revisionFor identity) = .ok document := happend
      simp only [hrun]
      have hsubset : s.written ⊆ s'.written := by
        rw [hwritten]
        exact List.subset_cons_self _ _
      rcases houtcome with ⟨-, hsound, rfl⟩ | ⟨htaken, hsound, rfl⟩ | ⟨hlost, hsound, rfl⟩
      · refine ⟨s', _, _, .applied entry.transaction, hpublish, hsound, hsameIdentity, hsubset, ?_,
          ?_, by simp, by simp⟩
        · rw [hjournal]
          exact .appended entry.transaction admissible answers
        · rw [hheader.1, hheader.2]
          exact .applied entry.transaction
      · refine ⟨s', _, _, .unknown, hpublish, hsound, hsameIdentity, hsubset, ?_, .unknown _ _,
          by simp, by simp [htaken]⟩
        rw [hjournal]
        exact .landed entry.transaction admissible answers
      · exact ⟨s', _, entries, .unknown, hpublish, hsound, hsameIdentity, hsubset,
          .lost admissible, .unknown _ _, by simp, by simp [hlost]⟩

/-- What a commit needs from its surroundings to be answered from the journal. -/
structure Served (store : FileStore) (env : FileEnvironment) (s : FileState) : Prop where
  lock : env.lockTimeout = false
  identity : env.identityUnreadable = false
  document : env.documentUnreadable = false
  lineage : ∀ expected ∈ store.expectedIdentity, s.identity = some expected
  created : s.identity = none → env.replaceIdentity = .done
  existing : store.existingOnly = true → s.document.isSome = true

theorem readStoreIdentity_served (h : s.Sound store.sha store.goalId entries)
    {env : FileEnvironment} (served : Served store env s) :
    ∃ s' identity, store.readStoreIdentity env (!store.existingOnly) s = (s', .ok identity) := by
  simp only [readStoreIdentity, served.identity, Bool.false_eq_true, if_false]
  cases hidentity : s.identity with
  | some identity =>
    have hlineage : store.expectedIdentity.any (fun e => !decide (e = identity)) = false := by
      cases hexpected : store.expectedIdentity with
      | none => rfl
      | some expected =>
        obtain rfl := Option.some.inj ((served.lineage expected hexpected).symm.trans hidentity)
        simp
    exact ⟨s, identity, by simp [h.pattern identity hidentity, hlineage]⟩
  | none =>
    have hbootstrap : store.existingOnly = false := by
      rw [← Bool.not_eq_true]
      intro hexisting
      obtain ⟨raw, hraw⟩ := Option.isSome_iff_exists.mp (served.existing hexisting)
      obtain ⟨identity, journal, hpresent, -⟩ := h.present raw hraw
      simp [hidentity] at hpresent
    have hlineage : store.expectedIdentity = none := by
      rw [Option.eq_none_iff_forall_not_mem]
      intro expected hexpected
      exact absurd (served.lineage expected hexpected) (by simp [hidentity])
    exact ⟨_, env.freshIdentity.text, by
      simp only [hbootstrap, hlineage, served.created hidentity]
      rfl⟩

/-- One commit call is one submission of its normalized request to the history. -/
theorem commitAuthority_submit (h : s.Sound store.sha store.goalId entries)
    (collisionFree : NoCollision store.sha s.written) (env : FileEnvironment)
    {commit : AuthorityStoreCommit} (fits : commit.nextProjection.Fits) :
    ∃ s' result entries' answer,
      store.commitAuthority env s commit = (s', result) ∧
      s'.Sound store.sha store.goalId entries' ∧
      (∀ identity ∈ s.identity, s'.identity = some identity) ∧ s.written ⊆ s'.written ∧
      Reports (journalOf entries) answer result ∧
      (match normalizeAuthorityStoreCommit commit with
        | .error _ => entries' = entries ∧ answer = .refused
        | .ok normalized =>
          Submit journalShape (journalOf entries) (commitRequest normalized) (journalOf entries')
            answer ∧ (Served store env s → answer ≠ .refused) ∧
            (env.replaceDocument = .done → answer ≠ .unknown)) := by
  rw [commitAuthority]
  cases hnormalize : normalizeAuthorityStoreCommit commit with
  | error reason =>
    exact ⟨s, _, entries, .refused, rfl, h, fun _ hi => hi, List.Subset.refl _, .refused _ _, rfl,
      rfl⟩
  | ok normalized =>
    let c : NormalizedCommit :=
      ⟨normalized, (normal_of_normalize hnormalize).1, fits_of_normalize hnormalize fits⟩
    simp only
    split
    · rename_i timeout
      exact ⟨s, _, entries, .refused, rfl, h, fun _ hi => hi, List.Subset.refl _, .refused _ _,
        .refused, fun served => by simp [served.lock] at timeout, by simp⟩
    split
    · rename_i s₁ error hidentity
      obtain ⟨hsound, hkeeps, -⟩ := readStoreIdentity_sound h hidentity
      refine ⟨s₁, _, entries, .refused, rfl, hsound, hkeeps.identity,
        written_subset hkeeps.written, ?_, .refused, ?_, by simp⟩
      · cases error <;> exact .refused _ _
      · intro served
        obtain ⟨s₂, identity, hok⟩ := readStoreIdentity_served h served
        simp [hok] at hidentity
    · rename_i s₁ identity hidentity
      obtain ⟨hsound, hkeeps, hknown⟩ := readStoreIdentity_sound h hidentity
      have hsub := written_subset hkeeps.written
      cases hreadable : env.documentUnreadable with
      | true =>
        simp only [readDocument, readVerified, hreadable, if_true]
        exact ⟨s₁, _, entries, .refused, rfl, hsound, hkeeps.identity, hsub, .refused _ _,
          .refused, fun served => by simp [served.document] at hreadable, by simp⟩
      | false =>
        obtain ⟨s₂, current, hread, hholds, hsame, hsound'⟩ := readDocument_known hsound
          (collisionFree.mono (written_subset hkeeps.written.symm)) hreadable
          (hknown identity rfl)
        have hidentities : ∀ i ∈ s.identity, s₂.identity = some i :=
          fun i hi => hsame.identity.trans (hkeeps.identity i hi)
        have hsub' : s.written ⊆ s₂.written := by
          rw [hsame.written]
          exact hsub
        simp only [hread]
        split
        · rename_i missing
          refine ⟨s₂, _, entries, .refused, rfl, hsound', hidentities, hsub', .refused _ _,
            .refused, ?_, by simp⟩
          intro served
          obtain ⟨raw, hraw⟩ := Option.isSome_iff_exists.mp (served.existing missing.1)
          obtain ⟨_, journal, -, -, -, hpresent⟩ := h.present raw hraw
          obtain ⟨init, last, hlast, -⟩ := hpresent.2.2.1.exists_last
          obtain rfl : current = none := Option.isNone_iff_eq_none.mp missing.2
          have hempty : entries = [] := hholds
          simp [hempty] at hlast
        · obtain ⟨s₃, result, entries', answer, hdecide, hsound'', hidentity', hwritten, hsubmit,
            hreports, hserved, hknown'⟩ := decideCommit_submit hsound'
              (hsame.identity.trans (hknown identity rfl)) hholds env c
          exact ⟨s₃, result, entries', answer, hdecide, hsound'',
            fun i hi => hidentity'.trans (hidentities i hi), fun _ hm => hwritten (hsub' hm),
            hreports, hsubmit, fun _ => hserved, hknown'⟩

end Commit

end FileStore

end Loopx.Authority
