/- GID: Loopx/Authority/FileJournalRoundTrip
   generality: I
   source: loopx/control_plane/coordination/file_authority_journal.ts
   digest: Appending pages of commits, and that the document gives every commit back. -/

import Loopx.Authority.FileJournalLineage

set_option autoImplicit false
set_option relaxedAutoImplicit false

namespace Loopx.Authority

open Loopx.Lib.KeyedList
open Loopx.Lib.Fallible (ok_bind bind_eq_ok)
open Loopx.Json (Protocol canonicalAuthorityJson canonicalAuthorityBytes Canonical)

/-- A commit that passed normalization, with a projection the runtime can hold. -/
structure NormalizedCommit where
  commit : AuthorityStoreCommit
  normal : commit.Normal
  fits : commit.nextProjection.Fits

def NormalizedCommit.projection (c : NormalizedCommit) : Projection :=
  ⟨c.commit.nextProjection, c.normal.nextProjection.1, c.normal.nextProjection.2, c.fits⟩

/-- The logical transaction a commit becomes at position `index`. -/
def committedTransaction (revisionFor : JournalRevision) (index : Nat)
    (previousRevision : Option String) (commit : AuthorityStoreCommit) :
    AuthorityStoreCommittedTransaction :=
  let input : RevisionInput := ⟨(index + 1).repr, commit.operationId, commit.events,
    commit.nextProjection, commit.receipts⟩
  ⟨⟨input.cursor, revisionFor previousRevision input, input.operationId, input.events,
    input.receipts⟩, input.projection⟩

/-- Cursors counted up from `index`, revisions chained from `previousRevision`. -/
def committedTransactions (revisionFor : JournalRevision) :
    Nat → Option String → List AuthorityStoreCommit → List AuthorityStoreCommittedTransaction
  | _, _, [] => []
  | index, previousRevision, commit :: rest =>
    let transaction := committedTransaction revisionFor index previousRevision commit
    transaction :: committedTransactions revisionFor (index + 1)
      (some transaction.providerRevision) rest

/-- Append one page after the other, from an absent journal on. -/
def appendPages (goal identity : String) (revisionFor : JournalRevision) :
    Option FileAuthorityJournal → List (List AuthorityStoreCommit) →
      Protocol (Option FileAuthorityJournal)
  | current, [] => .ok current
  | current, page :: pages => do
    let journal ← FileAuthorityJournal.appendCommits current goal identity page revisionFor
    appendPages goal identity revisionFor (some journal) pages

/-- The state a row stores for `projection` after `previous`. -/
def encodedState (index : Nat) (previous : Option Json) (projection : Json) : StoredState :=
  if index % AUTHORITY_STATE_CHECKPOINT_INTERVAL = 0 then .checkpoint projection
  else .delta (authorityStateDelta (previous.getD .null) projection)

def committedEntry (revisionFor : JournalRevision) (index : Nat) (previous : Option Json)
    (previousRevision : Option String) (commit : AuthorityStoreCommit) : JournalEntry :=
  ⟨committedTransaction revisionFor index previousRevision commit,
    encodedState index previous commit.nextProjection⟩

def committedEntries (revisionFor : JournalRevision) :
    Nat → Option Json → Option String → List AuthorityStoreCommit → List JournalEntry
  | _, _, _, [] => []
  | index, previous, previousRevision, commit :: rest =>
    let entry := committedEntry revisionFor index previous previousRevision commit
    entry :: committedEntries revisionFor (index + 1) (some entry.projection)
      (some entry.providerRevision) rest

/-- Every token the revision algorithm gives out is a store id. -/
def StoreIds (revisionFor : JournalRevision) : Prop :=
  ∀ previous input, IsStoreId (revisionFor previous input)

private theorem isJsSpace_of_isHexDigit {c : Char} (h : isHexDigit c = true) :
    isJsSpace c = false := by
  simp only [isHexDigit, Bool.or_eq_true, Bool.and_eq_true, decide_eq_true_eq] at h
  simp only [isJsSpace, Bool.or_eq_false_iff, Bool.and_eq_false_iff, decide_eq_false_iff_not]
  omega

theorem storeIds_fileAuthorityRevision (sha : Sha256) (goal identity : String) :
    StoreIds (fileAuthorityRevision sha goal identity) := by
  intro previous input
  let proof := revisionProof goal identity previous input
  have hbare := sha.bare (canonicalAuthorityBytes proof)
  simp only [isBareSha256, Bool.and_eq_true, decide_eq_true_eq, List.all_eq_true] at hbare
  obtain ⟨hlength, hhex⟩ := hbare
  let digits := (canonicalAuthoritySha256 sha proof).toList.take 24
  have hdigits : digits ≠ [] := by
    have hcount : digits.length = 24 := by
      rw [List.length_take]
      exact Nat.min_eq_left (by rw [canonicalAuthoritySha256, hlength]; decide)
    intro hnil
    simp [hnil] at hcount
  have text : (fileAuthorityRevision sha goal identity previous input).toList =
      'f' :: ("ile:".toList ++ input.cursor.toList ++ ":".toList ++ digits) := by
    simp [fileAuthorityRevision, shortDigest, digits, proof]
  refine isStoreId_of_ends (a := 'f') (b := digits.getLast hdigits) (by rw [text]; rfl) ?_
    (by decide) ?_
  · rw [text, ← List.cons_append, ← List.cons_append, ← List.cons_append,
      List.getLast?_append_of_ne_nil _ hdigits, List.getLast?_eq_some_getLast hdigits]
  · exact isJsSpace_of_isHexDigit (hhex _ (List.mem_of_mem_take (List.getLast_mem hdigits)))

section Append

variable {revisionFor : JournalRevision}

theorem transactions_committedEntries (index : Nat) (previous : Option Json)
    (previousRevision : Option String) (commits : List AuthorityStoreCommit) :
    (committedEntries revisionFor index previous previousRevision commits).map
        JournalEntry.transaction =
      committedTransactions revisionFor index previousRevision commits := by
  induction commits generalizing index previous previousRevision with
  | nil => rfl
  | cons commit commits ih =>
    rw [committedEntries, committedTransactions, List.map_cons, ih]
    rfl

variable (revisionFor) in
theorem length_committedEntries (index : Nat) (previous : Option Json)
    (previousRevision : Option String) (commits : List AuthorityStoreCommit) :
    (committedEntries revisionFor index previous previousRevision commits).length =
      commits.length := by
  induction commits generalizing index previous previousRevision with
  | nil => rfl
  | cons commit commits ih => rw [committedEntries, List.length_cons, ih, List.length_cons]

theorem operationIds_committedEntries (index : Nat) (previous : Option Json)
    (previousRevision : Option String) (commits : List AuthorityStoreCommit) :
    (committedEntries revisionFor index previous previousRevision commits).map
        (fun entry => entry.operationId) = commits.map (·.operationId) := by
  induction commits generalizing index previous previousRevision with
  | nil => rfl
  | cons commit commits ih =>
    rw [committedEntries, List.map_cons, ih]
    rfl

theorem committedEntries_append (index : Nat) (previous : Option Json)
    (previousRevision : Option String) (first second : List AuthorityStoreCommit) :
    committedEntries revisionFor index previous previousRevision (first ++ second) =
      committedEntries revisionFor index previous previousRevision first ++
        committedEntries revisionFor (index + first.length)
          (headAfter previous
            (committedEntries revisionFor index previous previousRevision first))
          (revisionAfter previousRevision
            (committedEntries revisionFor index previous previousRevision first)) second := by
  induction first generalizing index previous previousRevision with
  | nil => simp [committedEntries, headAfter, revisionAfter]
  | cons commit first ih =>
    simp only [List.cons_append, committedEntries, ih, headAfter_cons, revisionAfter_cons,
      List.length_cons]
    rw [Nat.add_right_comm, Nat.add_assoc]

variable (revisionFor) in
/-- What `retain` writes: a checkpoint at every 64th position, else the delta from `previous`. -/
private theorem retain_committedEntry (index : Nat) (previous : Option Projection)
    (previousRevision : Option String) (c : NormalizedCommit)
    (based : index % AUTHORITY_STATE_CHECKPOINT_INTERVAL ≠ 0 → previous.isSome) :
    retain (committedTransaction revisionFor index previousRevision c.commit)
        (previous.map Projection.value) =
      .ok (committedEntry revisionFor index (previous.map Projection.value) previousRevision
        c.commit).row := by
  have hparse : parseAuthorityCursor
      (some (committedTransaction revisionFor index previousRevision c.commit).cursor) =
        .ok (index + 1) := parseAuthorityCursor_repr index
  simp only [retain, hparse, ok_bind, isAuthorityStateCheckpoint_succ]
  by_cases hindex : index % AUTHORITY_STATE_CHECKPOINT_INTERVAL = 0
  · simp only [hindex, decide_true, if_true, committedEntry, encodedState, JournalEntry.row]
    rfl
  · obtain ⟨before, rfl⟩ := Option.isSome_iff_exists.mp (based hindex)
    have hrebuilds := authorityStateDeltaReconstructs_authorityStateDelta before c.projection
    simp only [hindex, decide_false, Bool.false_eq_true, if_false, Option.map_some]
    rw [if_pos]
    · simp only [committedEntry, encodedState, hindex, if_false, JournalEntry.row,
        Option.getD_some]
      rfl
    · exact hrebuilds

private theorem follows_committedEntry (ids : StoreIds revisionFor) (index : Nat)
    (previous : Option Projection) (previousRevision : Option String) (c : NormalizedCommit)
    (based : index % AUTHORITY_STATE_CHECKPOINT_INTERVAL ≠ 0 → previous.isSome) :
    (committedEntry revisionFor index (previous.map Projection.value) previousRevision
      c.commit).Follows revisionFor index (previous.map Projection.value) previousRevision where
  cursor := rfl
  revision := rfl
  lawful := ⟨ids _ _, c.normal.operationId, c.normal.events, c.normal.nextProjection,
    c.normal.receipts⟩
  state := by
    simp only [committedEntry, encodedState]
    split
    · rename_i hindex
      exact ⟨hindex, rfl⟩
    · rename_i hindex
      obtain ⟨before, rfl⟩ := Option.isSome_iff_exists.mp (based hindex)
      exact ⟨hindex, clean_of_mem_authorityStateDelta before c.projection, before.value, rfl,
        before.canonicalObject, applyOperations_authorityStateDelta before c.projection⟩

/-- The append loop retains exactly the committed entries, and they follow one another. -/
theorem appendRows_committedEntries (ids : StoreIds revisionFor) (commits : List NormalizedCommit)
    (rows : List StoredCommit) (previous : Option Projection) (previousRevision : Option String)
    (based : rows.length ≠ 0 → previous.isSome) :
    let entries := committedEntries revisionFor rows.length (previous.map Projection.value)
      previousRevision (commits.map NormalizedCommit.commit)
    FileAuthorityJournal.appendRows revisionFor (commits.map NormalizedCommit.commit) rows
        (previous.map Projection.value) previousRevision =
      .ok (rows ++ entries.map JournalEntry.row,
        headAfter (previous.map Projection.value) entries) ∧
      Lineage revisionFor rows.length (previous.map Projection.value) previousRevision
        entries := by
  induction commits generalizing rows previous previousRevision with
  | nil => simp [FileAuthorityJournal.appendRows, committedEntries, headAfter, Lineage]
  | cons c commits ih =>
    have based' : rows.length % AUTHORITY_STATE_CHECKPOINT_INTERVAL ≠ 0 → previous.isSome := by
      intro h
      refine based ?_
      intro hzero
      rw [hzero] at h
      exact h rfl
    let entry := committedEntry revisionFor rows.length (previous.map Projection.value)
      previousRevision c.commit
    obtain ⟨hrun, hlineage⟩ := ih (rows ++ [entry.row]) (some c.projection)
      (some entry.providerRevision) (fun _ => rfl)
    have hretain := retain_committedEntry revisionFor rows.length previous
      previousRevision c based'
    rw [List.length_append, List.length_singleton] at hrun hlineage
    refine ⟨?_, ?_⟩
    · rw [List.map_cons, FileAuthorityJournal.appendRows]
      have hretain' := hretain
      simp only [committedTransaction] at hretain'
      simp only [hretain', ok_bind]
      refine hrun.trans ?_
      rw [committedEntries, List.map_cons, headAfter_cons, List.append_assoc,
        List.singleton_append]
      rfl
    · exact ⟨follows_committedEntry ids _ previous previousRevision c based', hlineage⟩

/-- `current` holds exactly the history `entries`, for this goal and store. -/
def Holds (revisionFor : JournalRevision) (goal identity : String) :
    Option FileAuthorityJournal → List JournalEntry → Prop
  | none, entries => entries = []
  | some journal, entries => journal.goalId = goal ∧ journal.storeIdentity = identity ∧
      journal.Verified revisionFor entries ∧ ∀ entry ∈ entries, entry.projection.Fits

/-- The history determines the journal that holds it. -/
theorem holds_unique {goal identity : String} {first second : FileAuthorityJournal}
    {entries : List JournalEntry} (h : Holds revisionFor goal identity (some first) entries)
    (h' : Holds revisionFor goal identity (some second) entries) : first = second := by
  obtain ⟨hgoal, hidentity, hverified, -⟩ := h
  obtain ⟨hgoal', hidentity', hverified', -⟩ := h'
  have hhead : first.head = second.head :=
    Option.some.inj (hverified.head.symm.trans hverified'.head)
  have hrows : first.rows = second.rows := hverified.rows.trans hverified'.rows.symm
  cases first
  cases second
  simp_all

private theorem previous_of_holds {goal identity : String} {current : Option FileAuthorityJournal}
    {entries : List JournalEntry} (h : Holds revisionFor goal identity current entries) :
    ∃ previous : Option Projection, previous.map Projection.value = headAfter none entries ∧
      current.map (·.head) = headAfter none entries ∧
      current.map (·.providerRevision) = revisionAfter none entries ∧
      (current.map (·.rows)).getD [] = entries.map JournalEntry.row ∧
      (entries.length ≠ 0 → previous.isSome) := by
  cases current with
  | none =>
    obtain rfl : entries = [] := h
    exact ⟨none, rfl, rfl, rfl, rfl, by simp⟩
  | some journal =>
    obtain ⟨-, -, hverified, hfits⟩ := h
    obtain ⟨init, last, hsplit, follows, -, hrevision, hhead⟩ := hverified.exists_last
    have hlast : last ∈ entries := by simp [hsplit]
    have object := follows.lawful.projection
    refine ⟨some ⟨last.projection, object.1, object.2, hfits last hlast⟩, ?_, ?_, ?_, ?_, ?_⟩
    · simp [headAfter, hsplit]
    · simp [headAfter, hsplit, hhead]
    · simp [revisionAfter, hsplit, hrevision]
    · simp [hverified.rows]
    · simp

private theorem fits_committedEntries (index : Nat) (previous : Option Json)
    (previousRevision : Option String) (commits : List NormalizedCommit) :
    ∀ entry ∈ committedEntries revisionFor index previous previousRevision
      (commits.map NormalizedCommit.commit), entry.projection.Fits := by
  induction commits generalizing index previous previousRevision with
  | nil => simp [committedEntries]
  | cons c commits ih =>
    intro entry hentry
    rw [List.map_cons, committedEntries] at hentry
    rcases List.mem_cons.mp hentry with rfl | hentry
    · exact c.fits
    · exact ih _ _ _ entry hentry

private theorem headAfter_append (previous : Option Json) (first second : List JournalEntry) :
    headAfter previous (first ++ second) = headAfter (headAfter previous first) second := by
  cases h : second.getLast? <;> simp [headAfter, List.getLast?_append, h]

/-- One page extends the history by its commits and nothing else. -/
theorem appendCommits_holds (ids : StoreIds revisionFor) {goal identity : String}
    {current : Option FileAuthorityJournal} {entries : List JournalEntry}
    (h : Holds revisionFor goal identity current entries) (page : List NormalizedCommit)
    (nonempty : page ≠ [])
    (distinct : (entries.map (fun entry => entry.operationId) ++
      page.map (fun c => c.commit.operationId)).Nodup) :
    ∃ journal, FileAuthorityJournal.appendCommits current goal identity
        (page.map NormalizedCommit.commit) revisionFor = .ok journal ∧
      Holds revisionFor goal identity (some journal)
        (entries ++ committedEntries revisionFor entries.length (headAfter none entries)
          (revisionAfter none entries) (page.map NormalizedCommit.commit)) := by
  obtain ⟨previous, hprevious, hhead, hrevision, hrows, based⟩ := previous_of_holds h
  have hlength : (entries.map JournalEntry.row).length = entries.length := List.length_map _
  obtain ⟨hrun, hlineage⟩ := appendRows_committedEntries ids page (entries.map JournalEntry.row)
    previous (revisionAfter none entries) (by rwa [hlength])
  rw [hlength, hprevious] at hrun hlineage
  let added := committedEntries revisionFor entries.length (headAfter none entries)
    (revisionAfter none entries) (page.map NormalizedCommit.commit)
  have hadded : added ≠ [] := by
    intro hnil
    have hcount := length_committedEntries revisionFor entries.length
      (headAfter none entries) (revisionAfter none entries) (page.map NormalizedCommit.commit)
    rw [show committedEntries revisionFor entries.length (headAfter none entries)
      (revisionAfter none entries) (page.map NormalizedCommit.commit) = [] from hnil] at hcount
    exact nonempty (List.map_eq_nil_iff.mp (List.length_eq_zero_iff.mp hcount.symm))
  have hstored : entries.map JournalEntry.row ++ added.map JournalEntry.row ≠ [] := by
    simp [hadded]
  obtain ⟨head, hafter⟩ : ∃ head, headAfter (headAfter none entries) added = some head := by
    rw [headAfter, List.getLast?_eq_some_getLast hadded]
    exact ⟨_, rfl⟩
  have before : Lineage revisionFor 0 none none entries ∧
      ∀ entry ∈ entries, entry.projection.Fits := by
    cases current with
    | none =>
      obtain rfl : entries = [] := h
      exact ⟨trivial, by simp⟩
    | some journal => exact ⟨h.2.2.1.lineage, h.2.2.2⟩
  refine ⟨⟨goal, identity, head, _, hstored⟩, ?_, rfl, rfl, ⟨?_, ?_, ?_, ?_⟩, ?_⟩
  · rw [FileAuthorityJournal.appendCommits, hrows, hhead, hrevision, hrun, ok_bind]
    simp only
    rw [show headAfter (headAfter none entries) (committedEntries revisionFor entries.length
      (headAfter none entries) (revisionAfter none entries) (page.map NormalizedCommit.commit)) =
        some head from hafter]
    exact dif_pos hstored
  · rw [List.map_append]
  · rw [lineage_append, Nat.zero_add]
    exact ⟨before.1, hlineage⟩
  · rw [List.map_append, operationIds_committedEntries, List.map_map]
    exact distinct
  · rw [headAfter_append]
    exact hafter
  · intro entry hentry
    rcases List.mem_append.mp hentry with hentry | hentry
    · exact before.2 entry hentry
    · exact fits_committedEntries _ _ _ page entry hentry

/-- Page by page, the history grows by the commits of the pages in their order. -/
theorem appendPages_holds (ids : StoreIds revisionFor) {goal identity : String}
    (pages : List (List NormalizedCommit)) (blocks : ∀ page ∈ pages, page ≠ [])
    {current : Option FileAuthorityJournal} {entries : List JournalEntry}
    (h : Holds revisionFor goal identity current entries)
    (distinct : (entries.map (fun entry => entry.operationId) ++
      pages.flatten.map (fun c => c.commit.operationId)).Nodup) :
    ∃ result, appendPages goal identity revisionFor current
        (pages.map (fun page => page.map NormalizedCommit.commit)) = .ok result ∧
      Holds revisionFor goal identity result
        (entries ++ committedEntries revisionFor entries.length (headAfter none entries)
          (revisionAfter none entries) (pages.flatten.map NormalizedCommit.commit)) := by
  induction pages generalizing current entries with
  | nil => exact ⟨current, rfl, by simpa [committedEntries] using h⟩
  | cons page pages ih =>
    rw [List.flatten_cons, List.map_append, ← List.append_assoc] at distinct
    obtain ⟨journal, happend, hholds⟩ := appendCommits_holds ids h page (blocks page (by simp))
      (List.nodup_append.mp distinct).1
    obtain ⟨result, hrun, hresult⟩ := ih (fun p hp => blocks p (by simp [hp])) hholds (by
      rw [List.map_append, operationIds_committedEntries, List.map_map]
      exact distinct)
    refine ⟨result, ?_, ?_⟩
    · rw [List.map_cons, appendPages, happend, ok_bind, hrun]
    · rw [List.flatten_cons, List.map_append, committedEntries_append, ← List.append_assoc]
      rw [List.length_append, length_committedEntries, headAfter_append] at hresult
      have hrevision : revisionAfter none (entries ++ committedEntries revisionFor entries.length
          (headAfter none entries) (revisionAfter none entries)
            (page.map NormalizedCommit.commit)) =
          revisionAfter (revisionAfter none entries) (committedEntries revisionFor entries.length
            (headAfter none entries) (revisionAfter none entries)
              (page.map NormalizedCommit.commit)) := by
        simp only [revisionAfter, List.getLast?_append]
        cases (committedEntries revisionFor entries.length (headAfter none entries)
          ((entries.getLast?.map fun entry => entry.providerRevision).or none)
            (page.map NormalizedCommit.commit)).getLast? <;> simp
      rwa [hrevision] at hresult

/-- From nothing, non-empty pages build one journal, which holds all their commits. -/
theorem appendPages_none (ids : StoreIds revisionFor) (goal identity : String)
    {pages : List (List NormalizedCommit)} (nonempty : pages ≠ [])
    (blocks : ∀ page ∈ pages, page ≠ [])
    (distinct : (pages.flatten.map (fun c => c.commit.operationId)).Nodup) :
    ∃ journal, appendPages goal identity revisionFor none
        (pages.map (fun page => page.map NormalizedCommit.commit)) = .ok (some journal) ∧
      Holds revisionFor goal identity (some journal) (committedEntries revisionFor 0 none none
        (pages.flatten.map NormalizedCommit.commit)) := by
  have empty : Holds revisionFor goal identity none [] := rfl
  obtain ⟨result, hrun, hresult⟩ := appendPages_holds ids pages blocks empty distinct
  cases result with
  | some journal => exact ⟨journal, hrun, hresult⟩
  | none =>
    have hnil : committedEntries revisionFor 0 none none
        (pages.flatten.map NormalizedCommit.commit) = [] := hresult
    have hlength := congrArg List.length hnil
    rw [length_committedEntries, List.length_map] at hlength
    obtain ⟨page, rest, rfl⟩ := List.exists_cons_of_ne_nil nonempty
    have hflat := List.length_eq_zero_iff.mp hlength
    rw [List.flatten_cons, List.append_eq_nil_iff] at hflat
    exact absurd hflat.1 (blocks page (by simp))

end Append

private theorem flatten_singletons {α : Type} (l : List α) : (l.map (fun a => [a])).flatten = l := by
  induction l with
  | nil => rfl
  | cons a l ih => simp [ih]

/-- Commits appended in any pages give the journal that appending them one by one gives; its
document decodes to itself, and every scan returns its slice of the commits. -/
theorem fileJournal_roundTrip (sha : Sha256) (goal identity : String)
    (pages : List (List NormalizedCommit)) (nonempty : pages ≠ [])
    (blocks : ∀ page ∈ pages, page ≠ [])
    (distinct : (pages.flatten.map (fun c => c.commit.operationId)).Nodup) :
    let revisionFor := fileAuthorityRevision sha goal identity
    let commits := pages.flatten.map NormalizedCommit.commit
    ∃ journal : FileAuthorityJournal,
      appendPages goal identity revisionFor none
        (pages.map (fun page => page.map NormalizedCommit.commit)) = .ok (some journal) ∧
      appendPages goal identity revisionFor none (commits.map (fun commit => [commit])) =
        .ok (some journal) ∧
      FileAuthorityJournal.decode journal.toDocument goal identity revisionFor = .ok journal ∧
      ∀ offset limit, journal.scan offset limit =
        .ok (((committedTransactions revisionFor 0 none commits).drop offset).take limit) := by
  intro revisionFor commits
  have ids : StoreIds revisionFor := storeIds_fileAuthorityRevision sha goal identity
  obtain ⟨journal, hpages, hholds⟩ := appendPages_none ids goal identity nonempty blocks distinct
  let singles := pages.flatten.map (fun c => [c])
  have hsingles : singles.flatten = pages.flatten := flatten_singletons _
  have singlesNonempty : singles ≠ [] := by
    obtain ⟨page, rest, rfl⟩ := List.exists_cons_of_ne_nil nonempty
    have hpage := blocks page (by simp)
    simp [singles, hpage]
  have singlesBlocks : ∀ page ∈ singles, page ≠ [] := by
    intro page hpage
    obtain ⟨c, -, rfl⟩ := List.mem_map.mp hpage
    simp
  obtain ⟨journal', hrun, hholds'⟩ := appendPages_none ids goal identity singlesNonempty
    singlesBlocks (by rwa [hsingles])
  rw [hsingles] at hholds'
  obtain rfl := holds_unique hholds hholds'
  obtain ⟨hgoal, hidentity, hverified, -⟩ := hholds
  refine ⟨journal, hpages, ?_, ?_, ?_⟩
  · rw [← hrun, List.map_map, List.map_map]
    rfl
  · have hdecode := FileAuthorityJournal.decode_toDocument hverified
    rwa [hgoal, hidentity] at hdecode
  · intro offset limit
    rw [FileAuthorityJournal.scan_of_verified hverified]
    congr 3
    exact transactions_committedEntries 0 none none commits

/-- Two commits of a small goal: one Todo opened, then closed. -/
def openCommit : NormalizedCommit where
  commit := ⟨none, "open-1", [.object [("kind", .string "opened")]],
    .object [("goal_id", .string "g"), ("todos", .array [.string "open"])], []⟩
  normal := ⟨by decide, by decide +kernel, by decide +kernel, by decide +kernel, by simp⟩
  fits := by simp [Json.Fits, Json.FitsFields, Json.FitsItems, Json.maxArrayLength]

def closeCommit : NormalizedCommit where
  commit := ⟨none, "close-1", [], .object [("goal_id", .string "g"), ("todos", .array [])],
    [.object [("status", .string "closed")]]⟩
  normal := ⟨by decide, by decide +kernel, by simp, by decide +kernel, by decide +kernel⟩
  fits := by simp [Json.Fits, Json.FitsFields, Json.FitsItems, Json.maxArrayLength]

theorem fileJournal_roundTrip_open_close :
    ∃ journal : FileAuthorityJournal,
      appendPages "g" "file:0" (fileAuthorityRevision Sha256.node "g" "file:0") none
        [[openCommit.commit], [closeCommit.commit]] = .ok (some journal) ∧
      FileAuthorityJournal.decode journal.toDocument "g" "file:0"
        (fileAuthorityRevision Sha256.node "g" "file:0") = .ok journal ∧
      journal.scan 1 5 = .ok ((committedTransactions
        (fileAuthorityRevision Sha256.node "g" "file:0") 0 none
          [openCommit.commit, closeCommit.commit]).drop 1) := by
  obtain ⟨journal, hpages, -, hdecode, hscan⟩ := fileJournal_roundTrip Sha256.node "g" "file:0"
    [[openCommit], [closeCommit]] (by simp) (by simp) (by decide)
  exact ⟨journal, hpages, hdecode, hscan 1 5⟩

end Loopx.Authority
