/- GID: Loopx/Authority/StoreAgreement
   generality: I
   source: loopx/control_plane/coordination/file_authority_store.ts, sqlite_authority_store.ts
   digest: The File and the SQLite store answer every sequence of requests alike, up to tokens. -/

import Loopx.Authority.FileStoreRuns
import Loopx.Authority.JournalTwins
import Loopx.Authority.SqliteStoreReads
import Loopx.Authority.SqliteStoreRuns

set_option autoImplicit false
set_option relaxedAutoImplicit false

namespace Loopx.Authority

open Loopx.Lib
open Loopx.Lib.CasLog (Distinct)
open Loopx.Lib.Fallible (ok_bind bind_eq_ok)
open Loopx.Json (JsNumber Protocol canonicalAuthorityBytes)
open FileStore (journalOf)

/-- A token of an earlier answer: the step it was given in and its place there. -/
structure TokenReference where
  step : Nat
  position : Nat

/-- A request both stores get. A commit expects no revision, or one it was given before. -/
inductive StoreRequest where
  | load
  | commit (expected : Option TokenReference) (operationId : String) (events : List Json)
      (nextProjection : Json) (receipts : List Json) (fits : nextProjection.Fits)
  | receipt (operationId : String)
  | receipts (operationIds : List String)
  | scan (afterCursor : Option String) (limit : JsNumber)

inductive StoreResult where
  | loaded (result : AuthorityStoreLoadResult)
  | committed (result : AuthorityStoreCommitResult)
  | receipt (result : AuthorityStoreReceiptResult)
  | receipts (result : AuthorityStoreReceiptBatchResult)
  | scanned (result : AuthorityStoreScanResult)

def receiptTokens : AuthorityStoreReceiptResult → List String
  | .found _ revision _ => [revision]
  | _ => []

/-- The revision tokens an answer carries. -/
def StoreResult.tokens : StoreResult → List String
  | .loaded (.loaded head) => [head.providerRevision]
  | .committed (.applied revision _) => [revision]
  | .committed (.conflict _ revision _) => revision.toList
  | .receipt result => receiptTokens result
  | .receipts (.receipts results) => results.flatMap receiptTokens
  | .scanned (.page transactions _ _) => transactions.map (fun entry => entry.providerRevision)
  | _ => []

def issued (answers : List StoreResult) (reference : Option TokenReference) : Option String :=
  reference.bind (fun reference => (answers[reference.step]?).bind
    (fun answer => answer.tokens[reference.position]?))

/-- One step of a fault-free run: the process that asks, and the identities a first commit makes. -/
structure StoreStep where
  process : Nat
  fileIdentity : FileIdentity
  sqliteIdentity : SqliteIdentity
  request : StoreRequest

namespace StoreStep

variable (sha : Sha256) (goal : String) (step : StoreStep)

def fileStore : FileStore := ⟨sha, goal, false, none, step.process⟩

def fileEnvironment : FileEnvironment := ⟨false, false, false, step.fileIdentity, .done, .done⟩

def sqliteEnvironment : SqliteEnvironment := ⟨false, false, step.sqliteIdentity, .done⟩

def onFile (answers : List StoreResult) (s : FileState) : FileState × StoreResult :=
  let store := step.fileStore sha goal
  let env := step.fileEnvironment
  match step.request with
  | .load => (store.loadAuthority env s).map id .loaded
  | .commit expected operationId events nextProjection receipts _ =>
    (store.commitAuthority env s ⟨issued answers expected, operationId, events, nextProjection,
      receipts⟩).map id .committed
  | .receipt operationId => (store.readReceipt env s operationId).map id .receipt
  | .receipts operationIds => (store.readReceipts env s operationIds).map id .receipts
  | .scan afterCursor limit => (store.scanCommitted env s afterCursor limit).map id .scanned

end StoreStep

def sqliteStore (sha : Sha256) (goal : String) : SqliteStore := ⟨sha, goal, false, none⟩

def StoreStep.onSqlite (sha : Sha256) (goal : String) (step : StoreStep)
    (answers : List StoreResult) (s : SqliteState) : SqliteState × StoreResult :=
  let store := sqliteStore sha goal
  let env := step.sqliteEnvironment
  match step.request with
  | .load => (s, .loaded (store.loadAuthority env s))
  | .commit expected operationId events nextProjection receipts _ =>
    (store.commitAuthority env s ⟨issued answers expected, operationId, events, nextProjection,
      receipts⟩).map id .committed
  | .receipt operationId => (s, .receipt (store.readReceipt env s operationId))
  | .receipts operationIds => (s, .receipts (store.readReceipts env s operationIds))
  | .scan afterCursor limit => (s, .scanned (store.scanCommitted env s afterCursor limit))

/-- Both stores side by side, and what they answered so far. -/
structure StorePair where
  file : FileState
  sqlite : SqliteState
  answers : List (StoreResult × StoreResult)

def StorePair.empty : StorePair := ⟨.empty, .empty, []⟩

def StoreStep.perform (sha : Sha256) (goal : String) (p : StorePair) (step : StoreStep) :
    StorePair :=
  let file := step.onFile sha goal (p.answers.map Prod.fst) p.file
  let sqlite := step.onSqlite sha goal (p.answers.map Prod.snd) p.sqlite
  ⟨file.1, sqlite.1, p.answers ++ [(file.2, sqlite.2)]⟩

def pairAfter (sha : Sha256) (goal : String) (steps : List StoreStep) : StorePair :=
  steps.foldl (fun p step => step.perform sha goal p) .empty

/-- The same outcome up to tokens. -/
inductive Agrees (pair : String → String → Prop) : StoreResult → StoreResult → Prop where
  | loaded {a b : AuthorityStoreLoadResult} (h : LoadAgrees pair a b) :
      Agrees pair (.loaded a) (.loaded b)
  | committed {a b : AuthorityStoreCommitResult} (h : CommitAgrees pair a b) :
      Agrees pair (.committed a) (.committed b)
  | receipt {a b : AuthorityStoreReceiptResult} (h : ReceiptAgrees pair a b) :
      Agrees pair (.receipt a) (.receipt b)
  | receipts {a b : AuthorityStoreReceiptBatchResult} (h : BatchAgrees pair a b) :
      Agrees pair (.receipts a) (.receipts b)
  | scanned {a b : AuthorityStoreScanResult} (h : ScanAgrees pair a b) :
      Agrees pair (.scanned a) (.scanned b)

section Tokens

variable {pair : String → String → Prop}

private theorem receiptTokens_agree {a b : AuthorityStoreReceiptResult}
    (h : ReceiptAgrees pair a b) : List.Forall₂ pair (receiptTokens a) (receiptTokens b) := by
  cases h with
  | missing => exact .nil
  | found cursor a b receipts tokens => exact .cons tokens .nil
  | failed code code' reason => exact .nil

private theorem tokens_agree {a b : StoreResult} (h : Agrees pair a b) :
    List.Forall₂ pair a.tokens b.tokens := by
  cases h with
  | loaded h =>
    cases h with
    | missing => exact .nil
    | loaded head cursor a b tokens => exact .cons tokens .nil
  | committed h =>
    cases h with
    | applied cursor a b tokens => exact .cons tokens .nil
    | conflict kind cursor a b tokens =>
      cases tokens with
      | none => exact .nil
      | some tokens => exact .cons tokens .nil
    | failed code reason => exact .nil
  | receipt h => exact receiptTokens_agree h
  | receipts h =>
    cases h with
    | receipts results results' each =>
      simp only [StoreResult.tokens]
      induction each with
      | nil => exact .nil
      | cons first rest ih =>
        rw [List.flatMap_cons, List.flatMap_cons]
        exact List.rel_append (receiptTokens_agree first) ih
    | failed code reason => exact .nil
  | scanned h =>
    cases h with
    | page transactions transactions' nextCursor hasMore each =>
      simp only [StoreResult.tokens]
      rw [List.forall₂_map_left_iff, List.forall₂_map_right_iff]
      exact each.imp (fun _ _ twin => twin.tokens)
    | failed code reason => exact .nil

private theorem getElem?_forall₂ {α β : Type} {R : α → β → Prop} {l : List α} {l' : List β}
    (h : List.Forall₂ R l l') (index : Nat) : Option.Rel R l[index]? l'[index]? := by
  induction h generalizing index with
  | nil => exact .none
  | cons first rest ih =>
    cases index with
    | zero => exact .some first
    | succ index => simpa using ih index

/-- Where the answers agree, a reference stands for paired tokens, or for none. -/
private theorem issued_agree {answers : List (StoreResult × StoreResult)}
    (h : ∀ answer ∈ answers, Agrees pair answer.1 answer.2) (reference : Option TokenReference) :
    Option.Rel pair (issued (answers.map Prod.fst) reference)
      (issued (answers.map Prod.snd) reference) := by
  cases reference with
  | none => exact .none
  | some reference =>
    simp only [issued, Option.bind_some, List.getElem?_map]
    cases hanswer : answers[reference.step]? with
    | none => exact .none
    | some answer =>
      exact getElem?_forall₂ (tokens_agree (h answer (List.mem_of_getElem? hanswer)))
        reference.position

theorem Agrees.mono {pair' : String → String → Prop} (sub : ∀ a b, pair a b → pair' a b)
    {a b : StoreResult} (h : Agrees pair a b) : Agrees pair' a b := by
  have receipt : ∀ a b, ReceiptAgrees pair a b → ReceiptAgrees pair' a b := by
    intro a b h
    cases h with
    | missing => exact .missing
    | found cursor a b receipts tokens => exact .found cursor a b receipts (sub _ _ tokens)
    | failed code code' reason => exact .failed code code' reason
  cases h with
  | loaded h =>
    cases h with
    | missing => exact .loaded .missing
    | loaded head cursor a b tokens => exact .loaded (.loaded head cursor a b (sub _ _ tokens))
  | committed h =>
    cases h with
    | applied cursor a b tokens => exact .committed (.applied cursor a b (sub _ _ tokens))
    | conflict kind cursor a b tokens =>
      refine .committed (.conflict kind cursor a b ?_)
      cases tokens with
      | none => exact .none
      | some tokens => exact .some (sub _ _ tokens)
    | failed code reason => exact .committed (.failed code reason)
  | receipt h => exact .receipt (receipt _ _ h)
  | receipts h =>
    cases h with
    | receipts results results' each => exact .receipts (.receipts _ _ (each.imp receipt))
    | failed code reason => exact .receipts (.failed code reason)
  | scanned h =>
    cases h with
    | page transactions transactions' nextCursor hasMore each =>
      refine .scanned (.page _ _ _ _ (each.imp ?_))
      exact fun _ _ twin => ⟨twin.cursor, twin.operationId, twin.body, sub _ _ twin.tokens⟩
    | failed code reason => exact .scanned (.failed code reason)

end Tokens

section Growth

variable (sha : Sha256) (goal : String)

theorem StoreStep.onFile_written (step : StoreStep) (answers : List StoreResult) (s : FileState) :
    s.written ⊆ (step.onFile sha goal answers s).1.written := by
  unfold StoreStep.onFile
  cases step.request with
  | load =>
    exact written_subset (loadAuthority_written (step.fileStore sha goal) step.fileEnvironment s)
  | commit expected operationId events nextProjection receipts fits =>
    exact commitAuthority_written (step.fileStore sha goal) step.fileEnvironment s _
  | receipt operationId =>
    exact written_subset (readReceipt_written (step.fileStore sha goal) step.fileEnvironment s
      operationId)
  | receipts operationIds =>
    exact written_subset (readReceipts_written (step.fileStore sha goal) step.fileEnvironment s
      operationIds)
  | scan afterCursor limit =>
    exact written_subset (scanCommitted_written (step.fileStore sha goal) step.fileEnvironment s
      afterCursor limit)

theorem StoreStep.onSqlite_proofs (step : StoreStep) (answers : List StoreResult)
    (s : SqliteState) : s.proofs ⊆ (step.onSqlite sha goal answers s).1.proofs := by
  unfold StoreStep.onSqlite
  cases step.request with
  | commit expected operationId events nextProjection receipts fits =>
    exact SqliteStore.commitAuthority_proofs _ _ s _
  | load => exact List.Subset.refl _
  | receipt operationId => exact List.Subset.refl _
  | receipts operationIds => exact List.Subset.refl _
  | scan afterCursor limit => exact List.Subset.refl _

theorem pairAfter_append_singleton (before : List StoreStep) (step : StoreStep) :
    pairAfter sha goal (before ++ [step]) = step.perform sha goal (pairAfter sha goal before) := by
  rw [pairAfter, List.foldl_append]
  rfl

theorem length_answers (steps : List StoreStep) :
    (pairAfter sha goal steps).answers.length = steps.length := by
  induction steps using List.reverseRecOn with
  | nil => rfl
  | append_singleton before step ih =>
    rw [pairAfter_append_singleton, StoreStep.perform, List.length_append, List.length_append, ih]
    rfl

end Growth

/-- The commit a request makes under the tokens of one store. -/
def StoreRequest.commitUnder (answers : List StoreResult) :
    StoreRequest → Option AuthorityStoreCommit
  | .commit expected operationId events nextProjection receiptList _ =>
    some ⟨issued answers expected, operationId, events, nextProjection, receiptList⟩
  | _ => none

/-- Below the limit of one SQLite commit. -/
def StoreStep.Small (answers : List StoreResult) (step : StoreStep) : Prop :=
  ∀ commit ∈ step.request.commitUnder answers, ∀ normalized,
    normalizeAuthorityStoreCommit commit = .ok normalized →
    (canonicalAuthorityBytes (SqliteStore.commitJson normalized)).size ≤ MAX_COMMIT_BYTES

/-- The two stores hold journals of twins, and every answer so far agrees. -/
structure InStep (sha : Sha256) (goal : String) (p : StorePair) (entries : List JournalEntry)
    (journal : Journal) : Prop where
  file : p.file.Sound sha goal entries
  sqlite : SqliteStore.Settled (sqliteStore sha goal) p.sqlite journal
  twins : Twins (Paired (journalOf entries) journal) (journalOf entries) journal
  answers : ∀ answer ∈ p.answers, Agrees (Paired (journalOf entries) journal) answer.1 answer.2
  short : journal.length ≤ p.answers.length

section Steps

variable {sha : Sha256} {goal : String} {p : StorePair} {entries : List JournalEntry}
  {journal : Journal}

/-- A settled file has distinct names, contiguous cursors and tokens that name entries. -/
theorem SqliteStore.Settled.sound {store : SqliteStore} {s : SqliteState}
    (h : SqliteStore.Settled store s journal) :
    SqliteStore.Sound store s journal ∧ Contiguous journal ∧ TokensNameEntries journal := by
  rcases h with ⟨hnone, rfl⟩ | ⟨identity, opened⟩
  · refine ⟨⟨by simp [Distinct], fun _ => rfl, by simp [hnone]⟩, by simp [Contiguous],
      by simp [TokensNameEntries]⟩
  · exact ⟨opened.sound, contiguous_of_history opened.history,
      revision_inj_of_history opened.history⟩

theorem InStep.logs (h : InStep sha goal p entries journal) :
    TwinLogs (journalOf entries) journal :=
  ⟨h.twins, h.file.distinct, h.sqlite.sound.1.distinct, h.file.revision_inj, h.sqlite.sound.2.2⟩

/-- Tokens of the two journals are not empty, and those of SQLite pass its pattern. -/
private theorem InStep.tokens (h : InStep sha goal p entries journal) {a b : String}
    (paired : Paired (journalOf entries) journal a b) :
    a ≠ "" ∧ b ≠ "" ∧ isSqliteRevision b = true := by
  obtain ⟨⟨x, y⟩, hmem, heq⟩ := List.mem_map.mp paired
  obtain ⟨rfl, rfl⟩ := Prod.mk.inj heq
  obtain ⟨hx, hy⟩ := List.of_mem_zip hmem
  obtain ⟨_, -, hlineage, -⟩ := h.file.lineage
  have pattern : isSqliteRevision y.providerRevision = true := by
    rcases h.sqlite with ⟨-, rfl⟩ | ⟨identity, opened⟩
    · simp at hy
    · obtain ⟨index, hindex⟩ := List.getElem?_of_mem hy
      rw [(sqliteEntry_of_history opened.history hindex).revision]
      exact isSqliteRevision_sqliteRevision opened.opens.pattern index
  refine ⟨revision_ne_empty_of_lineage hlineage hx, ?_, pattern⟩
  intro empty
  have : isSqliteRevision "" = true := empty ▸ pattern
  exact absurd this (by decide)

/-- A step that leaves both journals alone and gets agreeing answers. -/
private theorem InStep.answer (h : InStep sha goal p entries journal) {file : FileState}
    {a b : StoreResult} (sound : file.Sound sha goal entries)
    (agree : Agrees (Paired (journalOf entries) journal) a b) :
    InStep sha goal ⟨file, p.sqlite, p.answers ++ [(a, b)]⟩ entries journal where
  file := sound
  sqlite := h.sqlite
  twins := h.twins
  answers := by
    intro answer hanswer
    rcases List.mem_append.mp hanswer with old | new
    · exact h.answers answer old
    · obtain rfl := List.mem_singleton.mp new
      exact agree
  short := by
    have := h.short
    rw [List.length_append]
    omega

/-- One commit to both stores. -/
private theorem InStep.commit (h : InStep sha goal p entries journal) (step : StoreStep)
    (collisionFree : NoCollision sha p.file.written) {expected : Option TokenReference}
    {operationId : String} {events : List Json} {nextProjection : Json} {receipts : List Json}
    {fits : nextProjection.Fits}
    (hrequest : step.request = .commit expected operationId events nextProjection receipts fits)
    (small : step.Small (p.answers.map Prod.snd)) (bounded : journal.length < MAX_SEQUENCE)
    (collisionFree' : NoCollision sha (step.perform sha goal p).sqlite.proofs) :
    ∃ entries' journal', InStep sha goal (step.perform sha goal p) entries' journal' := by
  let store := step.fileStore sha goal
  have stored : p.file.Sound store.sha store.goalId entries := h.file
  let commit : AuthorityStoreCommit := ⟨issued (p.answers.map Prod.fst) expected, operationId,
    events, nextProjection, receipts⟩
  let commit' : AuthorityStoreCommit := ⟨issued (p.answers.map Prod.snd) expected, operationId,
    events, nextProjection, receipts⟩
  have paired := issued_agree h.answers expected
  have nonempty : commit.expectedProviderRevision ≠ some "" ∧
      commit'.expectedProviderRevision ≠ some "" := by
    simp only [commit, commit']
    generalize issued (p.answers.map Prod.fst) expected = a at paired ⊢
    generalize issued (p.answers.map Prod.snd) expected = b at paired ⊢
    cases paired with
    | none => exact ⟨by simp, by simp⟩
    | some tokens =>
      obtain ⟨ha, hb, -⟩ := h.tokens tokens
      exact ⟨by simpa using ha, by simpa using hb⟩
  have normal' : normalizeAuthorityStoreCommit commit' = (normalizeAuthorityStoreCommit commit).map
      (fun normalized => { normalized with
        expectedProviderRevision := commit'.expectedProviderRevision }) :=
    normalize_expected commit nonempty.1 nonempty.2
  have hperform : step.perform sha goal p =
      ⟨(store.commitAuthority step.fileEnvironment p.file commit).1,
        ((sqliteStore sha goal).commitAuthority step.sqliteEnvironment p.sqlite commit').1,
        p.answers ++ [(.committed (store.commitAuthority step.fileEnvironment p.file commit).2,
          .committed ((sqliteStore sha goal).commitAuthority step.sqliteEnvironment p.sqlite
            commit').2)]⟩ := by
    simp only [StoreStep.perform, StoreStep.onFile, StoreStep.onSqlite, hrequest]
    rfl
  rw [hperform] at collisionFree' ⊢
  cases hnormalize : normalizeAuthorityStoreCommit commit with
  | error reason =>
    rw [hnormalize] at normal'
    have hfile : store.commitAuthority step.fileEnvironment p.file commit =
        (p.file, .failed "invalid_commit_request" reason) := by
      rw [FileStore.commitAuthority, hnormalize]
    have hsqlite : (sqliteStore sha goal).commitAuthority step.sqliteEnvironment p.sqlite commit' =
        (p.sqlite, .failed "invalid_commit_request" reason) := by
      rw [SqliteStore.commitAuthority, normal']
      rfl
    rw [hfile, hsqlite]
    exact ⟨entries, journal, h.answer h.file (.committed (.failed _ _))⟩
  | ok normalized =>
    rw [hnormalize] at normal'
    let normalized' : AuthorityStoreCommit :=
      { normalized with expectedProviderRevision := commit'.expectedProviderRevision }
    have normal'' : normalizeAuthorityStoreCommit commit' = .ok normalized' := normal'
    have hexpected := (normal_of_normalize hnormalize).2.2
    have same : RequestTwin (journalOf entries) journal (commitRequest normalized)
        (commitRequest normalized') := by
      refine ⟨rfl, rfl, ?_⟩
      simp only [commitRequest, hexpected, normalized']
      exact paired
    have pattern : ∀ revision ∈ normalized'.expectedProviderRevision,
        isSqliteRevision revision = true := by
      intro revision hrevision
      simp only [normalized', commit'] at hrevision
      generalize issued (p.answers.map Prod.fst) expected = a at paired
      generalize issued (p.answers.map Prod.snd) expected = b at paired hrevision
      cases paired with
      | none => simp at hrevision
      | some tokens =>
        obtain rfl := Option.some.inj hrevision
        exact (h.tokens tokens).2.2
    have served : FileStore.Served store step.fileEnvironment p.file :=
      ⟨rfl, rfl, rfl, by simp [store, StoreStep.fileStore], fun _ => rfl,
        by simp [store, StoreStep.fileStore]⟩
    have served' : SqliteStore.Served (sqliteStore sha goal) step.sqliteEnvironment p.sqlite
        normalized' := by
      refine ⟨rfl, rfl, ?_, by simp [sqliteStore], pattern, ?_⟩
      · intro known hknown
        simp [sqliteStore] at hknown
      · exact small commit' (by simp [StoreRequest.commitUnder, hrequest, commit']) normalized'
          normal''
    obtain ⟨file, result, entries', answer, hfile, hsound, -, -, hreports, hsubmit⟩ :=
      FileStore.commitAuthority_submit stored collisionFree step.fileEnvironment
        (show commit.nextProjection.Fits from fits)
    obtain ⟨sqlite, result', journal', answer', hsqlite, -, -, hreports', hsubmit'⟩ :=
      SqliteStore.commitAuthority_submit h.sqlite.sound.1 step.sqliteEnvironment
        (show commit'.nextProjection.Fits from fits) collisionFree'
    rw [hnormalize] at hsubmit
    rw [normal''] at hsubmit'
    obtain ⟨submit, answered, known⟩ := hsubmit
    obtain ⟨submit', settled, known'⟩ := hsubmit'
    obtain ⟨answered', identity, opened⟩ := settled served'
    have hsettled : SqliteStore.Settled (sqliteStore sha goal) sqlite journal' :=
      Or.inr ⟨identity, opened⟩
    obtain ⟨twins, answers⟩ := submit_twins h.logs same submit submit'
      ⟨answered served, known rfl⟩ ⟨answered' bounded, known' rfl⟩ hsound.contiguous
      hsettled.sound.2.1
    have agree := reports_twins h.logs submit.isPrefix submit'.isPrefix answers hreports hreports'
      twins
    rw [hfile, hsqlite]
    refine ⟨entries', journal', hsound, hsettled, twins, ?_, ?_⟩
    · intro pastAnswer hanswer
      rcases List.mem_append.mp hanswer with old | new
      · exact (h.answers pastAnswer old).mono (fun _ _ tokens =>
          paired_mono submit.isPrefix submit'.isPrefix h.logs.length_eq tokens)
      · obtain rfl := List.mem_singleton.mp new
        exact .committed agree
    · have grown : journal'.length ≤ journal.length + 1 := submit'.length_le
      have := h.short
      rw [List.length_append, List.length_singleton]
      omega

/-- One request to both stores. -/
theorem InStep.perform (h : InStep sha goal p entries journal) (step : StoreStep)
    (collisionFree : NoCollision sha p.file.written) (small : step.Small (p.answers.map Prod.snd))
    (bounded : journal.length < MAX_SEQUENCE)
    (collisionFree' : NoCollision sha (step.perform sha goal p).sqlite.proofs) :
    ∃ entries' journal', InStep sha goal (step.perform sha goal p) entries' journal' := by
  let store := step.fileStore sha goal
  have stored : p.file.Sound store.sha store.goalId entries := h.file
  have readable : FileStore.Readable store step.fileEnvironment p.file :=
    ⟨rfl, rfl, by simp [store, StoreStep.fileStore]⟩
  have available : step.sqliteEnvironment.unavailable = false := rfl
  cases hrequest : step.request with
  | commit expected operationId events nextProjection receipts fits =>
    exact h.commit step collisionFree hrequest small bounded collisionFree'
  | load =>
    cases hrun : store.loadAuthority step.fileEnvironment p.file with
    | mk file result =>
    obtain ⟨sound, rfl | ⟨unreadable, -⟩⟩ := FileStore.loadAuthority_reads stored collisionFree hrun
    · refine ⟨entries, journal, ?_⟩
      simp only [StoreStep.perform, StoreStep.onFile, StoreStep.onSqlite, hrequest,
        SqliteStore.loadAuthority_reads h.sqlite available]
      rw [show step.fileStore sha goal = store from rfl, hrun]
      exact h.answer sound (.loaded (load_twins h.twins))
    · exact absurd readable unreadable
  | receipt operationId =>
    cases hrun : store.readReceipt step.fileEnvironment p.file operationId with
    | mk file result =>
    obtain ⟨sound, hresult | ⟨unreadable, -⟩⟩ :=
      FileStore.readReceipt_reads stored collisionFree hrun
    · refine ⟨entries, journal, ?_⟩
      simp only [StoreStep.perform, StoreStep.onFile, StoreStep.onSqlite, hrequest,
        SqliteStore.readReceipt_reads h.sqlite available]
      rw [show step.fileStore sha goal = store from rfl, hrun, hresult]
      refine h.answer sound (.receipt ?_)
      cases requireAuthorityStoreId (some (.string operationId)) "operation id" with
      | error reason => exact .failed _ _ _
      | ok id => exact receipt_twins h.twins id
    · exact absurd readable unreadable
  | receipts operationIds =>
    cases hrun : store.readReceipts step.fileEnvironment p.file operationIds with
    | mk file result =>
    obtain ⟨sound, hresult | ⟨unreadable, -⟩⟩ :=
      FileStore.readReceipts_reads stored collisionFree hrun
    · refine ⟨entries, journal, ?_⟩
      simp only [StoreStep.perform, StoreStep.onFile, StoreStep.onSqlite, hrequest,
        SqliteStore.readReceipts_reads h.sqlite available]
      rw [show step.fileStore sha goal = store from rfl, hrun, hresult]
      refine h.answer sound (.receipts ?_)
      cases receiptBatch operationIds with
      | error reason => exact .failed _ _
      | ok ids => exact .receipts _ _ (receipts_twins h.twins ids)
    · exact absurd readable unreadable
  | scan afterCursor limit =>
    cases hrun : store.scanCommitted step.fileEnvironment p.file afterCursor limit with
    | mk file result =>
    obtain ⟨sound, hresult | ⟨unreadable, -⟩⟩ :=
      FileStore.scanCommitted_reads stored collisionFree hrun
    · refine ⟨entries, journal, ?_⟩
      simp only [StoreStep.perform, StoreStep.onFile, StoreStep.onSqlite, hrequest,
        SqliteStore.scanCommitted_reads h.sqlite (fun _ => available)]
      rw [show step.fileStore sha goal = store from rfl, hrun, hresult]
      refine h.answer sound (.scanned ?_)
      cases hprepare : AuthorityJournalScan.prepare afterCursor limit with
      | error failure =>
        obtain ⟨code, reason, rfl⟩ := AuthorityJournalScan.failed_of_prepare hprepare
        exact .failed _ _
      | ok scan => exact scanned_twins h.twins scan
    · exact absurd readable unreadable

end Steps

section Runs

variable {sha : Sha256} {goal : String}

/-- What SQLite can hold: commits below its size limit, and its sequence numbers. -/
structure WithinLimits (sha : Sha256) (goal : String) (steps : List StoreStep) : Prop where
  size : ∀ before step after, steps = before ++ step :: after →
    step.Small ((pairAfter sha goal before).answers.map Prod.snd)
  sequence : steps.length ≤ MAX_SEQUENCE

/-- Every run keeps the two stores in step. -/
theorem pairAfter_inStep (steps : List StoreStep) (limits : WithinLimits sha goal steps)
    (collisionFree : NoCollision sha (pairAfter sha goal steps).file.written)
    (collisionFree' : NoCollision sha (pairAfter sha goal steps).sqlite.proofs) :
    ∃ entries journal, InStep sha goal (pairAfter sha goal steps) entries journal := by
  induction steps using List.reverseRecOn with
  | nil =>
    refine ⟨[], [], FileState.sound_empty sha goal, Or.inl ⟨rfl, rfl⟩, .nil, ?_, Nat.le_refl _⟩
    intro answer hanswer
    cases hanswer
  | append_singleton before step ih =>
    have earlier : WithinLimits sha goal before := by
      constructor
      · rintro first middle last rfl
        exact limits.size first middle (last ++ [step]) (by simp)
      · have := limits.sequence
        rw [List.length_append] at this
        omega
    rw [pairAfter_append_singleton] at collisionFree collisionFree' ⊢
    have here := collisionFree.mono (step.onFile_written sha goal _ _)
    obtain ⟨entries, journal, h⟩ := ih earlier here
      (collisionFree'.mono (step.onSqlite_proofs sha goal _ _))
    have bounded : journal.length < MAX_SEQUENCE := by
      have hshort := h.short
      rw [length_answers] at hshort
      have hsequence := limits.sequence
      rw [List.length_append, List.length_singleton] at hsequence
      omega
    exact h.perform step here (limits.size before step [] (by simp)) bounded collisionFree'

private theorem isFileIdentity_first :
    isFileIdentity "file:0123456789abcdef0123456789abcdef" = true := by
  decide

private theorem isSqliteIdentity_first :
    isSqliteIdentity "sqlite:0123456789abcdef0123456789abcdef" = true := by
  decide

/-- A load of the empty stores, and a first commit. -/
def loadThenOpen : List StoreStep :=
  let file : FileIdentity := ⟨"file:0123456789abcdef0123456789abcdef", isFileIdentity_first⟩
  let sqlite : SqliteIdentity :=
    ⟨"sqlite:0123456789abcdef0123456789abcdef", isSqliteIdentity_first⟩
  [⟨0, file, sqlite, .load⟩,
    ⟨0, file, sqlite, .commit none openCommit.commit.operationId openCommit.commit.events
      openCommit.commit.nextProjection openCommit.commit.receipts openCommit.fits⟩]

private theorem loadThenOpen_limits : WithinLimits Sha256.node "g" loadThenOpen := by
  constructor
  · rintro before step after hsplit commit hcommit normalized hnormalize
    have hstep : step ∈ loadThenOpen := by simp [hsplit]
    rcases List.mem_cons.mp hstep with rfl | hstep
    · cases hcommit
    obtain rfl := List.mem_singleton.mp hstep
    obtain rfl : openCommit.commit = commit := Option.some.inj hcommit
    rw [normalize_of_normal openCommit.normal] at hnormalize
    obtain rfl := Except.ok.inj hnormalize
    decide +kernel
  · decide

/-- A load leaves the file of a store alone, so a commit after it is the first one. -/
private theorem pairAfter_load_commit (sha : Sha256) (goal : String) (process : Nat)
    (file : FileIdentity) (sqlite : SqliteIdentity) (c : AuthorityStoreCommit)
    (fits : c.nextProjection.Fits) (first : c.expectedProviderRevision = none) :
    (pairAfter sha goal [⟨process, file, sqlite, .load⟩, ⟨process, file, sqlite,
      .commit none c.operationId c.events c.nextProjection c.receipts fits⟩]).sqlite =
    sqliteAfter sha goal [⟨false, none, ⟨false, false, sqlite, .done⟩, c, fits⟩] := by
  obtain ⟨expected, operationId, events, nextProjection, receipts⟩ := c
  obtain rfl : expected = none := first
  simp only [pairAfter, List.foldl_cons, List.foldl_nil, StoreStep.perform, StoreStep.onSqlite,
    StorePair.empty, List.nil_append, List.map_cons, List.map_nil, issued]
  rfl

end Runs

end Loopx.Authority
