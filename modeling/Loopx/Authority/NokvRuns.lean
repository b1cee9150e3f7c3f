/- GID: Loopx/Authority/NokvRuns
   generality: I
   source: loopx/control_plane/coordination/nokv_authority_store.ts
   digest: NoKV commits settle soundly under lost responses, late writes and provider restores. -/

import Loopx.Authority.NokvEnvelope

set_option autoImplicit false
set_option relaxedAutoImplicit false

namespace Loopx.Authority

open Loopx.Lib.Fallible (bind_eq_ok)
open Loopx.Json (canonicalAuthorityBytes)

/-- The journal of an envelope that may be missing. -/
def journalIn (document : Option NokvAuthorityStoreDocument) : Journal :=
  (document.map (fun document => document.committed)).getD []

@[simp] theorem journalIn_none : journalIn none = [] := rfl

@[simp] theorem journalIn_some (document : NokvAuthorityStoreDocument) :
    journalIn (some document) = document.committed := rfl

/-- A publication extends what it was built on by its own transaction. -/
structure NokvAttempt.Built (store : NokvAuthorityStore) (attempt : NokvAttempt) : Prop where
  base : ∀ document ∈ attempt.base, document.Lawful store
  entries : attempt.document.committed = journalIn attempt.base ++ [attempt.intended]
  identity : attempt.document.storeIdentity = attempt.identity
  generation : attempt.expectedGeneration =
    attempt.base.map (fun document => document.storageGeneration)
  revision : attempt.commit.expectedProviderRevision =
    attempt.base.map (fun document => document.providerRevision)
  lawful : attempt.document.Lawful store
  body : attempt.intended.operationId = attempt.commit.operationId ∧
    attempt.intended.events = attempt.commit.events ∧
    attempt.intended.receipts = attempt.commit.receipts ∧
    attempt.intended.projection = attempt.commit.nextProjection

section Building

variable {sha : Sha256} {store : NokvAuthorityStore}

private theorem contiguous_snoc {journal : Journal} (h : Contiguous journal)
    {entry : AuthorityStoreCommittedTransaction} (hcursor : entry.cursor = (journal.length + 1).repr) :
    Contiguous (journal ++ [entry]) := by
  intro position hposition
  by_cases hlt : position < journal.length
  · rw [List.getElem_append_left hlt]
    exact h position hlt
  · have heq : position = journal.length := by
      rw [List.length_append, List.length_singleton] at hposition
      omega
    subst heq
    simpa using hcursor

/-- A lawful envelope has a transaction. -/
theorem NokvAuthorityStoreDocument.Lawful.nonempty {document : NokvAuthorityStoreDocument}
    (h : document.Lawful store) : 0 < document.committed.length := by
  have hlast := h.revision
  cases hcommitted : document.committed with
  | nil => simp [hcommitted] at hlast
  | cons entry entries => simp

private theorem parse_cursor {document : Option NokvAuthorityStoreDocument}
    (lawful : ∀ d ∈ document, d.Lawful store) {position : Nat}
    (h : parseAuthorityCursor ((document.map
      NokvAuthorityStoreDocument.toRetainedAuthorityJournal).map
        RetainedAuthorityJournal.cursor) = .ok position) :
    position = (journalIn document).length := by
  cases document with
  | none => exact (Except.ok.inj h).symm
  | some document =>
    have hlawful := lawful document rfl
    have hpos := hlawful.nonempty
    simp only [Option.map_some, hlawful.cursor] at h
    obtain ⟨n, hn⟩ : ∃ n, document.committed.length = n + 1 :=
      ⟨document.committed.length - 1, by omega⟩
    rw [hn, parseAuthorityCursor_repr] at h
    simpa [hn] using (Except.ok.inj h).symm

private theorem append_ok {document : Option NokvAuthorityStoreDocument}
    (lawful : ∀ d ∈ document, d.Lawful store) {commit : AuthorityStoreCommit}
    {revisionFor : JournalRevision} {journal : RetainedAuthorityJournal}
    (h : appendRetainedAuthorityJournal
      (document.map NokvAuthorityStoreDocument.toRetainedAuthorityJournal) commit revisionFor =
        .ok journal) :
    ∃ revision, journal = ⟨revision, ((journalIn document).length + 1).repr, commit.nextProjection,
      journalIn document ++ [⟨⟨((journalIn document).length + 1).repr, revision,
        commit.operationId, commit.events, commit.receipts⟩, commit.nextProjection⟩]⟩ := by
  obtain ⟨position, hposition, h⟩ := bind_eq_ok.mp h
  obtain rfl := parse_cursor lawful hposition
  have hentries : ((document.map NokvAuthorityStoreDocument.toRetainedAuthorityJournal).map
      RetainedAuthorityJournal.committed).getD [] = journalIn document := by
    cases document <;> rfl
  dsimp only at h
  rw [hentries] at h
  exact ⟨_, (Except.ok.inj h).symm⟩

/-- One more transaction of a new operation keeps an envelope lawful. -/
private theorem lawful_snoc {document : Option NokvAuthorityStoreDocument}
    (lawful : ∀ d ∈ document, d.Lawful store) {commit : AuthorityStoreCommit}
    (normal : commit.Normal)
    (fresh : ∀ entry ∈ journalIn document, entry.operationId ≠ commit.operationId)
    (revision identity : String) :
    NokvAuthorityStoreDocument.Lawful store ⟨⟨revision, ((journalIn document).length + 1).repr,
      commit.nextProjection, journalIn document ++ [⟨⟨((journalIn document).length + 1).repr,
        revision, commit.operationId, commit.events, commit.receipts⟩, commit.nextProjection⟩]⟩,
      store.tenantId, store.goalId, identity, (journalIn document).length + 1⟩ := by
  have hplain : ∀ entry ∈ journalIn document, entry.Plain := by
    cases document with
    | none => simp
    | some document => exact (lawful document rfl).entries
  have hcontiguous : Contiguous (journalIn document) := by
    cases document with
    | none =>
      intro position hp
      simp at hp
    | some document => exact (lawful document rfl).contiguous
  have hunique : ((journalIn document).map (fun entry => entry.operationId)).Nodup := by
    cases document with
    | none => simp
    | some document => exact (lawful document rfl).unique
  constructor
  · rfl
  · rfl
  · intro entry hentry
    rcases List.mem_append.mp hentry with hentry | hentry
    · exact hplain entry hentry
    · rw [List.mem_singleton.mp hentry]
      exact ⟨normal.events, normal.nextProjection, normal.receipts⟩
  · simp
  · simp
  · exact contiguous_snoc hcontiguous rfl
  · rw [List.map_append]
    refine hunique.append (by simp) ?_
    intro operation hmem hnew
    obtain ⟨entry, hentry, rfl⟩ := List.mem_map.mp hmem
    exact fresh entry hentry (by simpa using hnew)
  · simp
  · exact normal.nextProjection

/-- What a commit that goes on to publish has built. -/
theorem built_of_startCommit {commit : AuthorityStoreCommit} (normal : commit.Normal)
    {identity : String} {document : Option NokvAuthorityStoreDocument}
    (lawful : ∀ d ∈ document, d.Lawful store) {attempt : NokvAttempt}
    (h : startCommit sha store commit identity
      (document.map (fun document => document.storageGeneration)) document = .publish attempt) :
    attempt.Built store ∧ attempt.identity = identity ∧ attempt.base = document := by
  simp only [startCommit] at h
  split at h
  · simp at h
  rename_i hrevision
  split at h
  · simp at h
  rename_i hfresh
  split at h
  · simp at h
  rename_i journal happend
  obtain ⟨revision, rfl⟩ := append_ok lawful happend
  simp only [List.getLast?_append, List.getLast?_singleton, Option.some_or] at h
  split at h
  · simp at h
  obtain rfl := CommitStart.publish.inj h
  have hlength : (document.map (fun document => document.storageGeneration)).getD 0 =
      (journalIn document).length := by
    cases document with
    | none => rfl
    | some document => exact (lawful document rfl).generation
  have hnew : ∀ entry ∈ journalIn document, entry.operationId ≠ commit.operationId := by
    cases document with
    | none => simp
    | some document => simpa using hfresh
  refine ⟨⟨lawful, rfl, rfl, rfl, (not_not.mp hrevision).symm, ?_, rfl, rfl, rfl, rfl⟩, rfl, rfl⟩
  rw [hlength]
  exact lawful_snoc lawful normal hnew revision identity

end Building

section Invariant

variable (sha : Sha256) (store : NokvAuthorityStore)

/-- What the provider holds: restored foreign bytes, nothing, or an envelope of its own. -/
def NokvProvider.Held (provider : NokvProvider) :
    Option (Option NokvAuthorityStoreDocument) → Prop
  | none => ∃ blob, provider.blob = some blob ∧
      isForeign (storeIdentityOf store.workbench provider.incarnation) blob = true
  | some none => provider.blob = none
  | some (some document) =>
      provider.blob = some ⟨document.storageGeneration, document.bytes⟩ ∧
      document.Lawful store ∧
      document.storeIdentity = storeIdentityOf store.workbench provider.incarnation

/-- The held journal starts with the given one. -/
def Covers (held : Option (Option NokvAuthorityStoreDocument)) (journal : Journal) : Prop :=
  ∃ document, held = some document ∧ journal <+: journalIn document

/-- A publication made in an incarnation on what was read there. -/
structure Sent (provider : NokvProvider) (held : Option (Option NokvAuthorityStoreDocument))
    (incarnation : String) (attempt : NokvAttempt) : Prop where
  built : attempt.Built store
  identity : attempt.identity = storeIdentityOf store.workbench incarnation
  known : incarnation ∈ provider.incarnation :: provider.retired
  base : incarnation = provider.incarnation → Covers held (journalIn attempt.base)

/-- A write that the provider can admit no more, and did not admit in this incarnation. -/
def Dead (s : NokvWorld) (held : Option (Option NokvAuthorityStoreDocument)) (id : Nat) : Prop :=
  ∃ write, s.pending[id]? = some write ∧
    (write.incarnation ∈ s.provider.retired ∨
      ∃ document, held = some document ∧
        (journalIn write.attempt.base).length < (journalIn document).length ∧
        ¬write.attempt.document.committed <+: journalIn document)

def ClientSound (s : NokvWorld) (held : Option (Option NokvAuthorityStoreDocument)) :
    NokvClient → Prop
  | .idle => True
  | .locating commit => commit.Normal
  | .reading commit identity => commit.Normal ∧
      ∃ incarnation ∈ s.provider.incarnation :: s.provider.retired,
        identity = storeIdentityOf store.workbench incarnation
  | .publishing attempt => ∃ incarnation, Sent store s.provider held incarnation attempt
  | .waiting id attempt => ∃ write, s.pending[id]? = some write ∧ write.attempt = attempt
  | .relocating id attempt fallback => (∃ code text, fallback = .ambiguous code text) ∧
      ∃ write, s.pending[id]? = some write ∧ write.attempt = attempt
  | .rereading id attempt fallback identity => (∃ code text, fallback = .ambiguous code text) ∧
      ∃ write, s.pending[id]? = some write ∧ write.attempt = attempt ∧
        (write.incarnation = s.provider.incarnation →
          identity = storeIdentityOf store.workbench s.provider.incarnation)

/-- The transaction of an answered write, as the provider held it at the answer. -/
structure Readback (answer : NokvAnswer) (revision cursor : String)
    (document : NokvAuthorityStoreDocument) : Prop where
  decoded : ∃ identity generation, answer.identity = some identity ∧
    decodeEnvelope sha store identity answer.provider.blob = .loaded identity generation document
  entry : ∃ id attempt position, answer.write = some (id, attempt) ∧
    document.committed[position]? = some attempt.intended ∧
    cursor = (position + 1).repr ∧ attempt.intended.cursor = cursor ∧
    attempt.intended.providerRevision = revision ∧
    attempt.intended.operationId = attempt.commit.operationId ∧
    attempt.intended.events = attempt.commit.events ∧
    attempt.intended.receipts = attempt.commit.receipts ∧
    attempt.intended.projection = attempt.commit.nextProjection

structure AnswerSound (s : NokvWorld) (held : Option (Option NokvAuthorityStoreDocument))
    (answer : NokvAnswer) : Prop where
  known : answer.provider.incarnation ∈ s.provider.incarnation :: s.provider.retired
  retired : answer.provider.retired ⊆ s.provider.retired
  applied : ∀ revision cursor, answer.result = .applied revision cursor →
    ∃ document, Readback sha store answer revision cursor document ∧
      (s.provider.incarnation = answer.provider.incarnation →
        Covers held document.committed ∨ held = none ∧ s.provider.blob = answer.provider.blob)
  conflict : ∀ id attempt reason revision cursor, answer.write = some (id, attempt) →
    answer.result = .conflict reason revision cursor →
      Dead s held id ∧ ∀ incarnation, (id, incarnation) ∈ s.taken →
        incarnation ∈ answer.provider.retired

structure NokvWorld.Sound (s : NokvWorld) (held : Option (Option NokvAuthorityStoreDocument)) :
    Prop where
  fresh : s.provider.incarnation ∉ s.provider.retired
  holds : s.provider.Held store held
  pending : ∀ (id : Nat) (write : PendingWrite), s.pending[id]? = some write →
    write.id = id ∧ Sent store s.provider held write.incarnation write.attempt
  clients : ∀ client, ClientSound store s held (s.clients client)
  taken : ∀ id incarnation, (id, incarnation) ∈ s.taken →
    ∃ write, s.pending[id]? = some write ∧ write.incarnation = incarnation ∧
      (incarnation = s.provider.incarnation → Covers held write.attempt.document.committed)
  answers : ∀ answer ∈ s.answers, AnswerSound sha store s held answer

end Invariant

section Steps

variable {sha : Sha256} {store : NokvAuthorityStore} {s : NokvWorld}
  {held : Option (Option NokvAuthorityStoreDocument)}

theorem sound_newNokv (incarnation : String) :
    (newNokv incarnation).Sound sha store (some none) where
  fresh := by simp [newNokv]
  holds := rfl
  pending := by simp [newNokv]
  clients := fun _ => trivial
  taken := by simp [newNokv]
  answers := by simp [newNokv]

private theorem getElem?_of_prefix {α : Type} {l l' : List α} (h : l <+: l') {i : Nat} {a : α}
    (ha : l[i]? = some a) : l'[i]? = some a := by
  obtain ⟨rest, rfl⟩ := h
  obtain ⟨hlt, -⟩ := List.getElem?_eq_some_iff.mp ha
  rw [List.getElem?_append_left hlt, ha]

/-- Writes that are sent later change nothing about an answer. -/
private theorem answerSound_of_sent {s' : NokvWorld} {answer : NokvAnswer}
    (h : AnswerSound sha store s held answer) (provider : s'.provider = s.provider)
    (pending : s.pending <+: s'.pending) (taken : s'.taken = s.taken) :
    AnswerSound sha store s' held answer where
  known := by
    rw [provider]
    exact h.known
  retired := by
    rw [provider]
    exact h.retired
  applied := by
    rw [provider]
    exact h.applied
  conflict := by
    intro id attempt reason revision cursor hwrite hresult
    obtain ⟨⟨write, hpending, hdead⟩, htaken⟩ :=
      h.conflict id attempt reason revision cursor hwrite hresult
    rw [taken]
    refine ⟨⟨write, getElem?_of_prefix pending hpending, ?_⟩, htaken⟩
    rw [provider]
    exact hdead

private theorem sound_move (h : s.Sound sha store held) (client : Nat) {point : NokvClient}
    (hpoint : ClientSound store s held point) : (s.move client point).Sound sha store held where
  fresh := h.fresh
  holds := h.holds
  pending := h.pending
  clients := by
    intro other
    by_cases hsame : other = client
    · subst hsame
      simp only [NokvWorld.move, Function.update_self]
      exact hpoint
    · simp only [NokvWorld.move, Function.update_of_ne hsame]
      exact h.clients other
  taken := h.taken
  answers := fun answer hanswer =>
    answerSound_of_sent (h.answers answer hanswer) rfl (List.prefix_refl _) rfl

private theorem sound_answer (h : s.Sound sha store held) (client : Nat)
    {write : Option (Nat × NokvAttempt)} {identity : Option String}
    {result : AuthorityStoreCommitResult}
    (hanswer : AnswerSound sha store s held ⟨write, result, identity, s.provider⟩) :
    (s.answer client write identity result).Sound sha store held where
  fresh := h.fresh
  holds := h.holds
  pending := h.pending
  clients := (@sound_move _ _ _ _ h client .idle trivial).clients
  taken := h.taken
  answers := by
    intro answer hmem
    rcases List.mem_append.mp hmem with hmem | hmem
    · exact answerSound_of_sent (h.answers answer hmem) rfl (List.prefix_refl _) rfl
    · rw [List.mem_singleton.mp hmem]
      exact answerSound_of_sent hanswer rfl (List.prefix_refl _) rfl

/-- An answer that settles nothing about the write. -/
private theorem answerSound_of_open (write : Option (Nat × NokvAttempt)) (identity : Option String)
    {result : AuthorityStoreCommitResult} (notApplied : ∀ revision cursor,
      result ≠ .applied revision cursor)
    (notConflict : write = none ∨ ∀ reason revision cursor, result ≠ .conflict reason revision cursor) :
    AnswerSound sha store s held ⟨write, result, identity, s.provider⟩ where
  known := List.mem_cons_self
  retired := List.Subset.refl _
  applied := fun revision cursor hresult => absurd hresult (notApplied revision cursor)
  conflict := by
    intro id attempt reason revision cursor hwrite hresult
    rcases notConflict with hnone | hnot
    · simp [hnone] at hwrite
    · exact absurd hresult (hnot reason revision cursor)

/-- Reading under the provider's own identity finds what it holds. -/
private theorem held_of_loaded (holds : s.provider.Held store held) {identity' : String}
    {generation : Nat} {document : NokvAuthorityStoreDocument}
    (h : decodeEnvelope sha store (storeIdentityOf store.workbench s.provider.incarnation)
      s.provider.blob = .loaded identity' generation document) :
    held = some (some document) := by
  rcases held with _ | _ | own
  · obtain ⟨blob, hblob, hforeign⟩ := holds
    rw [hblob] at h
    exact absurd h (not_loaded_of_isForeign hforeign)
  · have hblob : s.provider.blob = none := holds
    simp [hblob, decodeEnvelope] at h
  · obtain ⟨hblob, hlawful, -⟩ := holds
    rw [hblob] at h
    rw [document_of_decodeEnvelope hlawful h]

private theorem held_of_missing (holds : s.provider.Held store held) {identity identity' : String}
    (h : decodeEnvelope sha store identity s.provider.blob = .missing identity') :
    identity' = identity ∧ held = some none := by
  have hblob : s.provider.blob = none := by
    cases hblob : s.provider.blob with
    | none => rfl
    | some blob =>
      rw [hblob] at h
      simp only [decodeEnvelope] at h
      repeat' split at h
      all_goals simp at h
  rw [hblob] at h
  refine ⟨(EnvelopeReadResult.missing.inj h).symm, ?_⟩
  rcases held with _ | _ | own
  · obtain ⟨blob, hsome, -⟩ := holds
    simp [hblob] at hsome
  · rfl
  · obtain ⟨hsome, -⟩ := holds
    simp [hblob] at hsome

theorem startCommit_answer {commit : AuthorityStoreCommit} {identity : String}
    {generation : Option Nat} {document : Option NokvAuthorityStoreDocument}
    {result : AuthorityStoreCommitResult}
    (h : startCommit sha store commit identity generation document = .answer result)
    (revision cursor : String) : result ≠ .applied revision cursor := by
  rintro rfl
  simp only [startCommit] at h
  repeat' split at h
  all_goals simp at h

private theorem sound_readEnvelope (h : s.Sound sha store held) (client : Nat)
    {commit : AuthorityStoreCommit} {identity : String} (normal : commit.Normal)
    (hknown : ∃ incarnation ∈ s.provider.incarnation :: s.provider.retired,
      identity = storeIdentityOf store.workbench incarnation)
    (document : Option NokvAuthorityStoreDocument) (lawful : ∀ d ∈ document, d.Lawful store)
    (hheld : identity = storeIdentityOf store.workbench s.provider.incarnation →
      held = some document) :
    NokvWorld.Sound sha store
      (match startCommit sha store commit identity
          (document.map (fun document => document.storageGeneration)) document with
        | .answer result => s.answer client none (some identity) result
        | .publish attempt => s.move client (.publishing attempt)
        | .throws _ => s.move client .idle) held := by
  split
  · rename_i result hresult
    exact sound_answer h client (answerSound_of_open none _ (startCommit_answer hresult) (.inl rfl))
  · rename_i attempt hattempt
    obtain ⟨hbuilt, hidentity, hbase⟩ := built_of_startCommit normal lawful hattempt
    obtain ⟨incarnation, hmem, hown⟩ := hknown
    refine sound_move h client ⟨incarnation, hbuilt, hidentity.trans hown, hmem, ?_⟩
    rintro rfl
    rw [hbase]
    exact ⟨document, hheld hown, List.prefix_refl _⟩
  · exact sound_move h client trivial

private theorem find?_of_mem {journal : Journal}
    (unique : (journal.map (fun entry => entry.operationId)).Nodup)
    {entry : AuthorityStoreCommittedTransaction} (hmem : entry ∈ journal) {operation : String}
    (hoperation : entry.operationId = operation) :
    journal.find? (fun entry => entry.operationId = operation) = some entry := by
  subst hoperation
  induction journal with
  | nil => simp at hmem
  | cons first rest ih =>
    rw [List.map_cons, List.nodup_cons] at unique
    rcases List.mem_cons.mp hmem with rfl | hmem
    · simp
    · have hne : first.operationId ≠ entry.operationId :=
        fun heq => unique.1 (heq ▸ List.mem_map_of_mem hmem)
      rw [List.find?_cons_of_neg (by simpa using hne)]
      exact ih unique.2 hmem

/-- An envelope of the base's length is the base. -/
private theorem revision_of_length {base : Option NokvAuthorityStoreDocument}
    {document : NokvAuthorityStoreDocument} (lawful : document.Lawful store)
    (hbase : ∀ d ∈ base, d.Lawful store) (hstarts : journalIn base <+: document.committed)
    (hlength : document.committed.length ≤ (journalIn base).length) :
    base.map (fun document => document.providerRevision) = some document.providerRevision := by
  have hsame : journalIn base = document.committed :=
    hstarts.eq_of_length (le_antisymm hstarts.length_le hlength)
  cases base with
  | none =>
    have hpos := lawful.nonempty
    rw [← hsame] at hpos
    simp at hpos
  | some base =>
    rw [journalIn_some] at hsame
    rw [Option.map_some, ← lawful.revision, ← (hbase base rfl).revision, hsame]

/-- A conflict settled by readback in the incarnation of the write leaves it dead. -/
private theorem dead_of_conflict {attempt : NokvAttempt} (built : attempt.Built store)
    {document : NokvAuthorityStoreDocument} (lawful : document.Lawful store)
    (hbase : journalIn attempt.base <+: document.committed)
    {fallback : AuthorityStoreCommitResult} {identity : String} {generation : Nat}
    {reason : ConflictKind} {revision cursor : Option String}
    (unsettled : ∃ code text, fallback = .ambiguous code text)
    (h : settleCommitFromReadback attempt fallback (.loaded identity generation document) =
      .conflict reason revision cursor) :
    (journalIn attempt.base).length < document.committed.length ∧
      ¬attempt.document.committed <+: document.committed := by
  have hfresh : ∀ entry ∈ journalIn attempt.base,
      entry.operationId ≠ attempt.intended.operationId := by
    have hunique := built.lawful.unique
    rw [built.entries, List.map_append, List.nodup_append] at hunique
    intro entry hentry
    exact hunique.2.2 _ (List.mem_map_of_mem hentry) _ (by simp)
  have hintended : attempt.document.committed <+: document.committed →
      document.committed.find? (fun entry => entry.operationId = attempt.intended.operationId) =
        some attempt.intended := by
    intro hstarts
    refine find?_of_mem lawful.unique (hstarts.subset ?_) rfl
    rw [built.entries]
    simp
  have hlong : document.committed.length ≤ (journalIn attempt.base).length →
      document.committed = journalIn attempt.base := by
    intro hle
    exact (hbase.eq_of_length (le_antisymm hbase.length_le hle)).symm
  simp only [settleCommitFromReadback] at h
  split at h
  · rename_i same hsame
    split at h
    · simp at h
    rename_i hdiffer
    refine ⟨?_, ?_⟩
    · by_contra hshort
      have hmem := List.mem_of_find?_eq_some hsame
      have hoperation := List.find?_some hsame
      rw [hlong (by omega)] at hmem
      exact hfresh same hmem (by simpa using hoperation)
    · intro hstarts
      rw [hintended hstarts] at hsame
      exact hdiffer (by rw [Option.some.inj hsame])
  · rename_i habsent
    split at h
    · rename_i hrevision
      refine ⟨?_, ?_⟩
      · by_contra hshort
        refine hrevision ?_
        rw [built.revision, revision_of_length lawful built.base hbase (by omega)]
      · intro hstarts
        rw [hintended hstarts] at habsent
        simp at habsent
    · obtain ⟨code, text, rfl⟩ := unsettled
      simp at h

private theorem readback_of_applied {attempt : NokvAttempt} (built : attempt.Built store)
    {id : Nat} {fallback : AuthorityStoreCommitResult} {identity : String}
    {provider : NokvProvider} {read : EnvelopeReadResult} {revision cursor : String}
    (unsettled : ∃ code text, fallback = .ambiguous code text)
    (decoded : ∀ identity' generation document, read = .loaded identity' generation document →
      decodeEnvelope sha store identity provider.blob = .loaded identity generation document)
    (h : settleCommitFromReadback attempt fallback read = .applied revision cursor) :
    ∃ document, Readback sha store
      ⟨some (id, attempt), settleCommitFromReadback attempt fallback read, some identity, provider⟩
      revision cursor document := by
  obtain ⟨code, text, rfl⟩ := unsettled
  cases read with
  | failure failure => cases failure <;> simp [settleCommitFromReadback] at h
  | missing identity => simp [settleCommitFromReadback] at h
  | loaded identity' generation document =>
    have hdecoded := decoded identity' generation document rfl
    obtain ⟨-, hlawful, -⟩ := lawful_of_decodeEnvelope hdecoded
    simp only [settleCommitFromReadback] at h
    split at h
    · rename_i same hsame
      split at h
      · rename_i hbytes
        obtain ⟨rfl, rfl⟩ := AuthorityStoreCommitResult.applied.inj h
        have hmem := List.mem_of_find?_eq_some hsame
        obtain rfl : same = attempt.intended :=
          transaction_eq_of_bytes (hlawful.entries same hmem)
            (built.lawful.entries attempt.intended (by simp [built.entries])) hbytes
        obtain ⟨position, hposition, hget⟩ := List.getElem_of_mem hmem
        refine ⟨document, ⟨identity, generation, rfl, hdecoded⟩, id, attempt, position, rfl, ?_,
          ?_, rfl, rfl, built.body⟩
        · rw [List.getElem?_eq_getElem hposition, hget]
        · rw [← hget]
          exact hlawful.contiguous position hposition
      · simp at h
    · split at h
      · simp at h
      · simp at h

/-- What readback says of a write is what the provider holds. -/
private theorem sound_reread (h : s.Sound sha store held) {client id : Nat} {attempt : NokvAttempt}
    {fallback : AuthorityStoreCommitResult} {identity : String} {read : EnvelopeReadResult}
    (hclient : ClientSound store s held (.rereading id attempt fallback identity))
    (decoded : ∀ identity' generation document, read = .loaded identity' generation document →
      decodeEnvelope sha store identity s.provider.blob = .loaded identity generation document) :
    (s.answer client (some (id, attempt)) (some identity)
      (settleCommitFromReadback attempt fallback read)).Sound sha store held := by
  obtain ⟨unsettled, write, hwrite, rfl, hcurrent⟩ := hclient
  obtain ⟨-, hsent⟩ := h.pending id write hwrite
  refine sound_answer h client ⟨List.mem_cons_self, List.Subset.refl _, ?_, ?_⟩
  · intro revision cursor hresult
    obtain ⟨document, hreadback⟩ := readback_of_applied hsent.built unsettled decoded hresult
    refine ⟨document, hreadback, ?_⟩
    intro _
    obtain ⟨identity', generation, hidentity, hload⟩ := hreadback.decoded
    rcases hheld : held with _ | _ | own
    · exact .inr ⟨rfl, rfl⟩
    · have hblob : s.provider.blob = none := by
        have hholds := h.holds
        rwa [hheld] at hholds
      simp [hblob, decodeEnvelope] at hload
    · have hholds := h.holds
      rw [hheld] at hholds
      obtain ⟨hblob, hlawful, -⟩ := hholds
      rw [hblob] at hload
      refine .inl ⟨some own, rfl, ?_⟩
      rw [document_of_decodeEnvelope hlawful hload]
      exact List.prefix_refl _
  · intro id' attempt' reason revision cursor hsame hresult
    obtain ⟨rfl, rfl⟩ := Prod.mk.inj (Option.some.inj hsame)
    dsimp only at hresult
    have hdead : write.incarnation ∈ s.provider.retired ∨
        ∃ document, held = some document ∧
          (journalIn write.attempt.base).length < (journalIn document).length ∧
          ¬write.attempt.document.committed <+: journalIn document := by
      by_cases hnow : write.incarnation = s.provider.incarnation
      · right
        obtain ⟨code, text, rfl⟩ := unsettled
        cases read with
        | failure failure => cases failure <;> simp [settleCommitFromReadback] at hresult
        | missing identity => simp [settleCommitFromReadback] at hresult
        | loaded identity' generation document =>
          have hload := decoded identity' generation document rfl
          rw [hcurrent hnow] at hload
          have hheld := held_of_loaded h.holds hload
          obtain ⟨base, hbase, hstarts⟩ := hsent.base hnow
          obtain rfl : some document = base := Option.some.inj (hheld.symm.trans hbase)
          exact ⟨some document, hheld, dead_of_conflict hsent.built
            (lawful_of_decodeEnvelope hload).2.1 hstarts ⟨code, text, rfl⟩ hresult⟩
      · left
        rcases List.mem_cons.mp hsent.known with hsame | hretired
        · exact absurd hsame hnow
        · exact hretired
    refine ⟨⟨write, hwrite, hdead⟩, ?_⟩
    intro incarnation htaken
    obtain ⟨write', hwrite', rfl, hcovers⟩ := h.taken id incarnation htaken
    obtain rfl : write = write' := Option.some.inj (hwrite.symm.trans hwrite')
    rcases hdead with hretired | ⟨document, hheld, -, hnot⟩
    · exact hretired
    · by_cases hnow : write.incarnation = s.provider.incarnation
      · obtain ⟨document', hheld', hstarts⟩ := hcovers hnow
        obtain rfl : document = document' := Option.some.inj (hheld.symm.trans hheld')
        exact absurd hstarts hnot
      · rcases List.mem_cons.mp hsent.known with hsame | hretired
        · exact absurd hsame hnow
        · exact hretired

private theorem sound_readStep (h : s.Sound sha store held) (client : Nat)
    (failure : Option AuthorityStoreReadFailure) :
    (readStep sha store s client failure).Sound sha store held := by
  have hclient := h.clients client
  cases hpoint : s.clients client with
  | reading commit identity =>
    rw [hpoint] at hclient
    obtain ⟨normal, hknown⟩ := hclient
    simp only [readStep, hpoint]
    cases failure with
    | some failure =>
      cases failure <;>
        exact sound_answer h client (answerSound_of_open none _ (by simp [readFailureResult])
          (.inl rfl))
    | none =>
      dsimp only
      cases hread : decodeEnvelope sha store identity s.provider.blob with
      | failure failure =>
        cases failure <;>
          exact sound_answer h client (answerSound_of_open none _ (by simp [readFailureResult])
            (.inl rfl))
      | missing identity' =>
        obtain ⟨rfl, hheld⟩ := held_of_missing h.holds hread
        exact sound_readEnvelope h client normal hknown none (by simp) (fun _ => hheld)
      | loaded identity' generation document =>
        obtain ⟨rfl, hlawful, -, hgeneration, -⟩ := lawful_of_decodeEnvelope hread
        subst hgeneration
        refine sound_readEnvelope h client normal hknown (some document) (by simpa using hlawful) ?_
        rintro rfl
        exact held_of_loaded h.holds hread
  | rereading id attempt fallback identity =>
    rw [hpoint] at hclient
    simp only [readStep, hpoint]
    refine sound_reread h hclient ?_
    intro identity' generation document hread
    cases failure with
    | some failure => simp at hread
    | none =>
      obtain rfl := (loaded_of_decodeEnvelope hread).1
      exact hread
  | _ => simpa only [readStep, hpoint] using h

private theorem sound_locateStep (h : s.Sound sha store held) (client : Nat)
    (failure : Option AuthorityStoreReadFailure) :
    (locateStep store s client failure).Sound sha store held := by
  have located : ∀ identity, (failure.elim
      (admitIdentity store (storeIdentityOf store.workbench s.provider.incarnation))
      Except.error) = .ok identity →
        identity = storeIdentityOf store.workbench s.provider.incarnation := by
    intro identity hlocated
    cases failure with
    | some failure => simp at hlocated
    | none =>
      simp only [Option.elim_none, admitIdentity] at hlocated
      split at hlocated
      · exact (Except.ok.inj hlocated).symm
      · simp at hlocated
  have hclient := h.clients client
  cases hpoint : s.clients client with
  | locating commit =>
    rw [hpoint] at hclient
    simp only [locateStep, hpoint]
    split
    · rename_i identity hidentity
      refine sound_move h client ⟨hclient, s.provider.incarnation, List.mem_cons_self, ?_⟩
      exact located identity (by rw [← hidentity]; cases failure <;> rfl)
    · rename_i error herror
      refine sound_answer h client (answerSound_of_open none none ?_ (.inl rfl))
      cases error <;> simp [readFailureResult]
  | relocating id attempt fallback =>
    rw [hpoint] at hclient
    obtain ⟨unsettled, write, hwrite, hattempt⟩ := hclient
    simp only [locateStep, hpoint]
    split
    · rename_i identity hidentity
      refine sound_move h client ⟨unsettled, write, hwrite, hattempt, ?_⟩
      intro _
      exact located identity (by rw [← hidentity]; cases failure <;> rfl)
    · rename_i error herror
      obtain ⟨code, text, rfl⟩ := unsettled
      refine sound_answer h client (answerSound_of_open _ none ?_ (.inr ?_)) <;>
        cases error <;> simp [settleCommitFromReadback]
  | _ => simpa only [locateStep, hpoint] using h

private theorem sound_publish (h : s.Sound sha store held) {client : Nat} {attempt : NokvAttempt}
    (hclient : ClientSound store s held (.publishing attempt)) :
    NokvWorld.Sound sha store
      { s.move client (.waiting s.pending.length attempt) with
        pending := s.pending ++
          [⟨s.pending.length, boundIncarnation attempt.identity store.workbench, attempt⟩] }
      held := by
  obtain ⟨incarnation, hsent⟩ := hclient
  have hbound : boundIncarnation attempt.identity store.workbench = incarnation := by
    rw [hsent.identity, boundIncarnation_storeIdentityOf]
  rw [hbound]
  have hgrow : s.pending <+: s.pending ++ [⟨s.pending.length, incarnation, attempt⟩] :=
    List.prefix_append _ _
  constructor
  · exact h.fresh
  · exact h.holds
  · intro id write hwrite
    by_cases hold : id < s.pending.length
    · rw [List.getElem?_append_left hold] at hwrite
      exact h.pending id write hwrite
    · rw [List.getElem?_append_right (by omega)] at hwrite
      obtain ⟨hzero, hsame⟩ := List.getElem?_eq_some_iff.mp hwrite
      have hid : id = s.pending.length := by
        rw [List.length_singleton] at hzero
        omega
      subst hid
      simp only [Nat.sub_self, List.getElem_cons_zero] at hsame
      subst hsame
      exact ⟨rfl, hsent⟩
  · intro other
    by_cases hother : other = client
    · subst hother
      simp only [NokvWorld.move, Function.update_self]
      exact ⟨⟨s.pending.length, incarnation, attempt⟩, by simp, rfl⟩
    · simp only [NokvWorld.move, Function.update_of_ne hother]
      have hothers := h.clients other
      cases hpoint : s.clients other with
      | idle => trivial
      | locating commit => rwa [hpoint] at hothers
      | reading commit identity => rwa [hpoint] at hothers
      | publishing attempt => rwa [hpoint] at hothers
      | waiting id attempt =>
        rw [hpoint] at hothers
        obtain ⟨write, hwrite, hattempt⟩ := hothers
        exact ⟨write, getElem?_of_prefix hgrow hwrite, hattempt⟩
      | relocating id attempt fallback =>
        rw [hpoint] at hothers
        obtain ⟨unsettled, write, hwrite, hattempt⟩ := hothers
        exact ⟨unsettled, write, getElem?_of_prefix hgrow hwrite, hattempt⟩
      | rereading id attempt fallback identity =>
        rw [hpoint] at hothers
        obtain ⟨unsettled, write, hwrite, hattempt⟩ := hothers
        exact ⟨unsettled, write, getElem?_of_prefix hgrow hwrite, hattempt⟩
  · intro id inc htaken
    obtain ⟨write, hwrite, hrest⟩ := h.taken id inc htaken
    exact ⟨write, getElem?_of_prefix hgrow hwrite, hrest⟩
  · intro answer hanswer
    exact answerSound_of_sent (h.answers answer hanswer) rfl hgrow rfl

/-- The generation a write expects is the length of what it was built on. -/
private theorem base_of_admits (h : s.Sound sha store held) {id : Nat} {write : PendingWrite}
    (hwrite : s.pending[id]? = some write) (admits : s.provider.admits write = true) :
    write.incarnation = s.provider.incarnation ∧
      ∃ document, held = some document ∧ journalIn document = journalIn write.attempt.base ∧
        (s.provider.blob.map NokvBlob.generation).getD 0 = (journalIn document).length := by
  obtain ⟨-, hsent⟩ := h.pending id write hwrite
  simp only [NokvProvider.admits, Bool.and_eq_true, decide_eq_true_eq] at admits
  obtain ⟨hnow, hgeneration⟩ := admits
  obtain ⟨document, hheld, hstarts⟩ := hsent.base hnow
  have hholds := h.holds
  rw [hheld] at hholds
  have hblob : (s.provider.blob.map NokvBlob.generation).getD 0 = (journalIn document).length := by
    cases document with
    | none =>
      rw [show s.provider.blob = none from hholds]
      rfl
    | some document =>
      rw [hholds.1]
      exact hholds.2.1.generation
  have hbase : write.attempt.expectedGeneration.getD 0 = (journalIn write.attempt.base).length := by
    rw [hsent.built.generation]
    cases hbase : write.attempt.base with
    | none => rfl
    | some base => exact (hsent.built.base base hbase).generation
  have hlength : (journalIn write.attempt.base).length = (journalIn document).length := by
    rw [← hbase, ← hblob, hgeneration]
  exact ⟨hnow, document, hheld, (hstarts.eq_of_length hlength).symm, hblob⟩

private theorem covers_snoc {document document' : Option NokvAuthorityStoreDocument}
    {journal : Journal} (h : Covers (some document) journal)
    (grows : journalIn document <+: journalIn document') : Covers (some document') journal := by
  obtain ⟨own, hown, hstarts⟩ := h
  obtain rfl := Option.some.inj hown
  exact ⟨document', rfl, hstarts.trans grows⟩

private theorem sound_deliver (h : s.Sound sha store held) {id : Nat} {write : PendingWrite}
    (hwrite : s.pending[id]? = some write) (admits : s.provider.admits write = true) :
    NokvWorld.Sound sha store
      { s with
        provider := { s.provider with
          blob := some ⟨(s.provider.blob.map NokvBlob.generation).getD 0 + 1,
            write.attempt.document.bytes⟩ }
        taken := s.taken ++ [(write.id, write.incarnation)] }
      (some (some write.attempt.document)) := by
  obtain ⟨hid, hsent⟩ := h.pending id write hwrite
  obtain ⟨hnow, document, rfl, hbase, hgeneration⟩ := base_of_admits h hwrite admits
  have hentries : write.attempt.document.committed =
      journalIn document ++ [write.attempt.intended] := by
    rw [hsent.built.entries, hbase]
  have hgrows : journalIn document <+: journalIn (some write.attempt.document) := by
    rw [journalIn_some, hentries]
    exact List.prefix_append _ _
  have hsentMono : ∀ {inc attempt}, Sent store s.provider (some document) inc attempt →
      Sent store { s.provider with
        blob := some ⟨(s.provider.blob.map NokvBlob.generation).getD 0 + 1,
          write.attempt.document.bytes⟩ } (some (some write.attempt.document)) inc attempt := by
    intro inc attempt hold
    exact ⟨hold.built, hold.identity, hold.known, fun hcurrent =>
      covers_snoc (hold.base hcurrent) hgrows⟩
  constructor
  · exact h.fresh
  · refine ⟨?_, hsent.built.lawful, ?_⟩
    · have hlength : write.attempt.document.storageGeneration = (journalIn document).length + 1 := by
        rw [hsent.built.lawful.generation, hentries, List.length_append, List.length_singleton]
      rw [hlength, hgeneration]
    · rw [hsent.built.identity, hsent.identity, hnow]
  · intro other pending hpending
    obtain ⟨hother, hold⟩ := h.pending other pending hpending
    exact ⟨hother, hsentMono hold⟩
  · intro client
    have hclient := h.clients client
    cases hpoint : s.clients client with
    | publishing attempt =>
      rw [hpoint] at hclient
      obtain ⟨inc, hold⟩ := hclient
      exact ⟨inc, hsentMono hold⟩
    | _ => rwa [hpoint] at hclient
  · intro other inc htaken
    rcases List.mem_append.mp htaken with htaken | htaken
    · obtain ⟨pending, hpending, hinc, hcovers⟩ := h.taken other inc htaken
      exact ⟨pending, hpending, hinc, fun hcurrent => covers_snoc (hcovers hcurrent) hgrows⟩
    · obtain ⟨rfl, rfl⟩ := Prod.mk.inj (List.mem_singleton.mp htaken)
      rw [hid]
      exact ⟨write, hwrite, rfl, fun _ => ⟨_, rfl, List.prefix_refl _⟩⟩
  · intro answer hanswer
    have hsound := h.answers answer hanswer
    refine ⟨hsound.known, hsound.retired, ?_, ?_⟩
    · intro revision cursor hresult
      obtain ⟨read, hreadback, hdurable⟩ := hsound.applied revision cursor hresult
      refine ⟨read, hreadback, ?_⟩
      intro hcurrent
      rcases hdurable hcurrent with hcovers | ⟨hforeign, -⟩
      · exact .inl (covers_snoc hcovers hgrows)
      · simp at hforeign
    · intro other attempt reason revision cursor hother hresult
      obtain ⟨⟨pending, hpending, hdead⟩, htaken⟩ :=
        hsound.conflict other attempt reason revision cursor hother hresult
      refine ⟨⟨pending, hpending, ?_⟩, ?_⟩
      · rcases hdead with hretired | ⟨own, hown, hshort, hnot⟩
        · exact .inl hretired
        · obtain rfl := Option.some.inj hown
          obtain ⟨-, hold⟩ := h.pending other pending hpending
          refine .inr ⟨_, rfl, hshort.trans_le hgrows.length_le, ?_⟩
          intro hstarts
          refine hnot (List.prefix_of_prefix_length_le hstarts hgrows ?_)
          rw [hold.built.entries, List.length_append, List.length_singleton]
          omega
      · intro inc hinc
        rcases List.mem_append.mp hinc with hinc | hinc
        · exact htaken inc hinc
        · -- a dead write is not admitted
          obtain ⟨rfl, rfl⟩ := Prod.mk.inj (List.mem_singleton.mp hinc)
          rw [hid] at hpending
          obtain rfl : write = pending := Option.some.inj (hwrite.symm.trans hpending)
          rcases hdead with hretired | ⟨own, hown, hshort, -⟩
          · rw [hnow] at hretired
            exact absurd hretired h.fresh
          · obtain rfl := Option.some.inj hown
            rw [hbase] at hshort
            exact absurd hshort (lt_irrefl _)

private theorem sound_restore (h : s.Sound sha store held) {incarnation : String}
    {blob : Option NokvBlob} (hnew : incarnation ≠ s.provider.incarnation)
    (hfresh : incarnation ∉ s.provider.retired)
    (hforeign : blob.all (isForeign (storeIdentityOf store.workbench incarnation)) = true) :
    ∃ held', NokvWorld.Sound sha store
      { s with
        provider := ⟨incarnation, s.provider.incarnation :: s.provider.retired, blob⟩ } held' := by
  have hother : ∀ inc ∈ s.provider.incarnation :: s.provider.retired, inc ≠ incarnation := by
    intro inc hinc
    rintro rfl
    rcases List.mem_cons.mp hinc with hinc | hinc
    · exact hnew hinc
    · exact hfresh hinc
  have hsentMono : ∀ {held' inc attempt}, Sent store s.provider held inc attempt →
      Sent store ⟨incarnation, s.provider.incarnation :: s.provider.retired, blob⟩ held' inc
        attempt := by
    intro held' inc attempt hold
    exact ⟨hold.built, hold.identity, List.mem_cons_of_mem _ hold.known,
      fun hcurrent => absurd hcurrent (hother inc hold.known)⟩
  refine ⟨blob.elim (some none) (fun _ => none), ?_, ?_, ?_, ?_, ?_, ?_⟩
  · intro hmem
    exact hother _ hmem rfl
  · cases blob with
    | none => rfl
    | some blob => exact ⟨blob, rfl, by simpa using hforeign⟩
  · intro id write hwrite
    obtain ⟨hid, hold⟩ := h.pending id write hwrite
    exact ⟨hid, hsentMono hold⟩
  · intro client
    have hclient := h.clients client
    cases hpoint : s.clients client with
    | idle => trivial
    | locating commit => rwa [hpoint] at hclient
    | reading commit identity =>
      rw [hpoint] at hclient
      obtain ⟨normal, inc, hinc, hidentity⟩ := hclient
      exact ⟨normal, inc, List.mem_cons_of_mem _ hinc, hidentity⟩
    | publishing attempt =>
      rw [hpoint] at hclient
      obtain ⟨inc, hold⟩ := hclient
      exact ⟨inc, hsentMono hold⟩
    | waiting id attempt => rwa [hpoint] at hclient
    | relocating id attempt fallback => rwa [hpoint] at hclient
    | rereading id attempt fallback identity =>
      rw [hpoint] at hclient
      obtain ⟨unsettled, write, hwrite, hattempt, -⟩ := hclient
      refine ⟨unsettled, write, hwrite, hattempt, ?_⟩
      intro hcurrent
      exact absurd hcurrent (hother _ (h.pending id write hwrite).2.known)
  · intro id inc htaken
    obtain ⟨write, hwrite, rfl, -⟩ := h.taken id inc htaken
    exact ⟨write, hwrite, rfl, fun hcurrent =>
      absurd hcurrent (hother _ (h.pending id write hwrite).2.known)⟩
  · intro answer hanswer
    have hsound := h.answers answer hanswer
    refine ⟨List.mem_cons_of_mem _ hsound.known, fun inc hinc =>
      List.mem_cons_of_mem _ (hsound.retired hinc), ?_, ?_⟩
    · intro revision cursor hresult
      obtain ⟨document, hreadback, -⟩ := hsound.applied revision cursor hresult
      exact ⟨document, hreadback, fun hcurrent =>
        absurd hcurrent.symm (hother _ hsound.known)⟩
    · intro id attempt reason revision cursor hwrite hresult
      obtain ⟨⟨write, hpending, -⟩, htaken⟩ :=
        hsound.conflict id attempt reason revision cursor hwrite hresult
      exact ⟨⟨write, hpending, .inl (h.pending id write hpending).2.known⟩, htaken⟩

theorem sound_nokvStep (h : s.Sound sha store held) (event : NokvEvent) :
    ∃ held', (nokvStep sha store s event).Sound sha store held' := by
  cases event with
  | commit client commit =>
    refine ⟨held, ?_⟩
    simp only [nokvStep]
    split
    · split
      · rename_i normalized hnormalized
        exact sound_move h client (normal_of_normalize hnormalized).1
      · exact sound_answer h client (answerSound_of_open none none (by simp) (.inl rfl))
    · exact h
  | locate client failure => exact ⟨held, sound_locateStep h client failure⟩
  | read client failure => exact ⟨held, sound_readStep h client failure⟩
  | publish client =>
    refine ⟨held, ?_⟩
    simp only [nokvStep]
    split
    · rename_i attempt hpoint
      have hclient := h.clients client
      rw [hpoint] at hclient
      exact sound_publish h hclient
    · exact h
  | deliver id =>
    simp only [nokvStep]
    split
    · rename_i write hwrite
      split
      · rename_i admits
        exact ⟨_, sound_deliver h hwrite admits⟩
      · exact ⟨held, h⟩
    · exact ⟨held, h⟩
  | respond client response =>
    refine ⟨held, ?_⟩
    simp only [nokvStep]
    split
    · rename_i id attempt hpoint
      have hclient := h.clients client
      rw [hpoint] at hclient
      split
      · rename_i fallback hfallback
        refine sound_move h client ⟨?_, hclient⟩
        cases response <;> simp only [publishFallback] at hfallback
        · split at hfallback <;> exact ⟨_, _, (Except.ok.inj hfallback).symm⟩
        · exact ⟨_, _, (Except.ok.inj hfallback).symm⟩
        · exact ⟨_, _, (Except.ok.inj hfallback).symm⟩
        · simp at hfallback
      · rename_i result hresult
        have hfailed : ∃ code text, result = .failed code text := by
          cases response <;> simp only [publishFallback] at hresult
          · split at hresult <;> simp at hresult
          · simp at hresult
          · simp at hresult
          · exact ⟨_, _, (Except.error.inj hresult).symm⟩
        obtain ⟨code, text, rfl⟩ := hfailed
        exact sound_answer h client (answerSound_of_open _ none (by simp) (.inr (by simp)))
    · exact h
  | crash client => exact ⟨held, sound_move h client trivial⟩
  | restore incarnation blob =>
    simp only [nokvStep]
    split
    · rename_i hrestore
      exact sound_restore h hrestore.1 hrestore.2.1 hrestore.2.2
    · exact ⟨held, h⟩

/-- What was answered stays on record, and only a restore retires an incarnation. -/
theorem record_nokvStep (s : NokvWorld) (event : NokvEvent) :
    s.answers <+: (nokvStep sha store s event).answers ∧
      ((∀ incarnation blob, event ≠ .restore incarnation blob) →
        (nokvStep sha store s event).provider.retired = s.provider.retired) := by
  cases event with
  | restore incarnation blob =>
    refine ⟨?_, fun hnot => absurd rfl (hnot incarnation blob)⟩
    simp only [nokvStep]
    split <;> exact List.prefix_refl _
  | locate client failure =>
    simp only [nokvStep, locateStep]
    repeat' split
    all_goals simp [NokvWorld.move, NokvWorld.answer]
  | read client failure =>
    simp only [nokvStep, readStep]
    repeat' split
    all_goals simp [NokvWorld.move, NokvWorld.answer]
  | _ =>
    simp only [nokvStep]
    repeat' split
    all_goals simp [NokvWorld.move, NokvWorld.answer]

end Steps

section Runs

variable (sha : Sha256) (store : NokvAuthorityStore) (incarnation : String)

private theorem nokvRun_snoc (events : List NokvEvent) (event : NokvEvent) :
    nokvRun sha store incarnation (events ++ [event]) =
      nokvStep sha store (nokvRun sha store incarnation events) event := by
  rw [nokvRun, List.foldl_append, List.foldl_cons, List.foldl_nil, nokvRun]

theorem sound_nokvRun (events : List NokvEvent) :
    ∃ held, (nokvRun sha store incarnation events).Sound sha store held := by
  induction events using List.reverseRecOn with
  | nil => exact ⟨_, sound_newNokv incarnation⟩
  | append_singleton events event ih =>
    obtain ⟨held, hsound⟩ := ih
    rw [nokvRun_snoc]
    exact sound_nokvStep hsound event

private theorem answers_nokvRun (events later : List NokvEvent) :
    (nokvRun sha store incarnation events).answers <+:
      (nokvRun sha store incarnation (events ++ later)).answers := by
  induction later using List.reverseRecOn with
  | nil => simp
  | append_singleton later event ih =>
    rw [← List.append_assoc, nokvRun_snoc]
    exact ih.trans (record_nokvStep _ event).1

private theorem retired_nokvRun {events : List NokvEvent}
    (h : ∀ incarnation blob, .restore incarnation blob ∉ events) :
    (nokvRun sha store incarnation events).provider.retired = [] := by
  induction events using List.reverseRecOn with
  | nil => rfl
  | append_singleton events event ih =>
    rw [nokvRun_snoc, (record_nokvStep _ event).2]
    · refine ih ?_
      intro incarnation blob hmem
      exact h incarnation blob (List.mem_append_left _ hmem)
    · rintro incarnation blob rfl
      exact h incarnation blob (by simp)

/-- An applied commit is durable while its provider incarnation lasts; the write of a conflicting
one took effect at most in an incarnation already retired, and takes effect no more; the envelope's
generation, cursor and journal stay in step. -/
theorem nokvRun_settles (events later : List NokvEvent) :
    (∀ answer ∈ (nokvRun sha store incarnation events).answers,
      ∀ revision cursor, answer.result = .applied revision cursor →
        ∃ document, Readback sha store answer revision cursor document ∧
          ((nokvRun sha store incarnation (events ++ later)).provider.incarnation =
              answer.provider.incarnation →
            (∃ current, (nokvRun sha store incarnation (events ++ later)).provider.Held store
                (some (some current)) ∧ document.committed <+: current.committed) ∨
              (nokvRun sha store incarnation (events ++ later)).provider.blob =
                answer.provider.blob)) ∧
    (∀ answer ∈ (nokvRun sha store incarnation events).answers,
      ∀ kind revision cursor, answer.result = .conflict kind revision cursor →
        ∀ id attempt, answer.write = some (id, attempt) →
          (∀ taken, (id, taken) ∈ (nokvRun sha store incarnation (events ++ later)).taken →
            taken ∈ answer.provider.retired) ∧
          ((∀ restored blob, .restore restored blob ∉ events) →
            ∀ taken, (id, taken) ∉ (nokvRun sha store incarnation (events ++ later)).taken)) ∧
    ((nokvRun sha store incarnation events).provider.blob = none ∨
      (∃ blob, (nokvRun sha store incarnation events).provider.blob = some blob ∧
        isForeign (storeIdentityOf store.workbench
          (nokvRun sha store incarnation events).provider.incarnation) blob = true) ∨
      ∃ document : NokvAuthorityStoreDocument,
        (nokvRun sha store incarnation events).provider.blob =
          some ⟨document.committed.length, document.bytes⟩ ∧
        document.storageGeneration = document.committed.length ∧
        document.cursor = document.committed.length.repr ∧
        Contiguous document.committed ∧
        (document.committed.map (fun entry => entry.operationId)).Nodup) := by
  refine ⟨?_, ?_, ?_⟩
  · intro answer hanswer revision cursor hresult
    obtain ⟨held, hsound⟩ := sound_nokvRun sha store incarnation (events ++ later)
    have hlater := (answers_nokvRun sha store incarnation events later).subset hanswer
    obtain ⟨document, hreadback, hdurable⟩ :=
      (hsound.answers answer hlater).applied revision cursor hresult
    refine ⟨document, hreadback, ?_⟩
    intro hcurrent
    rcases hdurable hcurrent with ⟨own, rfl, hstarts⟩ | ⟨-, hsame⟩
    · obtain ⟨id, attempt, position, -, hget, -⟩ := hreadback.entry
      cases own with
      | none =>
        rw [journalIn_none, List.prefix_nil] at hstarts
        simp [hstarts] at hget
      | some current => exact .inl ⟨current, hsound.holds, hstarts⟩
    · exact .inr hsame
  · intro answer hanswer kind revision cursor hresult id attempt hwrite
    obtain ⟨held, hsound⟩ := sound_nokvRun sha store incarnation (events ++ later)
    have hlater := (answers_nokvRun sha store incarnation events later).subset hanswer
    obtain ⟨-, htaken⟩ :=
      (hsound.answers answer hlater).conflict id attempt kind revision cursor hwrite hresult
    refine ⟨htaken, ?_⟩
    intro hnone taken hmem
    obtain ⟨_, hbefore⟩ := sound_nokvRun sha store incarnation events
    have hretired := (hbefore.answers answer hanswer).retired (htaken taken hmem)
    rw [retired_nokvRun sha store incarnation hnone] at hretired
    simp at hretired
  · obtain ⟨held, hsound⟩ := sound_nokvRun sha store incarnation events
    have hholds := hsound.holds
    rcases held with _ | _ | document
    · exact .inr (.inl hholds)
    · exact .inl hholds
    · obtain ⟨hblob, hlawful, -⟩ := hholds
      refine .inr (.inr ⟨document, ?_, hlawful.generation, hlawful.cursor, hlawful.contiguous,
        hlawful.unique⟩)
      rw [hblob, hlawful.generation]

end Runs

end Loopx.Authority
