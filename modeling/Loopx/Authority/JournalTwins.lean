/- GID: Loopx/Authority/JournalTwins
   generality: I
   source: loopx/control_plane/coordination/authority_store.ts
   digest: Two journals that differ only in their revision tokens give results that do so too. -/

import Mathlib.Data.List.Forall2
import Loopx.Authority.StoreLog

set_option autoImplicit false
set_option relaxedAutoImplicit false

namespace Loopx.Authority

open Loopx.Lib
open Loopx.Lib.CasLog (Submit Request Answer Distinct)

/-- The same transaction under two tokens. -/
structure Twin (pair : String → String → Prop) (a b : AuthorityStoreCommittedTransaction) :
    Prop where
  cursor : a.cursor = b.cursor
  operationId : a.operationId = b.operationId
  body : journalShape.body a = journalShape.body b
  tokens : pair a.providerRevision b.providerRevision

def Twins (pair : String → String → Prop) : Journal → Journal → Prop := List.Forall₂ (Twin pair)

/-- The tokens that stand at one position. -/
def tokenPairs (left right : Journal) : List (String × String) :=
  (left.zip right).map (fun entry => (entry.1.providerRevision, entry.2.providerRevision))

def Paired (left right : Journal) (a b : String) : Prop := (a, b) ∈ tokenPairs left right

section Results

inductive LoadAgrees (pair : String → String → Prop) :
    AuthorityStoreLoadResult → AuthorityStoreLoadResult → Prop where
  | missing : LoadAgrees pair .missing .missing
  | loaded (head : Json) (cursor a b : String) (tokens : pair a b) :
      LoadAgrees pair (.loaded ⟨head, a, cursor⟩) (.loaded ⟨head, b, cursor⟩)

inductive CommitAgrees (pair : String → String → Prop) :
    AuthorityStoreCommitResult → AuthorityStoreCommitResult → Prop where
  | applied (cursor a b : String) (tokens : pair a b) :
      CommitAgrees pair (.applied a cursor) (.applied b cursor)
  | conflict (kind : ConflictKind) (cursor a b : Option String) (tokens : Option.Rel pair a b) :
      CommitAgrees pair (.conflict kind a cursor) (.conflict kind b cursor)
  | failed (code reason : String) : CommitAgrees pair (.failed code reason) (.failed code reason)

/-- The two providers file an invalid id of a single read under codes of their own. -/
inductive ReceiptAgrees (pair : String → String → Prop) :
    AuthorityStoreReceiptResult → AuthorityStoreReceiptResult → Prop where
  | missing : ReceiptAgrees pair .missing .missing
  | found (cursor a b : String) (receipts : List Json) (tokens : pair a b) :
      ReceiptAgrees pair (.found cursor a receipts) (.found cursor b receipts)
  | failed (code code' reason : String) :
      ReceiptAgrees pair (.failure (.failed code reason)) (.failure (.failed code' reason))

inductive BatchAgrees (pair : String → String → Prop) :
    AuthorityStoreReceiptBatchResult → AuthorityStoreReceiptBatchResult → Prop where
  | receipts (results results' : List AuthorityStoreReceiptResult)
      (each : List.Forall₂ (ReceiptAgrees pair) results results') :
      BatchAgrees pair (.receipts results) (.receipts results')
  | failed (code reason : String) :
      BatchAgrees pair (.failure (.failed code reason)) (.failure (.failed code reason))

inductive ScanAgrees (pair : String → String → Prop) :
    AuthorityStoreScanResult → AuthorityStoreScanResult → Prop where
  | page (transactions transactions' : Journal) (nextCursor : Option String) (hasMore : Bool)
      (each : Twins pair transactions transactions') :
      ScanAgrees pair (.page transactions nextCursor hasMore)
        (.page transactions' nextCursor hasMore)
  | failed (code reason : String) :
      ScanAgrees pair (.failure (.failed code reason)) (.failure (.failed code reason))

end Results

section Reads

variable {pair : String → String → Prop} {left right : Journal}

private theorem getLast?_twins (h : Twins pair left right) :
    Option.Rel (Twin pair) left.getLast? right.getLast? := by
  have reversed := List.rel_reverse h
  rw [← List.head?_reverse, ← List.head?_reverse]
  generalize left.reverse = a at reversed ⊢
  generalize right.reverse = b at reversed ⊢
  cases reversed with
  | nil => exact .none
  | cons first rest => exact .some first

theorem load_twins (h : Twins pair left right) : LoadAgrees pair left.load right.load := by
  have last := getLast?_twins h
  unfold Journal.load
  cases hleft : left.getLast? with
  | none =>
    rw [hleft] at last
    cases hright : right.getLast? with
    | none => exact .missing
    | some b => rw [hright] at last; cases last
  | some a =>
    rw [hleft] at last
    cases hright : right.getLast? with
    | none => rw [hright] at last; cases last
    | some b =>
      rw [hright] at last
      cases last with
      | some twin =>
        have projection := congrArg CommitBody.projection twin.body
        simp only [journalShape] at projection
        simp only [headOf, projection, twin.cursor]
        exact .loaded _ _ _ _ twin.tokens

theorem receipt_twins (h : Twins pair left right) (operation : String) :
    ReceiptAgrees pair (left.receipt operation) (right.receipt operation) := by
  unfold Journal.receipt
  induction h with
  | nil => exact .missing
  | @cons a b left right twin rest ih =>
    by_cases used : a.operationId = operation
    · have used' : b.operationId = operation := twin.operationId ▸ used
      have receipts := congrArg CommitBody.receipts twin.body
      simp only [journalShape] at receipts
      simp only [List.find?_cons, used, used', decide_true]
      rw [twin.cursor, receipts]
      exact .found _ _ _ _ twin.tokens
    · have unused : b.operationId ≠ operation := twin.operationId ▸ used
      simpa only [List.find?_cons, used, unused, decide_false] using ih

theorem receipts_twins (h : Twins pair left right) (operations : List String) :
    List.Forall₂ (ReceiptAgrees pair) (operations.map left.receipt)
      (operations.map right.receipt) := by
  induction operations with
  | nil => exact .nil
  | cons operation operations ih => exact .cons (receipt_twins h operation) ih

theorem scanned_twins (h : Twins pair left right) (scan : AuthorityJournalScan) :
    ScanAgrees pair (left.scanned scan) (right.scanned scan) := by
  have hlength : left.length = right.length := h.length_eq
  unfold Journal.scanned
  rw [hlength]
  split
  · exact .failed _ _
  · have rows : Twins pair ((left.drop scan.offset).take scan.limit)
        ((right.drop scan.offset).take scan.limit) :=
      List.forall₂_take _ (List.forall₂_drop _ h)
    have last : ((left.drop scan.offset).take scan.limit).getLast?.map (fun entry => entry.cursor) =
        ((right.drop scan.offset).take scan.limit).getLast?.map (fun entry => entry.cursor) := by
      have final := getLast?_twins rows
      generalize ((left.drop scan.offset).take scan.limit).getLast? = a at final ⊢
      generalize ((right.drop scan.offset).take scan.limit).getLast? = b at final ⊢
      cases final with
      | none => rfl
      | some twin => rw [Option.map_some, Option.map_some, twin.cursor]
    dsimp only
    rw [last]
    exact .page _ _ _ _ rows

end Reads

section Tokens

variable {pair : String → String → Prop} {left right : Journal}

/-- Twins under any pairing are twins under the pairing of their positions. -/
theorem twins_paired (h : Twins pair left right) : Twins (Paired left right) left right := by
  unfold Twins at h ⊢
  rw [List.forall₂_iff_zip] at h ⊢
  refine ⟨h.1, ?_⟩
  intro a b hmem
  have twin := h.2 hmem
  exact ⟨twin.cursor, twin.operationId, twin.body, List.mem_map_of_mem hmem⟩

theorem paired_mono {left' right' : Journal} (hleft : left <+: left') (hright : right <+: right')
    (hlength : left.length = right.length) {a b : String} (h : Paired left right a b) :
    Paired left' right' a b := by
  obtain ⟨moreLeft, rfl⟩ := hleft
  obtain ⟨moreRight, rfl⟩ := hright
  rw [Paired, tokenPairs, List.zip_append hlength, List.map_append]
  exact List.mem_append_left _ h

/-- The entries that two paired tokens stand in. -/
private theorem exists_of_paired {a b : String} (h : Paired left right a b) :
    ∃ x y, (x, y) ∈ left.zip right ∧ x.providerRevision = a ∧ y.providerRevision = b := by
  obtain ⟨⟨x, y⟩, hmem, heq⟩ := List.mem_map.mp h
  exact ⟨x, y, hmem, congrArg Prod.fst heq, congrArg Prod.snd heq⟩

/-- A journal whose tokens name one entry each. -/
def TokensNameEntries (journal : Journal) : Prop :=
  ∀ a ∈ journal, ∀ b ∈ journal, a.providerRevision = b.providerRevision → a = b

private theorem nodup_tokens {journal : Journal} (distinct : Distinct journalShape journal)
    (tokens : TokensNameEntries journal) :
    (journal.map (fun entry => entry.providerRevision)).Nodup :=
  distinct.of_map.map_on tokens

/-- The pairing is a bijection between the tokens of the two journals. -/
theorem tokenPairs_bijective (hlength : left.length = right.length)
    (distinct : Distinct journalShape left) (distinct' : Distinct journalShape right)
    (tokens : TokensNameEntries left) (tokens' : TokensNameEntries right) :
    ((tokenPairs left right).map Prod.fst).Nodup ∧ ((tokenPairs left right).map Prod.snd).Nodup := by
  have zipLeft : (left.zip right).map Prod.fst = left := List.map_fst_zip (Nat.le_of_eq hlength)
  have zipRight : (left.zip right).map Prod.snd = right :=
    List.map_snd_zip (Nat.le_of_eq hlength.symm)
  have first : (tokenPairs left right).map Prod.fst =
      ((left.zip right).map Prod.fst).map (fun entry => entry.providerRevision) := by
    rw [tokenPairs, List.map_map, List.map_map]
    rfl
  have second : (tokenPairs left right).map Prod.snd =
      ((left.zip right).map Prod.snd).map (fun entry => entry.providerRevision) := by
    rw [tokenPairs, List.map_map, List.map_map]
    rfl
  rw [zipLeft] at first
  rw [zipRight] at second
  rw [first, second]
  exact ⟨nodup_tokens distinct tokens, nodup_tokens distinct' tokens'⟩

end Tokens

section Commits

variable {pair : String → String → Prop} {left right left' right' : Journal}
  {request request' : Request String String CommitBody}
  {answer answer' : Answer AuthorityStoreCommittedTransaction}

/-- The same request under the tokens of either side. -/
structure RequestTwin (left right : Journal) (request request' : Request String String CommitBody) :
    Prop where
  id : request.id = request'.id
  body : request.body = request'.body
  expected : Option.Rel (Paired left right) request.expected request'.expected

/-- Two journals of twins, each with tokens that name its entries. -/
structure TwinLogs (left right : Journal) : Prop where
  twins : Twins (Paired left right) left right
  distinct : Distinct journalShape left
  distinct' : Distinct journalShape right
  tokens : TokensNameEntries left
  tokens' : TokensNameEntries right

theorem TwinLogs.length_eq (h : TwinLogs left right) : left.length = right.length :=
  h.twins.length_eq

private theorem TwinLogs.left_of_right (h : TwinLogs left right)
    {b : AuthorityStoreCommittedTransaction} (hb : b ∈ right) : ∃ a, (a, b) ∈ left.zip right := by
  obtain ⟨index, hindex, rfl⟩ := List.getElem_of_mem hb
  have hleft : index < left.length := by
    rw [h.length_eq]
    exact hindex
  exact ⟨left[index], List.mem_iff_getElem.mpr ⟨index, by simp [hleft, hindex], by simp⟩⟩

private theorem TwinLogs.right_of_left (h : TwinLogs left right)
    {a : AuthorityStoreCommittedTransaction} (ha : a ∈ left) : ∃ b, (a, b) ∈ left.zip right := by
  obtain ⟨index, hindex, rfl⟩ := List.getElem_of_mem ha
  have hright : index < right.length := by
    rw [← h.length_eq]
    exact hindex
  exact ⟨right[index], List.mem_iff_getElem.mpr ⟨index, by simp [hright, hindex], by simp⟩⟩

private theorem TwinLogs.twin (h : TwinLogs left right)
    {a b : AuthorityStoreCommittedTransaction} (hmem : (a, b) ∈ left.zip right) :
    Twin (Paired left right) a b :=
  List.forall₂_zip h.twins hmem

/-- Partners are determined from either side. -/
private theorem TwinLogs.partner_iff (h : TwinLogs left right)
    {a b x y : AuthorityStoreCommittedTransaction} (hab : (a, b) ∈ left.zip right)
    (hxy : (x, y) ∈ left.zip right) : a = x ↔ b = y := by
  have first := (h.twin hab).operationId
  have second := (h.twin hxy).operationId
  obtain ⟨ha, hb⟩ := List.of_mem_zip hab
  obtain ⟨hx, hy⟩ := List.of_mem_zip hxy
  constructor
  · rintro rfl
    exact CasLog.eq_of_id h.distinct' hb hy (first.symm.trans second)
  · rintro rfl
    exact CasLog.eq_of_id h.distinct ha hx (first.trans second.symm)

private theorem TwinLogs.last (h : TwinLogs left right) :
    (left.getLast? = none ∧ right.getLast? = none) ∨
      ∃ a b, left.getLast? = some a ∧ right.getLast? = some b ∧ (a, b) ∈ left.zip right := by
  have hlength := h.length_eq
  cases left using List.reverseRecOn with
  | nil =>
    obtain rfl : right = [] := List.length_eq_zero_iff.mp hlength.symm
    exact Or.inl ⟨rfl, rfl⟩
  | append_singleton init a =>
    cases right using List.reverseRecOn with
    | nil => simp at hlength
    | append_singleton init' b =>
      have hinit : init.length = init'.length := by simpa using hlength
      refine Or.inr ⟨a, b, by simp, by simp, ?_⟩
      rw [List.zip_append hinit]
      simp

/-- Both sides see their head in the same requests. -/
private theorem TwinLogs.current_iff (h : TwinLogs left right)
    (same : RequestTwin left right request request') :
    CasLog.head journalShape left = request.expected ↔
      CasLog.head journalShape right = request'.expected := by
  have expected := same.expected
  unfold CasLog.head
  generalize request.expected = e at expected ⊢
  generalize request'.expected = e' at expected ⊢
  rcases h.last with ⟨hleft, hright⟩ | ⟨a, b, hleft, hright, hab⟩
  · rw [hleft, hright]
    cases expected with
    | none => simp
    | some tokens => simp
  · rw [hleft, hright]
    cases expected with
    | none => simp
    | @some e e' tokens =>
      obtain ⟨x, y, hxy, rfl, rfl⟩ := exists_of_paired tokens
      have hleft : a.providerRevision = x.providerRevision ↔ a = x :=
        ⟨h.tokens a (List.of_mem_zip hab).1 x (List.of_mem_zip hxy).1, fun heq => by rw [heq]⟩
      have hright : b.providerRevision = y.providerRevision ↔ b = y :=
        ⟨h.tokens' b (List.of_mem_zip hab).2 y (List.of_mem_zip hxy).2, fun heq => by rw [heq]⟩
      simp only [Option.map_some, Option.some.injEq, journalShape]
      rw [hleft, hright]
      exact h.partner_iff hab hxy

/-- What the two sides answer to one request. -/
inductive AnswerTwin (left right : Journal) :
    Answer AuthorityStoreCommittedTransaction → Answer AuthorityStoreCommittedTransaction → Prop where
  | applied (a b : AuthorityStoreCommittedTransaction) (mem : (a, b) ∈ left.zip right) :
      AnswerTwin left right (.applied a) (.applied b)
  | idTaken : AnswerTwin left right .idTaken .idTaken
  | stale : AnswerTwin left right .stale .stale

/-- An admitted entry joins both journals. -/
private theorem TwinLogs.append (h : TwinLogs left right)
    {a b : AuthorityStoreCommittedTransaction} (answers : CasLog.Answers journalShape request a)
    (answers' : CasLog.Answers journalShape request' b)
    (same : RequestTwin left right request request') (contiguous : Contiguous (left ++ [a]))
    (contiguous' : Contiguous (right ++ [b])) :
    Twins (Paired (left ++ [a]) (right ++ [b])) (left ++ [a]) (right ++ [b]) := by
  have twin : Twin (fun _ _ => True) a b := by
    refine ⟨?_, ?_, ?_, trivial⟩
    · rw [contiguous.cursor_of_split, contiguous'.cursor_of_split, h.length_eq]
    · exact answers.1.trans (same.id.trans answers'.1.symm)
    · exact answers.2.trans (same.body.trans answers'.2.symm)
  have old : Twins (fun _ _ => True) left right :=
    h.twins.imp (fun _ _ twin => ⟨twin.cursor, twin.operationId, twin.body, trivial⟩)
  exact twins_paired (List.rel_append old (.cons twin .nil))

/-- One request to two journals of twins, answered by both, keeps them twins. -/
theorem submit_twins (h : TwinLogs left right) (same : RequestTwin left right request request')
    (submit : Submit journalShape left request left' answer)
    (submit' : Submit journalShape right request' right' answer')
    (answered : answer ≠ .refused ∧ answer ≠ .unknown)
    (answered' : answer' ≠ .refused ∧ answer' ≠ .unknown)
    (contiguous : Contiguous left') (contiguous' : Contiguous right') :
    Twins (Paired left' right') left' right' ∧ AnswerTwin left' right' answer answer' := by
  by_cases used : ∃ a ∈ left, journalShape.id a = request.id
  · obtain ⟨a, ha, hid⟩ := used
    obtain ⟨b, hab⟩ := h.right_of_left ha
    have hb := (List.of_mem_zip hab).2
    have twin := h.twin hab
    have hid' : journalShape.id b = request'.id := by
      rw [← same.id, ← hid]
      exact twin.operationId.symm
    by_cases body : journalShape.body a = request.body
    · have body' : journalShape.body b = request'.body := by
        rw [← same.body, ← body]
        exact twin.body.symm
      obtain ⟨rfl, rfl | rfl⟩ := submit.of_answered h.distinct ha ⟨hid, body⟩
      · obtain ⟨rfl, rfl | rfl⟩ := submit'.of_answered h.distinct' hb ⟨hid', body'⟩
        · exact ⟨h.twins, .applied a b hab⟩
        · exact absurd rfl answered'.1
      · exact absurd rfl answered.1
    · have body' : journalShape.body b ≠ request'.body := by
        rw [← same.body, ← twin.body]
        exact body
      obtain ⟨rfl, rfl | rfl⟩ := submit.of_taken h.distinct ha hid body
      · obtain ⟨rfl, rfl | rfl⟩ := submit'.of_taken h.distinct' hb hid' body'
        · exact ⟨h.twins, .idTaken⟩
        · exact absurd rfl answered'.1
      · exact absurd rfl answered.1
  · have fresh : ∀ a ∈ left, journalShape.id a ≠ request.id :=
      fun a ha hid => used ⟨a, ha, hid⟩
    have fresh' : ∀ b ∈ right, journalShape.id b ≠ request'.id := by
      intro b hb hid
      obtain ⟨a, hab⟩ := h.left_of_right hb
      apply fresh a (List.of_mem_zip hab).1
      rw [same.id, ← hid]
      exact (h.twin hab).operationId
    by_cases current : CasLog.head journalShape left = request.expected
    · have current' := (h.current_iff same).mp current
      have grown : ∃ a, left' = left ++ [a] ∧ CasLog.Answers journalShape request a ∧
          answer = .applied a := submit.of_admissible ⟨fresh, current⟩ answered
      have grown' : ∃ b, right' = right ++ [b] ∧ CasLog.Answers journalShape request' b ∧
          answer' = .applied b := submit'.of_admissible ⟨fresh', current'⟩ answered'
      obtain ⟨a, rfl, answers, rfl⟩ := grown
      obtain ⟨b, rfl, answers', rfl⟩ := grown'
      refine ⟨h.append answers answers' same contiguous contiguous', .applied a b ?_⟩
      rw [List.zip_append h.length_eq]
      simp
    · have moved' : CasLog.head journalShape right ≠ request'.expected :=
        fun heq => current ((h.current_iff same).mpr heq)
      obtain ⟨rfl, rfl | rfl⟩ := submit.of_stale fresh current
      · obtain ⟨rfl, rfl | rfl⟩ := submit'.of_stale fresh' moved'
        · exact ⟨h.twins, .stale⟩
        · exact absurd rfl answered'.1
      · exact absurd rfl answered.1

/-- The reports of twin answers agree. -/
theorem reports_twins (h : TwinLogs left right) (grownLeft : left <+: left')
    (grownRight : right <+: right') (answers : AnswerTwin left' right' answer answer')
    {result result' : AuthorityStoreCommitResult} (reports : Reports left answer result)
    (reports' : Reports right answer' result')
    (twins : Twins (Paired left' right') left' right') :
    CommitAgrees (Paired left' right') result result' := by
  have head : Option.Rel (Paired left' right') left.headRevision right.headRevision ∧
      left.headCursor = right.headCursor := by
    unfold Journal.headRevision CasLog.head Journal.headCursor
    rcases h.last with ⟨hleft, hright⟩ | ⟨a, b, hleft, hright, hab⟩
    · rw [hleft, hright]
      exact ⟨.none, rfl⟩
    · rw [hleft, hright]
      have twin := h.twin hab
      refine ⟨.some (paired_mono grownLeft grownRight h.length_eq twin.tokens), ?_⟩
      rw [Option.map_some, Option.map_some, twin.cursor]
  cases answers with
  | applied a b mem =>
    cases reports
    cases reports'
    have twin := List.forall₂_zip twins mem
    rw [twin.cursor]
    exact .applied _ _ _ twin.tokens
  | idTaken =>
    cases reports
    cases reports'
    rw [head.2]
    exact .conflict _ _ _ _ head.1
  | stale =>
    cases reports
    cases reports'
    rw [head.2]
    exact .conflict _ _ _ _ head.1

end Commits

end Loopx.Authority
