/- GID: Loopx/Authority/CommandReceipt
   generality: I
   source: loopx/control_plane/coordination/command_receipt.ts
   digest: A command's commit is settled by the receipt that is read back after it. -/

import Mathlib.Logic.Relation
import Loopx.Authority.StoreLog

set_option autoImplicit false
set_option relaxedAutoImplicit false

namespace Loopx.Authority

open Loopx.Lib
open Loopx.Lib.CasLog (Submit Admissible Answers Distinct Answer Request)

inductive ReceiptPhase where
  | applied
  | recovered
  | replayed
  deriving DecidableEq, Repr

structure ReceiptIdentity where
  schemaVersion : String
  operationId : String
  goalId : String
  requestSha256 : String
  deriving DecidableEq, Repr

def receiptField (receipt : Json) (key : String) : Option Json :=
  match receipt with
  | .object fields => fields.lookup key
  | _ => none

/-- The receipt carries every field of the identity. -/
def ReceiptIdentity.Matches (identity : ReceiptIdentity) (receipt : Json) : Prop :=
  receiptField receipt "schema_version" = some (.string identity.schemaVersion) ∧
    receiptField receipt "operation_id" = some (.string identity.operationId) ∧
    receiptField receipt "goal_id" = some (.string identity.goalId) ∧
    receiptField receipt "request_sha256" = some (.string identity.requestSha256)

instance (identity : ReceiptIdentity) (receipt : Json) : Decidable (identity.Matches receipt) :=
  inferInstanceAs (Decidable (_ ∧ _))

structure ReceiptPayload (P : Type) where
  fields : P
  changed : Bool

/-- A decoder's own protocol errors become results; any other error is thrown on. -/
inductive DecodeError where
  | protocol (message : String)
  | other (message : String)

structure CommandReceiptContract (P : Type) where
  identity : ReceiptIdentity
  decode : Json → ReceiptPhase → Except DecodeError (ReceiptPayload P)

inductive CommandStatus where
  | noChange
  | applied
  | recovered
  | replayed
  deriving DecidableEq, Repr

inductive CommandResult (P : Type) where
  /-- A receipt was found and is this command's. -/
  | settled (status : CommandStatus) (changed : Bool) (fields : P)
      (providerRevision cursor : String)
  | failure (code reason : String)
  /-- The store's own conclusive answer. -/
  | rejected (committed : AuthorityStoreCommitResult)
  | unread (failure : AuthorityStoreReadFailure)
  /-- The commit may be durable; the same operation recovers its receipt. -/
  | ambiguous (committed : AuthorityStoreCommitResult) (receipt : AuthorityStoreReceiptResult)

variable {P : Type}

def ReceiptPhase.status (phase : ReceiptPhase) (changed : Bool) : CommandStatus :=
  match phase with
  | .applied => if changed then .applied else .noChange
  | .recovered => .recovered
  | .replayed => .replayed

def responseLost : AuthorityStoreCommitResult :=
  .ambiguous "coordination_commit_response_lost"
    "commit response was not received; recover the original operation"

def receiptUnread : AuthorityStoreReceiptResult :=
  .failure (.unavailable "coordination_receipt_read_failed"
    "durable receipt read did not complete")

namespace CommandReceiptContract

variable (contract : CommandReceiptContract P)

/-- The result that a found receipt stands for. -/
def projectFound (phase : ReceiptPhase) (providerRevision cursor : String)
    (receipts : List Json) : Except String (CommandResult P) :=
  let mismatch : CommandResult P := .failure "coordination_operation_identity_mismatch"
    "operation id already names a different coordination request"
  match receipts with
  | [original] =>
    if contract.identity.Matches original then
      match contract.decode original phase with
      | .ok payload =>
        .ok (.settled (phase.status payload.changed) (phase ≠ .replayed && payload.changed)
          payload.fields providerRevision cursor)
      | .error (.protocol message) =>
        .ok (.failure "invalid_coordination_command_receipt" message)
      | .error (.other message) => .error message
    else .ok mismatch
  | _ => .ok mismatch

def project (receipt : AuthorityStoreReceiptResult) (phase : ReceiptPhase) :
    Except String (Option (CommandResult P)) :=
  match receipt with
  | .missing => .ok none
  | .failure failure => .ok (some (.unread failure))
  | .found cursor providerRevision receipts =>
    (contract.projectFound phase providerRevision cursor receipts).map some

def settle (committed : AuthorityStoreCommitResult) (receipt : AuthorityStoreReceiptResult) :
    Except String (CommandResult P) :=
  match committed, receipt with
  | .applied _ _, .found cursor revision receipts =>
    contract.projectFound .applied revision cursor receipts
  | _, .found cursor revision receipts =>
    contract.projectFound .recovered revision cursor receipts
  | .applied _ _, .missing =>
    .ok (.failure "coordination_commit_readback_mismatch"
      "applied command lacks its durable receipt")
  | .ambiguous _ _, _ => .ok (.ambiguous committed receipt)
  | .applied _ _, _ => .ok (.ambiguous committed receipt)
  | _, _ => .ok (.rejected committed)

/-- `none` stands for a call that threw: its response was lost. -/
def commit (commit : AuthorityStoreCommit) (committed : Option AuthorityStoreCommitResult)
    (receipt : Option AuthorityStoreReceiptResult) : Except String (CommandResult P) :=
  if commit.operationId ≠ contract.identity.operationId then
    .error "commit and receipt operation identities differ"
  else contract.settle (committed.getD responseLost) (receipt.getD receiptUnread)

/-- What every command hands in: one receipt of its own identity, which its own decoder reads. -/
structure Prepared (commit : AuthorityStoreCommit) : Prop where
  operationId : commit.operationId = contract.identity.operationId
  receipt : ∃ original, commit.receipts = [original] ∧ contract.identity.Matches original ∧
    ∀ phase, ∃ payload, contract.decode original phase = .ok payload

end CommandReceiptContract

/-- The durable journal, and the write of the one call that is looked at: whether it is still on
its way, and the entry that it became. -/
structure CommitWorld where
  journal : Journal
  inFlight : Bool
  landed : Option AuthorityStoreCommittedTransaction

/-- Everything else that goes on: other commits, and the late arrival or loss of the own write. -/
inductive CommitWorld.Moves (commit : AuthorityStoreCommit) : CommitWorld → CommitWorld → Prop where
  | other {w : CommitWorld} {journal : Journal} (request : Request String String CommitBody)
      (answer : Answer AuthorityStoreCommittedTransaction)
      (submit : Submit journalShape w.journal request journal answer) :
      Moves commit w { w with journal }
  | lands {w : CommitWorld} (entry : AuthorityStoreCommittedTransaction)
      (inFlight : w.inFlight = true)
      (admissible : Admissible journalShape w.journal (commitRequest commit))
      (answers : Answers journalShape (commitRequest commit) entry) :
      Moves commit w ⟨w.journal ++ [entry], false, some entry⟩
  | vanishes {w : CommitWorld} : Moves commit w { w with inFlight := false }

def CommitWorld.Background (commit : AuthorityStoreCommit) : CommitWorld → CommitWorld → Prop :=
  Relation.ReflTransGen (CommitWorld.Moves commit)

/-- One `commitAuthority` of a store that keeps the contract. A response may be lost, whatever it
was; an ambiguous or lost answer may leave the write in flight. -/
inductive CommitCall (commit : AuthorityStoreCommit) (w : CommitWorld) :
    CommitWorld → Option AuthorityStoreCommitResult → Prop where
  | answered {journal : Journal} {answer : Answer AuthorityStoreCommittedTransaction}
      {result : AuthorityStoreCommitResult}
      (submit : Submit journalShape w.journal (commitRequest commit) journal answer)
      (reports : Reports w.journal answer result) :
      CommitCall commit w ⟨journal, false, (journal.drop w.journal.length).head?⟩ (some result)
  | silent {journal : Journal} {answer : Answer AuthorityStoreCommittedTransaction}
      (submit : Submit journalShape w.journal (commitRequest commit) journal answer) :
      CommitCall commit w ⟨journal, false, (journal.drop w.journal.length).head?⟩ none
  | delayed {code reason : String} :
      CommitCall commit w ⟨w.journal, true, none⟩ (some (.ambiguous code reason))
  | delayedSilent : CommitCall commit w ⟨w.journal, true, none⟩ none

/-- A receipt read answers from the journal, or it fails. -/
inductive ReceiptRead (journal : Journal) (operationId : String) :
    Option AuthorityStoreReceiptResult → Prop where
  | answered : ReceiptRead journal operationId (some (journal.receipt operationId))
  | failed (failure : AuthorityStoreReadFailure) :
      ReceiptRead journal operationId (some (.failure failure))
  | thrown : ReceiptRead journal operationId none

/-- The caller is told that nothing was done. -/
def CommandResult.Refuses : CommandResult P → Prop
  | .failure _ _ => True
  | .rejected _ => True
  | _ => False

/-- The landed entry, if any, is the commit's, and then nothing is in flight any more. -/
structure CommitWorld.Sound (commit : AuthorityStoreCommit) (w : CommitWorld) : Prop where
  distinct : Distinct journalShape w.journal
  landed : ∀ entry, w.landed = some entry →
    entry ∈ w.journal ∧ Answers journalShape (commitRequest commit) entry
  settled : w.inFlight = true → w.landed = none

variable {commit : AuthorityStoreCommit} {w w' : CommitWorld}

theorem CommitWorld.Moves.sound (h : CommitWorld.Moves commit w w') (sound : w.Sound commit) :
    w'.Sound commit := by
  cases h with
  | other request answer submit =>
    refine ⟨submit.distinct sound.distinct, ?_, sound.settled⟩
    intro entry hlanded
    obtain ⟨mem, answers⟩ := sound.landed entry hlanded
    exact ⟨submit.isPrefix.subset mem, answers⟩
  | lands entry inFlight admissible answers =>
    refine ⟨(Submit.landed entry admissible answers).distinct sound.distinct, ?_, by simp⟩
    intro entry' hlanded
    obtain rfl := Option.some.inj hlanded
    exact ⟨by simp, answers⟩
  | vanishes => exact ⟨sound.distinct, sound.landed, by simp⟩

theorem CommitWorld.Moves.isPrefix (h : CommitWorld.Moves commit w w') :
    w.journal <+: w'.journal := by
  cases h with
  | other request answer submit => exact submit.isPrefix
  | lands entry _ _ _ => exact List.prefix_append _ _
  | vanishes => exact List.prefix_refl _

theorem CommitWorld.Background.sound (h : CommitWorld.Background commit w w')
    (sound : w.Sound commit) : w'.Sound commit := by
  induction h with
  | refl => exact sound
  | tail _ move ih => exact move.sound ih

theorem CommitWorld.Background.isPrefix (h : CommitWorld.Background commit w w') :
    w.journal <+: w'.journal := by
  induction h with
  | refl => exact List.prefix_refl _
  | tail _ move ih => exact ih.trans move.isPrefix

/-- A write that is not on its way never lands. -/
theorem CommitWorld.Background.of_settled (h : CommitWorld.Background commit w w')
    (inFlight : w.inFlight = false) (landed : w.landed = none) :
    w'.inFlight = false ∧ w'.landed = none := by
  induction h with
  | refl => exact ⟨inFlight, landed⟩
  | tail _ move ih =>
    cases move with
    | other => exact ih
    | lands entry flying _ _ => simp [ih.1] at flying
    | vanishes => exact ⟨rfl, ih.2⟩

/-- A write whose operation is already in the journal never lands. -/
theorem CommitWorld.Background.of_taken (h : CommitWorld.Background commit w w')
    (taken : ∃ entry ∈ w.journal, entry.operationId = commit.operationId)
    (landed : w.landed = none) : w'.landed = none := by
  obtain ⟨entry, mem, same⟩ := taken
  have hboth : entry ∈ w'.journal ∧ w'.landed = none := by
    induction h with
    | refl => exact ⟨mem, landed⟩
    | tail _ move ih =>
      refine ⟨move.isPrefix.subset ih.1, ?_⟩
      cases move with
      | other => exact ih.2
      | lands entry' _ admissible _ => exact absurd same (admissible.fresh entry ih.1)
      | vanishes => exact ih.2
  exact hboth.2

private theorem landed_of_submit {journal journal' : Journal}
    {answer : Answer AuthorityStoreCommittedTransaction}
    (submit : Submit journalShape journal (commitRequest commit) journal' answer)
    {entry : AuthorityStoreCommittedTransaction}
    (h : (journal'.drop journal.length).head? = some entry) :
    entry ∈ journal' ∧ Answers journalShape (commitRequest commit) entry ∧
      (answer = .applied entry ∨ answer = .unknown) := by
  have grows : journal' ≠ journal := by
    rintro rfl
    simp at h
  obtain ⟨added, rfl, answers, -, hanswer⟩ := submit.of_grows grows
  simp only [List.drop_left, List.head?_cons, Option.some.injEq] at h
  subst h
  exact ⟨by simp, answers, hanswer⟩

theorem CommitCall.sound {result : Option AuthorityStoreCommitResult}
    (h : CommitCall commit w w' result) (distinct : Distinct journalShape w.journal) :
    w'.Sound commit := by
  cases h with
  | answered submit _ =>
    refine ⟨submit.distinct distinct, ?_, by simp⟩
    intro entry hlanded
    obtain ⟨mem, answers, -⟩ := landed_of_submit submit hlanded
    exact ⟨mem, answers⟩
  | silent submit =>
    refine ⟨submit.distinct distinct, ?_, by simp⟩
    intro entry hlanded
    obtain ⟨mem, answers, -⟩ := landed_of_submit submit hlanded
    exact ⟨mem, answers⟩
  | delayed => exact ⟨distinct, by simp, by simp⟩
  | delayedSilent => exact ⟨distinct, by simp, by simp⟩

/-- A conclusive rejection is proof that the write neither took nor will. -/
theorem CommitCall.rejected {result : AuthorityStoreCommitResult}
    (h : CommitCall commit w w' (some result))
    (conclusive : (∃ kind revision cursor, result = .conflict kind revision cursor) ∨
      ∃ code reason, result = .failed code reason) :
    w'.inFlight = false ∧ w'.landed = none := by
  cases h with
  | @answered journal answer _ submit reports =>
    refine ⟨rfl, ?_⟩
    cases hlanded : (journal.drop w.journal.length).head? with
    | none => rfl
    | some entry =>
      obtain ⟨-, -, hanswer⟩ := landed_of_submit submit hlanded
      rcases hanswer with rfl | rfl <;> cases reports <;> simp at conclusive
  | delayed => simp at conclusive

/-- An applied answer is proof of a durable entry. -/
theorem CommitCall.applied {revision cursor : String}
    (h : CommitCall commit w w' (some (.applied revision cursor))) :
    ∃ entry ∈ w'.journal, Answers journalShape (commitRequest commit) entry := by
  cases h with
  | answered submit reports =>
    cases reports with
    | applied entry =>
      obtain ⟨mem, answers⟩ := submit.applied_mem
      exact ⟨entry, mem, answers⟩

/-- What a found receipt reads in a journal. -/
theorem receipt_eq_found {journal : Journal} {operationId cursor revision : String}
    {receipts : List Json} (h : journal.receipt operationId = .found cursor revision receipts) :
    ∃ entry ∈ journal, entry.operationId = operationId ∧ entry.cursor = cursor ∧
      entry.providerRevision = revision ∧ entry.receipts = receipts := by
  unfold Journal.receipt at h
  split at h
  · simp at h
  · rename_i entry hentry
    simp only [AuthorityStoreReceiptResult.found.injEq] at h
    refine ⟨entry, List.mem_of_find?_eq_some hentry, ?_, h.1, h.2.1, h.2.2⟩
    simpa using List.find?_some hentry

theorem receipt_ne_missing {journal : Journal} {operationId : String}
    {entry : AuthorityStoreCommittedTransaction} (mem : entry ∈ journal)
    (same : entry.operationId = operationId) : journal.receipt operationId ≠ .missing := by
  unfold Journal.receipt
  split
  · rename_i hnone
    exact absurd (List.find?_eq_none.mp hnone entry mem) (by simp [same])
  · simp

namespace CommandReceiptContract

variable {contract : CommandReceiptContract P}

private theorem matches_of_projectFound {phase : ReceiptPhase} {revision cursor : String}
    {receipts : List Json} {status : CommandStatus} {changed : Bool} {fields : P}
    {revision' cursor' : String}
    (h : contract.projectFound phase revision cursor receipts =
      .ok (.settled status changed fields revision' cursor')) :
    revision = revision' ∧ cursor = cursor' ∧
      ∃ original, receipts = [original] ∧ contract.identity.Matches original := by
  unfold projectFound at h
  simp only at h
  split at h
  · split at h
    · rename_i original hmatches
      split at h
      · simp only [Except.ok.injEq, CommandResult.settled.injEq] at h
        exact ⟨h.2.2.2.1, h.2.2.2.2, original, rfl, hmatches⟩
      · simp at h
      · simp at h
    · simp at h
  · simp at h

/-- The command's own receipt is always projected as settled. -/
private theorem projectFound_prepared (prepared : contract.Prepared commit)
    (phase : ReceiptPhase) (revision cursor : String) :
    ∃ status changed fields, contract.projectFound phase revision cursor commit.receipts =
      .ok (.settled status changed fields revision cursor) := by
  obtain ⟨original, hreceipts, hmatches, hdecode⟩ := prepared.receipt
  obtain ⟨payload, hpayload⟩ := hdecode phase
  unfold projectFound
  simp only [hreceipts, if_pos hmatches, hpayload]
  exact ⟨_, _, _, rfl⟩

/-- A found receipt is projected in one of two phases. -/
private theorem settle_found (committed : AuthorityStoreCommitResult) (cursor revision : String)
    (receipts : List Json) :
    ∃ phase, contract.settle committed (.found cursor revision receipts) =
      contract.projectFound phase revision cursor receipts := by
  cases committed with
  | applied _ _ => exact ⟨.applied, rfl⟩
  | conflict _ _ _ => exact ⟨.recovered, rfl⟩
  | ambiguous _ _ => exact ⟨.recovered, rfl⟩
  | failed _ _ => exact ⟨.recovered, rfl⟩

/-- Without a found receipt the result is ambiguous, the store's own rejection, or the contradiction
of an applied commit without a receipt. -/
private theorem settle_unfound {committed : AuthorityStoreCommitResult}
    {receipt : AuthorityStoreReceiptResult} {result : CommandResult P}
    (unfound : ∀ cursor revision receipts, receipt ≠ .found cursor revision receipts)
    (h : contract.settle committed receipt = .ok result) :
    result = .ambiguous committed receipt ∨
    ((∃ revision cursor, committed = .applied revision cursor) ∧ receipt = .missing) ∨
    (result = .rejected committed ∧
      ((∃ kind revision cursor, committed = .conflict kind revision cursor) ∨
        ∃ code reason, committed = .failed code reason)) := by
  cases receipt with
  | found cursor revision receipts => exact absurd rfl (unfound cursor revision receipts)
  | missing =>
    cases committed with
    | applied revision cursor => exact .inr (.inl ⟨⟨revision, cursor, rfl⟩, rfl⟩)
    | ambiguous _ _ => exact .inl (Except.ok.inj h).symm
    | conflict kind revision cursor =>
      exact .inr (.inr ⟨(Except.ok.inj h).symm, .inl ⟨kind, revision, cursor, rfl⟩⟩)
    | failed code reason =>
      exact .inr (.inr ⟨(Except.ok.inj h).symm, .inr ⟨code, reason, rfl⟩⟩)
  | failure failure =>
    cases committed with
    | applied revision cursor => exact .inl (Except.ok.inj h).symm
    | ambiguous _ _ => exact .inl (Except.ok.inj h).symm
    | conflict kind revision cursor =>
      exact .inr (.inr ⟨(Except.ok.inj h).symm, .inl ⟨kind, revision, cursor, rfl⟩⟩)
    | failed code reason =>
      exact .inr (.inr ⟨(Except.ok.inj h).symm, .inr ⟨code, reason, rfl⟩⟩)

private theorem commit_eq_settle (prepared : contract.Prepared commit)
    (committed : Option AuthorityStoreCommitResult)
    (receipt : Option AuthorityStoreReceiptResult) :
    contract.commit commit committed receipt =
      contract.settle (committed.getD responseLost) (receipt.getD receiptUnread) := by
  unfold CommandReceiptContract.commit
  rw [if_neg (not_not.mpr prepared.operationId)]

/-- Where the result is settled, the receipt that was read is a durable entry's only one. -/
private theorem settled_entry (prepared : contract.Prepared commit) {journal : Journal}
    {answer : Option AuthorityStoreCommitResult} {read : Option AuthorityStoreReceiptResult}
    (receipt : ReceiptRead journal commit.operationId read) {status : CommandStatus}
    {changed : Bool} {fields : P} {revision cursor : String}
    (h : contract.commit commit answer read =
      .ok (.settled status changed fields revision cursor)) :
    ∃ entry ∈ journal, entry.operationId = contract.identity.operationId ∧
      entry.providerRevision = revision ∧ entry.cursor = cursor ∧
      ∃ original, entry.receipts = [original] ∧ contract.identity.Matches original := by
  rw [commit_eq_settle prepared] at h
  have unfound : ∀ failure : AuthorityStoreReadFailure,
      contract.settle (answer.getD responseLost) (.failure failure) ≠
        .ok (.settled status changed fields revision cursor) := by
    intro failure hfailure
    rcases settle_unfound (by simp) hfailure with h | ⟨-, h⟩ | ⟨h, -⟩ <;> simp at h
  cases receipt with
  | thrown => exact absurd h (unfound _)
  | failed failure => exact absurd h (unfound _)
  | answered =>
    simp only [Option.getD_some] at h
    cases hreceipt : journal.receipt commit.operationId with
    | failure failure =>
      rw [hreceipt] at h
      exact absurd h (unfound _)
    | missing =>
      rw [hreceipt] at h
      rcases settle_unfound (by simp) h with hresult | ⟨⟨_, _, happlied⟩, -⟩ | ⟨hresult, -⟩
      · simp at hresult
      · simp [happlied, settle] at h
      · simp at hresult
    | found cursor' revision' receipts =>
      rw [hreceipt] at h
      obtain ⟨phase, hphase⟩ :=
        @settle_found P contract (answer.getD responseLost) cursor' revision' receipts
      rw [hphase] at h
      obtain ⟨rfl, rfl, original, hreceipts, hmatches⟩ := matches_of_projectFound h
      obtain ⟨entry, mem, same, hcursor, hrevision, hentry⟩ := receipt_eq_found hreceipt
      exact ⟨entry, mem, same.trans prepared.operationId, hrevision, hcursor, original,
        hentry.trans hreceipts, hmatches⟩

/-- Where the caller is told that nothing was done, its write has not landed and never will. -/
private theorem refused_not_landed (prepared : contract.Prepared commit)
    {w₁ w₂ w₃ : CommitWorld} (distinct : Distinct journalShape w.journal)
    {answer : Option AuthorityStoreCommitResult} {read : Option AuthorityStoreReceiptResult}
    (call : CommitCall commit w w₁ answer) (between : CommitWorld.Background commit w₁ w₂)
    (receipt : ReceiptRead w₂.journal commit.operationId read)
    (later : CommitWorld.Background commit w₂ w₃) {result : CommandResult P}
    (h : contract.commit commit answer read = .ok result) (refuses : result.Refuses) :
    w₃.landed = none := by
  rw [commit_eq_settle prepared] at h
  have sound₂ := between.sound (call.sound distinct)
  by_cases hfound : ∃ cursor revision receipts, read = some (.found cursor revision receipts)
  · obtain ⟨cursor, revision, receipts, rfl⟩ := hfound
    have hreceipt : w₂.journal.receipt commit.operationId = .found cursor revision receipts := by
      generalize hread : some (AuthorityStoreReceiptResult.found cursor revision receipts) = read
        at receipt
      cases receipt with
      | answered => exact (Option.some.inj hread).symm
      | failed failure => simp at hread
      | thrown => simp at hread
    obtain ⟨entry, mem, same, -, -, hentry⟩ := receipt_eq_found hreceipt
    refine later.of_taken ⟨entry, mem, same⟩ ?_
    cases hlanded : w₂.landed with
    | none => rfl
    | some own =>
      -- the own entry is the one that was found, and its receipt settles the command
      obtain ⟨ownMem, answers⟩ := sound₂.landed own hlanded
      obtain rfl : own = entry :=
        CasLog.eq_of_id sound₂.distinct ownMem mem (answers.1.trans same.symm)
      have hown : receipts = commit.receipts := by
        rw [← hentry]
        exact congrArg CommitBody.receipts answers.2
      subst hown
      obtain ⟨phase, hphase⟩ :=
        @settle_found P contract (answer.getD responseLost) cursor revision commit.receipts
      obtain ⟨status, changed, fields, hsettled⟩ :=
        projectFound_prepared prepared phase revision cursor
      simp only [Option.getD_some, hphase, hsettled, Except.ok.injEq] at h
      subst h
      exact absurd refuses id
  · have unfound : ∀ cursor revision receipts,
        read.getD receiptUnread ≠ .found cursor revision receipts := by
      intro cursor revision receipts heq
      cases read with
      | none => simp [receiptUnread] at heq
      | some value => exact hfound ⟨cursor, revision, receipts, congrArg some heq⟩
    rcases settle_unfound unfound h with rfl | ⟨⟨revision, cursor, happlied⟩, hmissing⟩ |
      ⟨-, conclusive⟩
    · exact absurd refuses id
    · -- an applied commit is found by every later read that answers
      exfalso
      cases answer with
      | none => simp [responseLost] at happlied
      | some value =>
        obtain rfl : value = .applied revision cursor := happlied
        obtain ⟨entry, mem, answers⟩ := call.applied
        cases receipt with
        | answered =>
          exact receipt_ne_missing (between.isPrefix.subset mem) answers.1 hmissing
        | failed failure => simp at hmissing
        | thrown => simp [receiptUnread] at hmissing
    · cases answer with
      | none => simp [responseLost] at conclusive
      | some value =>
        obtain ⟨hflight, hlanded⟩ := call.rejected conclusive
        obtain ⟨hflight, hlanded⟩ := between.of_settled hflight hlanded
        exact (later.of_settled hflight hlanded).2

end CommandReceiptContract

/-- A command with one receipt, and the entry that its write becomes. -/
def sampleReceipt : Json :=
  .object [("schema_version", .string "v"), ("operation_id", .string "op"),
    ("goal_id", .string "goal"), ("request_sha256", .string "sha")]

def sampleContract : CommandReceiptContract Unit where
  identity := ⟨"v", "op", "goal", "sha"⟩
  decode := fun _ _ => .ok ⟨(), true⟩

def sampleCommit : AuthorityStoreCommit where
  expectedProviderRevision := none
  operationId := "op"
  events := []
  nextProjection := .object []
  receipts := [sampleReceipt]

def sampleEntry : AuthorityStoreCommittedTransaction where
  cursor := "1"
  providerRevision := "r1"
  operationId := "op"
  events := []
  receipts := [sampleReceipt]
  projection := .object []

end Loopx.Authority
