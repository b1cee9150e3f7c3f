/- GID: Loopx/Authority/FileJournalIntegrity
   generality: I
   source: loopx/control_plane/coordination/file_authority_journal.ts
   digest: Two accepted documents with one head revision tell one history. -/

import Loopx.Authority.FileJournalRoundTrip

set_option autoImplicit false
set_option relaxedAutoImplicit false

namespace Loopx.Authority

open Loopx.Lib.KeyedList
open Loopx.Lib.Fallible (ok_bind bind_eq_ok)
open Loopx.Json (Protocol canonicalAuthorityJson canonicalAuthorityBytes Canonical)

/-- What the revisions of a history are digests of, in order. -/
def revisionProofs (goal identity : String) :
    Option String → List AuthorityStoreCommittedTransaction → List Json
  | _, [] => []
  | previous, transaction :: rest =>
    revisionProof goal identity previous (transactionForRevision transaction) ::
      revisionProofs goal identity (some transaction.providerRevision) rest

/-- No two of these values share the digits a revision keeps of their digest. -/
def CollisionFree (sha : Sha256) (values : List Json) : Prop :=
  ∀ v ∈ values, ∀ w ∈ values, shortDigest sha v = shortDigest sha w →
    canonicalAuthorityBytes v = canonicalAuthorityBytes w

private theorem length_shortDigest (sha : Sha256) (v : Json) :
    (shortDigest sha v).toList.length = 24 := by
  have hbare := sha.bare (canonicalAuthorityBytes v)
  simp only [isBareSha256, Bool.and_eq_true, decide_eq_true_eq] at hbare
  rw [shortDigest, String.toList_ofList, List.length_take, canonicalAuthoritySha256, hbare.1]
  decide

/-- A `file:` token names its cursor and its digest unambiguously. -/
theorem fileAuthorityRevision_inj {sha : Sha256} {goal identity : String}
    {previous previous' : Option String} {input input' : RevisionInput}
    (h : fileAuthorityRevision sha goal identity previous input =
      fileAuthorityRevision sha goal identity previous' input') :
    input.cursor = input'.cursor ∧
      shortDigest sha (revisionProof goal identity previous input) =
        shortDigest sha (revisionProof goal identity previous' input') := by
  have hlist := congrArg String.toList h
  simp only [fileAuthorityRevision, String.toList_append] at hlist
  obtain ⟨hstart, hdigest⟩ :=
    List.append_inj' hlist (by rw [length_shortDigest, length_shortDigest])
  refine ⟨String.toList_injective ?_, String.toList_injective hdigest⟩
  exact List.append_cancel_left (List.append_cancel_right hstart)

/-- The digest's input determines the predecessor revision and the whole transaction. -/
private theorem revisionProof_inj {goal identity : String} {previous previous' : Option String}
    {transaction transaction' : AuthorityStoreCommittedTransaction}
    (lawful : transaction.Lawful) (lawful' : transaction'.Lawful)
    (h : canonicalAuthorityJson
        (revisionProof goal identity previous (transactionForRevision transaction)) =
      canonicalAuthorityJson
        (revisionProof goal identity previous' (transactionForRevision transaction'))) :
    previous = previous' ∧
      transactionForRevision transaction = transactionForRevision transaction' := by
  have proofKeys : ∀ a b c d : Json, (keys [("goal_id", a), ("store_identity", b),
      ("previous_provider_revision", c), ("transaction", d)]).Nodup := by
    intro a b c d
    simp [keys]
  have outer := Json.lookup_of_canonical_eq (proofKeys _ _ _ _) (proofKeys _ _ _ _) h
  have hprevious := outer "previous_provider_revision"
  have htransaction := outer "transaction"
  simp only [List.lookup_cons, String.reduceBEq, beq_self_eq_true, Option.map_some,
    Option.some.injEq] at hprevious htransaction
  have inputKeys : ∀ a b c d e : Json, (keys [("cursor", a), ("operation_id", b), ("events", c),
      ("projection", d), ("receipts", e)]).Nodup := by
    intro a b c d e
    simp [keys]
  have inner := Json.lookup_of_canonical_eq (inputKeys _ _ _ _ _) (inputKeys _ _ _ _ _) htransaction
  have hcursor := inner "cursor"
  have hoperation := inner "operation_id"
  have hevents := inner "events"
  have hprojection := inner "projection"
  have hreceipts := inner "receipts"
  simp only [List.lookup_cons, String.reduceBEq, beq_self_eq_true, Option.map_some,
    Option.some.injEq, transactionForRevision] at hcursor hoperation hevents hprojection hreceipts
  rw [lawful.projection.2, lawful'.projection.2] at hprojection
  refine ⟨?_, ?_⟩
  · cases previous with
    | none =>
      cases previous' with
      | none => rfl
      | some text => simp [canonicalAuthorityJson] at hprevious
    | some text =>
      cases previous' with
      | none => simp [canonicalAuthorityJson] at hprevious
      | some text' => simpa [canonicalAuthorityJson] using hprevious
  · simp only [transactionForRevision, RevisionInput.mk.injEq]
    simp only [canonicalAuthorityJson, Json.string.injEq] at hcursor hoperation
    exact ⟨hcursor, hoperation, eq_of_canonical_items lawful.events lawful'.events hevents, hprojection,
      eq_of_canonical_items lawful.receipts lawful'.receipts hreceipts⟩

private theorem revisionProofs_append (goal identity : String) (previous : Option String)
    (first second : List JournalEntry) :
    revisionProofs goal identity previous ((first ++ second).map JournalEntry.transaction) =
      revisionProofs goal identity previous (first.map JournalEntry.transaction) ++
        revisionProofs goal identity (revisionAfter previous first)
          (second.map JournalEntry.transaction) := by
  induction first generalizing previous with
  | nil => simp [revisionProofs, revisionAfter]
  | cons entry first ih =>
    simp only [List.cons_append, List.map_cons, revisionProofs]
    rw [ih, revisionAfter_cons]

/-- Two lineages that end in one revision are the same transactions, back to the first. -/
theorem transactions_eq_of_revisionAfter {sha : Sha256} {goal identity : String}
    {entries entries' : List JournalEntry}
    (lineage : Lineage (fileAuthorityRevision sha goal identity) 0 none none entries)
    (lineage' : Lineage (fileAuthorityRevision sha goal identity) 0 none none entries')
    (collisionFree : CollisionFree sha
      (revisionProofs goal identity none (entries.map JournalEntry.transaction) ++
        revisionProofs goal identity none (entries'.map JournalEntry.transaction)))
    (same : revisionAfter none entries = revisionAfter none entries') :
    entries.map JournalEntry.transaction = entries'.map JournalEntry.transaction := by
  -- from the last row back: equal revisions have equal predecessors
  induction entries using List.reverseRecOn generalizing entries' with
  | nil =>
    cases entries' using List.reverseRecOn with
    | nil => rfl
    | append_singleton init' last' => simp [revisionAfter] at same
  | append_singleton init last ih =>
    cases entries' using List.reverseRecOn with
    | nil => simp [revisionAfter] at same
    | append_singleton init' last' =>
      obtain ⟨hinit, follows, -⟩ := lineage_append.mp lineage
      obtain ⟨hinit', follows', -⟩ := lineage_append.mp lineage'
      have hlast : last.providerRevision = last'.providerRevision := by
        simpa [revisionAfter] using same
      obtain ⟨-, hdigest⟩ := fileAuthorityRevision_inj
        (follows.revision.symm.trans (hlast.trans follows'.revision))
      rw [revisionProofs_append, revisionProofs_append] at collisionFree
      have hbytes := collisionFree _ (by simp [revisionProofs]) _ (by simp [revisionProofs]) hdigest
      obtain ⟨hprevious, hinput⟩ := revisionProof_inj follows.lawful follows'.lawful
        ((Json.canonicalAuthorityBytes_eq_iff _ _).mp hbytes)
      have hrest := ih hinit hinit' (fun v hv w hw => collisionFree v (by
        rcases List.mem_append.mp hv with hv | hv <;> simp [hv]) w (by
        rcases List.mem_append.mp hw with hw | hw <;> simp [hw])) hprevious
      have htransaction : last.transaction = last'.transaction := by
        simp only [transactionForRevision, RevisionInput.mk.injEq] at hinput
        obtain ⟨hcursor, hoperation, hevents, hprojection, hreceipts⟩ := hinput
        rcases last with ⟨⟨⟨_, _, _, _, _⟩, _⟩, _⟩
        rcases last' with ⟨⟨⟨_, _, _, _, _⟩, _⟩, _⟩
        simp_all
      rw [List.map_append, List.map_append, hrest, List.map_singleton, List.map_singleton,
        htransaction]

/-- The values behind the revisions of a journal. -/
def FileAuthorityJournal.proofs (journal : FileAuthorityJournal) : List Json :=
  match journal.transactions with
  | .ok transactions => revisionProofs journal.goalId journal.storeIdentity none transactions
  | .error _ => []

/-- Two documents accepted for one goal and store that name the same head revision hold the same
transactions at every cursor, however their states are encoded. -/
theorem fileJournal_integrity (sha : Sha256) (goal identity : String) (document document' : Json)
    (journal journal' : FileAuthorityJournal)
    (accepted : FileAuthorityJournal.decode document goal identity
      (fileAuthorityRevision sha goal identity) = .ok journal)
    (accepted' : FileAuthorityJournal.decode document' goal identity
      (fileAuthorityRevision sha goal identity) = .ok journal')
    (collisionFree : CollisionFree sha (journal.proofs ++ journal'.proofs))
    (same : field? document "provider_revision" = field? document' "provider_revision") :
    ∃ transactions, journal.transactions = .ok transactions ∧
      journal'.transactions = .ok transactions := by
  obtain ⟨rfl, rfl, hfield, entries, verified⟩ := FileAuthorityJournal.decode_verified accepted
  obtain ⟨hgoal, hidentity, hfield', entries', verified'⟩ :=
    FileAuthorityJournal.decode_verified accepted'
  refine ⟨entries.map JournalEntry.transaction, verified.transactions_eq, ?_⟩
  rw [FileAuthorityJournal.proofs, FileAuthorityJournal.proofs, verified.transactions_eq,
    verified'.transactions_eq, hgoal, hidentity] at collisionFree
  have hrevisions : revisionAfter none entries = revisionAfter none entries' := by
    rw [hfield, hfield', Option.some.injEq, Json.string.injEq] at same
    rw [verified.revisionAfter_eq, verified'.revisionAfter_eq, same]
  rw [verified'.transactions_eq, transactions_eq_of_revisionAfter verified.lineage
    verified'.lineage collisionFree hrevisions]

/-- The sample commits as rows, the second with any delta that closes the Todo. -/
def openEntry : JournalEntry :=
  committedEntry (fileAuthorityRevision Sha256.node "g" "file:0") 0 none none openCommit.commit

def closeEntry (change : AuthorityStateDelta) : JournalEntry :=
  ⟨committedTransaction (fileAuthorityRevision Sha256.node "g" "file:0") 1
    (some openEntry.providerRevision) closeCommit.commit, .delta change⟩

def openClose (change : AuthorityStateDelta) : FileAuthorityJournal :=
  ⟨"g", "file:0", closeCommit.commit.nextProjection, [openEntry.row, (closeEntry change).row],
    by simp⟩

private theorem openClose_verified {change : AuthorityStateDelta} (clean : change.Clean)
    (closes : applyOperations change.operations openCommit.commit.nextProjection =
      .ok closeCommit.commit.nextProjection) :
    (openClose change).Verified (fileAuthorityRevision Sha256.node "g" "file:0")
      [openEntry, closeEntry change] where
  rows := rfl
  lineage := by
    have ids := storeIds_fileAuthorityRevision Sha256.node "g" "file:0"
    refine ⟨⟨rfl, rfl, ⟨ids _ _, openCommit.normal.operationId, openCommit.normal.events,
      openCommit.normal.nextProjection, openCommit.normal.receipts⟩, ⟨rfl, rfl⟩⟩,
      ⟨rfl, rfl, ⟨ids _ _, closeCommit.normal.operationId, closeCommit.normal.events,
        closeCommit.normal.nextProjection, closeCommit.normal.receipts⟩, ?_⟩, trivial⟩
    exact ⟨by decide, clean, _, rfl, openCommit.normal.nextProjection, closes⟩
  distinct := by
    have hne : openCommit.commit.operationId ≠ closeCommit.commit.operationId := by decide
    exact List.nodup_cons.mpr ⟨fun h => hne (List.mem_singleton.mp h), List.nodup_singleton _⟩
  head := rfl

private theorem openDigest : shortDigest Sha256.node (revisionProof "g" "file:0" none
    (transactionForRevision openEntry.transaction)) = "21001ef7f5c3d5876a4e0e55" := by
  have digest : Lib.Sha256.digest ((Json.text (canonicalAuthorityJson (revisionProof "g" "file:0"
      none (transactionForRevision openEntry.transaction)))).map Char.toNat) =
      ⟨0x21001ef7, 0xf5c3d587, 0x6a4e0e55, 0xfea60601, 0x4e5d854a, 0xcca77cc9, 0x833ab60f,
        0x674b3475⟩ := by
    decide +kernel
  rw [shortDigest, canonicalAuthoritySha256_node (by decide) digest,
    String.toList_ofList]
  decide

private theorem closeDigest : shortDigest Sha256.node (revisionProof "g" "file:0"
    (some "file:1:21001ef7f5c3d5876a4e0e55") ⟨"2", "close-1", closeCommit.commit.events,
      closeCommit.commit.nextProjection, closeCommit.commit.receipts⟩) =
        "c9ad5cb104ee18fc8fd35fed" := by
  have digest : Lib.Sha256.digest ((Json.text (canonicalAuthorityJson (revisionProof "g" "file:0"
      (some "file:1:21001ef7f5c3d5876a4e0e55") ⟨"2", "close-1", closeCommit.commit.events,
        closeCommit.commit.nextProjection, closeCommit.commit.receipts⟩))).map Char.toNat) =
      ⟨0xc9ad5cb1, 0x04ee18fc, 0x8fd35fed, 0xe4808acb, 0x0fd86ed7, 0x79fe9e68, 0xde5f56dc,
        0x8973a632⟩ := by
    decide +kernel
  rw [shortDigest, canonicalAuthoritySha256_node (by decide +kernel) digest,
    String.toList_ofList]
  decide

private theorem openClose_digests :
    shortDigest Sha256.node (revisionProof "g" "file:0" none
        (transactionForRevision openEntry.transaction)) ≠
      shortDigest Sha256.node (revisionProof "g" "file:0" (some openEntry.providerRevision)
        (transactionForRevision (closeEntry ⟨[]⟩).transaction)) := by
  have revision : openEntry.providerRevision = "file:1:21001ef7f5c3d5876a4e0e55" := by
    have h : openEntry.providerRevision = "file:" ++ "1" ++ ":" ++ shortDigest Sha256.node
        (revisionProof "g" "file:0" none (transactionForRevision openEntry.transaction)) := rfl
    rw [h, openDigest]
    decide
  rw [openDigest, revision]
  intro h
  exact absurd (h.trans closeDigest) (by decide)

private theorem clean_splice : AuthorityStateDelta.Clean ⟨[.splice ["todos"] 0 1 []]⟩ := by
  intro operation h
  obtain rfl := List.mem_singleton.mp h
  exact ⟨by simp [AuthorityStateOperation.path], by decide, by decide, by simp⟩

private theorem clean_set : AuthorityStateDelta.Clean ⟨[.set ["todos"] (.array [])]⟩ := by
  intro operation h
  obtain rfl := List.mem_singleton.mp h
  exact ⟨by simp [AuthorityStateOperation.path], (Json.canonical_array []).mpr (by simp)⟩

/-- A splice and a whole-array replacement tell the same story under one revision. -/
theorem fileJournal_integrity_splice_set :
    ∃ transactions,
      (openClose ⟨[.splice ["todos"] 0 1 []]⟩).transactions = .ok transactions ∧
      (openClose ⟨[.set ["todos"] (.array [])]⟩).transactions = .ok transactions := by
  have splice := openClose_verified clean_splice (by decide)
  have replace := openClose_verified clean_set (by decide)
  refine fileJournal_integrity Sha256.node "g" "file:0" _ _ _ _
    (FileAuthorityJournal.decode_toDocument splice)
    (FileAuthorityJournal.decode_toDocument replace) ?_ rfl
  rw [FileAuthorityJournal.proofs, FileAuthorityJournal.proofs, splice.transactions_eq,
    replace.transactions_eq]
  intro v hv w hw h
  have cases : ∀ u, u ∈ revisionProofs "g" "file:0" none
      ([openEntry, closeEntry ⟨[]⟩].map JournalEntry.transaction) ++
        revisionProofs "g" "file:0" none
          ([openEntry, closeEntry ⟨[]⟩].map JournalEntry.transaction) →
      u = revisionProof "g" "file:0" none (transactionForRevision openEntry.transaction) ∨
      u = revisionProof "g" "file:0" (some openEntry.providerRevision)
        (transactionForRevision (closeEntry ⟨[]⟩).transaction) := by
    intro u hu
    simp only [List.map_cons, List.map_nil, revisionProofs, List.mem_append, List.mem_cons,
      List.not_mem_nil, or_false, or_self] at hu
    exact hu
  rcases cases v hv with rfl | rfl <;> rcases cases w hw with rfl | rfl
  · rfl
  · exact absurd h openClose_digests
  · exact absurd h.symm openClose_digests
  · rfl

end Loopx.Authority
