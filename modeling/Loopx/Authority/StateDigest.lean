/- GID: Loopx/Authority/StateDigest
   generality: I
   source: loopx/control_plane/coordination/authority_state_log.ts, sqlite_authority_store.ts
   digest: State and commit digests, from a value and from the state a replay owns. -/

import Loopx.Authority.StateLog

set_option autoImplicit false
set_option relaxedAutoImplicit false

namespace Loopx.Authority

open Loopx.Lib.Fallible (ok_bind)
open Loopx.Json (Protocol canonicalAuthorityJson canonicalAuthorityBytes Canonical text quoteString
  fieldsText)

def authorityStateDigest (sha : Sha256) (projection : Json) : String :=
  canonicalAuthoritySha256 sha projection

/-- The fields of a commit proof besides its projection. -/
structure CommitFields where
  expectedProviderRevision : Option String
  operationId : String
  events : List Json
  receipts : List Json

def revisionJson : Option String → Json
  | none => .null
  | some revision => .string revision

def CommitFields.toJson (fields : CommitFields) (projection : Json) : Json :=
  .object [("expected_provider_revision", revisionJson fields.expectedProviderRevision),
    ("operation_id", .string fields.operationId), ("events", .array fields.events),
    ("receipts", .array fields.receipts), ("next_projection", projection)]

theorem CommitFields.canonical_toJson (fields : CommitFields) (projection : Json) :
    canonicalAuthorityJson (fields.toJson projection) =
      .object [("events", canonicalAuthorityJson (.array fields.events)),
        ("expected_provider_revision", revisionJson fields.expectedProviderRevision),
        ("next_projection", canonicalAuthorityJson projection),
        ("operation_id", .string fields.operationId),
        ("receipts", canonicalAuthorityJson (.array fields.receipts))] := by
  have revision : canonicalAuthorityJson (revisionJson fields.expectedProviderRevision) =
      revisionJson fields.expectedProviderRevision := by
    cases fields.expectedProviderRevision <;> rfl
  have sorted : ["events", "expected_provider_revision", "next_projection", "operation_id",
      "receipts"].Pairwise Json.OwnKeyLt := by decide
  rw [toJson, Json.canonicalAuthorityJson_object, Json.object.injEq]
  refine Json.canonicalEntries_of_perm ?_ sorted
  simp only [List.map_cons, List.map_nil, revision]
  rw [List.perm_iff_count]
  intro entry
  simp only [List.count_cons, Json.canonicalAuthorityJson]
  omega

/-- The commit proof as the object whose digest a row keeps. -/
def commitFields (identity : String) (cursor : Nat) (operationId : String)
    (events receipts : List Json) : CommitFields :=
  ⟨if cursor = 1 then none else some (identity ++ ":" ++ (cursor - 1).repr), operationId, events,
    receipts⟩

def commitDigest (sha : Sha256) (identity : String) (cursor : Nat) (operationId : String)
    (projection : Json) (events receipts : List Json) : String :=
  canonicalAuthoritySha256 sha
    ((commitFields identity cursor operationId events receipts).toJson projection)

namespace AuthorityStateReplay

/-- What the incremental encoder feeds the hash: the owned state's JSON text. -/
def projectionText (replay : AuthorityStateReplay) : List Char := text replay.state

def stateDigest (sha : Sha256) (replay : AuthorityStateReplay) : String :=
  sha.hex (String.ofList replay.projectionText).toByteArray

/-- `JSON.stringify(key) + ":" + JSON.stringify(envelope[key])`. -/
def fieldText (entry : String × Json) : List Char := quoteString entry.1 ++ ':' :: text entry.2

/-- The text around the projection, from the envelope's fields before and after its key. -/
def envelopeText (entries : List (String × Json)) (projection : List Char) : List Char :=
  let before := (entries.takeWhile (fun e => e.1 ≠ "next_projection")).map fieldText
  let after := ((entries.dropWhile (fun e => e.1 ≠ "next_projection")).drop 1).map fieldText
  '\x7b' :: (if before = [] then [] else (before.intersperse [',']).flatten ++ [',']) ++
    quoteString "next_projection" ++ ':' :: projection ++
    (if after = [] then [] else ',' :: (after.intersperse [',']).flatten) ++ ['\x7d']

/-- The commit digest with the owned projection's bytes inserted at its key. -/
def commitDigest (sha : Sha256) (replay : AuthorityStateReplay) (fields : CommitFields) :
    Protocol String := do
  let envelope ← canonicalAuthorityObject (some (fields.toJson .null)) "commit proof"
  match envelope with
  | .object entries =>
    .ok (sha.hex (String.ofList (envelopeText entries replay.projectionText)).toByteArray)
  | _ => .error "commit proof must be an object"

/-- On a canonical state the two encoders agree. -/
theorem stateDigest_eq (sha : Sha256) {replay : AuthorityStateReplay}
    (h : Canonical replay.state) : replay.stateDigest sha = authorityStateDigest sha replay.state := by
  rw [stateDigest, authorityStateDigest, canonicalAuthoritySha256, canonicalAuthorityBytes, h]
  rfl

private theorem envelopeText_eq (events revision operation receipts projection : Json) :
    envelopeText [("events", events), ("expected_provider_revision", revision),
        ("next_projection", .null), ("operation_id", operation), ("receipts", receipts)]
        (text projection) =
      text (.object [("events", events), ("expected_provider_revision", revision),
        ("next_projection", projection), ("operation_id", operation), ("receipts", receipts)]) := by
  simp [envelopeText, fieldText, text, fieldsText]

theorem commitDigest_eq (sha : Sha256) {replay : AuthorityStateReplay}
    (h : Canonical replay.state) (fields : CommitFields) :
    replay.commitDigest sha fields =
      .ok (canonicalAuthoritySha256 sha (fields.toJson replay.state)) := by
  have envelope : canonicalAuthorityObject (some (fields.toJson .null)) "commit proof" =
      .ok (canonicalAuthorityJson (fields.toJson .null)) := rfl
  rw [commitDigest, canonicalAuthoritySha256, canonicalAuthorityBytes, envelope,
    fields.canonical_toJson, fields.canonical_toJson, h, ok_bind]
  have null : canonicalAuthorityJson .null = .null := Json.canonical_null
  simp only [Json.stringify, projectionText, null, envelopeText_eq]

end AuthorityStateReplay

end Loopx.Authority
