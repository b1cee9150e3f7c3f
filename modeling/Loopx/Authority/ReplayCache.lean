/- GID: Loopx/Authority/ReplayCache
   generality: I
   source: loopx/control_plane/coordination/authority_state_log.ts
   digest: The replay with its memo tables: identified values, cached encodings, long strings. -/

import Loopx.Authority.StateDigest
import Loopx.Authority.StateLogReplay

set_option autoImplicit false
set_option relaxedAutoImplicit false

namespace Loopx.Authority

open Loopx.Lib.KeyedList
open Loopx.Json (JsNumber Protocol text quoteString canonicalEntries)

/-- A JSON value as the runtime holds it: every array and object has an identity. -/
inductive Node : Type where
  | null
  | bool (b : Bool)
  | number (n : JsNumber)
  | string (s : String)
  | array (id : Nat) (items : List Node)
  | object (id : Nat) (fields : List (String × Node))

namespace Node

mutual

/-- The value without its identities. -/
def toJson : Node → Json
  | .null => .null
  | .bool b => .bool b
  | .number n => .number n
  | .string s => .string s
  | .array _ items => .array (itemsJson items)
  | .object _ fields => .object (fieldsJson fields)

def itemsJson : List Node → List Json
  | [] => []
  | item :: items => toJson item :: itemsJson items

def fieldsJson : List (String × Node) → List (String × Json)
  | [] => []
  | (key, value) :: fields => (key, toJson value) :: fieldsJson fields

end

mutual

/-- A fresh copy of a value; identities are given out from `next` on, children first. -/
def alloc : Json → Nat → Node × Nat
  | .null, next => (.null, next)
  | .bool b, next => (.bool b, next)
  | .number n, next => (.number n, next)
  | .string s, next => (.string s, next)
  | .array items, next =>
    let (items, next) := allocItems items next
    (.array next items, next + 1)
  | .object fields, next =>
    let (fields, next) := allocFields fields next
    (.object next fields, next + 1)

def allocItems : List Json → Nat → List Node × Nat
  | [], next => ([], next)
  | item :: items, next =>
    let (item, next) := alloc item next
    let (items, next) := allocItems items next
    (item :: items, next)

def allocFields : List (String × Json) → Nat → List (String × Node) × Nat
  | [], next => ([], next)
  | (key, value) :: fields, next =>
    let (value, next) := alloc value next
    let (fields, next) := allocFields fields next
    ((key, value) :: fields, next)

end

/-- One operation on identified values. The containers along the path are copied and so get new
identities; everything beside the path is shared. -/
def applyOperation (operation : AuthorityStateOperation) :
    Node → AuthorityStatePath → Nat → Protocol (Node × Nat)
  | .object _ container, key :: rest, next =>
    match rest with
    | _ :: _ =>
      match container.lookup key with
      | none => .error "authority state delta path leaves the previous state"
      | some child => do
        let (child, next) ← applyOperation operation child rest next
        .ok (.object next (canonicalEntries (setKey container key child)), next + 1)
    | [] =>
      match operation with
      | .splice _ index remove insert =>
        match container.lookup key with
        | none => .error "authority state delta path leaves the previous state"
        | some (.array _ target) =>
          if index + remove > target.length then
            .error "authority state delta splice is out of range"
          else
            let (insert, next) := allocItems insert next
            let spliced := .array next (target.take index ++ (insert ++ target.drop (index + remove)))
            .ok (.object (next + 1) (canonicalEntries (setKey container key spliced)), next + 2)
        | some _ => .error "authority state delta spliced a value that is not an array"
      | .remove _ =>
        if (container.lookup key).isNone then
          .error "authority state delta removed a value that was never stored"
        else .ok (.object next (canonicalEntries (eraseKey container key)), next + 1)
      | .set _ value =>
        let (value, next) := alloc value next
        .ok (.object next (canonicalEntries (setKey container key value)), next + 1)
  | _, _, _ => .error "authority state delta path leaves the previous state"

def applyOperations : List AuthorityStateOperation → Node → Nat → Protocol (Node × Nat)
  | [], state, next => .ok (state, next)
  | operation :: rest, state, next => do
    let (state, next) ← applyOperation operation state operation.path next
    applyOperations rest state next

end Node

/-- `String.prototype.length`. -/
def stringLength (s : String) : Nat := (s.toList.map (fun c => if 0xffff < c.toNat then 2 else 1)).sum

/-- `Buffer.from(text, "utf8").byteLength`. -/
def byteLength (text : List Char) : Nat := (String.ofList text).utf8ByteSize

/-- The memo tables of one replay. A buffer stands as the text it was made from; the strings stand
in the order they were put in. -/
structure ReplayCaches where
  byteObjects : List (Nat × List Char)
  encoded : List (Nat × List Char)
  strings : List (String × List Char)
  stringBytes : Nat

namespace ReplayCaches

def empty : ReplayCaches := ⟨[], [], [], 0⟩

/-- Drop the oldest strings until `size` more bytes fit. -/
def evict (size : Nat) : List (String × List Char) → Nat → List (String × List Char) × Nat
  | [], stringBytes => ([], stringBytes)
  | (value, bytes) :: rest, stringBytes =>
    if stringBytes + size > 4 * 1024 ^ 2 then evict size rest (stringBytes - byteLength bytes)
    else ((value, bytes) :: rest, stringBytes)

def longString (caches : ReplayCaches) (value : String) : ReplayCaches × List Char :=
  match caches.strings.lookup value with
  | some known => (caches, known)
  | none =>
    let bytes := quoteString value
    if byteLength bytes > 2 * 1024 ^ 2 then (caches, bytes)
    else
      let (strings, stringBytes) := evict (byteLength bytes) caches.strings caches.stringBytes
      ({ caches with
          strings := strings ++ [(value, bytes)]
          stringBytes := stringBytes + byteLength bytes }, bytes)

/-- `JSON.stringify` of a string, through the table where it is long. -/
def encodeString (caches : ReplayCaches) (value : String) : ReplayCaches × List Char :=
  if stringLength value ≥ 1024 then caches.longString value else (caches, quoteString value)

mutual

def encode (caches : ReplayCaches) : Node → ReplayCaches × List Char
  | .null => (caches, text .null)
  | .bool b => (caches, text (.bool b))
  | .number n => (caches, text (.number n))
  | .string s => caches.encodeString s
  | .array id items =>
    match caches.encoded.lookup id with
    | some known => (caches, known)
    | none =>
      let (caches, parts) := encodeItems caches items
      let encoded := '[' :: [','].intercalate parts ++ [']']
      ({ caches with encoded := (id, encoded) :: caches.encoded }, encoded)
  | .object id fields =>
    match caches.encoded.lookup id with
    | some known => (caches, known)
    | none =>
      let (caches, parts) := encodeFields caches fields
      let encoded := '\x7b' :: [','].intercalate parts ++ ['\x7d']
      ({ caches with encoded := (id, encoded) :: caches.encoded }, encoded)

def encodeItems (caches : ReplayCaches) : List Node → ReplayCaches × List (List Char)
  | [] => (caches, [])
  | item :: items =>
    let (caches, part) := encode caches item
    let (caches, parts) := encodeItems caches items
    (caches, part :: parts)

def encodeFields (caches : ReplayCaches) : List (String × Node) → ReplayCaches × List (List Char)
  | [] => (caches, [])
  | (key, value) :: fields =>
    let (caches, part) := encode caches value
    let (caches, parts) := encodeFields caches fields
    (caches, (quoteString key ++ ':' :: part) :: parts)

end

/-- What a top-level value of the state adds to the hash. -/
def memberBytes (caches : ReplayCaches) (value : Node) : ReplayCaches × List Char :=
  match value with
  | .array id items =>
    match caches.byteObjects.lookup id with
    | some known => (caches, known)
    | none =>
      let (caches, bytes) := caches.encode (.array id items)
      ({ caches with byteObjects := (id, bytes) :: caches.byteObjects }, bytes)
  | .object id fields =>
    match caches.byteObjects.lookup id with
    | some known => (caches, known)
    | none =>
      let (caches, bytes) := caches.encode (.object id fields)
      ({ caches with byteObjects := (id, bytes) :: caches.byteObjects }, bytes)
  | .string s => caches.encodeString s
  | value => (caches, text value.toJson)

/-- The loop over the state's keys; `hash` is what the hash has taken in. -/
def updateMembers : ReplayCaches → List Char → Bool → List (String × Node) →
    ReplayCaches × List Char
  | caches, hash, _, [] => (caches, hash)
  | caches, hash, first, (key, value) :: rest =>
    let (caches, bytes) := caches.memberBytes value
    updateMembers caches
      (hash ++ (if first then [] else [',']) ++ quoteString key ++ [':'] ++ bytes) false rest

end ReplayCaches

/-- The replay a reader owns. -/
structure CachedReplay where
  state : Node
  next : Nat
  caches : ReplayCaches

namespace CachedReplay

def create (projection : Json) : Protocol CachedReplay := do
  let state ← canonicalAuthorityObject (some projection) "authority replay state"
  let (state, next) := Node.alloc state 0
  .ok ⟨state, next, .empty⟩

/-- The delta is decoded first and the state replaced only when the whole batch applied. -/
def apply (replay : CachedReplay) (delta : Json) : Protocol CachedReplay := do
  let delta ← decodeAuthorityStateDelta delta
  let (state, next) ← Node.applyOperations delta.operations replay.state replay.next
  .ok { replay with state := state, next := next }

def snapshot (replay : CachedReplay) : Json := Json.copyAuthorityJson replay.state.toJson

def canonicalJson (replay : CachedReplay) : CachedReplay × List Char :=
  let (caches, encoded) := replay.caches.encode replay.state
  ({ replay with caches := caches }, encoded)

/-- What the hash has taken in after the projection. -/
def updateProjection (replay : CachedReplay) (hash : List Char) : CachedReplay × List Char :=
  let fields := match replay.state with
    | .object _ fields => fields
    | _ => []
  let (caches, hash) := replay.caches.updateMembers (hash ++ ['\x7b']) true fields
  ({ replay with caches := caches }, hash ++ ['\x7d'])

def stateDigest (sha : Sha256) (replay : CachedReplay) : CachedReplay × String :=
  let (replay, hash) := replay.updateProjection []
  (replay, sha.hex (String.ofList hash).toByteArray)

/-- The envelope up to its projection. -/
def envelopeHead (entries : List (String × Json)) : List Char :=
  let before := (entries.takeWhile (fun e => e.1 ≠ "next_projection")).map
    AuthorityStateReplay.fieldText
  '\x7b' :: (if before = [] then [] else (before.intersperse [',']).flatten ++ [',']) ++
    quoteString "next_projection" ++ [':']

/-- The envelope after its projection. -/
def envelopeTail (entries : List (String × Json)) : List Char :=
  let after := ((entries.dropWhile (fun e => e.1 ≠ "next_projection")).drop 1).map
    AuthorityStateReplay.fieldText
  (if after = [] then [] else ',' :: (after.intersperse [',']).flatten) ++ ['\x7d']

def commitDigest (sha : Sha256) (replay : CachedReplay) (fields : CommitFields) :
    Protocol (CachedReplay × String) := do
  let envelope ← canonicalAuthorityObject (some (fields.toJson .null)) "commit proof"
  match envelope with
  | .object entries =>
    let (replay, hash) := replay.updateProjection (envelopeHead entries)
    .ok (replay, sha.hex (String.ofList (hash ++ envelopeTail entries)).toByteArray)
  | _ => .error "commit proof must be an object"

end CachedReplay

/-- A call on the replay, or a collection of identities nobody asks for any more. -/
inductive ReplayCall where
  | apply (delta : Json)
  | canonicalJson
  | stateDigest
  | commitDigest (fields : CommitFields)
  | collect (kept : Nat → Bool)

def replayStep (sha : Sha256) (replay : CachedReplay) : ReplayCall → CachedReplay
  | .apply delta =>
    match replay.apply delta with
    | .ok replay => replay
    | .error _ => replay
  | .canonicalJson => replay.canonicalJson.1
  | .stateDigest => (replay.stateDigest sha).1
  | .commitDigest fields =>
    match replay.commitDigest sha fields with
    | .ok (replay, _) => replay
    | .error _ => replay
  | .collect kept =>
    { replay with
      caches :=
        { replay.caches with
          byteObjects := replay.caches.byteObjects.filter (fun e => kept e.1)
          encoded := replay.caches.encoded.filter (fun e => kept e.1) } }

/-- The replay after a sequence of calls. -/
def replayAfter (sha : Sha256) (replay : CachedReplay) (calls : List ReplayCall) : CachedReplay :=
  calls.foldl (replayStep sha) replay

/-- The state that the deltas of these calls lead to, encoded nowhere. -/
def plainReplayAfter (replay : AuthorityStateReplay) (calls : List ReplayCall) : AuthorityStateReplay :=
  calls.foldl (fun replay call =>
    match call with
    | .apply delta => match replay.apply delta with | .ok replay => replay | .error _ => replay
    | _ => replay) replay

end Loopx.Authority
