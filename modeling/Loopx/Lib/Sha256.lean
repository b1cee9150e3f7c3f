/- GID: Loopx/Lib/Sha256
   generality: G
   digest: The SHA-256 digest of a byte string and its hexadecimal text. -/

import Mathlib.Algebra.Group.Nat.Defs
import Mathlib.Tactic.Common

set_option autoImplicit false
set_option relaxedAutoImplicit false

namespace Loopx.Lib.Sha256

/-- A 32-bit word, kept below `2 ^ 32` by every operation. -/
abbrev Word := Nat

def wordSize : Nat := 4294967296

def add (a b : Word) : Word := (a + b) % wordSize

def rotr (a : Word) (n : Nat) : Word := (a >>> n) ||| ((a <<< (32 - n)) % wordSize)

def complement (a : Word) : Word := wordSize - 1 - a

def roundConstants : List Word := [
  0x428a2f98, 0x71374491, 0xb5c0fbcf, 0xe9b5dba5, 0x3956c25b, 0x59f111f1,
  0x923f82a4, 0xab1c5ed5, 0xd807aa98, 0x12835b01, 0x243185be, 0x550c7dc3,
  0x72be5d74, 0x80deb1fe, 0x9bdc06a7, 0xc19bf174, 0xe49b69c1, 0xefbe4786,
  0x0fc19dc6, 0x240ca1cc, 0x2de92c6f, 0x4a7484aa, 0x5cb0a9dc, 0x76f988da,
  0x983e5152, 0xa831c66d, 0xb00327c8, 0xbf597fc7, 0xc6e00bf3, 0xd5a79147,
  0x06ca6351, 0x14292967, 0x27b70a85, 0x2e1b2138, 0x4d2c6dfc, 0x53380d13,
  0x650a7354, 0x766a0abb, 0x81c2c92e, 0x92722c85, 0xa2bfe8a1, 0xa81a664b,
  0xc24b8b70, 0xc76c51a3, 0xd192e819, 0xd6990624, 0xf40e3585, 0x106aa070,
  0x19a4c116, 0x1e376c08, 0x2748774c, 0x34b0bcb5, 0x391c0cb3, 0x4ed8aa4a,
  0x5b9cca4f, 0x682e6ff3, 0x748f82ee, 0x78a5636f, 0x84c87814, 0x8cc70208,
  0x90befffa, 0xa4506ceb, 0xbef9a3f7, 0xc67178f2]

/-- The eight words a digest is made of. -/
structure State where
  a : Word
  b : Word
  c : Word
  d : Word
  e : Word
  f : Word
  g : Word
  h : Word
deriving DecidableEq

def initial : State :=
  ⟨0x6a09e667, 0xbb67ae85, 0x3c6ef372, 0xa54ff53a, 0x510e527f, 0x9b05688c, 0x1f83d9ab, 0x5be0cd19⟩

/-- The sixteen words in use; each round drops the oldest and computes the next. -/
def nextWord (window : List Word) : Word :=
  let w0 := window.getD 0 0
  let w1 := window.getD 1 0
  let w9 := window.getD 9 0
  let w14 := window.getD 14 0
  let s0 := (rotr w1 7 ^^^ rotr w1 18) ^^^ (w1 >>> 3)
  let s1 := (rotr w14 17 ^^^ rotr w14 19) ^^^ (w14 >>> 10)
  (w0 + s0 + w9 + s1) % wordSize

def round (s : State) (k w : Word) : State :=
  let s1 := (rotr s.e 6 ^^^ rotr s.e 11) ^^^ rotr s.e 25
  let ch := (s.e &&& s.f) ^^^ (complement s.e &&& s.g)
  let t1 := (s.h + s1 + ch + k + w) % wordSize
  let s0 := (rotr s.a 2 ^^^ rotr s.a 13) ^^^ rotr s.a 22
  let maj := ((s.a &&& s.b) ^^^ (s.a &&& s.c)) ^^^ (s.b &&& s.c)
  ⟨add t1 (add s0 maj), s.a, s.b, s.c, add s.d t1, s.e, s.f, s.g⟩

def rounds : List Word → List Word → State → State
  | [], _, s => s
  | k :: ks, window, s =>
    rounds ks (window.drop 1 ++ [nextWord window]) (round s k (window.getD 0 0))

def compress (s : State) (block : List Word) : State :=
  let t := rounds roundConstants block s
  ⟨add s.a t.a, add s.b t.b, add s.c t.c, add s.d t.d, add s.e t.e, add s.f t.f, add s.g t.g,
    add s.h t.h⟩

/-- Big-endian bytes of a number, `count` of them. -/
def bigEndian (count n : Nat) : List Nat :=
  (List.range count).map (fun i => n / 256 ^ (count - 1 - i) % 256)

/-- The message, one set bit, zeros and the bit length: a multiple of 64 bytes. -/
def pad (message : List Nat) : List Nat :=
  message ++ 0x80 :: (List.replicate ((119 - message.length % 64) % 64) 0 ++
    bigEndian 8 (8 * message.length))

def words : List Nat → List Word
  | a :: b :: c :: d :: rest => (((a * 256 + b) * 256 + c) * 256 + d) :: words rest
  | _ => []

def blocks : Nat → List Word → State → State
  | 0, _, s => s
  | count + 1, ws, s => blocks count (ws.drop 16) (compress s (ws.take 16))

def digest (message : List Nat) : State :=
  let ws := words (pad message)
  blocks (ws.length / 16) ws initial

/-- Eight hexadecimal digits. -/
def hexWord (w : Word) : List Char :=
  (List.range 8).map (fun i => Nat.digitChar (w / 16 ^ (7 - i) % 16))

def hexState (s : State) : List Char :=
  hexWord s.a ++ hexWord s.b ++ hexWord s.c ++ hexWord s.d ++ hexWord s.e ++ hexWord s.f ++
    hexWord s.g ++ hexWord s.h

/-- `createHash("sha256").update(bytes).digest("hex")`. -/
def hex (bytes : ByteArray) : String :=
  String.ofList (hexState (digest (bytes.data.toList.map UInt8.toNat)))

example : hex "abc".toByteArray =
    "ba7816bf8f01cfea414140de5dae2223b00361a396177a9cb410ff61f20015ad" := by
  decide +kernel

/-- The digest of a text of ASCII characters is the digest of their codes. -/
theorem hex_ofList_of_ascii {cs : List Char} (ascii : ∀ c ∈ cs, c.toNat < 128) :
    hex (String.ofList cs).toByteArray = String.ofList (hexState (digest (cs.map Char.toNat))) := by
  have bytes : (String.ofList cs).toByteArray.data.toList.map UInt8.toNat = cs.map Char.toNat := by
    have encode : cs.utf8Encode.data.toList = cs.flatMap String.utf8EncodeChar := by
      simp [List.utf8Encode]
    rw [String.toByteArray_ofList, encode, List.map_flatMap]
    induction cs with
    | nil => rfl
    | cons c cs ih =>
      have code := ascii c List.mem_cons_self
      have single : c.utf8Size = 1 :=
        Char.utf8Size_eq_one_iff.mpr
          (UInt32.le_iff_toNat_le.mpr (by simpa using Nat.lt_succ_iff.mp code))
      rw [List.flatMap_cons, ih (fun d hd => ascii d (List.mem_cons_of_mem c hd)) (by
        simp [List.utf8Encode]), String.utf8EncodeChar_eq_singleton single]
      have same : c.toUInt8.toNat = c.toNat := by
        rw [Char.toUInt8, UInt32.toNat_toUInt8]
        exact Nat.mod_eq_of_lt (Nat.lt_trans code (by decide))
      simp [same]
  rw [hex, bytes]

theorem length_hexWord (w : Word) : (hexWord w).length = 8 := by
  simp [hexWord]

theorem exists_digit_of_mem_hexState {s : State} {c : Char} (h : c ∈ hexState s) :
    ∃ d < 16, c = Nat.digitChar d := by
  have word : ∀ {w : Word}, c ∈ hexWord w → ∃ d < 16, c = Nat.digitChar d := by
    intro w hw
    obtain ⟨i, -, rfl⟩ := List.mem_map.mp hw
    exact ⟨_, Nat.mod_lt _ (by decide), rfl⟩
  simp only [hexState, List.mem_append] at h
  rcases h with ((((((h | h) | h) | h) | h) | h) | h) | h <;> exact word h

theorem length_hexState (s : State) : (hexState s).length = 64 := by
  simp [hexState, length_hexWord]

end Loopx.Lib.Sha256
