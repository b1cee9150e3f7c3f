/- GID: Loopx/Authority/Codec
   generality: I
   source: loopx/control_plane/coordination/authority_store_codec.ts
   digest: Boundary checks of the authority stores: ids, cursors, exact keys, digests and commits. -/

import Loopx.Lib.Fallible
import Loopx.Lib.Sha256
import Loopx.Lib.Strip
import Loopx.Json.Canonical

set_option autoImplicit false
set_option relaxedAutoImplicit false

namespace Loopx.Authority

open Loopx.Lib.KeyedList
open Loopx.Lib.Fallible (ok_bind bind_eq_ok)
open Loopx.Lib.Strip (stripEnds stripEnds_idem)
open Loopx.Lib.Decimal (isDigit_toDigits head?_toDigits_ne_zero toDigits_ofDigitChars)
open Loopx.Json (Protocol canonicalAuthorityJson canonicalAuthorityBytes canonicalEntries sortKeys
  Canonical canonical_canonicalAuthorityJson canonicalAuthorityJson_object
  canonicalAuthorityJson_array)

/-- Bytes are compared by this instance, whatever else a module imports. -/
instance instDecidableEqBytes : DecidableEq ByteArray := ByteArray.instDecidableEq

/-- White space as `String.prototype.trim` counts it. -/
def isJsSpace (c : Char) : Bool :=
  (9 ≤ c.toNat && c.toNat ≤ 13) || c.toNat = 0x20 || c.toNat = 0xa0 || c.toNat = 0x1680 ||
    (0x2000 ≤ c.toNat && c.toNat ≤ 0x200a) || c.toNat = 0x2028 || c.toNat = 0x2029 ||
    c.toNat = 0x202f || c.toNat = 0x205f || c.toNat = 0x3000 || c.toNat = 0xfeff

/-- `String.prototype.trim`. -/
def trim (s : String) : String :=
  String.ofList (((s.toList.dropWhile isJsSpace).reverse.dropWhile isJsSpace).reverse)

theorem trim_trim (s : String) : trim (trim s) = trim s := by
  have h := stripEnds_idem isJsSpace s.toList
  simp only [stripEnds] at h
  simp only [trim, String.toList_ofList, h]

/-- A non-empty string without white space at its ends. -/
def IsStoreId (s : String) : Prop := trim s = s ∧ s ≠ ""

instance : DecidablePred IsStoreId := fun s =>
  inferInstanceAs (Decidable (trim s = s ∧ s ≠ ""))

/-- `undefined` stands as `none`. -/
def requireAuthorityStoreId (value : Option Json) (name : String) : Protocol String :=
  match value with
  | some (.string s) =>
    if IsStoreId s then .ok s else .error (name ++ " must be a non-empty trimmed string")
  | _ => .error (name ++ " must be a non-empty trimmed string")

def hasExactAuthorityKeys (fields : List (String × Json)) (expected : List String) : Bool :=
  sortKeys (keys fields) = sortKeys expected

def canonicalAuthorityObject (value : Option Json) (name : String) : Protocol Json :=
  match value with
  | some (.object fields) => .ok (canonicalAuthorityJson (.object fields))
  | _ => .error (name ++ " must be an object")

def canonicalObjectItems (name : String) : Nat → List Json → Protocol (List Json)
  | _, [] => .ok []
  | index, item :: items => do
    let item ← canonicalAuthorityObject (some item) (name ++ "[" ++ index.repr ++ "]")
    let items ← canonicalObjectItems name (index + 1) items
    .ok (item :: items)

def canonicalAuthorityObjectList (value : Option Json) (name : String) : Protocol (List Json) :=
  match value with
  | some (.array items) => canonicalObjectItems name 0 items
  | _ => .error (name ++ " must be an array")

theorem requireAuthorityStoreId_eq_ok {value : Option Json} {name s : String} :
    requireAuthorityStoreId value name = .ok s ↔ value = some (.string s) ∧ IsStoreId s := by
  rcases value with _ | v
  · simp [requireAuthorityStoreId]
  · cases v with
    | string t =>
      simp only [requireAuthorityStoreId, Option.some.injEq, Json.string.injEq]
      split
      · rename_i ht
        constructor
        · intro h
          obtain rfl := Except.ok.inj h
          exact ⟨rfl, ht⟩
        · rintro ⟨rfl, -⟩
          rfl
      · rename_i ht
        simp only [reduceCtorEq, false_iff, not_and]
        rintro rfl
        exact ht
    | _ => simp [requireAuthorityStoreId]

/-- A canonical object: what every checked event, receipt and projection is. -/
def CanonicalObject (v : Json) : Prop := Json.isAuthorityJsonObject v = true ∧ Canonical v

instance : DecidablePred CanonicalObject := fun v =>
  inferInstanceAs (Decidable (Json.isAuthorityJsonObject v = true ∧ Canonical v))

theorem canonicalAuthorityObject_of_canonical {v : Json} (h : CanonicalObject v) (name : String) :
    canonicalAuthorityObject (some v) name = .ok v := by
  obtain ⟨hobject, hcanonical⟩ := h
  cases v with
  | object fields => exact congrArg Except.ok hcanonical
  | _ => simp [Json.isAuthorityJsonObject] at hobject

theorem canonicalObject_of_ok {value : Option Json} {name : String} {v : Json}
    (h : canonicalAuthorityObject value name = .ok v) : CanonicalObject v := by
  rcases value with _ | w
  · simp [canonicalAuthorityObject] at h
  · cases w with
    | object fields =>
      obtain rfl := Except.ok.inj h
      exact ⟨by simp [canonicalAuthorityJson_object, Json.isAuthorityJsonObject],
        canonical_canonicalAuthorityJson _⟩
    | _ => simp [canonicalAuthorityObject] at h

theorem eq_of_canonical_items {items items' : List Json}
    (each : ∀ v ∈ items, CanonicalObject v) (each' : ∀ v ∈ items', CanonicalObject v)
    (h : canonicalAuthorityJson (.array items) = canonicalAuthorityJson (.array items')) :
    items = items' := by
  rw [(Json.canonical_array items).mpr (fun v hv => (each v hv).2),
    (Json.canonical_array items').mpr (fun v hv => (each' v hv).2), Json.array.injEq] at h
  exact h

private theorem canonicalObjectItems_of_canonical {items : List Json}
    (h : ∀ v ∈ items, CanonicalObject v) (name : String) (index : Nat) :
    canonicalObjectItems name index items = .ok items := by
  induction items generalizing index with
  | nil => rfl
  | cons item items ih =>
    simp only [canonicalObjectItems, canonicalAuthorityObject_of_canonical (h item (by simp)),
      ih (fun v hv => h v (by simp [hv])), ok_bind]

theorem canonicalAuthorityObjectList_of_canonical {items : List Json}
    (h : ∀ v ∈ items, CanonicalObject v) (name : String) :
    canonicalAuthorityObjectList (some (.array items)) name = .ok items :=
  canonicalObjectItems_of_canonical h name 0

private theorem canonicalObjects_of_items_ok {items result : List Json} {name : String}
    {index : Nat} (h : canonicalObjectItems name index items = .ok result) :
    ∀ v ∈ result, CanonicalObject v := by
  induction items generalizing index result with
  | nil =>
    obtain rfl := Except.ok.inj h
    simp
  | cons item items ih =>
    obtain ⟨first, hfirst, h⟩ := bind_eq_ok.mp h
    obtain ⟨rest, hrest, h⟩ := bind_eq_ok.mp h
    obtain rfl := Except.ok.inj h
    intro v hv
    rcases List.mem_cons.mp hv with rfl | hv
    · exact canonicalObject_of_ok hfirst
    · exact ih hrest v hv

theorem canonicalObjects_of_ok {value : Option Json} {name : String} {result : List Json}
    (h : canonicalAuthorityObjectList value name = .ok result) :
    ∀ v ∈ result, CanonicalObject v := by
  rcases value with _ | w
  · simp [canonicalAuthorityObjectList] at h
  · cases w with
    | array items => exact canonicalObjects_of_items_ok h
    | _ => simp [canonicalAuthorityObjectList] at h

theorem requireAuthorityStoreId_canonical (value : Option Json) (name : String) :
    requireAuthorityStoreId (value.map canonicalAuthorityJson) name =
      requireAuthorityStoreId value name := by
  rcases value with _ | v
  · rfl
  · cases v <;> simp [requireAuthorityStoreId, canonicalAuthorityJson]

theorem hasExactAuthorityKeys_canonical {fields : List (String × Json)}
    (nodup : (keys fields).Nodup) (expected : List String) :
    hasExactAuthorityKeys (canonicalEntries (fields.map (fun f =>
      (f.1, canonicalAuthorityJson f.2)))) expected = hasExactAuthorityKeys fields expected := by
  rw [hasExactAuthorityKeys, hasExactAuthorityKeys,
    Json.sortKeys_eq_iff.mpr (Json.perm_keys_canonicalFields nodup)]

theorem canonicalAuthorityObject_canonical (value : Option Json) (name : String) :
    canonicalAuthorityObject (value.map canonicalAuthorityJson) name =
      canonicalAuthorityObject value name := by
  rcases value with _ | v
  · rfl
  · cases v with
    | object fields =>
      have h := canonical_canonicalAuthorityJson (.object fields)
      rw [Canonical, canonicalAuthorityJson_object] at h
      simp only [Option.map_some, canonicalAuthorityJson_object, canonicalAuthorityObject, h]
    | _ => simp [canonicalAuthorityObject, canonicalAuthorityJson]

private theorem canonicalObjectItems_canonical (name : String) (index : Nat)
    (items : List Json) :
    canonicalObjectItems name index (items.map canonicalAuthorityJson) =
      canonicalObjectItems name index items := by
  induction items generalizing index with
  | nil => rfl
  | cons item items ih =>
    have h := canonicalAuthorityObject_canonical (some item) (name ++ "[" ++ index.repr ++ "]")
    rw [Option.map_some] at h
    rw [List.map_cons, canonicalObjectItems, canonicalObjectItems, h, ih]

theorem canonicalAuthorityObjectList_canonical (value : Option Json) (name : String) :
    canonicalAuthorityObjectList (value.map canonicalAuthorityJson) name =
      canonicalAuthorityObjectList value name := by
  rcases value with _ | v
  · rfl
  · cases v with
    | array items =>
      simp only [Option.map_some, canonicalAuthorityJson_array, canonicalAuthorityObjectList,
        canonicalObjectItems_canonical]
    | _ => simp [canonicalAuthorityObjectList, canonicalAuthorityJson]

def isDecimalText (s : String) : Bool :=
  s.toList.all Char.isDigit && s.toList.head?.any (fun c => c ≠ '0')

/-- `null` reads as cursor zero; any other cursor is a positive decimal. -/
def parseAuthorityCursor (value : Option String) : Protocol Nat :=
  match value with
  | none => .ok 0
  | some s =>
    if isDecimalText s then .ok (Nat.ofDigitChars 10 s.toList 0)
    else .error "provider cursor is invalid"

theorem isDecimalText_repr (n : Nat) : isDecimalText (n + 1).repr = true := by
  simp only [isDecimalText, Nat.toList_repr, Bool.and_eq_true, List.all_eq_true]
  refine ⟨fun c hc => isDigit_toDigits hc, ?_⟩
  have hzero := head?_toDigits_ne_zero (Nat.succ_pos n)
  cases hd : Nat.toDigits 10 (n + 1) with
  | nil => exact absurd hd Nat.toDigits_ne_nil
  | cons d ds => simpa [hd] using hzero

theorem parseAuthorityCursor_repr (n : Nat) :
    parseAuthorityCursor (some (n + 1).repr) = .ok (n + 1) := by
  simp only [parseAuthorityCursor, isDecimalText_repr, if_true, Nat.toList_repr,
    Nat.ofDigitChars_ten_toDigits]

/-- A cursor text is determined by the position it names. -/
theorem eq_repr_of_parseAuthorityCursor {s : String} {n : Nat}
    (h : parseAuthorityCursor (some s) = .ok n) : 0 < n ∧ s = n.repr := by
  simp only [parseAuthorityCursor] at h
  split at h
  · rename_i decimal
    obtain rfl := Except.ok.inj h
    simp only [isDecimalText, Bool.and_eq_true, List.all_eq_true] at decimal
    obtain ⟨digits, head⟩ := decimal
    have nonempty : s.toList ≠ [] := by
      intro hnil
      simp [hnil] at head
    have hhead : s.toList.head? ≠ some '0' := by
      intro hzero
      simp [hzero] at head
    obtain ⟨pos, hdigits⟩ := toDigits_ofDigitChars digits hhead nonempty
    refine ⟨pos, String.toList_injective ?_⟩
    rw [Nat.toList_repr, hdigits]
  · simp at h

private theorem dropWhile_of_head {l : List Char} (h : ∀ c ∈ l.head?, isJsSpace c = false) :
    l.dropWhile isJsSpace = l := by
  cases l with
  | nil => rfl
  | cons c l => simp [h c (by simp)]

/-- A text whose first and last characters are no white space. -/
theorem isStoreId_of_ends {s : String} {a b : Char} (first : s.toList.head? = some a)
    (last : s.toList.getLast? = some b) (ha : isJsSpace a = false) (hb : isJsSpace b = false) :
    IsStoreId s := by
  have front : s.toList.dropWhile isJsSpace = s.toList :=
    dropWhile_of_head (by simp [first, ha])
  have back : s.toList.reverse.dropWhile isJsSpace = s.toList.reverse :=
    dropWhile_of_head (by simp [List.head?_reverse, last, hb])
  refine ⟨?_, ?_⟩
  · rw [trim, front, back, List.reverse_reverse, String.ofList_toList]
  · rintro rfl
    simp at first

theorem isJsSpace_of_isDigit {c : Char} (h : c.isDigit = true) : isJsSpace c = false := by
  obtain ⟨low, high⟩ := Char.isDigit_iff_toNat.mp h
  have hlow : 48 ≤ c.toNat := low
  have hhigh : c.toNat ≤ 57 := high
  simp only [isJsSpace, Bool.or_eq_false_iff, Bool.and_eq_false_iff, decide_eq_false_iff_not]
  omega

theorem isStoreId_repr (n : Nat) : IsStoreId n.repr := by
  have text : n.repr.toList = Nat.toDigits 10 n := Nat.toList_repr
  have nonempty : Nat.toDigits 10 n ≠ [] := Nat.toDigits_ne_nil
  refine isStoreId_of_ends (by rw [text, List.head?_eq_some_head nonempty])
    (by rw [text, List.getLast?_eq_some_getLast nonempty]) ?_ ?_
  · exact isJsSpace_of_isDigit (isDigit_toDigits (List.head_mem nonempty))
  · exact isJsSpace_of_isDigit (isDigit_toDigits (List.getLast_mem nonempty))

def isHexDigit (c : Char) : Bool :=
  (48 ≤ c.toNat && c.toNat ≤ 57) || (97 ≤ c.toNat && c.toNat ≤ 102)

/-- `BARE_SHA256_PATTERN`. -/
def isBareSha256 (s : String) : Bool := s.toList.length = 64 && s.toList.all isHexDigit

/-- The hex digest of the runtime's `sha256`. Only its shape is fixed here; a result that needs
digests to differ says so for the inputs it compares. -/
structure Sha256 where
  hex : ByteArray → String
  bare : ∀ bytes, isBareSha256 (hex bytes) = true

private theorem isHexDigit_digitChar {d : Nat} (h : d < 16) :
    isHexDigit (Nat.digitChar d) = true := by
  interval_cases d <;> rfl

/-- The digest the runtime really computes. -/
def Sha256.node : Sha256 where
  hex := Loopx.Lib.Sha256.hex
  bare := by
    intro bytes
    simp only [isBareSha256, Loopx.Lib.Sha256.hex, String.toList_ofList, Bool.and_eq_true,
      decide_eq_true_eq, List.all_eq_true]
    refine ⟨Loopx.Lib.Sha256.length_hexState _, ?_⟩
    intro c hc
    obtain ⟨d, hd, rfl⟩ := Loopx.Lib.Sha256.exists_digit_of_mem_hexState hc
    exact isHexDigit_digitChar hd

def canonicalAuthoritySha256 (sha : Sha256) (v : Json) : String :=
  sha.hex (canonicalAuthorityBytes v)

/-- The digest of a value whose canonical text is ASCII, from the codes of that text. -/
theorem canonicalAuthoritySha256_node {v : Json} {s : Loopx.Lib.Sha256.State}
    (ascii : (Json.text (canonicalAuthorityJson v)).all (fun c => decide (c.toNat < 128)) = true)
    (h : Loopx.Lib.Sha256.digest ((Json.text (canonicalAuthorityJson v)).map Char.toNat) = s) :
    canonicalAuthoritySha256 Sha256.node v = String.ofList (Loopx.Lib.Sha256.hexState s) := by
  have codes : ∀ c ∈ Json.text (canonicalAuthorityJson v), c.toNat < 128 := fun c hc =>
    of_decide_eq_true (List.all_eq_true.mp ascii c hc)
  rw [← h]
  exact Loopx.Lib.Sha256.hex_ofList_of_ascii codes

/-- One commit request as a caller writes it. -/
structure AuthorityStoreCommit where
  expectedProviderRevision : Option String
  operationId : String
  events : List Json
  nextProjection : Json
  receipts : List Json
deriving DecidableEq

def normalizeAuthorityStoreCommit (commit : AuthorityStoreCommit) :
    Protocol AuthorityStoreCommit :=
  if commit.expectedProviderRevision = some "" then .error "expected provider revision is invalid"
  else do
    let operationId ← requireAuthorityStoreId (some (.string commit.operationId)) "operation id"
    let events ← canonicalAuthorityObjectList (some (.array commit.events)) "events"
    let nextProjection ← canonicalAuthorityObject (some commit.nextProjection) "projection"
    let receipts ← canonicalAuthorityObjectList (some (.array commit.receipts)) "receipts"
    .ok ⟨commit.expectedProviderRevision, operationId, events, nextProjection, receipts⟩

/-- What normalization promises of a commit. -/
structure AuthorityStoreCommit.Normal (commit : AuthorityStoreCommit) : Prop where
  expected : commit.expectedProviderRevision ≠ some ""
  operationId : IsStoreId commit.operationId
  events : ∀ v ∈ commit.events, CanonicalObject v
  nextProjection : CanonicalObject commit.nextProjection
  receipts : ∀ v ∈ commit.receipts, CanonicalObject v

theorem normal_of_normalize {commit normalized : AuthorityStoreCommit}
    (h : normalizeAuthorityStoreCommit commit = .ok normalized) :
    normalized.Normal ∧ normalized.operationId = commit.operationId ∧
      normalized.expectedProviderRevision = commit.expectedProviderRevision := by
  simp only [normalizeAuthorityStoreCommit] at h
  split at h
  · simp at h
  rename_i expected
  obtain ⟨operationId, hid, h⟩ := bind_eq_ok.mp h
  obtain ⟨events, hevents, h⟩ := bind_eq_ok.mp h
  obtain ⟨nextProjection, hprojection, h⟩ := bind_eq_ok.mp h
  obtain ⟨receipts, hreceipts, h⟩ := bind_eq_ok.mp h
  obtain rfl := Except.ok.inj h
  obtain ⟨hsame, hstore⟩ := requireAuthorityStoreId_eq_ok.1 hid
  refine ⟨⟨expected, hstore, canonicalObjects_of_ok hevents, canonicalObject_of_ok hprojection,
    canonicalObjects_of_ok hreceipts⟩, ?_, rfl⟩
  simpa using hsame.symm

theorem fits_of_normalize {commit normalized : AuthorityStoreCommit}
    (h : normalizeAuthorityStoreCommit commit = .ok normalized)
    (fits : commit.nextProjection.Fits) : normalized.nextProjection.Fits := by
  simp only [normalizeAuthorityStoreCommit] at h
  split at h
  · simp at h
  obtain ⟨operationId, -, h⟩ := bind_eq_ok.mp h
  obtain ⟨events, -, h⟩ := bind_eq_ok.mp h
  obtain ⟨nextProjection, hprojection, h⟩ := bind_eq_ok.mp h
  obtain ⟨receipts, -, h⟩ := bind_eq_ok.mp h
  obtain rfl := Except.ok.inj h
  cases hv : commit.nextProjection with
  | object fields =>
    rw [hv] at hprojection fits
    obtain rfl := Except.ok.inj hprojection
    exact fits.canonicalAuthorityJson
  | _ => simp [hv, canonicalAuthorityObject] at hprojection

/-- Normalization does not look at which revision is expected, only that it is not empty. -/
theorem normalize_expected (commit : AuthorityStoreCommit) {expected : Option String}
    (h : commit.expectedProviderRevision ≠ some "") (h' : expected ≠ some "") :
    normalizeAuthorityStoreCommit { commit with expectedProviderRevision := expected } =
      (normalizeAuthorityStoreCommit commit).map
        (fun normalized => { normalized with expectedProviderRevision := expected }) := by
  simp only [normalizeAuthorityStoreCommit, if_neg h, if_neg h']
  cases requireAuthorityStoreId (some (.string commit.operationId)) "operation id" with
  | error reason => rfl
  | ok operationId =>
    cases canonicalAuthorityObjectList (some (.array commit.events)) "events" with
    | error reason => rfl
    | ok events =>
      cases canonicalAuthorityObject (some commit.nextProjection) "projection" with
      | error reason => rfl
      | ok nextProjection =>
        cases canonicalAuthorityObjectList (some (.array commit.receipts)) "receipts" with
        | error reason => rfl
        | ok receipts => rfl

theorem normalize_of_normal {commit : AuthorityStoreCommit} (h : commit.Normal) :
    normalizeAuthorityStoreCommit commit = .ok commit := by
  simp only [normalizeAuthorityStoreCommit, if_neg h.expected,
    requireAuthorityStoreId_eq_ok.2 ⟨rfl, h.operationId⟩,
    canonicalAuthorityObjectList_of_canonical h.events,
    canonicalAuthorityObject_of_canonical h.nextProjection,
    canonicalAuthorityObjectList_of_canonical h.receipts, ok_bind]

end Loopx.Authority
