/- GID: Loopx/Lease/WriteScope
   generality: I
   source: loopx/control_plane/work_items/task_lease_acquire_decision.ts
   digest: Write scopes of a lease: canonical spelling, folded glob matching and overlap. -/

import Loopx.Authority.Codec

set_option autoImplicit false
set_option relaxedAutoImplicit false

namespace Loopx.Lease

open Loopx.Authority (isJsSpace trim)

/-- The host's Unicode text functions. -/
structure HostText where
  toUpperCase : List Char → List Char
  toLowerCase : List Char → List Char
  localeCompare : String → String → Ordering

/-- `String.prototype.length` counts UTF-16 code units. -/
def utf16Length (text : List Char) : Nat :=
  (text.map (fun c => if 0xffff < c.toNat then 2 else 1)).sum

def todoWriteScopeMaxChars : Nat := 160

/-- The offset of the `]` that closes a class, in the text after its `[`. A `]` right at the start
of the class, after an optional `!`, does not close it. -/
def characterClassEnd (text : List Char) : Option Nat :=
  let start := if text.head? = some '!' then 1 else 0
  let start := if (text.drop start).head? = some ']' then start + 1 else start
  ((text.drop start).findIdx? (fun c => decide (c = ']'))).map (fun n => start + n)

/-- Split at the slashes outside character classes. The first argument counts the characters of a
class that are still to be copied, the second is the part being read. -/
def scopeParts : Nat → List Char → List Char → List (List Char)
  | _, part, [] => [part]
  | skip + 1, part, c :: rest => scopeParts skip (part ++ [c]) rest
  | 0, part, c :: rest =>
    if c = '/' then part :: scopeParts 0 [] rest
    else if c = '[' then
      match characterClassEnd rest with
      | some closing => scopeParts (closing + 1) (part ++ [c]) rest
      | none => scopeParts 0 (part ++ [c]) rest
    else scopeParts 0 (part ++ [c]) rest

/-- Drop empty and `.` parts; a `..` part makes the scope unreadable. -/
def canonicalParts : List (List Char) → Option (List (List Char))
  | [] => some []
  | part :: parts =>
    if part = [] ∨ part = ['.'] then canonicalParts parts
    else if part = ['.', '.'] then none
    else (canonicalParts parts).map (fun parts => part :: parts)

/-- One repository-relative scope, without resolving it against a file system. -/
def canonicalWriteScope (value : String) : Option String :=
  let scope := (trim value).toList
  if scope = [] ∨ todoWriteScopeMaxChars < utf16Length scope ∨ scope.head? = some '/' ∨
      scope.head? = some '~' ∨ '\\' ∈ scope ∨
      scope.any (fun c => isJsSpace c || c == '<' || c == '>') then none
  else
    let trailingSlash := scope.getLast? = some '/'
    match canonicalParts (scopeParts 0 [] scope) with
    | none => none
    | some [] => if trailingSlash then some "./" else none
    | some parts =>
      some (String.ofList (['/'].intercalate parts ++ if trailingSlash then ['/'] else []))

/-- The comparison view of persisted scopes: an unreadable one blocks everything. -/
def comparisonWriteScopes (scopes : List String) : List String :=
  match scopes.mapM canonicalWriteScope with
  | none => ["**"]
  | some canonical => canonical.eraseDups

/-- A single pass of the fold; four passes bound the iteration. -/
def foldPasses (host : HostText) : Nat → List Char → List Char
  | 0, folded => folded
  | pass + 1, folded =>
    let next := host.toLowerCase (host.toUpperCase folded)
    if next = folded then folded else foldPasses host pass next

def foldCharacter (host : HostText) (c : Char) : List Char := foldPasses host 4 [c]

def caseFold (host : HostText) (value : List Char) : List Char :=
  value.flatMap (foldCharacter host)

inductive GlobToken where
  | literal (folded : List Char)
  | star
  | question
  | characterClass (body : List Char) (negated : Bool)
  deriving DecidableEq, Repr

/-- The pending literal text as a token, if there is any. -/
def flushLiteral (fold : List Char → List Char) (literal : List Char) : List GlobToken :=
  if literal = [] then [] else [.literal (fold literal)]

/-- The class token of a body, which a leading `!` negates. -/
def classToken : List Char → GlobToken
  | '!' :: body => .characterClass body true
  | body => .characterClass body false

/-- `skip` counts the characters of a class that its token has already taken. -/
def globTokens (fold : List Char → List Char) : Nat → List Char → List Char → List GlobToken
  | _, literal, [] => flushLiteral fold literal
  | skip + 1, literal, _ :: rest => globTokens fold skip literal rest
  | 0, literal, c :: rest =>
    if c = '*' then flushLiteral fold literal ++ .star :: globTokens fold 0 [] rest
    else if c = '?' then flushLiteral fold literal ++ .question :: globTokens fold 0 [] rest
    else if c = '[' then
      match characterClassEnd rest with
      | some closing =>
        flushLiteral fold literal ++
          classToken (rest.take closing) :: globTokens fold (closing + 1) [] rest
      | none => globTokens fold 0 (literal ++ [c]) rest
    else globTokens fold 0 (literal ++ [c]) rest

structure CharacterClass where
  literals : List Char
  ranges : List (Nat × Nat)

/-- Class members are code points, and a range keeps its bounds. -/
def characterClass : List Char → CharacterClass
  | low :: '-' :: high :: rest =>
    let members := characterClass rest
    { members with ranges := (low.toNat, high.toNat) :: members.ranges }
  | c :: rest =>
    let members := characterClass rest
    { members with literals := c :: members.literals }
  | [] => ⟨[], []⟩

def classContains (members : CharacterClass) (c : Char) : Bool :=
  decide (c ∈ members.literals) ||
    members.ranges.any (fun r => decide (r.1 ≤ c.toNat ∧ c.toNat ≤ r.2))

/-- `String.fromCodePoint`; a surrogate is no character of its own. -/
def fromCodePoint (code : Nat) : Option Char :=
  if h : code.isValidChar then some (Char.ofNatAux code h) else none

/-- The code points of one block of the code space, in order. -/
def codeBlock (start : Nat) : List Char := (List.range' start 0x400).filterMap fromCodePoint

/-- Characters whose fold is not themselves, each behind its fold. A block without a case mapping
is skipped whole. -/
def foldPreimages (host : HostText) : List (List Char × Char) :=
  (List.range 0x440).flatMap fun block =>
    let characters := codeBlock (block * 0x400)
    if host.toUpperCase characters = characters ∧ host.toLowerCase characters = characters then []
    else characters.filterMap fun c =>
      if foldCharacter host c = [c] then none else some (foldCharacter host c, c)

/-- The longest fold that one code point expands to. -/
def maximumFoldConsumption (host : HostText) : Nat :=
  (foldPreimages host).foldl (fun limit entry => max limit entry.1.length) 1

/-- A class member covers the candidate when the two share a fold. -/
def classMemberMatches (host : HostText) (body candidate : List Char) : Bool :=
  let members := characterClass body
  let folded := caseFold host candidate
  (foldPreimages host).any (fun entry => entry.1 = folded && classContains members entry.2) ||
    match folded with
    | [own] => classContains members own
    | _ => false

/-- The spans from one symbol up to the longest fold that start the text. -/
def foldSpans (host : HostText) (symbols : List Char) : List Nat :=
  (List.range' 1 (maximumFoldConsumption host)).filter (fun n => n ≤ symbols.length)

def classMatchLengths (host : HostText) (body symbols : List Char) : List Nat :=
  (foldSpans host symbols).filter (fun n => classMemberMatches host body (symbols.take n))

def singleCharacterMatchLengths (host : HostText) (symbols : List Char) : List Nat :=
  (foldSpans host symbols).filter fun n =>
    (n = 1 && caseFold host (symbols.take n) = symbols.take n) ||
      (foldPreimages host).any (fun entry => entry.1 = symbols.take n)

/-- Whether some code point in a gap between the intervals is outside the class. A lone surrogate
is never a member. -/
def gapHasMatch (host : HostText) (body : List Char) : Nat → List (Nat × Nat) → Bool
  | _, [] => false
  | candidate, (low, high) :: rest =>
    (List.range' candidate (low - candidate)).any (fun code =>
      match fromCodePoint code with
      | some c => !classMemberMatches host body [c]
      | none => true) ||
    gapHasMatch host body (max candidate (high + 1)) rest

def classHasMatch (host : HostText) (body : List Char) (negated : Bool) : Bool :=
  let members := characterClass body
  let intervals := ((members.ranges ++ members.literals.map (fun c => (c.toNat, c.toNat))).filter
    (fun r => decide (r.1 ≤ r.2))).mergeSort (fun r r' => decide (r.1 ≤ r'.1))
  if negated then gapHasMatch host body 0 (intervals ++ [(0x110000, 0x110000)])
  else !intervals.isEmpty

/-- Every token from here on can still take a character. -/
def suffixPossible (host : HostText) (tokens : List GlobToken) : Bool :=
  tokens.all fun
    | .characterClass body negated => classHasMatch host body negated
    | _ => true

/-- A star takes no symbol, or one and stays. -/
def matchStar (next : List Char → Bool) : List Char → Bool
  | [] => next []
  | c :: rest => next (c :: rest) || matchStar next rest

/-- The symbols that a class or a `?` can take at the front of the text. -/
def takenLengths (host : HostText) (fold : Bool) (symbols : List Char) :
    GlobToken → List Nat
  | .question => if fold then singleCharacterMatchLengths host symbols else [1]
  | .characterClass body negated =>
    let lengths :=
      if fold then classMatchLengths host body symbols
      else if symbols.head?.any (classContains (characterClass body)) then [1] else []
    if negated then
      (if fold then singleCharacterMatchLengths host symbols else [1]).filter
        (fun n => decide (n ∉ lengths))
    else lengths
  | _ => []

/-- `match` of the source, from the symbols and tokens that are left. With `descendants` the text
may go on after its last symbol. -/
def matchTokens (host : HostText) (descendants fold : Bool) :
    List GlobToken → List Char → Bool
  | [], symbols => symbols.isEmpty
  | .star :: tokens, symbols => matchStar (matchTokens host descendants fold tokens) symbols
  | token :: tokens, [] => descendants && suffixPossible host (token :: tokens)
  | .literal folded :: tokens, symbols =>
    let compared := folded.take symbols.length
    decide (compared = symbols.take compared.length) &&
      if folded.length ≤ symbols.length then
        matchTokens host descendants fold tokens (symbols.drop folded.length)
      else descendants && suffixPossible host tokens
  | token :: tokens, symbols =>
    (takenLengths host fold symbols token).any
      (fun n => matchTokens host descendants fold tokens (symbols.drop n))

example (host : HostText) : matchTokens host false false [.star] [] = true := by
  simp [matchTokens, matchStar]

example : globTokens id 0 [] ['*'] = [.star] := by
  simp [globTokens, flushLiteral]

/-- Match against the folded code points of the compared path. -/
def fnmatchcase (host : HostText) (value pattern : List Char) (descendants fold : Bool) :
    Bool :=
  let foldText := if fold then caseFold host else id
  matchTokens host descendants fold (globTokens foldText 0 [] pattern) (foldText value)

def isGlobCharacter (c : Char) : Bool := c == '*' || c == '?' || c == '['

def scopeLiteralPrefix (scope : List Char) : List Char :=
  scope.takeWhile (fun c => !isGlobCharacter c)

/-- `scope.replace(/\/$/u, "")`. -/
def dropTrailingSlash (scope : List Char) : List Char :=
  if scope.getLast? = some '/' then scope.dropLast else scope

/-- Equal as they stand or after folding. -/
def scopeEqual (host : HostText) (first second : List Char) : Bool :=
  decide (first = second) || decide (caseFold host first = caseFold host second)

/-- A scope that stands for the whole repository. -/
def isWholeScope (scope : List Char) : Bool :=
  decide (scope = "*".toList ∨ scope = "**".toList ∨ scope = "./".toList)

/-- A glob against a scope without wildcards. -/
def globCovers (host : HostText) (glob literal : List Char) : Bool :=
  if literal.getLast? = some '/' then fnmatchcase host literal glob true true
  else
    let literalPrefix := scopeLiteralPrefix glob
    fnmatchcase host literal glob false true ||
      (decide (literalPrefix.getLast? = some '/') &&
        scopeEqual host (dropTrailingSlash literal) (dropTrailingSlash literalPrefix))

def globsMeet (host : HostText) (left right : List Char) : Bool :=
  let leftPrefix := caseFold host (scopeLiteralPrefix left)
  let rightPrefix := caseFold host (scopeLiteralPrefix right)
  leftPrefix.isEmpty || rightPrefix.isEmpty || rightPrefix.isPrefixOf leftPrefix ||
    leftPrefix.isPrefixOf rightPrefix

/-- A directory scope covers what lies below it. -/
def directoryCovers (host : HostText) (directory scope : List Char) : Bool :=
  decide (directory.getLast? = some '/') &&
    (caseFold host (dropTrailingSlash directory) ++ ['/']).isPrefixOf (caseFold host scope)

def scopePairOverlaps (host : HostText) (left right : List Char) : Bool :=
  if scopeEqual host left right then true
  else if isWholeScope left || isWholeScope right then true
  else
    match left.any isGlobCharacter, right.any isGlobCharacter with
    | true, false => globCovers host left right
    | false, true => globCovers host right left
    | true, true => globsMeet host left right
    | false, false => directoryCovers host left right || directoryCovers host right left

def writeScopesOverlap (host : HostText) (left right : List String) : Bool :=
  if left = [] ∨ right = [] then false
  else
    (comparisonWriteScopes left).any fun first =>
      (comparisonWriteScopes right).any fun second =>
        scopePairOverlaps host first.toList second.toList

variable (host : HostText)

private theorem scopeEqual_comm (first second : List Char) :
    scopeEqual host first second = scopeEqual host second first := by
  unfold scopeEqual
  rw [decide_eq_decide.mpr (eq_comm (a := first) (b := second)),
    decide_eq_decide.mpr (eq_comm (a := caseFold host first) (b := caseFold host second))]

private theorem globsMeet_comm (left right : List Char) :
    globsMeet host left right = globsMeet host right left := by
  simp only [globsMeet]
  ac_rfl

theorem scopePairOverlaps_comm (left right : List Char) :
    scopePairOverlaps host left right = scopePairOverlaps host right left := by
  unfold scopePairOverlaps
  rw [scopeEqual_comm, Bool.or_comm (isWholeScope left), globsMeet_comm,
    Bool.or_comm (directoryCovers host left right)]
  cases left.any isGlobCharacter <;> cases right.any isGlobCharacter <;> rfl

/-- Overlap does not depend on which lease was there first. -/
theorem writeScopesOverlap_comm (left right : List String) :
    writeScopesOverlap host left right = writeScopesOverlap host right left := by
  unfold writeScopesOverlap
  rw [if_congr (or_comm (a := left = [])) rfl rfl]
  split
  · rfl
  · rw [Bool.eq_iff_iff]
    simp only [List.any_eq_true]
    constructor
    · rintro ⟨first, hfirst, second, hsecond, h⟩
      exact ⟨second, hsecond, first, hfirst, by rwa [scopePairOverlaps_comm]⟩
    · rintro ⟨first, hfirst, second, hsecond, h⟩
      exact ⟨second, hsecond, first, hfirst, by rwa [scopePairOverlaps_comm]⟩

end Loopx.Lease
