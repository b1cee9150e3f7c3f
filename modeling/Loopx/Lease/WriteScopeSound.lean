/- GID: Loopx/Lease/WriteScopeSound
   generality: I
   source: loopx/control_plane/work_items/task_lease_acquire_decision.ts
   digest: Two write scopes that cover one path overlap. -/

import Loopx.Lease.Exclusion
import Loopx.Lease.WriteScope
import Loopx.Lib.AsciiCase

set_option autoImplicit false
set_option relaxedAutoImplicit false

namespace Loopx.Lease

open Loopx.Lib.AsciiCase (toNat_toLower toLower_toLower toLower_toUpper)

/-- What the case mappings of Unicode give for the fold of a character: a slash is its own fold and
stands in no other, no fold is empty, and folding a fold again leaves it. -/
structure HostText.Folds (host : HostText) : Prop where
  slash : foldCharacter host '/' = ['/']
  noSlash : ∀ c, '/' ∈ foldCharacter host c → c = '/'
  nonempty : ∀ c, foldCharacter host c ≠ []
  stable : ∀ c, caseFold host (foldCharacter host c) = foldCharacter host c

/-- The paths of a scope: a literal scope covers itself, a trailing slash what lies below it, and a
glob what it matches. -/
def covers (host : HostText) (scope path : List Char) : Bool :=
  if scope = "./".toList then true
  else if scope.any isGlobCharacter then fnmatchcase host path scope false true
  else if scope.getLast? = some '/' then scope.isPrefixOf path
  else decide (path = scope)

variable {host : HostText}

/-! ## Folding -/

@[simp] theorem caseFold_nil : caseFold host [] = [] := rfl

@[simp] theorem caseFold_append (a b : List Char) :
    caseFold host (a ++ b) = caseFold host a ++ caseFold host b := by
  simp [caseFold]

@[simp] theorem caseFold_singleton (c : Char) : caseFold host [c] = foldCharacter host c := by
  simp [caseFold]

private theorem mem_caseFold_slash (folds : host.Folds) {value : List Char}
    (h : '/' ∈ value) : '/' ∈ caseFold host value := by
  refine List.mem_flatMap.mpr ⟨'/', h, ?_⟩
  rw [folds.slash]
  exact List.mem_singleton.mpr rfl

private theorem length_le_caseFold (folds : host.Folds) (value : List Char) :
    value.length ≤ (caseFold host value).length := by
  induction value with
  | nil => exact Nat.le_refl _
  | cons c value ih =>
    have one := List.length_pos_iff.mpr (folds.nonempty c)
    have split : caseFold host (c :: value) = foldCharacter host c ++ caseFold host value := rfl
    rw [split, List.length_append, List.length_cons]
    omega

/-- The text after a directory starts a folded character of its own. -/
private theorem getLast?_caseFold (folds : host.Folds) {value : List Char}
    (h : value.getLast? = some '/') : (caseFold host value).getLast? = some '/' := by
  obtain ⟨front, rfl⟩ := List.getLast?_eq_some_iff.mp h
  rw [caseFold_append, caseFold_singleton, folds.slash, List.getLast?_append]
  rfl

/-! ## Classes -/

private theorem fromCodePoint_toNat (c : Char) : fromCodePoint c.toNat = some c := by
  have valid : c.toNat.isValidChar := c.valid
  rw [fromCodePoint, dif_pos valid]
  congr 1

private theorem mem_foldPreimages {entry : List Char × Char} (h : entry ∈ foldPreimages host) :
    entry.1 = foldCharacter host entry.2 := by
  obtain ⟨block, _, h⟩ := List.mem_flatMap.mp h
  simp only at h
  split at h
  · cases h
  · obtain ⟨c, _, h⟩ := List.mem_filterMap.mp h
    split at h
    · cases h
    · rw [← Option.some.inj h]

private theorem classMemberMatches_congr {body a b : List Char}
    (h : caseFold host a = caseFold host b) :
    classMemberMatches host body a = classMemberMatches host body b := by
  rw [classMemberMatches, classMemberMatches, h]

private theorem classMemberMatches_iff {body candidate : List Char} :
    classMemberMatches host body candidate = true ↔
      (∃ entry ∈ foldPreimages host, entry.1 = caseFold host candidate ∧
        classContains (characterClass body) entry.2 = true) ∨
      ∃ own, caseFold host candidate = [own] ∧ classContains (characterClass body) own = true := by
  rw [classMemberMatches, Bool.or_eq_true, List.any_eq_true]
  simp only [Bool.and_eq_true, decide_eq_true_eq]
  refine or_congr Iff.rfl ?_
  split
  · next own same => simp [same]
  · next other =>
    refine ⟨fun h => absurd h Bool.false_ne_true, ?_⟩
    rintro ⟨own, same, _⟩
    exact absurd same (other own)

private theorem not_contains_of_own {body : List Char} {c : Char} (own : caseFold host [c] = [c])
    (h : classMemberMatches host body [c] = false) :
    classContains (characterClass body) c = false := by
  by_contra inside
  have inside := Bool.not_eq_false _ ▸ inside
  rw [classMemberMatches_iff.2 (Or.inr ⟨c, own, inside⟩)] at h
  cases h

private theorem not_contains_of_preimage {body candidate : List Char} {entry : List Char × Char}
    (mem : entry ∈ foldPreimages host) (same : entry.1 = caseFold host candidate)
    (h : classMemberMatches host body candidate = false) :
    classContains (characterClass body) entry.2 = false := by
  by_contra inside
  have inside := Bool.not_eq_false _ ▸ inside
  rw [classMemberMatches_iff.2 (Or.inl ⟨entry, mem, same, inside⟩)] at h
  cases h

/-- A candidate that a class covers shares its fold with a member. -/
private theorem exists_member {body candidate : List Char}
    (h : classMemberMatches host body candidate = true) :
    ∃ c, classContains (characterClass body) c = true := by
  rcases classMemberMatches_iff.1 h with ⟨entry, _, _, member⟩ | ⟨own, _, member⟩
  · exact ⟨entry.2, member⟩
  · exact ⟨own, member⟩

private def classIntervals (body : List Char) : List (Nat × Nat) :=
  (((characterClass body).ranges ++
    (characterClass body).literals.map (fun c => (c.toNat, c.toNat))).filter
      (fun r => decide (r.1 ≤ r.2))).mergeSort (fun r r' => decide (r.1 ≤ r'.1))

private theorem mem_classIntervals {body : List Char} {r : Nat × Nat} :
    r ∈ classIntervals body ↔ (r ∈ (characterClass body).ranges ∨
      ∃ c ∈ (characterClass body).literals, (c.toNat, c.toNat) = r) ∧ r.1 ≤ r.2 := by
  rw [classIntervals, List.mem_mergeSort, List.mem_filter, List.mem_append, List.mem_map,
    decide_eq_true_eq]

private theorem classContains_iff {body : List Char} {c : Char} :
    classContains (characterClass body) c = true ↔
      ∃ r ∈ classIntervals body, r.1 ≤ c.toNat ∧ c.toNat ≤ r.2 := by
  simp only [classContains, Bool.or_eq_true, decide_eq_true_eq, List.any_eq_true,
    mem_classIntervals]
  constructor
  · rintro (literal | ⟨r, hr, low, high⟩)
    · exact ⟨(c.toNat, c.toNat), ⟨Or.inr ⟨c, literal, rfl⟩, Nat.le_refl _⟩, Nat.le_refl _,
        Nat.le_refl _⟩
    · exact ⟨r, ⟨Or.inl hr, low.trans high⟩, low, high⟩
  · rintro ⟨r, ⟨hr | ⟨d, literal, rfl⟩, _⟩, low, high⟩
    · exact Or.inr ⟨r, hr, low, high⟩
    · have same : d = c := Char.toNat_inj.mp (Nat.le_antisymm low high)
      exact Or.inl (same ▸ literal)

private theorem classHasMatch_of_member {body : List Char} {c : Char}
    (h : classContains (characterClass body) c = true) : classHasMatch host body false = true := by
  obtain ⟨r, hr, _⟩ := classContains_iff.1 h
  have some : classIntervals body ≠ [] := List.ne_nil_of_mem hr
  simpa [classHasMatch, classIntervals] using some

/-- A gap that holds the character is not empty of matches. -/
private theorem gapHasMatch_here {body : List Char} {c : Char}
    (unmatched : classMemberMatches host body [c] = false) {candidate low : Nat} (high : Nat)
    (rest : List (Nat × Nat)) (start : candidate ≤ c.toNat) (before : c.toNat < low) :
    gapHasMatch host body candidate ((low, high) :: rest) = true := by
  rw [gapHasMatch, Bool.or_eq_true]
  refine Or.inl (List.any_eq_true.mpr ⟨c.toNat, ?_, ?_⟩)
  · rw [List.mem_range'_1]
    omega
  · rw [fromCodePoint_toNat]
    simp [unmatched]

/-- The walk over the gaps finds a character that no interval holds. -/
private theorem gapHasMatch_of_outside {body : List Char} {c : Char}
    (unmatched : classMemberMatches host body [c] = false) (intervals : List (Nat × Nat))
    (candidate : Nat) (start : candidate ≤ c.toNat)
    (outside : ∀ r ∈ intervals, ¬(r.1 ≤ c.toNat ∧ c.toNat ≤ r.2)) :
    gapHasMatch host body candidate (intervals ++ [(0x110000, 0x110000)]) = true := by
  induction intervals generalizing candidate with
  | nil =>
    have bound : c.toNat < 0x110000 := by
      rcases c.valid with low | ⟨_, high⟩
      · exact lt_trans low (by decide)
      · exact high
    exact gapHasMatch_here unmatched _ _ start bound
  | cons r intervals ih =>
    obtain ⟨low, high⟩ := r
    obtain ⟨here, rest⟩ := List.forall_mem_cons.mp outside
    rcases Nat.lt_or_ge c.toNat low with before | after
    · exact gapHasMatch_here unmatched _ _ start before
    · have past : high + 1 ≤ c.toNat := by
        have beyond := fun le => here ⟨after, le⟩
        omega
      rw [List.cons_append, gapHasMatch, Bool.or_eq_true]
      exact Or.inr (ih _ (max_le start past) rest)

private theorem classHasMatch_of_outside {body : List Char} {c : Char}
    (unmatched : classMemberMatches host body [c] = false)
    (outside : classContains (characterClass body) c = false) :
    classHasMatch host body true = true := by
  have none : ∀ r ∈ classIntervals body, ¬(r.1 ≤ c.toNat ∧ c.toNat ≤ r.2) := by
    intro r hr inside
    rw [classContains_iff.2 ⟨r, hr, inside⟩] at outside
    cases outside
  exact gapHasMatch_of_outside unmatched (classIntervals body) 0 (Nat.zero_le _) none

/-! ## Windows -/

/-- The window is one symbol that folds to itself, or the fold of some character. -/
private def singleWindow (host : HostText) (n : Nat) (window : List Char) : Bool :=
  (n = 1 && caseFold host window = window) ||
    (foldPreimages host).any (fun entry => entry.1 = window)

/-- What a class or a `?` asks of the window it takes. -/
private def acceptsWindow (host : HostText) (n : Nat) (window : List Char) : GlobToken → Bool
  | .question => singleWindow host n window
  | .characterClass body negated =>
    if negated then singleWindow host n window && !classMemberMatches host body window
    else classMemberMatches host body window
  | _ => false

private theorem singleWindow_iff {n : Nat} {window : List Char} :
    singleWindow host n window = true ↔
      (n = 1 ∧ caseFold host window = window) ∨
        ∃ entry ∈ foldPreimages host, entry.1 = window := by
  rw [singleWindow, Bool.or_eq_true, Bool.and_eq_true, decide_eq_true_eq, decide_eq_true_eq,
    List.any_eq_true]
  simp only [decide_eq_true_eq]

private theorem acceptsWindow_negated {n : Nat} {window body : List Char} :
    acceptsWindow host n window (.characterClass body true) = true ↔
      singleWindow host n window = true ∧ classMemberMatches host body window = false := by
  rw [acceptsWindow, if_pos rfl, Bool.and_eq_true, Bool.not_eq_true']

private theorem acceptsWindow_plain {n : Nat} {window body : List Char} :
    acceptsWindow host n window (.characterClass body false) = true ↔
      classMemberMatches host body window = true := by
  rw [acceptsWindow, if_neg Bool.false_ne_true]

private theorem mem_foldSpans {symbols : List Char} {n : Nat} :
    n ∈ foldSpans host symbols ↔ (1 ≤ n ∧ n < 1 + maximumFoldConsumption host) ∧
      n ≤ symbols.length := by
  rw [foldSpans, List.mem_filter, List.mem_range'_1, decide_eq_true_eq]

private theorem mem_takenLengths {symbols : List Char} {n : Nat} {token : GlobToken} :
    n ∈ takenLengths host true symbols token ↔
      n ∈ foldSpans host symbols ∧ acceptsWindow host n (symbols.take n) token = true := by
  cases token with
  | literal | star => simp [takenLengths, acceptsWindow]
  | question =>
    rw [takenLengths, if_pos rfl, singleCharacterMatchLengths, List.mem_filter]
    exact Iff.rfl
  | characterClass body negated =>
    cases negated with
    | false =>
      simp only [takenLengths, if_true, Bool.false_eq_true, if_false, classMatchLengths,
        List.mem_filter, acceptsWindow]
    | true =>
      simp only [takenLengths, if_true, singleCharacterMatchLengths, classMatchLengths,
        List.mem_filter, acceptsWindow, singleWindow, Bool.and_eq_true, Bool.not_eq_true',
        decide_eq_true_eq, not_and, Bool.not_eq_true]
      constructor
      · rintro ⟨⟨span, single⟩, apart⟩
        exact ⟨span, single, apart span⟩
      · rintro ⟨span, single, apart⟩
        exact ⟨⟨span, single⟩, fun _ => apart⟩

/-- A class that takes a window has a member to take. -/
private theorem classHasMatch_of_window (folds : host.Folds) {n : Nat} {window body : List Char}
    {negated : Bool} (size : window.length = n)
    (h : acceptsWindow host n window (.characterClass body negated) = true) :
    classHasMatch host body negated = true := by
  cases negated with
  | false =>
    obtain ⟨c, member⟩ := exists_member (acceptsWindow_plain.1 h)
    exact classHasMatch_of_member member
  | true =>
    obtain ⟨single, apart⟩ := acceptsWindow_negated.1 h
    rcases singleWindow_iff.1 single with ⟨rfl, own⟩ | ⟨entry, mem, same⟩
    · -- one symbol that is its own fold
      obtain ⟨c, rfl⟩ := List.length_eq_one_iff.mp size
      exact classHasMatch_of_outside apart (not_contains_of_own own apart)
    · -- the fold of a character of its own
      have folded : foldCharacter host entry.2 = window := (mem_foldPreimages mem).symm.trans same
      have fixed : caseFold host window = window := by rw [← folded, folds.stable]
      have stable : caseFold host [entry.2] = caseFold host window := by
        rw [caseFold_singleton, folded, fixed]
      have apart' := (classMemberMatches_congr stable).trans apart
      exact classHasMatch_of_outside apart' (not_contains_of_preimage mem (same.trans fixed.symm) apart)

/-- No window runs over a slash and takes more. -/
private theorem slash_window (folds : host.Folds) {n : Nat} {window : List Char}
    {token : GlobToken} (slash : '/' ∈ window) (long : 2 ≤ window.length) (many : n ≠ 1)
    (h : acceptsWindow host n window token = true) : False := by
  have preimage : ∀ value : List Char, '/' ∈ value → 2 ≤ value.length →
      ∀ entry ∈ foldPreimages host, entry.1 ≠ value := by
    rintro _ slash long entry mem rfl
    have fold := mem_foldPreimages mem
    rw [fold] at slash long
    rw [folds.noSlash _ slash, folds.slash, List.length_singleton] at long
    omega
  have single : singleWindow host n window ≠ true := by
    intro h
    rcases singleWindow_iff.1 h with ⟨one, _⟩ | ⟨entry, mem, same⟩
    · exact many one
    · exact preimage window slash long entry mem same
  have member : ∀ body, classMemberMatches host body window ≠ true := by
    intro body h
    have slash := mem_caseFold_slash folds slash
    have long := long.trans (length_le_caseFold folds window)
    rcases classMemberMatches_iff.1 h with ⟨entry, mem, same, _⟩ | ⟨own, same, _⟩
    · exact preimage _ slash long entry mem same
    · rw [same, List.length_singleton] at long
      omega
  cases token with
  | literal | star => cases h
  | question => exact single h
  | characterClass body negated =>
    cases negated with
    | false => exact member body (acceptsWindow_plain.1 h)
    | true => exact single (acceptsWindow_negated.1 h).1

/-! ## Prefixes -/

private theorem matchStar_iff {next : List Char → Bool} {symbols : List Char} :
    matchStar next symbols = true ↔ ∃ n ≤ symbols.length, next (symbols.drop n) = true := by
  induction symbols with
  | nil =>
    constructor
    · intro h
      exact ⟨0, Nat.le_refl _, h⟩
    · rintro ⟨_, _, h⟩
      rwa [List.drop_nil] at h
  | cons c symbols ih =>
    rw [matchStar, Bool.or_eq_true, ih]
    constructor
    · rintro (here | ⟨n, le, h⟩)
      · exact ⟨0, Nat.zero_le _, here⟩
      · exact ⟨n + 1, Nat.succ_le_succ le, h⟩
    · rintro ⟨_ | n, le, h⟩
      · exact Or.inl h
      · exact Or.inr ⟨n, Nat.le_of_succ_le_succ le, h⟩

private theorem matchTokens_literal {descendants : Bool} {folded symbols : List Char}
    {tokens : List GlobToken} (some : symbols ≠ []) :
    matchTokens host descendants true (.literal folded :: tokens) symbols = true ↔
      folded.take symbols.length = symbols.take (folded.take symbols.length).length ∧
        (if folded.length ≤ symbols.length then
          matchTokens host descendants true tokens (symbols.drop folded.length)
        else descendants && suffixPossible host tokens) = true := by
  obtain ⟨c, symbols, rfl⟩ := List.exists_cons_of_ne_nil some
  rw [matchTokens, Bool.and_eq_true, decide_eq_true_eq]
  nofun

/-- A class or a `?` takes a window off the front. -/
private theorem matchTokens_window {descendants : Bool} {token : GlobToken} {symbols : List Char}
    {tokens : List GlobToken} (some : symbols ≠ []) (star : token ≠ .star)
    (literal : ∀ folded, token ≠ .literal folded) :
    matchTokens host descendants true (token :: tokens) symbols = true ↔
      ∃ n, (n ∈ foldSpans host symbols ∧ acceptsWindow host n (symbols.take n) token = true) ∧
        matchTokens host descendants true tokens (symbols.drop n) = true := by
  obtain ⟨c, symbols, rfl⟩ := List.exists_cons_of_ne_nil some
  simp only [← mem_takenLengths]
  cases token with
  | literal folded => exact absurd rfl (literal folded)
  | star => exact absurd rfl star
  | question | characterClass => rw [matchTokens, List.any_eq_true] <;> nofun

private theorem matchTokens_nil {tokens : List GlobToken}
    (h : suffixPossible host tokens = true) : matchTokens host true true tokens [] = true := by
  induction tokens with
  | nil => rfl
  | cons token tokens ih =>
    cases token with
    | star =>
      rw [matchTokens, matchStar]
      exact ih h
    | literal | question | characterClass => exact h

/-- Whatever matches in full can also be the rest of a match. -/
private theorem suffixPossible_of_match (folds : host.Folds) {tokens : List GlobToken}
    {symbols : List Char} (h : matchTokens host false true tokens symbols = true) :
    suffixPossible host tokens = true := by
  induction tokens generalizing symbols with
  | nil => rfl
  | cons token tokens ih =>
    rw [suffixPossible, List.all_cons, Bool.and_eq_true]
    by_cases empty : symbols = []
    · subst empty
      cases token with
      | star =>
        rw [matchTokens, matchStar] at h
        exact ⟨rfl, ih h⟩
      | literal | question | characterClass => cases h
    cases token with
    | star =>
      obtain ⟨_, _, h⟩ := matchStar_iff.1 h
      exact ⟨rfl, ih h⟩
    | literal folded =>
      obtain ⟨_, h⟩ := (matchTokens_literal empty).mp h
      split at h
      · exact ⟨rfl, ih h⟩
      · cases h
    | question =>
      obtain ⟨_, _, h⟩ := (matchTokens_window empty (by nofun) (by nofun)).mp h
      exact ⟨rfl, ih h⟩
    | characterClass body negated =>
      obtain ⟨n, ⟨span, taken⟩, h⟩ := (matchTokens_window empty (by nofun) (by nofun)).mp h
      have size : (symbols.take n).length = n :=
        List.length_take_of_le (mem_foldSpans.1 span).2
      exact ⟨classHasMatch_of_window folds size taken, ih h⟩

/-- Nothing is left, or the last symbol is a slash. -/
private def AtSlash (symbols : List Char) : Prop := symbols = [] ∨ symbols.getLast? = some '/'

private theorem AtSlash.drop {symbols : List Char} (h : AtSlash symbols) (n : Nat) :
    AtSlash (symbols.drop n) := by
  rcases h with rfl | last
  · exact Or.inl List.drop_nil
  · rcases Nat.lt_or_ge n symbols.length with before | past
    · refine Or.inr ?_
      rw [List.getLast?_drop, if_neg (Nat.not_le.mpr before), last]
    · exact Or.inl (List.drop_eq_nil_of_le past)

/-- A path below a directory matches, so the directory is the front of a match. -/
private theorem matchTokens_front (folds : host.Folds) {tokens : List GlobToken}
    {front rest : List Char} (slash : AtSlash front)
    (h : matchTokens host false true tokens (front ++ rest) = true) :
    matchTokens host true true tokens front = true := by
  induction tokens generalizing front rest with
  | nil =>
    rw [matchTokens, List.isEmpty_iff, List.append_eq_nil_iff] at h
    rw [matchTokens, h.1, List.isEmpty_nil]
  | cons token tokens ih =>
    by_cases empty : front = []
    · rw [empty]
      exact matchTokens_nil (suffixPossible_of_match folds h)
    have some : front ++ rest ≠ [] := List.append_ne_nil_of_left_ne_nil empty _
    -- a window that starts in the front stays within it
    have window : (∀ folded, token ≠ .literal folded) → token ≠ .star →
        matchTokens host true true (token :: tokens) front = true := by
      intro literal star
      obtain ⟨n, ⟨span, taken⟩, h⟩ := (matchTokens_window some star literal).mp h
      obtain ⟨bounds, within⟩ := mem_foldSpans.1 span
      have le : n ≤ front.length := by
        by_contra beyond
        have last : '/' ∈ front := List.mem_of_getLast? (slash.resolve_left empty)
        have one := List.length_pos_iff.mpr empty
        have inside : '/' ∈ (front ++ rest).take n := by
          rw [List.take_append, List.take_of_length_le (by omega)]
          exact List.mem_append_left _ last
        have long : 2 ≤ ((front ++ rest).take n).length := by
          rw [List.length_take_of_le within]
          omega
        exact slash_window folds inside long (by omega) taken
      rw [List.take_append_of_le_length le] at taken
      rw [List.drop_append_of_le_length le] at h
      exact (matchTokens_window empty star literal).mpr
        ⟨n, ⟨mem_foldSpans.2 ⟨bounds, le⟩, taken⟩, ih (slash.drop n) h⟩
    cases token with
    | question | characterClass => exact window nofun nofun
    | star =>
      obtain ⟨n, _, h⟩ := matchStar_iff.1 h
      refine matchStar_iff.2 ?_
      rcases Nat.le_total n front.length with le | past
      · rw [List.drop_append_of_le_length le] at h
        exact ⟨n, le, ih (slash.drop n) h⟩
      · refine ⟨front.length, Nat.le_refl _, ?_⟩
        rw [List.drop_length]
        exact matchTokens_nil (suffixPossible_of_match folds h)
    | literal folded =>
      obtain ⟨text, h⟩ := (matchTokens_literal some).mp h
      split at h
      · next fits =>
        rw [List.take_of_length_le fits] at text
        refine (matchTokens_literal empty).mpr ?_
        rcases Nat.le_total folded.length front.length with le | past
        · rw [List.take_append_of_le_length le] at text
          rw [List.drop_append_of_le_length le] at h
          rw [if_pos le, List.take_of_length_le le]
          exact ⟨text, ih (slash.drop _) h⟩
        · have cut : folded.take front.length = front := by
            rw [text, List.take_take, Nat.min_eq_left past, List.take_left]
          rw [cut, List.take_length]
          refine ⟨rfl, ?_⟩
          split
          · next le =>
            have same : folded.length = front.length := Nat.le_antisymm le past
            rw [same, List.drop_length]
            exact matchTokens_nil (suffixPossible_of_match folds h)
          · exact suffixPossible_of_match folds h
      · cases h

/-! ## Globs -/

private theorem globTokens_plain (fold : List Char → List Char) {plain : List Char}
    (rest literal : List Char) (h : ∀ c ∈ plain, isGlobCharacter c = false) :
    globTokens fold 0 literal (plain ++ rest) = globTokens fold 0 (literal ++ plain) rest := by
  induction plain generalizing literal with
  | nil => rw [List.nil_append, List.append_nil]
  | cons c plain ih =>
    obtain ⟨here, later⟩ := List.forall_mem_cons.mp h
    simp only [isGlobCharacter, Bool.or_eq_false_iff, beq_eq_false_iff_ne] at here
    rw [List.cons_append, globTokens, if_neg here.1.1, if_neg here.1.2, if_neg here.2,
      ih _ later, List.append_assoc, List.singleton_append]

/-- Pending literal text heads the first token. -/
private theorem globTokens_pending (fold : List Char → List Char) {literal : List Char}
    (rest : List Char) (some : literal ≠ []) :
    ∃ more tokens, globTokens fold 0 literal rest = .literal (fold (literal ++ more)) :: tokens := by
  have flush : flushLiteral fold literal = [.literal (fold (literal ++ []))] := by
    rw [flushLiteral, if_neg some, List.append_nil]
  induction rest generalizing literal with
  | nil => exact ⟨[], [], flush⟩
  | cons c rest ih =>
    have longer : ∃ more tokens, globTokens fold 0 (literal ++ [c]) rest =
        .literal (fold (literal ++ more)) :: tokens := by
      have grown : literal ++ [c] ≠ [] := List.append_ne_nil_of_left_ne_nil some _
      obtain ⟨more, tokens, h⟩ := ih grown (by rw [flushLiteral, if_neg grown, List.append_nil])
      refine ⟨c :: more, tokens, ?_⟩
      rw [h, List.append_assoc, List.singleton_append]
    rw [globTokens]
    split
    · exact ⟨[], _, by rw [flush, List.singleton_append]⟩
    split
    · exact ⟨[], _, by rw [flush, List.singleton_append]⟩
    split
    · split
      · exact ⟨[], _, by rw [flush, List.singleton_append]⟩
      · exact longer
    · exact longer

/-- A matched path starts with the text before the first wildcard. -/
private theorem prefix_of_fnmatchcase {glob path : List Char}
    (h : fnmatchcase host path glob false true = true) :
    caseFold host (scopeLiteralPrefix glob) <+: caseFold host path := by
  by_cases empty : scopeLiteralPrefix glob = []
  · rw [empty]
    exact List.nil_prefix
  have split : glob = scopeLiteralPrefix glob ++ glob.dropWhile (fun c => !isGlobCharacter c) :=
    List.takeWhile_append_dropWhile.symm
  have plain : ∀ c ∈ scopeLiteralPrefix glob, isGlobCharacter c = false := by
    intro c hc
    simpa using List.mem_takeWhile_imp hc
  obtain ⟨more, tokens, first⟩ := globTokens_pending (caseFold host)
    (glob.dropWhile (fun c => !isGlobCharacter c)) empty
  rw [fnmatchcase, if_pos rfl, split, globTokens_plain _ _ _ plain, List.nil_append, first] at h
  by_cases blank : caseFold host path = []
  · rw [blank] at h
    cases h
  obtain ⟨text, h⟩ := (matchTokens_literal blank).mp h
  split at h
  · next fits =>
    rw [List.take_of_length_le fits, caseFold_append] at text
    have front : caseFold host (scopeLiteralPrefix glob) ++ caseFold host more <+:
        caseFold host path := by
      rw [text]
      exact List.take_prefix _ _
    exact (List.prefix_append _ _).trans front
  · cases h

private theorem globsMeet_of_covers {left right path : List Char}
    (hleft : fnmatchcase host path left false true = true)
    (hright : fnmatchcase host path right false true = true) :
    globsMeet host left right = true := by
  have nested := List.prefix_or_prefix_of_prefix (prefix_of_fnmatchcase hleft)
    (prefix_of_fnmatchcase hright)
  simp only [globsMeet, Bool.or_eq_true, List.isPrefixOf_iff_prefix]
  rcases nested with h | h
  · exact Or.inr h
  · exact Or.inl (Or.inr h)

/-! ## Overlap -/

/-- The path lies at or below a scope without wildcards. -/
private def Within (scope path : List Char) : Prop :=
  (scope.getLast? = some '/' ∧ scope <+: path) ∨ (scope.getLast? ≠ some '/' ∧ path = scope)

private theorem covers_glob {scope path : List Char} (whole : isWholeScope scope = false)
    (glob : scope.any isGlobCharacter = true) (h : covers host scope path = true) :
    fnmatchcase host path scope false true = true := by
  have root : scope ≠ "./".toList := fun same => by simp [isWholeScope, same] at whole
  rwa [covers, if_neg root, if_pos glob] at h

private theorem covers_plain {scope path : List Char} (whole : isWholeScope scope = false)
    (plain : scope.any isGlobCharacter = false) (h : covers host scope path = true) :
    Within scope path := by
  have root : scope ≠ "./".toList := fun same => by simp [isWholeScope, same] at whole
  rw [covers, if_neg root, if_neg (by rw [plain]; exact Bool.false_ne_true)] at h
  split at h
  · next slash => exact Or.inl ⟨slash, List.isPrefixOf_iff_prefix.mp h⟩
  · next slash => exact Or.inr ⟨slash, of_decide_eq_true h⟩

private theorem globCovers_of_covers (folds : host.Folds) {glob literal path : List Char}
    (hglob : fnmatchcase host path glob false true = true) (hliteral : Within literal path) :
    globCovers host glob literal = true := by
  rcases hliteral with ⟨slash, rest, rfl⟩ | ⟨slash, rfl⟩
  · rw [globCovers, if_pos slash]
    rw [fnmatchcase, if_pos rfl, caseFold_append] at hglob
    exact matchTokens_front folds (Or.inr (getLast?_caseFold folds slash)) hglob
  · rw [globCovers, if_neg slash]
    exact Bool.or_eq_true_iff.mpr (Or.inl hglob)

private theorem directoryCovers_below (folds : host.Folds) {directory scope : List Char}
    (slash : directory.getLast? = some '/') (h : directory <+: scope) :
    directoryCovers host directory scope = true := by
  obtain ⟨front, rfl⟩ := List.getLast?_eq_some_iff.mp slash
  obtain ⟨rest, rfl⟩ := h
  have own : caseFold host front ++ ['/'] = caseFold host (front ++ ['/']) := by
    rw [caseFold_append, caseFold_singleton, folds.slash]
  rw [directoryCovers, Bool.and_eq_true, decide_eq_true_eq, List.isPrefixOf_iff_prefix,
    dropTrailingSlash, if_pos slash, List.dropLast_concat, own, caseFold_append (front ++ ['/'])]
  exact ⟨slash, List.prefix_append _ _⟩

private theorem plain_of_covers (folds : host.Folds) {left right path : List Char}
    (apart : left ≠ right) (hleft : Within left path) (hright : Within right path) :
    (directoryCovers host left right || directoryCovers host right left) = true := by
  rw [Bool.or_eq_true]
  rcases hleft with ⟨leftSlash, below⟩ | ⟨_, rfl⟩
  · rcases hright with ⟨rightSlash, below'⟩ | ⟨_, rfl⟩
    · rcases List.prefix_or_prefix_of_prefix below below' with h | h
      · exact Or.inl (directoryCovers_below folds leftSlash h)
      · exact Or.inr (directoryCovers_below folds rightSlash h)
    · exact Or.inl (directoryCovers_below folds leftSlash below)
  · rcases hright with ⟨rightSlash, below⟩ | ⟨_, rfl⟩
    · exact Or.inr (directoryCovers_below folds rightSlash below)
    · exact absurd rfl apart

/-- Two scopes that cover one path overlap. -/
theorem scopePairOverlaps_of_covers (folds : host.Folds) {left right path : List Char}
    (hleft : covers host left path = true) (hright : covers host right path = true) :
    scopePairOverlaps host left right = true := by
  rw [scopePairOverlaps]
  split
  · rfl
  split
  · rfl
  next equal whole =>
  obtain ⟨leftWhole, rightWhole⟩ := Bool.or_eq_false_iff.mp (Bool.not_eq_true _ ▸ whole)
  cases leftGlob : left.any isGlobCharacter <;> cases rightGlob : right.any isGlobCharacter
  · refine plain_of_covers folds ?_ (covers_plain leftWhole leftGlob hleft)
      (covers_plain rightWhole rightGlob hright)
    rintro rfl
    exact equal (by rw [scopeEqual, decide_eq_true rfl, Bool.true_or])
  · exact globCovers_of_covers folds (covers_glob rightWhole rightGlob hright)
      (covers_plain leftWhole leftGlob hleft)
  · exact globCovers_of_covers folds (covers_glob leftWhole leftGlob hleft)
      (covers_plain rightWhole rightGlob hright)
  · exact globsMeet_of_covers (covers_glob leftWhole leftGlob hleft)
      (covers_glob rightWhole rightGlob hright)

private theorem exists_of_mapM_some {scopes canonical : List String} {scope : String}
    (h : scopes.mapM canonicalWriteScope = some canonical) (mem : scope ∈ scopes) :
    ∃ found ∈ canonical, canonicalWriteScope scope = some found := by
  induction scopes generalizing canonical with
  | nil => cases mem
  | cons first scopes ih =>
    rw [List.mapM_cons, Option.bind_eq_bind, Option.bind_eq_some_iff] at h
    obtain ⟨head, hhead, h⟩ := h
    rw [Option.bind_eq_bind, Option.bind_eq_some_iff] at h
    obtain ⟨tail, htail, h⟩ := h
    rw [← Option.some.inj h]
    rcases List.mem_cons.mp mem with rfl | later
    · exact ⟨head, List.mem_cons_self, hhead⟩
    · obtain ⟨found, hfound, same⟩ := ih htail later
      exact ⟨found, List.mem_cons_of_mem _ hfound, same⟩

/-- A readable scope is compared under its canonical spelling, or with everything. -/
private theorem mem_comparisonWriteScopes {scopes : List String} {scope canonical : String}
    (mem : scope ∈ scopes) (readable : canonicalWriteScope scope = some canonical) :
    canonical ∈ comparisonWriteScopes scopes ∨ comparisonWriteScopes scopes = ["**"] := by
  rw [comparisonWriteScopes]
  split
  · exact Or.inr rfl
  · next compared h =>
    refine Or.inl (List.mem_eraseDups.mpr ?_)
    obtain ⟨found, hfound, same⟩ := exists_of_mapM_some h mem
    rw [Option.some.inj (readable.symm.trans same)]
    exact hfound

/-- Scopes that are both compared and cover one path make their lists overlap, and the order of the
lists does not matter. -/
theorem writeScopesOverlap_sound (folds : host.Folds) :
    (∀ (lefts rights : List String) (left right leftScope rightScope : String) (path : List Char),
      left ∈ lefts → right ∈ rights →
      canonicalWriteScope left = some leftScope → canonicalWriteScope right = some rightScope →
      covers host leftScope.toList path = true → covers host rightScope.toList path = true →
      writeScopesOverlap host lefts rights = true) ∧
    ∀ lefts rights : List String,
      writeScopesOverlap host lefts rights = writeScopesOverlap host rights lefts := by
  refine ⟨?_, writeScopesOverlap_comm host⟩
  intro lefts rights left right leftScope rightScope path hleft hright readLeft readRight
    coversLeft coversRight
  have compared : ∀ {scopes : List String}, comparisonWriteScopes scopes = ["**"] →
      "**" ∈ comparisonWriteScopes scopes := fun h => h ▸ List.mem_singleton.mpr rfl
  have whole : isWholeScope "**".toList = true := by decide
  rw [writeScopesOverlap,
    if_neg (not_or.mpr ⟨List.ne_nil_of_mem hleft, List.ne_nil_of_mem hright⟩)]
  simp only [List.any_eq_true]
  rcases mem_comparisonWriteScopes hleft readLeft with memLeft | all
  · rcases mem_comparisonWriteScopes hright readRight with memRight | all
    · exact ⟨_, memLeft, _, memRight, scopePairOverlaps_of_covers folds coversLeft coversRight⟩
    · refine ⟨_, memLeft, _, compared all, ?_⟩
      rw [scopePairOverlaps, whole, Bool.or_true, if_pos rfl, ite_self]
  · obtain ⟨second, memRight⟩ : ∃ second, second ∈ comparisonWriteScopes rights := by
      rcases mem_comparisonWriteScopes hright readRight with memRight | all
      · exact ⟨_, memRight⟩
      · exact ⟨_, compared all⟩
    refine ⟨_, compared all, second, memRight, ?_⟩
    rw [scopePairOverlaps, whole, Bool.true_or, if_pos rfl, ite_self]

private theorem foldCharacter_asciiText (c : Char) :
    foldCharacter asciiText c = [c.toLower] := by
  have pass : ∀ c : Char, asciiText.toLowerCase (asciiText.toUpperCase [c]) = [c.toLower] := by
    intro c
    show [c.toUpper.toLower] = [c.toLower]
    rw [toLower_toUpper]
  have again : ∀ passes, foldPasses asciiText passes [c.toLower] = [c.toLower] := by
    rintro (_ | passes)
    · rfl
    · rw [foldPasses, pass, toLower_toLower, if_pos rfl]
  rw [foldCharacter, foldPasses, pass]
  split
  · next same => exact same.symm
  · exact again 3

private theorem folds_asciiText : asciiText.Folds where
  slash := by
    rw [foldCharacter_asciiText]
    rfl
  noSlash := by
    intro c h
    rw [foldCharacter_asciiText, List.mem_singleton] at h
    have value := toNat_toLower c
    have slash : '/'.toNat = 47 := rfl
    rw [← h] at value
    apply Char.toNat_inj.mp
    split at value <;> omega
  nonempty := by
    intro c
    rw [foldCharacter_asciiText]
    exact List.cons_ne_nil _ _
  stable := by
    intro c
    rw [foldCharacter_asciiText, caseFold_singleton, foldCharacter_asciiText, toLower_toLower]

/-- A TypeScript glob and the directory above it meet at a source file. -/
theorem writeScopesOverlap_sound_source :
    writeScopesOverlap asciiText ["src/*.ts"] ["src/"] = true :=
  (writeScopesOverlap_sound folds_asciiText).1 ["src/*.ts"] ["src/"] "src/*.ts" "src/" "src/*.ts"
    "src/" "src/a.ts".toList (List.mem_singleton.mpr rfl) (List.mem_singleton.mpr rfl)
    (by decide) (by decide) (by decide) (by decide)

end Loopx.Lease
