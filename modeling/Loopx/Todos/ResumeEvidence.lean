/- GID: Loopx/Todos/ResumeEvidence
   generality: I
   source: loopx/control_plane/todos/resume_condition.ts
   digest: When the retained merge evidence decides every wait as the whole log does. -/

import Loopx.Todos.ResumeCondition
import Loopx.Lib.AsciiCase
import Loopx.Lib.Decimal

set_option autoImplicit false
set_option relaxedAutoImplicit false

namespace Loopx.Todos

open Loopx.Lib.KeyedList
open Loopx.Lib.Fallible (ok_bind ok_of_toOption)
open Loopx.Lib.AsciiCase (isUpper_iff isLower_iff toLower_eq_self_iff toLower_toLower)
open Loopx.Lib.Decimal (isDigit_toDigits)
open Loopx.Authority (isJsSpace trim)
open Loopx.Lease (HostText)

/-- What Unicode gives for the lower case: ASCII text without capitals is its own lower case, a
lowered text has lowered characters, and a text of such characters is lowered. -/
structure LowerCase (host : HostText) : Prop where
  ascii : ∀ c : Char, c.toNat < 128 → c.isUpper = false → host.toLowerCase [c] = [c]
  lowered : ∀ text, ∀ c ∈ host.toLowerCase text, host.toLowerCase [c] = [c]
  fixed : ∀ text, (∀ c ∈ text, host.toLowerCase [c] = [c]) → host.toLowerCase text = text

variable {host : HostText}

/-! ## Reading a reference -/

private theorem afterPrefix_eq_some {front text rest : List Char} :
    afterPrefix front text = some rest ↔ text = front ++ rest := by
  unfold afterPrefix
  constructor
  · intro h
    split at h
    · next within =>
      obtain ⟨rest', rfl⟩ := List.isPrefixOf_iff_prefix.mp within
      rw [List.drop_left] at h
      rw [Option.some.inj h]
    · cases h
  · rintro rfl
    rw [if_pos (List.isPrefixOf_iff_prefix.mpr (List.prefix_append _ _)), List.drop_left]

/-- An owner and a name around one slash. -/
private def IsOwnerName (repo : List Char) : Prop :=
  ∃ owner name, repo = owner ++ '/' :: name ∧ owner ≠ [] ∧ '/' ∉ owner ∧ '/' ∉ name

private theorem IsOwnerName.count_slash {repo : List Char} (h : IsOwnerName repo) :
    repo.count '/' = 1 := by
  obtain ⟨owner, name, rfl, _, before, after⟩ := h
  rw [List.count_append, List.count_cons_self, List.count_eq_zero_of_not_mem before,
    List.count_eq_zero_of_not_mem after]

private theorem not_mem_takeWhile {a : Char} (text : List Char) :
    a ∉ text.takeWhile (fun c => c ≠ a) := by
  intro h
  have apart := List.mem_takeWhile_imp h
  simp at apart

private theorem isOwnerName_of_isRepositoryText {repo : List Char}
    (h : isRepositoryText repo = true) : IsOwnerName repo := by
  simp only [isRepositoryText, Bool.and_eq_true, decide_eq_true_eq] at h
  obtain ⟨⟨⟨⟨slash, owner⟩, _⟩, _⟩, plain⟩ := h
  have split := List.takeWhile_append_dropWhile (p := fun c => decide (c ≠ '/')) (l := repo)
  cases tail : repo.dropWhile (fun c => decide (c ≠ '/')) with
  | nil =>
    rw [tail, List.append_nil] at split
    rw [← split] at slash
    exact absurd slash (not_mem_takeWhile repo)
  | cons c name =>
    have head := List.head?_dropWhile_not (fun c => decide (c ≠ '/')) repo
    rw [tail] at head plain split
    obtain rfl : c = '/' := by simpa using head
    refine ⟨repo.takeWhile (fun c => decide (c ≠ '/')), name, split.symm, owner,
      not_mem_takeWhile repo, ?_⟩
    intro within
    exact absurd (List.all_eq_true.mp plain '/' within) (by decide)

private theorem githubPullUrl_eq_some {candidate repo digits : List Char}
    (h : githubPullUrl candidate = some (repo, digits)) :
    ∃ rest, candidate = "https://github.com/".toList ++ repo ++ "/pull/".toList ++ rest ∧
      IsOwnerName repo ∧ digits ≠ [] ∧ digits.all Char.isDigit = true := by
  simp only [githubPullUrl, Option.bind_eq_bind, Option.bind_eq_some_iff, afterPrefix_eq_some] at h
  obtain ⟨first, rfl, second, hsecond, third, hthird, h⟩ := h
  split at h
  · cases h
  next filled =>
  simp only [not_or] at filled
  obtain ⟨rfl, rfl⟩ := Prod.mk.inj (Option.some.inj h)
  have ownerSplit := List.takeWhile_append_dropWhile (p := fun c => decide (c ≠ '/')) (l := first)
  have nameSplit := List.takeWhile_append_dropWhile (p := fun c => decide (c ≠ '/')) (l := second)
  rw [hsecond] at ownerSplit
  rw [hthird] at nameSplit
  refine ⟨third, ?_, ⟨_, _, rfl, filled.1, not_mem_takeWhile _, not_mem_takeWhile _⟩, filled.2.2.1,
    List.all_takeWhile⟩
  calc "https://github.com/".toList ++ first
      = "https://github.com/".toList ++ (first.takeWhile (fun c => decide (c ≠ '/')) ++
          (['/'] ++ (second.takeWhile (fun c => decide (c ≠ '/')) ++
            ("/pull/".toList ++ third)))) := by rw [nameSplit, ownerSplit]
    _ = _ := by simp only [List.append_assoc, List.cons_append, List.nil_append]

private theorem digitsValue_toDigits (n : Nat) : digitsValue (Nat.toDigits 10 n) = n :=
  Nat.ofDigitChars_ten_toDigits

private theorem prRefText_eq_some {candidate digits : List Char} {repo : Option (List Char)}
    (h : prRefText candidate = some (repo, digits)) :
    ∀ name, repo = some name →
      isRepositoryText name = true ∧ candidate = name ++ '#' :: digits := by
  rintro name rfl
  unfold prRefText at h
  split at h
  · next hash =>
    simp only at h
    split at h
    · cases h
    split at h
    · cases (Prod.mk.inj (Option.some.inj h)).1
    split at h
    · next text =>
      obtain ⟨hname, rfl⟩ := Prod.mk.inj (Option.some.inj h)
      obtain rfl := Option.some.inj hname
      refine ⟨text, ?_⟩
      have split := List.takeWhile_append_dropWhile (p := fun c => decide (c ≠ '#'))
        (l := candidate)
      cases tail : candidate.dropWhile (fun c => decide (c ≠ '#')) with
      | nil =>
        rw [tail, List.append_nil] at split
        rw [← split] at hash
        exact absurd hash (not_mem_takeWhile candidate)
      | cons c rest =>
        have head := List.head?_dropWhile_not (fun c => decide (c ≠ '#')) candidate
        rw [tail] at head split
        obtain rfl : c = '#' := by simpa using head
        exact split.symm
    · cases h
  · split at h
    · cases h
    · simp only at h
      split at h
      · cases h
      · cases (Prod.mk.inj (Option.some.inj h)).1

/-- A reference is printed as its repository, a hash and digits of its number. -/
private theorem readPrRef_shape {candidate : List Char} {r : PrRef}
    (h : readPrRef candidate = some r) :
    (∃ digits, r.normalized = r.repo.getD [] ++ '#' :: digits ∧ digits.all Char.isDigit = true ∧
      digitsValue digits = r.number) ∧
    ∀ repo, r.repo = some repo → IsOwnerName repo ∧ ∀ c ∈ repo, c ∈ candidate := by
  unfold readPrRef at h
  split at h
  · next repo digits url =>
    obtain ⟨rest, rfl, shape, _, decimal⟩ := githubPullUrl_eq_some url
    obtain rfl := Option.some.inj h
    refine ⟨⟨digits, rfl, decimal, rfl⟩, ?_⟩
    intro repo' same
    obtain rfl := Option.some.inj same
    refine ⟨shape, fun c hc => ?_⟩
    simp only [List.mem_append]
    exact Or.inl (Or.inl (Or.inr hc))
  · obtain ⟨⟨repo, digits⟩, found, rfl⟩ := Option.map_eq_some_iff.mp h
    refine ⟨⟨Nat.toDigits 10 (digitsValue digits), rfl, ?_, digitsValue_toDigits _⟩, ?_⟩
    · exact List.all_eq_true.mpr fun c hc => isDigit_toDigits hc
    · intro name same
      obtain ⟨text, rfl⟩ := prRefText_eq_some found name same
      exact ⟨isOwnerName_of_isRepositoryText text, fun c hc => List.mem_append_left _ hc⟩

/-! ## Reading a printed reference again -/

/-- Every character is its own lower case. -/
private def Lowered (host : HostText) (text : List Char) : Prop :=
  ∀ c ∈ text, host.toLowerCase [c] = [c]

private theorem lowered_of_ascii (lower : LowerCase host) {text : List Char}
    (h : ∀ c ∈ text, c.toNat < 128 ∧ c.isUpper = false) : Lowered host text :=
  fun c hc => lower.ascii c (h c hc).1 (h c hc).2

private theorem ascii_of_isDigit {c : Char} (h : c.isDigit = true) :
    c.toNat < 128 ∧ c.isUpper = false ∧ isJsSpace c = false := by
  have range : 48 ≤ c.toNat ∧ c.toNat ≤ 57 := Char.isDigit_iff_toNat.mp h
  refine ⟨by omega, ?_, ?_⟩
  · rw [Bool.eq_false_iff, ne_eq, isUpper_iff]
    omega
  · simp only [isJsSpace, Bool.or_eq_false_iff, Bool.and_eq_false_iff, decide_eq_false_iff_not]
    omega

private theorem ascii_of_isRepositoryCharacter {c : Char} (h : isRepositoryCharacter c = true) :
    c.toNat < 128 ∧ c.isUpper = false ∧ isJsSpace c = false ∧ c ≠ '#' := by
  simp only [isRepositoryCharacter, isLowerDigitOr, Bool.or_eq_true, decide_eq_true_eq] at h
  rcases h with (letter | digit) | extra
  · have range : 97 ≤ c.toNat ∧ c.toNat ≤ 122 := isLower_iff.mp letter
    refine ⟨by omega, ?_, ?_, ?_⟩
    · rw [Bool.eq_false_iff, ne_eq, isUpper_iff]
      omega
    · simp only [isJsSpace, Bool.or_eq_false_iff, Bool.and_eq_false_iff, decide_eq_false_iff_not]
      omega
    · rintro rfl
      exact absurd letter (by decide)
  · obtain ⟨small, upper, space⟩ := ascii_of_isDigit digit
    refine ⟨small, upper, space, ?_⟩
    rintro rfl
    exact absurd digit (by decide)
  · simp only [List.mem_cons, List.not_mem_nil, or_false] at extra
    rcases extra with rfl | rfl | rfl <;> decide

private theorem plain_of_isRepositoryText {repo : List Char} (h : isRepositoryText repo = true) :
    ∀ c ∈ repo, c.toNat < 128 ∧ c.isUpper = false ∧ isJsSpace c = false ∧ c ≠ '#' := by
  simp only [isRepositoryText, Bool.and_eq_true] at h
  obtain ⟨⟨⟨_, owner⟩, _⟩, name⟩ := h
  intro c hc
  rw [← List.takeWhile_append_dropWhile (p := fun c => decide (c ≠ '/')) (l := repo),
    List.mem_append] at hc
  rcases hc with hc | hc
  · exact ascii_of_isRepositoryCharacter (List.all_eq_true.mp owner c hc)
  · cases tail : repo.dropWhile (fun c => decide (c ≠ '/')) with
    | nil =>
      rw [tail] at hc
      cases hc
    | cons slash rest =>
      have head := List.head?_dropWhile_not (fun c => decide (c ≠ '/')) repo
      rw [tail] at head hc name
      obtain rfl : slash = '/' := by simpa using head
      rcases List.mem_cons.mp hc with rfl | within
      · decide
      · exact ascii_of_isRepositoryCharacter (List.all_eq_true.mp name c within)

private theorem trim_sublist (text : List Char) :
    (trim (String.ofList text)).toList.Sublist text := by
  rw [trim, String.toList_ofList, String.toList_ofList]
  have outer := (List.dropWhile_suffix (l := (text.dropWhile isJsSpace).reverse) isJsSpace).sublist
  have inner := (List.dropWhile_suffix (l := text) isJsSpace).sublist
  have back := outer.reverse
  rw [List.reverse_reverse] at back
  exact back.trans inner

private theorem normalizedString_ofList (lower : LowerCase host) {text : List Char}
    (h : Lowered host text) :
    normalizedString host (some (.string (String.ofList text))) =
      (trim (String.ofList text)).toList :=
  lower.fixed _ fun c hc => h c ((trim_sublist text).subset hc)

private theorem trim_ofList_plain {text : List Char} (h : ∀ c ∈ text, isJsSpace c = false) :
    (trim (String.ofList text)).toList = text := by
  rw [trim, String.toList_ofList, String.toList_ofList]
  exact Loopx.Lib.Strip.stripEnds_of_forall h

/-- A text with at most one slash is no pull request address. -/
private theorem githubPullUrl_eq_none {text : List Char} (h : text.count '/' ≤ 1) :
    githubPullUrl text = none := by
  cases found : githubPullUrl text with
  | none => rfl
  | some reading =>
    obtain ⟨repo, digits⟩ := reading
    obtain ⟨rest, rfl, _⟩ := githubPullUrl_eq_some found
    have slashes : "https://github.com/".toList.count '/' = 3 := by decide
    rw [List.count_append, List.count_append, List.count_append, slashes] at h
    omega

/-- What a reader of events finds stands in lowered characters around at most one slash. -/
private theorem normalized_shape (lower : LowerCase host) {value : Option Json} {r : PrRef}
    (h : normalizedPrRef host value = some r) :
    Lowered host r.normalized ∧ r.normalized.count '/' ≤ 1 := by
  obtain ⟨⟨digits, shape, decimal, _⟩, repository⟩ := readPrRef_shape h
  have plain : ∀ c ∈ '#' :: digits, c.toNat < 128 ∧ c.isUpper = false := by
    rintro c hc
    rcases List.mem_cons.mp hc with rfl | digit
    · decide
    · obtain ⟨small, upper, _⟩ := ascii_of_isDigit (List.all_eq_true.mp decimal c digit)
      exact ⟨small, upper⟩
  have none : ('#' :: digits).count '/' = 0 := by
    rw [List.count_eq_zero]
    intro slash
    rcases List.mem_cons.mp slash with same | digit
    · exact absurd same (by decide)
    · exact absurd (List.all_eq_true.mp decimal _ digit) (by decide)
  have tail := lowered_of_ascii lower plain
  rw [shape, List.count_append, none]
  cases named : r.repo with
  | none => exact ⟨tail, Nat.zero_le 1⟩
  | some repo =>
    obtain ⟨ownerName, inside⟩ := repository repo named
    refine ⟨fun c hc => ?_, ownerName.count_slash.le⟩
    rcases List.mem_append.mp hc with within | after
    · have stands := inside c within
      unfold normalizedString at stands
      split at stands
      · exact lower.lowered _ c stands
      · cases stands
    · exact tail c after

/-- The text under which a reference is printed. -/
def printedRef (normalized : List Char) : Option Json := some (.string (String.ofList normalized))

private theorem reread (lower : LowerCase host) {value : Option Json} {r q : PrRef}
    (h : normalizedPrRef host value = some r)
    (again : normalizedPrRef host (printedRef r.normalized) = some q) :
    q.normalized = prKey q.repo q.number ∧
      ∀ repo, q.repo = some repo → isRepositoryText repo = true := by
  obtain ⟨lowered, slashes⟩ := normalized_shape lower h
  have few : (trim (String.ofList r.normalized)).toList.count '/' ≤ 1 :=
    ((trim_sublist r.normalized).count_le '/').trans slashes
  rw [printedRef, normalizedPrRef, normalizedString_ofList lower lowered, readPrRef,
    githubPullUrl_eq_none few] at again
  obtain ⟨⟨repo, digits⟩, found, rfl⟩ := Option.map_eq_some_iff.mp again
  exact ⟨rfl, fun name same => (prRefText_eq_some found name same).1⟩

/-- A repository in the characters of a reference is printed and read back. -/
private theorem reread_prKey (lower : LowerCase host) {repo : List Char} (n : Nat)
    (text : isRepositoryText repo = true) :
    normalizedPrRef host (printedRef (prKey (some repo) n)) =
      some ⟨some repo, n, prKey (some repo) n⟩ := by
  have plain := plain_of_isRepositoryText text
  have digits : ∀ c ∈ Nat.toDigits 10 n, c.isDigit = true := fun c hc => isDigit_toDigits hc
  have all : ∀ c ∈ prKey (some repo) n,
      (c.toNat < 128 ∧ c.isUpper = false) ∧ isJsSpace c = false := by
    intro c hc
    rcases List.mem_append.mp hc with within | after
    · obtain ⟨small, upper, space, _⟩ := plain c within
      exact ⟨⟨small, upper⟩, space⟩
    rcases List.mem_cons.mp after with rfl | digit
    · decide
    · obtain ⟨small, upper, space⟩ := ascii_of_isDigit (digits c digit)
      exact ⟨⟨small, upper⟩, space⟩
  have lowered := lowered_of_ascii lower fun c hc => (all c hc).1
  have slashes : (prKey (some repo) n).count '/' ≤ 1 := by
    have none : (Nat.toDigits 10 n).count '/' = 0 := by
      rw [List.count_eq_zero]
      intro slash
      exact absurd (digits _ slash) (by decide)
    have one := (isOwnerName_of_isRepositoryText text).count_slash
    rw [prKey, List.count_append, List.count_cons_of_ne (by decide), none]
    exact one.le
  have hash : '#' ∈ prKey (some repo) n := List.mem_append_right _ List.mem_cons_self
  have before : ∀ c ∈ repo, decide (c ≠ '#') = true := by
    intro c hc
    exact decide_eq_true (plain c hc).2.2.2
  have front : (prKey (some repo) n).takeWhile (fun c => decide (c ≠ '#')) = repo := by
    rw [prKey, Option.getD_some, List.takeWhile_append_of_pos before, List.takeWhile_cons]
    simp
  have back : ((prKey (some repo) n).dropWhile (fun c => decide (c ≠ '#'))).drop 1 =
      Nat.toDigits 10 n := by
    rw [prKey, Option.getD_some, List.dropWhile_append_of_pos before, List.dropWhile_cons]
    simp
  have named : repo ≠ [] := by
    rintro rfl
    exact absurd text (by decide)
  have decimal : (Nat.toDigits 10 n).all Char.isDigit = true := List.all_eq_true.mpr digits
  rw [printedRef, normalizedPrRef, normalizedString_ofList lower lowered,
    trim_ofList_plain fun c hc => (all c hc).2, readPrRef, githubPullUrl_eq_none slashes,
    prRefText, if_pos hash]
  simp only [front, back, decimal, Nat.toDigits_ne_nil, Bool.not_true, Bool.false_eq_true,
    or_self, if_false, if_neg named, if_pos text, Option.map_some, digitsValue_toDigits]

/-- Which references read back as they were: a plain repository, and a number without leading
zeros. -/
theorem reread_self_iff (lower : LowerCase host) {value : Option Json} {r : PrRef}
    {repo : List Char} (h : normalizedPrRef host value = some r) (named : r.repo = some repo) :
    normalizedPrRef host (printedRef r.normalized) = some r ↔
      isRepositoryText repo = true ∧ r.normalized = prKey (some repo) r.number := by
  constructor
  · intro again
    obtain ⟨printed, text⟩ := reread lower h again
    rw [named] at printed
    exact ⟨text repo named, printed⟩
  · rintro ⟨text, printed⟩
    have same : r = ⟨some repo, r.number, prKey (some repo) r.number⟩ := by
      rw [← printed, ← named]
    rw [printed, reread_prKey lower r.number text, ← same]

/-! ## What is retained -/

private theorem mem_insertOnce {keys : List (List Char)} {key k : List Char} :
    k ∈ insertOnce keys key ↔ k ∈ keys ∨ k = key := by
  unfold insertOnce
  split
  · next known =>
    constructor
    · exact Or.inl
    · rintro (h | rfl)
      · exact h
      · exact known
  · simp

private theorem mem_foldl_insertOnce {news keys : List (List Char)} {k : List Char} :
    k ∈ news.foldl insertOnce keys ↔ k ∈ keys ∨ k ∈ news := by
  induction news generalizing keys with
  | nil => simp
  | cons key news ih =>
    rw [List.foldl_cons, ih, mem_insertOnce, List.mem_cons, or_assoc]

private theorem keys_retain (facts : List (List Char × Fields)) (key : List Char) (fact : Fields) :
    keys (retain facts key fact) = insertOnce (keys facts) key := by
  unfold retain insertOnce
  split <;> simp

private theorem mem_of_mem_retain {facts : List (List Char × Fields)} {key : List Char}
    {fact : Fields} {entry : List Char × Fields} (h : entry ∈ retain facts key fact) :
    entry = (key, fact) ∨ entry ∈ facts := by
  unfold retain at h
  split at h
  · exact Or.inr h
  · rcases List.mem_append.mp h with h | h
    · exact Or.inr h
    · exact Or.inl (List.mem_singleton.mp h)

/-- A retained fact states a reference that some event of the log holds. -/
private def Stated (host : HostText) (occurrences : List (Fields × PrRef))
    (entry : List Char × Fields) : Prop :=
  ∃ occurrence ∈ occurrences, occurrence.2.normalized = entry.1 ∧
    entry.2 = mergeFact host occurrence.1 occurrence.2

/-- What a scan of the log has retained so far. -/
private structure Scanned (host : HostText) (waits : MergeWaits)
    (occurrences : List (Fields × PrRef)) (retained : RetainedEvidence) : Prop where
  facts : ∀ k, k ∈ keys retained.facts ↔
    k ∈ waits.exact ∧ ∃ occurrence ∈ occurrences, occurrence.2.normalized = k
  stated : ∀ entry ∈ retained.facts, Stated host occurrences entry
  diagnostics : ∀ number, keys ((retained.diagnostics.lookup number).getD []) =
    if number ∈ waits.unbound then
      ((((occurrences.map Prod.snd).filter
        (fun ref => ref.number = number && ref.repo.isSome)).map PrRef.normalized).foldl
          insertOnce [])
    else []
  diagnosed : ∀ number candidates, retained.diagnostics.lookup number = some candidates →
    ∀ entry ∈ candidates, Stated host occurrences entry
  distinct : (keys retained.diagnostics).Nodup

private theorem Stated.mono {occurrences : List (Fields × PrRef)} {entry : List Char × Fields}
    (h : Stated host occurrences entry) (occurrence : Fields × PrRef) :
    Stated host (occurrences ++ [occurrence]) entry := by
  obtain ⟨found, mem, same⟩ := h
  exact ⟨found, List.mem_append_left _ mem, same⟩

private theorem Scanned.step {waits : MergeWaits} {occurrences : List (Fields × PrRef)}
    {retained : RetainedEvidence} (h : Scanned host waits occurrences retained)
    (occurrence : Fields × PrRef) :
    Scanned host waits (occurrences ++ [occurrence]) (retainRef host waits retained occurrence) := by
  have here : Stated host (occurrences ++ [occurrence])
      (occurrence.2.normalized, mergeFact host occurrence.1 occurrence.2) :=
    ⟨occurrence, List.mem_append_right _ (List.mem_singleton.mpr rfl), rfl, rfl⟩
  have later : ∀ k, (∃ o ∈ occurrences ++ [occurrence], o.2.normalized = k) ↔
      (∃ o ∈ occurrences, o.2.normalized = k) ∨ occurrence.2.normalized = k := by
    intro k
    simp only [List.mem_append, List.mem_singleton, or_and_right, exists_or, exists_eq_left]
  have setDistinct : ∀ (value : List (List Char × Fields)),
      (keys (setKey retained.diagnostics occurrence.2.number value)).Nodup :=
    fun value => nodup_keys_setKey h.distinct _ _
  constructor
  · intro k
    rw [later, retainRef]
    simp only
    split
    · next wanted =>
      rw [keys_retain, mem_insertOnce, h.facts]
      constructor
      · rintro (⟨known, before⟩ | rfl)
        · exact ⟨known, Or.inl before⟩
        · exact ⟨wanted, Or.inr rfl⟩
      · rintro ⟨known, before | rfl⟩
        · exact Or.inl ⟨known, before⟩
        · exact Or.inr rfl
    · next unwanted =>
      rw [h.facts]
      constructor
      · rintro ⟨known, before⟩
        exact ⟨known, Or.inl before⟩
      · rintro ⟨known, before | rfl⟩
        · exact ⟨known, before⟩
        · exact absurd known unwanted
  · intro entry mem
    rw [retainRef] at mem
    simp only at mem
    split at mem
    · rcases mem_of_mem_retain mem with rfl | mem
      · exact here
      · exact (h.stated entry mem).mono occurrence
    · exact (h.stated entry mem).mono occurrence
  · intro number
    rw [retainRef, List.map_append, List.filter_append, List.map_append, List.foldl_append,
      List.map_singleton]
    simp only
    split
    · next open_ =>
      rw [lookup_setKey]
      by_cases same : number = occurrence.2.number
      · subst same
        rw [if_pos rfl, Option.getD_some, keys_retain, h.diagnostics, if_pos open_.1,
          if_pos open_.1]
        simp [open_.2]
      · rw [if_neg same, h.diagnostics]
        have other : (decide (occurrence.2.number = number) && occurrence.2.repo.isSome) = false := by
          simp [Ne.symm same]
        simp [other]
    · next closed =>
      rw [h.diagnostics]
      by_cases wanted : number ∈ waits.unbound
      · have other : (decide (occurrence.2.number = number) && occurrence.2.repo.isSome) = false := by
          rw [Bool.and_eq_false_iff, decide_eq_false_iff_not]
          by_contra both
          simp only [not_or, not_not, Bool.not_eq_false] at both
          exact closed ⟨both.1 ▸ wanted, both.2⟩
        simp [wanted, other]
      · rw [if_neg wanted, if_neg wanted]
  · intro number candidates found entry mem
    rw [retainRef] at found
    simp only at found
    split at found
    · rw [lookup_setKey] at found
      split at found
      · obtain rfl := Option.some.inj found
        rcases mem_of_mem_retain mem with rfl | mem
        · exact here
        · cases before : retained.diagnostics.lookup occurrence.2.number with
          | none =>
            rw [before] at mem
            cases mem
          | some candidates =>
            rw [before] at mem
            exact (h.diagnosed _ candidates before entry mem).mono occurrence
      · exact (h.diagnosed number candidates found entry mem).mono occurrence
    · exact (h.diagnosed number candidates found entry mem).mono occurrence
  · rw [retainRef]
    simp only
    split
    · exact setDistinct _
    · exact h.distinct

private theorem scanned (host : HostText) (waits : MergeWaits)
    (occurrences : List (Fields × PrRef)) :
    Scanned host waits occurrences (occurrences.foldl (retainRef host waits) ⟨[], []⟩) := by
  induction occurrences using List.reverseRecOn with
  | nil =>
    constructor
    · simp
    · simp
    · simp
    · simp
    · exact List.nodup_nil
  | append_singleton occurrences occurrence ih =>
    rw [List.foldl_append]
    exact ih.step occurrence

private theorem mem_retainDiagnostics {facts : List (List Char × Fields)}
    {diagnostic : Nat × List (List Char × Fields)} {k : List Char} :
    k ∈ keys (retainDiagnostics host facts diagnostic) ↔
      k ∈ keys facts ∨ k ∈ firstEight host (keys diagnostic.2) := by
  unfold retainDiagnostics
  generalize firstEight host (keys diagnostic.2) = refs
  induction refs generalizing facts with
  | nil => simp
  | cons ref refs ih =>
    rw [List.foldl_cons, ih, keys_retain, mem_insertOnce, List.mem_cons, or_assoc]

private theorem mem_firstEight {keys : List (List Char)} {k : List Char}
    (h : k ∈ firstEight host keys) : k ∈ keys :=
  List.mem_mergeSort.mp (List.mem_of_mem_take h)

private theorem stated_retainDiagnostics {occurrences : List (Fields × PrRef)}
    {facts : List (List Char × Fields)} {diagnostic : Nat × List (List Char × Fields)}
    (known : ∀ entry ∈ facts, Stated host occurrences entry)
    (candidates : ∀ entry ∈ diagnostic.2, Stated host occurrences entry) :
    ∀ entry ∈ retainDiagnostics host facts diagnostic, Stated host occurrences entry := by
  unfold retainDiagnostics
  have within : ∀ ref ∈ firstEight host (keys diagnostic.2), ref ∈ keys diagnostic.2 :=
    fun ref => mem_firstEight
  generalize firstEight host (keys diagnostic.2) = refs at within
  induction refs generalizing facts with
  | nil => exact known
  | cons ref refs ih =>
    obtain ⟨here, later⟩ := List.forall_mem_cons.mp within
    refine ih ?_ later
    intro entry mem
    rcases mem_of_mem_retain mem with rfl | mem
    · cases found : diagnostic.2.lookup ref with
      | none =>
        obtain ⟨fact, mem⟩ := mem_keys.mp here
        have apart := List.lookup_eq_none_iff.mp found (ref, fact) mem
        simp at apart
      | some fact =>
        obtain ⟨front, back, split, _⟩ := List.lookup_eq_some_iff.mp found
        refine candidates (ref, fact) ?_
        rw [split]
        exact List.mem_append_right _ List.mem_cons_self
    · exact known entry mem

/-- The references that the log's merge events hold, in their order. -/
def loggedRefs (host : HostText) (events : List Fields) : List PrRef :=
  (prMergedEvents host events).flatMap PrMergedEvent.refs

private theorem read_of_mem_loggedRefs {events : List Fields} {r : PrRef}
    (h : r ∈ loggedRefs host events) : ∃ value, normalizedPrRef host value = some r := by
  obtain ⟨merged, hmerged, mem⟩ := List.mem_flatMap.mp h
  obtain ⟨event, _, read⟩ := List.mem_filterMap.mp hmerged
  split at read
  · obtain rfl := Option.some.inj read
    obtain ⟨entry, hentry, rfl⟩ := List.mem_map.mp mem
    obtain ⟨ref, href, rfl⟩ := List.mem_map.mp (mem_of_mem_ofEntries hentry)
    obtain ⟨value, _, found⟩ := List.mem_filterMap.mp href
    exact ⟨value, found⟩
  · cases read

/-- The wait of an item for a merge: its repository, if it is bound to one, and its number. -/
def mergeWait (host : ResumeHost) (item : TodoItem) : Option (Option (List Char) × Nat) :=
  match parseResumeWhen host item.resumeWhen with
  | none => none
  | some spec =>
    if spec.kind ≠ .prMerged then none
    else (normalizedPrRef host.toHostText (printedRef spec.target)).map fun ref =>
      (ref.repo.or (githubRepository host.toHostText item.taskRepository), ref.number)

/-- An item adds its own wait and nothing else. -/
private theorem addWait_eq (rhost : ResumeHost) (waits : MergeWaits) (item : TodoItem) :
    addWait rhost waits item = match mergeWait rhost item with
      | none => waits
      | some (some repo, n) => { waits with exact := prKey (some repo) n :: waits.exact }
      | some (none, n) => { waits with unbound := n :: waits.unbound } := by
  unfold addWait mergeWait printedRef
  cases parseResumeWhen rhost item.resumeWhen with
  | none => rfl
  | some spec =>
    by_cases other : spec.kind ≠ .prMerged
    · simp only [if_pos other]
    · simp only [if_neg other]
      cases normalizedPrRef rhost.toHostText (some (.string (String.ofList spec.target))) with
      | none => rfl
      | some ref =>
        simp only [Option.map_some]
        cases ref.repo.or (githubRepository rhost.toHostText item.taskRepository) <;> rfl

private theorem mem_exact_addWait {rhost : ResumeHost} {waits : MergeWaits} {item : TodoItem}
    {k : List Char} :
    k ∈ (addWait rhost waits item).exact ↔
      (∃ repo n, mergeWait rhost item = some (some repo, n) ∧ k = prKey (some repo) n) ∨
        k ∈ waits.exact := by
  rw [addWait_eq]
  rcases mergeWait rhost item with _ | ⟨_ | repo, n⟩
  · simp
  · simp
  · simp

private theorem mem_unbound_addWait {rhost : ResumeHost} {waits : MergeWaits} {item : TodoItem}
    {n : Nat} :
    n ∈ (addWait rhost waits item).unbound ↔
      mergeWait rhost item = some (none, n) ∨ n ∈ waits.unbound := by
  rw [addWait_eq]
  rcases mergeWait rhost item with _ | ⟨_ | repo, m⟩
  · simp
  · simp [eq_comm]
  · simp

private theorem mem_waits (rhost : ResumeHost) (items : List TodoItem) (waits : MergeWaits) :
    (∀ k, k ∈ (items.foldl (addWait rhost) waits).exact ↔
      (∃ item ∈ items, ∃ repo n, mergeWait rhost item = some (some repo, n) ∧
        k = prKey (some repo) n) ∨ k ∈ waits.exact) ∧
    ∀ n, n ∈ (items.foldl (addWait rhost) waits).unbound ↔
      (∃ item ∈ items, mergeWait rhost item = some (none, n)) ∨ n ∈ waits.unbound := by
  induction items generalizing waits with
  | nil => simp
  | cons item items ih =>
    obtain ⟨exact, unbound⟩ := ih (addWait rhost waits item)
    simp only [List.foldl_cons, List.mem_cons, exists_eq_or_imp]
    constructor
    · intro k
      rw [exact, mem_exact_addWait, or_assoc, or_left_comm]
    · intro n
      rw [unbound, mem_unbound_addWait, or_assoc, or_left_comm]

/-- A reference of the log whose printed text the items' waits retain. -/
def Retains (host : ResumeHost) (items : List TodoItem) (events : List Fields)
    (ref : PrRef) : Prop :=
  (∃ item ∈ items, ∃ repo n, mergeWait host item = some (some repo, n) ∧
    ref.normalized = prKey (some repo) n) ∨
  ∃ item ∈ items, ∃ n, mergeWait host item = some (none, n) ∧
    ref.normalized ∈ candidatePrRefs host.toHostText (prMergedEvents host.toHostText events) n

/-- The events of the log, one for each reference they hold. -/
private def occurrences (host : HostText) (events : List Fields) : List (Fields × PrRef) :=
  (prMergedEvents host events).flatMap fun merged => merged.refs.map fun ref => (merged.event, ref)

private theorem occurrences_refs (host : HostText) (events : List Fields) :
    (occurrences host events).map Prod.snd = loggedRefs host events := by
  rw [occurrences, loggedRefs, List.map_flatMap]
  simp [Function.comp_def]

private theorem mem_diagnosed {waits : MergeWaits} {events : List Fields}
    {retained : RetainedEvidence} (scan : Scanned host waits (occurrences host events) retained)
    {k : List Char} :
    (∃ diagnostic ∈ retained.diagnostics, k ∈ firstEight host (keys diagnostic.2)) ↔
      ∃ n ∈ waits.unbound, k ∈ candidatePrRefs host (prMergedEvents host events) n := by
  have candidates : ∀ n ∈ waits.unbound,
      firstEight host (keys ((retained.diagnostics.lookup n).getD [])) =
        candidatePrRefs host (prMergedEvents host events) n := by
    intro n wanted
    rw [scan.diagnostics, if_pos wanted, occurrences_refs, candidatePrRefs, loggedRefs,
      List.filter_flatMap]
  constructor
  · rintro ⟨⟨n, found⟩, mem, within⟩
    have looked := lookup_of_mem scan.distinct mem
    have own : (retained.diagnostics.lookup n).getD [] = found := by rw [looked, Option.getD_some]
    by_cases wanted : n ∈ waits.unbound
    · refine ⟨n, wanted, ?_⟩
      rw [← candidates n wanted, own]
      exact within
    · have none := scan.diagnostics n
      rw [own, if_neg wanted] at none
      have inside := mem_firstEight within
      simp only [none] at inside
      cases inside
  · rintro ⟨n, wanted, within⟩
    rw [← candidates n wanted] at within
    cases looked : retained.diagnostics.lookup n with
    | none =>
      rw [looked] at within
      cases mem_firstEight within
    | some found =>
      rw [looked] at within
      exact ⟨(n, found), mem_of_lookup looked, within⟩

/-- The keyed facts behind the retained evidence. -/
private theorem retained_facts (rhost : ResumeHost) (items : List TodoItem)
    (events : List Fields) :
    ∃ facts : List (List Char × Fields), retainedEvidence rhost items events = facts.map Prod.snd ∧
      (∀ k, k ∈ keys facts ↔ ∃ r ∈ loggedRefs rhost.toHostText events,
        r.normalized = k ∧ Retains rhost items events r) ∧
      ∀ entry ∈ facts, Stated rhost.toHostText (occurrences rhost.toHostText events) entry := by
  have scan := scanned rhost.toHostText (items.foldl (addWait rhost) ⟨[], []⟩)
    (occurrences rhost.toHostText events)
  obtain ⟨exact, unbound⟩ := mem_waits rhost items ⟨[], []⟩
  have logged : ∀ k, (∃ o ∈ occurrences rhost.toHostText events, o.2.normalized = k) ↔
      ∃ r ∈ loggedRefs rhost.toHostText events, r.normalized = k := by
    intro k
    rw [← occurrences_refs]
    constructor
    · rintro ⟨o, mem, same⟩
      exact ⟨o.2, List.mem_map_of_mem mem, same⟩
    · rintro ⟨r, mem, same⟩
      obtain ⟨o, ho, rfl⟩ := List.mem_map.mp mem
      exact ⟨o, ho, same⟩
  have folded : ∀ (diagnostics : List (Nat × List (List Char × Fields)))
      (facts : List (List Char × Fields)) (k : List Char),
      k ∈ keys (diagnostics.foldl (retainDiagnostics rhost.toHostText) facts) ↔
        k ∈ keys facts ∨
          ∃ diagnostic ∈ diagnostics, k ∈ firstEight rhost.toHostText (keys diagnostic.2) := by
    intro diagnostics
    induction diagnostics with
    | nil => simp
    | cons diagnostic diagnostics ih =>
      intro facts k
      simp only [List.foldl_cons, List.mem_cons, exists_eq_or_imp]
      rw [ih, mem_retainDiagnostics, or_assoc]
  have printed : ∀ k n, k ∈ candidatePrRefs rhost.toHostText
      (prMergedEvents rhost.toHostText events) n →
      ∃ r ∈ loggedRefs rhost.toHostText events, r.normalized = k := by
    intro k n mem
    rcases mem_foldl_insertOnce.1 (mem_firstEight mem) with none | within
    · cases none
    · obtain ⟨r, hr, same⟩ := List.mem_map.mp within
      obtain ⟨merged, hmerged, hr⟩ := List.mem_flatMap.mp hr
      exact ⟨r, List.mem_flatMap.mpr ⟨merged, hmerged, List.mem_of_mem_filter hr⟩, same⟩
  refine ⟨_, rfl, ?_, ?_⟩
  · intro k
    rw [folded, ← occurrences, scan.facts, logged, mem_diagnosed scan, exact]
    simp only [unbound, List.not_mem_nil, or_false]
    constructor
    · rintro (⟨⟨item, hitem, repo, n, wait, rfl⟩, r, hr, same⟩ |
        ⟨n, ⟨item, hitem, wait⟩, within⟩)
      · exact ⟨r, hr, same, Or.inl ⟨item, hitem, repo, n, wait, same⟩⟩
      · obtain ⟨r, hr, rfl⟩ := printed k n within
        exact ⟨r, hr, rfl, Or.inr ⟨item, hitem, n, wait, within⟩⟩
    · rintro ⟨r, hr, rfl, ⟨item, hitem, repo, n, wait, same⟩ | ⟨item, hitem, n, wait, within⟩⟩
      · exact Or.inl ⟨⟨item, hitem, repo, n, wait, same⟩, r, hr, rfl⟩
      · exact Or.inr ⟨n, ⟨item, hitem, wait⟩, within⟩
  · have stated : ∀ (diagnostics : List (Nat × List (List Char × Fields))),
        (∀ diagnostic ∈ diagnostics, ∀ entry ∈ diagnostic.2,
          Stated rhost.toHostText (occurrences rhost.toHostText events) entry) →
        ∀ facts : List (List Char × Fields),
          (∀ entry ∈ facts, Stated rhost.toHostText (occurrences rhost.toHostText events) entry) →
          ∀ entry ∈ diagnostics.foldl (retainDiagnostics rhost.toHostText) facts,
            Stated rhost.toHostText (occurrences rhost.toHostText events) entry := by
      intro diagnostics
      induction diagnostics with
      | nil => exact fun _ _ known => known
      | cons diagnostic diagnostics ih =>
        intro each facts known
        obtain ⟨here, later⟩ := List.forall_mem_cons.mp each
        exact ih later _ (stated_retainDiagnostics known here)
    refine stated _ ?_ _ scan.stated
    rintro ⟨n, candidates⟩ mem
    exact scan.diagnosed n candidates (lookup_of_mem scan.distinct mem)

/-! ## Reading the retained evidence -/

private theorem lookup_factText_ne {event : Fields} {key k : String} (h : k ≠ key) :
    (factText event key).lookup k = none := by
  unfold factText
  split
  · split
    · rfl
    · rw [lookup_cons_ite, if_neg h]
      rfl
  · rfl

/-- The reference of a retained fact is read off its printed text. -/
private theorem rolloutEventPrRefs_mergeFact (event : Fields) (ref : PrRef) :
    rolloutEventPrRefs host (mergeFact host event ref) =
      (normalizedPrRef host (printedRef ref.normalized)).toList := by
  have others : ∀ key, key ≠ "event_kind" → key ≠ "pr_ref" → key ≠ "event_id" →
      key ≠ "recorded_at" → (mergeFact host event ref).lookup key = none := by
    intro key kind pr id at_
    simp only [mergeFact, List.lookup_append, lookup_factText_ne id, lookup_factText_ne at_,
      lookup_cons_ite, if_neg kind, if_neg pr]
    rfl
  have stands : (mergeFact host event ref).lookup "pr_ref" = printedRef ref.normalized := by
    simp [mergeFact, printedRef, lookup_cons_ite]
  have blank : normalizedPrRef host none = none := by rfl
  rw [rolloutEventPrRefs, others "code_refs" (by decide) (by decide) (by decide) (by decide),
    others "source_refs" (by decide) (by decide) (by decide) (by decide), stands]
  simp only [sourcePrRefCandidates, List.lookup_nil, uniquePrRefs, List.filterMap_cons, blank,
    List.filterMap_nil]
  cases normalizedPrRef host (printedRef ref.normalized) <;> rfl

private theorem kind_mergeFact (lower : LowerCase host) {event : Fields} (ref : PrRef)
    (h : normalizedString host (event.lookup "event_kind") ∈ PR_MERGED_EVENT_KINDS) :
    normalizedString host ((mergeFact host event ref).lookup "event_kind") ∈
      PR_MERGED_EVENT_KINDS := by
  have texts : PR_MERGED_EVENT_KINDS.all (fun kind => kind.all (fun c =>
      decide (c.toNat < 128) && !c.isUpper && !isJsSpace c)) = true := by decide
  have plain := List.all_eq_true.mp (List.all_eq_true.mp texts _ h)
  simp only [Bool.and_eq_true, decide_eq_true_eq, Bool.not_eq_true'] at plain
  have stands : (mergeFact host event ref).lookup "event_kind" =
      some (.string (String.ofList (normalizedString host (event.lookup "event_kind")))) := by
    simp [mergeFact, lookup_cons_ite]
  rw [stands, normalizedString_ofList lower (lowered_of_ascii lower fun c hc => (plain c hc).1),
    trim_ofList_plain fun c hc => (plain c hc).2]
  exact h

private theorem loggedRefs_facts (lower : LowerCase host) {events : List Fields}
    {facts : List (List Char × Fields)}
    (stated : ∀ entry ∈ facts, Stated host (occurrences host events) entry) :
    loggedRefs host (facts.map Prod.snd) =
      (keys facts).filterMap (fun k => normalizedPrRef host (printedRef k)) := by
  induction facts with
  | nil => rfl
  | cons entry facts ih =>
    obtain ⟨here, later⟩ := List.forall_mem_cons.mp stated
    obtain ⟨⟨event, ref⟩, mem, same, fact⟩ := here
    obtain ⟨merged, hmerged, mem⟩ := List.mem_flatMap.mp mem
    obtain ⟨ref', _, pair⟩ := List.mem_map.mp mem
    obtain ⟨rfl, rfl⟩ := Prod.mk.inj pair
    have kind : normalizedString host (merged.event.lookup "event_kind") ∈
        PR_MERGED_EVENT_KINDS := by
      obtain ⟨event, _, read⟩ := List.mem_filterMap.mp hmerged
      split at read
      · next kind =>
        rw [← Option.some.inj read]
        exact kind
      · cases read
    have own : loggedRefs host ([entry].map Prod.snd) =
        (normalizedPrRef host (printedRef entry.1)).toList := by
      rw [List.map_singleton, fact, loggedRefs, prMergedEvents, List.filterMap_cons,
        if_pos (kind_mergeFact lower ref' kind), ← same, ← rolloutEventPrRefs_mergeFact]
      exact List.append_nil _
    have split : loggedRefs host ((entry :: facts).map Prod.snd) =
        loggedRefs host ([entry].map Prod.snd) ++ loggedRefs host (facts.map Prod.snd) := by
      rw [loggedRefs, loggedRefs, loggedRefs, ← List.flatMap_append, prMergedEvents,
        prMergedEvents, prMergedEvents, ← List.filterMap_append]
      rfl
    rw [split, own, ih later, keys_cons, List.filterMap_cons]
    cases normalizedPrRef host (printedRef entry.1) <;> rfl

/-! ## Deciding a wait -/

/-- The reference names this pull request. -/
def PrRef.names (ref : PrRef) (repo : List Char) (number : Nat) : Bool :=
  ref.number = number && ref.repo = some repo

private theorem names_iff {ref : PrRef} {repo : List Char} {number : Nat} :
    ref.names repo number = true ↔ ref.number = number ∧ ref.repo = some repo := by
  rw [PrRef.names, Bool.and_eq_true, decide_eq_true_eq, decide_eq_true_eq]

private theorem names_of_find? {refs : List PrRef} {ref : PrRef} {repo : List Char} {number : Nat}
    (h : refs.find? (fun ref => ref.names repo number) = some ref) :
    ref.names repo number = true :=
  List.find?_some (p := fun ref : PrRef => ref.names repo number) h

private theorem matchingPrMerge_prRef (target : PrRef) (repo : List Char)
    (events : List PrMergedEvent) :
    (matchingPrMerge target repo events).map PrMergeMatch.prRef =
      ((events.flatMap PrMergedEvent.refs).find? (fun ref => ref.names repo target.number)).map
        PrRef.normalized := by
  induction events with
  | nil => rfl
  | cons merged events ih =>
    have spelled : merged.refs.find? (fun ref => decide (ref.number = target.number) &&
        decide (ref.repo = some repo)) =
        merged.refs.find? (fun ref => ref.names repo target.number) := rfl
    rw [matchingPrMerge, List.flatMap_cons, List.find?_append, spelled]
    cases merged.refs.find? (fun ref => ref.names repo target.number) with
    | none =>
      rw [Option.none_or]
      exact ih
    | some matched => rfl

/-- What the retained evidence needs of a bound wait: the first reference that the log holds for it
reads back as it was. Where the log holds none, no retained reference reads back as one. -/
def ReadsBack (host : ResumeHost) (items : List TodoItem) (events : List Fields)
    (repo : List Char) (number : Nat) : Prop :=
  match (loggedRefs host.toHostText events).find? (fun ref => ref.names repo number) with
  | some ref => normalizedPrRef host.toHostText (printedRef ref.normalized) = some ref
  | none => ∀ ref ∈ loggedRefs host.toHostText events, Retains host items events ref →
      ∀ again, normalizedPrRef host.toHostText (printedRef ref.normalized) = some again →
        again.names repo number = false

private theorem readsBack_iff {rhost : ResumeHost} (lower : LowerCase rhost.toHostText)
    {items : List TodoItem} {events : List Fields} {item : TodoItem} (mem : item ∈ items)
    {repo : List Char} {number : Nat} (wait : mergeWait rhost item = some (some repo, number)) :
    ((loggedRefs rhost.toHostText (retainedEvidence rhost items events)).find?
        (fun ref => ref.names repo number)).map PrRef.normalized =
      ((loggedRefs rhost.toHostText events).find? (fun ref => ref.names repo number)).map
        PrRef.normalized ↔ ReadsBack rhost items events repo number := by
  obtain ⟨facts, evidence, retained, stated⟩ := retained_facts rhost items events
  rw [evidence, loggedRefs_facts lower stated]
  -- a retained reference is one of the log, printed and read again
  have origin : ∀ again ∈ (keys facts).filterMap
      (fun k => normalizedPrRef rhost.toHostText (printedRef k)),
      ∃ ref ∈ loggedRefs rhost.toHostText events, Retains rhost items events ref ∧
        normalizedPrRef rhost.toHostText (printedRef ref.normalized) = some again := by
    intro again h
    obtain ⟨k, hk, found⟩ := List.mem_filterMap.mp h
    obtain ⟨ref, href, rfl, keeps⟩ := (retained k).mp hk
    exact ⟨ref, href, keeps, found⟩
  have kept : ∀ ref ∈ loggedRefs rhost.toHostText events, Retains rhost items events ref →
      ∀ again, normalizedPrRef rhost.toHostText (printedRef ref.normalized) = some again →
        again ∈ (keys facts).filterMap
          (fun k => normalizedPrRef rhost.toHostText (printedRef k)) :=
    fun ref href keeps again found =>
      List.mem_filterMap.mpr ⟨ref.normalized, (retained _).mpr ⟨ref, href, rfl, keeps⟩, found⟩
  have printed : ∀ again ∈ (keys facts).filterMap
      (fun k => normalizedPrRef rhost.toHostText (printedRef k)),
      again.names repo number = true →
        isRepositoryText repo = true ∧ again.normalized = prKey (some repo) number := by
    intro again h same
    obtain ⟨ref, href, _, found⟩ := origin again h
    obtain ⟨value, read⟩ := read_of_mem_loggedRefs href
    obtain ⟨shape, text⟩ := reread lower read found
    obtain ⟨rfl, named⟩ := names_iff.1 same
    rw [named] at shape
    exact ⟨text repo named, shape⟩
  rw [ReadsBack]
  cases first : (loggedRefs rhost.toHostText events).find? (fun ref => ref.names repo number) with
  | some ref =>
    have href := List.mem_of_find?_eq_some first
    have same : ref.names repo number = true := names_of_find? first
    obtain ⟨rfl, named⟩ := names_iff.1 same
    obtain ⟨value, read⟩ := read_of_mem_loggedRefs href
    simp only [reread_self_iff lower read named, Option.map_some]
    constructor
    · intro same
      obtain ⟨again, found, equal⟩ := Option.map_eq_some_iff.mp same
      obtain ⟨text, shape⟩ := printed again (List.mem_of_find?_eq_some found)
        (names_of_find? found)
      exact ⟨text, equal.symm.trans shape⟩
    · rintro ⟨text, shape⟩
      have own := (reread_self_iff lower read named).mpr ⟨text, shape⟩
      have keeps : Retains rhost items events ref :=
        Or.inl ⟨item, mem, repo, ref.number, wait, shape⟩
      have within := kept ref href keeps ref own
      cases found : ((keys facts).filterMap
          (fun k => normalizedPrRef rhost.toHostText (printedRef k))).find?
            (fun other => other.names repo ref.number) with
      | none =>
        have apart := List.find?_eq_none.mp found ref within
        exact absurd same apart
      | some again =>
        have shape' := (printed again (List.mem_of_find?_eq_some found)
          (names_of_find? found)).2
        rw [Option.map_some, shape', shape]
  | none =>
    simp only [Option.map_none, Option.map_eq_none_iff, List.find?_eq_none, Bool.not_eq_true]
    constructor
    · intro none ref href keeps again found
      exact none again (kept ref href keeps again found)
    · intro none again h
      obtain ⟨ref, href, keeps, found⟩ := origin again h
      exact none ref href keeps again found

/-- The two logs decide the item's wait for a merge alike. -/
def SameDecision (host : ResumeHost) (item : TodoItem) (kept events : List Fields) : Prop :=
  ∀ spec, parseResumeWhen host item.resumeWhen = some spec → spec.kind = .prMerged →
    (prMergedCondition host.toHostText spec item kept).satisfied =
      (prMergedCondition host.toHostText spec item events).satisfied ∧
    (prMergedCondition host.toHostText spec item kept).matchedPrRef =
      (prMergedCondition host.toHostText spec item events).matchedPrRef

private theorem repository_resolve (target : PrRef) (item : TodoItem)
    (events : List PrMergedEvent) :
    (resolvePrRepositoryBinding host target item events).repository =
      target.repo.or (githubRepository host item.taskRepository) := by
  unfold resolvePrRepositoryBinding
  cases target.repo with
  | some repo => rfl
  | none => cases githubRepository host item.taskRepository <;> rfl

/-- A wait for a merge reads one reference off the log, if it is bound to a repository. -/
private theorem matchedPrRef_eq {rhost : ResumeHost} {item : TodoItem} {spec : ResumeSpec}
    (parsed : parseResumeWhen rhost item.resumeWhen = some spec) (kind : spec.kind = .prMerged)
    (events : List Fields) :
    (prMergedCondition rhost.toHostText spec item events).matchedPrRef =
      match mergeWait rhost item with
      | some (some repo, number) =>
        ((loggedRefs rhost.toHostText events).find? (fun ref => ref.names repo number)).map
          PrRef.normalized
      | _ => none := by
  rw [mergeWait, parsed]
  simp only [kind, ne_eq, not_true_eq_false, if_false, printedRef]
  rw [prMergedCondition]
  cases normalizedPrRef rhost.toHostText (some (.string (String.ofList spec.target))) with
  | none => rfl
  | some target =>
    simp only [PrMergedCondition.matchedPrRef, Option.map_some, repository_resolve]
    cases target.repo.or (githubRepository rhost.toHostText item.taskRepository) with
    | none => rfl
    | some repo =>
      rw [Option.bind_some, matchingPrMerge_prRef]
      rfl

private theorem satisfied_eq (condition : PrMergedCondition) :
    condition.satisfied = condition.matchedPrRef.isSome := by
  rw [PrMergedCondition.satisfied, PrMergedCondition.matchedPrRef, Option.isSome_map]

private theorem sameDecision_iff {rhost : ResumeHost} {item : TodoItem}
    {kept events : List Fields} :
    SameDecision rhost item kept events ↔
      ∀ repo number, mergeWait rhost item = some (some repo, number) →
        ((loggedRefs rhost.toHostText kept).find? (fun ref => ref.names repo number)).map
            PrRef.normalized =
          ((loggedRefs rhost.toHostText events).find? (fun ref => ref.names repo number)).map
            PrRef.normalized := by
  constructor
  · intro same repo number wait
    have waits : mergeWait rhost item ≠ none := by
      rw [wait]
      exact Option.some_ne_none _
    unfold mergeWait at waits
    split at waits
    · exact absurd rfl waits
    · next spec parsed =>
      split at waits
      · exact absurd rfl waits
      · next kind =>
        have kind := not_not.mp kind
        have reads := (same spec parsed kind).2
        rw [matchedPrRef_eq parsed kind, matchedPrRef_eq parsed kind, wait] at reads
        exact reads
  · intro same spec parsed kind
    have reads : (prMergedCondition rhost.toHostText spec item kept).matchedPrRef =
        (prMergedCondition rhost.toHostText spec item events).matchedPrRef := by
      rw [matchedPrRef_eq parsed kind, matchedPrRef_eq parsed kind]
      split
      · next repo number wait => exact same repo number wait
      · rfl
    rw [satisfied_eq, satisfied_eq, reads]
    exact ⟨rfl, rfl⟩

/-- The retained evidence decides every wait as the whole log does, exactly if each bound wait reads
back what the log holds for it. -/
theorem compactTodoResumeMergeEvidence_sameDecision {rhost : ResumeHost}
    (lower : LowerCase rhost.toHostText) {items : List Json} {todos : List TodoItem}
    (decoded : decodeItems rhost.toHostText items = .ok todos) (events : List Fields) :
    ∃ kept, compactTodoResumeMergeEvidence rhost items events = .ok kept ∧
      ((∀ item ∈ todos, SameDecision rhost item kept events) ↔
        ∀ item ∈ todos, ∀ repo number, mergeWait rhost item = some (some repo, number) →
          ReadsBack rhost todos events repo number) := by
  refine ⟨retainedEvidence rhost todos events, ?_, ?_⟩
  · rw [compactTodoResumeMergeEvidence, decoded, ok_bind]
  · constructor
    · intro same item mem repo number wait
      exact (readsBack_iff lower mem wait).mp (sameDecision_iff.1 (same item mem) repo number wait)
    · intro reads item mem
      refine sameDecision_iff.2 fun repo number wait => ?_
      exact (readsBack_iff lower mem wait).mpr (reads item mem repo number wait)

/-! ## The number of a pull request address -/

/-- A wait for a pull request of a named repository. -/
def mergeItem : Json :=
  .object [("todo_id", .string "todo_abc"), ("resume_when", .string "pr_merged:o/r#7")]

/-- The merge of that pull request under its address, the number written as it stands. -/
def mergeEvent (digits : String) : Fields :=
  [("event_kind", .string "pr_merged"),
    ("pr_ref", .string ("https://github.com/o/r/pull/" ++ digits))]

/-- ASCII text, and no wake-up times. -/
def asciiResume : ResumeHost where
  toUpperCase := List.map Char.toUpper
  toLowerCase := List.map Char.toLower
  localeCompare := compare
  resumeTimestamp := fun _ => none

theorem lowerCase_asciiResume : LowerCase asciiResume.toHostText where
  ascii := by
    intro c _ small
    show [c.toLower] = [c]
    rw [toLower_eq_self_iff.mpr small]
  lowered := by
    intro text c hc
    obtain ⟨d, _, rfl⟩ := List.mem_map.mp hc
    show [d.toLower.toLower] = [d.toLower]
    rw [toLower_toLower]
  fixed := by
    intro text h
    show text.map Char.toLower = text
    conv_rhs => rw [← List.map_id text]
    refine List.map_congr_left fun c hc => ?_
    exact (List.cons.inj (h c hc)).1

/-- The item as it is read. -/
def mergeTodo : TodoItem :=
  ⟨"todo_abc", none, none, none, none, none, none, none, none, none, some "pr_merged:o/r#7", none,
    none⟩

private theorem decoded_mergeItem :
    decodeItems asciiResume.toHostText [mergeItem] = .ok [mergeTodo] :=
  ok_of_toOption (by decide)

private def mergeSpec : ResumeSpec := ⟨.prMerged, "o/r#7".toList, "pr_merged:o/r#7".toList⟩

private theorem parsed_mergeTodo : parseResumeWhen asciiResume mergeTodo.resumeWhen =
    some mergeSpec := by decide

/-- A number with leading zeros satisfies the wait on the whole log, and its evidence is lost. -/
theorem compactTodoResumeMergeEvidence_leading_zeros :
    ∃ todos kept, decodeItems asciiResume.toHostText [mergeItem] = .ok todos ∧
      compactTodoResumeMergeEvidence asciiResume [mergeItem] [mergeEvent "007"] = .ok kept ∧
      ∃ item ∈ todos, ¬SameDecision asciiResume item kept [mergeEvent "007"] := by
  refine ⟨[mergeTodo], [], decoded_mergeItem, ok_of_toOption (by decide), mergeTodo,
    List.mem_singleton.mpr rfl, ?_⟩
  intro same
  have whole : (prMergedCondition asciiResume.toHostText mergeSpec mergeTodo
      [mergeEvent "007"]).satisfied = true := by decide
  have lost : (prMergedCondition asciiResume.toHostText mergeSpec mergeTodo []).satisfied =
      false := by decide
  have equal := (same mergeSpec parsed_mergeTodo rfl).1
  rw [whole, lost] at equal
  cases equal

/-- Without them the wait is decided alike. -/
theorem compactTodoResumeMergeEvidence_sameDecision_address :
    ∃ kept, compactTodoResumeMergeEvidence asciiResume [mergeItem] [mergeEvent "7"] = .ok kept ∧
      SameDecision asciiResume mergeTodo kept [mergeEvent "7"] := by
  obtain ⟨kept, compacted, decides⟩ := compactTodoResumeMergeEvidence_sameDecision
    lowerCase_asciiResume decoded_mergeItem [mergeEvent "7"]
  refine ⟨kept, compacted, decides.mpr ?_ mergeTodo (List.mem_singleton.mpr rfl)⟩
  intro item mem repo number wait
  obtain rfl := List.mem_singleton.mp mem
  have waits : mergeWait asciiResume mergeTodo = some (some "o/r".toList, 7) := by decide
  obtain ⟨named, rfl⟩ := Prod.mk.inj (Option.some.inj (waits.symm.trans wait))
  obtain rfl := Option.some.inj named
  have first : (loggedRefs asciiResume.toHostText [mergeEvent "7"]).find?
      (fun ref => ref.names "o/r".toList 7) =
        some ⟨some "o/r".toList, 7, "o/r#7".toList⟩ := by decide
  rw [ReadsBack, first]
  decide

end Loopx.Todos
