/- GID: Loopx/Todos/PriorityRuns
   generality: I
   source: loopx/control_plane/todos/priority.ts
   digest: Over any edits, the text of a Todo says its priority and title as the fields do. -/

import Loopx.Todos.Priority

set_option autoImplicit false
set_option relaxedAutoImplicit false

namespace Loopx.Todos

open Loopx.Authority (isJsSpace)
open Loopx.Lib.CollapsedText
open Loopx.Lib.KeyedList
open Loopx.Lib.RecordUpdate (merge)
open Loopx.Lib.Strip (stripEnds stripEnds_eq_self_iff stripEnds_idem stripEnds_eq)

/-! White space as the text codec leaves it. -/

private theorem collapsePythonRuns_collapsed (replaced : Bool) (text : List Char) :
    Collapsed isPythonSpace ' ' (collapsePythonRuns replaced text) ∧
      (replaced = true →
        ∀ c ∈ (collapsePythonRuns replaced text).head?, isPythonSpace c = false) := by
  induction text generalizing replaced with
  | nil => exact ⟨Collapsed.nil, by simp [collapsePythonRuns]⟩
  | cons c text ih =>
    rw [collapsePythonRuns]
    by_cases blank : isPythonSpace c = true
    · rw [if_pos blank]
      cases replaced with
      | true => exact ih true
      | false =>
        obtain ⟨rest, solid⟩ := ih true
        refine ⟨collapsed_cons (fun _ => rfl) ?_ rest, by simp⟩
        rintro d first ⟨-, again⟩
        rw [solid rfl d first] at again
        cases again
    · rw [if_neg blank]
      refine ⟨collapsed_cons (fun h => absurd h blank) (fun _ _ h => blank h.1) (ih false).1, ?_⟩
      intro _ d first
      obtain rfl : c = d := by simpa using first
      exact Bool.eq_false_iff.2 blank

private theorem head?_collapsePythonRuns {replaced : Bool} {text : List Char}
    (solid : ∀ c ∈ text.head?, isPythonSpace c = false) :
    (collapsePythonRuns replaced text).head? = text.head? := by
  cases text with
  | nil => rfl
  | cons c text => rw [collapsePythonRuns, if_neg (Bool.eq_false_iff.1 (solid c rfl))]; rfl

private theorem getLast?_collapsePythonRuns {replaced : Bool} {text : List Char} {c : Char}
    (solid : isPythonSpace c = false) :
    (collapsePythonRuns replaced (text ++ [c])).getLast? = some c := by
  induction text generalizing replaced with
  | nil => simp [collapsePythonRuns, solid]
  | cons d text ih =>
    rw [List.cons_append, collapsePythonRuns]
    split
    · split
      · exact ih
      · rw [List.getLast?_cons, ih]; rfl
    · rw [List.getLast?_cons, ih]; rfl

theorem compactPythonWhitespace_compact (text : List Char) :
    Compact isPythonSpace ' ' (compactPythonWhitespace text) := by
  obtain ⟨front, back⟩ := stripEnds_eq_self_iff.1 (stripEnds_idem isPythonSpace text)
  refine { (collapsePythonRuns_collapsed false _).1 with ends := stripEnds_eq_self_iff.2 ⟨?_, ?_⟩ }
  · intro c first
    rw [compactPythonWhitespace, head?_collapsePythonRuns front] at first
    exact front c first
  · intro c last
    rcases List.eq_nil_or_concat (stripEnds isPythonSpace text) with empty | ⟨init, d, whole⟩
    · rw [compactPythonWhitespace, empty] at last
      cases last
    · rw [List.concat_eq_append] at whole
      have solid : isPythonSpace d = false := back d (by rw [whole]; simp)
      rw [compactPythonWhitespace, whole, getLast?_collapsePythonRuns solid] at last
      obtain rfl : d = c := by simpa using last
      exact solid

private theorem collapsePythonRuns_of_collapsed {text : List Char}
    (h : Collapsed isPythonSpace ' ' text) (replaced : Bool)
    (first : replaced = true → ∀ c ∈ text.head?, isPythonSpace c = false) :
    collapsePythonRuns replaced text = text := by
  induction text generalizing replaced with
  | nil => rfl
  | cons c text ih =>
    have rest := h.within (List.suffix_cons c text).isInfix
    rw [collapsePythonRuns]
    by_cases blank : isPythonSpace c = true
    · have opened : replaced = false := by
        cases replaced with
        | false => rfl
        | true => rw [first rfl c rfl] at blank; cases blank
      have next : ∀ d ∈ text.head?, isPythonSpace d = false := by
        intro d hd
        cases text with
        | nil => cases hd
        | cons e text =>
          obtain rfl : e = d := by simpa using hd
          have apart := (List.isChain_cons_cons.1 h.apart).1
          exact Bool.eq_false_iff.2 fun again => apart ⟨blank, again⟩
      rw [if_pos blank, opened, if_neg Bool.false_ne_true, ih rest true fun _ => next,
        h.only c (by simp) blank]
    · rw [if_neg blank, ih rest false fun h => by cases h]

theorem compactPythonWhitespace_of_compact {text : List Char}
    (h : Compact isPythonSpace ' ' text) : compactPythonWhitespace text = text := by
  rw [compactPythonWhitespace, h.ends,
    collapsePythonRuns_of_collapsed h.toCollapsed false fun h => by cases h]

/-- Text without blanks of either kind at its ends, cut from compact text, is compact. -/
private theorem compact_of_trimmed {text part : List Char} (h : Compact isPythonSpace ' ' text)
    (inside : part <:+: text) (trimmed : stripEnds isJsSpace part = part) :
    Compact isPythonSpace ' ' part := by
  have only : ∀ c ∈ part, isJsSpace c = false → isPythonSpace c = false := by
    intro c hc solid
    by_contra blank
    have hsep := h.only c (inside.subset hc) (by simpa using blank)
    rw [hsep] at solid
    revert solid
    decide
  obtain ⟨front, back⟩ := stripEnds_eq_self_iff.1 trimmed
  refine h.part inside (stripEnds_eq_self_iff.2 ⟨?_, ?_⟩)
  · exact fun c first => only c (List.mem_of_mem_head? first) (front c first)
  · exact fun c last => only c (List.mem_of_mem_getLast? last) (back c last)

/-! The marker of a text. -/

theorem stripEnds_within (p : Char → Bool) (text : List Char) : stripEnds p text <:+: text := by
  rw [stripEnds_eq]
  exact (List.rdropWhile_prefix p _).isInfix.trans (List.dropWhile_suffix p).isInfix

private theorem titleGroup?_suffix {text title : List Char} (h : titleGroup? text = some title) :
    title <:+ text := by
  obtain ⟨-, found⟩ := Option.ite_none_right_eq_some.1 h
  obtain rfl := Option.some.inj found
  split
  · cases last : text.getLast? with
    | none => exact List.nil_suffix
    | some c =>
      obtain ⟨init, rfl⟩ := List.getLast?_eq_some_iff.1 last
      exact List.suffix_append init [c]
  · exact List.dropWhile_suffix isJsSpace

private theorem legacyPrefix?_spec {text marker title : List Char}
    (h : legacyPrefix? text = some (marker, title)) :
    (legacyLabel? marker).isSome ∧ title <:+: text := by
  unfold legacyPrefix? at h
  split at h
  · rename_i letter c rest opened
    have whole : '[' :: letter :: c :: rest <:+: text := by
      rw [← opened]
      exact (List.dropWhile_suffix isJsSpace).isInfix
    split at h
    · rename_i labelled
      cases rest with
      | nil => cases h
      | cons next decoration =>
        have tail : decoration <:+: text :=
          (show decoration <:+ '[' :: letter :: c :: next :: decoration from
            List.suffix_append [_, _, _, _] decoration).isInfix.trans whole
        simp only at h
        split at h
        · obtain ⟨group, hgroup, heq⟩ := Option.map_eq_some_iff.1 h
          obtain ⟨rfl, rfl⟩ := Prod.mk.inj heq
          exact ⟨labelled, (titleGroup?_suffix hgroup).isInfix.trans tail⟩
        · split at h
          · rename_i ends
            split at h
            · cases h
            · rename_i closing after htail
              obtain ⟨group, hgroup, heq⟩ := Option.map_eq_some_iff.1 h
              obtain ⟨rfl, rfl⟩ := Prod.mk.inj heq
              refine ⟨by rw [legacyLabel?, if_pos ends]; exact labelled, ?_⟩
              have inner : after <:+ decoration :=
                (List.suffix_cons closing after).trans
                  (htail ▸ List.dropWhile_suffix fun d => d != ']')
              exact ((titleGroup?_suffix hgroup).trans inner).isInfix.trans tail
          · cases h
    · cases h
  · cases h

theorem legacyTodoPriority_eq_none {text : List Char} :
    (legacyTodoPriority text).1 = none ↔ legacyPrefix? text = none := by
  unfold legacyTodoPriority
  cases h : legacyPrefix? text with
  | none => simp
  | some found =>
    have labelled := (legacyPrefix?_spec h).1
    simp only [reduceCtorEq, iff_false]
    intro absent
    rw [absent] at labelled
    cases labelled

/-- A text without a marker is all title; behind a marker the title has no blanks at its ends. -/
theorem legacyTodoPriority_title (text : List Char) :
    ((legacyTodoPriority text).1 = none → (legacyTodoPriority text).2 = text) ∧
    ((legacyTodoPriority text).1.isSome →
      stripEnds isJsSpace (legacyTodoPriority text).2 = (legacyTodoPriority text).2) ∧
    (legacyTodoPriority text).2 <:+: text := by
  cases h : legacyPrefix? text with
  | none =>
    have plain : legacyTodoPriority text = (none, text) := by rw [legacyTodoPriority, h]
    rw [plain]
    exact ⟨fun _ => rfl, fun h => (by cases h), List.infix_rfl⟩
  | some found =>
    have marked : legacyTodoPriority text =
        (legacyLabel? found.1, stripEnds isJsSpace found.2) := by
      rw [legacyTodoPriority, h]
    refine ⟨fun absent => ?_, fun _ => ?_, ?_⟩
    · rw [legacyTodoPriority_eq_none.1 absent] at h
      cases h
    · rw [marked]
      exact stripEnds_idem isJsSpace found.2
    · rw [marked]
      exact (stripEnds_within isJsSpace found.2).trans (legacyPrefix?_spec h).2

/-- A priority and a title whose text reads back as them. -/
structure Displayable (priority : Option TodoPriority) (title : List Char) : Prop where
  compact : Compact isPythonSpace ' ' title
  nonempty : title ≠ []
  trimmed : priority ≠ none → stripEnds isJsSpace title = title
  plain : priority = none → legacyPrefix? title = none

private theorem titleGroup?_blank {title : List Char} (compact : Compact isPythonSpace ' ' title)
    (nonempty : title ≠ []) (trimmed : stripEnds isJsSpace title = title) :
    titleGroup? (' ' :: title) = some title := by
  have front := (stripEnds_eq_self_iff.1 trimmed).1
  have dropped : (' ' :: title).dropWhile isJsSpace = title := by
    rw [List.dropWhile_cons_of_pos (by decide)]
    obtain ⟨c, rest, rfl⟩ := List.exists_cons_of_ne_nil nonempty
    exact List.dropWhile_cons_of_neg (by rw [front c rfl]; exact Bool.false_ne_true)
  have oneLine : title.all (fun c => !isLineTerminator c) = true := by
    rw [List.all_eq_true]
    intro c hc
    by_contra ends
    have terminator : isLineTerminator c = true := by simpa using ends
    have blank : isPythonSpace c = true := by
      simp only [isLineTerminator, Bool.or_eq_true, decide_eq_true_eq] at terminator
      rcases terminator with ((rfl | rfl) | h) | h
      · decide
      · decide
      · simp [isPythonSpace, h]
      · simp [isPythonSpace, h]
    rw [compact.only c hc blank] at terminator
    revert terminator
    decide
  unfold titleGroup?
  simp only [dropped, if_neg nonempty]
  exact if_pos ⟨nonempty, oneLine⟩

theorem legacyTodoPriority_markedText {priority : Option TodoPriority} {title : List Char}
    (h : Displayable priority title) :
    legacyTodoPriority (markedText priority title) = (priority, title) := by
  cases priority with
  | none => rw [markedText, legacyTodoPriority, h.plain rfl]
  | some priority =>
    have trimmed := h.trimmed (by simp)
    have found : legacyPrefix? (markedText (some priority) title) =
        some (priority.label, title) := by
      have opened : (markedText (some priority) title).dropWhile isJsSpace =
          '[' :: 'P' :: priority.digit :: ']' :: ' ' :: title :=
        List.dropWhile_cons_of_neg (by decide)
      rw [legacyPrefix?, opened]
      simp only [TodoPriority.read?_label, Option.isSome_some, if_true,
        titleGroup?_blank h.compact h.nonempty trimmed]
      rfl
    rw [legacyTodoPriority, found]
    simp only [trimmed]
    rw [TodoPriority.label, legacyLabel?, TodoPriority.read?_label]

theorem compact_markedText {priority : Option TodoPriority} {title : List Char}
    (h : Displayable priority title) : Compact isPythonSpace ' ' (markedText priority title) := by
  cases priority with
  | none => exact h.compact
  | some priority =>
    have solid : ∀ c ∈ ['[', 'P', priority.digit, ']'], isPythonSpace c = false := by
      intro c mem
      have one : c = '[' ∨ c = 'P' ∨ c = priority.digit ∨ c = ']' := by simpa using mem
      rcases one with rfl | rfl | rfl | rfl
      · rfl
      · rfl
      · cases priority <;> rfl
      · rfl
    exact h.compact.append h.nonempty solid (by simp)

/-! What a Todo stores, and what one edit does to it. -/

/-- A Todo with this priority and title. A store that drops a null priority keeps only the text. -/
structure Stores (todo : Fields) (priority : Option TodoPriority) (title : List Char) : Prop where
  text : todo.lookup "text" = some (.string (String.ofList (markedText priority title)))
  fields : todo.lookup "priority" = some (priorityJson priority) ∧
      todo.lookup "title" = some (.string (String.ofList title)) ∨
    priority = none ∧ todo.lookup "priority" = none ∧ todo.lookup "title" = none

/-- The stored text decodes to exactly the stored priority and title, and the title is not empty. -/
def Consistent (todo : Fields) : Prop :=
  ∃ text priority title, todo.lookup "text" = some (.string text) ∧
    legacyTodoPriority text.toList = (priority, title) ∧ title ≠ [] ∧
    (todo.lookup "priority" = some (priorityJson priority) ∧
        todo.lookup "title" = some (.string (String.ofList title)) ∨
      priority = none ∧ todo.lookup "priority" = none ∧ todo.lookup "title" = none)

/-- The title of a Todo: its text where no title is stored. -/
def storedTitle (todo : Fields) : Option Json := (todo.lookup "title").or (todo.lookup "text")

theorem Stores.consistent {todo : Fields} {priority : Option TodoPriority} {title : List Char}
    (h : Stores todo priority title) (displayable : Displayable priority title) :
    Consistent todo :=
  ⟨_, priority, title, h.text,
    by rw [String.toList_ofList]; exact legacyTodoPriority_markedText displayable,
    displayable.nonempty, h.fields⟩

theorem Stores.readTodoPriority {todo : Fields} {priority : Option TodoPriority}
    {title : List Char} (h : Stores todo priority title)
    (displayable : Displayable priority title) :
    readTodoPriority todo = priority := by
  rcases h.fields with ⟨hpriority, -⟩ | ⟨rfl, absent, -⟩
  · exact readTodoPriority_priorityJson hpriority
  · have shown : displayedText todo = String.ofList (markedText none title) := by
      rw [displayedText, h.text]
      rfl
    rw [Todos.readTodoPriority, absent]
    simp only [shown, String.toList_ofList, legacyTodoPriority_markedText displayable]

theorem Stores.storedTitle {todo : Fields} {priority : Option TodoPriority} {title : List Char}
    (h : Stores todo priority title) : storedTitle todo = some (.string (String.ofList title)) := by
  rcases h.fields with ⟨-, htitle⟩ | ⟨rfl, -, absent⟩
  · rw [Todos.storedTitle, htitle, Option.some_or]
  · rw [Todos.storedTitle, absent, Option.none_or, h.text, markedText]

theorem nodup_priorityFields (priority : Option TodoPriority) (title : List Char) :
    (keys (priorityFields priority title)).Nodup := by
  change ["text", "title", "priority"].Nodup
  decide

theorem stores_storePriority (dropsNull : Bool) (todo : Fields) (priority : Option TodoPriority)
    (title : List Char) :
    Stores (storePriority dropsNull todo (priorityFields priority title)) priority title := by
  have merged := Loopx.Lib.RecordUpdate.lookup_merge (nodup_priorityFields priority title) todo
  have text := merged "text"
  have htitle := merged "title"
  have hpriority := merged "priority"
  unfold storePriority
  split
  · rename_i dropped
    have cleared : priority = none := by
      have null := dropped.2
      cases priority with
      | none => rfl
      | some priority => cases null
    refine ⟨?_, .inr ⟨cleared, ?_, ?_⟩⟩
    · rw [lookup_eraseKey, if_neg (by decide), lookup_eraseKey, if_neg (by decide), text]
      rfl
    · rw [lookup_eraseKey, if_neg (by decide), lookup_eraseKey, if_pos rfl]
    · rw [lookup_eraseKey, if_pos rfl]
  · exact ⟨text, .inl ⟨hpriority, htitle⟩⟩

private theorem eraseKey_of_lookup {fields : Fields} {key : String}
    (absent : fields.lookup key = none) : eraseKey fields key = fields := by
  rw [eraseKey, List.filter_eq_self]
  intro field hfield
  have other : field.1 ≠ key := by
    rintro rfl
    exact lookup_eq_none.1 absent (List.mem_map_of_mem hfield)
  simpa using other

private theorem eraseKey_append (fields more : Fields) (key : String) :
    eraseKey (fields ++ more) key = eraseKey fields key ++ eraseKey more key :=
  List.filter_append _ _

/-- Storing a plan over its own result changes nothing. -/
theorem storePriority_again (dropsNull : Bool) (todo : Fields) (priority : Option TodoPriority)
    (title : List Char) :
    storePriority dropsNull
        (storePriority dropsNull todo (priorityFields priority title))
        (priorityFields priority title) =
      storePriority dropsNull todo (priorityFields priority title) := by
  have stored := stores_storePriority dropsNull todo priority title
  generalize hafter : storePriority dropsNull todo (priorityFields priority title) = after
    at stored ⊢
  rcases stored.fields with ⟨hpriority, htitle⟩ | ⟨rfl, noPriority, noTitle⟩
  · have same : merge after (priorityFields priority title) = after := by
      rw [priorityFields, merge, List.foldl_cons, List.foldl_cons, List.foldl_cons, List.foldl_nil,
        setKey_self stored.text, setKey_self htitle, setKey_self hpriority]
    rw [storePriority, same, if_neg]
    rintro ⟨drops, null⟩
    rw [← hafter, storePriority, if_pos ⟨drops, null⟩, lookup_eraseKey, if_neg (by decide),
      lookup_eraseKey, if_pos rfl] at hpriority
    cases hpriority
  · have dropped : dropsNull = true := by
      by_contra kept
      have merged := Loopx.Lib.RecordUpdate.lookup_merge (nodup_priorityFields none title) todo
        "priority"
      rw [← hafter, storePriority, if_neg (fun h => kept h.1), merged] at noPriority
      cases noPriority
    have extended : merge after (priorityFields none title) =
        after ++ [("title", .string (String.ofList title)), ("priority", .null)] := by
      have fresh : "priority" ∉ keys (after ++ [("title", .string (String.ofList title))]) := by
        rw [keys_append, List.mem_append]
        rintro (old | new)
        · exact lookup_eq_none.1 noPriority old
        · exact absurd (List.mem_singleton.1 new : "priority" = "title") (by decide)
      rw [priorityFields, merge, List.foldl_cons, List.foldl_cons, List.foldl_cons, List.foldl_nil,
        setKey_self stored.text, setKey_of_not_mem (lookup_eq_none.1 noTitle),
        setKey_of_not_mem fresh, List.append_assoc]
      rfl
    have forget : ∀ key, key = "title" ∨ key = "priority" → eraseKey after key = after := by
      rintro key (rfl | rfl)
      · exact eraseKey_of_lookup noTitle
      · exact eraseKey_of_lookup noPriority
    rw [storePriority, if_pos ⟨dropped, rfl⟩, extended, eraseKey_append, eraseKey_append,
      forget _ (.inr rfl), forget _ (.inl rfl)]
    exact List.append_nil after

/-- The edit leaves no priority: it says so, or gives an unmarked text for a Todo without one. -/
def LeavesNoPriority (todo intent : Fields) (raw : String) : Prop :=
  declaredPriority intent = .ok (some none) ∨
    declaredPriority intent = .ok none ∧ (editReading raw).1 = none ∧ readTodoPriority todo = none

/-- The title an edit decodes is not empty. Where a priority is left it has no white space at its
ends, which only U+FEFF can be; where none is left it carries no further marker. -/
def EditReadable (todo intent : Fields) : Prop :=
  ∀ raw, plannedText todo intent = some (.string raw) →
    (editReading raw).2 ≠ [] ∧
    (¬LeavesNoPriority todo intent raw →
      stripEnds isJsSpace (editReading raw).2 = (editReading raw).2) ∧
    (LeavesNoPriority todo intent raw → (legacyTodoPriority (editReading raw).2).1 = none)

theorem plannedPriority_eq_none {todo intent : Fields} {raw : String}
    {declared : Option (Option TodoPriority)} (plans : PlansFields todo intent raw declared) :
    plannedPriority todo intent raw declared = none ↔ LeavesNoPriority todo intent raw := by
  unfold LeavesNoPriority
  rw [plans.declares, plannedPriority]
  cases declared with
  | some priority => simp
  | none =>
    have hasText : (intent.lookup "text").isSome = true := plans.busy.resolve_right (by simp)
    simp only [hasText, true_and, Option.getD_none, Except.ok.injEq, reduceCtorEq, false_or]
    change (if (editReading raw).1.isSome = true then (editReading raw).1
      else readTodoPriority todo) = none ↔ _
    cases (editReading raw).1 with
    | none => simp
    | some priority => simp

/-- A plan sets a priority and a title whose text reads back as them, exactly where the edit is
readable. -/
theorem displayable_iff_editReadable {todo intent : Fields} {raw : String}
    {declared : Option (Option TodoPriority)} (plans : PlansFields todo intent raw declared) :
    Displayable (plannedPriority todo intent raw declared) (editReading raw).2 ↔
      EditReadable todo intent := by
  have leaves := plannedPriority_eq_none plans
  have body := compactPythonWhitespace_compact raw.toList
  obtain ⟨unmarked, marked, inside⟩ :=
    legacyTodoPriority_title (compactPythonWhitespace raw.toList)
  constructor
  · intro h raw' planned
    obtain rfl : raw = raw' := by simpa using plans.planned.symm.trans planned
    refine ⟨h.nonempty, fun kept => h.trimmed fun absent => kept (leaves.1 absent), fun left => ?_⟩
    exact legacyTodoPriority_eq_none.2 (h.plain (leaves.2 left))
  · intro readable
    obtain ⟨nonempty, trimmed, plain⟩ := readable raw plans.planned
    refine ⟨?_, nonempty, fun kept => trimmed fun left => kept (leaves.2 left),
      fun absent => legacyTodoPriority_eq_none.1 (plain (leaves.1 absent))⟩
    cases found : (editReading raw).1 with
    | none => exact (unmarked found).symm ▸ body
    | some priority =>
      exact compact_of_trimmed body inside (marked (Option.isSome_of_eq_some found))

private theorem priorityJson_injective {a b : Option TodoPriority}
    (h : priorityJson a = priorityJson b) : a = b := by
  revert h
  rcases a with _ | a <;> rcases b with _ | b
  · exact fun _ => rfl
  · intro h
    cases h
  · intro h
    cases h
  · intro h
    have labels := congrArg String.toList (Json.string.inj h)
    rw [String.toList_ofList, String.toList_ofList] at labels
    have digits : a.digit = b.digit := (List.cons.inj (List.cons.inj labels).2).1
    cases a <;> cases b <;> first | rfl | cases digits

/-- A Todo that stores a compact title reads back consistently only where text and fields agree. -/
theorem displayable_of_consistent {todo : Fields} {priority : Option TodoPriority}
    {title : List Char} (h : Stores todo priority title) (consistent : Consistent todo) :
    legacyTodoPriority (markedText priority title) = (priority, title) ∧ title ≠ [] := by
  obtain ⟨text, priority', title', htext, reads, nonempty, fields⟩ := consistent
  have same : text = String.ofList (markedText priority title) := by
    simpa using htext.symm.trans h.text
  rw [same, String.toList_ofList] at reads
  rcases fields with ⟨hpriority, htitle⟩ | ⟨rfl, noPriority, -⟩
  · rcases h.fields with ⟨own, ownTitle⟩ | ⟨-, absent, -⟩
    · obtain rfl := priorityJson_injective (Option.some.inj (hpriority.symm.trans own))
      have titles := Json.string.inj (Option.some.inj (htitle.symm.trans ownTitle))
      obtain rfl := String.ofList_injective titles
      exact ⟨reads, nonempty⟩
    · rw [absent] at hpriority
      cases hpriority
  · rcases h.fields with ⟨own, -⟩ | ⟨rfl, -, -⟩
    · rw [noPriority] at own
      cases own
    · have whole := (legacyTodoPriority_title (markedText none title)).1 (by rw [reads])
      rw [reads] at whole
      obtain rfl : title' = title := whole
      exact ⟨reads, nonempty⟩

theorem consistent_iff_editReadable {todo intent : Fields} {raw : String}
    {declared : Option (Option TodoPriority)} (plans : PlansFields todo intent raw declared)
    (dropsNull : Bool) :
    Consistent (storePriority dropsNull todo
        (priorityFields (plannedPriority todo intent raw declared) (editReading raw).2)) ↔
      EditReadable todo intent := by
  have stored := stores_storePriority dropsNull todo
    (plannedPriority todo intent raw declared) (editReading raw).2
  constructor
  · intro consistent
    obtain ⟨reads, nonempty⟩ := displayable_of_consistent stored consistent
    have decoded := legacyTodoPriority_title (markedText
      (plannedPriority todo intent raw declared) (editReading raw).2)
    rw [reads] at decoded
    intro raw' planned
    obtain rfl : raw = raw' := by simpa using plans.planned.symm.trans planned
    refine ⟨nonempty, fun kept => ?_, fun left => ?_⟩
    · apply decoded.2.1
      rw [Option.isSome_iff_ne_none]
      exact fun absent => kept ((plannedPriority_eq_none plans).1 absent)
    · have absent := (plannedPriority_eq_none plans).2 left
      rw [absent] at reads
      exact congrArg Prod.fst reads
  · exact fun readable => stored.consistent ((displayable_iff_editReadable plans).2 readable)

/-- The Todos of runs in which every edit, the creation included, is readable. -/
inductive PriorityReached : Fields → Prop where
  | created {base intent updates : Fields} (dropsNull : Bool)
      (text : (intent.lookup "text").isSome)
      (accepted : planTodoCreationPriority intent = .ok updates)
      (readable : EditReadable (freshTodo intent) intent) :
      PriorityReached (storePriority dropsNull base updates)
  | edited {todo intent updates : Fields} (dropsNull : Bool) (reached : PriorityReached todo)
      (accepted : planTodoPriority todo intent = .ok updates)
      (readable : EditReadable todo intent) :
      PriorityReached (storePriority dropsNull todo updates)

private theorem storePriority_nil (dropsNull : Bool) (todo : Fields) :
    storePriority dropsNull todo [] = todo := by
  rw [storePriority, if_neg (fun h => by cases h.2)]
  rfl

/-- A plan of fields, stored over any record. -/
private theorem stored_of_plan {todo intent : Fields} {raw : String}
    {declared : Option (Option TodoPriority)} (plans : PlansFields todo intent raw declared)
    (readable : EditReadable todo intent) (dropsNull : Bool) (base : Fields) :
    ∃ priority title, Displayable priority title ∧
      Stores (storePriority dropsNull base
        (priorityFields (plannedPriority todo intent raw declared) (editReading raw).2))
        priority title :=
  ⟨_, _, (displayable_iff_editReadable plans).2 readable, stores_storePriority _ _ _ _⟩

/-- Every Todo reached stores a priority and a title that its text reads back as. -/
theorem PriorityReached.stores {todo : Fields} (reached : PriorityReached todo) :
    ∃ priority title, Displayable priority title ∧ Stores todo priority title := by
  induction reached with
  | created dropsNull text accepted readable =>
    rcases (planTodoPriority_eq_ok.1 accepted).2 with ⟨noText, -⟩ | ⟨raw, declared, plans, rfl⟩
    · rw [noText] at text
      cases text
    · exact stored_of_plan plans readable dropsNull _
  | edited dropsNull _ accepted readable ih =>
    rcases (planTodoPriority_eq_ok.1 accepted).2 with ⟨-, -, rfl⟩ | ⟨raw, declared, plans, rfl⟩
    · rw [storePriority_nil]
      exact ih
    · exact stored_of_plan plans readable dropsNull _

/-- The stored text decodes to the title that was stored. -/
private theorem editReading_stored {todo intent : Fields} {priority : Option TodoPriority}
    {title : List Char} {raw : String} (stored : Stores todo priority title)
    (displayable : Displayable priority title) (noText : intent.lookup "text" = none)
    (planned : plannedText todo intent = some (.string raw)) :
    editReading raw = (priority, title) := by
  rw [plannedText, noText, Option.isSome_none, if_neg Bool.false_ne_true, stored.text] at planned
  have same : raw = String.ofList (markedText priority title) := by simpa using planned.symm
  rw [editReading, same, String.toList_ofList,
    compactPythonWhitespace_of_compact (compact_markedText displayable),
    legacyTodoPriority_markedText displayable]

/-- The plan of an edit, made again over its own result, sets the same fields. -/
private theorem plansFields_again {todo intent : Fields} {raw : String}
    {declared : Option (Option TodoPriority)} (plans : PlansFields todo intent raw declared)
    (readable : EditReadable todo intent) (dropsNull : Bool) {after : Fields}
    (hafter : after = storePriority dropsNull todo
      (priorityFields (plannedPriority todo intent raw declared) (editReading raw).2)) :
    ∃ raw', PlansFields after intent raw' declared ∧
      plannedPriority after intent raw' declared = plannedPriority todo intent raw declared ∧
      (editReading raw').2 = (editReading raw).2 := by
  have displayable := (displayable_iff_editReadable plans).2 readable
  have stored : Stores after (plannedPriority todo intent raw declared) (editReading raw).2 :=
    hafter ▸ stores_storePriority _ _ _ _
  cases given : intent.lookup "text" with
  | some text =>
    have same : plannedText after intent = plannedText todo intent := by
      rw [plannedText, plannedText, given, Option.isSome_some, if_pos rfl, if_pos rfl]
    refine ⟨raw, ⟨same.trans plans.planned, plans.filled, plans.declares, plans.busy,
      plans.agrees⟩, ?_, rfl⟩
    have keeps := stored.readTodoPriority displayable
    unfold plannedPriority at keeps ⊢
    rw [keeps]
    cases declared with
    | some priority => rfl
    | none =>
      simp only [Option.getD_none]
      split
      · rfl
      · rfl
  | none =>
    have isDeclared : declared.isSome = true := plans.busy.resolve_left (by simp [given])
    have planned : plannedText after intent = some (.string (String.ofList
        (markedText (plannedPriority todo intent raw declared) (editReading raw).2))) := by
      rw [plannedText, given, Option.isSome_none, if_neg Bool.false_ne_true, stored.text]
    have filled := (compact_markedText displayable)
    refine ⟨_, ⟨planned, ?_, plans.declares, plans.busy, fun hasText => ?_⟩, ?_, ?_⟩
    · rw [String.toList_ofList, compactPythonWhitespace_of_compact filled]
      cases hp : plannedPriority todo intent raw declared with
      | none => exact displayable.nonempty
      | some priority => exact List.cons_ne_nil _ _
    · rw [given] at hasText
      cases hasText
    · obtain ⟨priority, rfl⟩ := Option.isSome_iff_exists.1 isDeclared
      rfl
    · rw [editReading_stored stored displayable given planned]

/-- Over any creation and any accepted edits that are readable, the text decodes to the stored
priority and title. From there an edit keeps this exactly where it is readable, and then an edit
without text leaves the title, an unmarked text that declares nothing leaves the priority, and the
same edit once more is accepted and changes nothing. -/
theorem priority_edits_consistent {todo : Fields} (reached : PriorityReached todo) :
    Consistent todo ∧
    ∀ (dropsNull : Bool) (intent updates : Fields), planTodoPriority todo intent = .ok updates →
      (updates ≠ [] →
        (Consistent (storePriority dropsNull todo updates) ↔ EditReadable todo intent)) ∧
      (EditReadable todo intent →
        (intent.lookup "text" = none →
          storedTitle (storePriority dropsNull todo updates) = storedTitle todo) ∧
        (∀ raw, intent.lookup "text" = some (.string raw) → (editReading raw).1 = none →
          declaredPriority intent = .ok none →
          readTodoPriority (storePriority dropsNull todo updates) = readTodoPriority todo) ∧
        ∃ again, planTodoPriority (storePriority dropsNull todo updates) intent = .ok again ∧
          storePriority dropsNull (storePriority dropsNull todo updates) again =
            storePriority dropsNull todo updates) := by
  obtain ⟨priority, title, displayable, stored⟩ := reached.stores
  refine ⟨stored.consistent displayable, fun dropsNull intent updates accepted => ?_⟩
  obtain ⟨formed, idle | ⟨raw, declared, plans, rfl⟩⟩ := planTodoPriority_eq_ok.1 accepted
  · obtain ⟨-, -, rfl⟩ := id idle
    refine ⟨fun asked => absurd rfl asked, fun _ => ?_⟩
    rw [storePriority_nil]
    exact ⟨fun _ => rfl, fun _ _ _ _ => rfl, [], accepted, storePriority_nil _ _⟩
  · refine ⟨fun _ => consistent_iff_editReadable plans dropsNull, fun readable => ?_⟩
    have result := stores_storePriority dropsNull todo
      (plannedPriority todo intent raw declared) (editReading raw).2
    have shown := (displayable_iff_editReadable plans).2 readable
    refine ⟨fun noText => ?_, fun raw' given unmarked undeclared => ?_, ?_⟩
    · have reads := editReading_stored stored displayable noText plans.planned
      refine result.storedTitle.trans ?_
      rw [reads, stored.storedTitle]
    · refine (result.readTodoPriority shown).trans ?_
      have planned := plans.planned
      rw [plannedText, given, Option.isSome_some, if_pos rfl] at planned
      obtain rfl : raw' = raw := by simpa using planned
      obtain rfl := Except.ok.inj (undeclared.symm.trans plans.declares)
      rw [plannedPriority, Option.getD_none, if_neg]
      rintro ⟨-, marked⟩
      rw [unmarked] at marked
      cases marked
    · obtain ⟨raw', plans', hpriority, htitle⟩ := plansFields_again plans readable dropsNull rfl
      refine ⟨_, planTodoPriority_eq_ok.2 ⟨formed, .inr ⟨raw', declared, plans', rfl⟩⟩, ?_⟩
      rw [hpriority, htitle]
      exact storePriority_again dropsNull todo _ _

/-- A creation whose title carries a marker of its own. -/
private theorem created_twice_marked :
    planTodoCreationPriority [("text", .string "[P1] [P2] foo")] =
      .ok (priorityFields (some .p1) "[P2] foo".toList) :=
  Loopx.Lib.Fallible.ok_of_toOption (by decide +kernel)

private theorem twice_marked_readable :
    EditReadable (freshTodo [("text", .string "[P1] [P2] foo")])
      [("text", .string "[P1] [P2] foo")] := by
  intro raw planned
  obtain rfl : "[P1] [P2] foo" = raw := by simpa [plannedText] using planned
  have reads : editReading "[P1] [P2] foo" = (some .p1, "[P2] foo".toList) := by decide +kernel
  rw [reads]
  refine ⟨by decide +kernel, fun _ => by decide +kernel, ?_⟩
  rintro (declared | ⟨-, unmarked, -⟩)
  · rw [declaredPriority_eq_none.2 ⟨by decide +kernel, by decide +kernel⟩] at declared
    cases declared
  · rw [reads] at unmarked
    cases unmarked

theorem priority_edits_consistent_created :
    PriorityReached (storePriority false [] (priorityFields (some .p1) "[P2] foo".toList)) ∧
      Consistent (storePriority false [] (priorityFields (some .p1) "[P2] foo".toList)) :=
  have reached := PriorityReached.created false rfl created_twice_marked twice_marked_readable
  ⟨reached, (priority_edits_consistent reached).1⟩

/-- Clearing the priority of that Todo leaves a text that decodes to the second marker. -/
theorem cleared_priority_reads_next_marker :
    ∃ created updates,
      planTodoCreationPriority [("text", .string "[P1] [P2] foo")] = .ok created ∧
      planTodoPriority (storePriority false [] created) [("clear_priority", .bool true)] =
        .ok updates ∧
      ¬Consistent (storePriority false (storePriority false [] created) updates) := by
  refine ⟨_, priorityFields none "[P2] foo".toList, created_twice_marked,
    Loopx.Lib.Fallible.ok_of_toOption (by decide +kernel), fun consistent => ?_⟩
  obtain ⟨reads, -⟩ := displayable_of_consistent (stores_storePriority _ _ _ _) consistent
  exact absurd (congrArg Prod.fst reads) (by decide +kernel)

end Loopx.Todos
