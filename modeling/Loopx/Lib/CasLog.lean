/- GID: Loopx/Lib/CasLog
   generality: G
   digest: A compare-and-swap log with named entries: what one submission, and a run, can do. -/

import Mathlib.Data.List.Nodup
import Mathlib.Tactic.Common

set_option autoImplicit false
set_option relaxedAutoImplicit false

namespace Loopx.Lib.CasLog

/-- How an entry shows its name, its version token and its content. -/
structure Shape (E Id Token Body : Type) where
  id : E → Id
  token : E → Token
  body : E → Body

/-- An append request: the token its author last saw, a name and a content. -/
structure Request (Id Token Body : Type) where
  expected : Option Token
  id : Id
  body : Body

inductive Answer (E : Type) where
  | applied (entry : E)
  | idTaken
  | stale
  | unknown
  | refused

variable {E Id Token Body : Type} (shape : Shape E Id Token Body)

/-- The token the next entry must be built on. -/
def head (log : List E) : Option Token := log.getLast?.map shape.token

/-- The entry is this request's. -/
def Answers (r : Request Id Token Body) (e : E) : Prop := shape.id e = r.id ∧ shape.body e = r.body

/-- The name is unused and the author saw the head. -/
structure Admissible (log : List E) (r : Request Id Token Body) : Prop where
  fresh : ∀ e ∈ log, shape.id e ≠ r.id
  current : head shape log = r.expected

/-- Everything one submission may do to the log and answer its author. -/
inductive Submit (log : List E) (r : Request Id Token Body) : List E → Answer E → Prop where
  | replayed (e : E) (mem : e ∈ log) (answers : Answers shape r e) : Submit log r log (.applied e)
  | idTaken (e : E) (mem : e ∈ log) (sameId : shape.id e = r.id) (other : shape.body e ≠ r.body) :
      Submit log r log .idTaken
  | stale (fresh : ∀ e ∈ log, shape.id e ≠ r.id) (moved : head shape log ≠ r.expected) :
      Submit log r log .stale
  | appended (e : E) (admissible : Admissible shape log r) (answers : Answers shape r e) :
      Submit log r (log ++ [e]) (.applied e)
  | landed (e : E) (admissible : Admissible shape log r) (answers : Answers shape r e) :
      Submit log r (log ++ [e]) .unknown
  | lost (admissible : Admissible shape log r) : Submit log r log .unknown
  | refused : Submit log r log .refused

/-- No two entries share a name. -/
def Distinct (log : List E) : Prop := (log.map shape.id).Nodup

section Step

variable {shape} {log log' : List E} {r : Request Id Token Body} {answer : Answer E}

theorem Submit.isPrefix (h : Submit shape log r log' answer) : log <+: log' := by
  cases h with
  | appended e admissible answers => exact List.prefix_append _ _
  | landed e admissible answers => exact List.prefix_append _ _
  | replayed e mem answers => exact List.prefix_refl _
  | idTaken e mem sameId other => exact List.prefix_refl _
  | stale fresh moved => exact List.prefix_refl _
  | lost admissible => exact List.prefix_refl _
  | refused => exact List.prefix_refl _

theorem Submit.length_le (h : Submit shape log r log' answer) : log'.length ≤ log.length + 1 := by
  cases h <;> simp

private theorem distinct_append {e : E} (distinct : Distinct shape log)
    (admissible : Admissible shape log r) (answers : Answers shape r e) :
    Distinct shape (log ++ [e]) := by
  rw [Distinct, List.map_append, List.map_singleton, List.nodup_append]
  refine ⟨distinct, List.nodup_singleton _, ?_⟩
  intro a ha b hb
  obtain ⟨old, hold, rfl⟩ := List.mem_map.mp ha
  obtain rfl := List.mem_singleton.mp hb
  rw [answers.1]
  exact admissible.fresh old hold

theorem Submit.distinct (h : Submit shape log r log' answer) (distinct : Distinct shape log) :
    Distinct shape log' := by
  cases h with
  | appended e admissible answers => exact distinct_append distinct admissible answers
  | landed e admissible answers => exact distinct_append distinct admissible answers
  | replayed e mem answers => exact distinct
  | idTaken e mem sameId other => exact distinct
  | stale fresh moved => exact distinct
  | lost admissible => exact distinct
  | refused => exact distinct

/-- With distinct names a name has one entry. -/
theorem eq_of_id {a b : E} (distinct : Distinct shape log) (ha : a ∈ log) (hb : b ∈ log)
    (same : shape.id a = shape.id b) : a = b :=
  List.inj_on_of_nodup_map distinct ha hb same

/-- An applied answer names an entry of the log, with the submitted name and content. -/
theorem Submit.applied_mem {e : E} (h : Submit shape log r log' (.applied e)) :
    e ∈ log' ∧ Answers shape r e := by
  cases h with
  | replayed e mem answers => exact ⟨mem, answers⟩
  | appended e admissible answers => exact ⟨by simp, answers⟩

/-- A repeated request changes nothing and can only be answered by its entry. -/
theorem Submit.of_answered {e : E} (h : Submit shape log r log' answer)
    (distinct : Distinct shape log) (mem : e ∈ log) (answers : Answers shape r e) :
    log' = log ∧ (answer = .applied e ∨ answer = .refused) := by
  cases h with
  | replayed e' mem' answers' =>
    obtain rfl := eq_of_id distinct mem mem' (answers.1.trans answers'.1.symm)
    exact ⟨rfl, Or.inl rfl⟩
  | idTaken e' mem' sameId other =>
    obtain rfl := eq_of_id distinct mem mem' (answers.1.trans sameId.symm)
    exact absurd answers.2 other
  | stale fresh moved => exact absurd answers.1 (fresh e mem)
  | appended e' admissible answers' => exact absurd answers.1 (admissible.fresh e mem)
  | landed e' admissible answers' => exact absurd answers.1 (admissible.fresh e mem)
  | lost admissible => exact absurd answers.1 (admissible.fresh e mem)
  | refused => exact ⟨rfl, Or.inr rfl⟩

/-- A used name with another content is refused and changes nothing. -/
theorem Submit.of_taken {e : E} (h : Submit shape log r log' answer)
    (distinct : Distinct shape log) (mem : e ∈ log) (sameId : shape.id e = r.id)
    (other : shape.body e ≠ r.body) :
    log' = log ∧ (answer = .idTaken ∨ answer = .refused) := by
  cases h with
  | replayed e' mem' answers' =>
    obtain rfl := eq_of_id distinct mem mem' (sameId.trans answers'.1.symm)
    exact absurd answers'.2 other
  | idTaken e' mem' sameId' other' => exact ⟨rfl, Or.inl rfl⟩
  | stale fresh moved => exact absurd sameId (fresh e mem)
  | appended e' admissible answers' => exact absurd sameId (admissible.fresh e mem)
  | landed e' admissible answers' => exact absurd sameId (admissible.fresh e mem)
  | lost admissible => exact absurd sameId (admissible.fresh e mem)
  | refused => exact ⟨rfl, Or.inr rfl⟩

/-- A fresh name on an outdated token is refused and changes nothing. -/
theorem Submit.of_stale (h : Submit shape log r log' answer)
    (fresh : ∀ e ∈ log, shape.id e ≠ r.id) (moved : head shape log ≠ r.expected) :
    log' = log ∧ (answer = .stale ∨ answer = .refused) := by
  cases h with
  | replayed e mem answers => exact absurd answers.1 (fresh e mem)
  | idTaken e mem sameId other => exact absurd sameId (fresh e mem)
  | stale fresh' moved' => exact ⟨rfl, Or.inl rfl⟩
  | appended e admissible answers => exact absurd admissible.current moved
  | landed e admissible answers => exact absurd admissible.current moved
  | lost admissible => exact absurd admissible.current moved
  | refused => exact ⟨rfl, Or.inr rfl⟩

/-- An admissible request that gets a definite answer is appended. -/
theorem Submit.of_admissible (h : Submit shape log r log' answer)
    (admissible : Admissible shape log r) (answered : answer ≠ .refused ∧ answer ≠ .unknown) :
    ∃ e, log' = log ++ [e] ∧ Answers shape r e ∧ answer = .applied e := by
  cases h with
  | appended e admissible answers => exact ⟨e, rfl, answers, rfl⟩
  | replayed e mem answers => exact absurd answers.1 (admissible.fresh e mem)
  | idTaken e mem sameId other => exact absurd sameId (admissible.fresh e mem)
  | stale fresh moved => exact absurd admissible.current moved
  | landed e admissible answers => exact absurd rfl answered.2
  | lost admissible => exact absurd rfl answered.2
  | refused => exact absurd rfl answered.1

/-- The log grows only by the request's own entry, right after the head its author saw. -/
theorem Submit.of_grows (h : Submit shape log r log' answer) (grows : log' ≠ log) :
    ∃ e, log' = log ++ [e] ∧ Answers shape r e ∧ Admissible shape log r ∧
      (answer = .applied e ∨ answer = .unknown) := by
  cases h with
  | appended e admissible answers => exact ⟨e, rfl, answers, admissible, Or.inl rfl⟩
  | landed e admissible answers => exact ⟨e, rfl, answers, admissible, Or.inr rfl⟩
  | replayed e mem answers => exact absurd rfl grows
  | idTaken e mem sameId other => exact absurd rfl grows
  | stale fresh moved => exact absurd rfl grows
  | lost admissible => exact absurd rfl grows
  | refused => exact absurd rfl grows

end Step

end Loopx.Lib.CasLog
