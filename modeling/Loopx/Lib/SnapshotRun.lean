/- GID: Loopx/Lib/SnapshotRun
   generality: G
   digest: Writers that plan over an observed snapshot and swap it in make one path of steps. -/

import Mathlib.Tactic.Common
import Mathlib.Data.List.Basic

set_option autoImplicit false
set_option relaxedAutoImplicit false

namespace Loopx.Lib.SnapshotRun

variable {X A : Type}

/-- One step of a path, with the states on both sides of it. -/
structure Transition (X A : Type) where
  before : X
  action : A
  after : X

/-- The transitions lead from one state to the other, each one a step. -/
def Path (step : X → A → X → Prop) : X → List (Transition X A) → X → Prop
  | x, [], y => x = y
  | x, t :: ts, y => t.before = x ∧ step t.before t.action t.after ∧ Path step t.after ts y

section Path

variable {step : X → A → X → Prop}

theorem path_append {x y : X} {ts us : List (Transition X A)} :
    Path step x (ts ++ us) y ↔ ∃ z, Path step x ts z ∧ Path step z us y := by
  induction ts generalizing x with
  | nil => simp [Path]
  | cons t ts ih =>
    simp only [List.cons_append, Path, ih]
    constructor
    · rintro ⟨start, hstep, z, first, rest⟩
      exact ⟨z, ⟨start, hstep, first⟩, rest⟩
    · rintro ⟨z, ⟨start, hstep, first⟩, rest⟩
      exact ⟨start, hstep, z, first, rest⟩

theorem Path.snoc {x y : X} {ts : List (Transition X A)} (h : Path step x ts y)
    {action : A} {next : X} (hstep : step y action next) :
    Path step x (ts ++ [⟨y, action, next⟩]) next :=
  path_append.2 ⟨y, h, rfl, hstep, rfl⟩

/-- What holds at the start and survives each step holds at the end. -/
theorem Path.invariant {I : X → Prop} (keep : ∀ x action y, I x → step x action y → I y)
    {x y : X} {ts : List (Transition X A)} (h : Path step x ts y) (init : I x) : I y := by
  induction ts generalizing x with
  | nil => exact h ▸ init
  | cons t ts ih =>
    obtain ⟨start, hstep, rest⟩ := h
    exact ih rest (keep _ _ _ (start ▸ init) hstep)

/-- A relation that every step respects, and that composes, relates the two ends. -/
theorem Path.related {R : X → X → Prop} (refl : ∀ x, R x x)
    (trans : ∀ x y z, R x y → R y z → R x z) {I : X → Prop}
    (keep : ∀ x action y, I x → step x action y → I y ∧ R x y)
    {x y : X} {ts : List (Transition X A)} (h : Path step x ts y) (init : I x) : R x y := by
  induction ts generalizing x with
  | nil => exact h ▸ refl x
  | cons t ts ih =>
    obtain ⟨rfl, hstep, rest⟩ := h
    obtain ⟨kept, related⟩ := keep _ _ _ init hstep
    exact trans _ _ _ related (ih rest kept)

/-- Every transition of a path starts from a state with the invariant and is a step. -/
theorem Path.transition {I : X → Prop} (keep : ∀ x action y, I x → step x action y → I y)
    {x y : X} {ts : List (Transition X A)} (h : Path step x ts y) (init : I x)
    {t : Transition X A} (ht : t ∈ ts) :
    I t.before ∧ step t.before t.action t.after ∧ I t.after := by
  obtain ⟨before, after, rfl⟩ := List.append_of_mem ht
  obtain ⟨z, first, start, hstep, _⟩ := path_append.1 h
  have kept := first.invariant keep init
  rw [← start] at kept
  exact ⟨kept, hstep, keep _ _ _ kept hstep⟩

/-- Each step of a path also has what is known of every transition. -/
theorem Path.strengthen {P : Transition X A → Prop} {x y : X} {ts : List (Transition X A)}
    (h : Path step x ts y) (known : ∀ t ∈ ts, P t) :
    Path (fun x action y => step x action y ∧ P ⟨x, action, y⟩) x ts y := by
  induction ts generalizing x with
  | nil => exact h
  | cons t ts ih =>
    obtain ⟨start, hstep, rest⟩ := h
    obtain ⟨first, later⟩ := List.forall_mem_cons.mp known
    exact ⟨start, ⟨hstep, first⟩, ih rest later⟩

/-- Between two transitions of a path lies a path of its own. -/
theorem Path.between {x y : X} {before middle after : List (Transition X A)}
    {t u : Transition X A} (h : Path step x (before ++ t :: middle ++ u :: after) y) :
    step t.before t.action t.after ∧ Path step t.after middle u.before ∧
      step u.before u.action u.after := by
  obtain ⟨z, first, start, hstep, _⟩ := path_append.1 h
  obtain ⟨w, _, start', hstep', rest⟩ := path_append.1 first
  exact ⟨hstep', start ▸ rest, hstep⟩

end Path

/-! ## Compare and swap -/

variable {S T : Type}

/-- A state under the token that its store gave it. -/
structure Snapshot (S T : Type) where
  value : S
  token : T

/-- The snapshots of a history: the first one and what each transition left. -/
def Occurs (first : Snapshot S T) (transitions : List (Transition (Snapshot S T) A))
    (snapshot : Snapshot S T) : Prop :=
  snapshot = first ∨ ∃ t ∈ transitions, snapshot = t.after

/-- Each writer plans over a snapshot that was current once. The store takes the plan only while
the token of that snapshot is the current one, and gives the result a token of its own. -/
inductive Runs (step : Snapshot S T → A → S → Prop) (first : Snapshot S T) :
    List (Transition (Snapshot S T) A) → Snapshot S T → Prop where
  | start : Runs step first [] first
  | committed {transitions : List (Transition (Snapshot S T) A)}
      {current observed : Snapshot S T} {action : A} {next : S} {token : T}
      (run : Runs step first transitions current) (seen : Occurs first transitions observed)
      (planned : step observed action next) (swapped : observed.token = current.token)
      (fresh : ∀ snapshot, Occurs first transitions snapshot → token ≠ snapshot.token) :
      Runs step first (transitions ++ [⟨current, action, ⟨next, token⟩⟩]) ⟨next, token⟩

section Runs

variable {step : Snapshot S T → A → S → Prop} {first current : Snapshot S T}
  {transitions : List (Transition (Snapshot S T) A)}

private theorem occurs_snoc {t : Transition (Snapshot S T) A} {snapshot : Snapshot S T} :
    Occurs first (transitions ++ [t]) snapshot ↔
      Occurs first transitions snapshot ∨ snapshot = t.after := by
  constructor
  · rintro (rfl | ⟨u, hu, rfl⟩)
    · exact Or.inl (Or.inl rfl)
    · rcases List.mem_append.mp hu with hu | hu
      · exact Or.inl (Or.inr ⟨u, hu, rfl⟩)
      · rw [List.mem_singleton.mp hu]
        exact Or.inr rfl
  · rintro ((rfl | ⟨u, hu, rfl⟩) | rfl)
    · exact Or.inl rfl
    · exact Or.inr ⟨u, List.mem_append_left _ hu, rfl⟩
    · exact Or.inr ⟨t, List.mem_append_right _ (List.mem_singleton.mpr rfl), rfl⟩

theorem Runs.occurs (h : Runs step first transitions current) :
    Occurs first transitions current := by
  cases h with
  | start => exact Or.inl rfl
  | committed _ _ _ _ _ => exact occurs_snoc.2 (Or.inr rfl)

/-- A token names one snapshot. -/
theorem Runs.token_injective (h : Runs step first transitions current)
    {left right : Snapshot S T} (hl : Occurs first transitions left)
    (hr : Occurs first transitions right) (same : left.token = right.token) : left = right := by
  induction h generalizing left right with
  | start =>
    rcases hl with rfl | ⟨_, ht, _⟩
    · rcases hr with rfl | ⟨_, ht, _⟩
      · rfl
      · cases ht
    · cases ht
  | committed _ _ _ _ fresh ih =>
    rcases occurs_snoc.1 hl with hl | hl <;> rcases occurs_snoc.1 hr with hr | hr
    · exact ih hl hr same
    · rw [hr] at same
      exact absurd same.symm (fresh left hl)
    · rw [hl] at same
      exact absurd same (fresh right hr)
    · exact hl.trans hr.symm

/-- What was swapped in was planned over the very snapshot it replaced: the history of a
compare-and-swap store is a path of steps. -/
theorem Runs.path (h : Runs step first transitions current) :
    Path (fun x action y => step x action y.value) first transitions current := by
  induction h with
  | start => rfl
  | committed run seen planned swapped _ ih =>
    obtain rfl := run.token_injective seen run.occurs swapped
    exact ih.snoc planned

/-- The transitions of writers that each plan over the state before them. -/
def replay (plan : Snapshot S T → A → Option S) :
    Snapshot S T → List (A × T) → Option (List (Transition (Snapshot S T) A))
  | _, [] => some []
  | current, (action, token) :: rest => do
    let next ← plan current action
    let transitions ← replay plan ⟨next, token⟩ rest
    some (⟨current, action, ⟨next, token⟩⟩ :: transitions)

private theorem runs_of_replay_append {plan : Snapshot S T → A → Option S}
    (sound : ∀ x action next, plan x action = some next → step x action next)
    {actions : List (A × T)} {done rest : List (Transition (Snapshot S T) A)}
    (run : Runs step first done current)
    (distinct : (first.token :: done.map (·.after.token) ++ actions.map Prod.snd).Nodup)
    (h : replay plan current actions = some rest) :
    ∃ last, Runs step first (done ++ rest) last := by
  induction actions generalizing current done rest with
  | nil =>
    obtain rfl := Option.some.inj h
    exact ⟨current, by simpa using run⟩
  | cons row actions ih =>
    obtain ⟨action, token⟩ := row
    obtain ⟨next, planned, h⟩ := Option.bind_eq_some_iff.mp h
    obtain ⟨later, hlater, h⟩ := Option.bind_eq_some_iff.mp h
    obtain rfl := Option.some.inj h
    have fresh : ∀ snapshot, Occurs first done snapshot → token ≠ snapshot.token := by
      have apart := (List.nodup_append.mp distinct).2.2
      rintro snapshot (rfl | ⟨t, ht, rfl⟩) same
      · exact apart snapshot.token (by simp) token (by simp) same.symm
      · exact apart t.after.token (by simpa using Or.inr ⟨t, ht, rfl⟩) token (by simp) same.symm
    have longer := run.committed run.occurs (sound _ _ _ planned) rfl fresh
    obtain ⟨last, hlast⟩ := ih longer (by simpa [List.append_assoc] using distinct) hlater
    exact ⟨last, by simpa [List.append_assoc] using hlast⟩

/-- Writers one after another make a run. -/
theorem runs_of_replay {plan : Snapshot S T → A → Option S}
    (sound : ∀ x action next, plan x action = some next → step x action next)
    {actions : List (A × T)} (distinct : (first.token :: actions.map Prod.snd).Nodup)
    (h : replay plan first actions = some transitions) :
    ∃ last, Runs step first transitions last := by
  have origin : Runs step first [] first := .start
  obtain ⟨last, run⟩ := runs_of_replay_append sound origin (by simpa using distinct) h
  exact ⟨last, run⟩

end Runs

end Loopx.Lib.SnapshotRun
