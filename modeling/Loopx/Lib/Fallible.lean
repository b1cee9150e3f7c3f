/- GID: Loopx/Lib/Fallible
   generality: G
   digest: Peeling one fallible step off a computation. -/

import Mathlib.Tactic.Common
import Mathlib.Data.List.Forall2

set_option autoImplicit false
set_option relaxedAutoImplicit false

namespace Loopx.Lib.Fallible

variable {E A B : Type}

@[simp] theorem ok_bind (a : A) (f : A → Except E B) : (Except.ok a >>= f) = f a := rfl

@[simp] theorem error_bind (e : E) (f : A → Except E B) :
    ((Except.error e : Except E A) >>= f) = .error e := rfl

theorem bind_eq_ok {x : Except E A} {f : A → Except E B} {b : B} :
    (x >>= f) = .ok b ↔ ∃ a, x = .ok a ∧ f a = .ok b := by
  cases x with
  | error e => simp
  | ok a => simp

theorem ok_of_toOption {x : Except E A} {a : A} (h : x.toOption = some a) : x = .ok a := by
  cases x with
  | error e => cases h
  | ok b => exact congrArg Except.ok (Option.some.inj h)

/-- `if (refused) throw error`. -/
def throwWhen (refused : Prop) [Decidable refused] (error : E) : Except E Unit :=
  if refused then .error error else .ok ()

@[simp] theorem throwWhen_eq_ok {refused : Prop} [Decidable refused] {error : E} {u : Unit} :
    throwWhen refused error = .ok u ↔ ¬refused := by
  unfold throwWhen
  split
  · rename_i h
    simp [h]
  · rename_i h
    simp [h]

theorem throwWhen_of_not {refused : Prop} [Decidable refused] (h : ¬refused) (error : E) :
    throwWhen refused error = .ok () := if_neg h

/-- Where a fallible map succeeds, it succeeded at every position. -/
theorem getElem?_of_mapM_ok {f : A → Except E B} {l : List A} {l' : List B}
    (h : l.mapM f = .ok l') {i : Nat} {a : A} (ha : l[i]? = some a) :
    ∃ b, l'[i]? = some b ∧ f a = .ok b := by
  induction l generalizing l' i with
  | nil => simp at ha
  | cons x l ih =>
    rw [List.mapM_cons] at h
    obtain ⟨y, hy, h⟩ := bind_eq_ok.1 h
    obtain ⟨ys, hys, h⟩ := bind_eq_ok.1 h
    obtain rfl := Except.ok.inj h
    cases i with
    | zero =>
      obtain rfl : x = a := by simpa using ha
      exact ⟨y, rfl, hy⟩
    | succ i => exact ih hys ha

/-- A fallible map succeeds exactly when it succeeds on every item. -/
theorem mapM_eq_ok {f : A → Except E B} {l : List A} {l' : List B} :
    l.mapM f = .ok l' ↔ List.Forall₂ (fun a b => f a = .ok b) l l' := by
  induction l generalizing l' with
  | nil =>
    rw [List.mapM_nil, List.forall₂_nil_left_iff]
    constructor
    · exact fun h => (Except.ok.inj h).symm
    · rintro rfl
      rfl
  | cons a l ih =>
    rw [List.mapM_cons, List.forall₂_cons_left_iff]
    constructor
    · intro h
      obtain ⟨b, hb, h⟩ := bind_eq_ok.1 h
      obtain ⟨rest, hrest, h⟩ := bind_eq_ok.1 h
      exact ⟨b, rest, hb, ih.mp hrest, (Except.ok.inj h).symm⟩
    · rintro ⟨b, rest, hb, hrest, rfl⟩
      rw [hb, ok_bind, ih.mpr hrest]
      rfl

end Loopx.Lib.Fallible
