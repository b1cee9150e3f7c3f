/- GID: Loopx/Lib/Delimited
   generality: G
   source: none
   digest: Texts joined by a delimiter: the parts are known where the delimiters are counted. -/

import Mathlib.Data.List.Basic

set_option autoImplicit false
set_option relaxedAutoImplicit false

namespace Loopx.Lib.Delimited

variable {α : Type} [DecidableEq α]

theorem append_cons_inj {c : α} {front front' back back' : List α}
    (same : front ++ c :: back = front' ++ c :: back')
    (counts : front.count c = front'.count c) : front = front' ∧ back = back' := by
  induction front generalizing front' with
  | nil =>
    cases front' with
    | nil => exact ⟨rfl, (List.cons.inj same).2⟩
    | cons d front' =>
      obtain rfl : c = d := (List.cons.inj same).1
      simp at counts
  | cons d front ih =>
    cases front' with
    | nil =>
      obtain rfl : d = c := (List.cons.inj same).1
      simp at counts
    | cons d' front' =>
      obtain ⟨rfl, rest⟩ := List.cons.inj same
      have fewer : front.count c = front'.count c := by
        rw [List.count_cons, List.count_cons] at counts
        omega
      obtain ⟨rfl, rfl⟩ := ih rest fewer
      exact ⟨rfl, rfl⟩

/-- Parts without the delimiter are told apart. -/
theorem append_cons_inj_of_not_mem {c : α} {front front' back back' : List α}
    (same : front ++ c :: back = front' ++ c :: back') (plain : c ∉ front)
    (plain' : c ∉ front') : front = front' ∧ back = back' :=
  append_cons_inj same (by
    rw [List.count_eq_zero_of_not_mem plain, List.count_eq_zero_of_not_mem plain'])

/-- A last part without the delimiter is told apart. -/
theorem append_cons_inj_of_not_mem_right {c : α} {front front' back back' : List α}
    (same : front ++ c :: back = front' ++ c :: back') (plain : c ∉ back) (plain' : c ∉ back') :
    front = front' ∧ back = back' := by
  have mirrored : back.reverse ++ c :: front.reverse = back'.reverse ++ c :: front'.reverse := by
    simpa using congrArg List.reverse same
  obtain ⟨backs, fronts⟩ := append_cons_inj_of_not_mem mirrored
    (fun mem => plain (List.mem_reverse.mp mem)) fun mem => plain' (List.mem_reverse.mp mem)
  exact ⟨List.reverse_injective fronts, List.reverse_injective backs⟩

end Loopx.Lib.Delimited
