import Mathlib.Tactic.Common

/-!
# Properties of the elements of a history

A history is a list that grows at its end. `Along P` says that every element had the property `P`
when it was added, given the ones before it.

* `along_append_singleton`: what one more element adds;
* `along_congr`: properties that agree on a history.
-/

namespace MasakariHA.Lib

variable {α : Type}

/-- Every element has the property together with the elements before it. -/
def Along (P : List α → α → Prop) (history : List α) : Prop :=
  ∀ before x after, history = before ++ x :: after → P before x

variable {P Q R : List α → α → Prop} {history : List α} {x : α}

theorem along_nil : Along P [] := by
  intro before x after h
  cases before <;> cases h

theorem along_append_singleton : Along P (history ++ [x]) ↔ Along P history ∧ P history x := by
  constructor
  · intro h
    refine ⟨fun before y after hSplit => h before y (after ++ [x]) ?_, h history x [] rfl⟩
    rw [hSplit, List.append_assoc, List.cons_append]
  · rintro ⟨hHistory, hx⟩ before y after hSplit
    rcases List.eq_nil_or_concat after with rfl | ⟨init, z, rfl⟩
    · obtain ⟨rfl, hSame⟩ := List.append_inj' hSplit rfl
      cases hSame
      exact hx
    · rw [List.concat_eq_append, ← List.cons_append, ← List.append_assoc] at hSplit
      exact hHistory before y init (List.append_inj' hSplit rfl).1

/-- Properties that agree wherever a third one holds agree on a history that has it. -/
theorem along_congr (h : Along R history)
    (hAgree : ∀ before x, R before x → (P before x ↔ Q before x)) :
    Along P history ↔ Along Q history :=
  ⟨fun hP before x after hSplit => (hAgree before x (h before x after hSplit)).mp
      (hP before x after hSplit),
    fun hQ before x after hSplit => (hAgree before x (h before x after hSplit)).mpr
      (hQ before x after hSplit)⟩

end MasakariHA.Lib
