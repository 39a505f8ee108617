import Mathlib.Data.List.Induction
import Mathlib.Tactic.Common

/-!
# The first of the best

The running choice of a loop that keeps a best element and replaces it by a better one.

* `firstBest`: the loop;
* `IsFirstBest`: better than all before it, and none after it is better;
* `firstBest_spec`: what the loop ends with, for a comparison that is cotransitive.
-/

namespace MasakariHA.Lib

section FirstBest

variable {α : Type}

def keepBest (better : α → α → Bool) : Option α → α → Option α
  | none, x => some x
  | some best, x => if better x best then some x else some best

def firstBest (better : α → α → Bool) (l : List α) : Option α := l.foldl (keepBest better) none

/-- What is better than one element is better than any other, or that other is better than it. -/
structure Cotransitive (better : α → α → Bool) : Prop where
  asymm : ∀ x y, better x y = true → better y x = false
  cotrans : ∀ x y z, better x z = true → better x y = true ∨ better y z = true

def IsFirstBest (better : α → α → Bool) (l : List α) (x : α) : Prop :=
  ∃ before after, l = before ++ x :: after ∧ (∀ y ∈ before, better x y = true) ∧
    ∀ y ∈ after, better y x = false

variable {better : α → α → Bool} {l : List α} {x y : α}

theorem isFirstBest_singleton : IsFirstBest better [x] x := ⟨[], [], rfl, nofun, nofun⟩

/-- The best element stays the first one if the next element is no better. -/
theorem IsFirstBest.keep (h : IsFirstBest better l x) (hy : better y x = false) :
    IsFirstBest better (l ++ [y]) x := by
  obtain ⟨before, after, rfl, hBefore, hAfter⟩ := h
  refine ⟨before, after ++ [y], List.append_assoc _ _ _, hBefore, ?_⟩
  exact List.forall_mem_append.mpr ⟨hAfter, List.forall_mem_singleton.mpr hy⟩

/-- A better element is better than all that were seen. -/
theorem IsFirstBest.replace (hOrder : Cotransitive better) (h : IsFirstBest better l x)
    (hy : better y x = true) : IsFirstBest better (l ++ [y]) y := by
  obtain ⟨before, after, rfl, hBefore, hAfter⟩ := h
  refine ⟨before ++ x :: after, [], rfl, ?_, nofun⟩
  intro z hz
  have hzx : better z x = false := by
    rcases List.mem_append.mp hz with hEarly | hLate
    · exact hOrder.asymm x z (hBefore z hEarly)
    · rcases List.mem_cons.mp hLate with rfl | hLater
      · by_contra hSelf
        rw [Bool.not_eq_false] at hSelf
        rw [hOrder.asymm z z hSelf] at hSelf
        cases hSelf
      · exact hAfter z hLater
  rcases hOrder.cotrans y z x hy with hyz | h
  · exact hyz
  · rw [hzx] at h
    cases h

/-- The loop ends with the first of the best elements, if there is any. -/
theorem firstBest_spec (hOrder : Cotransitive better) (l : List α) :
    match firstBest better l with
    | none => l = []
    | some x => IsFirstBest better l x := by
  induction l using List.reverseRecOn with
  | nil => rfl
  | append_singleton l y ih =>
    have hStep : firstBest better (l ++ [y]) = keepBest better (firstBest better l) y :=
      List.foldl_append
    rw [hStep]
    cases hBest : firstBest better l with
    | none =>
      rw [hBest] at ih
      subst ih
      exact isFirstBest_singleton
    | some x =>
      rw [hBest] at ih
      by_cases hy : better y x = true
      · rw [show keepBest better (some x) y = some y from if_pos hy]
        exact ih.replace hOrder hy
      · rw [show keepBest better (some x) y = some x from if_neg hy]
        exact ih.keep (Bool.eq_false_iff.mpr hy)

end FirstBest

end MasakariHA.Lib
