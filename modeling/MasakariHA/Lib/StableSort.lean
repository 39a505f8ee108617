import Mathlib.Algebra.BigOperators.Group.List.Basic
import Mathlib.Algebra.Ring.Int.Defs
import Mathlib.Data.List.Infix
import Mathlib.Order.Lattice
import Mathlib.Tactic.Common

/-!
# Partial sums of a stable sort

A list sorted by a key, elements with equal keys in the order they had. What stands up to a
place of the sorted list is, read off the list before it was sorted, what has a smaller key, or
the same key and an earlier place.

* `sortBy`: the stable sort;
* `NotAfter`: the order that it puts the elements and their places in;
* `exists_partial_sum_sortBy`: the sums up to the places of the sorted list.
-/

namespace MasakariHA.Lib

variable {α β : Type} [LinearOrder β] (key : α → β)

/-- The list sorted by the key; equal elements keep their order. -/
def sortBy (l : List α) : List α := l.mergeSort fun a b => key a ≤ key b

/-- In the sorted list the element at a place is not after the other one. -/
def NotAfter (x y : α × Nat) : Prop := key x.1 < key y.1 ∨ key x.1 = key y.1 ∧ x.2 ≤ y.2

instance : DecidableRel (NotAfter key) :=
  fun x y => inferInstanceAs (Decidable (key x.1 < key y.1 ∨ key x.1 = key y.1 ∧ x.2 ≤ y.2))

section SortBy

variable {key} {l : List α} {x y : α × Nat} {p q : List (α × Nat)}

theorem zipIdxLE_iff :
    List.zipIdxLE (fun a b => decide (key a ≤ key b)) x y = true ↔ NotAfter key x y := by
  unfold List.zipIdxLE NotAfter
  rcases lt_trichotomy (key x.1) (key y.1) with hLt | hEq | hGt
  · simp [hLt, hLt.le]
  · simp [hEq]
  · simp [hGt.not_gt, hGt.ne', not_le.mpr hGt]

theorem notAfter_refl : NotAfter key x x := Or.inr ⟨rfl, Nat.le_refl _⟩

theorem notAfter_antisymm (h : NotAfter key x y) (h' : NotAfter key y x) : x.2 = y.2 := by
  rcases h with hLt | ⟨hEq, hLe⟩
  · rcases h' with hGt | ⟨hEq, -⟩
    · exact absurd hGt hLt.not_gt
    · exact absurd hEq hLt.ne'
  · rcases h' with hGt | ⟨-, hGe⟩
    · exact absurd hEq hGt.ne'
    · exact Nat.le_antisymm hLe hGe

variable (key l) in
/-- The sorted elements with the places they had. -/
def sortIdx : List (α × Nat) := l.zipIdx.mergeSort (List.zipIdxLE fun a b => key a ≤ key b)

theorem map_fst_sortIdx : (sortIdx key l).map (·.1) = sortBy key l := List.mergeSort_zipIdx

variable (key l) in
theorem sortIdx_perm : (sortIdx key l).Perm l.zipIdx := List.mergeSort_perm _ _

variable (key l) in
theorem pairwise_sortIdx : (sortIdx key l).Pairwise (NotAfter key) := by
  have hTrans : ∀ a b c : α, decide (key a ≤ key b) = true → decide (key b ≤ key c) = true →
      decide (key a ≤ key c) = true := fun a b c hab hbc =>
    decide_eq_true (le_trans (of_decide_eq_true hab) (of_decide_eq_true hbc))
  have hTotal : ∀ a b : α, (decide (key a ≤ key b) || decide (key b ≤ key a)) = true :=
    fun a b => by simpa using le_total (key a) (key b)
  have hSorted := List.pairwise_mergeSort (List.zipIdxLE_trans hTrans)
    (List.zipIdxLE_total hTotal) l.zipIdx
  exact hSorted.imp fun h => zipIdxLE_iff.mp h

/-- What stands up to a place of the sorted list. -/
theorem perm_upTo (hSplit : sortIdx key l = p ++ x :: q) :
    (p ++ [x]).Perm (l.zipIdx.filter fun y => NotAfter key y x) := by
  have hSorted := pairwise_sortIdx key l
  have hPlaces : ((sortIdx key l).map (·.2)).Nodup := by
    rw [((sortIdx_perm key l).map _).nodup_iff, List.zipIdx_map_snd]
    exact List.nodup_range'
  rw [hSplit] at hSorted hPlaces
  obtain ⟨-, hTail, hBefore⟩ := List.pairwise_append.mp hSorted
  have hFilter : (sortIdx key l).filter (fun y => NotAfter key y x) = p ++ [x] := by
    rw [hSplit, List.filter_append, List.filter_cons_of_pos (by simpa using notAfter_refl)]
    have hFront : p.filter (fun y => NotAfter key y x) = p :=
      List.filter_eq_self.mpr fun y hy => decide_eq_true (hBefore y hy x List.mem_cons_self)
    have hBack : q.filter (fun y => NotAfter key y x) = [] := by
      refine List.filter_eq_nil_iff.mpr fun y hy hNotAfter => ?_
      have hSame := notAfter_antisymm (List.rel_of_pairwise_cons hTail hy)
        (of_decide_eq_true hNotAfter)
      rw [List.map_append, List.map_cons] at hPlaces
      have hNew := (List.nodup_cons.mp (List.nodup_append.mp hPlaces).2.1).1
      exact hNew (hSame ▸ List.mem_map_of_mem hy)
    rw [hFront, hBack]
  rw [← hFilter]
  exact (sortIdx_perm key l).filter _

/-- A partial sum of the sorted list, with the last element that it takes. -/
theorem exists_partial_sum_sortBy (w : α → Int) (P : α → Int → Prop) :
    (∃ p x q, sortBy key l = p ++ x :: q ∧ P x ((p ++ [x]).map w).sum) ↔
      ∃ y ∈ l.zipIdx, P y.1 ((l.zipIdx.filter fun z => NotAfter key z y).map fun z => w z.1).sum :=
    by
  have hSum : ∀ {p : List (α × Nat)} {x} {q}, sortIdx key l = p ++ x :: q →
      ((p.map (·.1) ++ [x.1]).map w).sum =
        ((l.zipIdx.filter fun z => NotAfter key z x).map fun z => w z.1).sum := by
    intro p x q hSplit
    rw [← ((perm_upTo hSplit).map fun z => w z.1).sum_eq]
    simp [Function.comp_def]
  rw [← map_fst_sortIdx]
  constructor
  · rintro ⟨p, x, q, hSplit, hP⟩
    obtain ⟨p, r, hIdx, rfl, hRest⟩ := List.map_eq_append_iff.mp hSplit
    obtain ⟨x, q, rfl, rfl, rfl⟩ := List.map_eq_cons_iff.mp hRest
    have hMem : x ∈ l.zipIdx := by
      rw [← (sortIdx_perm key l).mem_iff, hIdx]
      exact List.mem_append_right _ List.mem_cons_self
    rw [hSum hIdx] at hP
    exact ⟨x, hMem, hP⟩
  · rintro ⟨x, hMem, hP⟩
    obtain ⟨p, q, hIdx⟩ := List.append_of_mem ((sortIdx_perm key l).mem_iff.mpr hMem)
    rw [← hSum hIdx] at hP
    exact ⟨p.map (·.1), x.1, q.map (·.1), by rw [hIdx, List.map_append, List.map_cons], hP⟩

end SortBy

end MasakariHA.Lib
