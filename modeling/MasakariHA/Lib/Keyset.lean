import Mathlib.Data.List.Perm.Basic
import Mathlib.Order.Lattice
import Mathlib.Tactic.Common

/-!
# Keyset pagination

A listing is read in pages: each page is the start of what follows a marker, the last row of the
page before. Read until a page is empty, the pages are the whole listing in its order, if the order
distinguishes all of its rows.

* `LexLt`: the lexicographic order of keys with directions;
* `Orders`: the order distinguishes the rows;
* `Pages`: what a page is assumed to be;
* `readPages`, with `readPages_eq`: the pages one after the other.
-/

namespace MasakariHA.Lib

/-! ## Lexicographic order -/

inductive Direction where
  | asc
  | desc
  deriving DecidableEq, Repr

section Lex

variable {ρ K : Type} [LinearOrder K]

/-- The first row is strictly before the second one. -/
def LexLt : List ((ρ → K) × Direction) → ρ → ρ → Prop
  | [], _, _ => False
  | (key, .asc) :: keys, r, r' => key r < key r' ∨ key r = key r' ∧ LexLt keys r r'
  | (key, .desc) :: keys, r, r' => key r' < key r ∨ key r = key r' ∧ LexLt keys r r'

instance decidableLexLt : (keys : List ((ρ → K) × Direction)) → DecidableRel (LexLt keys)
  | [] => fun _ _ => inferInstanceAs (Decidable False)
  | (_, .asc) :: keys => fun r r' =>
    have := decidableLexLt keys
    inferInstanceAs (Decidable (_ ∨ _ ∧ LexLt keys r r'))
  | (_, .desc) :: keys => fun r r' =>
    have := decidableLexLt keys
    inferInstanceAs (Decidable (_ ∨ _ ∧ LexLt keys r r'))

variable {keys : List ((ρ → K) × Direction)} {r r' r'' : ρ}

theorem not_lexLt_nil : ¬ LexLt ([] : List ((ρ → K) × Direction)) r r' := id

theorem lexLt_desc {key : ρ → K} :
    LexLt ((key, .desc) :: keys) r r' ↔ key r' < key r ∨ key r = key r' ∧ LexLt keys r r' := Iff.rfl

theorem lexLt_irrefl : ¬ LexLt keys r r := by
  induction keys with
  | nil => exact id
  | cons k keys ih =>
    obtain ⟨key, direction⟩ := k
    cases direction <;>
    · rintro (hLt | ⟨-, hLex⟩)
      · exact lt_irrefl _ hLt
      · exact ih hLex

theorem lexLt_trans (h : LexLt keys r r') (h' : LexLt keys r' r'') : LexLt keys r r'' := by
  induction keys with
  | nil => exact h
  | cons k keys ih =>
    obtain ⟨key, direction⟩ := k
    cases direction with
    | asc =>
      rcases h with hLt | ⟨hEq, hLex⟩ <;> rcases h' with hLt' | ⟨hEq', hLex'⟩
      · exact Or.inl (hLt.trans hLt')
      · exact Or.inl (hLt.trans_eq hEq')
      · exact Or.inl (hEq.trans_lt hLt')
      · exact Or.inr ⟨hEq.trans hEq', ih hLex hLex'⟩
    | desc =>
      rcases h with hLt | ⟨hEq, hLex⟩ <;> rcases h' with hLt' | ⟨hEq', hLex'⟩
      · exact Or.inl (hLt'.trans hLt)
      · exact Or.inl (hEq'.symm.trans_lt hLt)
      · exact Or.inl (hLt'.trans_eq hEq.symm)
      · exact Or.inr ⟨hEq.trans hEq', ih hLex hLex'⟩

/-- Rows that neither is before the other have the same keys. -/
theorem lexLt_trichotomy (keys : List ((ρ → K) × Direction)) (r r' : ρ) :
    LexLt keys r r' ∨ LexLt keys r' r ∨ ∀ k ∈ keys, k.1 r = k.1 r' := by
  induction keys with
  | nil => exact Or.inr (Or.inr nofun)
  | cons k keys ih =>
    obtain ⟨key, direction⟩ := k
    rcases lt_trichotomy (key r) (key r') with hLt | hEq | hGt
    · cases direction with
      | asc => exact Or.inl (Or.inl hLt)
      | desc => exact Or.inr (Or.inl (Or.inl hLt))
    · rcases ih with hLex | hLex | hSame
      · cases direction <;> exact Or.inl (Or.inr ⟨hEq, hLex⟩)
      · cases direction <;> exact Or.inr (Or.inl (Or.inr ⟨hEq.symm, hLex⟩))
      · exact Or.inr (Or.inr (List.forall_mem_cons.mpr ⟨hEq, hSame⟩))
    · cases direction with
      | asc => exact Or.inr (Or.inl (Or.inl hGt))
      | desc => exact Or.inl (Or.inl hGt)

/-- The order does not tell rows with the same keys apart. -/
theorem lexLt_congr_right (hSame : ∀ k ∈ keys, k.1 r = k.1 r') (h : LexLt keys r'' r) :
    LexLt keys r'' r' := by
  induction keys with
  | nil => exact h
  | cons k keys ih =>
    obtain ⟨key, direction⟩ := k
    obtain ⟨hKey, hRest⟩ := List.forall_mem_cons.mp hSame
    dsimp only at hKey
    cases direction with
    | asc =>
      rcases h with hLt | ⟨hEq, hLex⟩
      · exact Or.inl (hKey ▸ hLt)
      · exact Or.inr ⟨hEq.trans hKey, ih hRest hLex⟩
    | desc =>
      rcases h with hLt | ⟨hEq, hLex⟩
      · exact Or.inl (hKey ▸ hLt)
      · exact Or.inr ⟨hEq.trans hKey, ih hRest hLex⟩

theorem not_lexLt_trans (h : ¬ LexLt keys r' r) (h' : ¬ LexLt keys r'' r') :
    ¬ LexLt keys r'' r := by
  intro hLt
  rcases lexLt_trichotomy keys r r' with hBefore | hAfter | hSame
  · exact h' (lexLt_trans hLt hBefore)
  · exact h hAfter
  · exact h' (lexLt_congr_right hSame hLt)

/-- The rows sorted by the keys. -/
def arrange (keys : List ((ρ → K) × Direction)) (rows : List ρ) : List ρ :=
  rows.mergeSort fun r r' => ¬ LexLt keys r' r

end Lex

/-! ## Pages -/

section Pages

variable {ρ μ ε : Type} {lt : ρ → ρ → Prop}

/-- A strict order that puts any two of the rows one before the other. -/
structure Orders (lt : ρ → ρ → Prop) (rows : List ρ) : Prop where
  irrefl : ∀ r, ¬ lt r r
  trans : ∀ r r' r'', lt r r' → lt r' r'' → lt r r''
  total : ∀ r ∈ rows, ∀ r' ∈ rows, r ≠ r' → lt r r' ∨ lt r' r
  nodup : rows.Nodup

/-- The rows, none before one that precedes it. -/
def Arranged (lt : ρ → ρ → Prop) (rows arranged : List ρ) : Prop :=
  arranged.Perm rows ∧ arranged.Pairwise fun r r' => ¬ lt r' r

theorem arranged_arrange {K : Type} [LinearOrder K] (keys : List ((ρ → K) × Direction))
    (rows : List ρ) : Arranged (LexLt keys) rows (arrange keys rows) := by
  have hTrans : ∀ r r' r'' : ρ, decide (¬ LexLt keys r' r) = true →
      decide (¬ LexLt keys r'' r') = true → decide (¬ LexLt keys r'' r) = true :=
    fun r r' r'' h h' => decide_eq_true (not_lexLt_trans (of_decide_eq_true h)
      (of_decide_eq_true h'))
  have hTotal : ∀ r r' : ρ,
      (decide (¬ LexLt keys r' r) || decide (¬ LexLt keys r r')) = true := by
    intro r r'
    rw [Bool.or_eq_true, decide_eq_true_eq, decide_eq_true_eq, ← not_and_or]
    exact fun h => lexLt_irrefl (lexLt_trans h.1 h.2)
  have hSorted := List.pairwise_mergeSort hTrans hTotal rows
  exact ⟨List.mergeSort_perm _ _, hSorted.imp fun h => of_decide_eq_true h⟩

/-- Without a marker a page is the start of the rows, with one it is that of the rows strictly after
the marker. -/
structure Pages (lt : ρ → ρ → Prop) [DecidableRel lt] (rows : List ρ) (limit : Nat) (mark : ρ → μ)
    (fetch : Option μ → Except ε (List ρ)) : Prop where
  first : ∃ l, Arranged lt rows l ∧ fetch none = .ok (l.take limit)
  next : ∀ m ∈ rows,
    ∃ l, Arranged lt (rows.filter (lt m)) l ∧ fetch (some (mark m)) = .ok (l.take limit)

/-- Pages are fetched until one is empty, each with the mark of the last row of the page before. The
number bounds the fetches; `none` when it is too small. -/
def readPages (mark : ρ → μ) (fetch : Option μ → Except ε (List ρ)) :
    Nat → Option μ → Except ε (Option (List ρ))
  | 0, _ => .ok none
  | fetches + 1, marker => do
    let page ← fetch marker
    match page.getLast? with
    | none => pure (some [])
    | some last =>
      let rest ← readPages mark fetch fetches (some (mark last))
      pure (rest.map (page ++ ·))

variable {rows sorted : List ρ} {limit : Nat} {mark : ρ → μ} {fetch : Option μ → Except ε (List ρ)}

theorem Orders.filter (h : Orders lt rows) (p : ρ → Bool) : Orders lt (rows.filter p) where
  irrefl := h.irrefl
  trans := h.trans
  total r hr r' hr' := h.total r (List.mem_filter.mp hr).1 r' (List.mem_filter.mp hr').1
  nodup := h.nodup.filter p

/-- Rows that the order distinguishes are each before the ones that follow. -/
theorem pairwise_of_arranged {l : List ρ} (hOrders : Orders lt rows) (h : Arranged lt rows l) :
    l.Pairwise lt := by
  have hNodup : l.Nodup := h.1.nodup_iff.mpr hOrders.nodup
  have hBoth := h.2.and hNodup
  refine hBoth.imp_of_mem fun {r r'} hr hr' hNot => ?_
  exact (hOrders.total r (h.1.mem_iff.mp hr) r' (h.1.mem_iff.mp hr') hNot.2).resolve_right hNot.1

/-- They are arranged in one way only. -/
theorem eq_of_arranged {l : List ρ} (hOrders : Orders lt rows) (hPerm : sorted.Perm rows)
    (hSorted : sorted.Pairwise lt) (h : Arranged lt rows l) : l = sorted := by
  refine List.Perm.eq_of_pairwise ?_ (pairwise_of_arranged hOrders h) hSorted
    (h.1.trans hPerm.symm)
  intro a b _ _ hab hba
  exact absurd (hOrders.trans a b a hab hba) (hOrders.irrefl a)

variable [DecidableRel lt]

/-- What follows a row in the sorted list is what is after it. -/
theorem filter_after {before after : List ρ} {m : ρ} (hOrders : Orders lt rows)
    (hSorted : (before ++ m :: after).Pairwise lt) :
    (before ++ m :: after).filter (lt m) = after := by
  obtain ⟨-, hTail, hBefore⟩ := List.pairwise_append.mp hSorted
  have hFront : before.filter (fun r => lt m r) = [] := by
    refine List.filter_eq_nil_iff.mpr fun r hr hAfter => ?_
    have hLt := hBefore r hr m List.mem_cons_self
    exact hOrders.irrefl r (hOrders.trans r m r hLt (of_decide_eq_true hAfter))
  have hBack : after.filter (fun r => lt m r) = after :=
    List.filter_eq_self.mpr fun r hr => decide_eq_true (List.rel_of_pairwise_cons hTail hr)
  rw [List.filter_append, hFront, List.filter_cons_of_neg (by simpa using hOrders.irrefl m), hBack]
  rfl

/-- One page, and the pages from its last row on. -/
theorem readPages_succ {after : List ρ} {marker : Option μ} {fetches : Nat} (hLimit : 1 ≤ limit)
    (hFetch : fetch marker = .ok (after.take limit))
    (hRest : ∀ front m rest, after = front ++ m :: rest →
      readPages mark fetch fetches (some (mark m)) = .ok (some rest)) :
    readPages mark fetch (fetches + 1) marker = .ok (some after) := by
  rw [readPages, hFetch]
  simp only [bind, Except.bind]
  cases hLast : (after.take limit).getLast? with
  | none =>
    rw [List.getLast?_eq_none_iff, List.take_eq_nil_iff] at hLast
    rw [hLast.resolve_left (by omega)]
    rfl
  | some last =>
    obtain ⟨front, hPage⟩ := List.getLast?_eq_some_iff.mp hLast
    have hSplit : after = front ++ last :: after.drop limit := by
      rw [List.append_cons, ← hPage, List.take_append_drop]
    dsimp only
    rw [hRest front last (after.drop limit) hSplit]
    simp only [pure, Except.pure, Option.map_some, List.take_append_drop]

/-- From a row of the sorted list on, the pages are what follows it. -/
theorem readPages_next (hOrders : Orders lt rows) (hLimit : 1 ≤ limit)
    (hPages : Pages lt rows limit mark fetch) (hPerm : sorted.Perm rows)
    (hSorted : sorted.Pairwise lt) {fetches : Nat} {before after : List ρ} {m : ρ}
    (hSplit : sorted = before ++ m :: after) (hFetches : after.length < fetches) :
    readPages mark fetch fetches (some (mark m)) = .ok (some after) := by
  induction fetches generalizing before after m with
  | zero => exact absurd hFetches (Nat.not_lt_zero _)
  | succ fetches ih =>
    have hMem : m ∈ rows := by
      rw [← hPerm.mem_iff, hSplit]
      exact List.mem_append_right _ List.mem_cons_self
    obtain ⟨l, hArranged, hFetch⟩ := hPages.next m hMem
    have hAfter : after.Perm (rows.filter (lt m)) := by
      have hFilter := hPerm.filter (lt m)
      rw [hSplit, filter_after hOrders (hSplit ▸ hSorted)] at hFilter
      exact hFilter
    have hTail : after.Pairwise lt := by
      rw [hSplit] at hSorted
      exact (List.pairwise_cons.mp (List.pairwise_append.mp hSorted).2.1).2
    rw [eq_of_arranged (hOrders.filter _) hAfter hTail hArranged] at hFetch
    refine readPages_succ hLimit hFetch fun front m' rest hRest => ?_
    have hSplit' : sorted = (before ++ m :: front) ++ m' :: rest := by
      rw [hSplit, hRest, List.append_assoc, List.cons_append]
    apply ih hSplit'
    rw [hRest, List.length_append, List.length_cons] at hFetches
    omega

/-- The pages are all of the rows in their order. -/
theorem readPages_eq (hOrders : Orders lt rows) (hLimit : 1 ≤ limit)
    (hPages : Pages lt rows limit mark fetch) :
    ∃ sorted, sorted.Perm rows ∧ sorted.Pairwise lt ∧ ∀ fetches, rows.length < fetches →
      readPages mark fetch fetches none = .ok (some sorted) := by
  obtain ⟨sorted, hArranged, hFetch⟩ := hPages.first
  have hSorted := pairwise_of_arranged hOrders hArranged
  refine ⟨sorted, hArranged.1, hSorted, fun fetches hFetches => ?_⟩
  cases fetches with
  | zero => exact absurd hFetches (Nat.not_lt_zero _)
  | succ fetches =>
    refine readPages_succ hLimit hFetch fun front m rest hSplit => ?_
    refine readPages_next hOrders hLimit hPages hArranged.1 hSorted hSplit ?_
    have hLength := hArranged.1.length_eq
    rw [hSplit, List.length_append, List.length_cons] at hLength
    omega

end Pages

end MasakariHA.Lib
