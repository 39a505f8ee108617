import Mathlib.Data.List.Infix
import Mathlib.Tactic.Common

/-!
# Backtracking matchers

Regular expressions with groups. A matcher lists the ways to match a start of the text, each with
what its groups hold and the text that is left, in the order in which they are tried.

* `Matcher`: the pieces of an expression, each with the rule for what it lists;
* `first`: the way that is taken, as by `re.match`;
* `occurs`: a match anywhere in a line, as `grep` looks for one.
-/

namespace MasakariHA.Lib

def Matcher (β : Type) : Type := List Char → List (β × List Char)

namespace Matcher

instance : Monad Matcher where
  pure b := fun s => [(b, s)]
  bind m f := fun s => (m s).flatMap fun x => f x.1 x.2

/-- The first alternative is tried before the second one. -/
def alt {β : Type} (m m' : Matcher β) : Matcher β := fun s => m s ++ m' s

/-- One character of a class. -/
def cls (p : Char → Bool) : Matcher Char
  | [] => []
  | c :: s => if p c then [(c, s)] else []

/-- A fixed text. -/
def lit : List Char → Matcher Unit
  | [], s => [((), s)]
  | _ :: _, [] => []
  | c :: t, d :: s => if c = d then lit t s else []

/-- A repeated class, which takes as much as it can at first. -/
def star (p : Char → Bool) : Matcher (List Char)
  | [] => [([], [])]
  | c :: s =>
    if p c then (star p s).map (fun x => (c :: x.1, x.2)) ++ [([], c :: s)] else [([], c :: s)]

/-- A fixed text at most so many times. -/
def upTo (t : List Char) : Nat → Matcher Unit
  | 0 => pure ()
  | n + 1 => alt (lit t >>= fun _ => upTo t n) (pure ())

/-- A fixed text any number of times. -/
def starLit (t : List Char) : Matcher Unit := fun s => upTo t s.length s

/-- `$`: the end of a line. -/
def eol : Matcher Unit
  | [] => [((), [])]
  | _ :: _ => []

/-- `$` of Python: the end of the text, or a line feed there. -/
def eolPython : Matcher Unit := fun s => if s = [] ∨ s = ['\n'] then [((), s)] else []

/-- What the groups hold in the way that is taken. -/
def first {β : Type} (m : Matcher β) (s : List Char) : Option β := (m s).head?.map (·.1)

def occurs {β : Type} (m : Matcher β) (s : List Char) : Bool := s.tails.any fun t => !(m t).isEmpty

section Rules

variable {β γ : Type} {m m' : Matcher β} {f : β → Matcher γ} {s t : List Char} {p : Char → Bool}

theorem mem_pure {b : β} {x : β × List Char} : x ∈ (pure b : Matcher β) s ↔ x = (b, s) :=
  List.mem_singleton

theorem mem_bind {x : γ × List Char} :
    x ∈ (m >>= f) s ↔ ∃ b rest, (b, rest) ∈ m s ∧ x ∈ f b rest := by
  change x ∈ (m s).flatMap (fun y => f y.1 y.2) ↔ _
  rw [List.mem_flatMap]
  exact ⟨fun ⟨y, hy, hx⟩ => ⟨y.1, y.2, hy, hx⟩, fun ⟨b, rest, hy, hx⟩ => ⟨(b, rest), hy, hx⟩⟩

theorem mem_alt {x : β × List Char} : x ∈ alt m m' s ↔ x ∈ m s ∨ x ∈ m' s := List.mem_append

theorem mem_cls {c : Char} {rest : List Char} :
    (c, rest) ∈ cls p s ↔ s = c :: rest ∧ p c = true := by
  cases s with
  | nil => simp [cls]
  | cons d s =>
    rw [cls, List.cons.injEq]
    split
    · rename_i hd
      rw [List.mem_singleton, Prod.mk.injEq]
      constructor
      · rintro ⟨rfl, rfl⟩
        exact ⟨⟨rfl, rfl⟩, hd⟩
      · rintro ⟨⟨rfl, rfl⟩, -⟩
        exact ⟨rfl, rfl⟩
    · rename_i hd
      refine iff_of_false List.not_mem_nil ?_
      rintro ⟨⟨rfl, -⟩, hc⟩
      exact hd hc

theorem mem_lit {x : Unit × List Char} : x ∈ lit t s ↔ s = t ++ x.2 := by
  induction t generalizing s with
  | nil =>
    rw [lit, List.mem_singleton, List.nil_append, Prod.ext_iff]
    exact ⟨fun h => h.2.symm, fun h => ⟨rfl, h.symm⟩⟩
  | cons c t ih =>
    cases s with
    | nil => simp [lit]
    | cons d s =>
      rw [lit, List.cons_append, List.cons.injEq]
      split
      · rename_i hSame
        rw [ih, and_iff_right hSame.symm]
      · rename_i hNe
        exact iff_of_false List.not_mem_nil fun h => hNe h.1.symm

theorem mem_star_cons {d : Char} {run rest : List Char} (hd : p d = true) :
    (run, rest) ∈ star p (d :: s) ↔
      (∃ run', run = d :: run' ∧ (run', rest) ∈ star p s) ∨ run = [] ∧ rest = d :: s := by
  rw [star, if_pos hd, List.mem_append, List.mem_singleton, List.mem_map, Prod.mk.injEq]
  refine or_congr_left ⟨?_, ?_⟩
  · rintro ⟨⟨run', rest'⟩, hMem, hEq⟩
    obtain ⟨rfl, rfl⟩ := Prod.mk.inj hEq
    exact ⟨run', rfl, hMem⟩
  · rintro ⟨run', rfl, hMem⟩
    exact ⟨(run', rest), hMem, rfl⟩

theorem mem_star {run rest : List Char} :
    (run, rest) ∈ star p s ↔ s = run ++ rest ∧ ∀ c ∈ run, p c = true := by
  induction s generalizing run with
  | nil =>
    rw [star, List.mem_singleton, Prod.mk.injEq, eq_comm (a := []), List.append_eq_nil_iff]
    refine ⟨fun ⟨hRun, hRest⟩ => ⟨⟨hRun, hRest⟩, ?_⟩, fun h => h.1⟩
    rw [hRun]
    exact nofun
  | cons d s ih =>
    by_cases hd : p d = true
    · rw [mem_star_cons hd]
      constructor
      · rintro (⟨run', rfl, hMem⟩ | ⟨rfl, rfl⟩)
        · obtain ⟨rfl, hAll⟩ := ih.mp hMem
          exact ⟨rfl, List.forall_mem_cons.mpr ⟨hd, hAll⟩⟩
        · exact ⟨rfl, nofun⟩
      · rintro ⟨hSplit, hAll⟩
        cases run with
        | nil => exact Or.inr ⟨rfl, hSplit.symm⟩
        | cons c run =>
          obtain ⟨rfl, hRest⟩ := List.cons.inj hSplit
          exact Or.inl ⟨run, rfl, ih.mpr ⟨hRest, (List.forall_mem_cons.mp hAll).2⟩⟩
    · rw [star, if_neg hd, List.mem_singleton, Prod.mk.injEq]
      constructor
      · rintro ⟨rfl, rfl⟩
        exact ⟨rfl, nofun⟩
      · rintro ⟨hSplit, hAll⟩
        cases run with
        | nil => exact ⟨rfl, hSplit.symm⟩
        | cons c run =>
          obtain ⟨rfl, -⟩ := List.cons.inj hSplit
          exact absurd (hAll d List.mem_cons_self) hd

theorem mem_upTo {n : Nat} {x : Unit × List Char} :
    x ∈ upTo t n s ↔ ∃ k ≤ n, s = (List.replicate k t).flatten ++ x.2 := by
  induction n generalizing s with
  | zero =>
    rw [upTo, mem_pure, Prod.ext_iff]
    constructor
    · rintro ⟨-, hRest⟩
      exact ⟨0, le_rfl, hRest.symm⟩
    · rintro ⟨k, hk, hSplit⟩
      rw [Nat.le_zero.mp hk] at hSplit
      exact ⟨rfl, hSplit.symm⟩
  | succ n ih =>
    rw [upTo, mem_alt, mem_bind, mem_pure, Prod.ext_iff]
    constructor
    · rintro (⟨_, rest, hLit, hMore⟩ | ⟨-, hRest⟩)
      · obtain ⟨k, hk, hSplit⟩ := ih.mp hMore
        refine ⟨k + 1, Nat.succ_le_succ hk, ?_⟩
        rw [mem_lit.mp hLit, List.replicate_succ, List.flatten_cons, List.append_assoc]
        exact congrArg (t ++ ·) hSplit
      · exact ⟨0, Nat.zero_le _, hRest.symm⟩
    · rintro ⟨k, hk, hSplit⟩
      cases k with
      | zero => exact Or.inr ⟨rfl, hSplit.symm⟩
      | succ k =>
        rw [List.replicate_succ, List.flatten_cons, List.append_assoc] at hSplit
        exact Or.inl ⟨(), _, mem_lit.mpr hSplit, ih.mpr ⟨k, Nat.le_of_succ_le_succ hk, rfl⟩⟩

/-- The text that is left bounds how often the fixed one can stand there. -/
theorem mem_starLit (ht : t ≠ []) {x : Unit × List Char} :
    x ∈ starLit t s ↔ ∃ k, s = (List.replicate k t).flatten ++ x.2 := by
  rw [starLit, mem_upTo]
  refine ⟨fun ⟨k, _, hSplit⟩ => ⟨k, hSplit⟩, fun ⟨k, hSplit⟩ => ⟨k, ?_, hSplit⟩⟩
  have hLength := congrArg List.length hSplit
  rw [List.length_append, List.length_flatten, List.map_replicate,
    List.sum_replicate_nat] at hLength
  have hPos : 1 ≤ t.length := List.length_pos_iff.mpr ht
  have hTimes : k * 1 ≤ k * t.length := Nat.mul_le_mul_left k hPos
  omega

theorem mem_eol {x : Unit × List Char} : x ∈ eol s ↔ s = [] ∧ x.2 = [] := by
  cases s with
  | nil => simp [eol, Prod.ext_iff]
  | cons c s => simp [eol]

theorem mem_eolPython {x : Unit × List Char} :
    x ∈ eolPython s ↔ (s = [] ∨ s = ['\n']) ∧ x.2 = s := by
  unfold eolPython
  split
  · rename_i hEnd
    simp [hEnd, Prod.ext_iff]
  · rename_i hEnd
    simp [hEnd]

theorem exists_of_first {b : β} (h : first m s = some b) : ∃ rest, (b, rest) ∈ m s := by
  obtain ⟨⟨b', rest⟩, hHead, rfl⟩ := Option.map_eq_some_iff.mp h
  exact ⟨rest, List.mem_of_head? hHead⟩

theorem first_eq_none : first m s = none ↔ ∀ x, x ∉ m s := by
  rw [first, Option.map_eq_none_iff, List.head?_eq_none_iff, List.eq_nil_iff_forall_not_mem]

theorem occurs_iff : occurs m s = true ↔ ∃ before after x, s = before ++ after ∧ x ∈ m after := by
  rw [occurs, List.any_eq_true]
  constructor
  · rintro ⟨after, hAfter, hSome⟩
    obtain ⟨before, hSplit⟩ := (List.mem_tails _ _).mp hAfter
    rw [Bool.not_eq_true', List.isEmpty_eq_false_iff_exists_mem] at hSome
    obtain ⟨x, hx⟩ := hSome
    exact ⟨before, after, x, hSplit.symm, hx⟩
  · rintro ⟨before, after, x, hSplit, hx⟩
    refine ⟨after, (List.mem_tails _ _).mpr ⟨before, hSplit.symm⟩, ?_⟩
    rw [Bool.not_eq_true', List.isEmpty_eq_false_iff_exists_mem]
    exact ⟨x, hx⟩

/-- A fixed text anywhere. -/
theorem occurs_lit : occurs (lit t) s = true ↔ t <:+: s := by
  rw [occurs_iff]
  constructor
  · rintro ⟨before, after, x, rfl, hx⟩
    rw [mem_lit.mp hx]
    exact List.infix_append' _ _ _
  · rintro ⟨before, rest, rfl⟩
    exact ⟨before, t ++ rest, ((), rest), List.append_assoc _ _ _, mem_lit.mpr rfl⟩

/-- A fixed text at the end of a line. -/
theorem occurs_lit_eol : occurs (lit t >>= fun _ => eol) s = true ↔ t <:+ s := by
  rw [occurs_iff]
  constructor
  · rintro ⟨before, after, x, rfl, hx⟩
    obtain ⟨_, rest, hLit, hEnd⟩ := mem_bind.mp hx
    rw [mem_lit.mp hLit, (mem_eol.mp hEnd).1, List.append_nil]
    exact List.suffix_append _ _
  · rintro ⟨before, rfl⟩
    exact ⟨before, t, ((), []), rfl,
      mem_bind.mpr ⟨(), [], mem_lit.mpr (List.append_nil t).symm, mem_eol.mpr ⟨rfl, rfl⟩⟩⟩

end Rules

end Matcher

end MasakariHA.Lib
