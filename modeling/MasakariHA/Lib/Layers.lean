import Mathlib.Control.Basic

/-!
# Layers around a computation

A layer acts before and after what it surrounds. Before, it can answer in its place; after, it
can replace the answer or change the result. A loop that runs what comes before, collects what is
to come after and runs that in reverse order is the same as the layers nested in each other.

* `down`, `up`: the two loops;
* `nest`: the layers, each around the rest;
* `throughLoops_eq_nest`: the two are the same.
-/

namespace MasakariHA.Lib

variable {m : Type → Type} {ρ α : Type}

/-- What a layer does: `before` can answer, `after` can answer and change the result. -/
structure Layer (m : Type → Type) (ρ α : Type) where
  before : m (Option ρ)
  after : α → m (Option ρ × α)

namespace Layer

variable [Monad m]

/-- The way in: an answer, or what is to come after, collected behind `afters`. -/
def down : List (Layer m ρ α) → List (α → m (Option ρ × α)) →
    m (ρ ⊕ List (α → m (Option ρ × α)))
  | [], afters => pure (.inr afters)
  | l :: ls, afters => do
    match ← l.before with
    | some r => pure (.inl r)
    | none => down ls (afters ++ [l.after])

/-- The way out, up to the first answer. -/
def up : List (α → m (Option ρ × α)) → α → m (ρ ⊕ α)
  | [], a => pure (.inr a)
  | after :: afters, a => do
    match ← after a with
    | (some r, _) => pure (.inl r)
    | (none, a) => up afters a

/-- The way out of what has not answered. -/
def leave (afters : List (α → m (Option ρ × α))) : ρ ⊕ α → m (ρ ⊕ α)
  | .inl r => pure (.inl r)
  | .inr a => up afters a

/-- The layers around a core, the first outermost. An answer from inside passes all that is
outside. -/
def nest : List (Layer m ρ α) → m (ρ ⊕ α) → m (ρ ⊕ α)
  | [], core => core
  | l :: ls, core => do
    match ← l.before with
    | some r => pure (.inl r)
    | none => nest ls core >>= leave [l.after]

/-- The loops around a core. -/
def throughLoops (ls : List (Layer m ρ α)) (core : m (ρ ⊕ α)) : m (ρ ⊕ α) := do
  match ← down ls [] with
  | .inl r => pure (.inl r)
  | .inr afters => core >>= leave afters.reverse

theorem leave_nil : (leave [] : ρ ⊕ α → m (ρ ⊕ α)) = pure := by
  funext x
  cases x <;> rfl

variable [LawfulMonad m]

theorem up_append (afters afters' : List (α → m (Option ρ × α))) (a : α) :
    up (afters ++ afters') a = up afters a >>= leave afters' := by
  induction afters generalizing a with
  | nil => rw [up, pure_bind, List.nil_append]; rfl
  | cons after afters ih =>
    rw [List.cons_append, up, up, bind_assoc]
    refine bind_congr fun x => ?_
    obtain ⟨_ | r, a⟩ := x
    · exact ih a
    · rw [pure_bind]
      rfl

theorem leave_append (afters afters' : List (α → m (Option ρ × α))) (x : ρ ⊕ α) :
    leave (afters ++ afters') x = leave afters x >>= leave afters' := by
  cases x with
  | inl r => rw [leave, leave, pure_bind, leave]
  | inr a => exact up_append afters afters' a

/-- The loops with layers already passed are the loops inside these layers. -/
theorem down_eq_nest (ls : List (Layer m ρ α)) (core : m (ρ ⊕ α))
    (afters : List (α → m (Option ρ × α))) :
    (do match ← down ls afters with
      | .inl r => pure (.inl r)
      | .inr afters => core >>= leave afters.reverse) =
      nest ls core >>= leave afters.reverse := by
  induction ls generalizing afters with
  | nil => rw [down, pure_bind, nest]
  | cons l ls ih =>
    rw [down, nest, bind_assoc, bind_assoc]
    refine bind_congr fun x => ?_
    cases x with
    | some r => rw [pure_bind, pure_bind, leave]
    | none =>
      dsimp only
      rw [ih, bind_assoc, List.reverse_append, List.reverse_singleton]
      exact bind_congr fun y => leave_append [l.after] afters.reverse y

theorem throughLoops_eq_nest (ls : List (Layer m ρ α)) (core : m (ρ ⊕ α)) :
    throughLoops ls core = nest ls core := by
  unfold throughLoops
  rw [down_eq_nest, List.reverse_nil, leave_nil, bind_pure]

end Layer

end MasakariHA.Lib
