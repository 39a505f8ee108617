import Mathlib.Tactic.Common

/-!
# Postconditions of programs with state and exceptions

A program is a computation of `EStateM ε σ`: it reads and writes a state, and it ends
by returning a value or by raising an exception; the writes made before an exception
stay. `Ensures x s Q E` says where the run of `x` from `s` ends: in a return that
satisfies `Q`, or in an exception that satisfies `E`.

A run is total and deterministic, so the rule of each construct is an equivalence.
Used from left to right the rules compute the weakest precondition of a program.

* `ensures_bind`, `ensures_tryCatch`, `ensures_finally`: sequence, handler, cleanup;
* `ensures_mono`, `ensures_and`: consequence and conjunction;
* `Ends`: the same condition on every way to end;
* `ensures_forM_split`: the loop rule, with an invariant that speaks of the elements passed.
-/

namespace MasakariHA.Lib

variable {ε σ α β : Type}

/-- The run of `x` from `s` returns with `Q` or raises with `E`. -/
def Ensures (x : EStateM ε σ α) (s : σ) (Q : α → σ → Prop) (E : ε → σ → Prop) : Prop :=
  match x.run s with
  | .ok a s' => Q a s'
  | .error e s' => E e s'

/-- The run of `x` from `s` returns. -/
def Returns (x : EStateM ε σ α) (s : σ) : Prop :=
  Ensures x s (fun _ _ => True) (fun _ _ => False)

/-- Every way in which the run of `x` from `s` can end leaves a state in `P`. -/
def Ends (x : EStateM ε σ α) (s : σ) (P : σ → Prop) : Prop :=
  Ensures x s (fun _ => P) (fun _ => P)

/-! ## Primitive steps -/

section Primitive

variable {Q : α → σ → Prop} {E : ε → σ → Prop}

@[simp] theorem ensures_pure (a : α) (s : σ) : Ensures (pure a) s Q E ↔ Q a s := Iff.rfl

@[simp] theorem ensures_throw (e : ε) (s : σ) :
    Ensures (throw e : EStateM ε σ α) s Q E ↔ E e s := Iff.rfl

@[simp] theorem ensures_get {Q : σ → σ → Prop} (s : σ) :
    Ensures (get : EStateM ε σ σ) s Q E ↔ Q s s := Iff.rfl

@[simp] theorem ensures_set {Q : PUnit → σ → Prop} (s s' : σ) :
    Ensures (set s' : EStateM ε σ PUnit) s Q E ↔ Q ⟨⟩ s' := Iff.rfl

@[simp] theorem ensures_modify {Q : PUnit → σ → Prop} (f : σ → σ) (s : σ) :
    Ensures (modify f : EStateM ε σ PUnit) s Q E ↔ Q ⟨⟩ (f s) := Iff.rfl

@[simp] theorem ensures_ofExcept {x : Except ε α} {s : σ} :
    Ensures (MonadExcept.ofExcept x : EStateM ε σ α) s Q E ↔
      match x with
      | .ok a => Q a s
      | .error e => E e s := by
  cases x <;> exact Iff.rfl

end Primitive

theorem ofExcept_ok (a : α) :
    (MonadExcept.ofExcept (.ok a : Except ε α) : EStateM ε σ α) = pure a := rfl

/-! ## Composition -/

@[simp] theorem ensures_bind {x : EStateM ε σ α} {f : α → EStateM ε σ β} {s : σ}
    {Q : β → σ → Prop} {E : ε → σ → Prop} :
    Ensures (x >>= f) s Q E ↔ Ensures x s (fun a s' => Ensures (f a) s' Q E) E := by
  unfold Ensures
  rw [EStateM.run_bind]
  cases x.run s <;> rfl

@[simp] theorem ensures_map {x : EStateM ε σ α} {f : α → β} {s : σ} {Q : β → σ → Prop}
    {E : ε → σ → Prop} : Ensures (f <$> x) s Q E ↔ Ensures x s (fun a => Q (f a)) E := by
  rw [map_eq_pure_bind]
  exact ensures_bind

@[simp] theorem ensures_tryCatch {x : EStateM ε σ α} {h : ε → EStateM ε σ α} {s : σ}
    {Q : α → σ → Prop} {E : ε → σ → Prop} :
    Ensures (tryCatch x h) s Q E ↔ Ensures x s Q (fun e s' => Ensures (h e) s' Q E) := by
  unfold Ensures
  change (match EStateM.tryCatch x h s with | .ok a s' => Q a s' | .error e s' => E e s') ↔ _
  unfold EStateM.tryCatch EStateM.run
  cases x s <;> rfl

/-- An exception of the cleanup replaces how `x` ended; otherwise `x` ends as it did,
in the state the cleanup left. -/
@[simp] theorem ensures_finally {x : EStateM ε σ α} {c : EStateM ε σ PUnit} {s : σ}
    {Q : α → σ → Prop} {E : ε → σ → Prop} :
    Ensures (tryFinally x c) s Q E ↔
      Ensures x s (fun a s' => Ensures c s' (fun _ => Q a) E)
        (fun e s' => Ensures c s' (fun _ => E e) E) := by
  unfold Ensures EStateM.run tryFinally
  simp only [Functor.map, EStateM.map, tryFinally']
  cases x s with
  | ok a s' => dsimp only; cases c s' <;> rfl
  | error e s' => dsimp only; cases c s' <;> rfl

/-- A sequence of computations without a state, taken apart. -/
theorem except_bind_eq_ok {x : Except ε α} {f : α → Except ε β} {b : β} :
    x >>= f = .ok b ↔ ∃ a, x = .ok a ∧ f a = .ok b := by
  cases x with
  | error e =>
    constructor
    · exact fun h => nomatch h
    · rintro ⟨a, h, -⟩
      cases h
  | ok a =>
    constructor
    · exact fun h => ⟨a, rfl, h⟩
    · rintro ⟨a, ⟨⟩, h⟩
      exact h

theorem except_bind_eq_error {x : Except ε α} {f : α → Except ε β} {e : ε} :
    x >>= f = .error e ↔ x = .error e ∨ ∃ a, x = .ok a ∧ f a = .error e := by
  cases x with
  | error e' =>
    constructor
    · intro h
      cases h
      exact Or.inl rfl
    · rintro (h | ⟨a, h, -⟩)
      · cases h
        rfl
      · cases h
  | ok a =>
    constructor
    · exact fun h => Or.inr ⟨a, rfl, h⟩
    · rintro (h | ⟨a, ⟨⟩, h⟩)
      · cases h
      · exact h

/-! ## Consequence -/

theorem ensures_mono {x : EStateM ε σ α} {s : σ} {Q Q' : α → σ → Prop} {E E' : ε → σ → Prop}
    (h : Ensures x s Q E) (hQ : ∀ a s', Q a s' → Q' a s') (hE : ∀ e s', E e s' → E' e s') :
    Ensures x s Q' E' := by
  unfold Ensures at h ⊢
  cases hx : x.run s with
  | ok a s' => rw [hx] at h; exact hQ a s' h
  | error e s' => rw [hx] at h; exact hE e s' h

/-- Conditions that agree where the run can end are interchangeable. -/
theorem ensures_congr {x : EStateM ε σ α} {s : σ} {F Q Q' : α → σ → Prop} {G E E' : ε → σ → Prop}
    (h : Ensures x s F G) (hQ : ∀ a s', F a s' → (Q a s' ↔ Q' a s'))
    (hE : ∀ e s', G e s' → (E e s' ↔ E' e s')) : Ensures x s Q E ↔ Ensures x s Q' E' := by
  unfold Ensures at h ⊢
  cases hx : x.run s with
  | ok a s' => rw [hx] at h; exact hQ a s' h
  | error e s' => rw [hx] at h; exact hE e s' h

theorem ensures_and {x : EStateM ε σ α} {s : σ} {Q Q' : α → σ → Prop} {E E' : ε → σ → Prop} :
    Ensures x s (fun a s' => Q a s' ∧ Q' a s') (fun e s' => E e s' ∧ E' e s') ↔
      Ensures x s Q E ∧ Ensures x s Q' E' := by
  unfold Ensures
  cases x.run s <;> rfl

theorem ensures_true (x : EStateM ε σ α) (s : σ) :
    Ensures x s (fun _ _ => True) (fun _ _ => True) := by
  unfold Ensures
  cases x.run s <;> trivial

/-- A program returns or raises always the same way from a state. -/
theorem ensures_returns (x : EStateM ε σ α) (s : σ) :
    Ensures x s (fun _ _ => Returns x s) (fun _ _ => ¬ Returns x s) := by
  unfold Returns Ensures
  cases x.run s
  · trivial
  · exact id

theorem ensures_const (x : EStateM ε σ α) (s : σ) (p : Prop) :
    Ensures x s (fun _ _ => p) (fun _ _ => p) ↔ p := by
  unfold Ensures
  cases x.run s <;> rfl

/-- A program that does not raise returns. -/
theorem exists_run_of_ensures {x : EStateM ε σ α} {s : σ} {Q : α → σ → Prop}
    (h : Ensures x s Q fun _ _ => False) : ∃ a s', x.run s = .ok a s' ∧ Q a s' := by
  unfold Ensures at h
  cases hRun : x.run s with
  | ok a s' => rw [hRun] at h; exact ⟨a, s', rfl, h⟩
  | error e s' => rw [hRun] at h; exact h.elim

/-- A run ends in some way. -/
theorem not_ensures_false (x : EStateM ε σ α) (s : σ) :
    ¬ Ensures x s (fun _ _ => False) (fun _ _ => False) := by
  unfold Ensures
  cases x.run s <;> exact id

theorem ends_mono {x : EStateM ε σ α} {s : σ} {P P' : σ → Prop}
    (h : Ends x s P) (hP : ∀ s', P s' → P' s') : Ends x s P' :=
  ensures_mono h (fun _ => hP) (fun _ => hP)

/-! ## Loops -/

/-- The loop rule: an invariant on the elements passed and the state, which every round
restores unless it raises. -/
theorem ensures_forM_split {xs : List α} {f : α → EStateM ε σ PUnit} {s : σ}
    (I : List α → σ → Prop) {E : ε → σ → Prop} (hs : I [] s)
    (hf : ∀ passed a rest, xs = passed ++ a :: rest → ∀ t, I passed t →
      Ensures (f a) t (fun _ => I (passed ++ [a])) E) :
    Ensures (xs.forM f) s (fun _ => I xs) E := by
  have hFrom : ∀ passed left, xs = passed ++ left → ∀ t, I passed t →
      Ensures (left.forM f) t (fun _ => I xs) E := by
    intro passed left
    induction left generalizing passed with
    | nil =>
      intro hSplit t hPassed
      rw [List.append_nil] at hSplit
      subst hSplit
      exact hPassed
    | cons a as ih =>
      intro hSplit t hPassed
      change Ensures (f a >>= fun _ => as.forM f) t _ _
      rw [ensures_bind]
      refine ensures_mono (hf passed a as hSplit t hPassed) (fun _ t' ht' => ?_) fun _ _ he => he
      apply ih (passed ++ [a])
      · rw [hSplit, List.append_assoc, List.singleton_append]
      · exact ht'
  exact hFrom [] xs rfl s hs

/-- The loop rule for a round that does not depend on where it stands in the loop. -/
theorem ensures_forM_prefix {xs : List α} {f : α → EStateM ε σ PUnit} {s : σ}
    (I : List α → σ → Prop) {E : ε → σ → Prop} (hs : I [] s)
    (hf : ∀ a ∈ xs, ∀ passed t, I passed t → Ensures (f a) t (fun _ => I (passed ++ [a])) E) :
    Ensures (xs.forM f) s (fun _ => I xs) E := by
  apply ensures_forM_split I hs
  intro passed a rest hSplit t hPassed
  have hMem : a ∈ xs := by
    rw [hSplit]
    exact List.mem_append_right passed List.mem_cons_self
  exact hf a hMem passed t hPassed

end MasakariHA.Lib
