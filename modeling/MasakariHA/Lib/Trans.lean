import Mathlib.Logic.Relation

/-!
# Labelled transition systems

A system steps from a state under a label. The label holds everything the state leaves
open (which process moves, what its environment answers), so that `step` is a partial
function; `none` means that the step is not possible there.

`ReachableIf C` collects the states of the runs whose steps all meet the condition `C`,
a condition on the state before the step and on the label. `Reachable` asks nothing of
the steps.

* `invariant_of_step`: what holds at the start and over every step holds in every state
  reached;
* `countP_le_of_runIf`: how often a measure can decrease in a run;
* `runIf`, `reflTransGen_of_runIf`: an explicit list of labels gives a run.
-/

namespace MasakariHA.Lib

/-- A transition system with initial states `init` and a partial step function. -/
structure Trans (S L : Type) where
  init : S → Prop
  step : S → L → Option S

namespace Trans

variable {S L : Type} (T : Trans S L)

/-- A step under some label that meets the condition. -/
def StepIf (C : S → L → Prop) (s s' : S) : Prop := ∃ l, C s l ∧ T.step s l = some s'

/-- The states of the runs whose steps all meet the condition. -/
def ReachableIf (C : S → L → Prop) (s : S) : Prop :=
  ∃ s₀, T.init s₀ ∧ Relation.ReflTransGen (T.StepIf C) s₀ s

/-- The states of all runs. -/
def Reachable : S → Prop := T.ReachableIf fun _ _ => True

variable {T}

theorem reachableIf_init {C : S → L → Prop} {s : S} (h : T.init s) : T.ReachableIf C s :=
  ⟨s, h, .refl⟩

theorem reachableIf_step {C : S → L → Prop} {s s' : S} {l : L} (h : T.ReachableIf C s)
    (hC : C s l) (hs : T.step s l = some s') : T.ReachableIf C s' := by
  obtain ⟨s₀, h₀, hr⟩ := h
  exact ⟨s₀, h₀, hr.tail ⟨l, hC, hs⟩⟩

/-- The invariant rule. -/
theorem invariant_of_step {C : S → L → Prop} {I : S → Prop} (h₀ : ∀ s, T.init s → I s)
    (hStep : ∀ s l s', I s → C s l → T.step s l = some s' → I s') {s : S}
    (h : T.ReachableIf C s) : I s := by
  obtain ⟨s₀, hi, hr⟩ := h
  induction hr with
  | refl => exact h₀ s₀ hi
  | tail _ hs ih =>
    obtain ⟨l, hC, hs⟩ := hs
    exact hStep _ l _ ih hC hs

theorem reachableIf_mono {C C' : S → L → Prop} (hC : ∀ s l, C s l → C' s l) {s : S}
    (h : T.ReachableIf C s) : T.ReachableIf C' s :=
  invariant_of_step (fun _ => reachableIf_init)
    (fun _ _ _ hI hc hs => reachableIf_step hI (hC _ _ hc) hs) h

theorem reachable_of_reachableIf {C : S → L → Prop} {s : S} (h : T.ReachableIf C s) :
    T.Reachable s :=
  reachableIf_mono (fun _ _ _ => trivial) h

variable (T)

/-- The run under a list of labels; `none` when some step is not possible or does not meet
the condition. -/
def runIf (c : S → L → Bool) (s : S) (ls : List L) : Option S :=
  ls.foldlM (fun s l => if c s l then T.step s l else none) s

variable {T}

theorem reflTransGen_of_runIf {c : S → L → Bool} {C : S → L → Prop}
    (hC : ∀ s l, c s l = true → C s l) {s s' : S} {ls : List L} (hr : T.runIf c s ls = some s') :
    Relation.ReflTransGen (T.StepIf C) s s' := by
  induction ls generalizing s with
  | nil => cases hr; exact .refl
  | cons l ls ih =>
    simp only [runIf, List.foldlM_cons] at hr
    obtain ⟨t, ht, hr⟩ := Option.bind_eq_some_iff.mp hr
    split at ht
    · rename_i hc
      exact .head ⟨l, hC s l hc, ht⟩ (ih hr)
    · cases ht

/-- The variant rule: a measure bounds the steps of a run that decrease it. -/
theorem countP_le_of_runIf {c : S → L → Bool} {I : S → Prop} {m : S → Nat} {p : L → Bool}
    (hStep : ∀ s l s', I s → T.step s l = some s' →
      I s' ∧ (if p l then 1 else 0) + m s' ≤ m s) {s s' : S} {ls : List L} (hI : I s)
    (hr : T.runIf c s ls = some s') : ls.countP p + m s' ≤ m s := by
  induction ls generalizing s with
  | nil => cases hr; exact Nat.le_of_eq (Nat.zero_add _)
  | cons l ls ih =>
    simp only [runIf, List.foldlM_cons] at hr
    obtain ⟨t, ht, hr⟩ := Option.bind_eq_some_iff.mp hr
    split at ht
    · obtain ⟨hIt, hLess⟩ := hStep s l t hI ht
      have hRest := ih hIt hr
      rw [List.countP_cons]
      omega
    · cases ht

/-- A checked run exhibits a state that is reached with a decidable property. -/
theorem exists_reflTransGen_of_runIf {c : S → L → Bool} {C : S → L → Prop}
    (hC : ∀ s l, c s l = true → C s l) {s : S} (ls : List L) (p : S → Bool)
    (hr : (T.runIf c s ls).any p = true) :
    ∃ s', Relation.ReflTransGen (T.StepIf C) s s' ∧ p s' = true := by
  cases hs : T.runIf c s ls with
  | none => rw [hs] at hr; cases hr
  | some s' =>
    rw [hs] at hr
    exact ⟨s', reflTransGen_of_runIf hC hs, hr⟩

theorem exists_reachableIf_of_runIf {c : S → L → Bool} {s : S} (ls : List L) (p : S → Bool)
    (h : T.init s) (hr : (T.runIf c s ls).any p = true) :
    ∃ s', T.ReachableIf (fun s l => c s l = true) s' ∧ p s' = true := by
  obtain ⟨s', hRun, hp⟩ := exists_reflTransGen_of_runIf (fun _ _ hc => hc) ls p hr
  exact ⟨s', ⟨s, h, hRun⟩, hp⟩

theorem exists_reachable_of_runIf {s : S} (ls : List L) (p : S → Bool)
    (h : T.init s) (hr : (T.runIf (fun _ _ => true) s ls).any p = true) :
    ∃ s', T.Reachable s' ∧ p s' = true := by
  obtain ⟨s', hReach, hp⟩ := exists_reachableIf_of_runIf ls p h hr
  exact ⟨s', reachable_of_reachableIf hReach, hp⟩

end Trans

end MasakariHA.Lib
