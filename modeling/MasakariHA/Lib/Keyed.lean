import Mathlib.Logic.Function.Basic
import MasakariHA.Lib.Trans

/-!
# Systems of independent parts

Many copies of one system, each under a key of its own, that take their steps in any order.

* `keyed`: the system of all parts;
* `reachableIf_of_keyed`: what the steps of one part make of it, the others aside.
-/

namespace MasakariHA.Lib.Trans

variable {K S L : Type} [DecidableEq K]

/-- One copy of the system for each key; a label is one of the copy with the key. -/
def keyed (K : Type) [DecidableEq K] (T : Trans S L) : Trans (K → S) (K × L) where
  init s := ∀ k, T.init (s k)
  step s l := (T.step (s l.1) l.2).map (Function.update s l.1)

variable {T : Trans S L} {C : S → L → Prop} {s : K → S}

/-- Every part of a reachable state is reachable by steps of its own. -/
theorem reachableIf_of_keyed
    (h : (keyed K T).ReachableIf (fun s l => C (s l.1) l.2) s) (k : K) :
    T.ReachableIf C (s k) := by
  refine invariant_of_step (I := fun s => ∀ k, T.ReachableIf C (s k)) (fun s hs k => ?_)
    (fun s l s' hI hC hs k => ?_) h k
  · exact reachableIf_init (hs k)
  · obtain ⟨t, ht, rfl⟩ := Option.map_eq_some_iff.mp hs
    by_cases hk : k = l.1
    · subst hk
      rw [Function.update_self]
      exact reachableIf_step (hI l.1) hC ht
    · rw [Function.update_of_ne hk]
      exact hI k

end MasakariHA.Lib.Trans
