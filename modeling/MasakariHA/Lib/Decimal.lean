import Mathlib.Data.List.Basic
import Mathlib.Data.List.Induction
import Mathlib.Tactic.Common

/-!
# Decimal numbers

A positive number is written without a leading zero, and a text of digits without a leading zero is
how its value is written.

* `Numeral`: the texts that positive numbers are written as;
* `numeral_toDigits`, `toDigits_ofDigitChars`: the two directions.
-/

namespace MasakariHA.Lib

/-- Digits, of which the first one is not `0`. -/
def Numeral (s : List Char) : Prop :=
  s ≠ [] ∧ (∀ c ∈ s, c.isDigit = true) ∧ s.head? ≠ some '0'

theorem numeral_toDigits {n : Nat} (hn : 1 ≤ n) : Numeral (Nat.toDigits 10 n) := by
  refine ⟨Nat.toDigits_ne_nil, fun c => Nat.isDigit_of_mem_toDigits (by decide) (by decide), ?_⟩
  induction n using Nat.strongRecOn with
  | ind n ih =>
    rw [Nat.toDigits_eq_if (by decide)]
    split
    · rw [List.head?_cons, ne_eq, Option.some.injEq, Nat.digitChar_eq_zero]
      omega
    · rw [List.head?_append_of_ne_nil _ Nat.toDigits_ne_nil]
      exact ih (n / 10) (by omega) (by omega)

theorem notMem_toDigits {c : Char} (h : c.isDigit = false) (n : Nat) :
    c ∉ Nat.toDigits 10 n := by
  intro hMem
  rw [Nat.isDigit_of_mem_toDigits (by decide) (by decide) hMem] at h
  cases h

theorem digitChar_of_isDigit {c : Char} (h : c.isDigit = true) :
    (c.toNat - '0'.toNat).digitChar = c ∧ c.toNat - '0'.toNat < 10 := by
  obtain ⟨hFrom, hTo⟩ := Char.isDigit_iff_toNat.mp h
  have hLt : c.toNat - '0'.toNat < 10 := by
    have hNine : '9'.toNat = '0'.toNat + 9 := rfl
    omega
  refine ⟨Char.toNat_inj.mp ?_, hLt⟩
  rw [Nat.toNat_digitChar_of_lt_ten hLt]
  have hZero : '0'.toNat = 48 := rfl
  omega

/-- The value of a numeral is positive and written as it. -/
theorem toDigits_ofDigitChars {s : List Char} (h : Numeral s) :
    1 ≤ Nat.ofDigitChars 10 s 0 ∧ Nat.toDigits 10 (Nat.ofDigitChars 10 s 0) = s := by
  induction s using List.reverseRecOn with
  | nil => exact absurd rfl h.1
  | append_singleton s c ih =>
    obtain ⟨-, hDigits, hHead⟩ := h
    obtain ⟨hChar, hLt⟩ := digitChar_of_isDigit (hDigits c (by simp))
    rw [Nat.ofDigitChars_append, Nat.ofDigitChars_cons, Nat.ofDigitChars_nil]
    by_cases hNil : s = []
    · subst hNil
      have hPos : c.toNat - '0'.toNat ≠ 0 := by
        intro hZero
        rw [hZero] at hChar
        exact hHead (congrArg some hChar.symm)
      rw [Nat.ofDigitChars_nil, Nat.mul_zero, Nat.zero_add, Nat.toDigits_of_lt_base hLt, hChar]
      exact ⟨Nat.one_le_iff_ne_zero.mpr hPos, rfl⟩
    · have hFront : Numeral s := by
        refine ⟨hNil, fun d hd => hDigits d (List.mem_append_left _ hd), ?_⟩
        rwa [List.head?_append_of_ne_nil _ hNil] at hHead
      obtain ⟨hPos, hWritten⟩ := ih hFront
      refine ⟨by omega, ?_⟩
      rw [← Nat.toDigits_append_toDigits (by decide) hPos hLt, hWritten,
        Nat.toDigits_of_lt_base hLt, hChar]

end MasakariHA.Lib
