import Mathlib.Data.List.Infix
import Mathlib.Data.String.Basic
import Mathlib.Tactic.Common

/-!
# Python string operations

The string methods that the modelled programs call, as far as comparisons with plain
ASCII words depend on them.

* `upper`: `str.upper`;
* `strip`, `lower`: `str.strip` and `str.lower`;
* `boolFromString`, `strictBoolFromString`: the words that `oslo_utils.strutils` documents;
* `contains`: `sub in s`;
* `int`: `int(s)`;
* `splitOn_space`: the words of a command line.
-/

namespace MasakariHA.Lib.PyString

/-- The upper-case image of a character, when the image is made of ASCII letters. A
character with another image has a non-ASCII character in it; it is kept, and is itself
not ASCII, so that comparing with an ASCII word has the same answer. -/
def upperChar (c : Char) : List Char :=
  if c.isLower then [c.toUpper]
  else if c = 'ı' then ['I']
  else if c = 'ſ' then ['S']
  else if c = 'ß' then ['S', 'S']
  else if c = 'ﬀ' then ['F', 'F']
  else if c = 'ﬁ' then ['F', 'I']
  else if c = 'ﬂ' then ['F', 'L']
  else if c = 'ﬃ' then ['F', 'F', 'I']
  else if c = 'ﬄ' then ['F', 'F', 'L']
  else if c = 'ﬅ' ∨ c = 'ﬆ' then ['S', 'T']
  else [c]

def upper (s : String) : String := String.ofList (s.toList.flatMap upperChar)

/-- `str.lower` on ASCII letters; the only other character with an ASCII image is the
Kelvin sign. -/
def lowerChar (c : Char) : Char := if c = '\u212a' then 'k' else c.toLower

def lower (s : String) : String := String.ofList (s.toList.map lowerChar)

/-- The characters `str.strip` removes. -/
def isSpace (c : Char) : Bool :=
  let n := c.toNat
  (9 ≤ n && n ≤ 13) || (28 ≤ n && n ≤ 32) || n == 0x85 || n == 0xa0 || n == 0x1680 ||
    (0x2000 ≤ n && n ≤ 0x200a) || n == 0x2028 || n == 0x2029 || n == 0x202f || n == 0x205f ||
    n == 0x3000

def strip (s : String) : String :=
  String.ofList (((s.toList.dropWhile isSpace).reverse.dropWhile isSpace).reverse)

def trueStrings : List String := ["1", "t", "true", "on", "y", "yes"]

/-- `strutils.bool_from_string(subject)` of a string, not strict. -/
def boolFromString (s : String) : Bool := trueStrings.contains (lower (strip s))

def falseStrings : List String := ["0", "f", "false", "off", "n", "no"]

/-- `strutils.bool_from_string(subject, strict=True)` of a string; `none` is its `ValueError`. -/
def strictBoolFromString (s : String) : Option Bool :=
  if trueStrings.contains (lower (strip s)) then some true
  else if falseStrings.contains (lower (strip s)) then some false
  else none

/-- `sub in s`. -/
def contains (s sub : String) : Bool := decide (sub.toList <:+: s.toList)

/-- The value of digits after an optional sign; `none` when there are none or other characters. -/
def intOf (sign : Int) (digits : List Char) : Option Int :=
  if digits ≠ [] ∧ digits.all Char.isDigit then some (sign * Nat.ofDigitChars 10 digits 0)
  else none

/-- `int(s)` of a string with ASCII digits; `none` is its `ValueError`. -/
def int (s : String) : Option Int :=
  match (strip s).toList with
  | '-' :: digits => intOf (-1) digits
  | '+' :: digits => intOf 1 digits
  | digits => intOf 1 digits

example : int " 1\n" = some 1 ∧ int "-12" = some (-12) ∧ int "yes" = none := by decide

/-! ## Words -/

open String in
/-- The scan of `splitOn` after the pieces in `acc`, with `m` read of the next one. -/
theorem splitOnAux_space (l m r : List Char) (acc : List String) :
    splitOnAux (ofList (l ++ m ++ r)) " " ⟨utf8Len l⟩ ⟨utf8Len l + utf8Len m⟩ 0 acc =
      acc.reverse ++ (List.splitOnPPrepend (· == ' ') r m.reverse).map ofList := by
  unfold splitOnAux
  simp only [List.append_assoc, String.atEnd_iff, rawEndPos_ofList, utf8Len_append,
    Pos.Raw.mk_le_mk, Nat.add_le_add_iff_left,
    (by omega : utf8Len m + utf8Len r ≤ utf8Len m ↔ utf8Len r = 0), utf8Len_eq_zero,
    List.reverse_cons]
  split
  · subst r
    simpa using extract_of_valid l m []
  · obtain ⟨c, r, rfl⟩ := r.exists_cons_of_ne_nil ‹_›
    have hGet := get_of_valid (l ++ m) (c :: r)
    have hNext := next_of_valid (l ++ m) c r
    have hExtract := extract_of_valid l m (c :: r)
    have hSep : Pos.Raw.get " " 0 = ' ' := by decide
    have hSepNext : Pos.Raw.next " " 0 = ⟨1⟩ := by decide
    have hSepEnd : (String.rawEndPos " " ≤ ⟨1⟩) = True := by decide
    have hZero : (0 : Pos.Raw) = ⟨0⟩ := rfl
    simp only [List.append_assoc, utf8Len_append, List.headD_cons] at hGet hNext hExtract
    rw [hGet, hSep, hSepNext, hNext]
    by_cases hSpace : c = ' '
    · subst hSpace
      have hSize : Char.utf8Size ' ' = 1 := by decide
      have ih := splitOnAux_space (l ++ m ++ [' ']) [] r (ofList m :: acc)
      simp only [beq_self_eq_true, if_true, hSepEnd, Pos.Raw.unoffsetBy, hSize,
        Nat.add_sub_cancel, hExtract]
      simp [hSize, List.splitOnPPrepend_cons_eq_if, ← Nat.add_assoc] at ih ⊢
      exact ih
    · have ih := splitOnAux_space l (m ++ [c]) r acc
      have hOther : (c == ' ') = false := by simpa using hSpace
      simp only [hOther, Pos.Raw.unoffsetBy, hZero, Nat.sub_zero, hNext]
      simp [List.splitOnPPrepend_cons_eq_if, hSpace, ← Nat.add_assoc] at ih ⊢
      exact ih
termination_by r.length

/-- `s.split(' ')`. -/
theorem splitOn_space (s : String) :
    s.splitOn " " = (s.toList.splitOnP (· == ' ')).map String.ofList := by
  simpa [String.splitOn] using splitOnAux_space [] [] s.toList []

/-- A command line begins with the word before its first space. -/
theorem head?_splitOn_space {word : String} (hWord : word.toList.all (· != ' ') = true)
    (rest : String) : ((word ++ " " ++ rest).splitOn " ").head? = some word := by
  have hNone : ∀ c ∈ word.toList, (c == ' ') = false := by
    intro c hMem
    simpa using List.all_eq_true.mp hWord c hMem
  have hSplit : (word ++ " " ++ rest).toList = word.toList ++ ' ' :: rest.toList := by
    simp [String.toList_append]
  rw [splitOn_space, hSplit, List.splitOnP_append_cons _ _ (by decide),
    List.splitOnP_eq_singleton hNone]
  simp

example : upper "Stopped" = "STOPPED" ∧ upper "ﬆarted" = "STARTED" := by decide

example : boolFromString " True\n" = true ∧ boolFromString "no" = false := by decide

end MasakariHA.Lib.PyString
