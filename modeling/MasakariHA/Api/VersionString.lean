import MasakariHA.Api.Versions
import MasakariHA.Lib.Decimal
import MasakariHA.Lib.Matcher

/-!
# The text of a version

The constructor of `APIVersionRequest` with its regular expression, `get_string`, and the comparison
operators.

* `versionRegex`, `init`: what is read;
* `getString`: what is written;
* `lt`, `eq`, `gt`, `le`, `ne`, `ge`: the operators;
* `Agrees`: what the docstrings say of them, and `agrees_iff`: when it is so.
-/

namespace MasakariHA.Api

open Lib Lib.Matcher

/-! ## Reading -/

/-- What `\d` and `int` go by: the decimal values of characters. Those of ASCII are the same in all
versions of Python. -/
structure Decimals where
  decimal : Char → Option Nat
  ascii : ∀ c : Char, c.toNat < 128 →
    decimal c = if c.isDigit then some (c.toNat - 48) else none

namespace Decimals

def isDigit (d : Decimals) (c : Char) : Bool := (d.decimal c).isSome

/-- `int` of a group of digits. -/
def int (d : Decimals) (digits : List Char) : Nat :=
  digits.foldl (fun n c => 10 * n + (d.decimal c).getD 0) 0

end Decimals

/-- `[1-9]\d*`. -/
def positiveRegex (d : Decimals) : Matcher (List Char) := do
  let c ← cls fun c => '1' ≤ c && c ≤ '9'
  let rest ← star d.isDigit
  pure (c :: rest)

/-- `^([1-9]\d*)\.([1-9]\d*|0)$`. -/
def versionRegex (d : Decimals) : Matcher (List Char × List Char) := do
  let major ← positiveRegex d
  lit ['.']
  let minor ← alt (positiveRegex d) (lit ['0'] >>= fun _ => pure ['0'])
  eolPython
  pure (major, minor)

namespace APIVersionRequest

/-- `__init__`. -/
def init (d : Decimals) : Option String → Except Exc APIVersionRequest
  | none => .ok null
  | some version =>
    match first (versionRegex d) version.toList with
    | some (major, minor) => .ok ⟨d.int major, d.int minor⟩
    | none =>
      .error (.raised .invalidAPIVersionString (s!"API Version String {version} is of invalid " ++
        "format. Must be of format MajorNum.MinorNum."))

def getString (v : APIVersionRequest) : Except Exc String :=
  if v.isNull then .error (.other "ValueError") else .ok s!"{v.verMajor}.{v.verMinor}"

/-! ## Operators -/

/-- `<` of tuples, which compares the first components that differ. -/
def tupleLt (a b : Nat × Nat) : Bool := if a.1 = b.1 then a.2 < b.2 else a.1 < b.1

def tupleEq (a b : Nat × Nat) : Bool := a.1 = b.1 && a.2 = b.2

def lt (v other : APIVersionRequest) : Bool :=
  tupleLt (v.verMajor, v.verMinor) (other.verMajor, other.verMinor)

def eq (v other : APIVersionRequest) : Bool :=
  tupleEq (v.verMajor, v.verMinor) (other.verMajor, other.verMinor)

def gt (v other : APIVersionRequest) : Bool :=
  tupleLt (other.verMajor, other.verMinor) (v.verMajor, v.verMinor)

def le (v other : APIVersionRequest) : Bool := v.lt other || v.eq other

def ne (v other : APIVersionRequest) : Bool := !v.eq other

def ge (v other : APIVersionRequest) : Bool := v.gt other || v.eq other

end APIVersionRequest

/-! ## What versions should do -/

/-- The form `X.Y` with a positive `X`. -/
def Canonical (s : String) : Prop := ∃ major minor : Nat, 1 ≤ major ∧ s = s!"{major}.{minor}"

/-- The order of the numbers. -/
def Before (v w : APIVersionRequest) : Prop :=
  v.verMajor < w.verMajor ∨ v.verMajor = w.verMajor ∧ v.verMinor < w.verMinor

/-- The two limits, of which a null one is open. -/
def Between (v minVersion maxVersion : APIVersionRequest) : Prop :=
  (minVersion.isNull = true ∨ Before minVersion v ∨ minVersion = v) ∧
    (maxVersion.isNull = true ∨ Before v maxVersion ∨ v = maxVersion)

/-- The string is accepted if it is of the form, and is printed again; the other fields are about
all versions that the class makes. -/
structure Agrees (d : Decimals) (s : String) : Prop where
  accepted : (∃ v, APIVersionRequest.init d (some s) = .ok v) ↔ Canonical s
  printed : ∀ v, APIVersionRequest.init d (some s) = .ok v → v.getString = .ok s
  parsed : ∀ made v, APIVersionRequest.init d made = .ok v → v.isNull = false →
    ∃ t, v.getString = .ok t ∧ APIVersionRequest.init d (some t) = .ok v
  lt : ∀ v w : APIVersionRequest, v.lt w = true ↔ Before v w
  le : ∀ v w : APIVersionRequest, v.le w = true ↔ Before v w ∨ v = w
  eq : ∀ v w : APIVersionRequest, v.eq w = true ↔ v = w
  ne : ∀ v w : APIVersionRequest, v.ne w = true ↔ v ≠ w
  ge : ∀ v w : APIVersionRequest, v.ge w = true ↔ Before w v ∨ v = w
  gt : ∀ v w : APIVersionRequest, v.gt w = true ↔ Before w v
  matched : ∀ v minVersion maxVersion : APIVersionRequest, v.isNull = false →
    ∃ b, v.versionMatches minVersion maxVersion = .ok b ∧
      (b = true ↔ Between v minVersion maxVersion)

/-! ## What the expression matches -/

section Expression

variable {d : Decimals} {s major minor : List Char}

/-- What `[1-9]\d*` matches. -/
def Positive (d : Decimals) (digits : List Char) : Prop :=
  ∃ c rest, digits = c :: rest ∧ ('1' ≤ c ∧ c ≤ '9') ∧ ∀ c ∈ rest, d.isDigit c = true

/-- The two groups, of any digits. -/
def Groups (d : Decimals) (major minor : List Char) : Prop :=
  Positive d major ∧ (Positive d minor ∨ minor = ['0'])

theorem mem_positiveRegex {digits rest : List Char} :
    (digits, rest) ∈ positiveRegex d s ↔ s = digits ++ rest ∧ Positive d digits := by
  unfold positiveRegex
  simp only [mem_bind, mem_cls, mem_star, mem_pure, Prod.mk.injEq, Bool.and_eq_true,
    decide_eq_true_eq]
  constructor
  · rintro ⟨c, _, ⟨rfl, hc⟩, run, _, ⟨rfl, hRun⟩, rfl, rfl⟩
    exact ⟨rfl, c, run, rfl, hc, hRun⟩
  · rintro ⟨rfl, c, run, rfl, hc, hRun⟩
    exact ⟨c, run ++ rest, ⟨rfl, hc⟩, run, rest, ⟨rfl, hRun⟩, rfl, rfl⟩

theorem mem_versionRegex {rest : List Char} :
    ((major, minor), rest) ∈ versionRegex d s ↔
      Groups d major minor ∧ s = major ++ '.' :: (minor ++ rest) ∧ (rest = [] ∨ rest = ['\n']) := by
  have hMinor : ∀ digits rest t, (digits, rest) ∈
      alt (positiveRegex d) (lit ['0'] >>= fun _ => pure ['0']) t ↔
        t = digits ++ rest ∧ (Positive d digits ∨ digits = ['0']) := by
    intro digits rest t
    simp only [mem_alt, mem_positiveRegex, mem_bind, mem_lit, mem_pure, Prod.mk.injEq]
    constructor
    · rintro (⟨rfl, hDigits⟩ | ⟨_, _, rfl, rfl, rfl⟩)
      · exact ⟨rfl, Or.inl hDigits⟩
      · exact ⟨rfl, Or.inr rfl⟩
    · rintro ⟨rfl, hDigits | rfl⟩
      · exact Or.inl ⟨rfl, hDigits⟩
      · exact Or.inr ⟨(), rest, rfl, rfl, rfl⟩
  unfold versionRegex Groups
  simp only [mem_bind, mem_positiveRegex, hMinor, mem_lit, mem_eolPython, mem_pure, Prod.mk.injEq]
  constructor
  · rintro ⟨_, _, ⟨rfl, hMajor⟩, _, _, rfl, _, _, ⟨rfl, hMinor⟩, _, _, ⟨hEnd, rfl⟩, ⟨rfl, rfl⟩, rfl⟩
    exact ⟨⟨hMajor, hMinor⟩, rfl, hEnd⟩
  · rintro ⟨⟨hMajor, hMinor⟩, rfl, hEnd⟩
    exact ⟨major, _, ⟨rfl, hMajor⟩, (), _, rfl, minor, rest, ⟨rfl, hMinor⟩, (), rest, ⟨hEnd, rfl⟩,
      ⟨rfl, rfl⟩, rfl⟩

end Expression

/-! ## Numbers of ASCII digits -/

section Ascii

variable {d : Decimals} {s digits major minor : List Char}

theorem isDigit_ascii {c : Char} (hc : c.toNat < 128) : d.isDigit c = c.isDigit := by
  unfold Decimals.isDigit
  rw [d.ascii c hc]
  split
  · rename_i hDigit
    exact hDigit.symm
  · rename_i hDigit
    simpa using hDigit

theorem lt_of_isDigit {c : Char} (h : c.isDigit = true) : c.toNat < 128 :=
  (Char.isDigit_iff_toNat.mp h).2.trans_lt (by decide)

theorem isDigit_of_between {c : Char} (h : '1' ≤ c ∧ c ≤ '9') : c.isDigit = true ∧ c ≠ '0' := by
  have hFrom : '1'.toNat ≤ c.toNat := h.1
  have hTo : c.toNat ≤ '9'.toNat := h.2
  refine ⟨Char.isDigit_iff_toNat.mpr ⟨le_trans (by decide) hFrom, hTo⟩, ?_⟩
  rintro rfl
  exact absurd hFrom (by decide)

/-- Of ASCII characters, the expression matches what positive numbers are written as. -/
theorem positive_iff_numeral (hAscii : ∀ c ∈ digits, c.toNat < 128) :
    Positive d digits ↔ Numeral digits := by
  constructor
  · rintro ⟨c, rest, rfl, hc, hRest⟩
    obtain ⟨hDigit, hZero⟩ := isDigit_of_between hc
    refine ⟨List.cons_ne_nil _ _, ?_, by simpa using hZero⟩
    intro c' hc'
    rcases List.mem_cons.mp hc' with rfl | hMem
    · exact hDigit
    · rw [← isDigit_ascii (hAscii c' hc')]
      exact hRest c' hMem
  · rintro ⟨hNil, hDigits, hHead⟩
    obtain ⟨c, rest, rfl⟩ := List.exists_cons_of_ne_nil hNil
    obtain ⟨hFrom, hTo⟩ := Char.isDigit_iff_toNat.mp (hDigits c List.mem_cons_self)
    have hZero : c.toNat ≠ '0'.toNat := by
      intro hEq
      exact hHead (congrArg some (Char.toNat_inj.mp hEq))
    refine ⟨c, rest, rfl, ⟨?_, hTo⟩, fun c' hc' => ?_⟩
    · change '0'.toNat + 1 ≤ c.toNat
      omega
    · rw [isDigit_ascii (hAscii c' (List.mem_cons_of_mem c hc'))]
      exact hDigits c' (List.mem_cons_of_mem c hc')

theorem int_eq_ofDigitChars (hDigits : ∀ c ∈ digits, c.isDigit = true) :
    d.int digits = Nat.ofDigitChars 10 digits 0 := by
  unfold Decimals.int
  rw [Nat.ofDigitChars_eq_foldl]
  refine List.foldl_ext _ _ _ fun n c hc => ?_
  have hDigit := hDigits c hc
  rw [d.ascii c (lt_of_isDigit hDigit), if_pos hDigit]
  rfl

/-- A group of ASCII digits is how its value is written. -/
theorem toDigits_int (h : Positive d digits ∨ digits = ['0'])
    (hAscii : ∀ c ∈ digits, c.toNat < 128) : Nat.toDigits 10 (d.int digits) = digits := by
  rcases h with hPositive | rfl
  · have hNumeral := (positive_iff_numeral hAscii).mp hPositive
    rw [int_eq_ofDigitChars hNumeral.2.1]
    exact (toDigits_ofDigitChars hNumeral).2
  · rw [int_eq_ofDigitChars (List.forall_mem_singleton.mpr (by decide))]
    rfl

theorem int_pos (h : Positive d digits) : 1 ≤ d.int digits := by
  obtain ⟨c, rest, rfl, hc, -⟩ := h
  have hGrows : ∀ (t : List Char) (n : Nat), 1 ≤ n →
      1 ≤ t.foldl (fun n c => 10 * n + (d.decimal c).getD 0) n := by
    intro t
    induction t with
    | nil => exact fun _ hn => hn
    | cons c t ih =>
      intro n hn
      have hNext : 1 ≤ 10 * n + (d.decimal c).getD 0 := by omega
      exact ih _ hNext
  obtain ⟨hDigit, hZero⟩ := isDigit_of_between hc
  have hFirst : 1 ≤ 10 * 0 + (d.decimal c).getD 0 := by
    rw [d.ascii c (lt_of_isDigit hDigit), if_pos hDigit, Option.getD_some]
    have hFrom : '1'.toNat ≤ c.toNat := hc.1
    have hOne : '1'.toNat = 49 := rfl
    omega
  exact hGrows rest _ hFirst

theorem int_toDigits (d : Decimals) (n : Nat) : d.int (Nat.toDigits 10 n) = n := by
  rw [int_eq_ofDigitChars fun c => Nat.isDigit_of_mem_toDigits (by decide) (by decide)]
  exact Nat.ofDigitChars_ten_toDigits

theorem ascii_toDigits {n : Nat} : ∀ c ∈ Nat.toDigits 10 n, c.toNat < 128 :=
  fun _ hc => lt_of_isDigit (Nat.isDigit_of_mem_toDigits (by decide) (by decide) hc)

theorem groups_toDigits {x y : Nat} (hx : 1 ≤ x) :
    Groups d (Nat.toDigits 10 x) (Nat.toDigits 10 y) := by
  refine ⟨(positive_iff_numeral ascii_toDigits).mpr (numeral_toDigits hx), ?_⟩
  cases y with
  | zero => exact Or.inr (Nat.toDigits_zero 10)
  | succ y =>
    exact Or.inl ((positive_iff_numeral ascii_toDigits).mpr (numeral_toDigits y.succ_pos))

end Ascii

/-! ## The round trip -/

section RoundTrip

variable {d : Decimals} {s : String} {v w : APIVersionRequest}

/-- The string is of the form but for a digit that is not of ASCII, or a line feed at its end. -/
def Lax (d : Decimals) (s : String) : Prop :=
  ∃ major minor, Groups d major minor ∧
    (s.toList = major ++ '.' :: minor ++ ['\n'] ∨
      s.toList = major ++ '.' :: minor ∧ ∃ c ∈ major ++ minor, 128 ≤ c.toNat)

theorem toList_form (x y : Nat) :
    s!"{x}.{y}".toList = Nat.toDigits 10 x ++ '.' :: Nat.toDigits 10 y := by
  change (toString x ++ "." ++ toString y).toList = _
  simp only [String.toList_append, Nat.toString_eq_repr, Nat.toList_repr]
  exact List.append_assoc _ _ _

theorem canonical_iff : Canonical s ↔
    ∃ x y, 1 ≤ x ∧ s.toList = Nat.toDigits 10 x ++ '.' :: Nat.toDigits 10 y := by
  constructor
  · rintro ⟨x, y, hx, rfl⟩
    exact ⟨x, y, hx, toList_form x y⟩
  · rintro ⟨x, y, hx, hs⟩
    exact ⟨x, y, hx, String.toList_inj.mp (hs.trans (toList_form x y).symm)⟩

theorem init_some (h : APIVersionRequest.init d (some s) = .ok v) :
    ∃ major minor ending, Groups d major minor ∧ s.toList = major ++ '.' :: (minor ++ ending) ∧
      (ending = [] ∨ ending = ['\n']) ∧ v = ⟨d.int major, d.int minor⟩ := by
  rw [APIVersionRequest.init] at h
  split at h
  · rename_i major minor hFirst
    obtain ⟨ending, hMem⟩ := exists_of_first hFirst
    obtain ⟨hGroups, hSplit, hEnding⟩ := mem_versionRegex.mp hMem
    exact ⟨major, minor, ending, hGroups, hSplit, hEnding, (Except.ok.inj h).symm⟩
  · cases h

theorem accepted_of_groups {major minor ending : List Char} (hGroups : Groups d major minor)
    (hSplit : s.toList = major ++ '.' :: (minor ++ ending))
    (hEnding : ending = [] ∨ ending = ['\n']) :
    ∃ v, APIVersionRequest.init d (some s) = .ok v := by
  have hMem := mem_versionRegex.mpr ⟨hGroups, hSplit, hEnding⟩
  cases hFirst : first (versionRegex d) s.toList with
  | none => exact absurd hMem (first_eq_none.mp hFirst _)
  | some groups => exact ⟨_, by rw [APIVersionRequest.init, hFirst]⟩

/-- What is of the form is read as its two numbers. -/
theorem init_form {x y : Nat} (hx : 1 ≤ x)
    (hs : s.toList = Nat.toDigits 10 x ++ '.' :: Nat.toDigits 10 y) :
    APIVersionRequest.init d (some s) = .ok ⟨x, y⟩ := by
  have hSplit : s.toList = Nat.toDigits 10 x ++ '.' :: (Nat.toDigits 10 y ++ []) := by
    rw [hs, List.append_nil]
  obtain ⟨v, hv⟩ := accepted_of_groups (groups_toDigits hx) hSplit (Or.inl rfl)
  obtain ⟨major, minor, ending, -, hSame, hEnding, rfl⟩ := init_some hv
  rw [hs, List.append_cons_inj_of_notMem (notMem_toDigits rfl x) (notMem_toDigits rfl y)] at hSame
  obtain ⟨rfl, -, hMinor⟩ := hSame
  have hNil : ending = [] := by
    refine hEnding.resolve_right ?_
    rintro rfl
    exact notMem_toDigits rfl y (hMinor ▸ List.mem_append_right minor List.mem_cons_self)
  rw [hNil, List.append_nil] at hMinor
  rw [hv, ← hMinor, int_toDigits, int_toDigits]

theorem isNull_eq_false (h : 1 ≤ v.verMajor) : v.isNull = false := by
  unfold APIVersionRequest.isNull
  rw [decide_eq_false (by omega)]
  rfl

theorem one_le_verMajor (h : APIVersionRequest.init d (some s) = .ok v) : 1 ≤ v.verMajor := by
  obtain ⟨major, minor, ending, hGroups, -, -, rfl⟩ := init_some h
  exact int_pos hGroups.1

theorem getString_eq (h : 1 ≤ v.verMajor) : v.getString = .ok s!"{v.verMajor}.{v.verMinor}" := by
  rw [APIVersionRequest.getString, isNull_eq_false h]
  rfl

/-- A version that was read is written as it is read again. -/
theorem parsed_getString {made : Option String} (h : APIVersionRequest.init d made = .ok v)
    (hNull : v.isNull = false) :
    ∃ t, v.getString = .ok t ∧ APIVersionRequest.init d (some t) = .ok v := by
  cases made with
  | none =>
    cases h
    cases hNull
  | some s =>
    have hPos := one_le_verMajor h
    exact ⟨_, getString_eq hPos, init_form hPos (toList_form _ _)⟩

/-- A string that is accepted and not lax is how its version is written. -/
theorem form_of_init (h : APIVersionRequest.init d (some s) = .ok v) (hLax : ¬ Lax d s) :
    s.toList = Nat.toDigits 10 v.verMajor ++ '.' :: Nat.toDigits 10 v.verMinor := by
  obtain ⟨major, minor, ending, hGroups, hSplit, hEnding, rfl⟩ := init_some h
  rcases hEnding with rfl | rfl
  · rw [List.append_nil] at hSplit
    have hAscii : ∀ c ∈ major ++ minor, c.toNat < 128 := by
      intro c hc
      by_contra hWide
      exact hLax ⟨major, minor, hGroups, Or.inr ⟨hSplit, c, hc, Nat.le_of_not_lt hWide⟩⟩
    obtain ⟨hMajor, hMinor⟩ := List.forall_mem_append.mp hAscii
    rw [hSplit, toDigits_int (Or.inl hGroups.1) hMajor, toDigits_int hGroups.2 hMinor]
  · refine absurd ⟨major, minor, hGroups, Or.inl ?_⟩ hLax
    rw [hSplit, List.append_assoc, List.cons_append]

theorem accepted_of_lax (h : Lax d s) : ∃ v, APIVersionRequest.init d (some s) = .ok v := by
  obtain ⟨major, minor, hGroups, hSplit | ⟨hSplit, -⟩⟩ := h
  · rw [List.append_assoc, List.cons_append] at hSplit
    exact accepted_of_groups hGroups hSplit (Or.inr rfl)
  · rw [← List.append_nil minor] at hSplit
    exact accepted_of_groups hGroups hSplit (Or.inl rfl)

theorem not_canonical_of_lax (h : Lax d s) : ¬ Canonical s := by
  intro hCanonical
  obtain ⟨x, y, -, hs⟩ := canonical_iff.mp hCanonical
  have hAscii : ∀ c ∈ s.toList, c.toNat < 128 := by
    intro c hc
    rw [hs, List.mem_append, List.mem_cons] at hc
    rcases hc with hMajor | rfl | hMinor
    · exact ascii_toDigits c hMajor
    · decide
    · exact ascii_toDigits c hMinor
  have hLine : '\n' ∉ s.toList := by
    rw [hs, List.mem_append, List.mem_cons]
    rintro (hMajor | hDot | hMinor)
    · exact notMem_toDigits rfl x hMajor
    · exact absurd hDot (by decide)
    · exact notMem_toDigits rfl y hMinor
  obtain ⟨major, minor, -, hSplit | ⟨hSplit, c, hc, hWide⟩⟩ := h
  · exact hLine (by simp [hSplit])
  · have hMem : c ∈ s.toList := by
      rw [hSplit, List.mem_append, List.mem_cons]
      rcases List.mem_append.mp hc with hMajor | hMinor
      · exact Or.inl hMajor
      · exact Or.inr (Or.inr hMinor)
    exact absurd (hAscii c hMem) (Nat.not_lt_of_le hWide)

end RoundTrip

/-! ## The order -/

section Order

open APIVersionRequest

variable {v w : APIVersionRequest}

theorem tupleLt_iff {a b : Nat × Nat} :
    tupleLt a b = true ↔ a.1 < b.1 ∨ a.1 = b.1 ∧ a.2 < b.2 := by
  unfold tupleLt
  split <;>
  · rw [decide_eq_true_eq]
    omega

theorem lt_iff : v.lt w = true ↔ Before v w := tupleLt_iff

theorem gt_iff : v.gt w = true ↔ Before w v := tupleLt_iff

theorem eq_iff : v.eq w = true ↔ v = w := by
  obtain ⟨x, y⟩ := v
  obtain ⟨x', y'⟩ := w
  simp [eq, tupleEq]

theorem ne_iff : v.ne w = true ↔ v ≠ w := by
  rw [ne, Bool.not_eq_true', ← Bool.not_eq_true, eq_iff]

theorem le_iff : v.le w = true ↔ Before v w ∨ v = w := by
  rw [le, Bool.or_eq_true, lt_iff, eq_iff]

theorem ge_iff : v.ge w = true ↔ Before w v ∨ v = w := by
  rw [ge, Bool.or_eq_true, gt_iff, eq_iff]

/-- The order of the pairs, by which `matches` compares. -/
theorem le_iff_before : v ≤ w ↔ Before v w ∨ v = w := by
  change v.pair ≤ w.pair ↔ _
  rw [le_iff_lt_or_eq, pair_injective.eq_iff]
  exact or_congr_left Prod.Lex.toLex_lt_toLex

theorem versionMatches_between {minVersion maxVersion : APIVersionRequest}
    (hNull : v.isNull = false) : ∃ b, v.versionMatches minVersion maxVersion = .ok b ∧
      (b = true ↔ Between v minVersion maxVersion) := by
  unfold versionMatches Between
  rw [hNull, if_neg Bool.false_ne_true]
  cases hMin : minVersion.isNull <;> cases hMax : maxVersion.isNull
  all_goals simp [le_iff_before]

end Order

/-- The texts of versions agree exactly on the strings that are not lax. -/
theorem agrees_iff (d : Decimals) (s : String) : Agrees d s ↔ ¬ Lax d s := by
  constructor
  · exact fun h hLax => not_canonical_of_lax hLax (h.accepted.mp (accepted_of_lax hLax))
  · intro hLax
    constructor
    · constructor
      · rintro ⟨v, hv⟩
        exact canonical_iff.mpr ⟨_, _, one_le_verMajor hv, form_of_init hv hLax⟩
      · intro hCanonical
        obtain ⟨x, y, hx, hs⟩ := canonical_iff.mp hCanonical
        exact ⟨⟨x, y⟩, init_form hx hs⟩
    · intro v hv
      rw [getString_eq (one_le_verMajor hv)]
      refine congrArg Except.ok (String.toList_inj.mp ?_)
      rw [toList_form, form_of_init hv hLax]
    · exact fun made v => parsed_getString
    · exact fun v w => lt_iff
    · exact fun v w => le_iff
    · exact fun v w => eq_iff
    · exact fun v w => ne_iff
    · exact fun v w => ge_iff
    · exact fun v w => gt_iff
    · exact fun v minVersion maxVersion => versionMatches_between

/-! ## A line feed at the end -/

/-- The decimal values of Python 2. -/
def asciiDecimals : Decimals where
  decimal c := if c.isDigit then some (c.toNat - 48) else none
  ascii _ _ := rfl

/-- Whatever the string, the texts of versions agree. -/
def AlwaysAgrees (d : Decimals) : Prop := ∀ s, Agrees d s

/-- `"1.0\n"` is accepted. -/
theorem not_alwaysAgrees : ¬ AlwaysAgrees asciiDecimals := by
  intro h
  have hLax : Lax asciiDecimals "1.0\n" := by
    refine ⟨['1'], ['0'], ⟨⟨'1', [], rfl, by decide, nofun⟩, Or.inr rfl⟩, Or.inl ?_⟩
    decide
  exact not_canonical_of_lax hLax ((h _).accepted.mp (accepted_of_lax hLax))

end MasakariHA.Api
