import Mathlib.Tactic.Common

/-!
# Python regular expressions

`re.search` for patterns that are a sequence of anchors, looks at one character, and repeated
character classes. A string is the list of its characters by their code points; a place in it is
given by the characters before it, the nearest first, and those after it.

* `ClassToken`, `classItems`: what stands between the brackets of a class;
* `Escaping`, `readClass`: its text, and the tokens that are read from it;
* `Part`, `matchAt`, `search`: a pattern, with backtracking;
* `starThen_iff`, `search_bol`: the rules of a repeated class and of the anchor `^`.
-/

namespace MasakariHA.Lib.PyRegex

/-! ## Character classes -/

/-- What a class is written with: characters, which may be escaped, and the sign between the ends of
a range. -/
inductive ClassToken where
  | lit (c : Nat)
  | dash
  deriving DecidableEq, Repr

/-- The ranges of a class; a sign without two ends stands for itself. -/
def classItems : List ClassToken → List (Nat × Nat)
  | .lit a :: .dash :: .lit b :: rest => (a, b) :: classItems rest
  | .lit a :: rest => (a, a) :: classItems rest
  | .dash :: rest => (45, 45) :: classItems rest
  | [] => []

def inItems (items : List (Nat × Nat)) (c : Nat) : Bool :=
  items.any fun r => r.1 ≤ c && c ≤ r.2

def inClass (tokens : List ClassToken) (c : Nat) : Bool := inItems (classItems tokens) c

/-- How a range is written: one character, or its ends. -/
def writeItem (r : Nat × Nat) : List ClassToken :=
  if r.1 = r.2 then [.lit r.1] else [.lit r.1, .dash, .lit r.2]

theorem classItems_lit {a : Nat} {rest : List ClassToken} (h : rest.head? ≠ some .dash) :
    classItems (.lit a :: rest) = (a, a) :: classItems rest := by
  cases rest with
  | nil => rfl
  | cons t rest =>
    cases t with
    | dash => exact absurd rfl h
    | lit b => rfl

theorem classItems_writeItem (r : Nat × Nat) {rest : List ClassToken}
    (h : rest.head? ≠ some .dash) : classItems (writeItem r ++ rest) = r :: classItems rest := by
  unfold writeItem
  split
  · rename_i hOne
    rw [List.singleton_append, classItems_lit h]
    exact congrArg (· :: _) (Prod.ext rfl hOne)
  · rfl

theorem head?_writeItem (r : Nat × Nat) (rest : List ClassToken) :
    (writeItem r ++ rest).head? = some (.lit r.1) := by
  unfold writeItem
  split <;> rfl

/-- Ranges that were written are read again. -/
theorem classItems_write (items : List (Nat × Nat)) {rest : List ClassToken}
    (h : rest.head? ≠ some .dash) :
    classItems (items.flatMap writeItem ++ rest) = items ++ classItems rest := by
  induction items with
  | nil => rfl
  | cons r items ih =>
    have hHead : (items.flatMap writeItem ++ rest).head? ≠ some .dash := by
      cases items with
      | nil => exact h
      | cons r' items =>
        rw [List.flatMap_cons, List.append_assoc, head?_writeItem]
        simp
    rw [List.flatMap_cons, List.append_assoc, List.cons_append, ← ih, classItems_writeItem r hHead]

theorem inItems_append {items items' : List (Nat × Nat)} {c : Nat} :
    inItems (items ++ items') c = (inItems items c || inItems items' c) := List.any_append

theorem inItems_singleton {a b c : Nat} :
    inItems [(a, b)] c = true ↔ a ≤ c ∧ c ≤ b := by
  simp [inItems]

/-! ## The text of a class -/

def isAlnum (c : Nat) : Bool := (48 ≤ c && c ≤ 57) || (65 ≤ c && c ≤ 90) || (97 ≤ c && c ≤ 122)

/-- Which characters `re.escape` writes behind a backslash. The versions of Python differ in them;
no letter or digit is among them, and every sign with a meaning in a class is. -/
structure Escaping where
  special : Nat → Bool
  alnum : ∀ c, isAlnum c = true → special c = false
  signs : ∀ c ∈ [45, 92, 93, 94], special c = true

/-- `re.escape` of one character. -/
def Escaping.escape (e : Escaping) (c : Nat) : List Nat :=
  if e.special c then
    -- the null character by its number
    if c = 0 then [92, 48, 48, 48] else [92, c]
  else [c]

def ClassToken.text (e : Escaping) : ClassToken → List Nat
  | .lit c => e.escape c
  | .dash => [45]

def readTokens : List Nat → Option (List ClassToken)
  | [] => some []
  | 92 :: 48 :: 48 :: 48 :: text => (readTokens text).map (.lit 0 :: ·)
  -- a backslash before a letter or a digit has another meaning
  | 92 :: c :: text => if isAlnum c then none else (readTokens text).map (.lit c :: ·)
  | 45 :: text => (readTokens text).map (.dash :: ·)
  | c :: text => if c = 92 ∨ c = 93 then none else (readTokens text).map (.lit c :: ·)

/-- The text between the brackets of a class, if it is one of listed characters and ranges. There is
no empty class: a bracket right after the first one is a character. -/
def readClass (text : List Nat) : Option (List ClassToken) :=
  if text = [] ∨ text.head? = some 94 then none else readTokens text

section Text

variable {e : Escaping}

theorem Escaping.not_special {c : Nat} (h : e.special c = false) :
    c ≠ 45 ∧ c ≠ 92 ∧ c ≠ 93 ∧ c ≠ 94 := by
  have hSigns := fun hc => h.symm.trans (e.signs c hc)
  simp at hSigns
  tauto

theorem readTokens_escape (c : Nat) (text : List Nat) :
    readTokens (e.escape c ++ text) = (readTokens text).map (.lit c :: ·) := by
  unfold Escaping.escape
  split
  · rename_i hSpecial
    split
    · rename_i hNull
      subst hNull
      rfl
    · have hAlnum : isAlnum c = false := by
        by_contra hAlnum
        rw [e.alnum c (by simpa using hAlnum)] at hSpecial
        exact Bool.false_ne_true hSpecial
      have hDigit : c ≠ 48 := by
        rintro rfl
        exact Bool.false_ne_true hAlnum.symm
      simp [readTokens, hDigit, hAlnum]
  · rename_i hPlain
    obtain ⟨hDash, hBackslash, hBracket, -⟩ := Escaping.not_special (by simpa using hPlain)
    simp [readTokens, hBackslash, hBracket]

theorem Escaping.escape_ne_nil (c : Nat) : e.escape c ≠ [] := by
  unfold Escaping.escape
  split
  · split <;> simp
  · exact List.cons_ne_nil _ _

theorem ClassToken.text_ne_nil (token : ClassToken) : token.text e ≠ [] := by
  cases token with
  | lit c => exact Escaping.escape_ne_nil c
  | dash => exact List.cons_ne_nil _ _

theorem readTokens_text (tokens : List ClassToken) :
    readTokens (tokens.flatMap (ClassToken.text e)) = some tokens := by
  induction tokens with
  | nil => rfl
  | cons token tokens ih =>
    cases token with
    | lit c => rw [List.flatMap_cons, ClassToken.text, readTokens_escape, ih, Option.map_some]
    | dash => simp [ClassToken.text, readTokens, ih]

theorem readClass_nil : readClass [] = none := if_pos (Or.inl rfl)

/-- The text of a class is read as what it was written for. -/
theorem readClass_text {tokens : List ClassToken} (h : tokens ≠ []) :
    readClass (tokens.flatMap (ClassToken.text e)) = some tokens := by
  obtain ⟨token, rest, rfl⟩ := List.exists_cons_of_ne_nil h
  have hText : (token :: rest).flatMap (ClassToken.text e) ≠ [] := by
    rw [List.flatMap_cons]
    exact List.append_ne_nil_of_left_ne_nil (ClassToken.text_ne_nil token) _
  have hHead : ((token :: rest).flatMap (ClassToken.text e)).head? ≠ some 94 := by
    rw [List.flatMap_cons]
    cases token with
    | lit c =>
      rw [ClassToken.text, Escaping.escape]
      split
      · split <;> simp
      · rename_i hPlain
        have hNot := Escaping.not_special (c := c) (by simpa using hPlain)
        simp [hNot]
    | dash => simp [ClassToken.text]
  rw [readClass, if_neg (not_or.mpr ⟨hText, hHead⟩), readTokens_text]

end Text

/-! ## Patterns -/

inductive Part where
  /-- `^` -/
  | bol
  /-- `$` -/
  | eol
  /-- `(?![...])` -/
  | notAhead (tokens : List ClassToken)
  /-- `(?<![...])` -/
  | notBehind (tokens : List ClassToken)
  /-- `[...]*` -/
  | star (tokens : List ClassToken)

/-- A line feed. -/
def newline : Nat := 10

/-- A repeated class takes as many characters as it can, and gives them back where what follows
does not match. -/
def starThen (p : Nat → Bool) (k : List Nat → List Nat → Bool) :
    List Nat → List Nat → Bool
  | before, [] => k before []
  | before, c :: after => (p c && starThen p k (c :: before) after) || k before (c :: after)

/-- The pattern matches at a place. -/
def matchAt : List Part → List Nat → List Nat → Bool
  | [], _, _ => true
  | .bol :: parts, before, after => before.isEmpty && matchAt parts before after
  | .eol :: parts, before, after =>
    -- also before a line feed that ends the string
    (after.isEmpty || after == [newline]) && matchAt parts before after
  | .notAhead tokens :: parts, before, after =>
    !after.head?.any (inClass tokens) && matchAt parts before after
  | .notBehind tokens :: parts, before, after =>
    !before.head?.any (inClass tokens) && matchAt parts before after
  | .star tokens :: parts, before, after =>
    starThen (inClass tokens) (matchAt parts) before after

/-- The pattern matches at a place from this one on. -/
def searchFrom (parts : List Part) (before : List Nat) : List Nat → Bool
  | [] => matchAt parts before []
  | c :: after => matchAt parts before (c :: after) || searchFrom parts (c :: before) after

/-- `re.search(pattern, s) is not None`. -/
def search (parts : List Part) (s : List Nat) : Bool := searchFrom parts [] s

section Rules

variable {p : Nat → Bool} {k : List Nat → List Nat → Bool} {parts : List Part}
  {before after s : List Nat}

theorem starThen_iff : starThen p k before after = true ↔
    ∃ t rest, after = t ++ rest ∧ (∀ c ∈ t, p c = true) ∧
      k (t.reverse ++ before) rest = true := by
  induction after generalizing before with
  | nil =>
    rw [starThen]
    constructor
    · exact fun hk => ⟨[], [], rfl, nofun, hk⟩
    · rintro ⟨t, rest, hSplit, -, hk⟩
      obtain ⟨rfl, rfl⟩ := List.nil_eq_append_iff.mp hSplit
      exact hk
  | cons c after ih =>
    rw [starThen, Bool.or_eq_true, Bool.and_eq_true, ih]
    constructor
    · rintro (⟨hc, t, rest, rfl, ht, hk⟩ | hk)
      · refine ⟨c :: t, rest, rfl, List.forall_mem_cons.mpr ⟨hc, ht⟩, ?_⟩
        rwa [List.reverse_cons, List.append_assoc]
      · exact ⟨[], c :: after, rfl, nofun, hk⟩
    · rintro ⟨t, rest, hSplit, ht, hk⟩
      cases t with
      | nil =>
        rw [List.nil_append] at hSplit
        subst hSplit
        exact Or.inr hk
      | cons c' t =>
        obtain ⟨rfl, rfl⟩ := List.cons.inj hSplit
        obtain ⟨hc, ht⟩ := List.forall_mem_cons.mp ht
        rw [List.reverse_cons, List.append_assoc] at hk
        exact Or.inl ⟨hc, t, rest, rfl, ht, hk⟩

/-- Past the first character `^` matches nowhere. -/
theorem searchFrom_bol (h : before ≠ []) : searchFrom (.bol :: parts) before after = false := by
  have hMatch : ∀ before' after', before' ≠ [] →
      matchAt (.bol :: parts) before' after' = false := by
    intro before' after' hBefore
    simp [matchAt, hBefore]
  induction after generalizing before with
  | nil => exact hMatch _ _ h
  | cons c after ih =>
    rw [searchFrom, hMatch _ _ h, ih (List.cons_ne_nil _ _)]
    rfl

/-- A pattern that begins with `^` matches at the start or not at all. -/
theorem search_bol : search (.bol :: parts) s = matchAt parts [] s := by
  cases s with
  | nil => simp [search, searchFrom, matchAt]
  | cons c s =>
    rw [search, searchFrom, searchFrom_bol (List.cons_ne_nil _ _)]
    simp [matchAt]

end Rules

end MasakariHA.Lib.PyRegex
