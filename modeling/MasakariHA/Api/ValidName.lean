import MasakariHA.Exception
import MasakariHA.Lib.PyRegex

/-!
# The format of a name

`_validate_name` of `api/validation/validators.py`, with the regular expression that
`api/validation/parameter_types.py` builds for it out of the categories of the characters.

* `buildRegexRange`: the loop that writes a character class, with `inClass_writeRanges_of_mem`;
* `rangeText`: the text of the class, and `denotes_rangeText_iff`: when it denotes what it should;
* `validateName`: the checker;
* `ValidName`: what a name should be, and `decidesName_iff`: when the checker decides it.
-/

namespace MasakariHA.Api

open Lib.PyRegex

/-- The general categories of Unicode. -/
inductive Category
  | lu | ll | lt | lm | lo | mn | mc | me | nd | nl | no | pc | pd | ps | pe | pi | pf | po
  | sm | sc | sk | so | zs | zl | zp | cc | cf | cs | co | cn
  deriving DecidableEq, Repr

namespace Category

/-- `category.startswith("C")`. -/
def isOther : Category → Bool
  | .cc | .cf | .cs | .co | .cn => true
  | _ => false

/-- `category.startswith("Z")`. -/
def isSeparator : Category → Bool
  | .zs | .zl | .zp => true
  | _ => false

end Category

/-- The table behind `unicodedata.category`, in which a line feed is a control character. -/
structure UnicodeData where
  category : Nat → Category
  newline : category newline = .cc

/-! ## The regular expression -/

/-- `_get_all_chars`. -/
def getAllChars : List Nat := List.range 0xFFFF

section Ranges

variable (u : UnicodeData)

def isPrintable (c : Nat) : Bool :=
  !(u.category c).isOther && (!(u.category c).isSeparator || u.category c = .zs)

def validChar (ws invert : Bool) (exclude : List Nat) (c : Nat) : Bool :=
  let result :=
    if c ∈ exclude then false
    else if ws then isPrintable u c
    else isPrintable u c && u.category c ≠ .zs
  if invert then !result else result

/-- The variables of the loop of `_build_regex_range`. -/
structure RangeLoop where
  regex : List ClassToken
  inRange : Bool
  last : Option Nat
  lastAdded : Option Nat

/-- `"-" + re.escape(c)`. -/
def closeRange (c : Option Nat) : List ClassToken := c.toList.flatMap fun c => [.dash, .lit c]

def RangeLoop.step (valid : Nat → Bool) (s : RangeLoop) (c : Nat) : RangeLoop :=
  if valid c then
    if s.inRange then { s with last := some c }
    else ⟨s.regex ++ [.lit c], true, some c, some c⟩
  else if s.inRange ∧ s.last ≠ s.lastAdded then
    ⟨s.regex ++ closeRange s.last, false, some c, s.lastAdded⟩
  else { s with inRange := false, last := some c }

/-- The loop over all characters; a range that is open at the end is closed with the last one. -/
def writeRanges (valid : Nat → Bool) (chars : List Nat) : List ClassToken :=
  let s := chars.foldl (RangeLoop.step valid) ⟨[], false, none, none⟩
  if s.inRange then s.regex ++ closeRange s.last else s.regex

/-- `_build_regex_range`. -/
def buildRegexRange (ws invert : Bool) (exclude : List Nat) : List ClassToken :=
  writeRanges (validChar u ws invert exclude) getAllChars

/-- `valid_name_regex.regex`: `^(?![%s])[%s]*(?<![%s])$`. -/
def validNameRegex : List Part :=
  [.bol, .notAhead (buildRegexRange u false true []), .star (buildRegexRange u true false []),
    .notBehind (buildRegexRange u false true []), .eol]

/-- `valid_name_regex.reason`. -/
def validNameReason : String := "printable characters. Can not start or end with whitespace."

/-- `_validate_name` of a string. -/
def validateName (s : List Nat) : Except Exc Unit :=
  if search (validNameRegex u) s then .ok ()
  else .error (.raised .invalidName
    ("An invalid 'name' value was provided. The name must be: " ++ validNameReason))

/-! ## What a name should be -/

def isWhitespace (c : Nat) : Bool := u.category c = .zs

/-- All characters are printable, and those at the ends are no whitespace. -/
def ValidName (s : List Nat) : Prop :=
  (∀ c ∈ s, isPrintable u c = true) ∧
    (∀ c, s.head? = some c → isWhitespace u c = false) ∧
    ∀ c, s.getLast? = some c → isWhitespace u c = false

/-- The checker accepts the string exactly if it is a name. -/
def DecidesName (s : List Nat) : Prop := validateName u s = .ok () ↔ ValidName u s

end Ranges

/-! ## The classes -/

section Loop

variable {valid : Nat → Bool} {all before : List Nat}

/-- What the loop has written of the first characters of a sequence: finished ranges, and the start
of the one that it is in. -/
inductive Written (valid : Nat → Bool) (all before : List Nat) (s : RangeLoop) : Prop
  | outside (items : List (Nat × Nat)) (hOut : s.inRange = false)
      (hRegex : s.regex = items.flatMap writeItem)
      (hItems : ∀ c ∈ all, inItems items c = true ↔ c ∈ before ∧ valid c = true)
  | inside (items : List (Nat × Nat)) (start last : Nat) (hIn : s.inRange = true)
      (hRegex : s.regex = items.flatMap writeItem ++ [.lit start])
      (hItems : ∀ c ∈ all, inItems items c = true ↔ (c ∈ before ∧ c < start) ∧ valid c = true)
      (hRange : ∀ c ∈ all, start ≤ c → c ≤ last → c ∈ before ∧ valid c = true)
      (hStart : start ∈ before) (hUpTo : ∀ c ∈ before, c ≤ last)
      (hLast : s.last = some last) (hAdded : s.lastAdded = some start)

/-- A range that ends at the last character holds the valid characters from its start on. -/
theorem inItems_close {items : List (Nat × Nat)} {start last : Nat}
    (hItems : ∀ c ∈ all, inItems items c = true ↔ (c ∈ before ∧ c < start) ∧ valid c = true)
    (hRange : ∀ c ∈ all, start ≤ c → c ≤ last → c ∈ before ∧ valid c = true)
    (hUpTo : ∀ c ∈ before, c ≤ last) {c : Nat} (hc : c ∈ all) :
    inItems (items ++ [(start, last)]) c = true ↔ c ∈ before ∧ valid c = true := by
  rw [inItems_append, Bool.or_eq_true, hItems c hc, inItems_singleton]
  constructor
  · rintro (⟨⟨hBefore, -⟩, hValid⟩ | ⟨hFrom, hTo⟩)
    · exact ⟨hBefore, hValid⟩
    · exact hRange c hc hFrom hTo
  · rintro ⟨hBefore, hValid⟩
    by_cases hBelow : c < start
    · exact Or.inl ⟨⟨hBefore, hBelow⟩, hValid⟩
    · exact Or.inr ⟨Nat.le_of_not_lt hBelow, hUpTo c hBefore⟩

theorem flatMap_writeItem_close (items : List (Nat × Nat)) {a b : Nat}
    (h : a ≠ b) : items.flatMap writeItem ++ [.lit a] ++ closeRange (some b) =
      (items ++ [(a, b)]).flatMap writeItem := by
  simp [closeRange, writeItem, h]

theorem mem_append_singleton_iff {n c : Nat} : c ∈ before ++ [n] ↔ c ∈ before ∨ c = n := by
  rw [List.mem_append, List.mem_singleton]

/-- A valid character starts a range, or is the last one so far of the range that the loop is in. -/
theorem written_step_valid {n : Nat} {s : RangeLoop} (hBelow : ∀ c ∈ before, c < n)
    (hUpTo : ∀ c ∈ all, c ≤ n → c ∈ before ++ [n]) (h : Written valid all before s)
    (hn : valid n = true) : Written valid all (before ++ [n]) (s.step valid n) := by
  have hLe : ∀ c ∈ before ++ [n], c ≤ n := by
    intro c hc
    rcases mem_append_singleton_iff.mp hc with hBefore | rfl
    · exact (hBelow c hBefore).le
    · exact le_rfl
  unfold RangeLoop.step
  rw [if_pos hn]
  cases h with
  | outside items hOut hRegex hItems =>
    rw [if_neg (by simp [hOut])]
    refine .inside items n n rfl (by rw [hRegex]) (fun c hc => ?_) (fun c hc hFrom hTo => ?_)
      (mem_append_singleton_iff.mpr (Or.inr rfl)) hLe rfl rfl
    · rw [hItems c hc, mem_append_singleton_iff]
      refine and_congr_left fun _ => ⟨fun hBefore => ⟨Or.inl hBefore, hBelow c hBefore⟩, ?_⟩
      rintro ⟨hBefore | rfl, hLt⟩
      · exact hBefore
      · exact absurd hLt (Nat.lt_irrefl c)
    · obtain rfl := Nat.le_antisymm hTo hFrom
      exact ⟨mem_append_singleton_iff.mpr (Or.inr rfl), hn⟩
  | inside items start last hIn hRegex hItems hRange hStart hLast hAt hAdded =>
    rw [if_pos hIn]
    refine .inside items start n hIn hRegex (fun c hc => ?_) (fun c hc hFrom hTo => ?_)
      (mem_append_singleton_iff.mpr (Or.inl hStart)) hLe rfl hAdded
    · rw [hItems c hc, mem_append_singleton_iff]
      refine and_congr_left fun _ => and_congr_left fun hLt => ⟨Or.inl, ?_⟩
      rintro (hBefore | rfl)
      · exact hBefore
      · exact absurd (hBelow start hStart) hLt.asymm
    · rcases mem_append_singleton_iff.mp (hUpTo c hc hTo) with hBefore | rfl
      · have hOld := hRange c hc hFrom (hLast c hBefore)
        exact ⟨mem_append_singleton_iff.mpr (Or.inl hOld.1), hOld.2⟩
      · exact ⟨mem_append_singleton_iff.mpr (Or.inr rfl), hn⟩

/-- A character that is not valid ends the range that the loop is in. -/
theorem written_step_not {n : Nat} {s : RangeLoop} (h : Written valid all before s)
    (hn : ¬ valid n = true) : Written valid all (before ++ [n]) (s.step valid n) := by
  have hSame : ∀ c, c ∈ before ++ [n] ∧ valid c = true ↔ c ∈ before ∧ valid c = true := by
    intro c
    refine and_congr_left fun hValid => ?_
    have hNe : c ≠ n := by
      rintro rfl
      exact hn hValid
    rw [mem_append_singleton_iff, or_iff_left hNe]
  unfold RangeLoop.step
  rw [if_neg hn]
  cases h with
  | outside items hOut hRegex hItems =>
    rw [if_neg (by simp [hOut])]
    exact .outside items rfl hRegex fun c hc => (hItems c hc).trans (hSame c).symm
  | inside items start last hIn hRegex hItems hRange hStart hLe hLast hAdded =>
    have hClosed := fun c hc => (inItems_close hItems hRange hLe (c := c) hc).trans (hSame c).symm
    rw [hLast, hAdded]
    by_cases hOne : start = last
    · rw [if_neg (by simp [hOne])]
      refine .outside (items ++ [(start, last)]) rfl ?_ hClosed
      rw [hRegex, List.flatMap_append]
      simp [writeItem, hOne]
    · rw [if_pos ⟨hIn, by simpa using Ne.symm hOne⟩, hRegex, flatMap_writeItem_close _ hOne]
      exact .outside (items ++ [(start, last)]) rfl rfl hClosed

/-- The step for the character `n`, in a sequence that increases. -/
theorem written_step {n : Nat} {s : RangeLoop} (hBelow : ∀ c ∈ before, c < n)
    (hUpTo : ∀ c ∈ all, c ≤ n → c ∈ before ++ [n]) (h : Written valid all before s) :
    Written valid all (before ++ [n]) (s.step valid n) := by
  by_cases hn : valid n = true
  · exact written_step_valid hBelow hUpTo h hn
  · exact written_step_not h hn

/-- Nothing is written as long as no character is valid. -/
theorem foldl_step_not {chars : List Nat} (h : ∀ c ∈ chars, ¬ valid c = true) {s : RangeLoop}
    (hOut : s.inRange = false) : (chars.foldl (RangeLoop.step valid) s).regex = s.regex ∧
      (chars.foldl (RangeLoop.step valid) s).inRange = false := by
  induction chars generalizing s with
  | nil => exact ⟨rfl, hOut⟩
  | cons c chars ih =>
    obtain ⟨hc, hRest⟩ := List.forall_mem_cons.mp h
    have hStep : s.step valid c = { s with inRange := false, last := some c } := by
      unfold RangeLoop.step
      rw [if_neg hc, if_neg (by simp [hOut])]
    rw [List.foldl_cons, hStep]
    exact ih hRest rfl

theorem writeRanges_not {chars : List Nat} (h : ∀ c ∈ chars, ¬ valid c = true) :
    writeRanges valid chars = [] := by
  obtain ⟨hRegex, hOut⟩ := foldl_step_not h (s := ⟨[], false, none, none⟩) rfl
  unfold writeRanges
  dsimp only
  rw [hOut, if_neg Bool.false_ne_true, hRegex]

theorem written_foldl (valid : Nat → Bool) {after : List Nat}
    (h : (before ++ after).Pairwise (· < ·)) : Written valid (before ++ after) before
      (before.foldl (RangeLoop.step valid) ⟨[], false, none, none⟩) := by
  induction before using List.reverseRecOn generalizing after with
  | nil => exact .outside [] rfl rfl fun c _ => by simp [inItems]
  | append_singleton before n ih =>
    rw [List.append_assoc] at h
    have hBelow : ∀ c ∈ before, c < n :=
      fun c hc => (List.pairwise_append.mp h).2.2 c hc n List.mem_cons_self
    have hAbove := (List.pairwise_cons.mp (List.pairwise_append.mp h).2.1).1
    rw [List.foldl_append, List.append_assoc]
    refine written_step hBelow (fun c hc hLe => ?_) (ih h)
    rcases List.mem_append.mp hc with hBefore | hRest
    · exact List.mem_append_left _ hBefore
    · rcases List.mem_cons.mp hRest with rfl | hAfter
      · exact List.mem_append_right _ List.mem_cons_self
      · exact absurd (hAbove c hAfter) (Nat.not_lt_of_le hLe)

/-- The class that is written for the first characters of a sequence holds the valid ones of them,
and no other character of the sequence. -/
theorem inClass_writeRanges_of_mem {chars after : List Nat}
    (h : (chars ++ after).Pairwise (· < ·)) {c : Nat} (hc : c ∈ chars ++ after) :
    inClass (writeRanges valid chars) c = true ↔ c ∈ chars ∧ valid c = true := by
  unfold writeRanges inClass
  dsimp only
  cases written_foldl valid h with
  | outside items hOut hRegex hItems =>
    rw [if_neg (by simp [hOut]), hRegex, ← List.append_nil (items.flatMap writeItem),
      classItems_write items (by simp)]
    rw [classItems, List.append_nil]
    exact hItems c hc
  | inside items start last hIn hRegex hItems hRange hStart hUpTo hLast hAdded =>
    have hItem : classItems [.lit start, .dash, .lit last] = [(start, last)] := rfl
    rw [if_pos hIn, hRegex, hLast, List.append_assoc]
    change inItems (classItems (items.flatMap writeItem ++ [.lit start, .dash, .lit last])) c =
      true ↔ _
    rw [classItems_write items (by simp), hItem]
    exact inItems_close hItems hRange hUpTo hc

/-- The class that is written holds the valid characters. -/
theorem inClass_writeRanges (n : Nat) (c : Nat) :
    inClass (writeRanges valid (List.range n)) c = true ↔ c < n ∧ valid c = true := by
  have hSplit : List.range (n + (c + 1)) = List.range n ++ (List.range (c + 1)).map (n + ·) :=
    List.range_add
  have hIncreasing := hSplit ▸ List.pairwise_lt_range (n := n + (c + 1))
  have hc : c ∈ List.range n ++ (List.range (c + 1)).map (n + ·) := by
    rw [← hSplit, List.mem_range]
    omega
  rw [inClass_writeRanges_of_mem hIncreasing hc, List.mem_range]

end Loop

/-! ## The text of a class -/

section Text

variable (e : Escaping) (valid : Nat → Bool) (chars : List Nat)

/-- The `regex` that the loop returns: each character escaped, and the signs of the ranges. -/
def rangeText : List Nat := (writeRanges valid chars).flatMap (ClassToken.text e)

/-- As the body of a class the text denotes exactly the characters of the sequence that satisfy the
predicate. -/
def Denotes (text : List Nat) : Prop := ∃ tokens, readClass text = some tokens ∧
  ∀ c ∈ chars, inClass tokens c = true ↔ valid c = true

/-- What is written for a sequence that increases denotes its valid characters, if it has one. -/
theorem denotes_rangeText_iff (h : chars.Pairwise (· < ·)) :
    Denotes valid chars (rangeText e valid chars) ↔ ∃ c ∈ chars, valid c = true := by
  have hAll : (chars ++ []).Pairwise (· < ·) := (List.append_nil chars).symm ▸ h
  have hClass : ∀ c ∈ chars, inClass (writeRanges valid chars) c = true ↔ valid c = true := by
    intro c hc
    rw [inClass_writeRanges_of_mem hAll (List.mem_append_left [] hc), and_iff_right hc]
  constructor
  · rintro ⟨tokens, hRead, -⟩
    by_contra hNone
    have hEmpty := writeRanges_not fun c hc hValid => hNone ⟨c, hc, hValid⟩
    rw [rangeText, hEmpty, List.flatMap_nil, readClass_nil] at hRead
    cases hRead
  · rintro ⟨c, hc, hValid⟩
    have hWritten : writeRanges valid chars ≠ [] := by
      intro hEmpty
      have hIn := (hClass c hc).mpr hValid
      rw [hEmpty] at hIn
      exact Bool.false_ne_true hIn
    exact ⟨writeRanges valid chars, readClass_text hWritten, hClass⟩

/-- All but letters and digits, as before Python 3.3. -/
def notAlnum : Escaping where
  special c := !isAlnum c
  alnum c h := by rw [h]; rfl
  signs := by decide

/-- Two runs, of which the second one reaches the end. -/
theorem denotes_rangeText_iff_runs :
    Denotes (· ≠ 98) [45, 97, 98, 99, 100] (rangeText notAlnum (· ≠ 98) [45, 97, 98, 99, 100]) :=
  (denotes_rangeText_iff notAlnum (· ≠ 98) [45, 97, 98, 99, 100] (by decide)).mpr
    ⟨45, by decide, by decide⟩

/-- The text denotes its valid characters, whether or not there are any. -/
def AlwaysDenotes : Prop :=
  ∀ (e : Escaping) (valid : Nat → Bool) (chars : List Nat), chars.Pairwise (· < ·) →
    Denotes valid chars (rangeText e valid chars)

/-- Without a valid character the text is empty, and `[]` is no class. -/
theorem not_alwaysDenotes : ¬ AlwaysDenotes := by
  intro h
  obtain ⟨tokens, hRead, -⟩ := h notAlnum (fun _ => false) [97] (List.pairwise_singleton _ _)
  cases hRead

end Text

/-! ## The checker -/

section Checker

variable {u : UnicodeData} {s t : List Nat} {c : Nat}

theorem inClass_printable :
    inClass (buildRegexRange u true false []) c = true ↔ c < 0xFFFF ∧ isPrintable u c = true := by
  unfold buildRegexRange getAllChars
  rw [inClass_writeRanges]
  simp [validChar]

theorem inClass_excluded : inClass (buildRegexRange u false true []) c = true ↔
    c < 0xFFFF ∧ ¬ (isPrintable u c = true ∧ isWhitespace u c = false) := by
  have hValid : validChar u false true [] c = !(isPrintable u c && !isWhitespace u c) := by
    simp [validChar, isWhitespace]
  unfold buildRegexRange getAllChars
  rw [inClass_writeRanges, hValid, Bool.not_eq_true', ← Bool.not_eq_true, Bool.and_eq_true,
    Bool.not_eq_true']

theorem notAny_iff {o : Option Nat} {p : Nat → Bool} :
    (!o.any p) = true ↔ ∀ c, o = some c → ¬ p c = true := by
  cases o <;> simp

/-- The pattern, up to the end of the string or a line feed there. -/
theorem search_validNameRegex : search (validNameRegex u) s = true ↔
    (∀ c, s.head? = some c → ¬ inClass (buildRegexRange u false true []) c = true) ∧
      ∃ t, (s = t ∨ s = t ++ [newline]) ∧
        (∀ c ∈ t, inClass (buildRegexRange u true false []) c = true) ∧
        ∀ c, t.getLast? = some c → ¬ inClass (buildRegexRange u false true []) c = true := by
  rw [validNameRegex, search_bol, matchAt, Bool.and_eq_true, notAny_iff, matchAt, starThen_iff]
  refine and_congr_right fun _ => ?_
  have hEnd : ∀ t rest : List Nat,
      matchAt [.notBehind (buildRegexRange u false true []), .eol] (t.reverse ++ []) rest = true ↔
        (∀ c, t.getLast? = some c → ¬ inClass (buildRegexRange u false true []) c = true) ∧
          (rest = [] ∨ rest = [newline]) := by
    intro t rest
    rw [matchAt, Bool.and_eq_true, notAny_iff, List.append_nil, List.head?_reverse]
    simp [matchAt]
  constructor
  · rintro ⟨t, rest, rfl, hClass, hRest⟩
    obtain ⟨hLast, rfl | rfl⟩ := (hEnd t rest).mp hRest
    · exact ⟨t, Or.inl (List.append_nil t), hClass, hLast⟩
    · exact ⟨t, Or.inr rfl, hClass, hLast⟩
  · rintro ⟨t, rfl | rfl, hClass, hLast⟩
    · exact ⟨s, [], (List.append_nil s).symm, hClass, (hEnd s []).mpr ⟨hLast, Or.inl rfl⟩⟩
    · exact ⟨t, [newline], rfl, hClass, (hEnd t [newline]).mpr ⟨hLast, Or.inr rfl⟩⟩

/-- A name of characters that the generator enumerates. -/
def PlainName (u : UnicodeData) (s : List Nat) : Prop := ValidName u s ∧ ∀ c ∈ s, c < 0xFFFF

/-- The string is such a name but for a line feed at its end. -/
def EndsInNewline (u : UnicodeData) (s : List Nat) : Prop :=
  ∃ t, t ≠ [] ∧ s = t ++ [newline] ∧ PlainName u t

/-- The three classes say of such characters what a name should be. -/
theorem plainName_iff : PlainName u s ↔
    (∀ c ∈ s, inClass (buildRegexRange u true false []) c = true) ∧
      (∀ c, s.head? = some c → ¬ inClass (buildRegexRange u false true []) c = true) ∧
      ∀ c, s.getLast? = some c → ¬ inClass (buildRegexRange u false true []) c = true := by
  have hClass : ∀ c, c < 0xFFFF → isPrintable u c = true →
      (isWhitespace u c = false ↔ ¬ inClass (buildRegexRange u false true []) c = true) := by
    intro c hBelow hPrintable
    rw [inClass_excluded, and_iff_right hBelow, not_not, and_iff_right hPrintable]
  unfold PlainName ValidName
  constructor
  · rintro ⟨⟨hPrintable, hHead, hLast⟩, hBelow⟩
    refine ⟨fun c hc => inClass_printable.mpr ⟨hBelow c hc, hPrintable c hc⟩, ?_, ?_⟩
    · intro c hc
      have hMem := List.mem_of_head? hc
      exact (hClass c (hBelow c hMem) (hPrintable c hMem)).mp (hHead c hc)
    · intro c hc
      have hMem := List.mem_of_getLast? hc
      exact (hClass c (hBelow c hMem) (hPrintable c hMem)).mp (hLast c hc)
  · rintro ⟨hAll, hHead, hLast⟩
    have hAll := fun c hc => inClass_printable.mp (hAll c hc)
    refine ⟨⟨fun c hc => (hAll c hc).2, ?_, ?_⟩, fun c hc => (hAll c hc).1⟩
    · intro c hc
      have hMem := hAll c (List.mem_of_head? hc)
      exact (hClass c hMem.1 hMem.2).mpr (hHead c hc)
    · intro c hc
      have hMem := hAll c (List.mem_of_getLast? hc)
      exact (hClass c hMem.1 hMem.2).mpr (hLast c hc)

theorem not_isPrintable_newline (u : UnicodeData) : isPrintable u newline = false := by
  simp [isPrintable, u.newline, Category.isOther]

theorem validateName_eq_ok : validateName u s = .ok () ↔ PlainName u s ∨ EndsInNewline u s := by
  have hSearch : validateName u s = .ok () ↔ search (validNameRegex u) s = true := by
    unfold validateName
    split <;> simp_all
  rw [hSearch, search_validNameRegex]
  constructor
  · rintro ⟨hHead, t, rfl | rfl, hClass, hLast⟩
    · exact Or.inl (plainName_iff.mpr ⟨hClass, hHead, hLast⟩)
    · cases t with
      | nil =>
        refine absurd (inClass_excluded.mpr ⟨by decide, ?_⟩) (hHead newline rfl)
        rw [not_isPrintable_newline]
        exact fun h => Bool.false_ne_true h.1
      | cons c t =>
        exact Or.inr ⟨c :: t, List.cons_ne_nil _ _, rfl, plainName_iff.mpr ⟨hClass, hHead, hLast⟩⟩
  · rintro (hPlain | ⟨t, hNe, rfl, hPlain⟩)
    · obtain ⟨hClass, hHead, hLast⟩ := plainName_iff.mp hPlain
      exact ⟨hHead, s, Or.inl rfl, hClass, hLast⟩
    · obtain ⟨hClass, hHead, hLast⟩ := plainName_iff.mp hPlain
      refine ⟨?_, t, Or.inr rfl, hClass, hLast⟩
      rw [List.head?_append_of_ne_nil _ hNe]
      exact hHead

/-- The checker decides a string exactly if it is not such a name with a line feed at its end, and
not a name with a character that the generator leaves out. -/
theorem decidesName_iff (u : UnicodeData) (s : List Nat) : DecidesName u s ↔
    ¬ EndsInNewline u s ∧ ¬ (ValidName u s ∧ ∃ c ∈ s, 0xFFFF ≤ c) := by
  have hInvalid : EndsInNewline u s → ¬ ValidName u s := by
    rintro ⟨t, -, rfl, -⟩ hValid
    have hPrintable := hValid.1 newline (List.mem_append_right t List.mem_cons_self)
    rw [not_isPrintable_newline] at hPrintable
    exact Bool.false_ne_true hPrintable
  have hPlain : PlainName u s ↔ ValidName u s ∧ ¬ ∃ c ∈ s, 0xFFFF ≤ c := by
    simp [PlainName]
  unfold DecidesName
  rw [validateName_eq_ok, hPlain]
  constructor
  · intro h
    refine ⟨fun hEnds => hInvalid hEnds (h.mp (Or.inr hEnds)), ?_⟩
    rintro ⟨hValid, hLate⟩
    rcases h.mpr hValid with hPlain | hEnds
    · exact hPlain.2 hLate
    · exact hInvalid hEnds hValid
  · rintro ⟨hEnds, hLate⟩
    constructor
    · rintro (hPlain | h)
      · exact hPlain.1
      · exact absurd h hEnds
    · exact fun hValid => Or.inl ⟨hValid, fun h => hLate ⟨hValid, h⟩⟩

end Checker

/-! ## A line feed at the end -/

/-- The categories of the first characters; the others are taken as unassigned. -/
def ascii : UnicodeData where
  category c :=
    if c < 32 ∨ c = 127 then .cc
    else if c = 32 then .zs
    else if 48 ≤ c ∧ c ≤ 57 then .nd
    else if 65 ≤ c ∧ c ≤ 90 then .lu
    else if 97 ≤ c ∧ c ≤ 122 then .ll
    else if c < 127 then .po
    else .cn
  newline := rfl

/-- Whatever the string, the checker decides it. -/
def AlwaysDecidesName (u : UnicodeData) : Prop := ∀ s, DecidesName u s

/-- `"a\n"` is accepted. -/
theorem not_alwaysDecidesName : ¬ AlwaysDecidesName ascii := by
  intro h
  have hEnds : EndsInNewline ascii [97, 10] := by
    refine ⟨[97], by decide, rfl, ⟨by decide, ?_, ?_⟩, by decide⟩
    · rintro c ⟨⟩
      decide
    · rintro c ⟨⟩
      decide
  have hValid := (h [97, 10]).mp (validateName_eq_ok.mpr (Or.inr hEnds))
  have hPrintable := hValid.1 10 (by decide)
  revert hPrintable
  decide

end MasakariHA.Api
