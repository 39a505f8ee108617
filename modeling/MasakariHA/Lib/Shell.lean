import Mathlib.Data.List.Basic
import Mathlib.Data.List.DropRight
import Mathlib.Tactic.Common

/-!
# Texts of shell scripts

What an expansion that is not quoted does to a text, and the filters `echo`, `cut` and `sed` on
lines. A text is the list of its characters.

* `words`, `Globbing.split`: the words of a text, and the file names for those that are patterns;
* `Patterns`: a comparison with a pattern;
* `echo`, `cut`, `cutFrom`, `squeeze`: the filters, with what they do to words;
* `infix_append_sep`, `suffix_word_iff`: where a text stands in a line of words;
* `replaceAll`: the command `s` of `sed` for a fixed text.
-/

namespace MasakariHA.Lib.Shell

abbrev Text : Type := List Char

scoped instance : LawfulBEq Text := inferInstanceAs (LawfulBEq (List Char))

/-! ## Words -/

def blank (c : Char) : Bool := c = ' ' || c = '\t' || c = '\n'

/-- The words of a text. -/
def words (t : Text) : List Text := (t.splitOnP blank).filter (· ≠ [])

def unwords (ws : List Text) : Text := [' '].intercalate ws

/-- A character by which a word may become a pattern. -/
def patternSign (c : Char) : Bool := c ∈ ['*', '?', '[', '\\', '(']

/-- How words that are patterns are replaced by file names. -/
structure Globbing where
  expand : Text → List Text
  expand_plain : ∀ w, (∀ c ∈ w, patternSign c = false) → expand w = [w]

/-- `[[ text = pattern ]]` for a pattern that is not quoted. -/
structure Patterns where
  test : Text → Text → Bool
  test_plain : ∀ text pattern, (∀ c ∈ pattern, patternSign c = false) →
    (test text pattern = true ↔ text = pattern)

/-- A directory without files. -/
def noFiles : Globbing := ⟨fun w => [w], fun _ _ => rfl⟩

/-- Every pattern stands for itself. -/
def equality : Patterns := ⟨fun text pattern => text = pattern, fun _ _ _ => decide_eq_true_iff⟩

/-- The words that a command is given for a text that is not quoted. -/
def Globbing.split (g : Globbing) (t : Text) : List Text := (words t).flatMap g.expand

section Words

variable {s t w : Text} {c : Char} {ws : List Text}

theorem words_append (hc : blank c = true) (s t : Text) :
    words (s ++ c :: t) = words s ++ words t := by
  unfold words
  rw [List.splitOnP_append_cons s t hc, List.filter_append]

theorem words_word (hNe : w ≠ []) (h : ∀ c ∈ w, blank c = false) : words w = [w] := by
  unfold words
  rw [List.splitOnP_eq_singleton h]
  exact List.filter_cons_of_pos (decide_eq_true hNe)

theorem unwords_cons (w : Text) (h : ws ≠ []) : unwords (w :: ws) = w ++ ' ' :: unwords ws := by
  unfold unwords
  rw [List.intercalate_cons_of_ne_nil h, List.append_assoc, List.singleton_append]

/-- Words that were joined are found again. -/
theorem words_unwords (hNe : ∀ w ∈ ws, w ≠ []) (h : ∀ w ∈ ws, ∀ c ∈ w, blank c = false) :
    words (unwords ws) = ws := by
  induction ws with
  | nil => rfl
  | cons w ws ih =>
    obtain ⟨hw, hNe⟩ := List.forall_mem_cons.mp hNe
    obtain ⟨hBlank, h⟩ := List.forall_mem_cons.mp h
    have hWord := words_word hw hBlank
    cases ws with
    | nil =>
      unfold unwords
      rw [List.intercalate_singleton, hWord]
    | cons w' ws =>
      rw [unwords_cons w (List.cons_ne_nil _ _), words_append rfl, hWord, ih hNe h]
      rfl

theorem unwords_concat (h : ws ≠ []) (w : Text) :
    unwords (ws ++ [w]) = unwords ws ++ ' ' :: w := by
  induction ws with
  | nil => exact absurd rfl h
  | cons v ws ih =>
    cases ws with
    | nil =>
      rw [List.singleton_append, unwords_cons v (List.cons_ne_nil _ _)]
      unfold unwords
      rw [List.intercalate_singleton, List.intercalate_singleton]
    | cons v' ws =>
      have hNe : v' :: ws ≠ [] := List.cons_ne_nil _ _
      rw [List.cons_append, unwords_cons v (by simp), ih hNe, unwords_cons v hNe,
        List.append_assoc, List.cons_append]

theorem none_of_any {p : Char → Bool} (h : w.any p = false) : ∀ c ∈ w, p c = false :=
  fun c hc => Bool.eq_false_iff.mpr (List.any_eq_false.mp h c hc)

theorem noPattern_of_all (h : ws.all (fun w => !w.any patternSign) = true) :
    ∀ w ∈ ws, ∀ c ∈ w, patternSign c = false := by
  intro w hw
  have hNone := List.all_eq_true.mp h w hw
  rw [Bool.not_eq_true'] at hNone
  exact none_of_any hNone

theorem ne_nil_of_mem_words (h : w ∈ words t) : w ≠ [] := of_decide_eq_true (List.mem_filter.mp h).2

/-- No piece has a separator in it: the text is cut at one of them as long as there are any. -/
theorem not_sep_of_mem_splitOnP {p : Char → Bool} {piece : Text} (h : piece ∈ t.splitOnP p)
    (hc : c ∈ piece) : p c = false := by
  induction hLength : t.length using Nat.strongRecOn generalizing t with
  | ind n ih =>
    by_cases hSep : ∃ d ∈ t, p d = true
    · obtain ⟨d, hd, hp⟩ := hSep
      obtain ⟨before, after, rfl⟩ := List.append_of_mem hd
      rw [List.length_append, List.length_cons] at hLength
      rw [List.splitOnP_append_cons before after hp, List.mem_append] at h
      rcases h with hBefore | hAfter
      · exact ih _ (by omega) hBefore rfl
      · exact ih _ (by omega) hAfter rfl
    · have hNone : ∀ d ∈ t, p d = false := fun d hd => by
        simpa using fun hp => hSep ⟨d, hd, hp⟩
      rw [List.splitOnP_eq_singleton hNone, List.mem_singleton] at h
      exact hNone c (h ▸ hc)

theorem mem_of_mem_splitOnP {p : Char → Bool} {piece : Text} (h : piece ∈ t.splitOnP p)
    (hc : c ∈ piece) : c ∈ t := by
  induction t generalizing piece with
  | nil =>
    cases List.mem_singleton.mp h
    cases hc
  | cons d t ih =>
    rw [List.splitOnP_cons_eq_if_modifyHead] at h
    split at h
    · rcases List.mem_cons.mp h with rfl | hRest
      · cases hc
      · exact List.mem_cons_of_mem d (ih hRest hc)
    · obtain ⟨first, pieces, hSplit⟩ := List.exists_cons_of_ne_nil (List.splitOnP_ne_nil p t)
      rw [hSplit] at h ih
      rcases List.mem_cons.mp h with rfl | hRest
      · rcases List.mem_cons.mp hc with rfl | hFirst
        · exact List.mem_cons_self
        · exact List.mem_cons_of_mem d (ih List.mem_cons_self hFirst)
      · exact List.mem_cons_of_mem d (ih (List.mem_cons_of_mem first hRest) hc)

theorem blank_of_mem_words (h : w ∈ words t) (hc : c ∈ w) : blank c = false :=
  not_sep_of_mem_splitOnP (List.mem_filter.mp h).1 hc

/-- Blanks at the ends make no words. -/
theorem words_trim (t : Text) : words ((t.dropWhile blank).rdropWhile blank) = words t := by
  have hFront : ∀ t : Text, words (t.dropWhile blank) = words t := by
    intro t
    induction t with
    | nil => rfl
    | cons c t ih =>
      by_cases hc : blank c = true
      · rw [List.dropWhile_cons_of_pos hc, ih]
        exact (words_append hc [] t).symm
      · rw [List.dropWhile_cons_of_neg hc]
  have hBack : ∀ t : Text, words (t.rdropWhile blank) = words t := by
    intro t
    induction t using List.reverseRecOn with
    | nil => rfl
    | append_singleton t c ih =>
      by_cases hc : blank c = true
      · rw [List.rdropWhile_concat_pos _ _ _ hc, ih, words_append hc t []]
        exact (List.append_nil _).symm
      · rw [List.rdropWhile_concat_neg _ _ _ hc]
  rw [hBack, hFront]

theorem Globbing.split_eq (g : Globbing)
    (h : ∀ w ∈ words t, ∀ c ∈ w, patternSign c = false) : g.split t = words t := by
  unfold Globbing.split
  rw [List.flatMap_congr fun w hw => g.expand_plain w (h w hw), List.flatMap_singleton']

end Words

/-! ## Filters -/

/-- `-n`, `-e` and `-E`, also joined. -/
def isEchoOption : Text → Bool
  | '-' :: c :: letters => (c :: letters).all fun c => c ∈ ['n', 'e', 'E']
  | _ => false

/-- What the lines of a command come to in its place. -/
def substitution (lines : List Text) : Text := (['\n'].intercalate lines).rdropWhile (· = '\n')

/-- `echo`, of words without a backslash. -/
def echo (args : List Text) : Text := unwords (args.dropWhile isEchoOption)

/-- `cut -d -f k` of a line. -/
def cut (d : Char) (k : Nat) (line : Text) : Text :=
  if d ∈ line then ((line.splitOn d)[k - 1]?).getD [] else line

/-- `cut -d -f k-` of a line. -/
def cutFrom (d : Char) (k : Nat) (line : Text) : Text :=
  if d ∈ line then [d].intercalate ((line.splitOn d).drop (k - 1)) else line

def isSpace (c : Char) : Bool := blank c || c = '\r' || c.toNat = 11 || c.toNat = 12

/-- `sed -e 's/\s\{1,\}/ /g'` of a line; the flag says that a space has just been written. -/
def squeeze : Bool → Text → Text
  | _, [] => []
  | written, c :: line =>
    if isSpace c then (if written then [] else [' ']) ++ squeeze true line
    else c :: squeeze false line

/-- `s/pattern/text/g` for a pattern that stands for itself; so many characters are skipped, since
they belong to one that was replaced. -/
def replaceFrom (pattern text : Text) : Nat → Text → Text
  | _, [] => []
  | skip + 1, _ :: line => replaceFrom pattern text skip line
  | 0, c :: line =>
    if pattern.isPrefixOf (c :: line) then
      text ++ replaceFrom pattern text (pattern.length - 1) line
    else c :: replaceFrom pattern text 0 line

def replaceAll (pattern text : Text) : Text → Text := replaceFrom pattern text 0

section Squeeze

variable {w : Text} {ws : List Text}

/-- A word without white space is copied. -/
theorem squeeze_word (h : ∀ c ∈ w, isSpace c = false) (hNe : w ≠ []) (flag : Bool)
    (line : Text) : squeeze flag (w ++ line) = w ++ squeeze false line := by
  induction w generalizing flag with
  | nil => exact absurd rfl hNe
  | cons c w ih =>
    obtain ⟨hc, h⟩ := List.forall_mem_cons.mp h
    rw [List.cons_append, squeeze, if_neg (by simp [hc])]
    cases w with
    | nil => rfl
    | cons c' w => rw [ih h (List.cons_ne_nil _ _)]; rfl

theorem squeeze_space (line : Text) : squeeze false (' ' :: line) = ' ' :: squeeze true line := by
  rw [squeeze, if_pos (by decide)]
  rfl

/-- One space between words is kept. -/
theorem squeeze_unwords (hNe : ∀ w ∈ ws, w ≠ [])
    (h : ∀ w ∈ ws, ∀ c ∈ w, isSpace c = false) (flag : Bool) :
    squeeze flag (unwords ws) = unwords ws := by
  induction ws generalizing flag with
  | nil => rfl
  | cons w ws ih =>
    obtain ⟨hwNe, hNe⟩ := List.forall_mem_cons.mp hNe
    obtain ⟨hw, h⟩ := List.forall_mem_cons.mp h
    cases ws with
    | nil =>
      have hOne := squeeze_word hw hwNe flag []
      rw [List.append_nil] at hOne
      unfold unwords
      rw [List.intercalate_singleton, hOne]
      exact List.append_nil w
    | cons w' ws =>
      rw [unwords_cons w (List.cons_ne_nil _ _), squeeze_word hw hwNe, squeeze_space, ih hNe h]

theorem cutFrom_unwords (h : ∀ w ∈ ws, ' ' ∉ w) {k : Nat}
    (hMany : 2 ≤ ws.length) :
    cutFrom ' ' k (unwords ws) = unwords (ws.drop (k - 1)) := by
  have hSpace : ' ' ∈ unwords ws := by
    cases ws with
    | nil => simp at hMany
    | cons w ws =>
      cases ws with
      | nil => simp at hMany
      | cons w' ws =>
        rw [unwords_cons w (List.cons_ne_nil _ _)]
        simp
  have hNe : ws ≠ [] := by
    rintro rfl
    simp at hMany
  have hSplit : (unwords ws).splitOn ' ' = ws := List.splitOn_intercalate ' ' h hNe
  rw [cutFrom, if_pos hSpace, hSplit]
  rfl

end Squeeze

section Substitution

variable {lines : List Text}

/-- The words of lines are those of what they come to. -/
theorem words_substitution :
    words (substitution lines) = lines.flatMap words := by
  have hTrim : ∀ t : Text, words (t.rdropWhile (· = '\n')) = words t := by
    intro t
    induction t using List.reverseRecOn with
    | nil => rfl
    | append_singleton t c ih =>
      by_cases hc : c = '\n'
      · subst hc
        rw [List.rdropWhile_concat_pos _ _ _ (by decide), ih, words_append rfl t []]
        exact (List.append_nil _).symm
      · rw [List.rdropWhile_concat_neg _ _ _ (by simpa using hc)]
  rw [substitution, hTrim]
  induction lines with
  | nil => rfl
  | cons line lines ih =>
    rw [List.flatMap_cons, ← ih]
    cases lines with
    | nil =>
      rw [List.intercalate_singleton]
      exact (List.append_nil _).symm
    | cons line' lines =>
      rw [List.intercalate_cons_of_ne_nil (List.cons_ne_nil _ _), List.append_assoc,
        List.singleton_append, words_append rfl]

/-- A line feed is dropped at the end only of lines that are empty. -/
theorem substitution_eq (h : ∀ line ∈ lines, line ≠ [] ∧ '\n' ∉ line) :
    substitution lines = ['\n'].intercalate lines := by
  have hLast : lines ≠ [] → ∃ init c, ['\n'].intercalate lines = init ++ [c] ∧ c ≠ '\n' := by
    induction lines with
    | nil => exact fun hNe => absurd rfl hNe
    | cons line lines ih =>
      obtain ⟨⟨hNe, hLine⟩, h⟩ := List.forall_mem_cons.mp h
      intro _
      cases lines with
      | nil =>
        obtain ⟨init, c, rfl⟩ := (List.eq_nil_or_concat line).resolve_left hNe
        refine ⟨init, c, by simp, ?_⟩
        rintro rfl
        exact hLine (by simp)
      | cons line' lines =>
        obtain ⟨init, c, hRest, hc⟩ := ih h (List.cons_ne_nil _ _)
        refine ⟨line ++ ['\n'] ++ init, c, ?_, hc⟩
        rw [List.intercalate_cons_cons, hRest, List.append_assoc (line ++ ['\n'])]
  unfold substitution
  cases lines with
  | nil => rfl
  | cons line lines =>
    obtain ⟨init, c, hAll, hc⟩ := hLast (List.cons_ne_nil _ _)
    rw [hAll, List.rdropWhile_concat_neg _ _ _ (by simpa using hc)]

end Substitution

/-! ## Where a text stands -/

section Search

variable {t w s : Text} {sep : Char}

/-- A text with a separator behind it stands before the first separator, or after it. -/
theorem infix_append_sep (ht : sep ∉ t) (hw : sep ∉ w) :
    t ++ [sep] <:+: w ++ sep :: s ↔ t <:+ w ∨ t ++ [sep] <:+: s := by
  rw [List.append_cons w, List.infix_append_iff_ne_nil, List.infix_concat_iff,
    List.suffix_append_self_iff]
  constructor
  · rintro ((hEnd | hInside) | hAfter | ⟨l, l', hNe, hNe', hSplit, hl, -⟩)
    · exact Or.inl hEnd
    · exact absurd (hInside.subset (List.mem_append_right t List.mem_cons_self)) hw
    · exact Or.inr hAfter
    · -- a text that reaches over the separator would have it inside
      obtain ⟨l, rfl, -⟩ := (List.suffix_concat_iff.mp hl).resolve_left hNe
      obtain ⟨l', c, rfl⟩ := (List.eq_nil_or_concat l').resolve_left hNe'
      rw [List.concat_eq_append, ← List.append_assoc] at hSplit
      rw [(List.append_inj' hSplit rfl).1] at ht
      exact absurd (List.mem_append_left l' (List.mem_append_right l List.mem_cons_self)) ht
  · rintro (hEnd | hAfter)
    · exact Or.inl (Or.inl hEnd)
    · exact Or.inr (Or.inl hAfter)

/-- A text without a separator at the end stands after the last one. -/
theorem suffix_append_sep (ht : sep ∉ t) : t <:+ w ++ sep :: s ↔ t <:+ s := by
  constructor
  · rintro ⟨before, hSplit⟩
    rw [← List.singleton_append, ← List.append_assoc] at hSplit
    rcases List.append_eq_append_iff.mp hSplit with ⟨more, hMore, rfl⟩ | ⟨rest, -, rfl⟩
    · rcases List.suffix_concat_iff.mp ⟨before, hMore.symm⟩ with rfl | ⟨more, rfl, -⟩
      · exact List.suffix_rfl
      · refine absurd (List.mem_append_left s ?_) ht
        exact List.mem_append_right more List.mem_cons_self
    · exact List.suffix_append rest t
  · exact fun h => h.trans ((List.suffix_cons sep s).trans (List.suffix_append w _))

/-- Among words that were joined, a text stands at the end of a word exactly if it does so in the
line. -/
theorem suffix_word_iff {ws : List Text} (hNe : t ≠ []) (ht : ' ' ∉ t) (hws : ∀ w ∈ ws, ' ' ∉ w) :
    (t ++ [' '] <:+: unwords ws ∨ t <:+ unwords ws) ↔ ∃ w ∈ ws, t <:+ w := by
  induction ws with
  | nil =>
    unfold unwords
    simp [hNe]
  | cons w ws ih =>
    obtain ⟨hw, hws⟩ := List.forall_mem_cons.mp hws
    rw [List.exists_mem_cons_iff]
    cases ws with
    | nil =>
      have hInside : ¬ t ++ [' '] <:+: w :=
        fun h => hw (h.subset (List.mem_append_right t List.mem_cons_self))
      unfold unwords
      rw [List.intercalate_singleton, or_iff_right hInside]
      simp
    | cons w' ws =>
      rw [unwords_cons w (List.cons_ne_nil _ _), infix_append_sep ht hw, suffix_append_sep ht,
        or_assoc, ih hws]

end Search

/-! ## Replacement -/

section Replace

variable {pattern text line : Text}

theorem replaceAll_of_not_infix (h : ¬ pattern <:+: line) :
    replaceAll pattern text line = line := by
  unfold replaceAll
  induction line with
  | nil => rfl
  | cons c line ih =>
    rw [List.infix_cons_iff, not_or] at h
    rw [replaceFrom, if_neg (by simpa using h.1), ih h.2]

theorem replaceFrom_length (line : Text) : replaceFrom pattern text line.length line = [] := by
  induction line with
  | nil => rfl
  | cons c line ih => exact ih

/-- A line that is the pattern becomes the text. -/
theorem replaceAll_self (h : pattern ≠ []) : replaceAll pattern text pattern = text := by
  cases pattern with
  | nil => exact absurd rfl h
  | cons c rest =>
    rw [replaceAll, replaceFrom, if_pos (by simp), List.length_cons, Nat.add_sub_cancel,
      replaceFrom_length, List.append_nil]

end Replace

end MasakariHA.Lib.Shell
