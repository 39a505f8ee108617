import MasakariHA.Lib.Matcher
import MasakariHA.Lib.Shell

/-!
# What `hostmonitor.sh` reads off `crm_mon`

The script keeps the output of `crm_mon` in a file and picks the names of the nodes out of its lines
with `grep`, `sed` and `cut`.

* `onlineNodes`, `offlineNodes`, `otherNodes`: the names on the lines of each kind;
* `nodesArray`, `countClusterNodes`: the array of all nodes, and its size as it is returned;
* `CrmMon`: an output, and `nodesArray_eq`: the array holds the nodes that it lists;
* `Printed`: its lines as they are printed, and `listed_print`: it lists the names on them.
-/

namespace MasakariHA.Monitors.HostmonitorSh

open Lib Lib.Shell

/-- The lines that begin in one of these ways. -/
def beginningWith (heads : List String) (lines : List Text) : List Text :=
  lines.filter fun line => heads.any fun head => head.toList.isPrefixOf line

/-- What stands behind the second word of a line, without the bracket that ends it. -/
def bracketed (line : Text) : Text :=
  let line := squeeze false line
  cutFrom ' ' 3 (if [' ', ']'].isSuffixOf line then line.dropLast.dropLast else line)

def onlineNodes (lines : List Text) : Text :=
  substitution ((beginningWith ["Online", "RemoteOnline"] lines).map bracketed)

def offlineNodes (lines : List Text) : Text :=
  substitution ((beginningWith ["OFFLINE", "RemoteOFFLINE"] lines).map bracketed)

/-- The second words of the other lines about nodes. -/
def otherNodes (lines : List Text) : Text :=
  let about := (beginningWith ["Node"] lines).filter fun line =>
    !Matcher.occurs (Matcher.lit "Attributes".toList) line
  substitution (about.map fun line => cut ' ' 2 (squeeze false line))

section Array

variable (g : Globbing)

/-- What is appended for an echoed text. -/
def echoed (text : Text) : List Text := g.split (echo (g.split text))

/-- `nodes_array`. -/
def nodesArray (lines : List Text) : List Text :=
  echoed g (onlineNodes lines) ++ echoed g (offlineNodes lines) ++ echoed g (otherNodes lines)

/-- `count_cluster_nodes`; what a function returns is taken modulo 256. -/
def countClusterNodes (lines : List Text) : Nat := (nodesArray g lines).length % 256

end Array

/-- The nodes that an output lists. -/
def listed (lines : List Text) : List Text :=
  words (onlineNodes lines) ++ words (offlineNodes lines) ++ words (otherNodes lines)

/-- An output of `crm_mon`. What it lists is not taken for a pattern of file names. -/
structure CrmMon where
  lines : List Text
  noPattern : ∀ w ∈ listed lines, ∀ c ∈ w, patternSign c = false

section Listed

variable {g : Globbing} {lines : List Text} {text : Text}

theorem echoed_eq (hPlain : ∀ w ∈ words text, ∀ c ∈ w, patternSign c = false)
    (hOption : ∀ w ∈ words text, isEchoOption w = false) : echoed g text = words text := by
  have hAll : (words text).dropWhile isEchoOption = words text := by
    cases hWords : words text with
    | nil => rfl
    | cons w ws =>
      have hw := hOption w (hWords ▸ List.mem_cons_self)
      rw [List.dropWhile_cons_of_neg (by simp [hw])]
  have hAgain : words (echo (words text)) = words text := by
    unfold echo
    rw [hAll, words_unwords (fun _ => ne_nil_of_mem_words) fun _ hw _ => blank_of_mem_words hw]
  unfold echoed
  rw [g.split_eq hPlain, g.split_eq (hAgain.symm ▸ hPlain), hAgain]

/-- The array holds what is listed, as long as no name is an option of `echo`. -/
theorem nodesArray_eq (g : Globbing) (m : CrmMon)
    (hOption : ∀ w ∈ listed m.lines, isEchoOption w = false) :
    nodesArray g m.lines = listed m.lines := by
  have hPlain := m.noPattern
  unfold nodesArray listed at *
  simp only [List.forall_mem_append] at hPlain hOption
  rw [echoed_eq hPlain.1.1 hOption.1.1, echoed_eq hPlain.1.2 hOption.1.2,
    echoed_eq hPlain.2 hOption.2]

end Listed

/-! ## A printed output -/

/-- A line of an output: nodes of a kind, a single node with its condition, or something else. -/
inductive Printed where
  | online (remote : Bool) (names : List Text)
  | offline (remote : Bool) (names : List Text)
  | node (name condition : Text)
  | other (line : Text)

/-- `HEADING [ NAME NAME ]` -/
def printNames (heading : String) (names : List Text) : Text :=
  unwords (heading.toList :: ['['] :: names ++ [[']']])

namespace Printed

def line : Printed → Text
  | online remote names => printNames (if remote then "RemoteOnline:" else "Online:") names
  | offline remote names => printNames (if remote then "RemoteOFFLINE:" else "OFFLINE:") names
  | node name condition => "Node ".toList ++ name ++ ' ' :: condition
  | other line => line

/-- The names are words, and no other line is taken for one about nodes. -/
def Proper : Printed → Prop
  | online _ names | offline _ names => ∀ w ∈ names, w ≠ [] ∧ ∀ c ∈ w, isSpace c = false
  | node name condition => (name ≠ [] ∧ ∀ c ∈ name, isSpace c = false) ∧
      Matcher.occurs (Matcher.lit "Attributes".toList) (node name condition).line = false
  | other line => ["Online", "RemoteOnline", "OFFLINE", "RemoteOFFLINE", "Node"].all
      fun head => !head.toList.isPrefixOf line

def onlineNames : Printed → List Text
  | online _ names => names
  | offline _ _ | node _ _ | other _ => []

def offlineNames : Printed → List Text
  | offline _ names => names
  | online _ _ | node _ _ | other _ => []

def otherNames : Printed → List Text
  | node name _ => [name]
  | online _ _ | offline _ _ | other _ => []

end Printed

section Print

variable {names : List Text} {name condition : Text} {heading : String} {p : Printed}

theorem blank_of_isSpace {c : Char} (h : isSpace c = false) : blank c = false := by
  unfold isSpace at h
  simp only [Bool.or_eq_false_iff] at h
  exact h.1.1.1

/-- The names are read off a line with brackets. -/
theorem words_bracketed (hHeading : heading.toList ≠ [])
    (hWord : ∀ c ∈ heading.toList, isSpace c = false)
    (h : ∀ w ∈ names, w ≠ [] ∧ ∀ c ∈ w, isSpace c = false) :
    words (bracketed (printNames heading names)) = names := by
  have hAll : ∀ w ∈ heading.toList :: ['['] :: names ++ [[']']],
      w ≠ [] ∧ ∀ c ∈ w, isSpace c = false := by
    intro w hw
    rw [List.cons_append, List.cons_append, List.mem_cons, List.mem_cons, List.mem_append,
      List.mem_singleton] at hw
    rcases hw with rfl | rfl | hName | rfl
    · exact ⟨hHeading, hWord⟩
    · exact ⟨List.cons_ne_nil _ _, none_of_any rfl⟩
    · exact h w hName
    · exact ⟨List.cons_ne_nil _ _, none_of_any rfl⟩
  have hSqueeze : squeeze false (printNames heading names) =
      unwords (heading.toList :: ['['] :: names) ++ [' ', ']'] := by
    unfold printNames
    rw [squeeze_unwords (fun w hw => (hAll w hw).1) fun w hw => (hAll w hw).2,
      unwords_concat (List.cons_ne_nil _ _)]
  have hSpaces : ∀ w ∈ heading.toList :: ['['] :: names, ' ' ∉ w := by
    intro w hw hMem
    have hSpace := (hAll w (List.mem_append_left _ hw)).2 ' ' hMem
    cases hSpace
  have hDrop : ∀ t : Text, (t ++ [' ', ']']).dropLast.dropLast = t := by
    intro t
    rw [← List.singleton_append, ← List.append_assoc, List.dropLast_concat, List.dropLast_concat]
  unfold bracketed
  dsimp only
  rw [hSqueeze, if_pos (List.isSuffixOf_iff_suffix.mpr (List.suffix_append _ _)), hDrop,
    cutFrom_unwords hSpaces (Nat.le_add_left 2 names.length)]
  exact words_unwords (fun w hw => (h w hw).1) fun w hw c hc => blank_of_isSpace ((h w hw).2 c hc)

/-- The name is read off a line about a single node. -/
theorem words_nodeLine (hNe : name ≠ []) (h : ∀ c ∈ name, isSpace c = false) :
    words (cut ' ' 2 (squeeze false (Printed.node name condition).line)) = [name] := by
  have hSqueeze : squeeze false (Printed.node name condition).line =
      "Node".toList ++ ' ' :: (name ++ ' ' :: squeeze true condition) := by
    have hLine : (Printed.node name condition).line =
        "Node".toList ++ ' ' :: (name ++ ' ' :: condition) := rfl
    rw [hLine, squeeze_word (none_of_any rfl) (by decide), squeeze_space, squeeze_word h hNe,
      squeeze_space]
  have hName : ' ' ∉ name := fun hMem => by cases h ' ' hMem
  rw [hSqueeze, cut, if_pos (List.mem_append_right _ List.mem_cons_self),
    List.splitOn_append_cons_self_of_not_mem (by decide),
    List.splitOn_append_cons_self_of_not_mem hName]
  exact words_word hNe fun c hc => blank_of_isSpace (h c hc)

theorem words_lines (test : Text → Bool) (f : Text → Text) (lines : List Text) :
    words (substitution ((lines.filter test).map f)) =
      lines.flatMap fun line => if test line then words (f line) else [] := by
  rw [words_substitution]
  induction lines with
  | nil => rfl
  | cons line lines ih =>
    rw [List.filter_cons, List.flatMap_cons, ← ih]
    split
    · rw [List.map_cons, List.flatMap_cons]
    · rw [List.nil_append]

theorem words_onlineNodes (h : p.Proper) :
    (if ["Online", "RemoteOnline"].any fun head => head.toList.isPrefixOf p.line then
      words (bracketed p.line) else []) = p.onlineNames := by
  cases p with
  | online remote names =>
    cases remote with
    | false => exact words_bracketed (by decide) (none_of_any rfl) h
    | true => exact words_bracketed (by decide) (none_of_any rfl) h
  | offline remote names =>
    cases remote with
    | false => rfl
    | true => rfl
  | node name condition => rfl
  | other line =>
    simp only [Printed.Proper, List.all_cons, Bool.and_eq_true, Bool.not_eq_true'] at h
    have hNot : (["Online", "RemoteOnline"].any fun head => head.toList.isPrefixOf line) =
        false := by
      simp only [List.any_cons, h.1, h.2.1, List.any_nil, Bool.or_false]
    exact if_neg (Bool.eq_false_iff.mp hNot)

theorem words_offlineNodes (h : p.Proper) :
    (if ["OFFLINE", "RemoteOFFLINE"].any fun head => head.toList.isPrefixOf p.line then
      words (bracketed p.line) else []) = p.offlineNames := by
  cases p with
  | online remote names =>
    cases remote with
    | false => rfl
    | true => rfl
  | offline remote names =>
    cases remote with
    | false => exact words_bracketed (by decide) (none_of_any rfl) h
    | true => exact words_bracketed (by decide) (none_of_any rfl) h
  | node name condition => rfl
  | other line =>
    simp only [Printed.Proper, List.all_cons, Bool.and_eq_true, Bool.not_eq_true'] at h
    have hNot : (["OFFLINE", "RemoteOFFLINE"].any fun head => head.toList.isPrefixOf line) =
        false := by
      simp only [List.any_cons, h.2.2.1, h.2.2.2.1, List.any_nil, Bool.or_false]
    exact if_neg (Bool.eq_false_iff.mp hNot)

theorem words_otherNodes (h : p.Proper) :
    (if !Matcher.occurs (Matcher.lit "Attributes".toList) p.line &&
        ["Node"].any (fun head => head.toList.isPrefixOf p.line) then
      words (cut ' ' 2 (squeeze false p.line)) else []) = p.otherNames := by
  cases p with
  | online remote names =>
    have hNot : (["Node"].any fun head =>
        head.toList.isPrefixOf (Printed.online remote names).line) = false := by
      cases remote <;> rfl
    rw [hNot, Bool.and_false]
    rfl
  | offline remote names =>
    have hNot : (["Node"].any fun head =>
        head.toList.isPrefixOf (Printed.offline remote names).line) = false := by
      cases remote <;> rfl
    rw [hNot, Bool.and_false]
    rfl
  | node name condition =>
    obtain ⟨⟨hNe, hSpace⟩, hAttributes⟩ := h
    rw [hAttributes]
    exact words_nodeLine hNe hSpace
  | other line =>
    simp only [Printed.Proper, List.all_cons, Bool.and_eq_true, Bool.not_eq_true'] at h
    have hNot : (["Node"].any fun head => head.toList.isPrefixOf (Printed.other line).line) =
        false := (Bool.or_false _).trans h.2.2.2.2.1
    rw [hNot, Bool.and_false]
    rfl

/-- An output lists the names that are printed. -/
theorem listed_print {ps : List Printed} (h : ∀ p ∈ ps, p.Proper) :
    listed (ps.map Printed.line) = ps.flatMap Printed.onlineNames ++
      ps.flatMap Printed.offlineNames ++ ps.flatMap Printed.otherNames := by
  unfold listed onlineNodes offlineNodes otherNodes beginningWith
  dsimp only
  rw [List.filter_filter, words_lines, words_lines, words_lines, List.flatMap_map,
    List.flatMap_map, List.flatMap_map]
  rw [List.flatMap_congr fun p hp => words_onlineNodes (h p hp),
    List.flatMap_congr fun p hp => words_offlineNodes (h p hp),
    List.flatMap_congr fun p hp => words_otherNodes (h p hp)]

end Print

end MasakariHA.Monitors.HostmonitorSh
