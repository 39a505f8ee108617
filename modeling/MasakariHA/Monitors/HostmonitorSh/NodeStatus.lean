import Mathlib.Data.List.Chain
import Mathlib.Data.List.Nodup
import MasakariHA.Monitors.HostmonitorSh.CrmMon

/-!
# The state of a node in `hostmonitor.sh`

`check_node_status` reads the state of a node off the output of `crm_mon`, and
`compare_status_file` and `change_status_file` compare it with the file of the last states and
rewrite that. All three look for the name of the node in lines of text.

* `checkNodeStatus`, `compareStatusFile`: the functions;
* `StatusFile`: a file of states, and `ownCheck`, `ownCompare`: what they should do for the entries
  of the node;
* `startedOn_unique`, `mem_ownCompare`: these are entries of that node only;
* `Isolated`, `isolated_iff`: when the functions depend on nothing else.
-/

namespace MasakariHA.Monitors.HostmonitorSh

open Lib Lib.Shell

/-! ## States -/

/-- `NODE_STATUS_STARTED` and the others. -/
inductive NodeStatus where
  | started
  | stopped
  | starting
  | stopping
  | unknown
  deriving DecidableEq, Repr

def NodeStatus.value : NodeStatus → Text
  | .started => "Started".toList
  | .stopped => "Stopped".toList
  | .starting => "Starting".toList
  | .stopping => "Stopping".toList
  | .unknown => "Unknown".toList

/-! ## `check_node_status` -/

section Check

variable (g : Globbing) (lines : List Text) (name : Text)

/-- `echo $online_nodes | grep -e "$1 " -e "$1$"` finds the line. -/
def isOnline : Bool :=
  let line := echo (g.split (onlineNodes lines))
  Matcher.occurs (Matcher.lit (name ++ [' '])) line ||
    Matcher.occurs (Matcher.lit name >>= fun _ => Matcher.eol) line

/-- `Started\s+$1\s*(\(unmanaged\))*\s*$` -/
def startedOn : Matcher Unit := do
  Matcher.lit "Started".toList
  let _ ← Matcher.cls isSpace
  let _ ← Matcher.star isSpace
  Matcher.lit name
  let _ ← Matcher.star isSpace
  Matcher.starLit "(unmanaged)".toList
  let _ ← Matcher.star isSpace
  Matcher.eol

def isStonith (line : Text) : Bool := Matcher.occurs (Matcher.lit "stonith".toList) line

/-- `START_RA_COUNT` -/
def startRaCount : Nat :=
  (lines.filter fun line => Matcher.occurs (startedOn name) line && !isStonith line).length

/-- `other_node_ra` -/
def otherNodeRa : Nat :=
  let started := Matcher.lit ("Started ".toList ++ name ++ [' '])
  (lines.filter fun line => Matcher.occurs started line && !isStonith line).length

/-- The states 0, 1 and 2, for a node that is online or not. -/
def stateFor (raCount : Int) (online : Bool) : Nat :=
  if online then if (startRaCount lines name : Int) = raCount ∨ raCount = -1 then 0 else 2
  else if otherNodeRa lines name ≠ 0 then 2 else 1

/-- `check_node_status` -/
def checkNodeStatus (raCount : Int) : Nat := stateFor lines name raCount (isOnline g lines name)

end Check

/-! ## `compare_status_file` -/

section Compare

variable (g : Globbing) (p : Patterns) (file : List Text) (name : Text) (state : Nat)

/-- `append_status_file` -/
def appendStatusFile : List Text :=
  let nodeStatus := if state = 0 then NodeStatus.started
    else if state = 1 then .stopped else .unknown
  file ++ [name ++ ' ' :: nodeStatus.value]

/-- `sed -i "s/pattern/text/g"`, for a pattern that stands for itself; one with a line feed in it is
an error, and the file stays as it is. -/
def substitute (pattern text : Text) : List Text :=
  if '\n' ∈ pattern then file else file.map (replaceAll pattern text)

/-- `change_status_file`: what is returned, and the file after it. -/
def changeStatusFile (lastNodeStatus : Text) : Nat × List Text :=
  -- `$3` is the first word
  let last := ((g.split lastNodeStatus).head?).getD []
  let is := fun s : NodeStatus => p.test last s.value
  let (nodeStatus, retval) :=
    if state = 0 then (NodeStatus.started.value, if is .stopping || is .unknown then 2 else 1)
    else if state = 1 then (NodeStatus.stopped.value, if is .starting || is .unknown then 2 else 1)
    else (if is .started then NodeStatus.stopping.value
      else if is .stopped then NodeStatus.starting.value else last, 2)
  (retval, substitute file (name ++ ' ' :: lastNodeStatus) (name ++ ' ' :: nodeStatus))

/-- `compare_status_file`: what is returned, and the file after it. -/
def compareStatusFile : Nat × List Text :=
  let found := file.filter fun line => Matcher.occurs (Matcher.lit (name ++ [' '])) line
  let lastNodeStatus := substitution (found.map (cut ' ' 2))
  if lastNodeStatus = [] then (2, appendStatusFile file name state)
  else if state = 0 ∧ p.test lastNodeStatus NodeStatus.started.value then (0, file)
  else if state = 1 ∧ p.test lastNodeStatus NodeStatus.stopped.value then (0, file)
  else changeStatusFile g p file name state lastNodeStatus

end Compare

/-! ## The entries of a node -/

/-- The name of a node: letters, digits and hyphens, of which none is the first. -/
@[ext]
structure NodeName where
  text : Text
  ne_nil : text ≠ []
  chars : ∀ c ∈ text, (c.isAlphanum || c = '-') = true
  head : text.head? ≠ some '-'
  deriving DecidableEq

structure Entry where
  name : NodeName
  status : NodeStatus
  deriving DecidableEq

def Entry.line (e : Entry) : Text := e.name.text ++ ' ' :: e.status.value

/-- A file with one entry for each node in it. -/
structure StatusFile where
  entries : List Entry
  nodup : (entries.map Entry.name).Nodup

/-- The state that is written for a node. -/
def NodeStatus.next (state : Nat) (s : NodeStatus) : NodeStatus :=
  if state = 0 then .started
  else if state = 1 then .stopped
  else
    match s with
    | .started => .stopping
    | .stopped => .starting
    | s => s

/-- What is returned for a state that has changed: 1 if it is to be notified. -/
def NodeStatus.change (state : Nat) (s : NodeStatus) : Nat :=
  if state = 0 then if s = .stopping ∨ s = .unknown then 2 else 1
  else if state = 1 then if s = .starting ∨ s = .unknown then 2 else 1
  else 2

section Own

variable (name : NodeName) (state : Nat)

/-- The state of a node by its own entries in the output of `crm_mon`. -/
def ownCheck (lines : List Text) (raCount : Int) : Nat :=
  stateFor lines name.text raCount (name.text ∈ words (onlineNodes lines))

/-- A node that is new is added, and for another one its own entry is compared and rewritten. -/
def ownCompare (entries : List Entry) : Nat × List Entry :=
  match entries.find? fun e => e.name = name with
  | none => (2, entries ++ [⟨name, if state = 0 then .started
      else if state = 1 then .stopped else .unknown⟩])
  | some own =>
    if state = 0 ∧ own.status = .started ∨ state = 1 ∧ own.status = .stopped then (0, entries)
    else (own.status.change state,
      entries.map fun e => if e.name = name then ⟨name, e.status.next state⟩ else e)

end Own

/-- A node that is looked at, in an output of `crm_mon` and a file of states. -/
structure Poll where
  globbing : Globbing
  patterns : Patterns
  crmMon : CrmMon
  raCount : Int
  file : StatusFile
  name : NodeName
  /-- The state that is passed to `compare_status_file`. -/
  state : Nat

namespace Poll

variable (poll : Poll)

/-- `check_node_status` returns what the entries of the node alone say. -/
def Checked : Prop :=
  checkNodeStatus poll.globbing poll.crmMon.lines poll.name.text poll.raCount =
    ownCheck poll.name poll.crmMon.lines poll.raCount

/-- `compare_status_file` compares and rewrites the entry of the node alone. -/
def Compared : Prop :=
  compareStatusFile poll.globbing poll.patterns (poll.file.entries.map Entry.line) poll.name.text
    poll.state =
      ((ownCompare poll.name poll.state poll.file.entries).1,
        (ownCompare poll.name poll.state poll.file.entries).2.map Entry.line)

/-- The functions do what they should for the entries of the node alone. -/
structure Isolated : Prop where
  checked : poll.Checked
  compared : poll.Compared

/-- The words that `grep` is given of the nodes that are online. -/
def onlineWords : List Text := (words (onlineNodes poll.crmMon.lines)).dropWhile isEchoOption

/-- The node is online itself, or no node is whose name ends with its name, or the node would be
starting or stopping in both cases. -/
def OnlineItself : Prop :=
  poll.name.text ∈ words (onlineNodes poll.crmMon.lines) ∨
    (∀ w ∈ poll.onlineWords, ¬ poll.name.text <:+ w) ∨
    ((startRaCount poll.crmMon.lines poll.name.text : Int) ≠ poll.raCount ∧ poll.raCount ≠ -1 ∧
      otherNodeRa poll.crmMon.lines poll.name.text ≠ 0)

/-- No other entry has a name that ends with the name of the node, or the entry of the node stays
as it is. -/
def OwnEntry : Prop :=
  (∀ e ∈ poll.file.entries, poll.name.text <:+ e.name.text → e.name = poll.name) ∨
    poll.state ≠ 0 ∧ poll.state ≠ 1 ∧ ∃ e ∈ poll.file.entries, e.name = poll.name ∧
      (e.status = .starting ∨ e.status = .stopping ∨ e.status = .unknown)

end Poll

/-! ## Names and lines -/

section Lines

variable {name : NodeName} {e : Entry} {s : NodeStatus} {w : Text}

theorem NodeName.not_mem {c : Char} (hc : (c.isAlphanum || c = '-') = false) : c ∉ name.text := by
  intro hMem
  rw [name.chars c hMem] at hc
  cases hc

theorem NodeName.isEchoOption (name : NodeName) : isEchoOption name.text = false := by
  have hHead := name.head
  cases hText : name.text with
  | nil => rfl
  | cons c rest =>
    rw [hText, List.head?_cons] at hHead
    unfold Lib.Shell.isEchoOption
    split
    · rename_i hCons
      obtain ⟨rfl, -⟩ := List.cons.inj hCons
      exact absurd rfl hHead
    · rfl

/-- The value of a state is a plain word. -/
theorem NodeStatus.plain (s : NodeStatus) : ∀ c ∈ s.value, blank c = false ∧
    patternSign c = false := by
  have hAll : s.value.all (fun c => !blank c && !patternSign c) = true := by cases s <;> decide
  intro c hc
  have hc := List.all_eq_true.mp hAll c hc
  rwa [Bool.and_eq_true, Bool.not_eq_true', Bool.not_eq_true'] at hc

theorem NodeStatus.value_ne_nil (s : NodeStatus) : s.value ≠ [] := by
  cases s <;> decide

theorem NodeStatus.value_injective {s s' : NodeStatus} (h : s.value = s'.value) : s = s' := by
  revert h
  cases s <;> cases s' <;> decide

theorem NodeStatus.not_mem {c : Char} (hc : blank c = true) : c ∉ s.value := by
  intro hMem
  rw [(s.plain c hMem).1] at hc
  cases hc

theorem test_value (p : Patterns) {text : Text} :
    p.test text s.value = true ↔ text = s.value :=
  p.test_plain text s.value fun c hc => (s.plain c hc).2

theorem test_status {p : Patterns} {s s' : NodeStatus} :
    p.test s.value s'.value = true ↔ s = s' :=
  (test_value p).trans ⟨NodeStatus.value_injective, congrArg NodeStatus.value⟩

/-- `grep` finds the name in the lines of the nodes whose name ends with it. -/
theorem occurs_line : Matcher.occurs (Matcher.lit (name.text ++ [' '])) e.line = true ↔
    name.text <:+ e.name.text := by
  rw [Matcher.occurs_lit, Entry.line,
    infix_append_sep (name.not_mem (by decide)) (e.name.not_mem (by decide)), or_iff_left]
  intro hInside
  have hMem := hInside.subset (List.mem_append_right name.text List.mem_cons_self)
  exact e.status.not_mem (by decide) hMem

theorem cut_line (e : Entry) : cut ' ' 2 e.line = e.status.value := by
  have hName : ∀ c ∈ e.name.text, (c == ' ') = false := by
    intro c hc
    rw [beq_eq_false_iff_ne]
    rintro rfl
    exact e.name.not_mem (by decide) hc
  have hStatus : ∀ c ∈ e.status.value, (c == ' ') = false := by
    intro c hc
    rw [beq_eq_false_iff_ne]
    rintro rfl
    exact e.status.not_mem (by decide) hc
  have hMem : ' ' ∈ e.line := List.mem_append_right _ List.mem_cons_self
  rw [cut, if_pos hMem, Entry.line, List.splitOn_eq_splitOnP,
    List.splitOnP_append_cons_of_forall_mem hName _ rfl, List.splitOnP_eq_singleton hStatus]
  rfl

end Lines

/-! ## The entries of one node -/

section Own

variable {name name' : NodeName} {line t t' run : Text} {lines : List Text} {raCount : Int}
  {state : Nat} {entries : List Entry} {e : Entry}

/-- A text behind the name of a node, in which only a space and a bracket stand behind a space. -/
def Trailing (t : Text) : Prop :=
  List.IsChain (fun c d => isSpace c = true → isSpace d = true ∨ d = '(') (' ' :: t)

theorem Trailing.cons (h : Trailing t) (c : Char) :
    List.IsChain (fun c d => isSpace c = true → isSpace d = true ∨ d = '(') (c :: t) :=
  List.IsChain.imp_head (fun h _ => h rfl) h

theorem Trailing.spaces (h : Trailing t) (hRun : ∀ c ∈ run, isSpace c = true) :
    Trailing (run ++ t) := by
  induction run with
  | nil => exact h
  | cons c run ih =>
    obtain ⟨hc, hRun⟩ := List.forall_mem_cons.mp hRun
    exact List.IsChain.cons_cons (fun _ => Or.inl hc) ((ih hRun).cons c)

theorem Trailing.unmanaged (h : Trailing t) (k : Nat) :
    Trailing ((List.replicate k "(unmanaged)".toList).flatten ++ t) := by
  induction k with
  | zero => exact h
  | succ k ih =>
    rw [List.replicate_succ, List.flatten_cons, List.append_assoc]
    have hClosed := ih.cons ')'
    have hText : "(unmanaged)".toList =
        ['(', 'u', 'n', 'm', 'a', 'n', 'a', 'g', 'e', 'd', ')'] := rfl
    rw [hText] at hClosed ⊢
    simp only [List.cons_append, List.nil_append, Trailing, List.isChain_cons_cons, isSpace, blank]
    exact ⟨by decide, by decide, by decide, by decide, by decide, by decide, by decide, by decide,
      by decide, by decide, by decide, hClosed⟩

theorem trailing_of_mem {x : Unit × Text} (hx : x ∈ (do
    let _ ← Matcher.star isSpace
    Matcher.starLit "(unmanaged)".toList
    let _ ← Matcher.star isSpace
    Matcher.eol : Matcher Unit) t) : Trailing t := by
  obtain ⟨run, t₁, hRun, hMore⟩ := Matcher.mem_bind.mp hx
  obtain ⟨_, t₂, hTimes, hEnd⟩ := Matcher.mem_bind.mp hMore
  obtain ⟨run', t₃, hRun', hEol⟩ := Matcher.mem_bind.mp hEnd
  obtain ⟨hSplit, hSpaces⟩ := Matcher.mem_star.mp hRun
  obtain ⟨k, hSplit₁⟩ := (Matcher.mem_starLit (by decide)).mp hTimes
  obtain ⟨hSplit₂, hSpaces'⟩ := Matcher.mem_star.mp hRun'
  rw [hSplit, hSplit₁, hSplit₂, (Matcher.mem_eol.mp hEol).1]
  exact ((Trailing.spaces (List.isChain_singleton _) hSpaces').unmanaged k).spaces hSpaces

/-- A space stands before the name of the node, and what stands behind it names no other one. -/
theorem startedOn_spec (h : Matcher.occurs (startedOn name.text) line = true) :
    ∃ before c t, isSpace c = true ∧ Trailing t ∧ line = before ++ c :: (name.text ++ t) := by
  obtain ⟨before, after, x, hLine, hx⟩ := Matcher.occurs_iff.mp h
  obtain ⟨_, t, hStarted, hSpace⟩ := Matcher.mem_bind.mp hx
  obtain ⟨c, t₁, hFirst, hRun⟩ := Matcher.mem_bind.mp hSpace
  obtain ⟨run, t₂, hStar, hName⟩ := Matcher.mem_bind.mp hRun
  obtain ⟨_, t₃, hLit, hEnd⟩ := Matcher.mem_bind.mp hName
  obtain ⟨hSplit, hc⟩ := Matcher.mem_cls.mp hFirst
  obtain ⟨hSplit₁, hSpaces⟩ := Matcher.mem_star.mp hStar
  rw [Matcher.mem_lit.mp hStarted, hSplit, hSplit₁, Matcher.mem_lit.mp hLit] at hLine
  have hTrailing := trailing_of_mem hEnd
  -- the last space of the run stands before the name
  obtain ⟨init, d, hLast⟩ := (List.eq_nil_or_concat (c :: run)).resolve_left (List.cons_ne_nil _ _)
  have hd : isSpace d = true := by
    have hMem : d ∈ c :: run := by
      rw [hLast, List.concat_eq_append]
      exact List.mem_append_right _ List.mem_cons_self
    exact (List.forall_mem_cons (p := fun c => isSpace c = true)).mpr ⟨hc, hSpaces⟩ d hMem
  refine ⟨before ++ ("Started".toList ++ init), d, t₃, hd, hTrailing, ?_⟩
  rw [hLine, ← List.cons_append, hLast, List.concat_eq_append]
  simp only [List.append_assoc, List.singleton_append]

theorem NodeName.isSpace_of_mem {c : Char} (hc : c ∈ name.text) : isSpace c = false := by
  by_contra hSpace
  rw [Bool.not_eq_false] at hSpace
  unfold isSpace blank at hSpace
  simp only [Bool.or_eq_true, decide_eq_true_iff] at hSpace
  rcases hSpace with ((((rfl | rfl) | rfl) | rfl) | hCode) | hCode
  · exact name.not_mem (by decide) hc
  · exact name.not_mem (by decide) hc
  · exact name.not_mem (by decide) hc
  · exact name.not_mem (by decide) hc
  · rw [← Char.ofNat_toNat c, hCode] at hc
    exact name.not_mem (by decide) hc
  · rw [← Char.ofNat_toNat c, hCode] at hc
    exact name.not_mem (by decide) hc

/-- What stands behind a space in such a text is not in a name. -/
theorem Trailing.not_mem (h : Trailing t) (name : NodeName) (before : Text) {after : Text}
    {c d : Char} (hc : isSpace c = true) (hSplit : ' ' :: t = before ++ c :: d :: after) :
    d ∉ name.text := by
  intro hMem
  have hChain : List.IsChain _ (' ' :: t) := h
  rw [hSplit] at hChain
  have hPair := (List.isChain_cons_cons.mp hChain.right_of_append).1 hc
  rw [name.isSpace_of_mem hMem] at hPair
  rcases hPair with hFalse | rfl
  · cases hFalse
  · exact name.not_mem (by decide) hMem

theorem Trailing.eq_nil (h : Trailing (run ++ t)) (name : NodeName)
    (hRun : ∀ c ∈ run, c ∈ name.text) : run = [] := by
  cases run with
  | nil => rfl
  | cons c run =>
    exact absurd (hRun c List.mem_cons_self) (h.not_mem name [] (by decide) rfl)

/-- A name that stands behind a space in a line with another one is that name. -/
theorem name_eq_of_append (h : Trailing t) (h' : Trailing t') {before : Text} {c c' : Char}
    (hc' : isSpace c' = true)
    (hSplit : c :: (name.text ++ t) = before ++ c' :: (name'.text ++ t')) : name = name' := by
  obtain ⟨d, rest, hText⟩ := List.exists_cons_of_ne_nil name'.ne_nil
  have hMem : d ∈ name'.text := hText ▸ List.mem_cons_self
  cases before with
  | nil =>
    obtain ⟨-, hSame⟩ := List.cons.inj hSplit
    rcases List.append_eq_append_iff.mp hSame with ⟨more, hName, rfl⟩ | ⟨more, hName, rfl⟩
    · have hNil := h.eq_nil name' fun c hc => hName ▸ List.mem_append_right _ hc
      rw [hNil, List.append_nil] at hName
      exact NodeName.ext hName.symm
    · have hNil := h'.eq_nil name fun c hc => hName ▸ List.mem_append_right _ hc
      rw [hNil, List.append_nil] at hName
      exact NodeName.ext hName
  | cons c before =>
    -- the second name would stand behind the first one
    obtain ⟨-, hSame⟩ := List.cons.inj hSplit
    rw [hText] at hSame
    rcases List.append_eq_append_iff.mp hSame with ⟨more, -, rfl⟩ | ⟨more, hName, hMore⟩
    · exact absurd hMem (h.not_mem name' (' ' :: more) hc' rfl)
    · cases more with
      | nil =>
        rw [List.nil_append] at hMore
        subst hMore
        exact absurd hMem (h.not_mem name' [' '] hc' rfl)
      | cons b more =>
        obtain ⟨rfl, -⟩ := List.cons.inj hMore
        have hSpace : c' ∈ name.text := hName ▸ List.mem_append_right _ List.mem_cons_self
        rw [name.isSpace_of_mem hSpace] at hc'
        cases hc'

/-- A line with a started resource names one node. -/
theorem startedOn_unique (h : Matcher.occurs (startedOn name.text) line = true)
    (h' : Matcher.occurs (startedOn name'.text) line = true) : name = name' := by
  obtain ⟨before, c, t, hc, hTrailing, rfl⟩ := startedOn_spec h
  obtain ⟨before', c', t', hc', hTrailing', hSplit⟩ := startedOn_spec h'
  rcases List.append_eq_append_iff.mp hSplit with ⟨between, -, hLine⟩ | ⟨between, -, hLine⟩
  · exact name_eq_of_append hTrailing hTrailing' hc' hLine
  · exact (name_eq_of_append hTrailing' hTrailing hc hLine).symm

/-- A node that is not online itself is not started. -/
theorem ownCheck_ne_zero (h : name.text ∉ words (onlineNodes lines)) :
    ownCheck name lines raCount ≠ 0 := by
  rw [ownCheck, decide_eq_false h, stateFor, if_neg Bool.false_ne_true]
  split <;> decide

/-- The entries of the other nodes stay as they are. -/
theorem mem_ownCompare (hOther : e.name ≠ name) :
    e ∈ (ownCompare name state entries).2 ↔ e ∈ entries := by
  unfold ownCompare
  split
  · rw [List.mem_append, List.mem_singleton, or_iff_left]
    rintro rfl
    exact hOther rfl
  split
  · exact Iff.rfl
  · rw [List.mem_map]
    constructor
    · rintro ⟨e', he', hSame⟩
      split at hSame
      · rw [← hSame] at hOther
        exact absurd rfl hOther
      · rwa [← hSame]
    · exact fun he => ⟨e, he, if_neg hOther⟩

end Own

/-! ## The state in `crm_mon` -/

section Check

variable {poll : Poll}

theorem isOnline_iff : isOnline poll.globbing poll.crmMon.lines poll.name.text = true ↔
    ∃ w ∈ poll.onlineWords, poll.name.text <:+ w := by
  have hPlain : ∀ w ∈ words (onlineNodes poll.crmMon.lines), ∀ c ∈ w, patternSign c = false :=
    fun w hw => poll.crmMon.noPattern w (List.mem_append_left _ (List.mem_append_left _ hw))
  have hBlank : ∀ w ∈ poll.onlineWords, ' ' ∉ w := by
    intro w hw hSpace
    have hWord := blank_of_mem_words (List.dropWhile_subset _ hw) hSpace
    revert hWord
    decide
  unfold isOnline
  dsimp only
  rw [Bool.or_eq_true, Matcher.occurs_lit, Matcher.occurs_lit_eol, poll.globbing.split_eq hPlain]
  exact suffix_word_iff poll.name.ne_nil (poll.name.not_mem (by decide)) hBlank

/-- A node that is online is not taken for an option. -/
theorem mem_onlineWords (h : poll.name.text ∈ words (onlineNodes poll.crmMon.lines)) :
    poll.name.text ∈ poll.onlineWords := by
  rw [← List.takeWhile_append_dropWhile (p := isEchoOption)
    (l := words (onlineNodes poll.crmMon.lines)), List.mem_append] at h
  refine h.resolve_left fun hOption => ?_
  have hTrue := List.mem_takeWhile_imp hOption
  rw [poll.name.isEchoOption] at hTrue
  cases hTrue

theorem stateFor_eq_iff {lines : List Text} {name : Text} {raCount : Int} :
    stateFor lines name raCount true = stateFor lines name raCount false ↔
      (startRaCount lines name : Int) ≠ raCount ∧ raCount ≠ -1 ∧ otherNodeRa lines name ≠ 0 := by
  unfold stateFor
  rw [if_pos rfl, if_neg Bool.false_ne_true]
  by_cases hAll : (startRaCount lines name : Int) = raCount ∨ raCount = -1
  · rw [if_pos hAll]
    refine iff_of_false ?_ fun h => hAll.elim h.1 h.2.1
    split <;> decide
  · obtain ⟨hCount, hAny⟩ := not_or.mp hAll
    rw [if_neg hAll, and_iff_right hCount, and_iff_right hAny]
    split
    · rename_i hOther
      exact iff_of_true rfl hOther
    · rename_i hOther
      exact iff_of_false (by decide) hOther

theorem check_iff (poll : Poll) : poll.Checked ↔ poll.OnlineItself := by
  unfold Poll.Checked checkNodeStatus ownCheck Poll.OnlineItself
  by_cases hOwn : poll.name.text ∈ words (onlineNodes poll.crmMon.lines)
  · have hOnline : isOnline poll.globbing poll.crmMon.lines poll.name.text = true :=
      isOnline_iff.mpr ⟨_, mem_onlineWords hOwn, List.suffix_rfl⟩
    rw [hOnline, decide_eq_true hOwn]
    exact iff_of_true rfl (Or.inl hOwn)
  · rw [decide_eq_false hOwn, or_iff_right hOwn]
    cases hOnline : isOnline poll.globbing poll.crmMon.lines poll.name.text with
    | false =>
      refine iff_of_true rfl (Or.inl fun w hw hSuffix => ?_)
      rw [isOnline_iff.mpr ⟨w, hw, hSuffix⟩] at hOnline
      cases hOnline
    | true =>
      obtain ⟨w, hw, hSuffix⟩ := isOnline_iff.mp hOnline
      rw [stateFor_eq_iff, or_iff_right fun hNone => hNone w hw hSuffix]

end Check

/-! ## The state in the file -/

section Compare

variable {g : Globbing} {p : Patterns} {name : NodeName} {state : Nat} {s : NodeStatus}
  {entries rest : List Entry} {own e e' : Entry}

theorem NodeStatus.change_ne_zero (s : NodeStatus) : s.change state ≠ 0 := by
  unfold NodeStatus.change
  split
  · split <;> decide
  split
  · split <;> decide
  · decide

/-- The entries of the nodes whose name ends with this one. -/
def matching (name : NodeName) (entries : List Entry) : List Entry :=
  entries.filter fun e => name.text.isSuffixOf e.name.text

theorem mem_matching : e ∈ matching name entries ↔ e ∈ entries ∧ name.text <:+ e.name.text := by
  rw [matching, List.mem_filter, List.isSuffixOf_iff_suffix]

/-- `last_node_status` -/
def lastStatus (found : List Entry) : Text := substitution (found.map fun e => e.status.value)

/-- What `grep` and `cut` find are the states of these entries. -/
theorem cut_found : ((entries.map Entry.line).filter fun line =>
    Matcher.occurs (Matcher.lit (name.text ++ [' '])) line).map (cut ' ' 2) =
      (matching name entries).map fun e => e.status.value := by
  rw [List.filter_map, List.map_map, matching]
  have hSame : entries.filter ((fun line =>
      Matcher.occurs (Matcher.lit (name.text ++ [' '])) line) ∘ Entry.line) =
        entries.filter fun e => name.text.isSuffixOf e.name.text := by
    refine List.filter_congr fun e _ => Bool.eq_iff_iff.mpr ?_
    rw [List.isSuffixOf_iff_suffix]
    exact occurs_line
  rw [hSame]
  exact List.map_congr_left fun e _ => cut_line e

theorem compare_eq : compareStatusFile g p (entries.map Entry.line) name.text state =
    if lastStatus (matching name entries) = [] then
      (2, appendStatusFile (entries.map Entry.line) name.text state)
    else if state = 0 ∧ p.test (lastStatus (matching name entries)) NodeStatus.started.value then
      (0, entries.map Entry.line)
    else if state = 1 ∧ p.test (lastStatus (matching name entries)) NodeStatus.stopped.value then
      (0, entries.map Entry.line)
    else changeStatusFile g p (entries.map Entry.line) name.text state
      (lastStatus (matching name entries)) := by
  unfold compareStatusFile lastStatus
  dsimp only
  rw [cut_found]

theorem lastStatus_eq (found : List Entry) :
    lastStatus found = ['\n'].intercalate (found.map fun e => e.status.value) := by
  refine substitution_eq fun text hText => ?_
  obtain ⟨e, -, rfl⟩ := List.mem_map.mp hText
  exact ⟨e.status.value_ne_nil, e.status.not_mem rfl⟩

theorem lastStatus_nil : lastStatus [] = [] := rfl

theorem lastStatus_singleton : lastStatus [e] = e.status.value := by
  rw [lastStatus_eq, List.map_singleton, List.intercalate_singleton]

theorem lastStatus_cons_cons : lastStatus (e :: e' :: rest) =
    e.status.value ++ '\n' :: lastStatus (e' :: rest) := by
  rw [lastStatus_eq, lastStatus_eq, List.map_cons, List.map_cons, List.intercalate_cons_cons,
    List.append_assoc, List.singleton_append]

/-- The first word of the states is the first state. -/
theorem head?_split (g : Globbing) (e : Entry) (rest : List Entry) :
    (g.split (lastStatus (e :: rest))).head? = some e.status.value := by
  have hWord : words e.status.value = [e.status.value] :=
    words_word e.status.value_ne_nil fun c hc => (e.status.plain c hc).1
  have hExpand : g.expand e.status.value = [e.status.value] :=
    g.expand_plain _ fun c hc => (e.status.plain c hc).2
  unfold Globbing.split
  cases rest with
  | nil =>
    rw [lastStatus_singleton, hWord, List.flatMap_singleton, hExpand]
    rfl
  | cons e' rest =>
    rw [lastStatus_cons_cons, words_append rfl, hWord, List.singleton_append, List.flatMap_cons,
      hExpand]
    rfl

theorem lastStatus_ne_nil (e : Entry) (rest : List Entry) : lastStatus (e :: rest) ≠ [] := by
  cases rest with
  | nil =>
    rw [lastStatus_singleton]
    exact e.status.value_ne_nil
  | cons e' rest =>
    rw [lastStatus_cons_cons]
    exact List.append_ne_nil_of_right_ne_nil _ (List.cons_ne_nil _ _)

/-- What is returned, and the text that is written, depend on the first state that was found. -/
theorem changeStatusFile_eq (file : List Text) (name : Text) :
    changeStatusFile g p file name state (lastStatus (e :: rest)) =
      (e.status.change state, substitute file (name ++ ' ' :: lastStatus (e :: rest))
        (name ++ ' ' :: (e.status.next state).value)) := by
  unfold changeStatusFile NodeStatus.change NodeStatus.next
  dsimp only
  rw [head?_split, Option.getD_some]
  simp only [Bool.or_eq_true, test_status]
  split
  · rfl
  split
  · rfl
  · cases e.status <;> rfl

/-! ### A file with one entry of the name -/

/-- In the line of another node nothing is replaced. -/
theorem replaceAll_line {text : Text} (hOther : ¬ name.text <:+ e.name.text) :
    replaceAll (name.text ++ ' ' :: s.value) text e.line = e.line := by
  refine replaceAll_of_not_infix fun hInfix => hOther ?_
  have hName : name.text ++ [' '] <+: name.text ++ ' ' :: s.value :=
    ⟨s.value, by rw [List.append_assoc, List.singleton_append]⟩
  exact occurs_line.mp (Matcher.occurs_lit.mpr (hName.isInfix.trans hInfix))

theorem substitute_eq (hName : own.name = name) (hMatch : matching name entries = [own]) :
    substitute (entries.map Entry.line) (name.text ++ ' ' :: own.status.value)
      (name.text ++ ' ' :: (own.status.next state).value) =
        (entries.map fun e => if e.name = name then ⟨name, e.status.next state⟩ else e).map
          Entry.line := by
  have hFeed : '\n' ∉ name.text ++ ' ' :: own.status.value := by
    rw [List.mem_append, List.mem_cons, not_or, not_or]
    exact ⟨name.not_mem (by decide), by decide, own.status.not_mem (by decide)⟩
  have hOnly : ∀ e ∈ entries, name.text <:+ e.name.text → e = own := by
    intro e he hSuffix
    have hFound := mem_matching.mpr ⟨he, hSuffix⟩
    rwa [hMatch, List.mem_singleton] at hFound
  rw [substitute, if_neg hFeed, List.map_map, List.map_map]
  refine List.map_congr_left fun e he => ?_
  rw [Function.comp_apply, Function.comp_apply]
  by_cases hSame : e.name = name
  · obtain rfl := hOnly e he (hSame ▸ List.suffix_rfl)
    subst hSame
    rw [if_pos rfl]
    exact replaceAll_self (List.append_ne_nil_of_right_ne_nil _ (List.cons_ne_nil _ _))
  · rw [if_neg hSame]
    refine replaceAll_line fun hSuffix => hSame ?_
    rw [hOnly e he hSuffix, hName]

/-! ### The entry of the node -/

/-- The entry that is found is the only one of the name. -/
theorem find?_own (hNodup : (entries.map Entry.name).Nodup) (hOwn : own ∈ entries)
    (hName : own.name = name) : (entries.find? fun e => e.name = name) = some own := by
  obtain ⟨e, hFind⟩ : ∃ e, (entries.find? fun e => e.name = name) = some e :=
    Option.isSome_iff_exists.mp (List.find?_isSome.mpr ⟨own, hOwn, decide_eq_true hName⟩)
  have hFound : e.name = name := of_decide_eq_true (List.find?_some hFind :)
  rw [hFind, List.inj_on_of_nodup_map hNodup (List.mem_of_find?_eq_some hFind) hOwn
    (hFound.trans hName.symm)]

/-- The lines stay as they are exactly if the state of the node does. -/
theorem map_line_eq_iff (hNodup : (entries.map Entry.name).Nodup) (hOwn : own ∈ entries)
    (hName : own.name = name) :
    entries.map Entry.line =
      (entries.map fun e => if e.name = name then ⟨name, e.status.next state⟩ else e).map
        Entry.line ↔ own.status = own.status.next state := by
  rw [List.map_map, List.map_inj_left]
  constructor
  · intro h
    have hLine := h own hOwn
    rw [Function.comp_apply, if_pos hName, Entry.line, Entry.line, hName] at hLine
    exact NodeStatus.value_injective (List.cons.inj (List.append_cancel_left hLine)).2
  · intro h e he
    rw [Function.comp_apply]
    split
    · rename_i hSame
      obtain rfl := List.inj_on_of_nodup_map hNodup he hOwn (hSame.trans hName.symm)
      rw [← h, ← hSame]
    · rfl

/-! ### The file as a whole -/

/-- No name is found in the file, and the node is added to it. -/
theorem compare_nil (hMatch : matching name entries = []) :
    compareStatusFile g p (entries.map Entry.line) name.text state =
      ((ownCompare name state entries).1, (ownCompare name state entries).2.map Entry.line) := by
  have hNone : (entries.find? fun e => e.name = name) = none := by
    refine List.find?_eq_none.mpr fun e he hSame => ?_
    obtain rfl : e.name = name := of_decide_eq_true hSame
    have hFound := mem_matching.mpr ⟨he, List.suffix_rfl⟩
    rw [hMatch] at hFound
    cases hFound
  rw [compare_eq, hMatch, if_pos lastStatus_nil, ownCompare, hNone, appendStatusFile]
  dsimp only
  rw [List.map_append, List.map_singleton]
  rfl

/-- The entry of the node is the only one that is found. -/
theorem compare_singleton (hNodup : (entries.map Entry.name).Nodup) (hOwn : own ∈ entries)
    (hName : own.name = name) (hMatch : matching name entries = [own]) :
    compareStatusFile g p (entries.map Entry.line) name.text state =
      ((ownCompare name state entries).1, (ownCompare name state entries).2.map Entry.line) := by
  rw [compare_eq, hMatch, if_neg (lastStatus_ne_nil _ _), ownCompare, find?_own hNodup hOwn hName,
    changeStatusFile_eq, lastStatus_singleton, substitute_eq hName hMatch]
  simp only [test_status]
  by_cases hStarted : state = 0 ∧ own.status = .started
  · rw [if_pos hStarted, if_pos (Or.inl hStarted)]
  · rw [if_neg hStarted]
    by_cases hStopped : state = 1 ∧ own.status = .stopped
    · rw [if_pos hStopped, if_pos (Or.inr hStopped)]
    · rw [if_neg hStopped, if_neg (not_or.mpr ⟨hStarted, hStopped⟩)]

/-- Several entries are found: the first one decides, and the file stays as it is. -/
theorem compare_cons_cons (hMatch : matching name entries = e :: e' :: rest) :
    compareStatusFile g p (entries.map Entry.line) name.text state =
      (e.status.change state, entries.map Entry.line) := by
  have hFeed : '\n' ∈ lastStatus (e :: e' :: rest) := by
    rw [lastStatus_cons_cons]
    exact List.mem_append_right _ List.mem_cons_self
  have hTest : ∀ s : NodeStatus, ¬ p.test (lastStatus (e :: e' :: rest)) s.value = true := by
    intro s hTrue
    rw [test_value] at hTrue
    exact s.not_mem (by decide) (hTrue ▸ hFeed)
  rw [compare_eq, hMatch, if_neg (lastStatus_ne_nil _ _), if_neg fun h => hTest _ h.2,
    if_neg fun h => hTest _ h.2, changeStatusFile_eq, substitute,
    if_pos (List.mem_append_right _ (List.mem_cons_of_mem _ hFeed))]

/-- Nothing is added if some entry is found. -/
theorem compare_length (g : Globbing) (p : Patterns) (state : Nat)
    (hMatch : matching name entries ≠ []) :
    (compareStatusFile g p (entries.map Entry.line) name.text state).2.length =
      entries.length := by
  obtain ⟨e, rest, hCons⟩ := List.exists_cons_of_ne_nil hMatch
  rw [compare_eq, hCons, if_neg (lastStatus_ne_nil _ _), changeStatusFile_eq]
  unfold substitute
  split
  · exact List.length_map _
  split
  · exact List.length_map _
  · dsimp only
    split
    · exact List.length_map _
    · rw [List.length_map, List.length_map]

theorem NodeStatus.eq_next_iff (hStarted : state ≠ 0) (hStopped : state ≠ 1) :
    s = s.next state ↔ s = .starting ∨ s = .stopping ∨ s = .unknown := by
  unfold NodeStatus.next
  rw [if_neg hStarted, if_neg hStopped]
  cases s <;> decide

/-- With several entries the file is right only if the state of the node stays as it is. -/
theorem compare_several_iff (hNodup : (entries.map Entry.name).Nodup) (hOwn : own ∈ entries)
    (hName : own.name = name) (hMatch : matching name entries = e :: e' :: rest) :
    compareStatusFile g p (entries.map Entry.line) name.text state =
      ((ownCompare name state entries).1, (ownCompare name state entries).2.map Entry.line) ↔
        state ≠ 0 ∧ state ≠ 1 ∧ own.status = own.status.next state := by
  rw [compare_cons_cons hMatch, ownCompare, find?_own hNodup hOwn hName]
  dsimp only
  by_cases hSame : state = 0 ∧ own.status = .started ∨ state = 1 ∧ own.status = .stopped
  · rw [if_pos hSame, Prod.mk.injEq]
    refine iff_of_false (fun h => e.status.change_ne_zero h.1) fun h => ?_
    exact hSame.elim (fun hStarted => h.1 hStarted.1) fun hStopped => h.2.1 hStopped.1
  · rw [if_neg hSame, Prod.mk.injEq, map_line_eq_iff hNodup hOwn hName]
    constructor
    · rintro ⟨-, hNext⟩
      refine ⟨?_, ?_, hNext⟩
      · rintro rfl
        exact hSame (Or.inl ⟨rfl, hNext⟩)
      · rintro rfl
        exact hSame (Or.inr ⟨rfl, hNext⟩)
    · rintro ⟨hStarted, hStopped, hNext⟩
      refine ⟨?_, hNext⟩
      unfold NodeStatus.change
      rw [if_neg hStarted, if_neg hStopped, if_neg hStarted, if_neg hStopped]

/-- Of several entries that are found, not all are of the node. -/
theorem not_forall_own (hNodup : (entries.map Entry.name).Nodup)
    (hMatch : matching name entries = e :: e' :: rest) :
    ¬ ∀ e ∈ entries, name.text <:+ e.name.text → e.name = name := by
  intro hOnly
  have hNames : ∀ e ∈ matching name entries, e ∈ entries ∧ e.name = name := by
    intro e he
    obtain ⟨he, hSuffix⟩ := mem_matching.mp he
    exact ⟨he, hOnly e he hSuffix⟩
  have hDiff : (matching name entries).Nodup := (List.Nodup.of_map _ hNodup).filter _
  rw [hMatch] at hNames hDiff
  obtain ⟨he, hName⟩ := hNames e List.mem_cons_self
  obtain ⟨he', hName'⟩ := hNames e' (List.mem_cons_of_mem _ List.mem_cons_self)
  rw [List.inj_on_of_nodup_map hNodup he he' (hName.trans hName'.symm)] at hDiff
  exact (List.nodup_cons.mp hDiff).1 List.mem_cons_self

/-- The node has an entry: either it is the only one that is found, or several are. -/
theorem compare_own_iff {poll : Poll} (hOwn : own ∈ poll.file.entries)
    (hName : own.name = poll.name) : poll.Compared ↔ poll.OwnEntry := by
  have hNodup := poll.file.nodup
  have hFound : own ∈ matching poll.name poll.file.entries :=
    mem_matching.mpr ⟨hOwn, by rw [hName]⟩
  cases hMatch : matching poll.name poll.file.entries with
  | nil =>
    rw [hMatch] at hFound
    cases hFound
  | cons e rest =>
    cases rest with
    | nil =>
      rw [hMatch, List.mem_singleton] at hFound
      subst hFound
      refine iff_of_true (compare_singleton hNodup hOwn hName hMatch)
        (Or.inl fun e he hSuffix => ?_)
      have hOnly := mem_matching.mpr ⟨he, hSuffix⟩
      rw [hMatch, List.mem_singleton] at hOnly
      rw [hOnly, hName]
    | cons e' rest =>
      rw [Poll.Compared, compare_several_iff hNodup hOwn hName hMatch, Poll.OwnEntry,
        or_iff_right (not_forall_own hNodup hMatch)]
      refine and_congr_right fun hStarted => and_congr_right fun hStopped => ?_
      rw [NodeStatus.eq_next_iff hStarted hStopped]
      constructor
      · exact fun h => ⟨own, hOwn, hName, h⟩
      · rintro ⟨e, he, hSame, h⟩
        rwa [List.inj_on_of_nodup_map hNodup he hOwn (hSame.trans hName.symm)] at h

/-- The node has no entry: it is added unless another one is found. -/
theorem compare_new_iff {poll : Poll} (hNone : ∀ e ∈ poll.file.entries, e.name ≠ poll.name) :
    poll.Compared ↔ poll.OwnEntry := by
  cases hMatch : matching poll.name poll.file.entries with
  | nil =>
    refine iff_of_true (compare_nil hMatch) (Or.inl fun e he hSuffix => ?_)
    have hFound := mem_matching.mpr ⟨he, hSuffix⟩
    rw [hMatch] at hFound
    cases hFound
  | cons e rest =>
    have hFind : (poll.file.entries.find? fun e => e.name = poll.name) = none :=
      List.find?_eq_none.mpr fun e he hSame => hNone e he (of_decide_eq_true hSame)
    refine iff_of_false (fun h => ?_) ?_
    · have hLength := compare_length poll.globbing poll.patterns poll.state
        (hMatch ▸ List.cons_ne_nil e rest)
      rw [Poll.Compared] at h
      rw [h, ownCompare, hFind] at hLength
      dsimp only at hLength
      rw [List.length_map, List.length_append, List.length_singleton] at hLength
      omega
    · rintro (hOnly | ⟨-, -, own, hOwn, hName, -⟩)
      · obtain ⟨he, hSuffix⟩ := mem_matching.mp (hMatch ▸ List.mem_cons_self)
        exact hNone e he (hOnly e he hSuffix)
      · exact hNone own hOwn hName

theorem compare_iff (poll : Poll) : poll.Compared ↔ poll.OwnEntry := by
  by_cases hSome : ∃ own ∈ poll.file.entries, own.name = poll.name
  · obtain ⟨own, hOwn, hName⟩ := hSome
    exact compare_own_iff hOwn hName
  · exact compare_new_iff fun e he hName => hSome ⟨e, he, hName⟩

end Compare

/-! ## When only the entries of the node matter -/

/-- Nothing but the entries of the node matters exactly if, for `check_node_status`, the node is
online itself or no node is whose name ends with its name, unless the resources say the same in both
cases; and, for `compare_status_file`, no other entry of the file has such a name, unless the entry
of the node stays as it is. -/
theorem Poll.isolated_iff (poll : Poll) : poll.Isolated ↔ poll.OnlineItself ∧ poll.OwnEntry := by
  rw [← check_iff, ← compare_iff]
  exact ⟨fun h => ⟨h.checked, h.compared⟩, fun h => ⟨h.1, h.2⟩⟩

/-- Whatever the other nodes are called, only the entries of the node matter. -/
def AlwaysIsolated : Prop := ∀ poll : Poll, poll.Isolated

/-- `a-node1` is online and `node1` is not. -/
def endsWithName : Poll where
  globbing := noFiles
  patterns := equality
  crmMon :=
    { lines := ["Online: [ a-node1 ]".toList, "OFFLINE: [ node1 ]".toList]
      noPattern := noPattern_of_all (by decide) }
  raCount := -1
  file := ⟨[], List.nodup_nil⟩
  name := ⟨"node1".toList, by decide, List.all_eq_true.mp (by decide), by decide⟩
  state := 1

/-- `node1` is taken to be started. -/
theorem not_alwaysIsolated : ¬ AlwaysIsolated := by
  intro h
  have hChecked := (h endsWithName).checked
  revert hChecked
  unfold Poll.Checked
  decide

end MasakariHA.Monitors.HostmonitorSh
