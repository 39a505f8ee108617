import Mathlib.Data.List.Infix
import MasakariHA.Monitors.ProcessmonitorSh.MainLoop

/-!
# The list of processes

`proc.list` is read three times in an iteration of `processmonitor.sh`: by `check_proc_file_common`
of the script and of `process_status_checker.sh`, and by the loop of the latter, which does not see
a last line without a line feed.

* `checkProcFileCommon`, `statusChecker`: the functions;
* `ids_badprocList`: which ids are listed as down;
* `badproc_restarted`: no process is restarted with what is left of an earlier one.
-/

namespace MasakariHA.Monitors.ProcessmonitorSh

open Lib Lib.Shell

/-! ## `common.sh` -/

/-- The programs that lines are checked with. -/
structure Tools where
  /-- `expr "$PROC_ID" + 1` -/
  adds : Text → Bool
  /-- A number is one word, which is no pattern and no option of `echo`. -/
  adds_word : ∀ t, adds t = true → isEchoOption t = false ∧
    ∀ c ∈ t, blank c = false ∧ patternSign c = false
  /-- `[ ! -e $FILE ]` -/
  notExists : List Text → Bool
  /-- `[ ! -x $FILE ]` -/
  notExecutable : List Text → Bool
  /-- `grep -c` finds the pattern in a line, or fails. -/
  grep : Text → Text → Bool
  /-- Every line has the empty pattern. -/
  grep_nil : ∀ line, grep [] line = true

def columnNum : Nat := 8

section Checks

variable (t : Tools) (g : Globbing)

/-- A command that is given has the word `start`. -/
def commandOk (cmd : Text) : Bool := cmd = [] || "start".toList <:+: echo (g.split cmd)

/-- A file that is given exists and can be executed. -/
def fileOk (file : Text) : Bool :=
  file = [] || !t.notExists (g.split file) && !t.notExecutable (g.split file)

/-- The checks of a line. -/
def lineOk (line : Text) : Bool :=
  line.count ',' = columnNum - 1 && field g line 1 ≠ [] && t.adds (field g line 1) &&
    field g line 2 ≠ [] && commandOk g (field g line 3) && commandOk g (field g line 4) &&
    fileOk t g (field g line 5) && fileOk t g (field g line 6) && fileOk t g (field g line 7) &&
    fileOk t g (field g line 8)

/-- `check_proc_file_common`, for a file if it can be read; it exits, or sets the array. -/
def checkProcFileCommon (procFile : Option Text) : Option (List Text) :=
  procFile.bind fun text =>
    if text = [] then none
    else
      let procList := ((text.splitOn '\n').filter (· ≠ [])).flatMap g.expand
      if procList.all (lineOk t g) then some procList else none

/-! ## `process_status_checker.sh` -/

/-- `read`, of a line without a backslash. -/
def readLine (line : Text) : Text := (line.dropWhile blank).rdropWhile blank

/-- What `while read line` sees of a file. -/
def readLines (text : Text) : List Text := (text.splitOn '\n').dropLast.map readLine

/-- The output of `ps -ef` does not have the process. -/
def isDown (psResult line : Text) : Bool :=
  !t.grep (field g line 2) (echo (g.split psResult))

/-- The lines of `badproc.list` after the loop over the file. -/
def badprocList (psResult text : Text) : List Text :=
  ((readLines text).filter (isDown t g psResult)).map fun line =>
    echo (g.split (field g line 1))

/-- `process_status_checker.sh`: the code is 2, or 1 if lines are listed, or 0. -/
def statusChecker (psResult : Text) (procFile : Option Text) : Option (List Text) :=
  (checkProcFileCommon t g procFile).bind fun _ => procFile.map (badprocList t g psResult)

end Checks

/-! ## What is listed -/

section Listed

variable {t : Tools} {g : Globbing} {text psResult line : Text} {procList : List Text}

theorem field_readLine (line : Text) (k : Nat) : field g (readLine line) k = field g line k := by
  unfold field Globbing.split readLine
  rw [words_trim]

theorem isDown_readLine (line : Text) :
    isDown t g psResult (readLine line) = isDown t g psResult line := by
  unfold isDown
  rw [field_readLine]

/-- An empty line is not listed. -/
theorem isDown_nil : isDown t g psResult [] = false := by
  unfold isDown
  rw [show field g [] 2 = [] from rfl, t.grep_nil]
  rfl

/-- The id of a line that is checked is written and read as it is. -/
theorem readLine_id (h : lineOk t g line = true) :
    readLine (echo (g.split (field g line 1))) = field g line 1 := by
  simp only [lineOk, Bool.and_eq_true, decide_eq_true_eq] at h
  obtain ⟨⟨⟨⟨⟨⟨⟨⟨⟨-, hNe⟩, hAdds⟩, -⟩, -⟩, -⟩, -⟩, -⟩, -⟩, -⟩ := h
  obtain ⟨hOption, hWord⟩ := t.adds_word (field g line 1) hAdds
  generalize field g line 1 = w at hNe hOption hWord ⊢
  have hWords : words w = [w] := words_word hNe fun c hc => (hWord c hc).1
  have hSplit : g.split w = [w] := by
    unfold Globbing.split
    rw [hWords, List.flatMap_singleton, g.expand_plain w fun c hc => (hWord c hc).2]
  have hEcho : echo [w] = w := by
    unfold echo unwords
    rw [List.dropWhile_cons_of_neg (by rw [hOption]; exact Bool.false_ne_true),
      List.intercalate_singleton]
  rw [hSplit, hEcho]
  unfold readLine
  obtain ⟨c, rest, rfl⟩ := List.exists_cons_of_ne_nil hNe
  rw [List.dropWhile_cons_of_neg (by rw [(hWord c List.mem_cons_self).1]; exact Bool.false_ne_true),
    List.rdropWhile_eq_self_iff]
  intro hl hBlank
  rw [(hWord _ (List.getLast_mem hl)).1] at hBlank
  cases hBlank

/-- The lines of a file without the empty ones, and without a last one that does not end. -/
def endedLines (text : Text) : List Text := (text.splitOn '\n').dropLast.filter (· ≠ [])

/-- What `check_proc_file_common` sets for a file without patterns. -/
theorem lines_of_checkProcFileCommon (hPlain : ∀ c ∈ text, patternSign c = false)
    (hCheck : checkProcFileCommon t g (some text) = some procList) :
    procList = (text.splitOn '\n').filter (· ≠ []) ∧ ∀ line ∈ procList, lineOk t g line = true := by
  simp only [checkProcFileCommon, Option.bind_some] at hCheck
  split at hCheck
  · cases hCheck
  · split at hCheck
    · rename_i hAll
      cases hCheck
      refine ⟨?_, List.all_eq_true.mp hAll⟩
      rw [List.flatMap_congr fun line hLine => g.expand_plain line fun c hc => hPlain c ?_,
        List.flatMap_singleton']
      exact mem_of_mem_splitOnP (List.mem_of_mem_filter hLine) hc
    · cases hCheck

/-- Only a last line without a line feed is in the array and is not seen by the checker. -/
theorem endedLines_append (text : Text) : (text.splitOn '\n').filter (· ≠ []) = endedLines text ++
    [(text.splitOn '\n').getLast (List.splitOn_ne_nil _ _)].filter (· ≠ []) := by
  unfold endedLines
  rw [← List.filter_append, List.dropLast_concat_getLast]

/-- The ids as `down_process_reboot` reads them: those of the lines whose process is down. -/
theorem ids_badprocList (psResult : Text)
    (hOk : ∀ line ∈ endedLines text, lineOk t g line = true) :
    (badprocList t g psResult text).map readLine =
      ((endedLines text).filter (isDown t g psResult)).map fun line => field g line 1 := by
  unfold badprocList readLines
  unfold endedLines at hOk ⊢
  generalize (text.splitOn '\n').dropLast = lines at hOk ⊢
  have hDown : isDown t g psResult ∘ readLine = isDown t g psResult := funext isDown_readLine
  have hFilter : (lines.filter (· ≠ [])).filter (isDown t g psResult) =
      lines.filter (isDown t g psResult) := by
    rw [List.filter_filter]
    refine List.filter_congr fun line _ => ?_
    cases line with
    | nil => rw [isDown_nil, Bool.false_and]
    | cons c line => exact Bool.and_true _
  rw [List.filter_map, hDown, List.map_map, List.map_map, hFilter]
  refine List.map_congr_left fun line hLine => ?_
  rw [← hFilter] at hLine
  have hId := readLine_id (hOk line (List.mem_of_mem_filter hLine))
  rw [Function.comp_apply, Function.comp_apply, field_readLine]
  exact hId

end Listed

/-! ## Whose command is executed -/

section Commands

variable {o : Outside Event} {procList down : List Text} {n : Nat}

/-- The variables that a line sets. -/
def varsOf (g : Globbing) (proc : Text) : Vars where
  cmd := field g proc 4
  processName := field g proc 2
  specialBefore := field g proc 7
  specialAfter := field g proc 8

theorem findProc_of_mem {proc : Text} (hMem : proc ∈ procList) : ∃ proc' ∈ procList,
    field o.globbing proc' 1 = field o.globbing proc 1 ∧
      ∀ vars, findProc o procList (field o.globbing proc 1) vars = varsOf o.globbing proc' := by
  cases hFind : procList.find? fun row => field o.globbing row 1 = field o.globbing proc 1 with
  | none =>
    have hNone := List.find?_eq_none.mp hFind proc hMem
    exact absurd (decide_eq_true rfl) hNone
  | some proc' =>
    refine ⟨proc', List.mem_of_find?_eq_some hFind, ?_, fun vars => ?_⟩
    · simpa using List.find?_some hFind
    · unfold findProc
      rw [hFind]
      rfl

/-- What an earlier process has left in the variables does not matter. -/
theorem downProcessReboot_vars (hFound : ∀ line ∈ down, ∃ values, ∀ vars,
      findProc o procList line vars = values) (s : Reboot) (vars : Vars) :
    ∃ vars', downProcessReboot o procList n down { s with vars } =
      { downProcessReboot o procList n down s with vars := vars' } := by
  have hLines : ∀ (s : Reboot) (vars : Vars), ∃ vars',
      down.foldl (rebootLine o procList n) { s with vars } =
        { down.foldl (rebootLine o procList n) s with vars := vars' } := by
    induction down with
    | nil => exact fun s vars => ⟨vars, rfl⟩
    | cons line down ih =>
      obtain ⟨⟨values, hValues⟩, hFound⟩ := List.forall_mem_cons.mp hFound
      intro s vars
      rw [List.foldl_cons, List.foldl_cons]
      by_cases hOld : line ∈ s.alreadySendIdList
      · have hSkip : rebootLine o procList n s line = s := by
          unfold rebootLine
          rw [if_pos hOld]
        have hSkip' : rebootLine o procList n { s with vars } line = { s with vars } := by
          unfold rebootLine
          rw [if_pos hOld]
        rw [hSkip, hSkip']
        exact ih hFound s vars
      · -- both set the variables of the line
        have hSame : rebootLine o procList n { s with vars } line =
            rebootLine o procList n s line := by
          rw [rebootLine_of_notMem (s := { s with vars }) o procList n hOld,
            rebootLine_of_notMem (s := s) o procList n hOld]
          dsimp only
          rw [hValues vars, hValues s.vars]
        rw [hSame]
        exact ⟨_, rfl⟩
  exact hLines { s with alreadyRebootCmdList := [], events := [] } vars

/-- In an iteration that finds one file without patterns, the ids that are listed are those of the
ended lines whose process is down. Each is found again in the array: the command is that of its
first line, which is down itself if no other line has its id, and never that of an earlier process.
-/
theorem badproc_restarted {t : Tools} {text : Text} (psResult : Text)
    (hPlain : ∀ c ∈ text, patternSign c = false)
    (hCheck : checkProcFileCommon t o.globbing (some text) = some procList) :
    ∃ badproc, statusChecker t o.globbing psResult (some text) = some badproc ∧
      badproc.map readLine = ((endedLines text).filter (isDown t o.globbing psResult)).map
        (fun line => field o.globbing line 1) ∧
      (∀ line ∈ badproc.map readLine, ∃ proc ∈ procList, field o.globbing proc 1 = line ∧
        (∀ vars, findProc o procList line vars = varsOf o.globbing proc) ∧
        ((procList.map fun proc => field o.globbing proc 1).Nodup →
          isDown t o.globbing psResult proc = true)) ∧
      ∀ s vars, ∃ vars', downProcessReboot o procList n (badproc.map readLine) { s with vars } =
        { downProcessReboot o procList n (badproc.map readLine) s with vars := vars' } := by
  obtain ⟨hLines, hOk⟩ := lines_of_checkProcFileCommon hPlain hCheck
  have hEnded : ∀ line ∈ endedLines text, line ∈ procList := by
    intro line hLine
    rw [hLines, endedLines_append]
    exact List.mem_append_left _ hLine
  have hIds := ids_badprocList psResult fun line hLine => hOk line (hEnded line hLine)
  have hFound : ∀ line ∈ (badprocList t o.globbing psResult text).map readLine,
      ∃ proc ∈ procList, field o.globbing proc 1 = line ∧
        (∀ vars, findProc o procList line vars = varsOf o.globbing proc) ∧
        ((procList.map fun proc => field o.globbing proc 1).Nodup →
          isDown t o.globbing psResult proc = true) := by
    intro line hLine
    rw [hIds] at hLine
    obtain ⟨proc, hProc, rfl⟩ := List.mem_map.mp hLine
    obtain ⟨hMem, hDown⟩ := List.mem_filter.mp hProc
    obtain ⟨proc', hMem', hId, hVars⟩ := findProc_of_mem (o := o) (hEnded proc hMem)
    refine ⟨proc', hMem', hId, hVars, fun hNodup => ?_⟩
    rw [List.inj_on_of_nodup_map hNodup hMem' (hEnded proc hMem) hId]
    exact hDown
  refine ⟨badprocList t o.globbing psResult text, ?_, hIds, hFound, ?_⟩
  · unfold statusChecker
    rw [hCheck]
    rfl
  · refine fun s vars => downProcessReboot_vars (fun line hLine => ?_) s vars
    obtain ⟨proc, -, -, hVars, -⟩ := hFound line hLine
    exact ⟨varsOf o.globbing proc, hVars⟩

end Commands

/-! ## A line that does not end -/

theorem plain_of_isDigit {c : Char} (h : c.isDigit = true) :
    blank c = false ∧ patternSign c = false := by
  constructor
  · unfold blank
    simp only [Bool.or_eq_false_iff, decide_eq_false_iff_not]
    refine ⟨⟨?_, ?_⟩, ?_⟩ <;> rintro rfl <;> revert h <;> decide
  · unfold patternSign
    simp only [decide_eq_false_iff_not, List.mem_cons, not_or]
    refine ⟨?_, ?_, ?_, ?_, ?_, List.not_mem_nil⟩ <;> rintro rfl <;> revert h <;> decide

/-- `expr` for numbers without a sign, files that can all be executed, and fixed texts. -/
def digitsOnly : Tools where
  adds w := w.all Char.isDigit
  adds_word w h := by
    have hDigits := List.all_eq_true.mp h
    refine ⟨?_, fun c hc => plain_of_isDigit (hDigits c hc)⟩
    unfold isEchoOption
    split
    · exact absurd (hDigits '-' List.mem_cons_self) (by decide)
    · rfl
  notExists _ := false
  notExecutable _ := false
  grep pattern line := decide (pattern <:+: line)
  grep_nil line := decide_eq_true (List.nil_infix)

/-- Every command succeeds. -/
def succeeding : Outside Event := ⟨noFiles, fun _ _ => true, fun _ => true⟩

/-- The lines of `p`, `q` and `r`, of which the last one does not end in `unended`. -/
def threeLines : List Text :=
  ["01,p,,start-p,,,,".toList, "02,q,,start-q,,,,".toList, "03,r,,start-r,,,,".toList]

def unended : Text := "01,p,,start-p,,,,\n02,q,,start-q,,,,\n03,r,,start-r,,,,".toList

/-- `q` and `r` are down, but the line of `r` does not end: only `q` is restarted, with its own
variables. -/
theorem badproc_restarted_unended : ∃ badproc,
    statusChecker digitsOnly noFiles "p".toList (some unended) = some badproc ∧
    badproc.map readLine = ["02".toList] ∧
    (∃ proc ∈ threeLines, field noFiles proc 1 = "02".toList ∧
      (∀ vars, findProc succeeding threeLines "02".toList vars = varsOf noFiles proc) ∧
      isDown digitsOnly noFiles "p".toList proc = true) ∧
    ∀ s vars, ∃ vars', downProcessReboot succeeding threeLines 3 ["02".toList] { s with vars } =
      { downProcessReboot succeeding threeLines 3 ["02".toList] s with vars := vars' } := by
  have hCheck : checkProcFileCommon digitsOnly succeeding.globbing (some unended) =
      some threeLines := by decide
  obtain ⟨badproc, hBadproc, hIds, hFound, hVars⟩ :=
    badproc_restarted (n := 3) "p".toList (none_of_any rfl) hCheck
  have hOne : badproc.map readLine = ["02".toList] := hIds.trans (by decide)
  rw [hOne] at hFound hVars
  obtain ⟨proc, hMem, hId, hOwn, hDown⟩ := hFound _ (List.mem_singleton_self _)
  exact ⟨badproc, hBadproc, hOne, ⟨proc, hMem, hId, hOwn, hDown (by decide)⟩, hVars⟩

end MasakariHA.Monitors.ProcessmonitorSh
