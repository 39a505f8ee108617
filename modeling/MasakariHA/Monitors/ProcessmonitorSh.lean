import Mathlib.Data.List.Induction
import Mathlib.Data.List.Nodup
import MasakariHA.Lib.History
import MasakariHA.Lib.Shell

/-!
# The commands of `processmonitor.sh`

`init_boot` starts the processes of `proc.list`, and `down_process_reboot` restarts those that are
down. Both keep the commands that they have executed in an array. In
`CMD_LIST=("$CMD_LIST" "$CMD")` the name of the array stands for its first element, so that only
the last command is kept.

* `initBoot`, `downProcessReboot`: the functions, with what they execute;
* `memory`: what the arrays hold of the commands before;
* `onceOnly_iff`: when no command is executed again;
* `onceOnly_of_succeeds`: the same on the order of the commands, if none of them fails.
-/

namespace MasakariHA.Monitors.ProcessmonitorSh

open Lib Lib.Shell

/-! ## Lines and commands -/

/-- The commands outside: how a word becomes file names, and how executions end after others. -/
structure Outside (ε : Type) where
  globbing : Globbing
  succeeds : List ε → Text → Bool
  /-- `openstack notification create` -/
  sends : List ε → Bool

/-- `echo $line | cut -d"," -f k` -/
def field (g : Globbing) (line : Text) (k : Nat) : Text := cut ',' k (echo (g.split line))

/-- The pieces of a command between the signs `;`, of which one at the end is dropped. -/
def splitCommand (g : Globbing) (cmd : Text) : List Text :=
  let pieces := cmd.splitOn ';'
  (if pieces.getLast? = some [] then pieces.dropLast else pieces).flatMap g.expand

/-- `LIST=("$LIST" "$CMD")` -/
def remember (list : List Text) (cmd : Text) : List Text := [list.head?.getD [], cmd]

/-! ## `init_boot` -/

inductive BootEvent where
  | special (cmd : Text)
  | start (cmd : Text) (splitCmds : List Text)

structure Boot where
  cmdList : List Text
  events : List BootEvent

def Boot.special (s : Boot) (cmd : Text) : Boot :=
  if cmd = [] then s else { s with events := s.events ++ [.special cmd] }

/-- A line of `proc.list`. -/
def bootLine (g : Globbing) (s : Boot) (line : Text) : Boot :=
  let cmd := field g line 3
  if cmd = [] then s
  else
    let s := s.special (field g line 5)
    let s := if cmd ∈ s.cmdList then s
      else ⟨remember s.cmdList cmd, s.events ++ [.start cmd (splitCommand g cmd)]⟩
    s.special (field g line 6)

/-- `init_boot` -/
def initBoot (g : Globbing) (procList : List Text) : Boot := procList.foldl (bootLine g) ⟨[], []⟩

/-- The start commands that were executed. -/
def started (events : List BootEvent) : List Text :=
  events.filterMap fun
    | .special _ => none
    | .start cmd _ => some cmd

/-! ## `down_process_reboot` -/

inductive Event where
  | special (cmd : Text)
  | skip (splitCmd : Text)
  | exec (splitCmd : Text) (ok : Bool)
  | notify (processName : Text)

/-- The variables that are set for a process, and stay for one that is not found. -/
structure Vars where
  cmd : Text
  processName : Text
  specialBefore : Text
  specialAfter : Text

structure Reboot where
  alreadyRebootCmdList : List Text
  alreadySendIdList : List Text
  apiSendFail : Bool
  vars : Vars
  events : List Event

def Reboot.log (s : Reboot) (e : Event) : Reboot := { s with events := s.events ++ [e] }

def Reboot.special (s : Reboot) (cmd : Text) : Reboot :=
  if cmd = [] then s else s.log (.special cmd)

section Function

variable (o : Outside Event)

/-- One command of a process; the answer is whether the loop goes on. -/
def runCommand (s : Reboot) (splitCmd : Text) : Reboot × Bool :=
  if splitCmd ∈ s.alreadyRebootCmdList then (s.log (.skip splitCmd), true)
  else if o.succeeds s.events splitCmd then
    ({ s.log (.exec splitCmd true) with
      alreadyRebootCmdList := remember s.alreadyRebootCmdList splitCmd }, true)
  else (s.log (.exec splitCmd false), false)

/-- The loop over the commands of a process; the answer is `RESULT_FLG`. -/
def runCommands : Reboot → List Text → Reboot × Bool
  | s, [] => (s, true)
  | s, splitCmd :: splitCmds =>
    match runCommand o s splitCmd with
    | (s, true) => runCommands s splitCmds
    | (s, false) => (s, false)

/-- The notification after the last retry. -/
def giveUp (line : Text) (s : Reboot) : Reboot :=
  let s := if s.apiSendFail then s
    else { s.log (.notify s.vars.processName) with apiSendFail := !o.sends s.events }
  { s with alreadySendIdList := s.alreadySendIdList ++ [line] }

/-- The loop over the retries, of which so many are left. -/
def retryCommands (line : Text) (splitCmds : List Text) : Nat → Reboot → Reboot
  | 0, s => s
  | left + 1, s =>
    match runCommands o s splitCmds with
    | (s, true) => s
    | (s, false) => if left = 0 then giveUp o line s else retryCommands line splitCmds left s

/-- The variables for a process id. -/
def findProc (procList : List Text) (line : Text) (vars : Vars) : Vars :=
  match procList.find? fun proc => field o.globbing proc 1 = line with
  | some proc =>
    { cmd := field o.globbing proc 4
      processName := field o.globbing proc 2
      specialBefore := field o.globbing proc 7
      specialAfter := field o.globbing proc 8 }
  | none => vars

/-- A line of the list of down processes. -/
def rebootLine (procList : List Text) (processRebootRetry : Nat) (s : Reboot) (line : Text) :
    Reboot :=
  if line ∈ s.alreadySendIdList then s
  else
    let s := { s with vars := findProc o procList line s.vars }
    let s := s.special s.vars.specialBefore
    if s.vars.cmd = [] then s
    else
      let splitCmds := splitCommand o.globbing s.vars.cmd
      let s := match runCommands o s splitCmds with
        | (s, true) => s
        | (s, false) => retryCommands o line splitCmds processRebootRetry s
      s.special s.vars.specialAfter

/-- `down_process_reboot`, from what earlier calls have left. -/
def downProcessReboot (procList : List Text) (processRebootRetry : Nat) (down : List Text)
    (s : Reboot) : Reboot :=
  down.foldl (rebootLine o procList processRebootRetry)
    { s with alreadyRebootCmdList := [], events := [] }

end Function

/-! ## What is remembered -/

/-- The array after these commands: nothing, or the empty text and the last of them. -/
def memory (executed : List Text) : List Text :=
  match executed.getLast? with
  | none => []
  | some cmd => [[], cmd]

section Memory

variable {executed : List Text} {cmd : Text}

theorem remember_memory : remember (memory executed) cmd = memory (executed ++ [cmd]) := by
  unfold remember memory
  rw [List.getLast?_concat]
  cases executed.getLast? <;> rfl

theorem mem_memory : cmd ∈ memory executed ↔
    ∃ last, executed.getLast? = some last ∧ (cmd = [] ∨ cmd = last) := by
  unfold memory
  cases executed.getLast? with
  | none => simp
  | some last => simp

theorem mem_memory_of_ne_nil (h : cmd ≠ []) :
    cmd ∈ memory executed ↔ executed.getLast? = some cmd := by
  rw [mem_memory]
  constructor
  · rintro ⟨last, hLast, hEmpty | rfl⟩
    · exact absurd hEmpty h
    · exact hLast
  · exact fun hLast => ⟨cmd, hLast, Or.inr rfl⟩

end Memory

/-! ## Starts -/

/-- The start commands of `proc.list`, in its order. -/
def startCommands (g : Globbing) (procList : List Text) : List Text :=
  (procList.map fun line => field g line 3).filter (· ≠ [])

/-- The commands but for those that are the same as the one before. -/
def notRepeated (cmds : List Text) : List Text :=
  cmds.foldl (fun kept cmd => if kept.getLast? = some cmd then kept else kept ++ [cmd]) []

/-- A command that was there before comes up again only directly after itself. -/
def Grouped (cmds : List Text) : Prop :=
  Along (fun before cmd => cmd ∈ before → before.getLast? = some cmd) cmds

section Starts

variable {g : Globbing} {cmds : List Text} {cmd : Text}

theorem notRepeated_append_singleton (cmds : List Text) (cmd : Text) :
    notRepeated (cmds ++ [cmd]) = if (notRepeated cmds).getLast? = some cmd then notRepeated cmds
      else notRepeated cmds ++ [cmd] := by
  unfold notRepeated
  rw [List.foldl_append]
  rfl

theorem getLast?_notRepeated (cmds : List Text) :
    (notRepeated cmds).getLast? = cmds.getLast? := by
  induction cmds using List.reverseRecOn with
  | nil => rfl
  | append_singleton cmds cmd ih =>
    rw [notRepeated_append_singleton, List.getLast?_concat]
    split
    · rename_i hSame
      exact hSame
    · exact List.getLast?_concat

theorem mem_notRepeated : cmd ∈ notRepeated cmds ↔ cmd ∈ cmds := by
  induction cmds using List.reverseRecOn with
  | nil => rfl
  | append_singleton cmds last ih =>
    rw [notRepeated_append_singleton, List.mem_append, List.mem_singleton]
    split
    · rename_i hSame
      rw [ih, or_iff_left_of_imp]
      rintro rfl
      exact ih.mp (List.mem_of_getLast? hSame)
    · rw [List.mem_append, List.mem_singleton, ih]

/-- No command is executed twice exactly if equal commands stand next to each other. -/
theorem nodup_notRepeated : (notRepeated cmds).Nodup ↔ Grouped cmds := by
  induction cmds using List.reverseRecOn with
  | nil => exact iff_of_true List.nodup_nil along_nil
  | append_singleton cmds cmd ih =>
    rw [Grouped, along_append_singleton, notRepeated_append_singleton, getLast?_notRepeated]
    split
    · rename_i hSame
      rw [ih, Grouped, and_iff_left fun _ => hSame]
    · rename_i hOther
      rw [← List.concat_eq_append, List.nodup_concat, mem_notRepeated, ih, and_comm, Grouped]
      exact and_congr_right fun _ => ⟨fun hNew hOld => absurd hOld hNew,
        fun hLast hOld => hOther (hLast hOld)⟩

theorem started_append (events events' : List BootEvent) :
    started (events ++ events') = started events ++ started events' := List.filterMap_append

theorem started_special (s : Boot) (cmd : Text) :
    (s.special cmd).cmdList = s.cmdList ∧ started (s.special cmd).events = started s.events := by
  unfold Boot.special
  split
  · exact ⟨rfl, rfl⟩
  · refine ⟨rfl, ?_⟩
    dsimp only
    rw [started_append]
    exact List.append_nil _

/-- A line of `proc.list`, if the array holds what it holds after the commands so far. -/
theorem started_bootLine (line : Text) {s : Boot}
    (hMemory : s.cmdList = memory (started s.events)) :
    (bootLine g s line).cmdList = memory (started (bootLine g s line).events) ∧
      started (bootLine g s line).events = if field g line 3 = [] ∨
        (started s.events).getLast? = some (field g line 3) then started s.events
        else started s.events ++ [field g line 3] := by
  unfold bootLine
  dsimp only
  generalize field g line 3 = cmd
  by_cases hEmpty : cmd = []
  · rw [if_pos hEmpty, if_pos (Or.inl hEmpty)]
    exact ⟨hMemory, rfl⟩
  · rw [if_neg hEmpty]
    obtain ⟨hList, hStarted⟩ := started_special s (field g line 5)
    rw [← hList, ← hStarted] at hMemory
    rw [← hStarted]
    generalize s.special (field g line 5) = s at hMemory ⊢
    have hLast : cmd ∈ memory (started s.events) ↔ _ := mem_memory_of_ne_nil hEmpty
    rw [hMemory]
    by_cases hKnown : cmd ∈ memory (started s.events)
    · rw [if_pos hKnown, if_pos (Or.inr (hLast.mp hKnown))]
      obtain ⟨hList, hStarted⟩ := started_special s (field g line 6)
      rw [hList, hStarted]
      exact ⟨hMemory, rfl⟩
    · rw [if_neg hKnown, if_neg (not_or.mpr ⟨hEmpty, fun h => hKnown (hLast.mpr h)⟩)]
      obtain ⟨hList, hStarted⟩ := started_special
        ⟨remember (memory (started s.events)) cmd, s.events ++ [.start cmd (splitCommand g cmd)]⟩
        (field g line 6)
      rw [hList, hStarted, started_append]
      exact ⟨remember_memory, rfl⟩

theorem startCommands_append_singleton (g : Globbing) (procList : List Text) (line : Text) :
    startCommands g (procList ++ [line]) =
      startCommands g procList ++ if field g line 3 = [] then [] else [field g line 3] := by
  unfold startCommands
  rw [List.map_append, List.filter_append, List.map_singleton]
  split
  · rename_i hEmpty
    rw [List.filter_cons_of_neg (by simpa using hEmpty), List.filter_nil]
  · rename_i hSome
    rw [List.filter_cons_of_pos (by simpa using hSome), List.filter_nil]

/-- `init_boot` executes a start command unless it is the same as the one before. -/
theorem started_initBoot (g : Globbing) (procList : List Text) :
    started (initBoot g procList).events = notRepeated (startCommands g procList) := by
  have hBoth : (initBoot g procList).cmdList = memory (started (initBoot g procList).events) ∧
      started (initBoot g procList).events = notRepeated (startCommands g procList) := by
    unfold initBoot
    induction procList using List.reverseRecOn with
    | nil => exact ⟨rfl, rfl⟩
    | append_singleton procList line ih =>
      rw [List.foldl_append]
      obtain ⟨hMemory, hStarted⟩ := started_bootLine (g := g) line ih.1
      refine ⟨hMemory, hStarted.trans ?_⟩
      rw [ih.2, startCommands_append_singleton]
      by_cases hEmpty : field g line 3 = []
      · rw [if_pos (Or.inl hEmpty), if_pos hEmpty, List.append_nil]
      · rw [if_neg hEmpty, notRepeated_append_singleton]
        exact if_congr (or_iff_right hEmpty) rfl rfl
  exact hBoth.2

theorem nodup_started (g : Globbing) (procList : List Text) :
    (started (initBoot g procList).events).Nodup ↔ Grouped (startCommands g procList) := by
  rw [started_initBoot, nodup_notRepeated]

end Starts

/-! ## Restarts -/

/-- The commands that were executed and succeeded. -/
def succeeded (events : List Event) : List Text :=
  events.filterMap fun
    | .exec splitCmd true => some splitCmd
    | _ => none

/-- A command was executed or skipped by what the array held. -/
def Checked (before : List Event) : Event → Prop
  | .exec splitCmd _ => splitCmd ∉ memory (succeeded before)
  | .skip splitCmd => splitCmd ∈ memory (succeeded before)
  | _ => True

/-- No command is executed that has succeeded before. -/
def NotAgain (events : List Event) : Prop :=
  Along (fun before e => ∀ splitCmd ok, e = .exec splitCmd ok → splitCmd ∉ succeeded before) events

/-- The command that comes up has not succeeded before, or is the one that succeeded last, or empty.
-/
def OnlyLast (before : List Event) (splitCmd : Text) : Prop :=
  splitCmd ∈ succeeded before →
    splitCmd = [] ∨ (succeeded before).getLast? = some splitCmd

/-- This holds whenever a command comes up. -/
def ComesUpAsLast (events : List Event) : Prop :=
  Along (fun before e => ∀ splitCmd, (e = .skip splitCmd ∨ ∃ ok, e = .exec splitCmd ok) →
    OnlyLast before splitCmd) events

/-- The array holds what is remembered of the commands that succeeded in this run. -/
structure Remembers (s : Reboot) : Prop where
  list_eq : s.alreadyRebootCmdList = memory (succeeded s.events)
  checked : Along Checked s.events

section Restarts

variable {o : Outside Event} {s : Reboot} {splitCmd : Text} {events before : List Event}

theorem succeeded_append_singleton (events : List Event) (e : Event) :
    succeeded (events ++ [e]) = succeeded events ++ succeeded [e] := List.filterMap_append

/-- Whether a command that comes up is executed again depends on whether it is the last one. -/
theorem notAgain_iff (h : Along Checked events) : NotAgain events ↔ ComesUpAsLast events := by
  refine along_congr h fun before e hChecked => ?_
  constructor
  · rintro hNew splitCmd (rfl | ⟨ok, rfl⟩) hOld
    · obtain ⟨last, hLast, hEmpty | rfl⟩ := mem_memory.mp hChecked
      · exact Or.inl hEmpty
      · exact Or.inr hLast
    · exact absurd hOld (hNew splitCmd ok rfl)
  · rintro hLast splitCmd ok rfl hOld
    refine hChecked (mem_memory.mpr ?_)
    have hSome := List.getLast?_eq_some_getLast (List.ne_nil_of_mem hOld)
    refine ⟨_, hSome, ?_⟩
    rcases hLast splitCmd (Or.inr ⟨ok, rfl⟩) hOld with hEmpty | hSame
    · exact Or.inl hEmpty
    · exact Or.inr (Option.some.inj (hSame.symm.trans hSome))

theorem remembers_log (h : Remembers s) {e : Event} (hQuiet : succeeded [e] = [])
    (hChecked : Checked s.events e) : Remembers (s.log e) where
  list_eq := by
    change s.alreadyRebootCmdList = memory (succeeded (s.events ++ [e]))
    rw [succeeded_append_singleton, hQuiet, List.append_nil]
    exact h.list_eq
  checked := along_append_singleton.mpr ⟨h.checked, hChecked⟩

theorem remembers_special (h : Remembers s) (cmd : Text) : Remembers (s.special cmd) := by
  unfold Reboot.special
  split
  · exact h
  · exact remembers_log h rfl trivial

theorem remembers_runCommand (h : Remembers s) (splitCmd : Text) :
    Remembers (runCommand o s splitCmd).1 := by
  unfold runCommand
  by_cases hKnown : splitCmd ∈ s.alreadyRebootCmdList
  · rw [if_pos hKnown]
    have hOld : splitCmd ∈ memory (succeeded s.events) := h.list_eq ▸ hKnown
    exact remembers_log h rfl hOld
  · rw [if_neg hKnown]
    have hNew : splitCmd ∉ memory (succeeded s.events) := h.list_eq ▸ hKnown
    split
    · refine ⟨?_, along_append_singleton.mpr ⟨h.checked, hNew⟩⟩
      dsimp only [Reboot.log]
      rw [succeeded_append_singleton, h.list_eq]
      exact remember_memory
    · exact remembers_log h rfl hNew

theorem remembers_runCommands (splitCmds : List Text) (h : Remembers s) :
    Remembers (runCommands o s splitCmds).1 := by
  induction splitCmds generalizing s with
  | nil => exact h
  | cons splitCmd splitCmds ih =>
    have hNext := remembers_runCommand (o := o) h splitCmd
    rw [runCommands]
    rcases hRun : runCommand o s splitCmd with ⟨s', ok⟩
    rw [hRun] at hNext
    cases ok with
    | true => exact ih hNext
    | false => exact hNext

theorem remembers_giveUp (line : Text) (h : Remembers s) : Remembers (giveUp o line s) := by
  unfold giveUp
  dsimp only
  split
  · exact ⟨h.list_eq, h.checked⟩
  · have hLogged := remembers_log h (e := .notify s.vars.processName) rfl trivial
    exact ⟨hLogged.list_eq, hLogged.checked⟩

theorem remembers_retryCommands (line : Text) (splitCmds : List Text) (left : Nat)
    (h : Remembers s) : Remembers (retryCommands o line splitCmds left s) := by
  induction left generalizing s with
  | zero => exact h
  | succ left ih =>
    have hNext := remembers_runCommands (o := o) splitCmds h
    rw [retryCommands]
    rcases hRun : runCommands o s splitCmds with ⟨s', ok⟩
    rw [hRun] at hNext
    cases ok with
    | true => exact hNext
    | false =>
      dsimp only
      split
      · exact remembers_giveUp line hNext
      · exact ih hNext

theorem remembers_rebootLine (procList : List Text) (processRebootRetry : Nat) (line : Text)
    (h : Remembers s) : Remembers (rebootLine o procList processRebootRetry s line) := by
  unfold rebootLine
  dsimp only
  split
  · exact h
  · have hVars : Remembers { s with vars := findProc o procList line s.vars } :=
      ⟨h.list_eq, h.checked⟩
    have hBefore := remembers_special hVars (findProc o procList line s.vars).specialBefore
    generalize Reboot.special _ (findProc o procList line s.vars).specialBefore = s at hBefore ⊢
    split
    · exact hBefore
    · refine remembers_special ?_ _
      have hNext := remembers_runCommands (o := o) (splitCommand o.globbing s.vars.cmd) hBefore
      rcases hRun : runCommands o s (splitCommand o.globbing s.vars.cmd) with ⟨s', ok⟩
      rw [hRun] at hNext
      cases ok with
      | true => exact hNext
      | false => exact remembers_retryCommands line _ _ hNext

theorem remembers_downProcessReboot (o : Outside Event) (procList : List Text)
    (processRebootRetry : Nat) (down : List Text) (s : Reboot) :
    Remembers (downProcessReboot o procList processRebootRetry down s) := by
  have hStart : Remembers { s with alreadyRebootCmdList := [], events := [] } := ⟨rfl, along_nil⟩
  unfold downProcessReboot
  generalize ({ s with alreadyRebootCmdList := [], events := [] } : Reboot) = s at hStart ⊢
  induction down generalizing s with
  | nil => exact hStart
  | cons line down ih => exact ih _ (remembers_rebootLine procList processRebootRetry line hStart)

end Restarts

/-! ## When nothing is executed again -/

/-- A start of the monitor and a check of it later. -/
structure Run where
  o : Outside Event
  procList : List Text
  /-- The list as it is when the processes are down. -/
  procList' : List Text
  processRebootRetry : Nat
  down : List Text
  /-- What earlier calls of `down_process_reboot` have left. -/
  left : Reboot

namespace Run

def restarts (r : Run) : List Event :=
  (downProcessReboot r.o r.procList' r.processRebootRetry r.down r.left).events

/-- No start command is executed twice, and no restart command after it has succeeded. -/
structure OnceOnly (r : Run) : Prop where
  starts : (started (initBoot r.o.globbing r.procList).events).Nodup
  restarts : NotAgain r.restarts

/-- Nothing is executed again exactly if equal start commands stand next to each other, and every
restart command that comes up after it has succeeded is the last one that did. -/
theorem onceOnly_iff (r : Run) : r.OnceOnly ↔
    Grouped (startCommands r.o.globbing r.procList) ∧ ComesUpAsLast r.restarts := by
  have hRemembers := remembers_downProcessReboot r.o r.procList' r.processRebootRetry r.down r.left
  have hRestarts : NotAgain r.restarts ↔ ComesUpAsLast r.restarts :=
    notAgain_iff hRemembers.checked
  rw [← nodup_started, ← hRestarts]
  exact ⟨fun h => ⟨h.starts, h.restarts⟩, fun h => ⟨h.1, h.2⟩⟩

end Run

/-! ## Restarts that all succeed -/

/-- The commands of the lines that are not given up, in the order of the list. -/
def restartCommands (o : Outside Event) (procList : List Text) (alreadySendIdList : List Text) :
    List Text → Vars → List Text
  | [], _ => []
  | line :: down, vars =>
    if line ∈ alreadySendIdList then restartCommands o procList alreadySendIdList down vars
    else
      let vars := findProc o procList line vars
      (if vars.cmd = [] then [] else splitCommand o.globbing vars.cmd) ++
        restartCommands o procList alreadySendIdList down vars

/-- Every execution has succeeded. -/
def NoneFailed (events : List Event) : Prop :=
  ∀ splitCmd, Event.exec splitCmd false ∉ events

/-- These commands came up, and none of them failed. -/
structure CameUp (s s' : Reboot) (splitCmds : List Text) : Prop where
  ids : s'.alreadySendIdList = s.alreadySendIdList
  vars : s'.vars = s.vars
  remembers : Remembers s'
  noneFailed : NoneFailed s'.events
  succeeded_eq : succeeded s'.events = splitCmds.foldl
    (fun kept cmd => if kept.getLast? = some cmd then kept else kept ++ [cmd]) (succeeded s.events)

section AllSucceed

variable {o : Outside Event} {s s' t : Reboot} {splitCmd : Text} {splitCmds splitCmds' : List Text}
  {events : List Event}

theorem cameUp_trans (h : CameUp s s' splitCmds) (h' : CameUp s' t splitCmds') :
    CameUp s t (splitCmds ++ splitCmds') := by
  refine ⟨h'.ids.trans h.ids, h'.vars.trans h.vars, h'.remembers, h'.noneFailed, ?_⟩
  rw [List.foldl_append, ← h.succeeded_eq]
  exact h'.succeeded_eq

theorem noneFailed_log (h : NoneFailed s.events) {e : Event}
    (he : ∀ splitCmd, e ≠ .exec splitCmd false) : NoneFailed (s.log e).events := by
  intro splitCmd hMem
  rcases List.mem_append.mp hMem with hOld | hNew
  · exact h splitCmd hOld
  · exact he splitCmd (List.mem_singleton.mp hNew).symm

theorem cameUp_special (h : Remembers s) (hOk : NoneFailed s.events) (cmd : Text) :
    CameUp s (s.special cmd) [] := by
  have hRemembers := remembers_special h cmd
  unfold Reboot.special at hRemembers ⊢
  by_cases hEmpty : cmd = []
  · rw [if_pos hEmpty]
    exact ⟨rfl, rfl, h, hOk, rfl⟩
  · rw [if_neg hEmpty] at hRemembers ⊢
    refine ⟨rfl, rfl, hRemembers, noneFailed_log hOk (fun _ hEq => by cases hEq), ?_⟩
    exact (succeeded_append_singleton s.events (.special cmd)).trans (List.append_nil _)

theorem cameUp_runCommand (hSucceeds : ∀ events splitCmd, o.succeeds events splitCmd = true)
    (h : Remembers s) (hOk : NoneFailed s.events) (hNe : splitCmd ≠ []) :
    CameUp s (runCommand o s splitCmd).1 [splitCmd] ∧ (runCommand o s splitCmd).2 = true := by
  have hRemembers := remembers_runCommand (o := o) h splitCmd
  have hLast : splitCmd ∈ s.alreadyRebootCmdList ↔ _ := h.list_eq ▸ mem_memory_of_ne_nil hNe
  unfold runCommand at hRemembers ⊢
  by_cases hKnown : splitCmd ∈ s.alreadyRebootCmdList
  · rw [if_pos hKnown] at hRemembers ⊢
    refine ⟨⟨rfl, rfl, hRemembers, noneFailed_log hOk (fun _ hEq => by cases hEq), ?_⟩, rfl⟩
    rw [List.foldl_cons, if_pos (hLast.mp hKnown)]
    exact (succeeded_append_singleton s.events (.skip splitCmd)).trans (List.append_nil _)
  · rw [if_neg hKnown, if_pos (hSucceeds _ _)] at hRemembers ⊢
    refine ⟨⟨rfl, rfl, hRemembers, noneFailed_log hOk (fun _ hEq => by cases hEq), ?_⟩, rfl⟩
    rw [List.foldl_cons, if_neg fun hSame => hKnown (hLast.mpr hSame)]
    exact succeeded_append_singleton s.events (.exec splitCmd true)

theorem cameUp_runCommands (hSucceeds : ∀ events splitCmd, o.succeeds events splitCmd = true)
    (h : Remembers s) (hOk : NoneFailed s.events) (hNe : ∀ splitCmd ∈ splitCmds, splitCmd ≠ []) :
    CameUp s (runCommands o s splitCmds).1 splitCmds ∧ (runCommands o s splitCmds).2 = true := by
  induction splitCmds generalizing s with
  | nil => exact ⟨⟨rfl, rfl, h, hOk, rfl⟩, rfl⟩
  | cons splitCmd splitCmds ih =>
    obtain ⟨hFirst, hNe⟩ := List.forall_mem_cons.mp hNe
    obtain ⟨hCame, hGoesOn⟩ := cameUp_runCommand hSucceeds h hOk hFirst
    rw [runCommands]
    rcases hRun : runCommand o s splitCmd with ⟨s', ok⟩
    rw [hRun] at hCame hGoesOn
    cases hGoesOn
    obtain ⟨hRest, hResult⟩ := ih hCame.remembers hCame.noneFailed hNe
    exact ⟨cameUp_trans hCame hRest, hResult⟩

/-- A line of the list of down processes, whose commands are given with it. -/
theorem cameUp_rebootLine (hSucceeds : ∀ events splitCmd, o.succeeds events splitCmd = true)
    (procList : List Text) (processRebootRetry : Nat) {line : Text}
    (hNew : line ∉ s.alreadySendIdList) (h : Remembers s) (hOk : NoneFailed s.events)
    (hNe : ∀ splitCmd ∈ (if (findProc o procList line s.vars).cmd = [] then []
      else splitCommand o.globbing (findProc o procList line s.vars).cmd), splitCmd ≠ []) :
    CameUp { s with vars := findProc o procList line s.vars }
      (rebootLine o procList processRebootRetry s line)
      (if (findProc o procList line s.vars).cmd = [] then []
        else splitCommand o.globbing (findProc o procList line s.vars).cmd) := by
  unfold rebootLine
  rw [if_neg hNew]
  dsimp only
  generalize findProc o procList line s.vars = vars at hNe ⊢
  have hVars : Remembers { s with vars } := ⟨h.list_eq, h.checked⟩
  have hBefore := cameUp_special hVars hOk vars.specialBefore
  generalize Reboot.special _ vars.specialBefore = s₀ at hBefore ⊢
  rw [hBefore.vars]
  dsimp only
  split
  · exact hBefore
  · rename_i hCmd
    rw [if_neg hCmd] at hNe
    obtain ⟨hCame, hResult⟩ :=
      cameUp_runCommands hSucceeds hBefore.remembers hBefore.noneFailed hNe
    rcases hRun : runCommands o s₀ (splitCommand o.globbing vars.cmd) with ⟨s₁, ok⟩
    rw [hRun] at hCame hResult
    cases hResult
    have hAfter := cameUp_special hCame.remembers hCame.noneFailed s₁.vars.specialAfter
    have hAll := cameUp_trans (cameUp_trans hBefore hCame) hAfter
    rw [List.nil_append, List.append_nil] at hAll
    exact hAll

theorem succeeded_foldl (hSucceeds : ∀ events splitCmd, o.succeeds events splitCmd = true)
    (procList : List Text) (processRebootRetry : Nat) (down : List Text) (h : Remembers s)
    (hOk : NoneFailed s.events)
    (hNe : ∀ splitCmd ∈ restartCommands o procList s.alreadySendIdList down s.vars,
      splitCmd ≠ []) :
    NoneFailed (down.foldl (rebootLine o procList processRebootRetry) s).events ∧
      succeeded (down.foldl (rebootLine o procList processRebootRetry) s).events =
        (restartCommands o procList s.alreadySendIdList down s.vars).foldl
          (fun kept cmd => if kept.getLast? = some cmd then kept else kept ++ [cmd])
          (succeeded s.events) := by
  induction down generalizing s with
  | nil => exact ⟨hOk, rfl⟩
  | cons line down ih =>
    rw [List.foldl_cons]
    rw [restartCommands] at hNe ⊢
    by_cases hOld : line ∈ s.alreadySendIdList
    · rw [if_pos hOld] at hNe ⊢
      have hSkip : rebootLine o procList processRebootRetry s line = s := by
        unfold rebootLine
        rw [if_pos hOld]
      rw [hSkip]
      exact ih h hOk hNe
    · rw [if_neg hOld] at hNe ⊢
      obtain ⟨hHere, hLater⟩ := List.forall_mem_append.mp hNe
      have hCame := cameUp_rebootLine hSucceeds procList processRebootRetry hOld h hOk hHere
      have hRest := ih hCame.remembers hCame.noneFailed
      rw [hCame.ids, hCame.vars, hCame.succeeded_eq, ← List.foldl_append] at hRest
      exact hRest hLater

/-- If nothing fails, nothing is executed again exactly if no command has succeeded twice. -/
theorem notAgain_iff_nodup (h : NoneFailed events) :
    NotAgain events ↔ (succeeded events).Nodup := by
  induction events using List.reverseRecOn with
  | nil => exact iff_of_true along_nil List.nodup_nil
  | append_singleton events e ih =>
    have hBefore : NoneFailed events :=
      fun splitCmd hMem => h splitCmd (List.mem_append_left _ hMem)
    rw [NotAgain, along_append_singleton, succeeded_append_singleton]
    have hQuiet : succeeded [e] = [] → (∀ splitCmd ok, e ≠ .exec splitCmd ok) →
        (Along (fun before e => ∀ splitCmd ok, e = .exec splitCmd ok →
          splitCmd ∉ succeeded before) events ∧
          (∀ splitCmd ok, e = .exec splitCmd ok → splitCmd ∉ succeeded events) ↔
            (succeeded events ++ succeeded [e]).Nodup) := by
      intro hNone hOther
      rw [hNone, List.append_nil, ← ih hBefore]
      exact and_iff_left fun splitCmd ok hEq => absurd hEq (hOther splitCmd ok)
    cases e with
    | special cmd => exact hQuiet rfl fun _ _ hEq => by cases hEq
    | skip splitCmd => exact hQuiet rfl fun _ _ hEq => by cases hEq
    | notify processName => exact hQuiet rfl fun _ _ hEq => by cases hEq
    | exec splitCmd ok =>
      cases ok with
      | false => exact absurd (List.mem_append_right _ List.mem_cons_self) (h splitCmd)
      | true =>
        rw [show succeeded [.exec splitCmd true] = [splitCmd] from rfl, ← List.concat_eq_append,
          List.nodup_concat, ← ih hBefore, and_comm]
        refine and_congr_left fun _ => ⟨fun hNew => hNew splitCmd true rfl, ?_⟩
        rintro hNew _ _ hEq
        cases hEq
        exact hNew

end AllSucceed

namespace Run

/-- If every restart succeeds, nothing is executed again exactly if equal commands stand next to
each other, among the start commands and among the restart commands. -/
theorem onceOnly_of_succeeds (r : Run)
    (hSucceeds : ∀ events splitCmd, r.o.succeeds events splitCmd = true)
    (hNe : ∀ splitCmd ∈ restartCommands r.o r.procList' r.left.alreadySendIdList r.down r.left.vars,
      splitCmd ≠ []) :
    r.OnceOnly ↔ Grouped (startCommands r.o.globbing r.procList) ∧
      Grouped (restartCommands r.o r.procList' r.left.alreadySendIdList r.down r.left.vars) := by
  obtain ⟨hNoneFailed, hSucceeded⟩ := succeeded_foldl
    (s := { r.left with alreadyRebootCmdList := [], events := [] }) hSucceeds r.procList'
    r.processRebootRetry r.down ⟨rfl, along_nil⟩ (fun _ => List.not_mem_nil) hNe
  have hRestarts : NotAgain r.restarts ↔
      Grouped (restartCommands r.o r.procList' r.left.alreadySendIdList r.down r.left.vars) := by
    rw [← nodup_notRepeated]
    exact (notAgain_iff_nodup hNoneFailed).trans (iff_of_eq (congrArg List.Nodup hSucceeded))
  rw [← nodup_started, ← hRestarts]
  exact ⟨fun h => ⟨h.starts, h.restarts⟩, fun h => ⟨h.1, h.2⟩⟩

end Run

/-! ## Three processes -/

/-- The first process has the start command of the third one. -/
def threeProcesses : Run where
  o := ⟨noFiles, fun _ _ => true, fun _ => true⟩
  procList := ["01,p,a,a,,,,".toList, "02,q,b,b,,,,".toList, "03,r,a,a,,,,".toList]
  procList' := ["01,p,a,a,,,,".toList, "02,q,b,b,,,,".toList, "03,r,a,a,,,,".toList]
  processRebootRetry := 3
  down := []
  left := ⟨[], [], false, ⟨[], [], [], []⟩, []⟩

/-- Whatever the lists and the answers, nothing is executed again. -/
def AlwaysOnceOnly : Prop := ∀ r : Run, r.OnceOnly

/-- The start command `a` is executed before and after `b`. -/
theorem not_alwaysOnceOnly : ¬ AlwaysOnceOnly := by
  intro h
  have hStarts := (h threeProcesses).starts
  revert hStarts
  decide

end MasakariHA.Monitors.ProcessmonitorSh
