import MasakariHA.Monitors.ProcessmonitorSh

/-!
# The main loop of `processmonitor.sh`

What the loop makes of one check after the other. The ids of the processes that it has given up and
`MASAKARI_API_SEND_FAIL_FLG` are kept from one iteration to the next, and neither is ever reset.

* `setConfValue`, `iteration`, `mainLoop`: the loop, with the notifications of the run;
* `Handling`: a line of the list of down processes comes up;
* `Accounted`: what the ids and the notifications of a run go back to;
* `accounted_mainLoop`: every run is accounted for.
-/

namespace MasakariHA.Monitors.ProcessmonitorSh

open Lib Lib.Shell

/-! ## `set_conf_value` -/

/-- The settings that are numbers, which may be omitted. -/
def numberSettings : List String :=
  ["PROCESS_CHECK_INTERVAL", "PROCESS_REBOOT_RETRY", "REBOOT_INTERVAL", "MASAKARI_API_SEND_TIMEOUT",
    "MASAKARI_API_SEND_RETRY", "MASAKARI_API_SEND_DELAY"]

/-- The settings that may not be omitted. -/
def requiredSettings : List String :=
  ["DOMAIN", "PROJECT", "ADMIN_USER", "ADMIN_PASS", "AUTH_URL", "REGION"]

def defaultProcessRebootRetry : Nat := 3

/-- `echo -n $VALUE | sed 's/[0-9]//g'` leaves nothing. -/
def isNumber (g : Globbing) (value : Text) : Bool := (echo (g.split value)).all Char.isDigit

/-- How often the loop over `seq $PROCESS_REBOOT_RETRY` is run; `seq` fails without a number. -/
def rebootRetry (g : Globbing) (value : Text) : Nat :=
  if value = [] then defaultProcessRebootRetry
  else
    match g.split value with
    | [w] => if w.all Char.isDigit then Nat.ofDigitChars 10 w 0 else 0
    | _ => 0

/-- `set_conf_value`, for what the configuration file sets; the answer is `PROCESS_REBOOT_RETRY`. -/
def setConfValue (g : Globbing) (conf : Option (String → Text)) : Option Nat :=
  conf.bind fun value =>
    if numberSettings.all (fun name => isNumber g (value name)) ∧
        requiredSettings.all (fun name => value name ≠ []) then
      some (rebootRetry g (value "PROCESS_REBOOT_RETRY"))
    else none

/-! ## The loop -/

/-- What an iteration finds. -/
structure Poll where
  o : Outside Event
  /-- What `check_proc_file_common` reads, unless it exits. -/
  procList : Option (List Text)
  /-- What the configuration file sets, if it can be read. -/
  conf : Option (String → Text)
  /-- The ids of `process_status_checker.sh`, unless its code is 2. -/
  down : Option (List Text)

/-- An iteration that gets to the restarts. -/
structure Round where
  o : Outside Event
  procList : List Text
  processRebootRetry : Nat
  down : List Text

/-- The checks of an iteration; an error is the code with which the script exits. -/
def Poll.round (p : Poll) : Except Nat Round :=
  match p.procList with
  | none => .error 2
  | some procList =>
    match setConfValue p.o.globbing p.conf with
    | none => .error 1
    | some processRebootRetry =>
      match p.down with
      | none => .error 1
      | some down => .ok ⟨p.o, procList, processRebootRetry, down⟩

/-- The events so far, and the notifications with whether they were sent. -/
def addEvent (o : Outside Event) (r : List Event × List (Text × Bool)) (e : Event) :
    List Event × List (Text × Bool) :=
  match e with
  | .special _ | .skip _ | .exec _ _ => (r.1 ++ [e], r.2)
  | .notify processName => (r.1 ++ [e], r.2 ++ [(processName, o.sends r.1)])

/-- The notifications of a call of `down_process_reboot`. -/
def notifications (o : Outside Event) (events : List Event) : List (Text × Bool) :=
  (events.foldl (addEvent o) ([], [])).2

/-- A line of the list of down processes comes up. -/
structure Handling where
  round : Round
  before : Reboot
  line : Text

def Handling.after (h : Handling) : Reboot :=
  rebootLine h.round.o h.round.procList h.round.processRebootRetry h.before h.line

/-- The lines of a call of `down_process_reboot`, as they come up. -/
def Round.handlings (r : Round) : List Text → Reboot → List Handling
  | [], _ => []
  | line :: down, s => ⟨r, s, line⟩ :: r.handlings down (Handling.after ⟨r, s, line⟩)

/-- The state of the script, with the notifications of the run and the lines that came up. -/
structure Monitor where
  reboot : Reboot
  notified : List (Text × Bool)
  handled : List Handling
  exit : Option Nat

/-- The state before the loop; the variables are as `init_boot` leaves them. -/
def start (vars : Vars) : Monitor := ⟨⟨[], [], false, vars, []⟩, [], [], none⟩

/-- The restarts of an iteration. -/
def Monitor.restart (m : Monitor) (r : Round) : Monitor :=
  if r.down = [] then m
  else
    let s := downProcessReboot r.o r.procList r.processRebootRetry r.down m.reboot
    { m with
      reboot := s
      notified := m.notified ++ notifications r.o s.events
      handled := m.handled ++
        r.handlings r.down { m.reboot with alreadyRebootCmdList := [], events := [] } }

def iteration (m : Monitor) (p : Poll) : Monitor :=
  if m.exit.isSome then m
  else
    match p.round with
    | .error code => { m with exit := some code }
    | .ok r => m.restart r

def mainLoop (vars : Vars) (polls : List Poll) : Monitor := polls.foldl iteration (start vars)

/-! ## Notifications and failures -/

section Events

variable {o : Outside Event} {s s' t : Reboot} {events : List Event}

theorem events_foldl (o : Outside Event) (events : List Event)
    (r : List Event × List (Text × Bool)) : (events.foldl (addEvent o) r).1 = r.1 ++ events := by
  induction events generalizing r with
  | nil => exact (List.append_nil _).symm
  | cons e events ih =>
    rw [List.foldl_cons, ih]
    cases e <;> exact List.append_assoc _ _ _

theorem notifications_append_singleton (o : Outside Event) (events : List Event) (e : Event) :
    notifications o (events ++ [e]) = (addEvent o (events, notifications o events) e).2 := by
  unfold notifications
  rw [List.foldl_append, List.foldl_cons, List.foldl_nil]
  congr 1
  apply congrArg (fun r => addEvent o r e)
  exact Prod.ext (events_foldl o events ([], [])) rfl

/-- A command that failed. -/
def Event.failed : Event → Bool
  | .exec _ ok => !ok
  | .special _ => false
  | .skip _ => false
  | .notify _ => false

def failures (s : Reboot) : Nat := s.events.countP Event.failed

/-- Nothing is notified, and no process is given up. -/
structure Quiet (o : Outside Event) (s s' : Reboot) : Prop where
  ids : s'.alreadySendIdList = s.alreadySendIdList
  fail : s'.apiSendFail = s.apiSendFail
  vars : s'.vars = s.vars
  notified : notifications o s'.events = notifications o s.events

theorem quiet_refl (s : Reboot) : Quiet o s s := ⟨rfl, rfl, rfl, rfl⟩

theorem quiet_trans (h : Quiet o s s') (h' : Quiet o s' t) : Quiet o s t :=
  ⟨h'.ids.trans h.ids, h'.fail.trans h.fail, h'.vars.trans h.vars, h'.notified.trans h.notified⟩

theorem failures_log (s : Reboot) (e : Event) :
    failures (s.log e) = failures s + if e.failed then 1 else 0 := by
  unfold failures Reboot.log
  rw [List.countP_append, List.countP_singleton]

theorem quiet_special (s : Reboot) (cmd : Text) :
    Quiet o s (s.special cmd) ∧ failures (s.special cmd) = failures s := by
  unfold Reboot.special
  split
  · exact ⟨quiet_refl s, rfl⟩
  · refine ⟨⟨rfl, rfl, rfl, ?_⟩, failures_log s (.special cmd)⟩
    exact notifications_append_singleton o s.events (.special cmd)

/-- A command of a process. -/
theorem quiet_runCommand (s : Reboot) (splitCmd : Text) :
    Quiet o s (runCommand o s splitCmd).1 ∧ failures (runCommand o s splitCmd).1 =
      failures s + if (runCommand o s splitCmd).2 then 0 else 1 := by
  have hLogged : ∀ e : Event, (addEvent o (s.events, notifications o s.events) e).2 =
      notifications o s.events → notifications o (s.log e).events = notifications o s.events :=
    fun e he => (notifications_append_singleton o s.events e).trans he
  unfold runCommand
  split
  · exact ⟨⟨rfl, rfl, rfl, hLogged _ rfl⟩, failures_log s (.skip splitCmd)⟩
  · split
    · exact ⟨⟨rfl, rfl, rfl, hLogged _ rfl⟩, failures_log s (.exec splitCmd true)⟩
    · exact ⟨⟨rfl, rfl, rfl, hLogged _ rfl⟩, failures_log s (.exec splitCmd false)⟩

/-- The commands of a process, of which one fails at most. -/
theorem quiet_runCommands (s : Reboot) (splitCmds : List Text) :
    Quiet o s (runCommands o s splitCmds).1 ∧ failures (runCommands o s splitCmds).1 =
      failures s + if (runCommands o s splitCmds).2 then 0 else 1 := by
  induction splitCmds generalizing s with
  | nil => exact ⟨quiet_refl s, rfl⟩
  | cons splitCmd splitCmds ih =>
    obtain ⟨hQuiet, hFailures⟩ := quiet_runCommand (o := o) s splitCmd
    rw [runCommands]
    rcases hRun : runCommand o s splitCmd with ⟨s', ok⟩
    rw [hRun] at hQuiet hFailures
    cases ok with
    | true =>
      obtain ⟨hRest, hMore⟩ := ih s'
      have hSame : failures s' = failures s := hFailures
      rw [hSame] at hMore
      exact ⟨quiet_trans hQuiet hRest, hMore⟩
    | false => exact ⟨hQuiet, hFailures⟩

/-- The process is given up: its id is kept, and it is notified if nothing has failed before. -/
structure GaveUp (o : Outside Event) (line processName : Text) (s s' : Reboot) : Prop where
  ids : s'.alreadySendIdList = s.alreadySendIdList ++ [line]
  silent : s.apiSendFail = true →
    s'.apiSendFail = true ∧ notifications o s'.events = notifications o s.events
  sent : s.apiSendFail = false →
    ∃ ok, s'.apiSendFail = !ok ∧
      notifications o s'.events = notifications o s.events ++ [(processName, ok)]

theorem gaveUp_giveUp (line : Text) (s : Reboot) :
    GaveUp o line s.vars.processName s (giveUp o line s) ∧
      failures (giveUp o line s) = failures s ∧ (giveUp o line s).vars = s.vars := by
  unfold giveUp
  dsimp only
  by_cases hFail : s.apiSendFail = true
  · rw [if_pos hFail]
    refine ⟨⟨rfl, fun _ => ⟨hFail, rfl⟩, fun hNot => ?_⟩, rfl, rfl⟩
    rw [hFail] at hNot
    cases hNot
  · rw [if_neg hFail]
    refine ⟨⟨rfl, fun h => absurd h hFail, fun _ => ⟨o.sends s.events, rfl, ?_⟩⟩, ?_, rfl⟩
    · exact notifications_append_singleton o s.events (.notify s.vars.processName)
    · exact failures_log s (.notify s.vars.processName)

/-- The retries: the process comes up again before they are over, or every one of them fails. -/
theorem retryCommands_cases (line : Text) (splitCmds : List Text) (left : Nat) (s : Reboot) :
    (Quiet o s (retryCommands o line splitCmds left s) ∧
        failures (retryCommands o line splitCmds left s) ≤ failures s + (left - 1)) ∨
      (1 ≤ left ∧ ∃ t, Quiet o s t ∧ failures t = failures s + left ∧
        retryCommands o line splitCmds left s = giveUp o line t) := by
  induction left generalizing s with
  | zero => exact Or.inl ⟨quiet_refl s, Nat.le_refl _⟩
  | succ left ih =>
    obtain ⟨hQuiet, hFailures⟩ := quiet_runCommands (o := o) s splitCmds
    rw [retryCommands]
    rcases hRun : runCommands o s splitCmds with ⟨s', ok⟩
    rw [hRun] at hQuiet hFailures
    cases ok with
    | true =>
      left
      dsimp only at hFailures ⊢
      rw [if_pos rfl] at hFailures
      exact ⟨hQuiet, by omega⟩
    | false =>
      dsimp only at hFailures ⊢
      rw [if_neg Bool.false_ne_true] at hFailures
      by_cases hLast : left = 0
      · rw [if_pos hLast]
        right
        exact ⟨by omega, s', hQuiet, by omega, rfl⟩
      · rw [if_neg hLast]
        rcases ih s' with ⟨hMore, hFew⟩ | ⟨hLeft, t, hMore, hAll, hGiven⟩
        · left
          exact ⟨quiet_trans hQuiet hMore, by omega⟩
        · right
          exact ⟨by omega, t, quiet_trans hQuiet hMore, by omega, hGiven⟩

/-- What is done for a line when its variables are set. -/
def restartLine (o : Outside Event) (processRebootRetry : Nat) (line : Text) (s : Reboot) :
    Reboot :=
  let s := s.special s.vars.specialBefore
  if s.vars.cmd = [] then s
  else
    let splitCmds := splitCommand o.globbing s.vars.cmd
    let s := match runCommands o s splitCmds with
      | (s, true) => s
      | (s, false) => retryCommands o line splitCmds processRebootRetry s
    s.special s.vars.specialAfter

theorem rebootLine_of_notMem (o : Outside Event) (procList : List Text) (processRebootRetry : Nat)
    {line : Text} (hNew : line ∉ s.alreadySendIdList) :
    rebootLine o procList processRebootRetry s line = restartLine o processRebootRetry line
      { s with vars := findProc o procList line s.vars } := by
  unfold rebootLine
  rw [if_neg hNew]
  rfl

/-- The process comes up again, or has no command, or is given up. -/
theorem restartLine_cases (o : Outside Event) (processRebootRetry : Nat) (line : Text)
    (s : Reboot) :
    (Quiet o s (restartLine o processRebootRetry line s) ∧
        (failures (restartLine o processRebootRetry line s) < failures s + 1 + processRebootRetry ∨
          processRebootRetry = 0)) ∨
      (1 ≤ processRebootRetry ∧ ∃ t, Quiet o s t ∧
        failures t = failures s + 1 + processRebootRetry ∧
        Quiet o (giveUp o line t) (restartLine o processRebootRetry line s) ∧
        failures (restartLine o processRebootRetry line s) = failures (giveUp o line t)) := by
  unfold restartLine
  obtain ⟨hBefore, hSame⟩ := quiet_special (o := o) s s.vars.specialBefore
  generalize s.special s.vars.specialBefore = s₀ at hBefore hSame ⊢
  dsimp only
  by_cases hCmd : s₀.vars.cmd = []
  · rw [if_pos hCmd]
    exact Or.inl ⟨hBefore, by omega⟩
  · rw [if_neg hCmd]
    obtain ⟨hQuiet, hFailed⟩ :=
      quiet_runCommands (o := o) s₀ (splitCommand o.globbing s₀.vars.cmd)
    rcases hRun : runCommands o s₀ (splitCommand o.globbing s₀.vars.cmd) with ⟨s₁, ok⟩
    rw [hRun] at hQuiet hFailed
    have hFirst := quiet_trans hBefore hQuiet
    cases ok with
    | true =>
      dsimp only at hFailed hFirst ⊢
      rw [if_pos rfl] at hFailed
      obtain ⟨hAfter, hStill⟩ := quiet_special (o := o) s₁ s₁.vars.specialAfter
      exact Or.inl ⟨quiet_trans hFirst hAfter, by omega⟩
    | false =>
      dsimp only at hFailed hFirst ⊢
      rw [if_neg Bool.false_ne_true] at hFailed
      have hRetries := retryCommands_cases (o := o) line (splitCommand o.globbing s₀.vars.cmd)
        processRebootRetry s₁
      generalize retryCommands o line (splitCommand o.globbing s₀.vars.cmd) processRebootRetry s₁ =
        s₂ at hRetries ⊢
      obtain ⟨hAfter, hStill⟩ := quiet_special (o := o) s₂ s₂.vars.specialAfter
      rcases hRetries with ⟨hMore, hFew⟩ | ⟨hRetry, t, hMore, hAll, rfl⟩
      · exact Or.inl ⟨quiet_trans (quiet_trans hFirst hMore) hAfter, by omega⟩
      · exact Or.inr ⟨hRetry, t, quiet_trans hFirst hMore, by omega, hAfter, hStill⟩

end Events

/-! ## A line comes up -/

namespace Handling

variable (h : Handling)

/-- The line is now kept among those that are given up. -/
def givenUp : Bool :=
  decide (h.line ∉ h.before.alreadySendIdList ∧ h.line ∈ h.after.alreadySendIdList)

/-- The variables that are set for the line. -/
def vars : Vars := findProc h.round.o h.round.procList h.line h.before.vars

/-- The line was not given up before. Then the first try and all the retries have failed. -/
structure GivesUp : Prop where
  new : h.line ∉ h.before.alreadySendIdList
  retry : 1 ≤ h.round.processRebootRetry
  failed : failures h.after = failures h.before + 1 + h.round.processRebootRetry
  gaveUp : GaveUp h.round.o h.line h.vars.processName h.before h.after

/-- The line was not given up before, and it is not now. -/
structure Restarts : Prop where
  new : h.line ∉ h.before.alreadySendIdList
  failed : failures h.after < failures h.before + 1 + h.round.processRebootRetry ∨
    h.round.processRebootRetry = 0
  quiet : Quiet h.round.o { h.before with vars := h.vars } h.after

theorem after_of_mem (h : Handling) (hOld : h.line ∈ h.before.alreadySendIdList) :
    h.after = h.before := by
  unfold after rebootLine
  rw [if_pos hOld]

/-- A line that comes up is restarted or given up. -/
theorem restarts_or_givesUp (hNew : h.line ∉ h.before.alreadySendIdList) :
    h.Restarts ∨ h.GivesUp := by
  have hEq : h.after = restartLine h.round.o h.round.processRebootRetry h.line
      { h.before with vars := h.vars } :=
    rebootLine_of_notMem h.round.o h.round.procList h.round.processRebootRetry hNew
  rcases restartLine_cases h.round.o h.round.processRebootRetry h.line
    { h.before with vars := h.vars } with
    ⟨hQuiet, hFailed⟩ | ⟨hRetry, t, hQuiet, hFailed, hAfter, hSame⟩
  · rw [← hEq] at hQuiet hFailed
    exact Or.inl ⟨hNew, hFailed, hQuiet⟩
  · rw [← hEq] at hAfter hSame
    obtain ⟨hGave, hStill, -⟩ := gaveUp_giveUp (o := h.round.o) h.line t
    refine Or.inr ⟨hNew, hRetry, ?_, ?_⟩
    · exact hSame.trans (hStill.trans hFailed)
    · rw [hQuiet.vars] at hGave
      refine ⟨?_, fun hFail => ?_, fun hFail => ?_⟩
      · exact hAfter.ids.trans (hGave.ids.trans (by rw [hQuiet.ids]))
      · obtain ⟨hStays, hNone⟩ := hGave.silent (hQuiet.fail.trans hFail)
        exact ⟨hAfter.fail.trans hStays, hAfter.notified.trans (hNone.trans hQuiet.notified)⟩
      · obtain ⟨ok, hFlag, hSent⟩ := hGave.sent (hQuiet.fail.trans hFail)
        refine ⟨ok, hAfter.fail.trans hFlag, hAfter.notified.trans (hSent.trans ?_)⟩
        rw [hQuiet.notified]

/-- A process is given up exactly if the first try and all the retries fail, of which there must be
one. -/
theorem givenUp_iff : h.givenUp = true ↔ h.line ∉ h.before.alreadySendIdList ∧
    1 ≤ h.round.processRebootRetry ∧
      failures h.after = failures h.before + 1 + h.round.processRebootRetry := by
  unfold givenUp
  rw [decide_eq_true_eq]
  refine and_congr_right fun hNew => ?_
  rcases h.restarts_or_givesUp hNew with hRestarts | hGives
  · have hStill : h.line ∉ h.after.alreadySendIdList := by
      rw [hRestarts.quiet.ids]
      exact hNew
    have hFew := hRestarts.failed
    refine iff_of_false hStill ?_
    omega
  · refine iff_of_true ?_ ⟨hGives.retry, hGives.failed⟩
    rw [hGives.gaveUp.ids]
    exact List.mem_append_right _ (List.mem_singleton_self _)

end Handling

/-! ## Runs -/

/-- The lines that were given up. -/
def given (handled : List Handling) : List Handling := handled.filter Handling.givenUp

/-- What the ids and the notifications go back to, for rounds of a kind. -/
structure Accounted (P : Round → Prop) (s : Reboot) (notified : List (Text × Bool))
    (handled : List Handling) : Prop where
  rounds : ∀ h ∈ handled, h.line ∈ h.round.down ∧ P h.round
  ids : s.alreadySendIdList = (given handled).map Handling.line
  nodup : s.alreadySendIdList.Nodup
  /-- Nothing is done for a line that was given up. -/
  skipped : Along (fun earlier h => (∃ h' ∈ given earlier, h'.line = h.line) →
    h.after = h.before) handled
  /-- The first ones that are given up are notified, each once. -/
  named : notified.map Prod.fst =
    ((given handled).take notified.length).map fun h => h.vars.processName
  /-- Nothing is notified after a notification that was not sent. -/
  sent : ∀ n ∈ notified.dropLast, n.2 = true
  fail : s.apiSendFail = notified.any fun n => !n.2
  all : s.apiSendFail = false → notified.length = (given handled).length

section Runs

variable {P : Round → Prop} {s : Reboot} {notified base : List (Text × Bool)}
  {handled : List Handling} {h : Handling}

theorem accounted_nil (vars : Vars) : Accounted P (start vars).reboot [] [] := by
  refine ⟨List.forall_mem_nil _, rfl, List.nodup_nil, along_nil, rfl, List.forall_mem_nil _, rfl,
    fun _ => rfl⟩

theorem Accounted.length_le (hAccounted : Accounted P s notified handled) :
    notified.length ≤ (given handled).length := by
  have hNamed := congrArg List.length hAccounted.named
  rw [List.length_map, List.length_map, List.length_take] at hNamed
  omega

theorem given_append_singleton (handled : List Handling) (h : Handling) :
    given (handled ++ [h]) = given handled ++ if h.givenUp then [h] else [] := by
  unfold given
  rw [List.filter_append]
  congr 1
  cases hGiven : h.givenUp with
  | true => rw [List.filter_cons_of_pos hGiven, List.filter_nil, if_pos rfl]
  | false => rw [List.filter_cons_of_neg (by simp [hGiven]), List.filter_nil, if_neg (by simp)]

/-- A line that is not given up now. -/
theorem accounted_keep (hAccounted : Accounted P h.before notified handled)
    (hRound : h.line ∈ h.round.down ∧ P h.round) (hNot : h.givenUp = false)
    (hSkip : h.line ∈ h.before.alreadySendIdList → h.after = h.before)
    (hIds : h.after.alreadySendIdList = h.before.alreadySendIdList)
    (hFail : h.after.apiSendFail = h.before.apiSendFail) :
    Accounted P h.after notified (handled ++ [h]) := by
  have hGiven : given (handled ++ [h]) = given handled := by
    rw [given_append_singleton, hNot, if_neg Bool.false_ne_true, List.append_nil]
  refine ⟨?_, ?_, ?_, ?_, ?_, hAccounted.sent, hFail.trans hAccounted.fail, ?_⟩
  · exact List.forall_mem_append.mpr ⟨hAccounted.rounds, List.forall_mem_singleton.mpr hRound⟩
  · rw [hIds, hGiven]
    exact hAccounted.ids
  · rw [hIds]
    exact hAccounted.nodup
  · refine along_append_singleton.mpr ⟨hAccounted.skipped, fun ⟨h', hMem, hLine⟩ => hSkip ?_⟩
    rw [hAccounted.ids]
    exact List.mem_map.mpr ⟨h', hMem, hLine⟩
  · rw [hGiven]
    exact hAccounted.named
  · rw [hGiven, hFail]
    exact hAccounted.all

/-- A line that is given up now, and what is notified of it. -/
theorem accounted_givesUp
    (hAccounted : Accounted P h.before (base ++ notifications h.round.o h.before.events) handled)
    (hRound : h.line ∈ h.round.down ∧ P h.round) (hNew : h.line ∉ h.before.alreadySendIdList)
    (hGaveUp : GaveUp h.round.o h.line h.vars.processName h.before h.after) :
    Accounted P h.after (base ++ notifications h.round.o h.after.events) (handled ++ [h]) := by
  have hIds := hGaveUp.ids
  have hMem : h.line ∈ h.after.alreadySendIdList := by
    rw [hIds]
    exact List.mem_append_right _ (List.mem_singleton_self _)
  have hGiven : given (handled ++ [h]) = given handled ++ [h] := by
    rw [given_append_singleton, if_pos]
    exact decide_eq_true ⟨hNew, hMem⟩
  have hNodup : h.after.alreadySendIdList.Nodup := by
    rw [hIds, ← List.concat_eq_append]
    exact (List.nodup_concat _ _).mpr ⟨hNew, hAccounted.nodup⟩
  have hMap : h.after.alreadySendIdList = (given (handled ++ [h])).map Handling.line := by
    rw [hIds, hGiven, List.map_append, hAccounted.ids]
    rfl
  have hSkipped : Along (fun earlier h => (∃ h' ∈ given earlier, h'.line = h.line) →
      h.after = h.before) (handled ++ [h]) := by
    refine along_append_singleton.mpr ⟨hAccounted.skipped, fun ⟨h', hMem, hLine⟩ => ?_⟩
    refine absurd ?_ hNew
    rw [hAccounted.ids]
    exact List.mem_map.mpr ⟨h', hMem, hLine⟩
  have hRounds := List.forall_mem_append.mpr
    ⟨hAccounted.rounds, List.forall_mem_singleton.mpr hRound⟩
  have hLength := hAccounted.length_le
  cases hFail : h.before.apiSendFail with
  | true =>
    obtain ⟨hStays, hNone⟩ := hGaveUp.silent hFail
    rw [hNone]
    refine ⟨hRounds, hMap, hNodup, hSkipped, ?_, hAccounted.sent, ?_, fun hNot => ?_⟩
    · rw [hGiven, List.take_append_of_le_length hLength]
      exact hAccounted.named
    · rw [hStays, ← hFail]
      exact hAccounted.fail
    · rw [hStays] at hNot
      cases hNot
  | false =>
    obtain ⟨ok, hFlag, hSent⟩ := hGaveUp.sent hFail
    rw [hSent, ← List.append_assoc]
    generalize base ++ notifications h.round.o h.before.events = notified at hAccounted hLength ⊢
    have hAll := hAccounted.all hFail
    have hTrue : notified.any (fun n => !n.2) = false := hAccounted.fail.symm.trans hFail
    refine ⟨hRounds, hMap, hNodup, hSkipped, ?_, ?_, ?_, fun _ => ?_⟩
    · have hNamed := hAccounted.named
      rw [List.take_of_length_le (by omega)] at hNamed
      rw [hGiven, List.take_of_length_le, List.map_append, List.map_append, hNamed]
      · rfl
      · rw [List.length_append, List.length_append, hAll]
        rfl
    · rw [List.dropLast_concat]
      intro n hn
      simpa using List.any_eq_false.mp hTrue n hn
    · rw [List.any_append, hTrue, hFlag, Bool.false_or]
      exact (Bool.or_false _).symm
    · rw [hGiven, List.length_append, List.length_append, hAll]
      rfl

/-- A line comes up. -/
theorem accounted_after
    (hAccounted : Accounted P h.before (base ++ notifications h.round.o h.before.events) handled)
    (hRound : h.line ∈ h.round.down ∧ P h.round) :
    Accounted P h.after (base ++ notifications h.round.o h.after.events) (handled ++ [h]) := by
  by_cases hOld : h.line ∈ h.before.alreadySendIdList
  · have hSame := h.after_of_mem hOld
    rw [show notifications h.round.o h.after.events = notifications h.round.o h.before.events by
      rw [hSame]]
    exact accounted_keep hAccounted hRound (decide_eq_false fun hMem => hMem.1 hOld)
      (fun _ => hSame) (by rw [hSame]) (by rw [hSame])
  · rcases h.restarts_or_givesUp hOld with hRestarts | hGives
    · have hQuiet := hRestarts.quiet
      rw [hQuiet.notified]
      refine accounted_keep hAccounted hRound ?_ (fun hMem => absurd hMem hOld) hQuiet.ids
        hQuiet.fail
      refine decide_eq_false fun hMem => hOld ?_
      rw [← hQuiet.ids]
      exact hMem.2
    · exact accounted_givesUp hAccounted hRound hOld hGives.gaveUp

/-- The lines of a call come up. -/
theorem accounted_handlings {r : Round} (hP : P r) (down : List Text)
    (hDown : ∀ line ∈ down, line ∈ r.down)
    (hAccounted : Accounted P s (base ++ notifications r.o s.events) handled) :
    Accounted P (down.foldl (rebootLine r.o r.procList r.processRebootRetry) s)
      (base ++ notifications r.o
        (down.foldl (rebootLine r.o r.procList r.processRebootRetry) s).events)
      (handled ++ r.handlings down s) := by
  induction down generalizing s handled with
  | nil =>
    rw [Round.handlings, List.append_nil]
    exact hAccounted
  | cons line down ih =>
    obtain ⟨hLine, hDown⟩ := List.forall_mem_cons.mp hDown
    rw [Round.handlings, List.append_cons]
    exact ih hDown (accounted_after (h := ⟨r, s, line⟩) hAccounted ⟨hLine, hP⟩)

/-- The commands of the last call do not matter. -/
theorem accounted_reset (hAccounted : Accounted P s notified handled) :
    Accounted P { s with alreadyRebootCmdList := [], events := [] } notified handled :=
  ⟨hAccounted.rounds, hAccounted.ids, hAccounted.nodup, hAccounted.skipped, hAccounted.named,
    hAccounted.sent, hAccounted.fail, hAccounted.all⟩

theorem accounted_restart {m : Monitor} {r : Round} (hP : P r)
    (hAccounted : Accounted P m.reboot m.notified m.handled) :
    Accounted P (m.restart r).reboot (m.restart r).notified (m.restart r).handled := by
  unfold Monitor.restart
  split
  · exact hAccounted
  · refine accounted_handlings hP r.down (fun _ hLine => hLine) ?_
    rw [show notifications r.o [] = [] from rfl, List.append_nil]
    exact accounted_reset hAccounted

theorem accounted_iteration {m : Monitor} {p : Poll} (hP : ∀ r, p.round = .ok r → P r)
    (hAccounted : Accounted P m.reboot m.notified m.handled) :
    Accounted P (iteration m p).reboot (iteration m p).notified (iteration m p).handled := by
  unfold iteration
  split
  · exact hAccounted
  · cases hRound : p.round with
    | error code => exact hAccounted
    | ok r => exact accounted_restart (hP r hRound) hAccounted

/-- In every run, each process is given up once at most, and after that nothing is done for it; the
first ones that are given up are notified, up to the first notification that is not sent. -/
theorem accounted_mainLoop (vars : Vars) (polls : List Poll) :
    Accounted (fun r => ∃ p ∈ polls, p.round = .ok r) (mainLoop vars polls).reboot
      (mainLoop vars polls).notified (mainLoop vars polls).handled ∧
    ∀ h ∈ (mainLoop vars polls).handled, h.givenUp = true ↔ h.line ∉ h.before.alreadySendIdList ∧
      1 ≤ h.round.processRebootRetry ∧
        failures h.after = failures h.before + 1 + h.round.processRebootRetry := by
  refine ⟨?_, fun h _ => h.givenUp_iff⟩
  have hRun : ∀ (ps : List Poll) (m : Monitor), (∀ p ∈ ps, p ∈ polls) →
      Accounted (fun r => ∃ p ∈ polls, p.round = .ok r) m.reboot m.notified m.handled →
      Accounted (fun r => ∃ p ∈ polls, p.round = .ok r) (ps.foldl iteration m).reboot
        (ps.foldl iteration m).notified (ps.foldl iteration m).handled := by
    intro ps
    induction ps with
    | nil => exact fun _ _ hAccounted => hAccounted
    | cons p ps ih =>
      intro m hMem hAccounted
      obtain ⟨hHere, hMem⟩ := List.forall_mem_cons.mp hMem
      exact ih _ hMem (accounted_iteration (fun r hRound => ⟨p, hHere, hRound⟩) hAccounted)
  exact hRun polls (start vars) (fun _ hMem => hMem) (accounted_nil vars)

end Runs

/-- Nothing can be restarted, and the first notification is not sent. -/
def unsent (down : List Text) : Poll where
  o := ⟨noFiles, fun _ _ => false, fun _ => false⟩
  procList := some ["01,p,,a,,,,".toList, "02,q,,b,,,,".toList]
  conf := some fun name => if name ∈ requiredSettings then ['x'] else []
  down := some down

example : (mainLoop ⟨[], [], [], []⟩ [unsent ["01".toList], unsent ["01".toList, "02".toList]]
    ).notified = [("p".toList, false)] := by decide

end MasakariHA.Monitors.ProcessmonitorSh
