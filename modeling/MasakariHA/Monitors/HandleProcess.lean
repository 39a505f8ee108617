import MasakariHA.Monitors.HandleHost

/-!
# Restarting the processes that are down

`HandleProcess.restart_processes` of the process monitor. A process that is down is restarted
at most `restart_retries + 1` times; after the last failure the engine is notified and the name
is kept, so that the process is left alone while it stays down.

* `attempt`: one round of the loop, with `attempt_spec`;
* `retryLoop`: the rounds until one succeeds; `retries_eq_iff` says when the loop variable
  ends at its last value;
* `restartProcesses`, and `reportsExhausted_iff` on what it reports.
-/

namespace MasakariHA.Monitors

def EventConstants.typeProcess : String := "PROCESS"

namespace HandleProcess

open Lib

/-! ## Commands -/

/-- An entry of the process list, with the columns of a restart; a command may be missing. -/
structure Process where
  processName : String
  restartCommand : String
  preRestartCommand : Option String
  postRestartCommand : Option String
  runAsRoot : Bool
  deriving DecidableEq

/-- The options of `CONF.process` that a restart reads; a number of retries below `0` is left
out. -/
structure ProcessConf where
  restartRetries : Nat
  restartInterval : Int
  apiRetryMax : Int
  apiRetryInterval : Int

/-- The dictionary of `_make_event`. -/
structure ProcessEvent where
  type : String
  hostname : String
  generatedTime : Int
  event : String
  processName : String
  deriving DecidableEq

/-- What the monitor does. -/
inductive Action where
  | execute (cmd : String) (runAsRoot : Bool)
  | sleep (seconds : Int)
  | send (apiRetryMax apiRetryInterval : Int) (event : ProcessEvent)
  deriving DecidableEq

/-- The commands of an attempt. -/
inductive Stage where
  | preRestart
  | restart
  | postRestart
  deriving DecidableEq

/-- How the commands end, for each place in the list of down processes and each attempt there,
and what the monitor reads of its host. -/
structure Surroundings where
  outcome : Nat → Nat → Stage → Execution
  gethostname : String
  utcnow : Nat → Int

/-- The return value of `_execute_cmd`. -/
def executeCmd : Execution → Nat
  | .returned _ err => if err = "" then 0 else 1
  | .raised => 1

/-- `None` and the empty string are false. -/
def truthy (cmd : Option String) : Option String := cmd.filter (· ≠ "")

/-! ## Attempts -/

/-- A program that records what it does; an exception is a `continue` of the loop. -/
abbrev Round := EStateM Unit (List Action)

/-- Execute a command; when it fails, sleep and go on with the next attempt. -/
def command (conf : ProcessConf) (runAsRoot : Bool) (cmd : String) (e : Execution) :
    Round Unit := do
  modify (· ++ [.execute cmd runAsRoot])
  if executeCmd e ≠ 0 then
    modify (· ++ [.sleep conf.restartInterval])
    throw ()

/-- A command that is executed if it is there. -/
def optionalCommand (conf : ProcessConf) (runAsRoot : Bool) (cmd : Option String) (e : Execution) :
    Round Unit :=
  match truthy cmd with
  | some cmd => command conf runAsRoot cmd e
  | none => pure ()

/-- The body of the loop; it returns at the `break`. -/
def attempt (conf : ProcessConf) (p : Process) (outcome : Stage → Execution) : Round Unit := do
  optionalCommand conf p.runAsRoot p.preRestartCommand (outcome .preRestart)
  command conf p.runAsRoot p.restartCommand (outcome .restart)
  optionalCommand conf p.runAsRoot p.postRestartCommand (outcome .postRestart)

/-- The loop over `range(0, restart_retries + 1)` with its variable `retries`. -/
def retryLoop (conf : ProcessConf) (p : Process) (outcome : Nat → Stage → Execution) :
    List Nat → Nat → List Action → Nat × List Action
  | [], retries, t => (retries, t)
  | k :: ks, _, t =>
    match (attempt conf p (outcome k)).run t with
    | .ok _ t' => (k, t')
    | .error _ t' => retryLoop conf p outcome ks k t'

def makeEvent (s : Surroundings) (i : Nat) (processName : String) : ProcessEvent :=
  ⟨EventConstants.typeProcess, s.gethostname, s.utcnow i, EventConstants.eventStopped, processName⟩

/-- `restart_processes` from the process at place `i` on, with `tmp_restart_failure_list` and
the actions so far. -/
def restartFrom (conf : ProcessConf) (s : Surroundings) (restartFailureList : List String) :
    Nat → List Process → List String → List Action → List String × List Action
  | _, [], tmp, t => (tmp, t)
  | i, p :: ps, tmp, t =>
    if p.processName ∈ restartFailureList then
      restartFrom conf s restartFailureList (i + 1) ps (tmp ++ [p.processName]) t
    else
      let (retries, t') := retryLoop conf p (s.outcome i) (List.range (conf.restartRetries + 1)) 0 t
      if retries = conf.restartRetries then
        let event := makeEvent s i p.processName
        restartFrom conf s restartFailureList (i + 1) ps (tmp ++ [p.processName])
          (t' ++ [.send conf.apiRetryMax conf.apiRetryInterval event])
      else restartFrom conf s restartFailureList (i + 1) ps tmp t'

/-- `restart_processes`: the new `restart_failure_list`, and what was done. -/
def restartProcesses (conf : ProcessConf) (s : Surroundings) (restartFailureList : List String)
    (downProcessList : List Process) : List String × List Action :=
  restartFrom conf s restartFailureList 0 downProcessList [] []

/-! ## What should be reported -/

/-- The attempt succeeds: no command of it that is there fails. -/
def succeeds (p : Process) (outcome : Stage → Execution) : Bool :=
  (truthy p.preRestartCommand = none || executeCmd (outcome .preRestart) = 0) &&
    executeCmd (outcome .restart) = 0 &&
    (truthy p.postRestartCommand = none || executeCmd (outcome .postRestart) = 0)

/-- All `restart_retries + 1` attempts fail. -/
def exhausted (conf : ProcessConf) (p : Process) (outcome : Nat → Stage → Execution) : Bool :=
  (List.range (conf.restartRetries + 1)).all fun k => !succeeds p (outcome k)

/-- The first attempt to succeed is the last one there is. -/
def succeedsLast (conf : ProcessConf) (p : Process) (outcome : Nat → Stage → Execution) : Bool :=
  ((List.range conf.restartRetries).all fun k => !succeeds p (outcome k)) &&
    succeeds p (outcome conf.restartRetries)

/-- The events among the actions. -/
def sent (t : List Action) : List ProcessEvent :=
  t.filterMap fun
    | .send _ _ event => some event
    | _ => none

/-- The processes that were not listed before and for which `p` holds, with their places. -/
def newlyDown (restartFailureList : List String) (p : Process → Nat → Bool)
    (downProcessList : List (Process × Nat)) : List (Process × Nat) :=
  downProcessList.filter fun x => x.1.processName ∉ restartFailureList && p x.1 x.2

/-- A notification is sent for each process that was not listed before and whose attempts all
fail; the new list has the names of these, and those that were listed before. -/
def ReportsExhausted (conf : ProcessConf) (s : Surroundings) (restartFailureList : List String)
    (downProcessList : List Process) : Prop :=
  let r := restartProcesses conf s restartFailureList downProcessList
  let failed := fun (p : Process) i => exhausted conf p (s.outcome i)
  sent r.2 = (newlyDown restartFailureList failed downProcessList.zipIdx).map
      (fun x => makeEvent s x.2 x.1.processName) ∧
    r.1 = (downProcessList.zipIdx.filter fun x =>
      x.1.processName ∈ restartFailureList || failed x.1 x.2).map fun x => x.1.processName

/-! ## What an attempt and the loop do -/

section Loop

variable {conf : ProcessConf}

theorem sent_append_execute (t : List Action) (cmd : String) (runAsRoot : Bool) :
    sent (t ++ [.execute cmd runAsRoot]) = sent t := by
  simp [sent, List.filterMap_append]

theorem sent_append_sleep (t : List Action) (seconds : Int) :
    sent (t ++ [.sleep seconds]) = sent t := by
  simp [sent, List.filterMap_append]

theorem sent_append_send (t : List Action) (apiRetryMax apiRetryInterval : Int)
    (event : ProcessEvent) :
    sent (t ++ [.send apiRetryMax apiRetryInterval event]) = sent t ++ [event] := by
  simp [sent, List.filterMap_append]

theorem command_spec (runAsRoot : Bool) (cmd : String) (e : Execution) (t : List Action) :
    Ensures (command conf runAsRoot cmd e) t
      (fun _ t' => executeCmd e = 0 ∧ sent t' = sent t)
      (fun _ t' => executeCmd e ≠ 0 ∧ sent t' = sent t) := by
  unfold command
  rw [ensures_bind, ensures_modify]
  by_cases hFails : executeCmd e ≠ 0
  · rw [if_pos hFails, ensures_bind, ensures_modify, ensures_throw]
    exact ⟨hFails, (sent_append_sleep _ _).trans (sent_append_execute _ _ _)⟩
  · rw [if_neg hFails, ensures_pure]
    exact ⟨not_not.mp hFails, sent_append_execute _ _ _⟩

/-- A command that is not there succeeds. -/
theorem optionalCommand_spec (runAsRoot : Bool) (cmd : Option String) (e : Execution)
    (t : List Action) :
    Ensures (optionalCommand conf runAsRoot cmd e) t
      (fun _ t' => (truthy cmd = none || executeCmd e = 0) = true ∧ sent t' = sent t)
      (fun _ t' => (truthy cmd = none || executeCmd e = 0) = false ∧ sent t' = sent t) := by
  unfold optionalCommand
  cases truthy cmd with
  | none => exact ⟨rfl, rfl⟩
  | some cmd =>
    refine ensures_mono (command_spec runAsRoot cmd e t) ?_ ?_
    · rintro _ t' ⟨hZero, hSent⟩
      exact ⟨by simp [hZero], hSent⟩
    · rintro _ t' ⟨hFails, hSent⟩
      exact ⟨by simp [hFails], hSent⟩

theorem attempt_spec (conf : ProcessConf) (p : Process) (outcome : Stage → Execution)
    (t : List Action) :
    Ensures (attempt conf p outcome) t
      (fun _ t' => succeeds p outcome = true ∧ sent t' = sent t)
      (fun _ t' => succeeds p outcome = false ∧ sent t' = sent t) := by
  unfold attempt succeeds
  rw [ensures_bind]
  refine ensures_mono (optionalCommand_spec p.runAsRoot p.preRestartCommand
    (outcome .preRestart) t) (fun _ t₁ h₁ => ?_) (fun _ t₁ h₁ => ?_)
  · rw [ensures_bind]
    refine ensures_mono (command_spec p.runAsRoot p.restartCommand (outcome .restart) t₁)
      (fun _ t₂ h₂ => ?_) (fun _ t₂ h₂ => ?_)
    · refine ensures_mono (optionalCommand_spec p.runAsRoot p.postRestartCommand
        (outcome .postRestart) t₂) (fun _ t₃ h₃ => ?_) (fun _ t₃ h₃ => ?_)
      · exact ⟨by rw [h₁.1, h₃.1, h₂.1]; rfl, h₃.2.trans (h₂.2.trans h₁.2)⟩
      · exact ⟨by rw [h₃.1, Bool.and_false], h₃.2.trans (h₂.2.trans h₁.2)⟩
    · exact ⟨by simp [h₂.1], h₂.2.trans h₁.2⟩
  · exact ⟨by rw [h₁.1]; rfl, h₁.2⟩

/-- The loop ends with the first attempt that succeeds, or with the last one. -/
theorem retryLoop_spec (conf : ProcessConf) (p : Process) (outcome : Nat → Stage → Execution)
    (ks : List Nat) (retries : Nat) (t : List Action) :
    (retryLoop conf p outcome ks retries t).1 =
        (ks.find? fun k => succeeds p (outcome k)).getD (ks.getLast?.getD retries) ∧
      sent (retryLoop conf p outcome ks retries t).2 = sent t := by
  induction ks generalizing retries t with
  | nil => exact ⟨rfl, rfl⟩
  | cons k ks ih =>
    have hAttempt := attempt_spec conf p (outcome k) t
    unfold Ensures at hAttempt
    unfold retryLoop
    cases hRun : (attempt conf p (outcome k)).run t with
    | ok u t' =>
      rw [hRun] at hAttempt
      obtain ⟨hSucceeds, hSent⟩ := hAttempt
      refine ⟨?_, hSent⟩
      rw [List.find?_cons, hSucceeds]
      rfl
    | error u t' =>
      rw [hRun] at hAttempt
      obtain ⟨hFails, hSent⟩ := hAttempt
      obtain ⟨hRetries, hRest⟩ := ih k t'
      refine ⟨?_, hRest.trans hSent⟩
      dsimp only
      rw [hRetries, List.find?_cons, hFails]
      cases ks with
      | nil => rfl
      | cons k' ks => simp only [List.getLast?_cons, Option.getD_some]

/-- The loop variable ends at `restart_retries` when every attempt failed, and also when the last
one succeeded. -/
theorem retries_eq_iff (conf : ProcessConf) (p : Process) (outcome : Nat → Stage → Execution)
    (t : List Action) :
    (retryLoop conf p outcome (List.range (conf.restartRetries + 1)) 0 t).1 =
        conf.restartRetries ↔
      (exhausted conf p outcome || succeedsLast conf p outcome) = true := by
  have hLast : (List.range (conf.restartRetries + 1)).getLast?.getD 0 = conf.restartRetries := by
    simp [List.range_succ]
  rw [(retryLoop_spec conf p outcome _ 0 t).1, hLast, Bool.or_eq_true]
  cases hFind : (List.range (conf.restartRetries + 1)).find? fun k => succeeds p (outcome k) with
  | none =>
    have hAll := List.find?_eq_none.mp hFind
    refine iff_of_true rfl (Or.inl (List.all_eq_true.mpr fun k hMem => ?_))
    simpa using hAll k hMem
  | some k =>
    obtain ⟨hSucceeds, hRange, hBefore⟩ := List.find?_range_eq_some.mp hFind
    have hNot : exhausted conf p outcome = false := by
      refine List.all_eq_false.mpr ⟨k, hRange, ?_⟩
      simp [hSucceeds]
    rw [hNot, Option.getD_some]
    constructor
    · rintro rfl
      refine Or.inr (Bool.and_eq_true_iff.mpr ⟨List.all_eq_true.mpr fun j hj => ?_, hSucceeds⟩)
      exact hBefore j (List.mem_range.mp hj)
    · rintro (hFalse | hLate)
      · cases hFalse
      · obtain ⟨hFail, -⟩ := Bool.and_eq_true_iff.mp hLate
        have hNotLess : ¬ k < conf.restartRetries := by
          intro hLess
          have hFails := List.all_eq_true.mp hFail k (List.mem_range.mpr hLess)
          simp [hSucceeds] at hFails
        have hBound := List.mem_range.mp hRange
        omega

end Loop

/-! ## The whole list -/

section Restart

variable (conf : ProcessConf) (s : Surroundings) (restartFailureList : List String)

/-- The loop variable of the process ends at `restart_retries`. -/
def reported (p : Process) (i : Nat) : Bool :=
  exhausted conf p (s.outcome i) || succeedsLast conf p (s.outcome i)

theorem restartFrom_spec (i : Nat) (ps : List Process) (tmp : List String) (t : List Action) :
    (restartFrom conf s restartFailureList i ps tmp t).1 =
        tmp ++ ((ps.zipIdx i).filter fun x =>
          x.1.processName ∈ restartFailureList || reported conf s x.1 x.2).map
            (fun x => x.1.processName) ∧
      sent (restartFrom conf s restartFailureList i ps tmp t).2 =
        sent t ++ (newlyDown restartFailureList (reported conf s) (ps.zipIdx i)).map
          (fun x => makeEvent s x.2 x.1.processName) := by
  induction ps generalizing i tmp t with
  | nil => simp [restartFrom, newlyDown]
  | cons p ps ih =>
    unfold newlyDown at ih ⊢
    rw [restartFrom, List.zipIdx_cons, List.filter_cons, List.filter_cons]
    by_cases hListed : p.processName ∈ restartFailureList
    · rw [if_pos hListed, if_pos (by simp [hListed]), if_neg (by simp [hListed])]
      obtain ⟨hNames, hSent⟩ := ih (i + 1) (tmp ++ [p.processName]) t
      refine ⟨?_, hSent⟩
      rw [hNames, List.map_cons, List.append_assoc, List.singleton_append]
    · rw [if_neg hListed]
      have hRetries := retries_eq_iff conf p (s.outcome i) t
      obtain ⟨-, hQuiet⟩ := retryLoop_spec conf p (s.outcome i)
        (List.range (conf.restartRetries + 1)) 0 t
      revert hRetries hQuiet
      generalize retryLoop conf p (s.outcome i) (List.range (conf.restartRetries + 1)) 0 t = r
      intro hRetries hQuiet
      dsimp only
      by_cases hReported : reported conf s p i = true
      · rw [if_pos (hRetries.mpr hReported), if_pos (by simp [hReported]),
          if_pos (by simp [hListed, hReported])]
        obtain ⟨hNames, hSent⟩ := ih (i + 1) (tmp ++ [p.processName])
          (r.2 ++ [.send conf.apiRetryMax conf.apiRetryInterval (makeEvent s i p.processName)])
        refine ⟨?_, ?_⟩
        · rw [hNames, List.map_cons, List.append_assoc, List.singleton_append]
        · rw [hSent, sent_append_send, hQuiet, List.map_cons, List.append_assoc,
            List.singleton_append]
      · rw [if_neg (fun h => hReported (hRetries.mp h)), if_neg (by simp [hListed, hReported]),
          if_neg (by simp [hReported])]
        obtain ⟨hNames, hSent⟩ := ih (i + 1) tmp r.2
        exact ⟨hNames, by rw [hSent, hQuiet]⟩

/-- A weaker condition keeps as many elements only when it is the same on them. -/
theorem of_length_filter {α : Type} {l : List α} {p q : α → Bool}
    (hImp : ∀ a, q a = true → p a = true) (hLength : (l.filter p).length = (l.filter q).length)
    {a : α} (hMem : a ∈ l) (ha : p a = true) : q a = true := by
  have hSame : l.filter q = l.filter p :=
    (List.monotone_filter_right l hImp).eq_of_length hLength.symm
  have hKept : a ∈ l.filter q := by
    rw [hSame]
    exact List.mem_filter.mpr ⟨hMem, ha⟩
  exact (List.mem_filter.mp hKept).2

/-- What is reported is what failed, exactly when no process that is restarted comes up at its
last attempt. -/
theorem reportsExhausted_iff (downProcessList : List Process) :
    ReportsExhausted conf s restartFailureList downProcessList ↔
      ∀ x ∈ downProcessList.zipIdx, x.1.processName ∉ restartFailureList →
        succeedsLast conf x.1 (s.outcome x.2) = false := by
  obtain ⟨hNames, hSent⟩ := restartFrom_spec conf s restartFailureList 0 downProcessList [] []
  unfold ReportsExhausted restartProcesses
  dsimp only
  rw [hNames, hSent, List.nil_append, show sent [] = [] from rfl, List.nil_append]
  constructor
  · rintro ⟨-, hNames⟩ x hMem hListed
    by_contra hLate
    rw [Bool.not_eq_false] at hLate
    have hLength := congrArg List.length hNames
    rw [List.length_map, List.length_map] at hLength
    have hFailed := of_length_filter (fun x hx => ?_) hLength hMem (by simp [reported, hLate])
    · have hExhausted : exhausted conf x.1 (s.outcome x.2) = true := by
        simpa [hListed] using hFailed
      obtain ⟨-, hSucceeds⟩ := Bool.and_eq_true_iff.mp hLate
      have hFails := List.all_eq_true.mp hExhausted conf.restartRetries
        (List.mem_range.mpr (Nat.lt_succ_self _))
      simp [hSucceeds] at hFails
    · rcases Bool.or_eq_true_iff.mp hx with hOld | hExhausted
      · simp [hOld]
      · simp [reported, hExhausted]
  · intro hNone
    have hSame : ∀ x ∈ downProcessList.zipIdx, x.1.processName ∉ restartFailureList →
        reported conf s x.1 x.2 = exhausted conf x.1 (s.outcome x.2) := by
      intro x hMem hListed
      rw [reported, hNone x hMem hListed, Bool.or_false]
    constructor
    · congr 1
      apply List.filter_congr
      intro x hMem
      by_cases hListed : x.1.processName ∈ restartFailureList
      · simp [hListed]
      · rw [hSame x hMem hListed]
    · congr 1
      apply List.filter_congr
      intro x hMem
      by_cases hListed : x.1.processName ∈ restartFailureList
      · simp [hListed]
      · rw [hSame x hMem hListed]

end Restart

/-! ## The last attempt succeeds -/

/-- The restart command of the only process fails three times and then succeeds. -/
def recoversLate : Surroundings where
  outcome := fun _ k stage =>
    if stage = .restart ∧ k < 3 then .returned "" "Job for libvirtd.service failed."
    else .returned "" ""
  gethostname := "compute1"
  utcnow := fun _ => 0

/-- What is reported is what failed. -/
def AlwaysReportsExhausted : Prop :=
  ∀ (conf : ProcessConf) (s : Surroundings) (restartFailureList : List String)
    (downProcessList : List Process),
    ReportsExhausted conf s restartFailureList downProcessList

/-- With three retries, the fourth attempt succeeds; the host is reported all the same. -/
theorem not_alwaysReportsExhausted : ¬ AlwaysReportsExhausted := by
  intro h
  have hNames := (h ⟨3, 5, 12, 10⟩ recoversLate []
    [⟨"/usr/sbin/libvirtd", "systemctl restart libvirtd", none, none, true⟩]).2
  have hFailed : (restartProcesses ⟨3, 5, 12, 10⟩ recoversLate []
      [⟨"/usr/sbin/libvirtd", "systemctl restart libvirtd", none, none, true⟩]).1 =
      ["/usr/sbin/libvirtd"] := by decide
  rw [hFailed] at hNames
  revert hNames
  decide

end HandleProcess

end MasakariHA.Monitors
