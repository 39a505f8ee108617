import MasakariHA.Lib.Trans
import MasakariHA.Monitors.HandleProcess

/-!
# The main loop of the process monitor

`ProcessmonitorManager.main`: the processes of the list are started, and then polled again and
again. A poll restarts the processes that are down, or clears `restart_failure_list` when none
is; the process list is loaded again after every poll. An exception ends `main`, so that a run
is any number of whole polls.

* `startProcesses`, `monitorProcesses`, `restartDown`: the parts of a poll;
* `processMonitor`: the loop, with the polls so far;
* `LeftAlone`: what the list has to remember, said of the polls alone;
* `leavesAlone_iff`: what is left alone, in every run.
-/

namespace MasakariHA.Monitors.ProcessMonitor

open Lib HandleProcess

/-! ## The parts of a poll -/

/-- An entry of the process list, with the columns of the initial start. -/
structure ListedProcess extends Process where
  startCommand : String
  preStartCommand : Option String
  postStartCommand : Option String

/-- The commands of the initial start. -/
inductive StartStage where
  | preStart
  | start
  | postStart

/-- One round of the loop of `start_processes`; only a failing `pre_start_command` ends it. -/
def startProcess (outcome : StartStage → Execution) (p : ListedProcess) : List Action :=
  let started := .execute p.startCommand p.runAsRoot ::
    (truthy p.postStartCommand).toList.map (.execute · p.runAsRoot)
  match truthy p.preStartCommand with
  | some cmd =>
    if executeCmd (outcome .preStart) ≠ 0 then [.execute cmd p.runAsRoot]
    else .execute cmd p.runAsRoot :: started
  | none => started

def startProcesses (outcome : Nat → StartStage → Execution) (processList : List ListedProcess) :
    List Action :=
  processList.zipIdx.flatMap fun x => startProcess (outcome x.2) x.1

/-- The name is not in the output of `ps -ef`; a failing `ps` says nothing. -/
def notFound (processName : String) : Execution → Bool
  | .returned out _ => !PyString.contains out processName
  | .raised => false

/-- The down processes, with `ps` as it ends for each entry of the list. -/
def monitorProcesses (ps : Nat → Execution) (processList : List ListedProcess) : List Process :=
  (processList.zipIdx.filter fun x => notFound x.1.processName (ps x.2)).map (·.1.toProcess)

/-- The restart of a poll: the `restart_failure_list` after it, and what was done. -/
def restartDown (conf : ProcessConf) (s : Surroundings) (restartFailureList : List String)
    (downProcessList : List Process) : List String × List Action :=
  if downProcessList.length ≠ 0 then restartProcesses conf s restartFailureList downProcessList
  else ([], [])

/-! ## The loop -/

/-- A poll that was made: what it started from, and what it met. -/
structure Polled where
  restartFailureList : List String
  surroundings : Surroundings
  downProcessList : List Process

/-- The monitor between two polls, with the polls so far in their order. -/
structure Monitor where
  processList : List ListedProcess
  restartFailureList : List String
  running : Bool
  started : List Action
  polls : List Polled

/-- What a poll meets: the outcomes of `ps` and of the commands, and the list loaded after it,
which may fail. -/
structure Round where
  ps : Nat → Execution
  surroundings : Surroundings
  loadProcessList : Option (List ListedProcess)

inductive Event where
  | round (r : Round)
  | stop

namespace Monitor

variable (conf : ProcessConf) (s : Monitor)

/-- The list is set to the handler, or the loop is left. -/
def reload : Option (List ListedProcess) → Monitor
  | some processList => { s with processList }
  | none => { s with running := false }

def poll (r : Round) : Monitor :=
  let down := monitorProcesses r.ps s.processList
  { s.reload r.loadProcessList with
    restartFailureList := (restartDown conf r.surroundings s.restartFailureList down).1
    polls := s.polls ++ [⟨s.restartFailureList, r.surroundings, down⟩] }

def step : Event → Option Monitor
  | .round r => if s.running then some (s.poll conf r) else none
  | .stop => some { s with running := false }

end Monitor

/-- `main` on any list that could be loaded. -/
def processMonitor (conf : ProcessConf) : Trans Monitor Event where
  init s := ∃ processList outcome,
    s = ⟨processList, [], true, startProcesses outcome processList, []⟩
  step s event := s.step conf event

/-! ## What should be left alone -/

namespace Polled

variable (conf : ProcessConf) (q : Polled)

/-- What is done for the first `k` down processes. -/
def upTo (k : Nat) : List Action :=
  (restartDown conf q.surroundings q.restartFailureList (q.downProcessList.take k)).2

def actions : List Action := q.upTo conf q.downProcessList.length

/-- A notification for a process of this name is sent. -/
def Notified (processName : String) : Prop :=
  ∃ e ∈ sent (q.actions conf), e.processName = processName

/-- A process of this name is reported down. -/
def Down (processName : String) : Prop := ∃ p ∈ q.downProcessList, p.processName = processName

/-- Nothing is done for the down process at place `k`. -/
def Skips (k : Nat) : Prop := q.upTo conf (k + 1) = q.upTo conf k

instance (k : Nat) : Decidable (q.Skips conf k) :=
  inferInstanceAs (Decidable (q.upTo conf (k + 1) = q.upTo conf k))

/-- The first command of the process at place `k` is executed. -/
def Restarts (k : Nat) (p : Process) : Prop :=
  ∃ rest, q.upTo conf (k + 1) = q.upTo conf k ++
    .execute ((truthy p.preRestartCommand).getD p.restartCommand) p.runAsRoot :: rest

end Polled

def NotifiedAt (conf : ProcessConf) (polls : List Polled) (i : Nat) (processName : String) : Prop :=
  ∃ q, polls[i]? = some q ∧ q.Notified conf processName

def DownAt (polls : List Polled) (i : Nat) (processName : String) : Prop :=
  ∃ q, polls[i]? = some q ∧ q.Down processName

/-- A notification was sent for the process at an earlier poll, and it was down at every poll
from that one up to before `j`. -/
def LeftAlone (conf : ProcessConf) (polls : List Polled) (j : Nat) (processName : String) : Prop :=
  ∃ i < j, NotifiedAt conf polls i processName ∧
    ∀ k, i ≤ k → k < j → DownAt polls k processName

/-! ## What is done for one process -/

section Restart

variable {conf : ProcessConf} {s : Surroundings} {restartFailureList : List String}

theorem command_extends (runAsRoot : Bool) (cmd : String) (e : Execution) (t : List Action) :
    Ensures (command conf runAsRoot cmd e) t
      (fun _ t' => ∃ rest, t' = t ++ .execute cmd runAsRoot :: rest)
      (fun _ t' => ∃ rest, t' = t ++ .execute cmd runAsRoot :: rest) := by
  unfold command
  rw [ensures_bind, ensures_modify]
  by_cases hFails : executeCmd e ≠ 0
  · rw [if_pos hFails, ensures_bind, ensures_modify, ensures_throw]
    exact ⟨_, List.append_assoc _ _ _⟩
  · rw [if_neg hFails, ensures_pure]
    exact ⟨[], rfl⟩

theorem optionalCommand_extends (runAsRoot : Bool) (cmd : Option String) (e : Execution)
    (t : List Action) :
    Ensures (optionalCommand conf runAsRoot cmd e) t (fun _ t' => t <+: t')
      (fun _ t' => t <+: t') := by
  unfold optionalCommand
  cases truthy cmd with
  | none => exact List.prefix_rfl
  | some cmd =>
    refine ensures_mono (command_extends runAsRoot cmd e t) ?_ ?_
    · rintro _ t' ⟨rest, rfl⟩
      exact List.prefix_append _ _
    · rintro _ t' ⟨rest, rfl⟩
      exact List.prefix_append _ _

/-- An attempt starts with its first command. -/
theorem attempt_extends (conf : ProcessConf) (p : Process) (outcome : Stage → Execution)
    (t : List Action) :
    Ensures (attempt conf p outcome) t
      (fun _ t' => t ++ [.execute ((truthy p.preRestartCommand).getD p.restartCommand)
        p.runAsRoot] <+: t')
      (fun _ t' => t ++ [.execute ((truthy p.preRestartCommand).getD p.restartCommand)
        p.runAsRoot] <+: t') := by
  have hPrefix : ∀ cmd t', (∃ rest, t' = t ++ Action.execute cmd p.runAsRoot :: rest) →
      t ++ [.execute cmd p.runAsRoot] <+: t' := by
    rintro cmd t' ⟨rest, rfl⟩
    exact ⟨rest, by simp⟩
  unfold attempt
  rw [ensures_bind]
  cases hPre : truthy p.preRestartCommand with
  | none =>
    unfold optionalCommand
    rw [hPre, ensures_pure, ensures_bind]
    refine ensures_mono (command_extends p.runAsRoot p.restartCommand (outcome .restart) t)
      (fun _ t₁ h₁ => ?_) (fun _ t₁ h₁ => hPrefix _ _ h₁)
    refine ensures_mono (optionalCommand_extends p.runAsRoot p.postRestartCommand
      (outcome .postRestart) t₁) ?_ ?_
    · exact fun _ t₂ h₂ => (hPrefix _ _ h₁).trans h₂
    · exact fun _ t₂ h₂ => (hPrefix _ _ h₁).trans h₂
  | some cmd =>
    have hFirst : Ensures (optionalCommand conf p.runAsRoot p.preRestartCommand
        (outcome .preRestart)) t
        (fun _ t' => ∃ rest, t' = t ++ .execute cmd p.runAsRoot :: rest)
        (fun _ t' => ∃ rest, t' = t ++ .execute cmd p.runAsRoot :: rest) := by
      unfold optionalCommand
      rw [hPre]
      exact command_extends p.runAsRoot cmd (outcome .preRestart) t
    refine ensures_mono hFirst (fun _ t₁ h₁ => ?_) (fun _ t₁ h₁ => hPrefix _ _ h₁)
    rw [ensures_bind]
    refine ensures_mono (command_extends p.runAsRoot p.restartCommand (outcome .restart) t₁)
      ?_ ?_
    · rintro _ t₂ ⟨rest, rfl⟩
      refine ensures_mono (optionalCommand_extends p.runAsRoot p.postRestartCommand
        (outcome .postRestart) _) ?_ ?_
      · exact fun _ t₃ h₃ => (hPrefix _ _ h₁).trans ((List.prefix_append _ _).trans h₃)
      · exact fun _ t₃ h₃ => (hPrefix _ _ h₁).trans ((List.prefix_append _ _).trans h₃)
    · rintro _ t₂ ⟨rest, rfl⟩
      exact (hPrefix _ _ h₁).trans (List.prefix_append _ _)

theorem retryLoop_extends (p : Process) (outcome : Nat → Stage → Execution) (ks : List Nat)
    (retries : Nat) (t : List Action) : t <+: (retryLoop conf p outcome ks retries t).2 := by
  induction ks generalizing retries t with
  | nil => exact List.prefix_rfl
  | cons k ks ih =>
    have hAttempt := attempt_extends conf p (outcome k) t
    unfold Ensures at hAttempt
    unfold retryLoop
    cases hRun : (attempt conf p (outcome k)).run t with
    | ok u t' =>
      rw [hRun] at hAttempt
      exact (List.prefix_append _ _).trans hAttempt
    | error u t' =>
      rw [hRun] at hAttempt
      exact ((List.prefix_append _ _).trans hAttempt).trans (ih k t')

theorem retryLoop_first (conf : ProcessConf) (p : Process) (outcome : Nat → Stage → Execution)
    (retries : Nat) (t : List Action) :
    t ++ [.execute ((truthy p.preRestartCommand).getD p.restartCommand) p.runAsRoot] <+:
      (retryLoop conf p outcome (List.range (conf.restartRetries + 1)) retries t).2 := by
  rw [List.range_succ_eq_map]
  have hAttempt := attempt_extends conf p (outcome 0) t
  unfold Ensures at hAttempt
  unfold retryLoop
  cases hRun : (attempt conf p (outcome 0)).run t with
  | ok u t' =>
    rw [hRun] at hAttempt
    exact hAttempt
  | error u t' =>
    rw [hRun] at hAttempt
    exact hAttempt.trans (retryLoop_extends p outcome _ 0 t')

/-- A process that is not on the list is restarted. -/
theorem restartFrom_first {p : Process} (h : p.processName ∉ restartFailureList) (i : Nat)
    (tmp : List String) (t : List Action) :
    ∃ rest, (restartFrom conf s restartFailureList i [p] tmp t).2 =
      t ++ .execute ((truthy p.preRestartCommand).getD p.restartCommand) p.runAsRoot :: rest := by
  have hFirst := retryLoop_first conf p (s.outcome i) 0 t
  rw [restartFrom, if_neg h]
  revert hFirst
  generalize retryLoop conf p (s.outcome i) (List.range (conf.restartRetries + 1)) 0 t = r
  rintro ⟨rest, hRest⟩
  dsimp only
  rw [← hRest]
  split
  · exact ⟨rest ++ [.send conf.apiRetryMax conf.apiRetryInterval
      (HandleProcess.makeEvent s i p.processName)], by simp [restartFrom]⟩
  · exact ⟨rest, by simp [restartFrom]⟩

theorem restartFrom_append (i : Nat) (ps qs : List Process) (tmp : List String)
    (t : List Action) :
    restartFrom conf s restartFailureList i (ps ++ qs) tmp t =
      restartFrom conf s restartFailureList (i + ps.length) qs
        (restartFrom conf s restartFailureList i ps tmp t).1
        (restartFrom conf s restartFailureList i ps tmp t).2 := by
  induction ps generalizing i tmp t with
  | nil => rfl
  | cons p ps ih =>
    have hPlace : i + (p :: ps).length = i + 1 + ps.length := by
      rw [List.length_cons]
      omega
    rw [List.cons_append, restartFrom, restartFrom, hPlace]
    split
    · exact ih (i + 1) _ _
    · dsimp only
      split
      · exact ih (i + 1) _ _
      · exact ih (i + 1) _ _

/-- No down process, or a restart of none: the same. -/
theorem restartDown_eq (down : List Process) :
    restartDown conf s restartFailureList down =
      restartProcesses conf s restartFailureList down := by
  unfold restartDown
  cases down with
  | nil => rfl
  | cons p ps => rfl

/-- The list after a poll: what is down, and was listed before or is notified now. -/
theorem mem_restartDown {down : List Process} {name : String} :
    name ∈ (restartDown conf s restartFailureList down).1 ↔
      (∃ p ∈ down, p.processName = name) ∧ (name ∈ restartFailureList ∨
        ∃ e ∈ sent (restartDown conf s restartFailureList down).2, e.processName = name) := by
  obtain ⟨hNames, hSent⟩ := restartFrom_spec conf s restartFailureList 0 down [] []
  rw [restartDown_eq, restartProcesses, hNames, hSent, List.nil_append, show sent [] = [] from rfl,
    List.nil_append]
  have hMem : ∀ x ∈ down.zipIdx, x.1 ∈ down := fun x hx => List.fst_mem_of_mem_zipIdx hx
  constructor
  · intro h
    obtain ⟨x, hx, rfl⟩ := List.mem_map.mp h
    obtain ⟨hPlace, hKept⟩ := List.mem_filter.mp hx
    refine ⟨⟨x.1, hMem x hPlace, rfl⟩, ?_⟩
    by_cases hListed : x.1.processName ∈ restartFailureList
    · exact Or.inl hListed
    · refine Or.inr ⟨_, List.mem_map_of_mem (List.mem_filter.mpr ⟨hPlace, ?_⟩), rfl⟩
      simpa [hListed] using hKept
  · rintro ⟨⟨p, hp, rfl⟩, hListed | ⟨e, he, hName⟩⟩
    · obtain ⟨x, hx, rfl⟩ : ∃ x ∈ down.zipIdx, x.1 = p := by
        obtain ⟨k, hk, rfl⟩ := List.mem_iff_getElem.mp hp
        exact ⟨(down[k], k), List.mk_mem_zipIdx_iff_getElem?.mpr (List.getElem?_eq_getElem hk), rfl⟩
      exact List.mem_map.mpr ⟨x, List.mem_filter.mpr ⟨hx, by simp [hListed]⟩, rfl⟩
    · obtain ⟨x, hx, rfl⟩ := List.mem_map.mp he
      obtain ⟨hPlace, hNew⟩ := List.mem_filter.mp hx
      rw [Bool.and_eq_true] at hNew
      exact List.mem_map.mpr ⟨x, List.mem_filter.mpr ⟨hPlace, by simp [hNew.2]⟩, hName⟩

end Restart

/-! ## One poll -/

section Poll

variable {conf : ProcessConf} {q : Polled} {k : Nat} {p : Process}

theorem upTo_succ (conf : ProcessConf) (h : q.downProcessList[k]? = some p) :
    ∃ tmp, q.upTo conf (k + 1) =
      (restartFrom conf q.surroundings q.restartFailureList k [p] tmp (q.upTo conf k)).2 := by
  obtain ⟨hLt, rfl⟩ := List.getElem?_eq_some_iff.mp h
  have hLength : 0 + (q.downProcessList.take k).length = k := by
    rw [List.length_take, Nat.zero_add]
    omega
  unfold Polled.upTo
  rw [restartDown_eq, restartDown_eq, ← List.take_concat_get' _ _ hLt]
  unfold restartProcesses
  rw [restartFrom_append, hLength]
  exact ⟨_, rfl⟩

theorem skips_of_listed (h : q.downProcessList[k]? = some p)
    (hListed : p.processName ∈ q.restartFailureList) : q.Skips conf k := by
  obtain ⟨tmp, hUpTo⟩ := upTo_succ conf h
  rw [restartFrom, if_pos hListed] at hUpTo
  exact hUpTo

theorem restarts_of_not_listed (h : q.downProcessList[k]? = some p)
    (hListed : p.processName ∉ q.restartFailureList) : q.Restarts conf k p := by
  obtain ⟨tmp, hUpTo⟩ := upTo_succ conf h
  obtain ⟨rest, hRest⟩ := restartFrom_first (s := q.surroundings) hListed k tmp (q.upTo conf k)
  exact ⟨rest, hUpTo.trans hRest⟩

theorem not_skips_of_restarts (h : q.Restarts conf k p) : ¬ q.Skips conf k := by
  intro hSkips
  obtain ⟨rest, hRest⟩ := h
  have hLength := congrArg List.length (hSkips.symm.trans hRest)
  rw [List.length_append, List.length_cons] at hLength
  omega

theorem skips_iff (h : q.downProcessList[k]? = some p) :
    q.Skips conf k ↔ p.processName ∈ q.restartFailureList := by
  constructor
  · intro hSkips
    by_contra hListed
    exact not_skips_of_restarts (restarts_of_not_listed h hListed) hSkips
  · exact skips_of_listed h

/-- Only a process that is down and not listed is notified. -/
theorem of_notified {name : String} (h : q.Notified conf name) :
    q.Down name ∧ name ∉ q.restartFailureList := by
  obtain ⟨e, he, rfl⟩ := h
  unfold Polled.actions Polled.upTo at he
  obtain ⟨-, hSent⟩ := restartFrom_spec conf q.surroundings q.restartFailureList 0
    q.downProcessList [] []
  rw [List.take_length, restartDown_eq, restartProcesses, hSent] at he
  obtain ⟨x, hx, rfl⟩ := List.mem_map.mp he
  obtain ⟨hPlace, hNew⟩ := List.mem_filter.mp hx
  rw [Bool.and_eq_true, decide_eq_true_eq] at hNew
  exact ⟨⟨x.1, List.fst_mem_of_mem_zipIdx hPlace, rfl⟩, hNew.1⟩

end Poll

/-! ## What the polls say -/

section LeftAlone

variable {conf : ProcessConf} {polls : List Polled} {q : Polled} {i j : Nat} {name : String}

theorem downAt_of_notifiedAt (h : NotifiedAt conf polls i name) : DownAt polls i name := by
  obtain ⟨q, hq, hNotified⟩ := h
  exact ⟨q, hq, (of_notified hNotified).1⟩

/-- One poll more to look back on. -/
theorem leftAlone_succ : LeftAlone conf polls (j + 1) name ↔
    DownAt polls j name ∧ (LeftAlone conf polls j name ∨ NotifiedAt conf polls j name) := by
  constructor
  · rintro ⟨i, hi, hNotified, hDown⟩
    refine ⟨hDown j (Nat.le_of_lt_succ hi) (Nat.lt_succ_self j), ?_⟩
    rcases Nat.lt_succ_iff_lt_or_eq.mp hi with hLt | rfl
    · exact Or.inl ⟨i, hLt, hNotified, fun k hik hkj => hDown k hik (Nat.lt_succ_of_lt hkj)⟩
    · exact Or.inr hNotified
  · rintro ⟨hLast, ⟨i, hi, hNotified, hDown⟩ | hNotified⟩
    · refine ⟨i, Nat.lt_succ_of_lt hi, hNotified, fun k hik hkj => ?_⟩
      rcases Nat.lt_succ_iff_lt_or_eq.mp hkj with hLt | rfl
      · exact hDown k hik hLt
      · exact hLast
    · refine ⟨j, Nat.lt_succ_self j, hNotified, fun k hjk hkj => ?_⟩
      rw [Nat.le_antisymm (Nat.le_of_lt_succ hkj) hjk]
      exact hLast

/-- A poll that comes later says nothing about the ones before. -/
theorem leftAlone_append (hj : j ≤ polls.length) :
    LeftAlone conf (polls ++ [q]) j name ↔ LeftAlone conf polls j name := by
  induction j with
  | zero =>
    constructor
    · rintro ⟨i, hi, -⟩
      exact absurd hi (Nat.not_lt_zero i)
    · rintro ⟨i, hi, -⟩
      exact absurd hi (Nat.not_lt_zero i)
  | succ j ih =>
    have hOld : (polls ++ [q])[j]? = polls[j]? := List.getElem?_append_left hj
    rw [leftAlone_succ, leftAlone_succ, ih (Nat.le_of_succ_le hj)]
    unfold DownAt NotifiedAt
    rw [hOld]

end LeftAlone

/-! ## Every run -/

/-- The list remembers what should be left alone, now and at every poll so far. -/
structure Remembers (conf : ProcessConf) (s : Monitor) : Prop where
  now : ∀ name, name ∈ s.restartFailureList ↔ LeftAlone conf s.polls s.polls.length name
  before : ∀ j q, s.polls[j]? = some q → ∀ name, name ∈ q.restartFailureList ↔
    LeftAlone conf s.polls j name

section Run

variable {conf : ProcessConf} {s s' : Monitor}

theorem remembers_poll (h : Remembers conf s) (r : Round) : Remembers conf (s.poll conf r) := by
  have hPolls : (s.poll conf r).polls = s.polls ++ [⟨s.restartFailureList, r.surroundings,
      monitorProcesses r.ps s.processList⟩] := rfl
  have hLast : (s.poll conf r).polls[s.polls.length]? = some ⟨s.restartFailureList,
      r.surroundings, monitorProcesses r.ps s.processList⟩ := by
    rw [hPolls]
    exact List.getElem?_concat_length
  refine ⟨fun name => ?_, fun j q hq name => ?_⟩
  · rw [hPolls, List.length_append, List.length_singleton, leftAlone_succ,
      leftAlone_append (Nat.le_refl _), ← h.now name, ← hPolls]
    refine mem_restartDown.trans (and_congr ?_ (or_congr Iff.rfl ?_))
    · constructor
      · exact fun hDown => ⟨_, hLast, hDown⟩
      · rintro ⟨q, hq, hDown⟩
        rw [hLast] at hq
        cases hq
        exact hDown
    · constructor
      · intro hSent
        refine ⟨_, hLast, ?_⟩
        unfold Polled.Notified Polled.actions Polled.upTo
        rw [List.take_length]
        exact hSent
      · rintro ⟨q, hq, hNotified⟩
        rw [hLast] at hq
        cases hq
        unfold Polled.Notified Polled.actions Polled.upTo at hNotified
        rw [List.take_length] at hNotified
        exact hNotified
  · rw [hPolls] at hq ⊢
    rcases Nat.lt_or_ge j s.polls.length with hLt | hGe
    · rw [List.getElem?_append_left hLt] at hq
      rw [leftAlone_append (Nat.le_of_lt hLt)]
      exact h.before j q hq name
    · obtain ⟨hBound, hGet⟩ := List.getElem?_eq_some_iff.mp hq
      rw [List.length_append, List.length_singleton] at hBound
      obtain rfl : j = s.polls.length := by omega
      rw [List.getElem?_concat_length] at hq
      cases hq
      rw [leftAlone_append (Nat.le_refl _)]
      exact h.now name

theorem remembers_step {event : Event} (h : Remembers conf s)
    (hs : s.step conf event = some s') : Remembers conf s' := by
  cases event with
  | round r =>
    simp only [Monitor.step] at hs
    split at hs
    · cases hs
      exact remembers_poll h r
    · cases hs
  | stop =>
    cases hs
    exact ⟨h.now, h.before⟩

theorem remembers_of_reachable (h : (processMonitor conf).Reachable s) : Remembers conf s := by
  refine Trans.invariant_of_step (I := Remembers conf) (fun s₀ h₀ => ?_)
    (fun _ _ _ hI _ hs => remembers_step hI hs) h
  obtain ⟨processList, outcome, rfl⟩ := h₀
  refine ⟨fun name => ?_, fun j q hq => ?_⟩
  · constructor
    · intro hMem
      cases hMem
    · rintro ⟨i, hi, -⟩
      exact absurd hi (Nat.not_lt_zero i)
  · cases hq

/-- In every run: a down process is left alone exactly when it was notified at an earlier poll and
has been down at every poll since; it is restarted otherwise, so also the next time it is down after
a poll at which it was not. Between two notifications for one name there is such a poll. -/
theorem leavesAlone_iff (h : (processMonitor conf).Reachable s) :
    (∀ j (q : Polled) k p, s.polls[j]? = some q → q.downProcessList[k]? = some p →
      (q.Skips conf k ↔ LeftAlone conf s.polls j p.processName) ∧
      (¬ q.Skips conf k → q.Restarts conf k p)) ∧
    (∀ i j name, i < j → NotifiedAt conf s.polls i name → NotifiedAt conf s.polls j name →
      ∃ k, i < k ∧ k < j ∧ ¬ DownAt s.polls k name) ∧
    ∀ i j (q : Polled) k p, i < j → s.polls[j]? = some q → q.downProcessList[k]? = some p →
      (∀ m, i ≤ m → m < j → ¬ DownAt s.polls m p.processName) → q.Restarts conf k p := by
  have hRemembers := remembers_of_reachable h
  have hLeft : ∀ j (q : Polled) k p, s.polls[j]? = some q → q.downProcessList[k]? = some p →
      (q.Skips conf k ↔ LeftAlone conf s.polls j p.processName) := by
    intro j q k p hPoll hDown
    rw [skips_iff hDown]
    exact hRemembers.before j q hPoll p.processName
  have hRestarts : ∀ (q : Polled) k p, q.downProcessList[k]? = some p → ¬ q.Skips conf k →
      q.Restarts conf k p := by
    intro q k p hDown hNot
    exact restarts_of_not_listed hDown fun hListed => hNot (skips_of_listed hDown hListed)
  refine ⟨fun j q k p hPoll hDown => ⟨hLeft j q k p hPoll hDown, hRestarts q k p hDown⟩,
    fun i j name hij hFirst hLast => ?_, fun i j q k p hij hPoll hDown hUp => ?_⟩
  · by_contra hNone
    push Not at hNone
    obtain ⟨q, hPoll, hNotified⟩ := hLast
    refine (of_notified hNotified).2 ((hRemembers.before j q hPoll name).mpr ⟨i, hij, hFirst, ?_⟩)
    intro k hik hkj
    rcases Nat.lt_or_eq_of_le hik with hLt | rfl
    · exact hNone k hLt hkj
    · exact downAt_of_notifiedAt hFirst
  · refine hRestarts q k p hDown fun hSkips => ?_
    -- At the poll before it was not down.
    obtain ⟨j, rfl⟩ : ∃ j', j = j' + 1 := ⟨j - 1, by omega⟩
    have hLast := (leftAlone_succ.mp ((hLeft (j + 1) q k p hPoll hDown).mp hSkips)).1
    exact hUp j (Nat.le_of_lt_succ hij) (Nat.lt_succ_self j) hLast

end Run

/-! ## A process that stays down -/

/-- No command succeeds. -/
def allFail : Surroundings where
  outcome := fun _ _ _ => .raised
  gethostname := "compute1"
  utcnow := fun _ => 0

def novaCompute : ListedProcess where
  processName := "nova-compute"
  restartCommand := "systemctl restart nova-compute"
  preRestartCommand := none
  postRestartCommand := none
  runAsRoot := true
  startCommand := "systemctl start nova-compute"
  preStartCommand := none
  postStartCommand := none

/-- A poll that does not find the process. -/
def downRound : Round := ⟨fun _ => .returned "" "", allFail, some [novaCompute]⟩

/-- The second poll of a process that cannot be restarted leaves it alone. -/
theorem leavesAlone_iff_second : ∃ (s : Monitor) (q : Polled), s.polls[1]? = some q ∧
    q.Skips ⟨1, 5, 12, 10⟩ 0 ∧ LeftAlone ⟨1, 5, 12, 10⟩ s.polls 1 "nova-compute" := by
  obtain ⟨s, hReach, hs⟩ := Trans.exists_reachable_of_runIf (T := processMonitor ⟨1, 5, 12, 10⟩)
    (s := ⟨[novaCompute], [], true, startProcesses (fun _ _ => .returned "" "") [novaCompute], []⟩)
    [.round downRound, .round downRound]
    (fun s => s.polls[1]?.any fun q : Polled =>
      decide (q.downProcessList[0]? = some novaCompute.toProcess) &&
        decide (q.Skips ⟨1, 5, 12, 10⟩ 0))
    ⟨_, _, rfl⟩ (by decide)
  obtain ⟨q, hPoll, hq⟩ := (Option.any_eq_true _ _).mp hs
  obtain ⟨hDown, hSkips⟩ := Bool.and_eq_true_iff.mp hq
  refine ⟨s, q, hPoll, of_decide_eq_true hSkips, ?_⟩
  exact (((leavesAlone_iff hReach).1 1 q 0 _ hPoll (of_decide_eq_true hDown)).1).mp
    (of_decide_eq_true hSkips)

end MasakariHA.Monitors.ProcessMonitor
