import MasakariHA.Engine.Taskflow.HostFailure

/-!
# The instance recovery flow

The tasks of `drivers/taskflow/instance_failure.py` and the linear flow of them. Each task reads
the instance from nova on its own, and two of them poll it, so a run is told by its trace: the
calls of nova with their answers.

* `stopInstance`, `startInstance`, `confirmInstanceActive`: the tasks;
* `getInstanceRecoveryFlow`: the flow, with its default tasks;
* `Safe`, `Recovers`: what a trace must never show, and what it shows of a recovery;
* `instanceRecoveryFlow_safe`: every run is safe, and one that completes recovers.
-/

namespace MasakariHA.Engine.InstanceFailure

open Lib

/-! ## Calls -/

/-- A call of nova with its answer. -/
inductive Event where
  | getServer (uuid : String) (answer : Except Fault Server)
  | resetInstanceState (id status : String) (answer : Except Fault Unit)
  | stopServer (id : String) (answer : Except Fault Unit)
  | startServer (id : String) (answer : Except Fault Unit)

/-- The calls of a run, oldest first. -/
abbrev Trace := List Event

/-- A program of the flow. -/
abbrev FlowM := Prog Trace

/-- What nova answers to the next call, and how many polls fit into the waiting periods after a
stop and after a start. -/
structure Compute where
  getServer : Trace → Except Fault Server
  resetInstanceState : Trace → Except Fault Unit
  stopServer : Trace → Except Fault Unit
  startServer : Trace → Except Fault Unit
  powerOffPolls : Nat
  powerOnPolls : Nat

/-- A call of nova. -/
def ask {α : Type} (event : Except Fault α → Event) (answer : Trace → Except Fault α) :
    FlowM α := do
  let t ← get
  set (t ++ [event (answer t)])
  match answer t with
  | .ok a => pure a
  | .error e => throw e.val

section Tasks

variable (nova : Compute)

def getServer (uuid : String) : FlowM Server := ask (.getServer uuid) nova.getServer

def resetInstanceState (id status : String) : FlowM Unit :=
  ask (.resetInstanceState id status) nova.resetInstanceState

def stopServer (id : String) : FlowM Unit := ask (.stopServer id) nova.stopServer

def startServer (id : String) : FlowM Unit := ask (.startServer id) nova.startServer

/-! ## Tasks -/

variable (boolFromString : String → Bool) (processAllInstances : Bool) (instanceUuid : String)

/-- The periodic call of `_wait_for_power_off` or `_wait_for_active` under its timeout. -/
def waitForVmState (vmState : String) : Nat → FlowM Unit
  | 0 => throw .timeout
  | n + 1 => do
    let newInstance ← getServer nova instanceUuid
    if newInstance.vmState = vmState then pure () else waitForVmState vmState n

/-- A timeout of the wait fails the recovery. -/
def waitOrFail (vmState : String) (polls : Nat) (message : String) : FlowM Unit :=
  except (waitForVmState nova instanceUuid vmState polls) (· = .timeout) fun _ =>
    throw (Exc.raised .instanceRecoveryFailureException message)

/-- The calls that stop an instance which is not stopped. -/
def powerOff (i : Server) : FlowM Unit :=
  if i.vmState ≠ "stopped" then
    if i.vmState = "resized" then do
      resetInstanceState nova i.id "active"
      stopServer nova i.id
    else stopServer nova i.id
  else pure ()

/-- `StopInstanceTask.execute`. -/
def stopInstance : FlowM Unit := do
  let i ← getServer nova instanceUuid
  if !processAllInstances && !isHaEnabled boolFromString i then
    throw (Exc.raised .skipInstanceRecoveryException
      "Skipping execution of instance recovery workflow.")
  else if i.vmState ∈ ["paused", "rescued"] then
    throw (Exc.raised .ignoreInstanceRecoveryException
      s!"Recovery of instance '{instanceUuid}' is ignored as it is in '{i.vmState}' state.")
  else do
    powerOff nova i
    waitOrFail nova instanceUuid "stopped" nova.powerOffPolls s!"Failed to stop instance {i.id}"

/-- `StartInstanceTask.execute`. -/
def startInstance : FlowM Unit := do
  let i ← getServer nova instanceUuid
  if i.vmState = "stopped" then startServer nova i.id
  else
    throw (Exc.raised .instanceRecoveryFailureException
      (s!"Invalid state for Instance {instanceUuid}. Expected state: 'STOPPED', " ++
        s!"Actual state: '{i.vmState}'"))

/-- `ConfirmInstanceActiveTask.execute`. -/
def confirmInstanceActive : FlowM Unit :=
  waitOrFail nova instanceUuid "active" nova.powerOnPolls
    s!"Failed to start instance {instanceUuid}"

/-! ## The flow -/

/-- The plugins of `masakari.task_flow.tasks` that need nothing but an `instance_uuid`. -/
inductive InstanceTask where
  | stopInstanceTask | startInstanceTask | confirmInstanceActiveTask | noOp
deriving DecidableEq

def InstanceTask.execute : InstanceTask → FlowM Unit
  | .stopInstanceTask => stopInstance nova boolFromString processAllInstances instanceUuid
  | .startInstanceTask => startInstance nova instanceUuid
  | .confirmInstanceActiveTask => confirmInstanceActive nova instanceUuid
  | .noOp => pure ()

/-- The option `instance_failure_recovery_tasks`. -/
structure RecoveryTasks where
  pre : List InstanceTask := [.stopInstanceTask]
  main : List InstanceTask := [.startInstanceTask]
  post : List InstanceTask := [.confirmInstanceActiveTask]

/-- A linear flow stops at its first failing task. -/
def linearFlow (atoms : List (FlowM Unit)) : FlowM Unit := atoms.forM id

def getInstanceRecoveryFlow (tasks : RecoveryTasks) : FlowM Unit :=
  let execute := InstanceTask.execute nova boolFromString processAllInstances instanceUuid
  linearFlow [linearFlow (tasks.pre.map execute), linearFlow (tasks.main.map execute),
    linearFlow (tasks.post.map execute)]

end Tasks

/-! ## What a trace shows -/

namespace Event

def isStop : Event → Bool
  | .stopServer .. => true
  | _ => false

def isStart : Event → Bool
  | .startServer .. => true
  | _ => false

/-- The vm state that a reply shows. -/
def vmState? : Event → Option String
  | .getServer _ (.ok i) => some i.vmState
  | _ => none

end Event

/-- The instance as it is first seen. -/
def firstReply : Trace → Option Server
  | .getServer _ (.ok i) :: _ => some i
  | _ => none

section Shown

variable (boolFromString : String → Bool) (processAllInstances : Bool)

/-- The instance is neither skipped nor ignored. -/
def Treated (i : Server) : Prop :=
  (isHaEnabled boolFromString i = true ∨ processAllInstances = true) ∧
    i.vmState ≠ "paused" ∧ i.vmState ≠ "rescued"

/-- What holds of every run: `stop_server` is called at most once and for a treated instance that
was not seen stopped, and `start_server` directly after a reply that shows it stopped. -/
structure Safe (t : Trace) : Prop where
  stop_once : t.countP Event.isStop ≤ 1
  stop_treated : ∀ e ∈ t, e.isStop = true →
    ∃ i, firstReply t = some i ∧ Treated boolFromString processAllInstances i ∧
      i.vmState ≠ "stopped"
  start_stopped : ∀ front e, front ++ [e] <+: t → e.isStart = true →
    front.getLast?.bind Event.vmState? = some "stopped"

/-- A treated instance has been seen stopped, started once, and seen active. -/
structure Recovers (t : Trace) : Prop where
  first : ∃ i, firstReply t = some i ∧ Treated boolFromString processAllInstances i
  started : ∃ front e back, t = front ++ e :: back ∧ e.isStart = true ∧
    (∀ e' ∈ front ++ back, e'.isStart = false) ∧
    (∃ e' ∈ front, e'.vmState? = some "stopped") ∧ ∃ e' ∈ back, e'.vmState? = some "active"

end Shown

/-! ## What one call preserves -/

section Calls

variable {b : String → Bool} {p : Bool} {t : Trace} {e : Event}

theorem firstReply_append {i : Server} (h : firstReply t = some i) (back : Trace) :
    firstReply (t ++ back) = some i := by
  cases t with
  | nil => cases h
  | cons e rest =>
    cases e with
    | getServer uuid answer =>
      cases answer with
      | ok j => exact h
      | error f => cases h
    | resetInstanceState id status answer => cases h
    | stopServer id answer => cases h
    | startServer id answer => cases h

theorem safe_nil : Safe b p [] := by
  refine ⟨Nat.zero_le 1, fun e h => ?_, fun front e h => ?_⟩
  · cases h
  · rw [List.prefix_nil] at h
    simp at h

theorem safe_concat (h : Safe b p t)
    (hStop : e.isStop = true → t.countP Event.isStop = 0 ∧
      ∃ i, firstReply t = some i ∧ Treated b p i ∧ i.vmState ≠ "stopped")
    (hStart : e.isStart = true → t.getLast?.bind Event.vmState? = some "stopped") :
    Safe b p (t ++ [e]) := by
  refine ⟨?_, fun e' hMem hStop' => ?_, fun front e' hPrefix hStart' => ?_⟩
  · have hOnce := h.stop_once
    rw [List.countP_append, List.countP_singleton]
    by_cases he : e.isStop = true
    · have hNone := (hStop he).1
      rw [if_pos he]
      omega
    · rw [if_neg he]
      omega
  · have hFirst : ∃ i, firstReply t = some i ∧ Treated b p i ∧ i.vmState ≠ "stopped" := by
      rcases List.mem_append.mp hMem with hOld | hNew
      · exact h.stop_treated e' hOld hStop'
      · cases List.mem_singleton.mp hNew
        exact (hStop hStop').2
    obtain ⟨i, hReply, hTreated⟩ := hFirst
    exact ⟨i, firstReply_append hReply [e], hTreated⟩
  · rcases List.prefix_concat_iff.mp hPrefix with hWhole | hOld
    · obtain ⟨rfl, hLast⟩ := List.append_inj' hWhole rfl
      cases hLast
      exact hStart hStart'
    · exact h.start_stopped front e' hOld hStart'

/-- A call other than `stop_server` and `start_server` is always safe. -/
theorem safe_quiet (h : Safe b p t) (hStop : e.isStop = false) (hStart : e.isStart = false) :
    Safe b p (t ++ [e]) := by
  apply safe_concat h
  · intro he
    rw [hStop] at he
    cases he
  · intro he
    rw [hStart] at he
    cases he

theorem ensures_ask {α : Type} {event : Except Fault α → Event} {answer : Trace → Except Fault α}
    {Q : α → Trace → Prop} {E : Exc → Trace → Prop} :
    Ensures (ask event answer) t Q E ↔
      match answer t with
      | .ok a => Q a (t ++ [event (.ok a)])
      | .error e => E e.val (t ++ [event (.error e)]) := by
  unfold ask
  rw [ensures_bind, ensures_get, ensures_bind, ensures_set]
  cases answer t <;> exact Iff.rfl

/-- Whatever nova answers, a call leaves its event. -/
theorem ensures_ask_any {α : Type} {event : Except Fault α → Event}
    {answer : Trace → Except Fault α} :
    Ensures (ask event answer) t (fun a t' => t' = t ++ [event (.ok a)])
      (fun _ t' => ∃ f, t' = t ++ [event (.error f)]) := by
  rw [ensures_ask]
  cases answer t with
  | ok a => rfl
  | error f => exact ⟨f, rfl⟩

end Calls

/-! ## Tasks -/

section TaskProofs

variable {nova : Compute} {b : String → Bool} {p : Bool} {uuid : String} {t : Trace}

/-- A wait returns after a reply that shows the vm state. Every poll, answered or not, keeps the
invariant. -/
theorem waitForVmState_spec {I : Trace → Prop} {vmState : String}
    (hPoll : ∀ t answer, I t → I (t ++ [.getServer uuid answer])) (n : Nat) (t : Trace)
    (h : I t) :
    Ensures (waitForVmState nova uuid vmState n) t
      (fun _ t' => ∃ front i, I front ∧ t' = front ++ [.getServer uuid (.ok i)] ∧
        i.vmState = vmState)
      (fun _ => I) := by
  induction n generalizing t with
  | zero => exact h
  | succ n ih =>
    unfold waitForVmState
    rw [ensures_bind]
    refine ensures_mono ensures_ask_any (fun i t' ht' => ?_) fun f t' ht' => ?_
    · subst ht'
      by_cases hSeen : i.vmState = vmState
      · rw [if_pos hSeen]
        exact ⟨t, i, h, rfl, hSeen⟩
      · rw [if_neg hSeen]
        exact ih _ (hPoll t _ h)
    · obtain ⟨f', rfl⟩ := ht'
      exact hPoll t _ h

theorem waitOrFail_spec {I : Trace → Prop} {vmState : String}
    (hPoll : ∀ t answer, I t → I (t ++ [.getServer uuid answer])) (n : Nat) (message : String)
    (h : I t) :
    Ensures (waitOrFail nova uuid vmState n message) t
      (fun _ t' => ∃ front i, I front ∧ t' = front ++ [.getServer uuid (.ok i)] ∧
        i.vmState = vmState)
      (fun _ => I) := by
  unfold waitOrFail
  rw [ensures_except]
  refine ensures_mono (waitForVmState_spec hPoll n t h) (fun _ _ h' => h') fun e t' h' => ?_
  by_cases hTimeout : e = .timeout
  · rw [if_pos (decide_eq_true hTimeout)]
    exact h'
  · rw [if_neg (by simpa using hTimeout)]
    exact h'

/-- A safe trace of a treated instance that has not been started yet. -/
structure Treating (b : String → Bool) (p : Bool) (t : Trace) : Prop where
  safe : Safe b p t
  first : ∃ i, firstReply t = some i ∧ Treated b p i
  notStarted : ∀ e ∈ t, e.isStart = false

theorem treating_quiet {e : Event} (h : Treating b p t) (hStop : e.isStop = false)
    (hStart : e.isStart = false) : Treating b p (t ++ [e]) := by
  obtain ⟨i, hReply, hTreated⟩ := h.first
  refine ⟨safe_quiet h.safe hStop hStart, ⟨i, firstReply_append hReply [e], hTreated⟩, ?_⟩
  intro e' hMem
  rcases List.mem_append.mp hMem with hOld | hNew
  · exact h.notStarted e' hOld
  · cases List.mem_singleton.mp hNew
    exact hStart

/-- The calls before `stop_server` are no stops, so that it may be called. -/
theorem stopServer_spec {i : Server} (id : String) (h : Treating b p t)
    (hNone : t.countP Event.isStop = 0) (hFirst : firstReply t = some i)
    (hState : i.vmState ≠ "stopped") :
    Ensures (stopServer nova id) t (fun _ => Treating b p) (fun _ => Treating b p) := by
  have hAfter : ∀ answer, Treating b p (t ++ [.stopServer id answer]) := by
    intro answer
    obtain ⟨j, hReply, hTreated⟩ := h.first
    obtain rfl : i = j := Option.some.inj (hFirst.symm.trans hReply)
    refine ⟨safe_concat h.safe (fun _ => ⟨hNone, i, hReply, hTreated, hState⟩) ?_,
      ⟨i, firstReply_append hReply _, hTreated⟩, fun e hMem => ?_⟩
    · intro hStart
      cases hStart
    · rcases List.mem_append.mp hMem with hOld | hNew
      · exact h.notStarted e hOld
      · cases List.mem_singleton.mp hNew
        rfl
  refine ensures_mono ensures_ask_any (fun _ t' ht' => ?_) fun _ t' ht' => ?_
  · rw [ht']
    exact hAfter _
  · obtain ⟨f, rfl⟩ := ht'
    exact hAfter _

theorem powerOff_spec {i : Server} (hTreated : Treated b p i) :
    Ensures (powerOff nova i) [.getServer uuid (.ok i)] (fun _ => Treating b p)
      (fun _ => Treating b p) := by
  have hBegin : Treating b p [.getServer uuid (.ok i)] := by
    refine ⟨safe_quiet safe_nil rfl rfl, ⟨i, rfl, hTreated⟩, fun e hMem => ?_⟩
    cases List.mem_singleton.mp hMem
    rfl
  unfold powerOff
  by_cases hState : i.vmState ≠ "stopped"
  · rw [if_pos hState]
    by_cases hResized : i.vmState = "resized"
    · rw [if_pos hResized, ensures_bind]
      refine ensures_mono ensures_ask_any (fun _ t' ht' => ?_) fun _ t' ht' => ?_
      · subst ht'
        exact stopServer_spec i.id (treating_quiet hBegin rfl rfl) rfl rfl hState
      · obtain ⟨f, rfl⟩ := ht'
        exact treating_quiet hBegin rfl rfl
    · rw [if_neg hResized]
      exact stopServer_spec i.id hBegin rfl rfl hState
  · rw [if_neg hState]
    exact hBegin

theorem stopInstance_spec :
    Ensures (stopInstance nova b p uuid) [] (fun _ => Treating b p) (fun _ => Safe b p) := by
  have hSafe : ∀ answer, Safe b p [.getServer uuid answer] := by
    intro answer
    exact safe_quiet safe_nil rfl rfl
  unfold stopInstance
  rw [ensures_bind]
  refine ensures_mono ensures_ask_any (fun i t' ht' => ?_) fun _ t' ht' => ?_
  · rw [List.nil_append] at ht'
    subst ht'
    by_cases hSkip : (!p && !isHaEnabled b i) = true
    · rw [if_pos hSkip]
      exact hSafe _
    rw [if_neg hSkip]
    by_cases hIgnore : i.vmState ∈ ["paused", "rescued"]
    · rw [if_pos hIgnore]
      exact hSafe _
    rw [if_neg hIgnore, ensures_bind]
    have hTreated : Treated b p i := by
      constructor
      · cases hp : p with
        | true => exact Or.inr rfl
        | false => exact Or.inl (by simpa [hp] using hSkip)
      · simpa using hIgnore
    refine ensures_mono (powerOff_spec hTreated) (fun _ t₁ h₁ => ?_) fun _ _ h => h.safe
    refine ensures_mono (waitOrFail_spec (fun t answer h => treating_quiet h rfl rfl) _ _ h₁)
      (fun _ t₂ h₂ => ?_) fun _ _ h => h.safe
    obtain ⟨front, j, hFront, rfl, -⟩ := h₂
    exact treating_quiet hFront rfl rfl
  · obtain ⟨f, rfl⟩ := ht'
    exact hSafe _

theorem startInstance_spec (h : Treating b p t) :
    Ensures (startInstance nova uuid) t
      (fun _ t' => Safe b p t' ∧ ∃ front e, t' = front ++ [e] ∧ Treating b p front ∧
        e.isStart = true ∧ ∃ e' ∈ front, e'.vmState? = some "stopped")
      (fun _ => Safe b p) := by
  unfold startInstance
  rw [ensures_bind]
  refine ensures_mono ensures_ask_any (fun i t₁ h₁ => ?_) fun _ t₁ h₁ => ?_
  · subst h₁
    have hFront : Treating b p (t ++ [.getServer uuid (.ok i)]) := treating_quiet h rfl rfl
    by_cases hStopped : i.vmState = "stopped"
    · rw [if_pos hStopped]
      have hLast : (t ++ [Event.getServer uuid (.ok i)]).getLast?.bind Event.vmState? =
          some "stopped" := by
        rw [List.getLast?_concat, Option.bind_some, ← hStopped]
        rfl
      have hSafe : ∀ answer,
          Safe b p (t ++ [.getServer uuid (.ok i)] ++ [.startServer i.id answer]) := by
        intro answer
        apply safe_concat hFront.safe
        · intro hStop
          cases hStop
        · intro _
          exact hLast
      refine ensures_mono ensures_ask_any (fun _ t₂ h₂ => ?_) fun _ t₂ h₂ => ?_
      · subst h₂
        refine ⟨hSafe _, _, _, rfl, hFront, rfl, .getServer uuid (.ok i), by simp, ?_⟩
        rw [← hStopped]
        rfl
      · obtain ⟨f, rfl⟩ := h₂
        exact hSafe _
    · rw [if_neg hStopped]
      exact hFront.safe
  · obtain ⟨f, rfl⟩ := h₁
    exact (treating_quiet h rfl rfl).safe

/-- What the confirmation adds to a trace that ends with a start. -/
structure Confirming (b : String → Bool) (p : Bool) (t t' : Trace) : Prop where
  safe : Safe b p t'
  polls : ∃ back, t' = t ++ back ∧ ∀ e ∈ back, e.isStart = false

theorem confirming_poll {t' : Trace} (answer : Except Fault Server) (h : Confirming b p t t') :
    Confirming b p t (t' ++ [.getServer uuid answer]) := by
  obtain ⟨back, rfl, hBack⟩ := h.polls
  refine ⟨safe_quiet h.safe rfl rfl, back ++ [.getServer uuid answer], List.append_assoc .., ?_⟩
  intro e hMem
  rcases List.mem_append.mp hMem with hOld | hNew
  · exact hBack e hOld
  · cases List.mem_singleton.mp hNew
    rfl

theorem confirmInstanceActive_spec {front : Trace} {e : Event} (hFront : Treating b p front)
    (hStart : e.isStart = true) (hStopped : ∃ e' ∈ front, e'.vmState? = some "stopped")
    (hSafe : Safe b p (front ++ [e])) :
    Ensures (confirmInstanceActive nova uuid) (front ++ [e])
      (fun _ t' => Safe b p t' ∧ Recovers b p t') (fun _ => Safe b p) := by
  unfold confirmInstanceActive
  refine ensures_mono (waitOrFail_spec (I := Confirming b p (front ++ [e]))
    (fun _ answer h => confirming_poll answer h) _ _ ⟨hSafe, [], by simp, by simp⟩)
    (fun _ t' ht' => ?_) fun _ _ h => h.safe
  obtain ⟨polled, i, hPolled, rfl, hActive⟩ := ht'
  have hAll : Confirming b p (front ++ [e]) (polled ++ [.getServer uuid (.ok i)]) :=
    confirming_poll _ hPolled
  obtain ⟨back, rfl, hBack⟩ := hPolled.polls
  obtain ⟨j, hReply, hTreated⟩ := hFront.first
  refine ⟨hAll.safe, ⟨j, ?_, hTreated⟩, front, e, back ++ [.getServer uuid (.ok i)], ?_, hStart,
    fun e' hMem => ?_, hStopped, .getServer uuid (.ok i), by simp, ?_⟩
  · simp only [List.append_assoc]
    exact firstReply_append hReply _
  · simp
  · rcases List.mem_append.mp hMem with hOld | hNew
    · exact hFront.notStarted e' hOld
    rcases List.mem_append.mp hNew with hPoll | hLast
    · exact hBack e' hPoll
    · cases List.mem_singleton.mp hLast
      rfl
  · rw [← hActive]
    rfl

end TaskProofs

/-! ## The flow -/

section Flow

variable {t : Trace} {Q : Unit → Trace → Prop} {E : Exc → Trace → Prop}

@[simp] theorem ensures_linearFlow_nil : Ensures (linearFlow []) t Q E ↔ Q () t := Iff.rfl

@[simp] theorem ensures_linearFlow_cons {x : FlowM Unit} {xs : List (FlowM Unit)} :
    Ensures (linearFlow (x :: xs)) t Q E ↔
      Ensures x t (fun _ t' => Ensures (linearFlow xs) t' Q E) E := by
  change Ensures (x >>= fun _ => linearFlow xs) t Q E ↔ _
  exact ensures_bind

end Flow

/-- Whatever nova answers, a run of the default flow is safe, and it completes without an
exception only if it recovers a treated instance. -/
theorem instanceRecoveryFlow_safe (nova : Compute) (boolFromString : String → Bool)
    (processAllInstances : Bool) (instanceUuid : String) :
    Ensures (getInstanceRecoveryFlow nova boolFromString processAllInstances instanceUuid {}) []
      (fun _ t => Safe boolFromString processAllInstances t ∧
        Recovers boolFromString processAllInstances t)
      (fun _ t => Safe boolFromString processAllInstances t) := by
  unfold getInstanceRecoveryFlow
  simp only [List.map_cons, List.map_nil, InstanceTask.execute, ensures_linearFlow_cons,
    ensures_linearFlow_nil]
  refine ensures_mono stopInstance_spec (fun _ t₁ h₁ => ?_) fun _ _ h => h
  refine ensures_mono (startInstance_spec h₁) (fun _ t₂ h₂ => ?_) fun _ _ h => h
  obtain ⟨hSafe, front, e, rfl, hFront, hStart, hStopped⟩ := h₂
  exact confirmInstanceActive_spec hFront hStart hStopped hSafe

end MasakariHA.Engine.InstanceFailure
