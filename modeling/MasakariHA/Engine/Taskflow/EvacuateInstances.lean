import MasakariHA.Engine.Taskflow.Nova

/-!
# Evacuating the instances of a failed host

`EvacuateInstancesTask` of `drivers/taskflow/host_failure.py`.

* `evacuateAndConfirm`: `_evacuate_and_confirm`, the program of one greenthread;
* `executeEvacuateInstances`: `execute`, which runs one greenthread for each instance and
  raises when the list of failed ids is not empty;
* `evacuateAndConfirm_reports`: a greenthread that got through its lock phase confirms its
  instance or reports it; one that did not leaves no trace;
* `executeEvacuateInstances_accounts`: so `execute` accounts for every instance exactly
  when no lock phase raises;
* `waitForEvacuationConfirmation_moved_iff`: a wait is ended by a moved instance only,
  exactly when the instance's hypervisor has the name of the failed host.
-/

namespace MasakariHA.Engine

open Lib

/-- The power state `SHUTDOWN`. -/
def shutdown : Nat := 4

/-! ## One greenthread -/

section Thread

variable (nova : Nova) (hostName : String)

/-- `_get_state_and_host_of_instance`, with the reply it is read from. -/
def getStateAndHostOfInstance (i : Server) : ThreadM (String × String × String × Server) := do
  let new ← getServer nova i.id
  pure (i.vmState, new.vmState, new.hypervisorHostname, new)

/-- The vm states that are accepted after an evacuation. -/
def acceptedState (oldVmState newVmState : String) : Bool :=
  (oldVmState = "error" && newVmState = "active") || oldVmState = newVmState

/-- The test of `_wait_for_evacuation_confirmation`. -/
def evacuated (i new : Server) : Bool :=
  new.hypervisorHostname ≠ hostName && acceptedState i.vmState new.vmState

/-- One round of `_wait_for_evacuation_confirmation`. -/
def pollEvacuation (i : Server) : ThreadM Bool := do
  let (oldVmState, newVmState, instanceHost, new) ← getStateAndHostOfInstance nova i
  modify fun t => t.poll (i, new)
  if instanceHost ≠ hostName then
    pure (acceptedState oldVmState newVmState)
  else pure false

/-- The wait for `_wait_for_evacuation_confirmation`. -/
def waitForEvacuationConfirmation (i : Server) (polls : Nat) : ThreadM Unit :=
  waitFor (pollEvacuation nova hostName i) polls

/-- `_wait_for_stop_confirmation`. -/
def pollStop (i : Server) : ThreadM Bool := do
  let (_, newVmState, _) ← getStateAndHostOfInstance nova i
  pure (newVmState = "stopped")

/-- `_stop_after_evacuation`; a timeout goes on to the caller. -/
def stopAfterEvacuation (i : Server) : ThreadM Unit := do
  stopServer nova i.id
  waitFor (pollStop nova i) nova.stopPolls

/-- The lines that bring an instance into a state that nova evacuates. They give the
instance as nova now has it, the `vm_state` to restore, and `stop_instance`. -/
def resetForEvacuation (i : Server) : ThreadM (Server × String × Bool) :=
  if i.vmState ∉ ["active", "error", "stopped"] then do
    resetInstanceState nova i.id
    let i' ← getServer nova i.id
    pure (i', i'.vmState, !(i.vmState = "resized" && i'.powerState ≠ shutdown))
  else if i.taskState ≠ none then do
    resetInstanceState nova i.id
    let i' ← getServer nova i.id
    pure (i', i.vmState, i.vmState ≠ "active")
  else pure (i, i.vmState, true)

/-- The inner `try` block: the wait, and the return to the old state. -/
def confirmAndRestore (i : Server) (vmState : String) (stopInstance : Bool) : ThreadM Unit :=
  except
    (do
      waitForEvacuationConfirmation nova hostName i nova.evacuationPolls
      if vmState ≠ "active" then
        if stopInstance then do
          stopAfterEvacuation nova i
          -- An instance that was in error before the failure is so after it.
          if vmState = "error" then resetInstanceState nova i.id)
    (· = .timeout) fun _ => modify (·.fail i.id)

/-- The outer `try` block. -/
def evacuate (target : Option String) (i : Server) : ThreadM Unit := do
  let (i', vmState, stopInstance) ← resetForEvacuation nova i
  evacuateInstance nova i'.id target
  confirmAndRestore nova hostName i' vmState stopInstance

/-- The lock phase: whether the instance is already locked by its user; if not, it is
locked. These two calls stand before the `try`. -/
def lockInstance (id : String) : ThreadM Bool := do
  let s ← getServer nova id
  if s.locked then pure true
  else do
    lockServer nova id
    pure false

def evacuateAndConfirm (target : Option String) (i : Server) : ThreadM Unit := do
  let alreadyLocked ← lockInstance nova i.id
  tryFinally
    (except (evacuate nova hostName target i) Exc.isException fun _ => modify (·.fail i.id))
    (if alreadyLocked then pure () else unlockServer nova i.id)

/-- A greenthread of `GreenPool.spawn_n`: what escapes from it is swallowed. -/
def runThread (target : Option String) (i : Server) : Thread :=
  match (evacuateAndConfirm nova hostName target i).run {} with
  | .ok _ t => t
  | .error _ t => t

end Thread

/-! ## The task -/

/-- A selection of instances, with the greenthreads that then ran on it and the host they
evacuated to. -/
structure Attempt where
  selected : List Server
  target : Option String := none
  pool : List (Server × Nova) := []

/-- A call of `execute_host_failure` so far: its attempts, newest first, and the number of
its disable and list calls. -/
structure Recovery where
  attempts : List Attempt := []
  disabled : Nat := 0
  listed : Nat := 0

/-- The pool of the newest selection starts. -/
def Recovery.startPool (r : Recovery) (target : Option String) (pool : List (Server × Nova)) :
    Recovery :=
  match r.attempts with
  | [] => r
  | a :: rest => { r with attempts := { a with target, pool } :: rest }

structure Aggregate where
  id : Nat
  hosts : List String

/-- A reserved host with what the lines before the pool meet: the lock on its name, nova,
and the database. -/
structure ReservedHost where
  name : String
  lockIsFree : Bool
  getAggregateList : Except NovaFault (List Aggregate)
  addHostToAggregate : Aggregate → Except NovaFault Unit
  enableService : Except NovaFault Unit
  save : Except NovaFault Unit

/-- The `[host_failure]` options. -/
structure HostFailureConf where
  evacuateAllInstances : Bool := true
  ignoreInstancesInErrorState : Bool := false
  addReservedHostToAggregate : Bool := false

section Task

variable (conf : HostFailureConf) (hostName : String)

/-- A call whose outcome is given. -/
def reply {α : Type} (r : Except NovaFault α) : Except Exc α := r.mapError (·.val)

/-- The reserved host is added to the first aggregate of the failed host. -/
def addReservedHostToAggregate (h : ReservedHost) : Except Exc Unit := do
  let aggregates ← reply h.getAggregateList
  match aggregates.find? (fun a => hostName ∈ a.hosts) with
  | none => pure ()
  | some a =>
    tryCatch (reply (h.addHostToAggregate a)) fun e =>
      if e.isA .conflict then pure () else throw e

/-- The lines of `_do_evacuate` on the reserved host. -/
def takeReservedHost (h : ReservedHost) : Except Exc Unit := do
  if conf.addReservedHostToAggregate then addReservedHostToAggregate hostName h
  reply h.enableService
  reply h.save

/-- The failed ids of the pool, in the order in which its greenthreads end. -/
def failedInstances (target : Option String) (pool : List (Server × Nova)) : List String :=
  pool.flatMap fun x => (runThread x.2 hostName target x.1).failed

/-- The pool of `_do_evacuate`, and the exception for its failed instances. -/
def evacuateInstances (target : Option String) (pool : List (Server × Nova)) :
    Prog Recovery Unit := do
  modify fun r => r.startPool target pool
  let failedEvacuationInstances := failedInstances hostName target pool
  if failedEvacuationInstances.isEmpty then pure ()
  else throw (.masakari .hostRecoveryFailureException
    (.evacuation failedEvacuationInstances hostName))

/-- `EvacuateInstancesTask.execute`. The lock on the reserved host is not waited for. -/
def executeEvacuateInstances (reservedHost : Option ReservedHost)
    (pool : List (Server × Nova)) : Prog Recovery Unit :=
  match reservedHost with
  | none => evacuateInstances hostName none pool
  | some h =>
    if h.lockIsFree then do
      MonadExcept.ofExcept (takeReservedHost conf hostName h)
      evacuateInstances hostName (some h.name) pool
    else throw (Exc.raised .lockAlreadyAcquired
      s!"Lock is already acquired on {h.name}.")

end Task

/-! ## What a wait has seen -/

/-- A confirmation poll of the thread saw its instance evacuated. -/
def Confirmed (hostName : String) (t : Thread) : Prop :=
  ∃ p ∈ t.polled, evacuated hostName p.1 p.2 = true

section ThreadProofs

variable {nova : Nova} {hostName : String} {i : Server} {t : Thread}

theorem ensures_pollEvacuation :
    Ensures (pollEvacuation nova hostName i) t
      (fun done t' => ∃ new : Server, t'.polled = t.polled ++ [(i, new)] ∧
        done = evacuated hostName i new ∧ t'.failed = t.failed)
      (fun e t' => e.isException = true ∧ t'.failed = t.failed) := by
  unfold pollEvacuation getStateAndHostOfInstance
  rw [ensures_bind, ensures_bind]
  refine ensures_mono ensures_getServer (fun new t' h => ?_) fun e t' h => ⟨h.1, by rw [h.2]; rfl⟩
  obtain ⟨-, rfl⟩ := h
  rw [ensures_pure]
  dsimp only
  rw [ensures_bind, ensures_modify]
  by_cases hHost : new.hypervisorHostname = hostName
  · rw [if_neg (not_not_intro hHost), ensures_pure]
    exact ⟨new, rfl, by simp [evacuated, hHost], rfl⟩
  · rw [if_pos hHost, ensures_pure]
    exact ⟨new, rfl, by simp [evacuated, hHost], rfl⟩

/-- A wait that returns was ended by its last poll; otherwise it ran out of time or a poll
raised. -/
theorem ensures_waitForEvacuationConfirmation (polls : Nat) :
    Ensures (waitForEvacuationConfirmation nova hostName i polls) t
      (fun _ t' => (∃ new : Server, t'.polled.getLast? = some (i, new) ∧
        evacuated hostName i new = true) ∧ t'.failed = t.failed)
      (fun e t' => (e = .timeout ∨ e.isException = true) ∧ t'.failed = t.failed) := by
  refine ensures_waitFor (I := fun t' => t'.failed = t.failed) (fun t₁ h₁ => ?_)
    (fun _ h => ⟨Or.inl rfl, h⟩) polls t rfl
  refine ensures_mono ensures_pollEvacuation (fun done t₂ h => ?_)
    fun e t₂ h => ⟨Or.inr h.1, h.2.trans h₁⟩
  obtain ⟨new, hPolled, rfl, hFailed⟩ := h
  cases hDone : evacuated hostName i new with
  | false => exact hFailed.trans h₁
  | true => exact ⟨⟨new, by rw [hPolled, List.getLast?_concat], hDone⟩, hFailed.trans h₁⟩

/-- A call that is not read back. -/
theorem ensures_send_kept {c : NovaCall} {r : List NovaCall → Except NovaFault Unit} :
    Ensures (send c r) t (fun _ t' => t'.polled = t.polled ∧ t'.failed = t.failed)
      (fun e t' => e.isException = true ∧ t'.polled = t.polled ∧ t'.failed = t.failed) := by
  refine ensures_mono ensures_send_any (fun _ t' h => ?_) fun e t' h => ?_
  · subst h
    exact ⟨rfl, rfl⟩
  · obtain ⟨he, rfl⟩ := h
    exact ⟨he, rfl, rfl⟩

theorem ensures_stopAfterEvacuation :
    Ensures (stopAfterEvacuation nova i) t
      (fun _ t' => t'.polled = t.polled ∧ t'.failed = t.failed)
      (fun e t' => (e = .timeout ∨ e.isException = true) ∧ t'.failed = t.failed) := by
  unfold stopAfterEvacuation
  rw [ensures_bind]
  refine ensures_mono ensures_send_kept (fun _ t₁ h₁ => ?_) fun e _ h => ⟨Or.inr h.1, h.2.2⟩
  refine ensures_waitFor (I := fun t' => t'.polled = t.polled ∧ t'.failed = t.failed)
    (fun t₂ h₂ => ?_) (fun _ h => ⟨Or.inl rfl, h.2⟩) _ _ h₁
  unfold pollStop getStateAndHostOfInstance
  rw [ensures_bind, ensures_bind]
  refine ensures_mono ensures_getServer (fun new t₃ h₃ => ?_) fun e t₃ h₃ => ?_
  · obtain ⟨-, rfl⟩ := h₃
    rw [ensures_pure]
    dsimp only
    rw [ensures_pure]
    split <;> exact h₂
  · obtain ⟨he, rfl⟩ := h₃
    exact ⟨Or.inr he, h₂.2⟩

/-! ## What a greenthread reports -/

/-- The thread confirmed the instance and reports nothing, or reports the instance once. -/
def Reported (hostName id : String) (t : Thread) : Prop :=
  (Confirmed hostName t ∧ t.failed = []) ∨ t.failed = [id]

theorem reported_fail {id : String} (h : t.failed = []) : Reported hostName id (t.fail id) :=
  Or.inr (by simp [Thread.fail, h])

theorem confirmed_congr {t' : Thread} (h : t'.polled = t.polled) (hC : Confirmed hostName t) :
    Confirmed hostName t' := by
  unfold Confirmed
  rw [h]
  exact hC

theorem ensures_confirmAndRestore (vmState : String) (stopInstance : Bool)
    (hFailed : t.failed = []) :
    Ensures (confirmAndRestore nova hostName i vmState stopInstance) t
      (fun _ => Reported hostName i.id)
      (fun e t' => e.isException = true ∧ t'.failed = []) := by
  -- A timeout is reported here, an exception by the outer block.
  have hEnd : ∀ (e : Exc) (t' : Thread), e = .timeout ∨ e.isException = true → t'.failed = [] →
      if decide (e = .timeout) = true then
        Ensures (modify (·.fail i.id) : ThreadM Unit) t' (fun _ => Reported hostName i.id)
          (fun e t' => e.isException = true ∧ t'.failed = [])
      else e.isException = true ∧ t'.failed = [] := by
    intro e t' he ht'
    by_cases hTimeout : e = .timeout
    · rw [if_pos (decide_eq_true hTimeout)]
      exact reported_fail ht'
    · rw [if_neg (by simp [hTimeout])]
      exact ⟨he.resolve_left hTimeout, ht'⟩
  unfold confirmAndRestore
  rw [ensures_except, ensures_bind]
  refine ensures_mono (ensures_waitForEvacuationConfirmation _) (fun _ t₁ h₁ => ?_)
    fun e t₁ h => hEnd e t₁ h.1 (h.2.trans hFailed)
  obtain ⟨⟨new, hLast, hDone⟩, hFailed₁⟩ := h₁
  rw [hFailed] at hFailed₁
  have hConfirmed : Confirmed hostName t₁ := ⟨(i, new), List.mem_of_getLast? hLast, hDone⟩
  split
  · split
    · rw [ensures_bind]
      refine ensures_mono ensures_stopAfterEvacuation (fun _ t₂ h₂ => ?_)
        fun e t₂ h => hEnd e t₂ h.1 (h.2.trans hFailed₁)
      have hConfirmed₂ := confirmed_congr h₂.1 hConfirmed
      have hFailed₂ := h₂.2.trans hFailed₁
      split
      · refine ensures_mono ensures_send_kept (fun _ t₃ h₃ => ?_)
          fun e t₃ h => hEnd e t₃ (Or.inr h.1) (h.2.2.trans hFailed₂)
        exact Or.inl ⟨confirmed_congr h₃.1 hConfirmed₂, h₃.2.trans hFailed₂⟩
      · exact Or.inl ⟨hConfirmed₂, hFailed₂⟩
    · exact Or.inl ⟨hConfirmed, hFailed₁⟩
  · exact Or.inl ⟨hConfirmed, hFailed₁⟩

/-- A reset and the fresh reading after it. -/
theorem ensures_resetAndGet {α : Type} {k : Server → α} {P : α → Prop}
    (hk : ∀ s : Server, s.id = i.id → P (k s)) :
    Ensures (do
        resetInstanceState nova i.id
        let i' ← getServer nova i.id
        pure (k i') : ThreadM α) t
      (fun r t' => P r ∧ t'.failed = t.failed)
      (fun e t' => e.isException = true ∧ t'.failed = t.failed) := by
  rw [ensures_bind]
  refine ensures_mono ensures_send_kept (fun _ t₁ h₁ => ?_) fun e _ h => ⟨h.1, h.2.2⟩
  rw [ensures_bind]
  refine ensures_mono ensures_getServer (fun new t₂ h₂ => ?_) fun e t₂ h₂ => ?_
  · obtain ⟨hId, rfl⟩ := h₂
    exact ⟨hk new hId, h₁.2⟩
  · obtain ⟨he, rfl⟩ := h₂
    exact ⟨he, h₁.2⟩

theorem ensures_resetForEvacuation :
    Ensures (resetForEvacuation nova i) t (fun r t' => r.1.id = i.id ∧ t'.failed = t.failed)
      (fun e t' => e.isException = true ∧ t'.failed = t.failed) := by
  unfold resetForEvacuation
  split
  · exact ensures_resetAndGet (P := fun r : Server × String × Bool => r.1.id = i.id) fun _ h => h
  · split
    · exact ensures_resetAndGet (P := fun r : Server × String × Bool => r.1.id = i.id) fun _ h => h
    · exact ⟨rfl, rfl⟩

theorem ensures_evacuate (target : Option String) (hFailed : t.failed = []) :
    Ensures (evacuate nova hostName target i) t (fun _ => Reported hostName i.id)
      (fun e t' => e.isException = true ∧ t'.failed = []) := by
  unfold evacuate
  rw [ensures_bind]
  refine ensures_mono ensures_resetForEvacuation (fun r t₁ h₁ => ?_)
    fun e t₁ h => ⟨h.1, h.2.trans hFailed⟩
  obtain ⟨i', vmState, stopInstance⟩ := r
  obtain ⟨hId, hFailed₁⟩ := h₁
  rw [ensures_bind]
  refine ensures_mono ensures_send_kept (fun _ t₂ h₂ => ?_)
    fun e t₂ h => ⟨h.1, (h.2.2.trans hFailed₁).trans hFailed⟩
  rw [← show i'.id = i.id from hId]
  exact ensures_confirmAndRestore vmState stopInstance ((h₂.2.trans hFailed₁).trans hFailed)

/-- The two calls of the lock phase return. -/
def lockPhaseReturns (nova : Nova) (id : String) : Bool :=
  match nova.getServer [] with
  | .error _ => false
  | .ok s => s.locked || (nova.lockServer [.getServer id]).isOk

theorem ensures_lockInstance {id : String} :
    Ensures (lockInstance nova id) {}
      (fun _ t => lockPhaseReturns nova id = true ∧ t.failed = [])
      (fun _ t => lockPhaseReturns nova id = false ∧ t.failed = [] ∧ t.polled = []) := by
  unfold lockInstance getServer lockServer lockPhaseReturns
  rw [ensures_bind, ensures_bind, ensures_send]
  cases hGet : nova.getServer [] with
  | error e => exact ⟨rfl, rfl, rfl⟩
  | ok s =>
    simp only [ensures_pure]
    cases hLocked : s.locked with
    | true => exact ⟨rfl, rfl⟩
    | false =>
      have hCalls : (({} : Thread).call (.getServer id)).calls = [.getServer id] := rfl
      rw [if_neg Bool.false_ne_true, ensures_bind, ensures_send, hCalls]
      cases hReply : nova.lockServer [.getServer id] with
      | error e => exact ⟨rfl, rfl, rfl⟩
      | ok u => exact ⟨rfl, rfl⟩

/-- The `try` block and its `finally`. -/
theorem ends_evacuate (target : Option String) (alreadyLocked : Bool) (hFailed : t.failed = []) :
    Ends (tryFinally
      (except (evacuate nova hostName target i) Exc.isException fun _ => modify (·.fail i.id))
      (if alreadyLocked then pure () else unlockServer nova i.id)) t
      (Reported hostName i.id) := by
  have hFinally : ∀ t' : Thread, Reported hostName i.id t' →
      Ends (if alreadyLocked then pure () else unlockServer nova i.id) t'
        (Reported hostName i.id) := by
    intro t' ht'
    have hKept : ∀ t₁ : Thread, t₁.polled = t'.polled ∧ t₁.failed = t'.failed →
        Reported hostName i.id t₁ := by
      rintro t₁ ⟨hPolled, hFailed₁⟩
      unfold Reported Confirmed at *
      rw [hPolled, hFailed₁]
      exact ht'
    split
    · exact ht'
    · exact ensures_mono ensures_send_kept (fun _ => hKept) fun e t₁ h => hKept t₁ h.2
  unfold Ends at hFinally ⊢
  rw [ensures_finally, ensures_except]
  refine ensures_mono (ensures_evacuate target hFailed) (fun _ t' ht' => hFinally t' ht')
    fun e t' he => ?_
  rw [if_pos he.1]
  exact hFinally _ (reported_fail he.2)

/-- A greenthread that gets through its lock phase confirms its instance or reports it; one
that does not leaves no trace. -/
theorem evacuateAndConfirm_reports (target : Option String) :
    Ends (evacuateAndConfirm nova hostName target i) {} (fun t =>
      if lockPhaseReturns nova i.id then Reported hostName i.id t
      else t.failed = [] ∧ t.polled = []) := by
  unfold evacuateAndConfirm Ends
  rw [ensures_bind]
  refine ensures_mono ensures_lockInstance (fun alreadyLocked t hLock => ?_) fun e t hLock => ?_
  · simp only [hLock.1, if_true]
    exact ends_evacuate target alreadyLocked hLock.2
  · simp only [hLock.1, Bool.false_eq_true, if_false]
    exact hLock.2

theorem ends_runThread {target : Option String} {P : Thread → Prop}
    (h : Ends (evacuateAndConfirm nova hostName target i) {} P) :
    P (runThread nova hostName target i) := by
  unfold Ends Ensures at h
  unfold runThread
  cases hRun : (evacuateAndConfirm nova hostName target i).run {} with
  | ok u t => rw [hRun] at h; exact h
  | error e t => rw [hRun] at h; exact h

theorem runThread_reports {target : Option String} (hLock : lockPhaseReturns nova i.id = true) :
    Reported hostName i.id (runThread nova hostName target i) := by
  have h := @ends_runThread nova hostName i target _ (evacuateAndConfirm_reports target)
  rwa [if_pos hLock] at h

theorem runThread_silent {target : Option String} (hLock : lockPhaseReturns nova i.id = false) :
    (runThread nova hostName target i).failed = [] ∧
      ¬ Confirmed hostName (runThread nova hostName target i) := by
  have h := @ends_runThread nova hostName i target _ (evacuateAndConfirm_reports target)
  rw [if_neg (by rw [hLock]; exact Bool.false_ne_true)] at h
  refine ⟨h.1, fun hConfirmed => ?_⟩
  obtain ⟨p, hp, -⟩ := hConfirmed
  rw [h.2] at hp
  cases hp

/-- A greenthread puts no other id on the list than that of its instance. -/
theorem runThread_failed {target : Option String} {id : String}
    (h : id ∈ (runThread nova hostName target i).failed) : id = i.id := by
  cases hLock : lockPhaseReturns nova i.id with
  | true =>
    have hReported : Reported hostName i.id (runThread nova hostName target i) :=
      runThread_reports hLock
    rcases hReported with hr | hr
    · rw [hr.2] at h
      cases h
    · rw [hr] at h
      exact List.mem_singleton.mp h
  | false =>
    rw [(runThread_silent hLock).1] at h
    cases h

end ThreadProofs

/-! ## What the task accounts for -/

section TaskProofs

variable {conf : HostFailureConf} {hostName : String} {reservedHost : Option ReservedHost}
  {pool : List (Server × Nova)} {r : Recovery}

/-- The greenthread of the instance confirmed it. -/
def Confirms (hostName : String) (target : Option String) (x : Server × Nova) : Prop :=
  Confirmed hostName (runThread x.2 hostName target x.1)

/-- The lines before the pool return. -/
def Taken (conf : HostFailureConf) (hostName : String) (reservedHost : Option ReservedHost) :
    Prop :=
  ∀ h, reservedHost = some h → h.lockIsFree = true ∧ takeReservedHost conf hostName h = .ok ()

/-- `execute` returns only when every instance was confirmed; otherwise it reports every
instance that was not. -/
def Accounted (conf : HostFailureConf) (hostName : String) (reservedHost : Option ReservedHost)
    (pool : List (Server × Nova)) (r : Recovery) : Prop :=
  Ensures (executeEvacuateInstances conf hostName reservedHost pool) r
    (fun _ _ => ∀ x ∈ pool, Confirms hostName (reservedHost.map (·.name)) x)
    (fun e _ => ∃ ids, e = .masakari .hostRecoveryFailureException (.evacuation ids hostName) ∧
      ∀ x ∈ pool, ¬ Confirms hostName (reservedHost.map (·.name)) x → x.1.id ∈ ids)

theorem ensures_evacuateInstances {target : Option String} {Q : Unit → Recovery → Prop}
    {E : Exc → Recovery → Prop} :
    Ensures (evacuateInstances hostName target pool) r Q E ↔
      if failedInstances hostName target pool = [] then Q () (r.startPool target pool)
      else E (.masakari .hostRecoveryFailureException
        (.evacuation (failedInstances hostName target pool) hostName))
      (r.startPool target pool) := by
  unfold evacuateInstances
  rw [ensures_bind, ensures_modify]
  cases failedInstances hostName target pool <;> exact Iff.rfl

theorem ensures_executeEvacuateInstances {Q : Unit → Recovery → Prop}
    {E : Exc → Recovery → Prop} (hTaken : Taken conf hostName reservedHost) :
    Ensures (executeEvacuateInstances conf hostName reservedHost pool) r Q E ↔
      Ensures (evacuateInstances hostName (reservedHost.map (·.name)) pool) r Q E := by
  cases reservedHost with
  | none => exact Iff.rfl
  | some h =>
    obtain ⟨hFree, hTake⟩ := hTaken h rfl
    unfold executeEvacuateInstances
    dsimp only
    rw [if_pos hFree, ensures_bind, hTake]
    exact Iff.rfl

theorem mem_failedInstances {target : Option String} {id : String} :
    id ∈ failedInstances hostName target pool ↔
      ∃ x ∈ pool, id ∈ (runThread x.2 hostName target x.1).failed := by
  unfold failedInstances
  exact List.mem_flatMap

/-- A greenthread past its lock phase that did not confirm its instance reports it. -/
theorem mem_failedInstances_of_lockPhase {target : Option String} {x : Server × Nova}
    (hx : x ∈ pool) (hLock : lockPhaseReturns x.2 x.1.id = true)
    (hNot : ¬ Confirms hostName target x) : x.1.id ∈ failedInstances hostName target pool := by
  have hReported : Reported hostName x.1.id (runThread x.2 hostName target x.1) :=
    runThread_reports hLock
  rcases hReported with hr | hr
  · exact absurd hr.1 hNot
  · exact mem_failedInstances.mpr ⟨x, hx, by rw [hr]; exact List.mem_singleton_self _⟩

/-- When no lock phase raises, `execute` accounts for every instance; and on instances with
distinct ids it does so only then. -/
theorem executeEvacuateInstances_accounts (hTaken : Taken conf hostName reservedHost) :
    ((∀ x ∈ pool, lockPhaseReturns x.2 x.1.id = true) →
      Accounted conf hostName reservedHost pool r) ∧
    ((pool.map (·.1.id)).Nodup → Accounted conf hostName reservedHost pool r →
      ∀ x ∈ pool, lockPhaseReturns x.2 x.1.id = true) := by
  unfold Accounted
  rw [ensures_executeEvacuateInstances hTaken, ensures_evacuateInstances]
  constructor
  · intro hLock
    split
    · rename_i hNone
      intro x hx
      by_contra hNot
      have hMem := mem_failedInstances_of_lockPhase hx (hLock x hx) hNot
      rw [hNone] at hMem
      cases hMem
    · exact ⟨_, rfl, fun x hx hNot => mem_failedInstances_of_lockPhase hx (hLock x hx) hNot⟩
  · intro hNodup hAccounted x hx
    by_contra hRaises
    rw [Bool.not_eq_true] at hRaises
    obtain ⟨hFailed, hNot⟩ :=
      @runThread_silent x.2 hostName x.1 (reservedHost.map (·.name)) hRaises
    split at hAccounted
    · exact hNot (hAccounted x hx)
    · obtain ⟨ids, hIds, hReports⟩ := hAccounted
      obtain rfl : failedInstances hostName (reservedHost.map (·.name)) pool = ids := by
        injection hIds with _ hMessage
        injection hMessage
      -- Another greenthread would have to report the id, but none has an instance with it.
      obtain ⟨y, hy, hMem⟩ := mem_failedInstances.mp (hReports x hx hNot)
      have hSame : x = y := List.inj_on_of_nodup_map hNodup hx hy (runThread_failed hMem)
      rw [← hSame, hFailed] at hMem
      cases hMem

end TaskProofs

/-- An active server on `compute1`. -/
def activeServer (id : String) : Server :=
  ⟨id, "compute1", "compute1", "active", none, 1, false, ∅⟩

/-- Nova moves the server to `compute2` and answers every call. -/
def movingNova : Nova where
  getServer _ := .ok { activeServer "" with host := "compute2", hypervisorHostname := "compute2" }
  lockServer _ := .ok ()
  resetInstanceState _ := .ok ()
  evacuateInstance _ := .ok ()
  stopServer _ := .ok ()
  unlockServer _ := .ok ()
  evacuationPolls := 1
  stopPolls := 1

/-- A pool of two instances that nova moves is accounted for. -/
theorem executeEvacuateInstances_accounts_moving :
    Accounted {} "compute1" none
      [(activeServer "a", movingNova), (activeServer "b", movingNova)] {} :=
  (executeEvacuateInstances_accounts fun _ h => by cases h).1 (by decide)

/-- Every run of the task accounts for every instance. -/
def EvacuationAlwaysAccounts : Prop :=
  ∀ (conf : HostFailureConf) (hostName : String) (reservedHost : Option ReservedHost)
    (pool : List (Server × Nova)) (r : Recovery), Taken conf hostName reservedHost →
    Accounted conf hostName reservedHost pool r

/-- A timeout of the very first `get_server`: the greenthread dies, and the task returns
although the instance was never evacuated. -/
theorem not_evacuationAlwaysAccounts : ¬ EvacuationAlwaysAccounts := by
  intro h
  let nova : Nova :=
    { movingNova with getServer := fun _ => .error ⟨.other "Timeout", by decide⟩ }
  have hReturns : ∀ x ∈ [(activeServer "a", nova)], Confirms "compute1" none x :=
    h {} "compute1" none [(activeServer "a", nova)] {} fun _ h => by cases h
  have hSilent := @runThread_silent nova "compute1" (activeServer "a") none rfl
  exact hSilent.2 (hReturns _ List.mem_cons_self)

/-! ## What ends a wait -/

/-- What nova lists for `get_servers`: the servers whose `host` is the given one. -/
def getServers (servers : List Server) (hostName : String) : List Server :=
  servers.filter (·.host = hostName)

/-- Every wait for the instance that ends as confirmed ends on a reply with another
placement, for the instance as it was listed or as it was read again. -/
def ConfirmsOnlyMoved (hostName : String) (listed : Server) : Prop :=
  ∀ (i : Server) (nova : Nova) (t : Thread) (polls : Nat), i.id = listed.id →
    Ensures (waitForEvacuationConfirmation nova hostName i polls) t
      (fun _ t' => ∃ new, t'.polled.getLast? = some (i, new) ∧ new.placement ≠ listed.placement)
      (fun _ _ => True)

/-- Nova leaves the server where it is. -/
def stayingNova (s : Server) : Nova := { movingNova with getServer := fun _ => .ok s }

/-- When the names differ, the first poll confirms a server that was not moved. -/
theorem stayingNova_confirms {hostName : String} {listed : Server}
    (hName : listed.hypervisorHostname ≠ hostName) :
    Ensures (waitForEvacuationConfirmation (stayingNova listed) hostName listed 1) {}
      (fun _ t' => t'.polled = [(listed, listed)]) (fun _ _ => False) := by
  have hAccepted : acceptedState listed.vmState listed.vmState = true := by simp [acceptedState]
  unfold waitForEvacuationConfirmation waitFor pollEvacuation getStateAndHostOfInstance getServer
  simp only [ensures_bind]
  rw [ensures_send]
  simp only [stayingNova, ensures_pure, ensures_modify]
  rw [if_pos hName, ensures_pure, hAccepted]
  exact rfl

theorem name_of_confirmsOnlyMoved {hostName : String} {listed : Server}
    (h : ConfirmsOnlyMoved hostName listed) : listed.hypervisorHostname = hostName := by
  by_contra hName
  refine not_ensures_false _ _ (ensures_mono (ensures_and.mpr
    ⟨h listed (stayingNova listed) {} 1 rfl, stayingNova_confirms hName⟩)
    (fun _ t' ht => ?_) fun _ _ he => he.2)
  obtain ⟨⟨new, hLast, hMoved⟩, hPolled⟩ := ht
  rw [hPolled] at hLast
  injection hLast with hPair
  exact hMoved (congrArg (·.2.placement) hPair).symm

/-- The confirmation of an instance of the failed host is sound exactly when its hypervisor
has the name of the host. -/
theorem waitForEvacuationConfirmation_moved_iff (hostName : String) (listed : Server) :
    ConfirmsOnlyMoved hostName listed ↔ listed.hypervisorHostname = hostName := by
  refine ⟨name_of_confirmsOnlyMoved, fun hName i nova t polls _ => ?_⟩
  refine ensures_mono (ensures_waitForEvacuationConfirmation polls) (fun _ t' h => ?_)
    fun _ _ _ => trivial
  obtain ⟨⟨new, hLast, hDone⟩, -⟩ := h
  refine ⟨new, hLast, fun hSame => ?_⟩
  have hHypervisor : new.hypervisorHostname = hostName := (congrArg Prod.snd hSame).trans hName
  simp [evacuated, hHypervisor] at hDone

/-- Every listed instance is confirmed only when it has moved. -/
def ListedConfirmedOnlyMoved : Prop :=
  ∀ (servers : List Server) (hostName : String) (listed : Server),
    listed ∈ getServers servers hostName → ConfirmsOnlyMoved hostName listed

/-- A hypervisor that goes by its fully qualified name: the active instance counts as
evacuated before nova has moved it. -/
theorem not_listedConfirmedOnlyMoved : ¬ ListedConfirmedOnlyMoved := by
  intro h
  let listed : Server := { activeServer "a" with hypervisorHostname := "compute1.example.org" }
  have hSound := h [listed] "compute1" listed (by decide)
  exact absurd (name_of_confirmsOnlyMoved hSound) (by decide)

end MasakariHA.Engine
