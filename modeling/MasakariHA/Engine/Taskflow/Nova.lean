import MasakariHA.Engine.Driver

/-!
# Nova as one greenthread sees it

`EvacuateInstancesTask` works on each instance in a greenthread of its own. The thread
calls nova and polls it; what nova answers, and how many polls fit into a waiting period,
is up to nova and the clock (`Nova`). A thread of a fixed run sees one sequence of answers,
whatever the other threads do meanwhile, so the answers are functions of the calls that the
thread itself has made.

* `send`: one call of `compute/nova.py`, written to the thread's own record;
* `waitFor`: a `FixedIntervalLoopingCall` under `etimeout.with_timeout`;
* `ensures_send`, `ensures_waitFor`: their rules.
-/

namespace MasakariHA.Engine

open Lib

/-- What a call outside the engine raises: an `Exception`, and none of those by which a
workflow says that there is nothing to do. -/
def NovaFault : Type :=
  { e : Exc // e.isException = true ∧ e.isA .skipHostRecoveryException = false }

/-- The attributes of a server that the tasks read. -/
structure Server where
  id : String
  host : String
  hypervisorHostname : String
  vmState : String
  taskState : Option String
  powerState : Nat
  locked : Bool
  metadata : Payload
deriving DecidableEq

/-- Where nova says that a server is: `host` and `hypervisor_hostname`. -/
def Server.placement (s : Server) : String × String := (s.host, s.hypervisorHostname)

/-- The calls of a greenthread. -/
inductive NovaCall where
  | getServer (id : String)
  | lockServer (id : String)
  | resetInstanceState (id : String)
  | evacuateInstance (id : String) (target : Option String)
  | stopServer (id : String)
  | unlockServer (id : String)
deriving DecidableEq

/-- What nova answers to the next call, after the calls so far, and how many polls each
waiting period has room for. -/
structure Nova where
  getServer : List NovaCall → Except NovaFault Server
  lockServer : List NovaCall → Except NovaFault Unit
  resetInstanceState : List NovaCall → Except NovaFault Unit
  evacuateInstance : List NovaCall → Except NovaFault Unit
  stopServer : List NovaCall → Except NovaFault Unit
  unlockServer : List NovaCall → Except NovaFault Unit
  evacuationPolls : Nat
  stopPolls : Nat

/-- A greenthread: its calls, the ids that it put on the list of failed instances, and the
pairs of servers that its confirmation polls compared. -/
structure Thread where
  calls : List NovaCall := []
  failed : List String := []
  polled : List (Server × Server) := []

/-- A program of a greenthread. -/
abbrev ThreadM := Prog Thread

namespace Thread

def call (t : Thread) (c : NovaCall) : Thread := { t with calls := t.calls ++ [c] }

def fail (t : Thread) (id : String) : Thread := { t with failed := t.failed ++ [id] }

def poll (t : Thread) (p : Server × Server) : Thread := { t with polled := t.polled ++ [p] }

end Thread

/-! ## Calls -/

/-- A call of nova. -/
def send {α : Type} (c : NovaCall) (reply : List NovaCall → Except NovaFault α) : ThreadM α := do
  let t ← get
  set (t.call c)
  match reply t.calls with
  | .ok a => pure a
  | .error e => throw e.val

section Calls

variable (nova : Nova) (id : String)

/-- `get_server`; nova answers with the server of the given id. -/
def getServer : ThreadM Server := do
  let s ← send (.getServer id) nova.getServer
  pure { s with id }

def lockServer : ThreadM Unit := send (.lockServer id) nova.lockServer

def resetInstanceState : ThreadM Unit := send (.resetInstanceState id) nova.resetInstanceState

def evacuateInstance (target : Option String) : ThreadM Unit :=
  send (.evacuateInstance id target) nova.evacuateInstance

def stopServer : ThreadM Unit := send (.stopServer id) nova.stopServer

def unlockServer : ThreadM Unit := send (.unlockServer id) nova.unlockServer

end Calls

section Rules

variable {α : Type} {t : Thread}

theorem ensures_send {c : NovaCall} {reply : List NovaCall → Except NovaFault α}
    {Q : α → Thread → Prop} {E : Exc → Thread → Prop} :
    Ensures (send c reply) t Q E ↔
      match reply t.calls with
      | .ok a => Q a (t.call c)
      | .error e => E e.val (t.call c) := by
  unfold send
  rw [ensures_bind, ensures_get, ensures_bind, ensures_set]
  cases reply t.calls <;> exact Iff.rfl

/-- Whatever nova answers, a call returns or raises an `Exception`. -/
theorem ensures_send_any {c : NovaCall} {reply : List NovaCall → Except NovaFault α} :
    Ensures (send c reply) t (fun _ t' => t' = t.call c)
      (fun e t' => e.isException = true ∧ t' = t.call c) := by
  rw [ensures_send]
  cases reply t.calls with
  | ok a => rfl
  | error e => exact ⟨e.property.1, rfl⟩

theorem ensures_getServer {nova : Nova} {id : String} :
    Ensures (getServer nova id) t (fun s t' => s.id = id ∧ t' = t.call (.getServer id))
      (fun e t' => e.isException = true ∧ t' = t.call (.getServer id)) := by
  unfold getServer
  rw [ensures_bind]
  exact ensures_mono ensures_send_any (fun s t' ht => ⟨rfl, ht⟩) fun e t' he => he

end Rules

/-! ## Waiting -/

/-- The body is polled until it raises `LoopingCallDone` (here: returns `true`), or until
the waiting period of `n` polls is over. -/
def waitFor (body : ThreadM Bool) : Nat → ThreadM Unit
  | 0 => throw .timeout
  | n + 1 => do
    let done ← body
    if done then pure () else waitFor body n

/-- The loop rule of a wait: every round restores the invariant, and a last one gives `Q`. -/
theorem ensures_waitFor {body : ThreadM Bool} {I : Thread → Prop} {Q : Thread → Prop}
    {E : Exc → Thread → Prop}
    (hBody : ∀ t, I t → Ensures body t (fun done t' => if done then Q t' else I t') E)
    (hTimeout : ∀ t, I t → E .timeout t) :
    ∀ (n : Nat) (t : Thread), I t → Ensures (waitFor body n) t (fun _ => Q) E := by
  intro n
  induction n with
  | zero => exact hTimeout
  | succ n ih =>
    intro t ht
    change Ensures (body >>= fun done => if done then pure () else waitFor body n) t _ _
    rw [ensures_bind]
    refine ensures_mono (hBody t ht) (fun done t' hd => ?_) fun _ _ he => he
    cases done with
    | true => exact hd
    | false => exact ih t' hd

end MasakariHA.Engine
