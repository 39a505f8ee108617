import MasakariHA.Lib.Ensures
import MasakariHA.Exception
import MasakariHA.Db.Api

/-!
# The taskflow driver

`TaskFlowDriver` of `engine/drivers/taskflow/driver.py`. What it runs are flow engines;
the functions here take them as programs, so that the manager can be read over any
outcome of a flow and the host recovery over the flows themselves.

* `executeHostFailure`: `execute_host_failure` with its four recovery methods;
* `executeInstanceFailure`, `executeProcessFailure`;
* `executeHostFailure_raises`: whatever `Exception` a flow raises, the host driver raises a
  `MasakariException`. The other two hand on what `flow_engine.run()` raises.
-/

namespace MasakariHA.Engine

open Lib

variable {σ : Type}

/-- A program of the engine. -/
abbrev Prog (σ α : Type) := EStateM Exc σ α

/-- `except cls as e: h e`, for a test of the exception. -/
def except {α : Type} (x : Prog σ α) (test : Exc → Bool) (h : Exc → Prog σ α) : Prog σ α :=
  tryCatch x fun e => if test e then h e else throw e

@[simp] theorem ensures_except {α : Type} {x : Prog σ α} {test : Exc → Bool}
    {h : Exc → Prog σ α} {s : σ} {Q : α → σ → Prop} {E : Exc → σ → Prop} :
    Ensures (except x test h) s Q E ↔
      Ensures x s Q (fun e s' => if test e then Ensures (h e) s' Q E else E e s') := by
  unfold except
  rw [ensures_tryCatch]
  constructor <;> intro hx <;> refine ensures_mono hx (fun _ _ h => h) fun e s' he => ?_
  · cases ht : test e <;> simpa [ht] using he
  · cases ht : test e <;> simpa [ht] using he

/-- A flow engine that ends as given. -/
def endsAs (r : Except Fault Unit) : Prog σ Unit :=
  match r with
  | .ok () => pure ()
  | .error e => throw e.val

/-! ## Host failure -/

section HostFailure

variable (auto : Prog σ Unit) (rh : List Host → Prog σ Unit)

/-- `_execute_rh_workflow`; an absent list is an empty one. -/
def executeRhWorkflow (reservedHostList : List Host) : Prog σ Unit :=
  if reservedHostList.isEmpty then
    throw (Exc.raised .reservedHostsUnavailable "No reserved_hosts available for evacuation.")
  else
    except (rh reservedHostList) (Exc.isA .lockAlreadyAcquired) fun e =>
      match e with
      | .masakari _ message => throw (.masakari .hostRecoveryFailureException message)
      | e => throw e

def executeAutoPriorityWorkflow (reservedHostList : List Host) : Prog σ Unit :=
  except auto Exc.isException fun e =>
    if e.isA .skipHostRecoveryException then throw e
    else executeRhWorkflow rh reservedHostList

def executeRhPriorityWorkflow (reservedHostList : List Host) : Prog σ Unit :=
  except (executeRhWorkflow rh reservedHostList) Exc.isException fun e =>
    if e.isA .skipHostRecoveryException then throw e else auto

/-- The exceptions that `execute_host_failure` hands on as they are. -/
def handedOn (e : Exc) : Bool :=
  e.isA .skipHostRecoveryException || e.isA .hostRecoveryFailureException ||
    e.isA .reservedHostsUnavailable

/-- The `try` block of `execute_host_failure`. -/
def hostWorkflow (method : RecoveryMethod) (reservedHostList : List Host) : Prog σ Unit :=
  match method with
  | .auto => auto
  | .reservedHost => executeRhWorkflow rh reservedHostList
  | .autoPriority => executeAutoPriorityWorkflow auto rh reservedHostList
  | .rhPriority => executeRhPriorityWorkflow auto rh reservedHostList

def executeHostFailure (method : RecoveryMethod) (notificationUuid : String)
    (reservedHostList : List Host) : Prog σ Unit :=
  except (hostWorkflow auto rh method reservedHostList) Exc.isException fun e =>
    if handedOn e then throw e
    else throw (Exc.raised .masakariException
      s!"Failed to execute host failure flow for notification '{notificationUuid}'.")

variable {auto rh}

theorem isMasakari_of_handedOn {e : Exc} (h : handedOn e = true) :
    e.isA .masakariException = true := by
  cases e with
  | masakari c m => exact MasakariClass.isSubclass_masakariException c
  | other => simp [handedOn, Exc.isA] at h
  | timeout => simp [handedOn, Exc.isA] at h

/-- What the program raises from any state satisfies `P`. -/
def RaisesOnly {α : Type} (x : Prog σ α) (P : Exc → Prop) : Prop :=
  ∀ s, Ensures x s (fun _ _ => True) (fun e _ => P e)

theorem raisesOnly_throw {α : Type} {P : Exc → Prop} {e : Exc} (h : P e) :
    RaisesOnly (throw e : Prog σ α) P := fun _ => h

theorem raisesOnly_except {α : Type} {x : Prog σ α} {test : Exc → Bool} {h : Exc → Prog σ α}
    {P P' : Exc → Prop} (hx : RaisesOnly x P) (hh : ∀ e, P e → test e = true → RaisesOnly (h e) P')
    (hSkip : ∀ e, P e → test e = false → P' e) : RaisesOnly (except x test h) P' := by
  intro s
  rw [ensures_except]
  refine ensures_mono (hx s) (fun _ _ h => h) fun e s' he => ?_
  cases ht : test e with
  | true => exact hh e he ht s'
  | false => exact hSkip e he ht

section Raises

variable (hAuto : RaisesOnly auto (fun e => e.isException = true))
  (hRh : ∀ l, RaisesOnly (rh l) (fun e => e.isException = true))

include hRh in
theorem executeRhWorkflow_raises (l : List Host) :
    RaisesOnly (executeRhWorkflow rh l) (fun e => e.isException = true) := by
  unfold executeRhWorkflow
  split
  · exact raisesOnly_throw rfl
  · refine raisesOnly_except (hRh l) (fun e he _ => ?_) (fun _ he _ => he)
    cases e with
    | masakari c m => exact raisesOnly_throw rfl
    | other => exact raisesOnly_throw rfl
    | timeout => cases he

include hAuto hRh in
theorem hostWorkflow_raises (method : RecoveryMethod) (l : List Host) :
    RaisesOnly (hostWorkflow auto rh method l) (fun e => e.isException = true) := by
  cases method with
  | auto => exact hAuto
  | reservedHost => exact executeRhWorkflow_raises hRh l
  | autoPriority =>
    refine raisesOnly_except hAuto (fun e he _ => ?_) (fun _ he _ => he)
    split
    · exact raisesOnly_throw he
    · exact executeRhWorkflow_raises hRh l
  | rhPriority =>
    refine raisesOnly_except (executeRhWorkflow_raises hRh l) (fun e he _ => ?_) (fun _ he _ => he)
    split
    · exact raisesOnly_throw he
    · exact hAuto

include hAuto hRh in
/-- When the flows raise only what is an `Exception`, `execute_host_failure` raises only
exceptions of `exception.py`. -/
theorem executeHostFailure_raises {method : RecoveryMethod} {uuid : String} {l : List Host} :
    RaisesOnly (executeHostFailure auto rh method uuid l)
      (fun e => e.isA .masakariException = true) := by
  refine raisesOnly_except (hostWorkflow_raises hAuto hRh method l) (fun e _ _ => ?_)
    (fun e he ht => absurd he (by rw [ht]; exact Bool.false_ne_true))
  split
  · rename_i ho
    exact raisesOnly_throw (isMasakari_of_handedOn ho)
  · exact raisesOnly_throw rfl

end Raises

end HostFailure

/-! ## Instance and process failure -/

/-- `execute_instance_failure`: the flow is built, then run. -/
def executeInstanceFailure (load run : Prog σ Unit) : Prog σ Unit := do
  except load Exc.isException fun _ =>
    throw (Exc.raised .masakariException "Failed to create instance failure flow.")
  run

def executeProcessFailure (load run : Prog σ Unit) (processName : Option String) :
    Prog σ Unit :=
  if processName = some "nova-compute" then do
    except load Exc.isException fun _ =>
      throw (Exc.raised .masakariException "Failed to create process failure flow.")
    run
  else throw (Exc.raised .skipProcessRecoveryException
    "Skipping execution of process recovery workflow.")

end MasakariHA.Engine
