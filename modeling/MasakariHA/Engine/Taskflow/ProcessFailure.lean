import MasakariHA.Engine.Manager

/-!
# The process recovery flow

The tasks of `drivers/taskflow/process_failure.py` with the two functions of `compute/nova.py`
that they call, under `translate_nova_exception`. Nova answers as it likes, so a run is told by
its trace: the calls of novaclient with their answers.

* `translateNovaException`: what `compute/nova.py` makes of an exception of its clients;
* `disableComputeNode`, `confirmComputeNodeDisabled`: the tasks;
* `Raised`, with `Raised.ofEngine`: an exception of a task, and what taskflow raises for it;
* `getComputeProcessRecoveryFlow`: the flow, with its default tasks;
* `Disables`, `Ending`: what every trace shows, and how a run ends with it;
* `handle_novaCompute`: the status of the notification by the answers of nova.
-/

namespace MasakariHA.Engine.ProcessFailure

open Lib

/-! ## Nova -/

/-- What novaclient raises: the classes that `translate_nova_exception` names, with the text of
the exception, and any other `Exception`. -/
inductive NovaError where
  | requestTimeout (text : String)
  | commandError (text : String)
  | connectionError (text : String)
  | badRequest (text : String)
  | forbidden (text : String)
  | endpointNotFound (text : String)
  | notFound (text : String)
  | conflict (text : String)
  | other (cls : String)
  deriving DecidableEq, Repr

/-- `translate_nova_exception`. -/
def translateNovaException : NovaError → Exc
  | .requestTimeout _ | .commandError _ | .connectionError _ =>
    .raised .masakariException "An unknown exception occurred."
  | .badRequest text => .raised .invalidInput s!"Invalid input received: {text}"
  | .forbidden text => .raised .forbidden (if text = "" then "Forbidden" else text)
  | .endpointNotFound _ | .notFound _ => .raised .notFound "Resource could not be found."
  | .conflict _ => .raised .conflict "Conflict"
  | .other cls => .other cls

/-- What the flow reads of a compute service. -/
structure Service where
  status : String
  deriving DecidableEq, Repr

/-- A call of novaclient with its answer. -/
inductive Event where
  | servicesList (host binary : String) (answer : Except NovaError (List Service))
  | servicesDisable (hostName : String) (answer : Except NovaError Unit)

/-- The calls of a run, oldest first. -/
abbrev Trace := List Event

/-- An exception that a task raises, and the `Timeout` or other `BaseException` that was being
handled there. -/
structure Raised where
  exc : Exc
  handled : Option Exc := none
  deriving DecidableEq, Repr

/-- What taskflow raises for the exception of a task. On Python 3 the exception refers to the one
that was being handled (`__context__`); a `Failure` takes nothing but an `Exception` there, so this
failure cannot be stored. -/
def Raised.ofEngine (python3 : Bool) (r : Raised) : Exc :=
  if python3 && r.handled.isSome then .other "StorageFailure" else r.exc

/-- A program of the flow. -/
abbrev FlowM := EStateM Raised Trace

/-- What nova answers to the next call, and how many polls fit into
`wait_period_after_service_update`. -/
structure Compute where
  servicesList : Trace → Except NovaError (List Service)
  servicesDisable : Trace → Except NovaError Unit
  polls : Nat

/-- A call of novaclient in a function of `compute/nova.py`. -/
def ask {α : Type} (event : Except NovaError α → Event) (answer : Trace → Except NovaError α) :
    FlowM α := do
  let t ← get
  set (t ++ [event (answer t)])
  match answer t with
  | .ok a => pure a
  | .error e => throw { exc := translateNovaException e }

section Tasks

variable (nova : Compute) (processName hostName : String)

/-- `is_service_down`; an empty list has no first element. -/
def isServiceDown : FlowM Bool := do
  let services ← ask (.servicesList hostName processName) nova.servicesList
  match services with
  | [] => throw { exc := .other "IndexError" }
  | service :: _ => pure (service.status = "disabled")

/-- `enable_disable_service` with `enable=False` and no reason. -/
def disableService : FlowM Unit := ask (.servicesDisable hostName) nova.servicesDisable

/-! ## Tasks -/

/-- `DisableComputeNodeTask.execute`. -/
def disableComputeNode : FlowM Unit := do
  let down ← isServiceDown nova processName hostName
  if down then pure () else disableService nova hostName

/-- The periodic call of `_wait_for_disable` under its timeout. -/
def waitForDisable : Nat → FlowM Unit
  | 0 => throw { exc := .timeout }
  | n + 1 => do
    let serviceDisabled ← isServiceDown nova processName hostName
    if serviceDisabled then pure () else waitForDisable n

/-- `ConfirmComputeNodeDisabledTask.execute`. -/
def confirmComputeNodeDisabled : FlowM Unit :=
  tryCatch (waitForDisable nova processName hostName nova.polls) fun e =>
    if e.exc = .timeout then
      throw
        { exc := Exc.raised .processRecoveryFailureException
            s!"Failed to disable service {processName}"
          handled := some .timeout }
    else throw e

/-- `get_compute_process_recovery_flow` with the default `process_failure_recovery_tasks`: a
linear flow stops at its first failing task. -/
def getComputeProcessRecoveryFlow : FlowM Unit := do
  disableComputeNode nova processName hostName
  confirmComputeNodeDisabled nova processName hostName

/-- How `run` of the flow's engine ends, and its trace. -/
def outcome (python3 : Bool) : Except Exc Unit × Trace :=
  match (getComputeProcessRecoveryFlow nova processName hostName).run [] with
  | .ok () t => (.ok (), t)
  | .error e t => (.error (e.ofEngine python3), t)

end Tasks

/-! ## What a trace shows -/

namespace Event

def isDisable : Event → Bool
  | .servicesDisable .. => true
  | .servicesList .. => false

/-- Whether the reply shows the first service disabled. -/
def disabled? : Event → Option Bool
  | .servicesList _ _ (.ok (service :: _)) => some (service.status = "disabled")
  | _ => none

/-- The exception that `compute/nova.py` makes of the answer. -/
def raises? : Event → Option Exc
  | .servicesList _ _ (.ok []) => some (.other "IndexError")
  | .servicesList _ _ (.error e) | .servicesDisable _ (.error e) => some (translateNovaException e)
  | .servicesList _ _ (.ok (_ :: _)) | .servicesDisable _ (.ok _) => none

/-- A call for the service of the host. -/
def Concerns (processName hostName : String) : Event → Prop
  | .servicesList host binary _ => host = hostName ∧ binary = processName
  | .servicesDisable host _ => host = hostName

end Event

/-- What holds of every run: all calls are for the service of the host, and the service is
disabled if, and only directly after, the first reply shows that it is not. -/
structure Disables (processName hostName : String) (t : Trace) : Prop where
  concerns : ∀ e ∈ t, e.Concerns processName hostName
  first : ∀ front e back, t = front ++ e :: back → e.isDisable = true →
    ∃ reply, front = [reply] ∧ reply.disabled? = some false
  second : ∀ reply back, t = reply :: back → reply.disabled? = some false →
    ∃ e rest, back = e :: rest ∧ e.isDisable = true

/-- The exception after the waiting period: on Python 3 it is not the one of the task. -/
def waitedInVain (python3 : Bool) (processName : String) : Exc :=
  if python3 then .other "StorageFailure"
  else Exc.raised .processRecoveryFailureException s!"Failed to disable service {processName}"

/-- How a run ends with its trace: after a poll that shows the service disabled; with the
exception of the last call; or after the waiting period, all polls of which show the service
enabled. -/
inductive Ending (python3 : Bool) (processName : String) : Trace → Except Exc Unit → Prop where
  | done {t : Trace} {reply : Event} (hPolled : t ≠ []) (hReply : reply.disabled? = some true) :
    Ending python3 processName (t ++ [reply]) (.ok ())
  | raised {t : Trace} {last : Event} {e : Exc} (hLast : last.raises? = some e) :
    Ending python3 processName (t ++ [last]) (.error e)
  | timeout {t : Trace} (hPolls : ∀ reply ∈ t.tail, reply.disabled? ≠ some true)
      (hQuiet : ∀ reply ∈ t, reply.raises? = none) :
    Ending python3 processName t (.error (waitedInVain python3 processName))

/-! ## Calls -/

section Calls

variable {nova : Compute} {processName hostName : String} {t : Trace}

theorem ensures_ask {α : Type} {event : Except NovaError α → Event}
    {answer : Trace → Except NovaError α} :
    Ensures (ask event answer) t (fun a t' => t' = t ++ [event (.ok a)])
      (fun e t' =>
        ∃ error, e = { exc := translateNovaException error } ∧
          t' = t ++ [event (.error error)]) := by
  unfold ask
  rw [ensures_bind, ensures_get, ensures_bind, ensures_set]
  cases answer t with
  | ok a => rfl
  | error error => exact ⟨error, rfl, rfl⟩

theorem isException_translate (error : NovaError) :
    (translateNovaException error).isException = true := by
  cases error <;> rfl

theorem isException_of_raises {e : Event} {x : Exc} (h : e.raises? = some x) :
    x.isException = true := by
  cases e with
  | servicesList host binary answer =>
    cases answer with
    | error error =>
      cases h
      exact isException_translate error
    | ok services =>
      cases services <;> cases h
      rfl
  | servicesDisable host answer =>
    cases answer with
    | error error =>
      cases h
      exact isException_translate error
    | ok u => cases h

/-- A reply of `services.list` for the service. -/
structure Event.IsReply (processName hostName : String) (e : Event) : Prop where
  concerns : e.Concerns processName hostName
  notDisable : e.isDisable = false

theorem isServiceDown_spec :
    Ensures (isServiceDown nova processName hostName) t
      (fun down t' => ∃ reply, t' = t ++ [reply] ∧ reply.IsReply processName hostName ∧
        reply.disabled? = some down ∧ reply.raises? = none)
      (fun e t' => ∃ reply, t' = t ++ [reply] ∧ reply.IsReply processName hostName ∧
        reply.disabled? = none ∧ reply.raises? = some e.exc ∧ e.handled = none) := by
  unfold isServiceDown
  rw [ensures_bind]
  refine ensures_mono ensures_ask (fun services t' ht' => ?_) fun e t' ht' => ?_
  · cases services with
    | nil => exact ⟨_, ht', ⟨⟨rfl, rfl⟩, rfl⟩, rfl, rfl, rfl⟩
    | cons service rest => exact ⟨_, ht', ⟨⟨rfl, rfl⟩, rfl⟩, rfl, rfl⟩
  · obtain ⟨error, rfl, ht'⟩ := ht'
    exact ⟨_, ht', ⟨⟨rfl, rfl⟩, rfl⟩, rfl, rfl, rfl⟩

end Calls

/-! ## Tasks -/

section TaskProofs

variable {nova : Compute} {processName hostName : String} {t : Trace} {reply : Event}

theorem disables_nil : Disables processName hostName [] := by
  refine ⟨fun e he => absurd he List.not_mem_nil, fun front e back h => ?_, fun r back h => ?_⟩
  · cases front <;> cases h
  · cases h

/-- A further reply keeps what holds of every run, unless it leaves a service that was first
seen enabled as it is. -/
theorem disables_reply (h : Disables processName hostName t)
    (hReply : reply.IsReply processName hostName)
    (hFirst : t = [] → reply.disabled? ≠ some false) :
    Disables processName hostName (t ++ [reply]) := by
  refine ⟨fun e he => ?_, fun front e back hSplit hDisable => ?_, fun r back hSplit hr => ?_⟩
  · rcases List.mem_append.mp he with hOld | hNew
    · exact h.concerns e hOld
    · rw [List.mem_singleton.mp hNew]
      exact hReply.concerns
  · rcases List.eq_nil_or_concat back with rfl | ⟨init, last, rfl⟩
    · obtain ⟨-, hLast⟩ := List.append_inj' hSplit rfl
      cases hLast
      rw [hReply.notDisable] at hDisable
      cases hDisable
    · rw [List.concat_eq_append, ← List.cons_append, ← List.append_assoc] at hSplit
      exact h.first front e init (List.append_inj' hSplit rfl).1 hDisable
  · cases t with
    | nil =>
      cases hSplit
      exact absurd hr (hFirst rfl)
    | cons first rest =>
      cases hSplit
      obtain ⟨e, rest', rfl, hDisable⟩ := h.second _ rest rfl hr
      exact ⟨e, rest' ++ [reply], rfl, hDisable⟩

/-- The call that disables the service, after the first reply. -/
theorem disables_disable {e : Event} (hReply : reply.IsReply processName hostName)
    (hEnabled : reply.disabled? = some false) (hConcerns : e.Concerns processName hostName)
    (hDisable : e.isDisable = true) : Disables processName hostName [reply, e] := by
  refine ⟨fun e' he' => ?_, fun front e' back hSplit hDisable' => ?_, fun r back hSplit _ => ?_⟩
  · rcases List.mem_pair.mp he' with rfl | rfl
    · exact hReply.concerns
    · exact hConcerns
  · rcases List.append_eq_cons_iff.mp hSplit.symm with ⟨rfl, hFront⟩ | ⟨front', rfl, hRest⟩
    · cases hFront
      rw [hReply.notDisable] at hDisable'
      cases hDisable'
    · rcases List.append_eq_cons_iff.mp hRest.symm with ⟨rfl, -⟩ | ⟨_, _, hNil⟩
      · exact ⟨reply, rfl, hEnabled⟩
      · simp at hNil
  · cases hSplit
    exact ⟨e, [], rfl, hDisable⟩

/-- The trace before a poll: the service has been disabled, or was, and no poll has shown it. -/
structure Polling (processName hostName : String) (t : Trace) : Prop where
  disables : Disables processName hostName t
  begun : t ≠ []
  polls : ∀ reply ∈ t.tail, reply.disabled? ≠ some true
  quiet : ∀ reply ∈ t, reply.raises? = none

theorem mem_tail_concat (hBegun : t ≠ []) {e : Event} (he : e ∈ (t ++ [reply]).tail) :
    e ∈ t.tail ∨ e = reply := by
  rw [List.tail_append_of_ne_nil hBegun] at he
  exact (List.mem_append.mp he).imp_right List.mem_singleton.mp

theorem polling_reply (h : Polling processName hostName t)
    (hReply : reply.IsReply processName hostName) (hEnabled : reply.disabled? = some false)
    (hQuiet : reply.raises? = none) : Polling processName hostName (t ++ [reply]) := by
  refine ⟨disables_reply h.disables hReply fun hNil => absurd hNil h.begun, by simp,
    fun e he => ?_, fun e he => ?_⟩
  · rcases mem_tail_concat h.begun he with hOld | rfl
    · exact h.polls e hOld
    · rw [hEnabled]
      simp
  · rcases List.mem_append.mp he with hOld | hNew
    · exact h.quiet e hOld
    · rw [List.mem_singleton.mp hNew]
      exact hQuiet

theorem ofEngine_eq {python3 : Bool} {e : Raised} (h : e.handled = none) :
    e.ofEngine python3 = e.exc := by
  unfold Raised.ofEngine
  rw [h, Option.isSome_none, Bool.and_false, if_neg Bool.false_ne_true]

theorem disableComputeNode_spec (python3 : Bool) :
    Ensures (disableComputeNode nova processName hostName) []
      (fun _ t => Polling processName hostName t)
      (fun e t => Disables processName hostName t ∧
        Ending python3 processName t (.error (e.ofEngine python3))) := by
  unfold disableComputeNode
  rw [ensures_bind]
  refine ensures_mono isServiceDown_spec (fun down t ht => ?_) fun e t ht => ?_
  · obtain ⟨reply, rfl, hReply, hDown, hQuiet⟩ := ht
    rw [List.nil_append]
    cases down with
    | true =>
      rw [if_pos rfl, ensures_pure]
      refine ⟨disables_reply disables_nil hReply fun _ => ?_, by simp, by simp, by simpa⟩
      rw [hDown]
      simp
    | false =>
      rw [if_neg Bool.false_ne_true]
      refine ensures_mono ensures_ask (fun _ t ht => ?_) fun e t ht => ?_
      · subst ht
        refine ⟨disables_disable hReply hDown rfl rfl, by simp, ?_, ?_⟩
        · intro e he
          rw [List.mem_singleton.mp he]
          simp [Event.disabled?]
        · intro e he
          rcases List.mem_pair.mp he with rfl | rfl
          · exact hQuiet
          · rfl
      · obtain ⟨error, rfl, rfl⟩ := ht
        refine ⟨disables_disable hReply hDown rfl rfl, ?_⟩
        rw [ofEngine_eq rfl]
        exact .raised (t := [reply]) rfl
  · obtain ⟨reply, rfl, hReply, hNone, hRaises, hHandled⟩ := ht
    rw [ofEngine_eq hHandled]
    refine ⟨disables_reply disables_nil hReply fun _ => ?_, .raised hRaises⟩
    rw [hNone]
    simp

theorem waitForDisable_spec (python3 : Bool) (n : Nat) (h : Polling processName hostName t) :
    Ensures (waitForDisable nova processName hostName n) t
      (fun _ t' => Disables processName hostName t' ∧ Ending python3 processName t' (.ok ()))
      (fun e t' => if e.exc = .timeout then Polling processName hostName t'
        else Disables processName hostName t' ∧
          Ending python3 processName t' (.error (e.ofEngine python3))) := by
  induction n generalizing t with
  | zero => exact h
  | succ n ih =>
    unfold waitForDisable
    rw [ensures_bind]
    refine ensures_mono isServiceDown_spec (fun down t' ht' => ?_) fun e t' ht' => ?_
    · obtain ⟨reply, rfl, hReply, hDown, hQuiet⟩ := ht'
      cases down with
      | true =>
        rw [if_pos rfl, ensures_pure]
        exact ⟨disables_reply h.disables hReply fun hNil => absurd hNil h.begun,
          .done h.begun hDown⟩
      | false =>
        rw [if_neg Bool.false_ne_true]
        exact ih (polling_reply h hReply hDown hQuiet)
    · obtain ⟨reply, rfl, hReply, hNone, hRaises, hHandled⟩ := ht'
      have hNotTimeout : e.exc ≠ .timeout := fun hTimeout =>
        absurd (isException_of_raises hRaises) (by rw [hTimeout]; exact Bool.false_ne_true)
      rw [if_neg hNotTimeout, ofEngine_eq hHandled]
      exact ⟨disables_reply h.disables hReply fun hNil => absurd hNil h.begun, .raised hRaises⟩

theorem confirmComputeNodeDisabled_spec (python3 : Bool) (h : Polling processName hostName t) :
    Ensures (confirmComputeNodeDisabled nova processName hostName) t
      (fun _ t' => Disables processName hostName t' ∧ Ending python3 processName t' (.ok ()))
      (fun e t' => Disables processName hostName t' ∧
        Ending python3 processName t' (.error (e.ofEngine python3))) := by
  unfold confirmComputeNodeDisabled
  rw [ensures_tryCatch]
  refine ensures_mono (waitForDisable_spec python3 nova.polls h) (fun _ _ h' => h')
    fun e t' h' => ?_
  by_cases hTimeout : e.exc = .timeout
  · rw [if_pos hTimeout] at h' ⊢
    rw [ensures_throw]
    refine ⟨h'.disables, ?_⟩
    cases python3 with
    | true => exact .timeout h'.polls h'.quiet
    | false => exact .timeout h'.polls h'.quiet
  · rw [if_neg hTimeout] at h' ⊢
    exact h'

end TaskProofs

/-! ## The flow -/

section Flow

variable (nova : Compute) (processName hostName : String) (python3 : Bool)

theorem outcome_spec :
    Disables processName hostName (outcome nova processName hostName python3).2 ∧
      Ending python3 processName (outcome nova processName hostName python3).2
        (outcome nova processName hostName python3).1 := by
  have hFlow : Ensures (getComputeProcessRecoveryFlow nova processName hostName) []
      (fun _ t => Disables processName hostName t ∧ Ending python3 processName t (.ok ()))
      (fun e t => Disables processName hostName t ∧
        Ending python3 processName t (.error (e.ofEngine python3))) := by
    unfold getComputeProcessRecoveryFlow
    rw [ensures_bind]
    exact ensures_mono (disableComputeNode_spec python3)
      (fun _ _ h => confirmComputeNodeDisabled_spec python3 h) fun _ _ h => h
  unfold Ensures at hFlow
  unfold outcome
  cases hRun : (getComputeProcessRecoveryFlow nova processName hostName).run [] with
  | ok u t =>
    rw [hRun] at hFlow
    exact hFlow
  | error e t =>
    rw [hRun] at hFlow
    exact hFlow

end Flow

/-- A poll, and not only the first reply, shows the service disabled. -/
def ShownDisabled (t : Trace) : Prop :=
  ∃ front reply, t = front ++ [reply] ∧ front ≠ [] ∧ reply.disabled? = some true

theorem ending_ok_iff {python3 : Bool} {processName : String} {t : Trace} {r : Except Exc Unit}
    (h : Ending python3 processName t r) : r = .ok () ↔ ShownDisabled t := by
  cases h with
  | done hPolled hReply => exact iff_of_true rfl ⟨_, _, rfl, hPolled, hReply⟩
  | @raised t last e hLast =>
    refine iff_of_false (fun hOk => by cases hOk) ?_
    rintro ⟨front, reply, hSplit, -, hReply⟩
    obtain ⟨-, hSame⟩ := List.append_inj' hSplit rfl
    cases hSame
    unfold Event.disabled? at hReply
    split at hReply
    · cases hLast
    · cases hReply
  | timeout hPolls hQuiet =>
    refine iff_of_false (fun hOk => by cases hOk) ?_
    rintro ⟨front, reply, rfl, hPolled, hReply⟩
    refine hPolls reply ?_ hReply
    rw [List.tail_append_of_ne_nil hPolled]
    exact List.mem_append_right _ (List.mem_singleton_self _)

/-! ## The notification -/

section Notification

variable {flows : FlowOutcomes} {db : Db} {n : Notification} {event : String}

theorem not_skip_of_translate (error : NovaError) :
    (translateNovaException error).isA .skipProcessRecoveryException = false := by
  cases error <;> rfl

/-- No run of the flow says that there is nothing to do. -/
theorem not_skip_of_ending {python3 : Bool} {processName : String} {t : Trace} {e : Exc}
    (h : Ending python3 processName t (.error e)) :
    e.isA .skipProcessRecoveryException = false := by
  cases h with
  | timeout => cases python3 <;> rfl
  | @raised t last _ hLast =>
    unfold Event.raises? at hLast
    split at hLast
    · cases hLast
      rfl
    · cases hLast
      exact not_skip_of_translate _
    · cases hLast
      exact not_skip_of_translate _
    · cases hLast
    · cases hLast

/-- The handler's `try` block around the driver, by how the flow ends. -/
theorem ensures_runFlow {r : Except Exc Unit} {Q : NotificationStatus → Db → Prop}
    {E : Exc → Db → Prop} (hLoad : flows.loadProcess = .ok ())
    (hRun : flows.runProcess.mapError Subtype.val = r)
    (hSkip : ∀ e, r = .error e → e.isA .skipProcessRecoveryException = false) :
    Ensures (statusOf
      (executeProcessFailure (endsAs flows.loadProcess) (endsAs flows.runProcess)
        (some "nova-compute"))
      (fun _ => false) (Exc.isA .skipProcessRecoveryException)) db Q E ↔
    Ensures (MonadExcept.ofExcept r : DbM Unit) db (fun _ => Q .finished)
      (fun e db' => if e.isA .masakariException then Q .error db' else E e db') := by
  rw [ensures_statusOf]
  unfold executeProcessFailure
  rw [if_pos rfl, ensures_bind, ensures_except, hLoad]
  rw [ensures_ofExcept, ← hRun]
  cases hEnd : flows.runProcess with
  | ok u => exact Iff.rfl
  | error e =>
    have hNotSkip := hSkip e.val (by rw [← hRun, hEnd]; rfl)
    change (if false = true then Q .ignored db
      else if e.val.isA .skipProcessRecoveryException = true then Q .finished db
      else if e.val.isA .masakariException = true then Q .error db else E e.val db) ↔
      if e.val.isA .masakariException = true then Q .error db else E e.val db
    rw [if_neg Bool.false_ne_true, if_neg (by rw [hNotSkip]; exact Bool.false_ne_true)]

/-- A `STOPPED` of nova-compute on a live host: whatever nova answers, the service is disabled
at most once, and exactly if the first reply shows it enabled; the notification is `finished`
exactly if a poll shows it disabled; it is in `error` after an exception of `exception.py`, which on
Python 2 is also that of the waiting period; any other exception leaves the handler, on Python 3
also after the waiting period. The host is on maintenance in every case. -/
theorem handle_novaCompute (nova : Compute) (python3 : Bool) {h : Host} (hType : n.type = .process)
    (hEvent : n.payload.lookup "event" = some event) (hStopped : PyString.upper event = "STOPPED")
    (hName : n.payload.lookup "process_name" = some "nova-compute")
    (hHost : db.liveHost n.sourceHostUuid = some h)
    (hSegment : (db.segments.get? h.failoverSegmentId).isSome = true)
    (hLoad : flows.loadProcess = .ok ())
    (hRun : flows.runProcess.mapError Subtype.val =
      (outcome nova "nova-compute" h.name python3).1) :
    let o := outcome nova "nova-compute" h.name python3
    Disables "nova-compute" h.name o.2 ∧ Ending python3 "nova-compute" o.2 o.1 ∧
    Ensures (handle flows n) db
      (fun s db' => db' = db.setHost h.uuid { onMaintenance := some true } ∧
        (s = .finished ∧ ShownDisabled o.2 ∨ s = .error ∧ ¬ ShownDisabled o.2 ∧
          ∃ e, o.1 = .error e ∧ e.isA .masakariException = true))
      (fun e db' => db' = db.setHost h.uuid { onMaintenance := some true } ∧
        ¬ ShownDisabled o.2 ∧ o.1 = .error e ∧ e.isA .masakariException = false) := by
  obtain ⟨hDisables, hEnding⟩ := outcome_spec nova "nova-compute" h.name python3
  have hOkIff := ending_ok_iff hEnding
  refine ⟨hDisables, hEnding, ?_⟩
  have hUuid := uuid_of_liveHost hHost
  obtain ⟨seg, hSegment⟩ := Option.isSome_iff_exists.mp hSegment
  unfold handle handleNotificationTypeProcess upperEvent
  rw [hType]
  dsimp only
  rw [hEvent]
  dsimp only
  rw [ensures_bind, ensures_pure, hStopped, if_neg (by decide), if_pos rfl]
  refine (ensures_markHost_ok (v := fun _ => { onMaintenance := some true })
    (k := fun _ _ => statusOf
      (executeProcessFailure (endsAs flows.loadProcess) (endsAs flows.runProcess)
        (n.payload.lookup "process_name"))
      (fun _ => false) (Exc.isA .skipProcessRecoveryException)) hHost hSegment).mpr ?_
  rw [hName, ensures_runFlow hLoad hRun fun e he => not_skip_of_ending (he ▸ hEnding), ← hUuid,
    ensures_ofExcept]
  cases hResult : (outcome nova "nova-compute" h.name python3).1 with
  | ok u => exact ⟨rfl, Or.inl ⟨rfl, hOkIff.mp hResult⟩⟩
  | error e =>
    have hNot : ¬ ShownDisabled (outcome nova "nova-compute" h.name python3).2 := fun hShown => by
      rw [hOkIff.mpr hShown] at hResult
      cases hResult
    by_cases hMasakari : e.isA .masakariException = true
    · dsimp only
      rw [if_pos hMasakari]
      exact ⟨rfl, Or.inr ⟨rfl, hNot, e, rfl, hMasakari⟩⟩
    · dsimp only
      rw [if_neg hMasakari]
      exact ⟨rfl, hNot, rfl, Bool.eq_false_of_not_eq_true hMasakari⟩

end Notification

/-- Nova shows the service enabled, disables it, and shows it disabled at the second poll. -/
def seenEnabled : Compute where
  servicesList t := .ok [⟨if t.length < 3 then "enabled" else "disabled"⟩]
  servicesDisable _ := .ok ()
  polls := 5

/-- The process has stopped on the only host. -/
theorem handle_novaCompute_seenEnabled :
    let o := outcome seenEnabled "nova-compute" "compute1" true
    o.1 = .ok () ∧ o.2.length = 4 ∧ Disables "nova-compute" "compute1" o.2 := by
  let n : Notification := ⟨1, 0, "notification", 0, "host", .process,
    [⟨"event", "STOPPED"⟩, ⟨"process_name", "nova-compute"⟩].toFinmap, .running, 0⟩
  let h : Host := ⟨1, 0, "host", "compute1", false, false, "segment", 0⟩
  have hEvent : n.payload.lookup "event" = some "STOPPED" := by decide
  have hHost : (oneHost ⟨[n], by decide⟩).liveHost n.sourceHostUuid = some h := by decide
  have hLoad : flowsReturn.loadProcess = .ok () := rfl
  exact ⟨rfl, rfl, (handle_novaCompute seenEnabled true rfl hEvent (by decide) (by decide) hHost
    (by decide) hLoad rfl).1⟩

end MasakariHA.Engine.ProcessFailure
