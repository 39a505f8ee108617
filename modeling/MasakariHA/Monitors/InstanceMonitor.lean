import MasakariHA.Engine.Manager
import MasakariHA.Lib.Trans

/-!
# The instance monitor

`instancemonitor/instance.py` with its event filter and its callback: the thread of
`_virt_event` opens a connection to libvirt, registers a handler for each event id, watches the
connection, gives the handlers back and starts anew, while the thread of the event loop calls
the handlers that are registered. Every call of libvirt can raise. A notification is sent by a
thread of its own.

* `virEventFilter`: `EventFilter.vir_event_filter` on the tables of `eventfilter_table.py`;
* `DomainEvent.notification`: what `libvirt_event_callback` sends for an event;
* `virtEvent`: the two threads, call by call;
* `Inv`: what is registered at each call, with `inv_step`;
* `virtEvent_run`, `notification_handled`: every event is notified once, and what the API and
  the engine make of it.
-/

namespace MasakariHA.Monitors.InstanceMonitor

open Lib Engine

/-! ## The event filter -/

/-! The constants of `libvirt`. -/

def eventIdLifecycle : Int := 0
def eventIdReboot : Int := 1
def eventIdRtcChange : Int := 2
def eventIdWatchdog : Int := 3
def eventIdIoError : Int := 4
def eventIdGraphics : Int := 5
def eventIdIoErrorReason : Int := 6
def eventIdControlError : Int := 7
def eventIdDiskChange : Int := 9

def eventSuspended : Int := 3
def eventStopped : Int := 5
def eventShutdown : Int := 6

def suspendedIoerror : Int := 2
def suspendedWatchdog : Int := 3
def suspendedApiError : Int := 6
def stoppedShutdown : Int := 0
def stoppedDestroyed : Int := 1
def stoppedFailed : Int := 5
def shutdownFinished : Int := 0

def watchdogNone : Int := 0
def watchdogPause : Int := 1
def watchdogReset : Int := 2
def watchdogPoweroff : Int := 3
def watchdogShutdown : Int := 4
def watchdogDebug : Int := 5

def ioErrorNone : Int := 0
def ioErrorPause : Int := 1
def ioErrorReport : Int := 2

/-- `DUMMY`. -/
def dummy : Int := -1

def eventFilterDic : List (Int × List (Int × List Int)) :=
  [(eventIdLifecycle,
    [(eventSuspended, [suspendedIoerror, suspendedWatchdog, suspendedApiError]),
      (eventStopped, [stoppedShutdown, stoppedDestroyed, stoppedFailed]),
      (eventShutdown, [shutdownFinished])]),
    (eventIdReboot, [(dummy, [dummy])]),
    (eventIdWatchdog,
      [(watchdogNone, [dummy]), (watchdogPause, [dummy]), (watchdogReset, [dummy]),
        (watchdogPoweroff, [dummy]), (watchdogShutdown, [dummy]), (watchdogDebug, [dummy])]),
    (eventIdIoError, [(ioErrorNone, [dummy]), (ioErrorPause, [dummy]), (ioErrorReport, [dummy])]),
    (eventIdIoErrorReason, [(dummy, [dummy])]),
    (eventIdControlError, [(dummy, [dummy])])]

def eventIdDic : List (Int × String) :=
  [(eventIdLifecycle, "LIFECYCLE"), (eventIdReboot, "REBOOT"), (eventIdWatchdog, "WATCHDOG"),
    (eventIdIoError, "IO_ERROR"), (eventIdIoErrorReason, "IO_ERROR_REASON"),
    (eventIdControlError, "CONTROL_ERROR")]

def detailDic : List (Int × List (Int × List (Int × String))) :=
  [(eventIdLifecycle,
    [(eventSuspended,
      [(suspendedIoerror, "SUSPENDED_IOERROR"), (suspendedWatchdog, "SUSPENDED_WATCHDOG"),
        (suspendedApiError, "SUSPENDED_API_ERROR")]),
      (eventStopped,
        [(stoppedShutdown, "STOPPED_SHUTDOWN"), (stoppedDestroyed, "STOPPED_DESTROYED"),
          (stoppedFailed, "STOPPED_FAILED")]),
      (eventShutdown, [(shutdownFinished, "SHUTDOWN_FINISHED")])]),
    (eventIdReboot, [(dummy, [(dummy, "UNKNOWN")])]),
    (eventIdWatchdog,
      [(watchdogNone, [(dummy, "WATCHDOG_NONE")]), (watchdogPause, [(dummy, "WATCHDOG_PAUSE")]),
        (watchdogReset, [(dummy, "WATCHDOG_RESET")]),
        (watchdogPoweroff, [(dummy, "WATCHDOG_POWEROFF")]),
        (watchdogShutdown, [(dummy, "WATCHDOG_SHUTDOWN")]),
        (watchdogDebug, [(dummy, "WATCHDOG_DEBUG")])]),
    (eventIdIoError,
      [(ioErrorNone, [(dummy, "IO_ERROR_NONE")]), (ioErrorPause, [(dummy, "IO_ERROR_PAUSE")]),
        (ioErrorReport, [(dummy, "IO_ERROR_REPORT")])]),
    (eventIdIoErrorReason, [(dummy, [(dummy, "UNKNOWN")])]),
    (eventIdControlError, [(dummy, [(dummy, "UNKNOWN")])])]

/-- `dic[key]`. -/
def getItem {α : Type} (dic : List (Int × α)) (key : Int) : Except Exc α :=
  match dic.lookup key with
  | some a => .ok a
  | none => .error (.other "KeyError")

/-- `eventID_val` and `detail_val`. -/
def eventNames (eventId eventType detail : Int) : Except Exc (String × String) := do
  let eventIdVal ← getItem eventIdDic eventId
  let detailVal ← getItem (← getItem (← getItem detailDic eventId) eventType) detail
  pure (eventIdVal, detailVal)

/-- The body of the `try` of `vir_event_filter`: the names for the callback, if the filter
matches. -/
def filterMatch (eventId eventType detail : Int) : Except Exc (Option (String × String)) := do
  let details ← getItem (← getItem eventFilterDic eventId) eventType
  if detail ∈ details then (eventNames eventId eventType detail).map some else pure none

/-- `vir_event_filter`: a `KeyError` is logged. -/
def virEventFilter (eventId eventType detail : Int) : Option (String × String) :=
  match filterMatch eventId eventType detail with
  | .ok names => names
  | .error _ => none

/-- The event that `libvirt_event_callback` hands to `send_notification`. -/
def libvirtEventCallback (eventId details domainUuid noticeType hostname currentTime : String) :
    NotificationBody :=
  ⟨noticeType, hostname, currentTime,
    [⟨"event", eventId⟩, ⟨"instance_uuid", domainUuid⟩, ⟨"vir_domain_event", details⟩].toFinmap⟩

/-! ## Events -/

/-- The events with a handler, with the numbers that their handler passes on. -/
inductive DomainEvent where
  | lifecycle (event detail : Int)
  | reboot
  | rtcChange
  | watchdog (action : Int)
  | ioError (action : Int)
  | graphics (phase : Int)
  | diskChange
  | ioErrorReason
  | controlError
  deriving DecidableEq, Repr

namespace DomainEvent

/-- The event id that libvirt raises the event under. -/
def id : DomainEvent → Int
  | .lifecycle _ _ => eventIdLifecycle
  | .reboot => eventIdReboot
  | .rtcChange => eventIdRtcChange
  | .watchdog _ => eventIdWatchdog
  | .ioError _ => eventIdIoError
  | .graphics _ => eventIdGraphics
  | .diskChange => eventIdDiskChange
  | .ioErrorReason => eventIdIoErrorReason
  | .controlError => eventIdControlError

/-- The call of `vir_event_filter` by the handler `_my_domain_event_..._callback` of the event. -/
def filtered : DomainEvent → Option (String × String)
  | .lifecycle event detail => virEventFilter eventIdLifecycle event detail
  | .reboot => virEventFilter eventIdReboot (-1) (-1)
  | .rtcChange => virEventFilter eventIdRtcChange (-1) (-1)
  | .watchdog action => virEventFilter eventIdWatchdog action (-1)
  | .ioError action => virEventFilter eventIdIoError action (-1)
  | .graphics phase => virEventFilter eventIdGraphics (-1) phase
  | .diskChange => virEventFilter eventIdDiskChange (-1) (-1)
  | .ioErrorReason => virEventFilter eventIdIoErrorReason (-1) (-1)
  | .controlError => virEventFilter eventIdControlError (-1) (-1)

/-- The notification of an event. -/
def notification (hostname domainUuid currentTime : String) (d : DomainEvent) :
    Option NotificationBody :=
  d.filtered.map fun names =>
    libvirtEventCallback names.1 names.2 domainUuid "VM" hostname currentTime

end DomainEvent

/-! ## The loop -/

/-- The keys of `event_callback_handlers`, in their order. -/
def eventCallbackHandlers : List Int :=
  [eventIdLifecycle, eventIdReboot, eventIdRtcChange, eventIdIoError, eventIdWatchdog,
    eventIdGraphics, eventIdDiskChange, eventIdIoErrorReason, eventIdControlError]

/-- A connection: the handlers that libvirt holds, each under its callback id, and the ids that
the monitor was given and has handed back. -/
structure Connection where
  isOpen : Bool
  handlers : List (Nat × Int)
  callbackIds : List Nat
  deregistered : List Nat

/-- The next call of `_virt_event`. -/
inductive Phase where
  | test
  | openReadOnly
  | register (rest : List Int)
  | setKeepAlive
  | isAlive
  | deregister (rest : List Nat)
  | close
  | sleep
  | returned
  | raised
  deriving DecidableEq, Repr

/-- An event as a handler received it, and whether the thread for it could be started. -/
structure Received where
  event : DomainEvent
  domainUuid : String
  currentTime : String
  started : Bool

/-- The notification of a thread that was started. -/
def Received.notification (hostname : String) (r : Received) : Option NotificationBody :=
  if r.started then r.event.notification hostname r.domainUuid r.currentTime else none

/-- The monitor; the last connection comes first. -/
structure Monitor where
  running : Bool
  phase : Phase
  connections : List Connection
  received : List Received
  threads : List NotificationBody

/-- A step of one of the threads, with how libvirt answers; `none` and `false` for a call that
raises. -/
inductive Step where
  | stop
  | event (r : Received)
  | test
  | openReadOnly (returns : Bool)
  | register (cid : Option Nat)
  | setKeepAlive (returns : Bool)
  | isAlive (alive : Option Int)
  | deregister (returns : Bool)
  | close (returns : Bool)
  | sleep

/-- The calls of handlers that an event leads to: one for each handler of its id on a connection
that is open. -/
def calls (connections : List Connection) (d : DomainEvent) : List (Nat × Int) :=
  connections.flatMap fun c => if c.isOpen then c.handlers.filter (·.2 = d.id) else []

namespace Monitor

/-- The event loop calls the handlers of an event. -/
def receive (hostname : String) (s : Monitor) (r : Received) : Monitor :=
  match calls s.connections r.event with
  | [] => s
  | c :: cs =>
    { s with
      received := s.received ++ [r]
      threads := s.threads ++ (c :: cs).flatMap fun _ => (r.notification hostname).toList }

/-- The connection that the monitor works on. -/
def onConnection (s : Monitor) (f : Connection → Connection) : List Connection :=
  match s.connections with
  | [] => []
  | vc :: before => f vc :: before

def raise (s : Monitor) : Monitor := { s with phase := .raised }

/-- `domainEventRegisterAny` returned an id. -/
def registered (s : Monitor) (event : Int) (rest : List Int) (cid : Nat) : Monitor :=
  { s with
    phase := if rest = [] then .setKeepAlive else .register rest
    connections := s.onConnection fun vc =>
      { vc with
        handlers := vc.handlers ++ [(cid, event)]
        callbackIds := vc.callbackIds ++ [cid] } }

/-- `domainEventDeregisterAny` was called: if it raises, the handler stays where it is. -/
def deregistered (s : Monitor) (cid : Nat) (rest : List Nat) (returns : Bool) : Monitor :=
  { s with
    phase := if rest = [] then .close else .deregister rest
    connections := s.onConnection fun vc =>
      { vc with
        handlers := if returns then vc.handlers.filter (·.1 ≠ cid) else vc.handlers
        deregistered := vc.deregistered ++ [cid] } }

/-- The ids that the loop `for cid in callback_ids` starts with. -/
def callbackIds (s : Monitor) : List Nat :=
  match s.connections with
  | [] => []
  | vc :: _ => vc.callbackIds

/-- One step. `_virt_event` makes its calls in their order; an event can arrive and `stop` be
called at any time. -/
def step (hostname : String) (s : Monitor) (l : Step) : Option Monitor :=
  match l with
  | .stop => some { s with running := false }
  | .event r => some (s.receive hostname r)
  | .test =>
    if s.phase = .test then
      some { s with phase := if s.running then .openReadOnly else .returned }
    else none
  | .openReadOnly returns =>
    if s.phase = .openReadOnly then
      if returns then
        some { s with
          phase := .register eventCallbackHandlers
          connections := ⟨true, [], [], []⟩ :: s.connections }
      else some s.raise
    else none
  | .register cid =>
    match s.phase with
    | .register (event :: rest) =>
      match cid with
      | some cid => some (s.registered event rest cid)
      | none => some s.raise
    | _ => none
  | .setKeepAlive returns =>
    if s.phase = .setKeepAlive then
      if returns then some { s with phase := .isAlive } else some s.raise
    else none
  | .isAlive alive =>
    if s.phase = .isAlive then
      match alive with
      | some alive =>
        if alive = 1 ∧ s.running then some s
        else some { s with phase := .deregister s.callbackIds }
      | none => some s.raise
    else none
  | .deregister returns =>
    match s.phase with
    | .deregister (cid :: rest) => some (s.deregistered cid rest returns)
    | _ => none
  | .close returns =>
    if s.phase = .close then
      if returns then
        some { s with
          phase := .sleep
          connections := s.onConnection fun vc => { vc with isOpen := false } }
      else some s.raise
    else none
  | .sleep => if s.phase = .sleep then some { s with phase := .test } else none

end Monitor

/-- The runs of `_virt_event`. -/
def virtEvent (hostname : String) : Trans Monitor Step where
  init s := s = ⟨true, .test, [], [], []⟩
  step := Monitor.step hostname

/-! ## What the filter lets through -/

namespace DomainEvent

/-- The events that the filter matches. -/
def Matches : DomainEvent → Prop
  | .lifecycle event detail =>
    event = eventSuspended ∧ detail ∈ [suspendedIoerror, suspendedWatchdog, suspendedApiError] ∨
      event = eventStopped ∧ detail ∈ [stoppedShutdown, stoppedDestroyed, stoppedFailed] ∨
      event = eventShutdown ∧ detail ∈ [shutdownFinished]
  | .watchdog action => watchdogNone ≤ action ∧ action ≤ watchdogDebug
  | .ioError action => ioErrorNone ≤ action ∧ action ≤ ioErrorReport
  | .reboot | .ioErrorReason | .controlError => True
  | .rtcChange | .graphics _ | .diskChange => False

/-- The events whose instance the engine recovers. -/
def Recovers : DomainEvent → Prop
  | .lifecycle event detail => event = eventStopped ∧ detail = stoppedFailed
  | .ioError action => action = ioErrorReport
  | _ => False

end DomainEvent

theorem getItem_eq_ok {α : Type} {dic : List (Int × α)} {key : Int} {a : α}
    (h : getItem dic key = .ok a) : (key, a) ∈ dic := by
  unfold getItem at h
  split at h
  · rename_i found hFound
    cases h
    obtain ⟨before, after, rfl, -⟩ := List.lookup_eq_some_iff.mp hFound
    exact List.mem_append_right _ List.mem_cons_self
  · cases h

theorem getItem_eq_ok_iff {α : Type} {dic : List (Int × α)} {key : Int} {a : α}
    (hKeys : (dic.map Prod.fst).Nodup) : getItem dic key = .ok a ↔ (key, a) ∈ dic := by
  refine ⟨getItem_eq_ok, fun hMem => ?_⟩
  obtain ⟨before, after, rfl⟩ := List.append_of_mem hMem
  rw [List.map_append, List.map_cons] at hKeys
  have hFirst : key ∉ before.map Prod.fst := fun hBefore =>
    (List.nodup_append.mp hKeys).2.2 key hBefore key List.mem_cons_self rfl
  have hLookup : (before ++ (key, a) :: after).lookup key = some a :=
    List.lookup_eq_some_iff.mpr ⟨before, after, rfl, fun entry hEntry => by
      simpa using fun hEq : key = entry.1 => hFirst (hEq ▸ List.mem_map_of_mem hEntry)⟩
  rw [getItem, hLookup]

/-- The tables have a name for whatever the filter lists. -/
theorem eventNames_isOk : ∀ idEntry ∈ eventFilterDic, ∀ typeEntry ∈ idEntry.2,
    ∀ detail ∈ typeEntry.2, (eventNames idEntry.1 typeEntry.1 detail).isOk = true := by
  decide

/-- The filter passes on the names of what its table lists. -/
theorem virEventFilter_eq_some_iff {eventId eventType detail : Int} {names : String × String} :
    virEventFilter eventId eventType detail = some names ↔
      (∃ types details, (eventId, types) ∈ eventFilterDic ∧ (eventType, details) ∈ types ∧
        detail ∈ details) ∧ eventNames eventId eventType detail = .ok names := by
  have hKeys : (eventFilterDic.map Prod.fst).Nodup := by decide
  have hTypeKeys : ∀ entry ∈ eventFilterDic, (entry.2.map Prod.fst).Nodup := by decide
  constructor
  · intro h
    unfold virEventFilter filterMatch at h
    cases hTypes : getItem eventFilterDic eventId with
    | error e =>
      rw [hTypes] at h
      cases h
    | ok types =>
      cases hDetails : getItem types eventType with
      | error e =>
        simp only [hTypes, bind, Except.bind, hDetails] at h
        cases h
      | ok details =>
        simp only [hTypes, bind, Except.bind, hDetails] at h
        by_cases hMem : detail ∈ details
        · rw [if_pos hMem] at h
          refine ⟨⟨types, details, getItem_eq_ok hTypes, getItem_eq_ok hDetails, hMem⟩, ?_⟩
          cases hNames : eventNames eventId eventType detail with
          | error e =>
            rw [hNames] at h
            cases h
          | ok found =>
            rw [hNames] at h
            cases h
            rfl
        · rw [if_neg hMem] at h
          cases h
  · rintro ⟨⟨types, details, hTypes, hDetails, hMem⟩, hNames⟩
    have hTypesItem := (getItem_eq_ok_iff hKeys).mpr hTypes
    have hDetailsItem := (getItem_eq_ok_iff (hTypeKeys _ hTypes)).mpr hDetails
    simp only [virEventFilter, filterMatch, hTypesItem, bind, Except.bind, hDetailsItem,
      if_pos hMem, hNames]
    rfl

/-- No event that matches is lost to a `KeyError` of the tables of names. -/
theorem virEventFilter_isSome_iff {eventId eventType detail : Int} :
    (virEventFilter eventId eventType detail).isSome = true ↔
      ∃ types details, (eventId, types) ∈ eventFilterDic ∧ (eventType, details) ∈ types ∧
        detail ∈ details := by
  rw [Option.isSome_iff_exists]
  refine ⟨fun ⟨_, hNames⟩ => (virEventFilter_eq_some_iff.mp hNames).1, fun hListed => ?_⟩
  obtain ⟨types, details, hTypes, hDetails, hMem⟩ := hListed
  cases hNames : eventNames eventId eventType detail with
  | error e =>
    have hOk := eventNames_isOk _ hTypes _ hDetails detail hMem
    rw [hNames] at hOk
    cases hOk
  | ok names =>
    exact ⟨names,
      virEventFilter_eq_some_iff.mpr ⟨⟨types, details, hTypes, hDetails, hMem⟩, hNames⟩⟩

theorem DomainEvent.filtered_isSome_iff (d : DomainEvent) :
    d.filtered.isSome = true ↔ d.Matches := by
  cases d with
  | lifecycle event detail =>
    refine virEventFilter_isSome_iff.trans ?_
    simp [eventFilterDic, Matches, or_and_right, exists_or, eventIdLifecycle, eventIdReboot,
      eventIdWatchdog, eventIdIoError, eventIdIoErrorReason, eventIdControlError]
  | watchdog action =>
    refine virEventFilter_isSome_iff.trans ?_
    simp [eventFilterDic, Matches, or_and_right, exists_or, eventIdLifecycle, eventIdReboot,
      eventIdWatchdog, eventIdIoError, eventIdIoErrorReason, eventIdControlError, watchdogNone,
      watchdogPause, watchdogReset, watchdogPoweroff, watchdogShutdown, watchdogDebug, dummy]
    omega
  | ioError action =>
    refine virEventFilter_isSome_iff.trans ?_
    simp [eventFilterDic, Matches, or_and_right, exists_or, eventIdLifecycle, eventIdReboot,
      eventIdWatchdog, eventIdIoError, eventIdIoErrorReason, eventIdControlError, ioErrorNone,
      ioErrorPause, ioErrorReport, dummy]
    omega
  | reboot | ioErrorReason | controlError => exact iff_of_true rfl trivial
  | rtcChange | graphics phase | diskChange => exact iff_of_false Bool.false_ne_true not_false

/-! ## What the engine makes of a notification -/

/-- The names are those of an event that the engine recovers from. -/
def recoverable (names : String × String) : Bool :=
  (instanceEvents.lookup names.1).any fun virDomainEvents => virDomainEvents.contains names.2

/-- The tables of names against `INSTANCE_EVENTS`. -/
theorem recoverable_names : ∀ idEntry ∈ detailDic, ∀ typeEntry ∈ idEntry.2,
    ∀ entry ∈ typeEntry.2, ∀ nameEntry ∈ eventIdDic, nameEntry.1 = idEntry.1 →
      (recoverable (nameEntry.2, entry.2) = true ↔
        (idEntry.1, typeEntry.1, entry.1) = (eventIdLifecycle, eventStopped, stoppedFailed) ∨
        (idEntry.1, typeEntry.1, entry.1) = (eventIdIoError, ioErrorReport, dummy)) ∧
      nameEntry.2.length ≤ 255 ∧ entry.2.length ≤ 255 := by
  decide

theorem eventNames_eq_ok {eventId eventType detail : Int} {names : String × String}
    (h : eventNames eventId eventType detail = .ok names) :
    (eventId, names.1) ∈ eventIdDic ∧ ∃ types details, (eventId, types) ∈ detailDic ∧
      (eventType, details) ∈ types ∧ (detail, names.2) ∈ details := by
  simp only [eventNames, except_bind_eq_ok] at h
  obtain ⟨eventIdVal, hId, types, hTypes, details, hDetails, detailVal, hDetail, hNames⟩ := h
  cases hNames
  exact ⟨getItem_eq_ok hId, types, details, getItem_eq_ok hTypes, getItem_eq_ok hDetails,
    getItem_eq_ok hDetail⟩

namespace DomainEvent

/-- The event type that the handler of the event passes on. -/
def eventType : DomainEvent → Int
  | .lifecycle event _ => event
  | .watchdog action | .ioError action => action
  | _ => -1

/-- The detail that the handler of the event passes on. -/
def detail : DomainEvent → Int
  | .lifecycle _ detail => detail
  | .graphics phase => phase
  | _ => -1

theorem filtered_eq (d : DomainEvent) : d.filtered = virEventFilter d.id d.eventType d.detail := by
  cases d <;> rfl

theorem recovers_iff (d : DomainEvent) : d.Recovers ↔
    (d.id, d.eventType, d.detail) = (eventIdLifecycle, eventStopped, stoppedFailed) ∨
      (d.id, d.eventType, d.detail) = (eventIdIoError, ioErrorReport, dummy) := by
  cases d <;>
    simp [Recovers, id, eventType, detail, eventIdLifecycle, eventIdReboot, eventIdRtcChange,
      eventIdWatchdog, eventIdIoError, eventIdGraphics, eventIdIoErrorReason,
      eventIdControlError, eventIdDiskChange, dummy]

theorem recoverable_filtered {d : DomainEvent} {names : String × String}
    (h : d.filtered = some names) :
    (recoverable names = true ↔ d.Recovers) ∧ names.1.length ≤ 255 ∧ names.2.length ≤ 255 := by
  rw [filtered_eq] at h
  obtain ⟨hId, types, details, hTypes, hDetails, hDetail⟩ :=
    eventNames_eq_ok (virEventFilter_eq_some_iff.mp h).2
  obtain ⟨hRecoverable, hLengths⟩ :=
    recoverable_names _ hTypes _ hDetails _ hDetail _ hId rfl
  exact ⟨hRecoverable.trans d.recovers_iff.symm, hLengths⟩

end DomainEvent

section Callback

variable {eventId details domainUuid hostname currentTime : String}

variable (eventId details domainUuid hostname currentTime) in
theorem lookup_callback :
    let payload :=
      (libvirtEventCallback eventId details domainUuid "VM" hostname currentTime).payload
    payload.lookup "event" = some eventId ∧ payload.lookup "instance_uuid" = some domainUuid ∧
      payload.lookup "vir_domain_event" = some details := by
  refine ⟨?_, ?_, ?_⟩ <;> simp [libvirtEventCallback, List.toFinmap]

theorem isValidEvent_callback :
    isValidEvent (libvirtEventCallback eventId details domainUuid "VM" hostname
      currentTime).payload = recoverable (eventId, details) := by
  obtain ⟨hEvent, -, hDetails⟩ :=
    lookup_callback eventId details domainUuid hostname currentTime
  unfold isValidEvent recoverable
  dsimp only
  rw [hEvent]
  cases hLookup : instanceEvents.lookup eventId with
  | none => simp only [hLookup, Option.any_none]
  | some virDomainEvents => simp only [hLookup, hDetails, Option.any_some]

end Callback

section Notification

variable {hostname domainUuid currentTime : String}

theorem payloadOk_callback {eventId details : String} (hEvent : eventId.length ≤ 255)
    (hUuid : domainUuid.length ≤ 255) (hDetails : details.length ≤ 255) :
    NotificationBody.payloadOk
      (libvirtEventCallback eventId details domainUuid "VM" hostname currentTime).payload =
      true := by
  have hKeys : NotificationBody.keyOk "event" = true ∧
      NotificationBody.keyOk "instance_uuid" = true ∧
      NotificationBody.keyOk "vir_domain_event" = true := by
    decide
  show (true && (NotificationBody.keyOk "event" && decide (eventId.length ≤ 255)) &&
    (NotificationBody.keyOk "instance_uuid" && decide (domainUuid.length ≤ 255)) &&
    (NotificationBody.keyOk "vir_domain_event" && decide (details.length ≤ 255))) = true
  simp only [hKeys, hEvent, hUuid, hDetails, decide_true, Bool.and_self]

theorem handle_callback {flows : FlowOutcomes} {names : String × String} {n : Notification}
    (hBuilt : BuiltFrom
      (libvirtEventCallback names.1 names.2 domainUuid "VM" hostname currentTime) n) :
    handle flows n =
      if recoverable names then
        statusOf (executeInstanceFailure (endsAs flows.loadInstance) (endsAs flows.runInstance))
          (Exc.isA .ignoreInstanceRecoveryException) (Exc.isA .skipInstanceRecoveryException)
      else pure .ignored := by
  obtain ⟨hType, hPayload⟩ := hBuilt
  have hVm : n.type = .vm := Option.some.inj (hType.symm.trans rfl)
  unfold handle
  rw [hVm]
  dsimp only
  unfold handleNotificationTypeInstance
  rw [hPayload, isValidEvent_callback]

/-- A notification is sent for exactly the events that the filter matches. The API accepts its
body; the engine runs the recovery flow for the instance of the event if this is `STOPPED_FAILED`
or `IO_ERROR_REPORT`, and answers any other with `ignored`. -/
theorem notification_handled (parseIsotime : String → Option Int)
    (hHost : NotificationBody.hostnameOk hostname = true)
    (hTime : (parseIsotime currentTime).isSome = true) (hUuid : domainUuid.length ≤ 255)
    (d : DomainEvent) :
    ((d.notification hostname domainUuid currentTime).isSome = true ↔ d.Matches) ∧
    (d.Recovers → d.Matches) ∧
    ∀ b, d.notification hostname domainUuid currentTime = some b →
      b.accepted parseIsotime = true ∧
      ∀ (flows : FlowOutcomes) (n : Notification), BuiltFrom b n →
        n.payload.lookup "instance_uuid" = some domainUuid ∧
        (d.Recovers → handle flows n =
          statusOf
            (executeInstanceFailure (endsAs flows.loadInstance) (endsAs flows.runInstance))
            (Exc.isA .ignoreInstanceRecoveryException)
            (Exc.isA .skipInstanceRecoveryException)) ∧
        (¬ d.Recovers → handle flows n = pure .ignored) := by
  refine ⟨?_, ?_, fun b hb => ?_⟩
  · rw [DomainEvent.notification, Option.isSome_map, d.filtered_isSome_iff]
  · intro h
    rcases d with _ | _ | _ | _ | _ | _ | _ | _ | _
    case lifecycle event detail => exact Or.inr (Or.inl ⟨h.1, by rw [h.2]; decide⟩)
    case ioError action => exact (show action = ioErrorReport from h) ▸ ⟨by decide, by decide⟩
    all_goals exact h.elim
  · obtain ⟨names, hNames, rfl⟩ := Option.map_eq_some_iff.mp hb
    obtain ⟨hRecovers, hEvent, hDetails⟩ := DomainEvent.recoverable_filtered hNames
    refine ⟨?_, fun flows n hBuilt => ⟨?_, fun hd => ?_, fun hd => ?_⟩⟩
    · have hType : (NotificationType.ofString "VM").isSome = true := rfl
      unfold NotificationBody.accepted
      rw [payloadOk_callback hEvent hUuid hDetails]
      simp only [libvirtEventCallback, hType, hHost, hTime, Bool.and_self]
    · rw [hBuilt.2]
      exact (lookup_callback _ _ _ _ _).2.1
    · rw [handle_callback hBuilt, if_pos (hRecovers.mpr hd)]
    · rw [handle_callback hBuilt, if_neg fun hRecoverable => hd (hRecovers.mp hRecoverable)]

/-- A failed instance: the handler runs its recovery flow. -/
theorem notification_handled_failed :
    ∃ b, (DomainEvent.lifecycle eventStopped stoppedFailed).notification "compute1" "u" "t" =
        some b ∧ b.accepted (fun _ => some 0) = true ∧
      ∀ flows n, BuiltFrom b n → handle flows n =
        statusOf (executeInstanceFailure (endsAs flows.loadInstance) (endsAs flows.runInstance))
          (Exc.isA .ignoreInstanceRecoveryException)
          (Exc.isA .skipInstanceRecoveryException) := by
  have hHost : NotificationBody.hostnameOk "compute1" = true := by decide
  have hUuid : "u".length ≤ 255 := by decide
  obtain ⟨hSent, hMatches, hHandled⟩ :=
    notification_handled (fun _ => some 0) hHost (Option.isSome_some (a := 0)) hUuid
      (.lifecycle eventStopped stoppedFailed)
  obtain ⟨b, hb⟩ := Option.isSome_iff_exists.mp (hSent.mpr (hMatches ⟨rfl, rfl⟩))
  obtain ⟨hAccepted, hHandle⟩ := hHandled b hb
  exact ⟨b, hb, hAccepted, fun flows n hBuilt => (hHandle flows n hBuilt).2.1 ⟨rfl, rfl⟩⟩

end Notification

/-! ## The loop -/

/-- The connection is closed, and every callback id that it gave was handed back, once and in the
order of registration. -/
structure Connection.Released (c : Connection) : Prop where
  closed : c.isOpen = false
  givenBack : c.deregistered = c.callbackIds
  allRegistered : c.callbackIds.length = eventCallbackHandlers.length

/-- The connection is open, and `rest` is still to be registered. -/
structure Connection.Registering (vc : Connection) (rest : List Int) : Prop where
  isOpen : vc.isOpen = true
  handlers : vc.handlers.map Prod.snd ++ rest = eventCallbackHandlers
  callbackIds : vc.callbackIds.length + rest.length = eventCallbackHandlers.length
  deregistered : vc.deregistered = []

/-- The connection is open, and `rest` is still to be handed back. -/
structure Connection.Deregistering (vc : Connection) (rest : List Nat) : Prop where
  isOpen : vc.isOpen = true
  handlers : (vc.handlers.map Prod.snd).Sublist eventCallbackHandlers
  callbackIds : vc.deregistered ++ rest = vc.callbackIds
  allRegistered : vc.callbackIds.length = eventCallbackHandlers.length

/-- The connections at each call of the monitor. -/
inductive AtCall : Phase → List Connection → Prop where
  | released {phase : Phase} {connections : List Connection}
      (hPhase : phase = .test ∨ phase = .openReadOnly ∨ phase = .sleep ∨ phase = .returned)
      (hAll : ∀ c ∈ connections, c.Released) : AtCall phase connections
  | registering {vc : Connection} {before : List Connection} {event : Int} {rest : List Int}
      (hVc : vc.Registering (event :: rest)) (hBefore : ∀ c ∈ before, c.Released) :
      AtCall (.register (event :: rest)) (vc :: before)
  | watching {phase : Phase} {vc : Connection} {before : List Connection}
      (hPhase : phase = .setKeepAlive ∨ phase = .isAlive)
      (hVc : vc.Registering []) (hBefore : ∀ c ∈ before, c.Released) :
      AtCall phase (vc :: before)
  | deregistering {vc : Connection} {before : List Connection} {cid : Nat} {rest : List Nat}
      (hVc : vc.Deregistering (cid :: rest)) (hBefore : ∀ c ∈ before, c.Released) :
      AtCall (.deregister (cid :: rest)) (vc :: before)
  | closing {vc : Connection} {before : List Connection}
      (hVc : vc.Deregistering []) (hBefore : ∀ c ∈ before, c.Released) :
      AtCall .close (vc :: before)
  | raised {connections : List Connection} (hCalls : ∀ d, (calls connections d).length ≤ 1)
      (hBefore : ∀ c ∈ connections.tail, c.Released) : AtCall .raised connections

/-- The invariant of `_virt_event`. -/
structure Inv (hostname : String) (s : Monitor) : Prop where
  atCall : AtCall s.phase s.connections
  returned : s.phase = .returned → s.running = false
  threads : s.threads = s.received.filterMap (Received.notification hostname)

section Run

variable {hostname : String} {s s' : Monitor} {vc : Connection} {before : List Connection}

theorem nodup_eventCallbackHandlers : eventCallbackHandlers.Nodup := by decide

theorem DomainEvent.id_mem (d : DomainEvent) : d.id ∈ eventCallbackHandlers := by
  cases d <;> exact of_decide_eq_true rfl

theorem calls_released (h : ∀ c ∈ before, c.Released) (d : DomainEvent) :
    calls before d = [] := by
  refine List.flatMap_eq_nil_iff.mpr fun c hc => ?_
  rw [if_neg (by rw [(h c hc).closed]; exact Bool.false_ne_true)]

theorem calls_cons (hOpen : vc.isOpen = true) (h : ∀ c ∈ before, c.Released)
    (d : DomainEvent) : calls (vc :: before) d = vc.handlers.filter (·.2 = d.id) := by
  have hRest := calls_released h d
  unfold calls at hRest ⊢
  rw [List.flatMap_cons, hRest, List.append_nil, if_pos hOpen]

/-- How many handlers an event has, by the ids that are registered. -/
theorem length_filter_handlers (handlers : List (Nat × Int)) (d : DomainEvent) :
    (handlers.filter (·.2 = d.id)).length = (handlers.map Prod.snd).count d.id := by
  rw [List.count, List.countP_map, ← List.countP_eq_length_filter]
  rfl

theorem length_calls_le (hOpen : vc.isOpen = true)
    (hHandlers : (vc.handlers.map Prod.snd).Sublist eventCallbackHandlers)
    (h : ∀ c ∈ before, c.Released) (d : DomainEvent) : (calls (vc :: before) d).length ≤ 1 := by
  rw [calls_cons hOpen h, length_filter_handlers]
  exact (hHandlers.count_le _).trans
    (List.nodup_iff_count_le_one.mp nodup_eventCallbackHandlers _)

theorem Connection.Registering.sublist {rest : List Int} (h : vc.Registering rest) :
    (vc.handlers.map Prod.snd).Sublist eventCallbackHandlers :=
  h.handlers ▸ List.sublist_append_left _ _

/-- An event has at most one handler. -/
theorem AtCall.length_calls {phase : Phase} {connections : List Connection}
    (h : AtCall phase connections) (d : DomainEvent) : (calls connections d).length ≤ 1 := by
  cases h with
  | released hPhase hAll =>
    rw [calls_released hAll]
    exact Nat.zero_le 1
  | registering hVc hBefore => exact length_calls_le hVc.isOpen hVc.sublist hBefore d
  | watching hPhase hVc hBefore => exact length_calls_le hVc.isOpen hVc.sublist hBefore d
  | deregistering hVc hBefore => exact length_calls_le hVc.isOpen hVc.handlers hBefore d
  | closing hVc hBefore => exact length_calls_le hVc.isOpen hVc.handlers hBefore d
  | raised hCalls hBefore => exact hCalls d

theorem AtCall.released_tail {phase : Phase} {connections : List Connection}
    (h : AtCall phase connections) : ∀ c ∈ connections.tail, c.Released := by
  cases h with
  | released hPhase hAll => exact fun c hc => hAll c (List.mem_of_mem_tail hc)
  | registering hVc hBefore => exact hBefore
  | watching hPhase hVc hBefore => exact hBefore
  | deregistering hVc hBefore => exact hBefore
  | closing hVc hBefore => exact hBefore
  | raised hCalls hBefore => exact hBefore

/-- The monitor has made a call. -/
theorem inv_moved {phase : Phase} {connections : List Connection} (h : Inv hostname s)
    (hAt : AtCall phase connections) (hPhase : phase ≠ .returned) :
    Inv hostname { s with phase, connections } :=
  ⟨hAt, fun hReturned => absurd hReturned hPhase, h.threads⟩

theorem inv_raise (h : Inv hostname s) : Inv hostname s.raise :=
  inv_moved h (.raised h.atCall.length_calls h.atCall.released_tail) (by simp)

/-- While the connection is watched no event is missed. -/
theorem length_calls_watching (h : Inv hostname s) (hPhase : s.phase = .isAlive)
    (d : DomainEvent) : (calls s.connections d).length = 1 := by
  have hAt := h.atCall
  rw [hPhase] at hAt
  generalize s.connections = connections at hAt
  cases hAt with
  | released hNot => simp at hNot
  | watching _ hVc hBefore =>
    rw [calls_cons hVc.isOpen hBefore, length_filter_handlers,
      show _ = _ from (List.append_nil _).symm.trans hVc.handlers]
    exact List.count_eq_one_of_mem nodup_eventCallbackHandlers d.id_mem

theorem inv_receive (h : Inv hostname s) (r : Received) : Inv hostname (s.receive hostname r) := by
  have hLength := h.atCall.length_calls r.event
  unfold Monitor.receive
  split
  · exact h
  · rename_i c cs hCalls
    rw [hCalls, List.length_cons] at hLength
    obtain rfl : cs = [] := List.length_eq_zero_iff.mp (by omega)
    refine ⟨h.atCall, h.returned, ?_⟩
    dsimp only
    rw [List.filterMap_append, h.threads, List.flatMap_singleton]
    cases hNotification : r.notification hostname with
    | none => simp [hNotification]
    | some b => simp [hNotification]

theorem inv_registered {event : Int} {rest : List Int} (h : Inv hostname s)
    (hPhase : s.phase = .register (event :: rest)) (cid : Nat) :
    Inv hostname (s.registered event rest cid) := by
  have hAt := h.atCall
  rw [hPhase] at hAt
  unfold Monitor.registered Monitor.onConnection
  generalize s.connections = connections at hAt
  cases hAt with
  | released hNot => simp at hNot
  | watching hNot => simp at hNot
  | @registering vc before _ _ hVc hBefore =>
    have hHandlers :
        (vc.handlers ++ [(cid, event)]).map Prod.snd ++ rest = eventCallbackHandlers := by
      rw [List.map_append, List.append_assoc]
      exact hVc.handlers
    have hIds : (vc.callbackIds ++ [cid]).length + rest.length = eventCallbackHandlers.length := by
      have hBound := hVc.callbackIds
      rw [List.length_cons] at hBound
      rw [List.length_append, List.length_singleton]
      omega
    cases rest with
    | nil =>
      exact inv_moved h
        (.watching (Or.inl rfl) ⟨hVc.isOpen, hHandlers, hIds, hVc.deregistered⟩ hBefore) (by simp)
    | cons next rest =>
      exact inv_moved h
        (.registering ⟨hVc.isOpen, hHandlers, hIds, hVc.deregistered⟩ hBefore) (by simp)

theorem inv_deregistered {cid : Nat} {rest : List Nat} (h : Inv hostname s)
    (hPhase : s.phase = .deregister (cid :: rest)) (returns : Bool) :
    Inv hostname (s.deregistered cid rest returns) := by
  have hAt := h.atCall
  rw [hPhase] at hAt
  unfold Monitor.deregistered Monitor.onConnection
  generalize s.connections = connections at hAt
  cases hAt with
  | released hNot => simp at hNot
  | watching hNot => simp at hNot
  | @deregistering vc before _ _ hVc hBefore =>
    have hHandlers : ((if returns then vc.handlers.filter (·.1 ≠ cid)
        else vc.handlers).map Prod.snd).Sublist eventCallbackHandlers := by
      split
      · exact (List.filter_sublist.map _).trans hVc.handlers
      · exact hVc.handlers
    have hIds : (vc.deregistered ++ [cid]) ++ rest = vc.callbackIds := by
      rw [List.append_assoc]
      exact hVc.callbackIds
    cases rest with
    | nil =>
      exact inv_moved h
        (.closing ⟨hVc.isOpen, hHandlers, hIds, hVc.allRegistered⟩ hBefore) (by simp)
    | cons next rest =>
      exact inv_moved h
        (.deregistering ⟨hVc.isOpen, hHandlers, hIds, hVc.allRegistered⟩ hBefore) (by simp)

/-- The watch ends: the connection is lost, or `stop` was called. -/
theorem inv_lost (h : Inv hostname s) (hPhase : s.phase = .isAlive) :
    Inv hostname { s with phase := .deregister s.callbackIds } := by
  have hAt := h.atCall
  rw [hPhase] at hAt
  unfold Monitor.callbackIds
  refine inv_moved h ?_ (by simp)
  generalize s.connections = connections at hAt
  cases hAt with
  | released hNot => simp at hNot
  | @watching _ vc before _ hVc hBefore =>
    have hAll : vc.callbackIds.length = eventCallbackHandlers.length := hVc.callbackIds
    have hRest : vc.deregistered ++ vc.callbackIds = vc.callbackIds := by
      rw [hVc.deregistered, List.nil_append]
    dsimp only
    obtain ⟨cid, rest, hIds⟩ : ∃ cid rest, vc.callbackIds = cid :: rest :=
      List.exists_cons_of_length_pos (by rw [hAll]; decide)
    have hVc' : vc.Deregistering vc.callbackIds :=
      ⟨hVc.isOpen, hVc.sublist, hRest, hAll⟩
    rw [hIds] at hVc' ⊢
    exact .deregistering hVc' hBefore

theorem inv_close (h : Inv hostname s) (hPhase : s.phase = .close) :
    Inv hostname { s with
      phase := .sleep
      connections := s.onConnection fun vc => { vc with isOpen := false } } := by
  have hAt := h.atCall
  rw [hPhase] at hAt
  unfold Monitor.onConnection
  refine inv_moved h ?_ (by simp)
  generalize s.connections = connections at hAt
  cases hAt with
  | released hNot => simp at hNot
  | watching hNot => simp at hNot
  | @closing vc before hVc hBefore =>
    refine .released (Or.inr (Or.inr (Or.inl rfl))) (List.forall_mem_cons.mpr ⟨?_, hBefore⟩)
    exact ⟨rfl, (List.append_nil _).symm.trans hVc.callbackIds, hVc.allRegistered⟩

/-- The calls between two connections. -/
theorem AtCall.released_of {phase : Phase} {connections : List Connection}
    (h : AtCall phase connections)
    (hPhase : phase = .test ∨ phase = .openReadOnly ∨ phase = .sleep ∨ phase = .returned) :
    ∀ c ∈ connections, c.Released := by
  cases h with
  | released _ hAll => exact hAll
  | registering => simp at hPhase
  | watching hOther => rcases hOther with rfl | rfl <;> simp at hPhase
  | deregistering => simp at hPhase
  | closing => simp at hPhase
  | raised => simp at hPhase

theorem inv_step {l : Step} (h : Inv hostname s) (hStep : s.step hostname l = some s') :
    Inv hostname s' := by
  cases l with
  | stop =>
    cases hStep
    exact ⟨h.atCall, fun _ => rfl, h.threads⟩
  | event r =>
    cases hStep
    exact inv_receive h r
  | test =>
    obtain ⟨hPhase, hStep⟩ := Option.ite_none_right_eq_some.mp hStep
    cases hStep
    have hAll := h.atCall.released_of (Or.inl hPhase)
    by_cases hRunning : s.running = true
    · rw [if_pos hRunning]
      exact inv_moved h (.released (Or.inr (Or.inl rfl)) hAll) (by simp)
    · rw [if_neg hRunning]
      exact ⟨.released (Or.inr (Or.inr (Or.inr rfl))) hAll,
        fun _ => Bool.eq_false_of_not_eq_true hRunning, h.threads⟩
  | openReadOnly returns =>
    obtain ⟨hPhase, hStep⟩ := Option.ite_none_right_eq_some.mp hStep
    split at hStep
    · cases hStep
      have hAll := h.atCall.released_of (Or.inr (Or.inl hPhase))
      exact inv_moved h (.registering ⟨rfl, rfl, rfl, rfl⟩ hAll) (by simp [eventCallbackHandlers])
    · cases hStep
      exact inv_raise h
  | register cid =>
    unfold Monitor.step at hStep
    dsimp only at hStep
    split at hStep
    · rename_i event rest hPhase
      cases cid with
      | none =>
        cases hStep
        exact inv_raise h
      | some cid =>
        cases hStep
        exact inv_registered h hPhase cid
    · cases hStep
  | setKeepAlive returns =>
    obtain ⟨hPhase, hStep⟩ := Option.ite_none_right_eq_some.mp hStep
    split at hStep
    · cases hStep
      have hAt := h.atCall
      rw [hPhase] at hAt
      refine inv_moved h ?_ (by simp)
      generalize s.connections = connections at hAt
      cases hAt with
      | released hNot => simp at hNot
      | watching _ hVc hBefore => exact .watching (Or.inr rfl) hVc hBefore
    · cases hStep
      exact inv_raise h
  | isAlive alive =>
    obtain ⟨hPhase, hStep⟩ := Option.ite_none_right_eq_some.mp hStep
    cases alive with
    | none =>
      cases hStep
      exact inv_raise h
    | some alive =>
      dsimp only at hStep
      split at hStep
      · cases hStep
        exact h
      · cases hStep
        exact inv_lost h hPhase
  | deregister returns =>
    unfold Monitor.step at hStep
    dsimp only at hStep
    split at hStep
    · rename_i cid rest hPhase
      cases hStep
      exact inv_deregistered h hPhase returns
    · cases hStep
  | close returns =>
    obtain ⟨hPhase, hStep⟩ := Option.ite_none_right_eq_some.mp hStep
    split at hStep
    · cases hStep
      exact inv_close h hPhase
    · cases hStep
      exact inv_raise h
  | sleep =>
    obtain ⟨hPhase, hStep⟩ := Option.ite_none_right_eq_some.mp hStep
    cases hStep
    have hAll := h.atCall.released_of (Or.inr (Or.inr (Or.inl hPhase)))
    exact inv_moved h (.released (Or.inl rfl) hAll) (by simp)

theorem inv_of_reachable (h : (virtEvent hostname).Reachable s) : Inv hostname s := by
  refine Trans.invariant_of_step (I := fun s => Inv hostname s) (fun s₀ h₀ => ?_)
    (fun s₁ l s₂ hI _ hStep => inv_step hI hStep) h
  rw [h₀]
  exact ⟨.released (Or.inl rfl) (List.forall_mem_nil _), fun hReturned => (by cases hReturned), rfl⟩

/-- The calls that are left when `stop` has been called, at most. -/
def Phase.left : Phase → Nat
  | .test => 1
  | .openReadOnly => 2 * eventCallbackHandlers.length + 6
  | .register rest => eventCallbackHandlers.length + 5 + rest.length
  | .setKeepAlive => eventCallbackHandlers.length + 5
  | .isAlive => eventCallbackHandlers.length + 4
  | .deregister rest => 3 + rest.length
  | .close => 3
  | .sleep => 2
  | .returned | .raised => 0

/-- The step is a call of `_virt_event`. -/
def Step.isCall : Step → Bool
  | .stop | .event _ => false
  | _ => true

theorem left_le (h : Inv hostname s) : s.phase.left ≤ 24 := by
  have hAt := h.atCall
  generalize s.phase = phase, s.connections = connections at hAt
  cases hAt with
  | released hPhase => rcases hPhase with rfl | rfl | rfl | rfl <;> decide
  | @registering vc before event rest hVc =>
    have hIds := hVc.callbackIds
    have hLength : eventCallbackHandlers.length = 9 := rfl
    unfold Phase.left
    dsimp only
    omega
  | watching hPhase => rcases hPhase with rfl | rfl <;> decide
  | @deregistering vc before cid rest hVc =>
    have hLength := congrArg List.length hVc.callbackIds
    rw [List.length_append, hVc.allRegistered] at hLength
    have hNine : eventCallbackHandlers.length = 9 := rfl
    unfold Phase.left
    dsimp only
    omega
  | closing => decide
  | raised => decide

/-- After `stop` every call leaves fewer. -/
theorem left_step {l : Step} (h : Inv hostname s) (hStop : s.running = false)
    (hStep : s.step hostname l = some s') :
    s'.running = false ∧ (if l.isCall then 1 else 0) + s'.phase.left ≤ s.phase.left := by
  cases l with
  | stop =>
    cases hStep
    exact ⟨rfl, (Nat.zero_add _).le⟩
  | event r =>
    cases hStep
    unfold Monitor.receive
    split <;> exact ⟨hStop, (Nat.zero_add _).le⟩
  | test =>
    obtain ⟨hPhase, hStep⟩ := Option.ite_none_right_eq_some.mp hStep
    cases hStep
    rw [hPhase, hStop]
    exact ⟨rfl, le_rfl⟩
  | openReadOnly returns =>
    obtain ⟨hPhase, hStep⟩ := Option.ite_none_right_eq_some.mp hStep
    rw [hPhase]
    split at hStep <;> cases hStep <;> exact ⟨hStop, Nat.le_of_ble_eq_true rfl⟩
  | register cid =>
    unfold Monitor.step at hStep
    dsimp only at hStep
    split at hStep
    · rename_i event rest hPhase
      rw [hPhase]
      cases cid with
      | none =>
        cases hStep
        exact ⟨hStop, Nat.le_add_left 1 _⟩
      | some cid =>
        cases hStep
        refine ⟨hStop, ?_⟩
        cases rest with
        | nil => exact le_of_eq (Nat.add_comm _ _)
        | cons next rest => exact le_of_eq (Nat.add_comm _ _)
    · cases hStep
  | setKeepAlive returns =>
    obtain ⟨hPhase, hStep⟩ := Option.ite_none_right_eq_some.mp hStep
    rw [hPhase]
    split at hStep <;> cases hStep <;> exact ⟨hStop, Nat.le_of_ble_eq_true rfl⟩
  | isAlive alive =>
    obtain ⟨hPhase, hStep⟩ := Option.ite_none_right_eq_some.mp hStep
    rw [hPhase]
    cases alive with
    | none =>
      cases hStep
      exact ⟨hStop, Nat.le_of_ble_eq_true rfl⟩
    | some alive =>
      dsimp only at hStep
      rw [if_neg fun hBoth => absurd hBoth.2 (by rw [hStop]; exact Bool.false_ne_true)] at hStep
      cases hStep
      refine ⟨hStop, ?_⟩
      have hAt := h.atCall
      rw [hPhase] at hAt
      show 1 + (3 + s.callbackIds.length) ≤ eventCallbackHandlers.length + 4
      unfold Monitor.callbackIds
      generalize s.connections = connections at hAt
      cases hAt with
      | released hNot => simp at hNot
      | watching _ hVc =>
        have hIds : _ = eventCallbackHandlers.length := hVc.callbackIds
        dsimp only
        rw [List.length_nil, Nat.add_zero] at hIds
        omega
  | deregister returns =>
    unfold Monitor.step at hStep
    dsimp only at hStep
    split at hStep
    · rename_i cid rest hPhase
      rw [hPhase]
      cases hStep
      refine ⟨hStop, ?_⟩
      cases rest with
      | nil => exact le_of_eq (Nat.add_comm _ _)
      | cons next rest => exact le_of_eq (Nat.add_comm _ _)
    · cases hStep
  | close returns =>
    obtain ⟨hPhase, hStep⟩ := Option.ite_none_right_eq_some.mp hStep
    rw [hPhase]
    split at hStep <;> cases hStep <;> exact ⟨hStop, Nat.le_of_ble_eq_true rfl⟩
  | sleep =>
    obtain ⟨hPhase, hStep⟩ := Option.ite_none_right_eq_some.mp hStep
    cases hStep
    rw [hPhase]
    exact ⟨hStop, Nat.le_of_ble_eq_true rfl⟩

/-- In every run of the monitor, whatever libvirt answers: the threads that were started send the
notifications of the events that a handler received, each of them once and in their order; no
event is missed while the connection is watched; the connections before the last one are closed
and their callback ids handed back, all of them when the loop returns, which it does only after
`stop`; and after `stop` it makes at most 24 more calls. -/
theorem virtEvent_run (h : (virtEvent hostname).Reachable s) :
    s.threads = s.received.filterMap (Received.notification hostname) ∧
    (s.phase = .isAlive → ∀ r, (s.receive hostname r).received = s.received ++ [r]) ∧
    (∀ c ∈ s.connections.tail, c.Released) ∧
    (s.phase = .returned → s.running = false ∧ ∀ c ∈ s.connections, c.Released) ∧
    (s.running = false → ∀ ls s', (virtEvent hostname).runIf (fun _ _ => true) s ls = some s' →
      ls.countP Step.isCall ≤ 24) := by
  have hInv := inv_of_reachable h
  refine ⟨hInv.threads, fun hPhase r => ?_, hInv.atCall.released_tail, fun hPhase => ?_,
    fun hStop ls s' hRun => ?_⟩
  · have hLength := length_calls_watching hInv hPhase r.event
    unfold Monitor.receive
    split
    · rename_i hCalls
      rw [hCalls] at hLength
      cases hLength
    · rfl
  · exact ⟨hInv.returned hPhase, hInv.atCall.released_of (Or.inr (Or.inr (Or.inr hPhase)))⟩
  · have hCount := Trans.countP_le_of_runIf (T := virtEvent hostname)
      (I := fun s => Inv hostname s ∧ s.running = false) (m := fun s => s.phase.left)
      (p := Step.isCall)
      (fun s₁ l s₂ hI hStep =>
        ⟨⟨inv_step hI.1 hStep, (left_step hI.1 hI.2 hStep).1⟩, (left_step hI.1 hI.2 hStep).2⟩)
      ⟨hInv, hStop⟩ hRun
    have hLeft := left_le hInv
    omega

end Run

/-- An instance fails while the connection is watched; then the monitor is stopped. -/
theorem virtEvent_run_stopped : ∃ s : Monitor,
    (decide (s.phase = .returned) && decide (s.received.length = 1) &&
      decide (s.threads.length = 1)) = true ∧ ∀ c ∈ s.connections, c.Released := by
  obtain ⟨s, hReach, hs⟩ := Trans.exists_reachable_of_runIf (T := virtEvent "compute1")
    (s := ⟨true, .test, [], [], []⟩)
    ([.test, .openReadOnly true] ++ (List.range 9).map (fun cid => .register (some cid)) ++
      [.setKeepAlive true, .event ⟨.lifecycle eventStopped stoppedFailed, "u", "t", true⟩,
        .isAlive (some 1), .stop, .isAlive (some 1)] ++
      List.replicate 9 (.deregister true) ++ [.close true, .sleep, .test])
    (fun s => decide (s.phase = .returned) && decide (s.received.length = 1) &&
      decide (s.threads.length = 1))
    rfl (by decide)
  have hPhase : s.phase = .returned := by
    simp only [Bool.and_eq_true, decide_eq_true_eq] at hs
    exact hs.1.1
  exact ⟨s, hs, ((virtEvent_run hReach).2.2.2.1 hPhase).2⟩

end MasakariHA.Monitors.InstanceMonitor
