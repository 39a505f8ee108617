import MasakariHA.Engine.Driver
import MasakariHA.Api.NotificationsSchema
import MasakariHA.Lib.PyString

/-!
# The engine manager

`MasakariManager` of `engine/manager.py`, one call at a time: the three handlers and
`_process_notification`. The flows of the driver end in a given way each
(`FlowOutcomes`); their writes concern nova and the `reserved` flag of a reserved host,
which no handler reads afterwards.

* `processNotification`: `_process_notification` under the lock of the source host, which
  is taken with `blocking=True` and so never fails;
* `Settles`: when the handler of a stored notification comes to a status;
* `processNotification_settled_iff`: exactly then the stored notification leaves `running`.
-/

namespace MasakariHA.Engine

open Lib

/-- How the flow engines end: building the flow and running it. -/
structure FlowOutcomes where
  auto : Except Fault Unit
  reservedHost : Except Fault Unit
  loadInstance : Except Fault Unit
  runInstance : Except Fault Unit
  loadProcess : Except Fault Unit
  runProcess : Except Fault Unit

def instanceEvents : List (String × List String) :=
  [("QEMU_GUEST_AGENT_ERROR", ["STOPPED_FAILED"]), ("LIFECYCLE", ["STOPPED_FAILED"]),
    ("IO_ERROR", ["IO_ERROR_REPORT"])]

def isValidEvent (payload : Payload) : Bool :=
  match payload.lookup "event" with
  | none => false
  | some event =>
    match instanceEvents.lookup event with
    | none => false
    | some virDomainEvents =>
      match payload.lookup "vir_domain_event" with
      | none => false
      | some e => virDomainEvents.contains e

section Handlers

variable (flows : FlowOutcomes)

/-- `notification.payload.get('event').upper()`; an absent event has no `upper`. -/
def upperEvent (payload : Payload) : DbM String :=
  match payload.lookup "event" with
  | some event => pure (PyString.upper event)
  | none => throw (.other "AttributeError")

/-- The status that a handler gives for how the driver ended. -/
def statusOf (driver : DbM Unit) (ignored skipped : Exc → Bool) : DbM NotificationStatus :=
  except
    (do driver; pure .finished)
    (fun e => ignored e || skipped e || e.isA .masakariException)
    fun e => if ignored e then pure .ignored else if skipped e then pure .finished else pure .error

def handleNotificationTypeProcess (n : Notification) : DbM NotificationStatus := do
  let event ← upperEvent n.payload
  if event = "STARTED" then pure .finished
  else if event = "STOPPED" then do
    let hostObj ← transaction (hostGetByUuid n.sourceHostUuid)
    let _ ← transaction (hostUpdate hostObj.host.uuid { onMaintenance := some true })
    statusOf
      (executeProcessFailure (endsAs flows.loadProcess) (endsAs flows.runProcess)
        (n.payload.lookup "process_name"))
      (fun _ => false) (Exc.isA .skipProcessRecoveryException)
  else pure .ignored

def handleNotificationTypeInstance (n : Notification) : DbM NotificationStatus :=
  if isValidEvent n.payload then
    statusOf (executeInstanceFailure (endsAs flows.loadInstance) (endsAs flows.runInstance))
      (Exc.isA .ignoreInstanceRecoveryException) (Exc.isA .skipInstanceRecoveryException)
  else pure .ignored

/-- The filters for the reserved hosts of a segment. -/
def reservedHostFilters (failoverSegmentId : String) : HostFilters :=
  { failoverSegmentId := some failoverSegmentId, reserved := some true,
    onMaintenance := some false }

/-- What `_handle_notification_type_host` writes to the row of the failed host. -/
def failedHostValues (h : Host) : HostValues :=
  { onMaintenance := some true, reserved := if h.reserved then some false else none }

def handleNotificationTypeHost (n : Notification) : DbM NotificationStatus := do
  let event ← upperEvent n.payload
  if event = "STARTED" then pure .finished
  else if event = "STOPPED" then do
    let hostObj ← transaction (hostGetByUuid n.sourceHostUuid)
    let recoveryMethod := hostObj.failoverSegment.recoveryMethod
    let hostObj ← transaction (hostUpdate hostObj.host.uuid (failedHostValues hostObj.host))
    let db ← get
    let reservedHostList :=
      if recoveryMethod = .auto then []
      else hostGetAllByFilters (reservedHostFilters hostObj.host.failoverSegmentId) db
    statusOf
      (executeHostFailure (endsAs flows.auto) (fun _ => endsAs flows.reservedHost)
        recoveryMethod n.notificationUuid reservedHostList)
      (fun _ => false) (Exc.isA .skipHostRecoveryException)
  else pure .ignored

/-- The branch of `_process_notification` on the type. -/
def handle (n : Notification) : DbM NotificationStatus :=
  match n.type with
  | .process => handleNotificationTypeProcess flows n
  | .vm => handleNotificationTypeInstance flows n
  | .computeHost => handleNotificationTypeHost flows n

/-- The guard of bug 1773132: a copy in status `new` of a row that has left it. -/
def recoveringTwice (copy stored : NotificationStatus) : Bool := copy = .new && stored ≠ .new

/-- `_process_notification`. The object is refreshed from its row by each `save`. -/
def processNotification (n : Notification) : DbM Unit := do
  let notificationDb ← transaction (notificationGetByUuid n.notificationUuid)
  if recoveringTwice n.status notificationDb.status then pure ()
  else do
    let n ← transaction (notificationUpdate n.notificationUuid .running)
    let status ← handle flows n
    let _ ← transaction (notificationUpdate n.notificationUuid status)

end Handlers

/-! ## When a handler comes to a status -/

/-- The statuses that end a processing. -/
def Settled (s : NotificationStatus) : Prop := s = .finished ∨ s = .error ∨ s = .ignored

instance : DecidablePred Settled := fun _ => inferInstanceAs (Decidable (_ ∨ _))

/-- The source host is live and its segment row exists. -/
def SourceHostLoads (db : Db) (uuid : String) : Prop :=
  ∃ h, db.liveHost uuid = some h ∧ (db.segments.get? h.failoverSegmentId).isSome = true

/-- The flow does not end in an exception from outside `exception.py`. -/
def Translated (r : Except Fault Unit) : Prop :=
  ∀ e, r = .error e → e.val.isA .masakariException = true

/-- The handler of the stored notification comes to a status. -/
def Settles (flows : FlowOutcomes) (db : Db) (n : Notification) : Prop :=
  match n.type with
  | .vm =>
    isValidEvent n.payload = true → (∃ e, flows.loadInstance = .error e) ∨
      Translated flows.runInstance
  | .process =>
    ∃ event, n.payload.lookup "event" = some event ∧
      (PyString.upper event = "STOPPED" → SourceHostLoads db n.sourceHostUuid ∧
        (n.payload.lookup "process_name" = some "nova-compute" →
          (∃ e, flows.loadProcess = .error e) ∨ Translated flows.runProcess))
  | .computeHost =>
    ∃ event, n.payload.lookup "event" = some event ∧
      (PyString.upper event = "STOPPED" → SourceHostLoads db n.sourceHostUuid)

/-! ## The handlers -/

section Proofs

variable {flows : FlowOutcomes} {db : Db} {n : Notification}

theorem isA_of_subclass {e : Exc} {c : MasakariClass} (h : e.isA c = true) :
    e.isA .masakariException = true := by
  cases e with
  | masakari c m => exact MasakariClass.isSubclass_masakariException c
  | other => cases h
  | timeout => cases h

theorem ensures_statusOf {driver : DbM Unit} {ignored skipped : Exc → Bool}
    {Q : NotificationStatus → Db → Prop} {E : Exc → Db → Prop} :
    Ensures (statusOf driver ignored skipped) db Q E ↔
      Ensures driver db (fun _ => Q .finished) (fun e db' =>
        if ignored e then Q .ignored db' else if skipped e then Q .finished db'
        else if e.isA .masakariException then Q .error db' else E e db') := by
  unfold statusOf
  rw [ensures_except, ensures_bind]
  refine ensures_congr (ensures_true _ _) (fun _ _ _ => Iff.rfl) fun e s' _ => ?_
  by_cases hi : ignored e = true
  · simp [hi]
  · by_cases hs : skipped e = true
    · simp [hi, hs]
    · cases e.isA .masakariException <;> simp [hi, hs]

/-- A status that `statusOf` gives ends the processing. -/
theorem statusOf_settled {driver : DbM Unit} {ignored skipped : Exc → Bool} {P : Db → Prop}
    (h : Ends driver db P) :
    Ensures (statusOf driver ignored skipped) db (fun s db' => Settled s ∧ P db')
      (fun _ => P) := by
  rw [ensures_statusOf]
  refine ensures_mono h (fun _ _ hP => ⟨Or.inl rfl, hP⟩) fun e db' hP => ?_
  split
  · exact ⟨Or.inr (Or.inr rfl), hP⟩
  · split
    · exact ⟨Or.inl rfl, hP⟩
    · split
      · exact ⟨Or.inr (Or.inl rfl), hP⟩
      · exact hP

/-- A driver whose exceptions are those of `exception.py` always gives a status. -/
theorem statusOf_returns_iff {driver : DbM Unit} {ignored skipped : Exc → Bool}
    (hIgnored : ∀ e, ignored e = true → e.isA .masakariException = true)
    (hSkipped : ∀ e, skipped e = true → e.isA .masakariException = true) :
    Returns (statusOf driver ignored skipped) db ↔
      Ensures driver db (fun _ _ => True) (fun e _ => e.isA .masakariException = true) := by
  unfold Returns
  rw [ensures_statusOf]
  refine ensures_congr (ensures_true _ _) (fun _ _ _ => Iff.rfl) fun e s' _ => ?_
  by_cases hi : ignored e = true
  · simp [hi, hIgnored e hi]
  · by_cases hs : skipped e = true
    · simp [hi, hs, hSkipped e hs]
    · simp [hi, hs]

/-! ### The flows as programs -/

theorem ends_endsAs {r : Except Fault Unit} {P : Db → Prop} (h : P db) :
    Ends (endsAs r : DbM Unit) db P := by
  cases r <;> exact h

/-- Building and running a flow raises only exceptions of `exception.py` when building it
fails or the run is translated. -/
theorem ensures_loadAndRun {load run : Except Fault Unit} {message : String} :
    Ensures (do
        except (endsAs load) Exc.isException fun _ =>
          throw (Exc.raised .masakariException message)
        endsAs run : DbM Unit) db (fun _ _ => True)
        (fun e _ => e.isA .masakariException = true) ↔
      (∃ e, load = .error e) ∨ Translated run := by
  rw [ensures_bind, ensures_except]
  cases load with
  | error e =>
    have he := e.property
    refine iff_of_true ?_ (Or.inl ⟨e, rfl⟩)
    change if e.val.isException = true then _ else _
    rw [if_pos he]
    rfl
  | ok u =>
    cases run with
    | ok v =>
      exact iff_of_true trivial (Or.inr fun e he => by cases he)
    | error e =>
      change e.val.isA .masakariException = true ↔ _
      simp [Translated]

/-! ### Source host -/

theorem hostGetByUuid_error {uuid : String} (h : ¬ SourceHostLoads db uuid) :
    ∃ e, hostGetByUuid uuid db = .error e := by
  unfold hostGetByUuid
  cases hl : db.liveHost uuid with
  | none => exact ⟨_, rfl⟩
  | some host =>
    have hs : db.segments.get? host.failoverSegmentId = none := by
      by_contra hne
      exact h ⟨host, hl, Option.isSome_iff_ne_none.mpr hne⟩
    simp only [hostFromDbObject, hs]
    exact ⟨_, rfl⟩

section MarkHost

variable {uuid : String} {v : HostObject → HostValues}
  {k : HostObject → HostObject → DbM NotificationStatus}
  {Q : NotificationStatus → Db → Prop} {E : Exc → Db → Prop}

/-- The lines that read the source host, mark it and go on. -/
def markHost (uuid : String) (v : HostObject → HostValues)
    (k : HostObject → HostObject → DbM NotificationStatus) : DbM NotificationStatus := do
  let hostObj ← transaction (hostGetByUuid uuid)
  let hostObj' ← transaction (hostUpdate hostObj.host.uuid (v hostObj))
  k hostObj hostObj'

theorem ensures_markHost_ok {h : Host} {seg : FailoverSegment} (hl : db.liveHost uuid = some h)
    (hs : db.segments.get? h.failoverSegmentId = some seg) :
    Ensures (markHost uuid v k) db Q E ↔
      Ensures (k ⟨h, seg⟩ ⟨(v ⟨h, seg⟩).apply h, seg⟩) (db.setHost uuid (v ⟨h, seg⟩)) Q E := by
  have hu := uuid_of_liveHost hl
  unfold markHost
  rw [ensures_bind, ensures_transaction, hostGetByUuid_ok hl hs]
  dsimp only
  rw [ensures_bind, ensures_transaction, hu, hostUpdate_ok hl hs]

theorem ensures_markHost_error (h : ¬ SourceHostLoads db uuid) :
    ∃ e, Ensures (markHost uuid v k) db Q E ↔ E e db := by
  obtain ⟨e, he⟩ := hostGetByUuid_error h
  refine ⟨e, ?_⟩
  unfold markHost
  rw [ensures_bind, ensures_transaction, he]

/-- Marking the host leaves the notifications alone. -/
theorem markHost_frame {P : Db → Prop} (h : P db)
    (hk : ∀ o o' v, Ensures (k o o') (db.setHost uuid v) (fun s db' => Settled s ∧ P db')
      fun _ => P) :
    Ensures (markHost uuid v k) db (fun s db' => Settled s ∧ P db') (fun _ => P) := by
  by_cases hl : SourceHostLoads db uuid
  · obtain ⟨host, hl, hs⟩ := hl
    obtain ⟨seg, hs⟩ := Option.isSome_iff_exists.mp hs
    exact (ensures_markHost_ok hl hs).mpr (hk _ _ _)
  · obtain ⟨e, he⟩ := ensures_markHost_error (v := v) (k := k) (Q := fun s db' => Settled s ∧ P db')
      (E := fun _ => P) hl
    exact he.mpr h

theorem markHost_returns_iff {C : Prop}
    (hk : ∀ o o' v, Returns (k o o') (db.setHost uuid v) ↔ C) :
    Returns (markHost uuid v k) db ↔ SourceHostLoads db uuid ∧ C := by
  by_cases hl : SourceHostLoads db uuid
  · rw [and_iff_right hl]
    obtain ⟨host, hl, hs⟩ := hl
    obtain ⟨seg, hs⟩ := Option.isSome_iff_exists.mp hs
    exact (ensures_markHost_ok hl hs).trans (hk _ _ _)
  · obtain ⟨e, he⟩ := ensures_markHost_error (v := v) (k := k) (Q := fun _ _ => True)
      (E := fun _ _ => False) hl
    exact he.trans (iff_of_false id fun hc => hl hc.1)

end MarkHost

/-- An event handler: `started` and unknown events come to a status at once. -/
theorem upperEvent_returns_iff {payload : Payload} {x : DbM NotificationStatus} {C : Prop}
    (hx : Returns x db ↔ C) :
    Returns (do
      let event ← upperEvent payload
      if event = "STARTED" then pure .finished
      else if event = "STOPPED" then x
      else pure .ignored) db ↔
    ∃ event, payload.lookup "event" = some event ∧ (PyString.upper event = "STOPPED" → C) := by
  unfold Returns upperEvent at *
  rw [ensures_bind]
  cases hl : payload.lookup "event" with
  | none => simp
  | some event =>
    simp only [ensures_pure, Option.some.injEq, exists_eq_left']
    by_cases h₁ : PyString.upper event = "STARTED"
    · simp [h₁]
    · by_cases h₂ : PyString.upper event = "STOPPED"
      · simp [h₂, hx]
      · simp [h₁, h₂]

theorem upperEvent_frame {payload : Payload} {x : DbM NotificationStatus} {P : Db → Prop}
    (h : P db) (hx : Ensures x db (fun s db' => Settled s ∧ P db') (fun _ => P)) :
    Ensures (do
      let event ← upperEvent payload
      if event = "STARTED" then pure .finished
      else if event = "STOPPED" then x
      else pure .ignored) db (fun s db' => Settled s ∧ P db') (fun _ => P) := by
  unfold upperEvent
  rw [ensures_bind]
  cases hl : payload.lookup "event" with
  | none => exact h
  | some event =>
    rw [ensures_pure]
    split
    · exact ⟨Or.inl rfl, h⟩
    · split
      · exact hx
      · exact ⟨Or.inr (Or.inr rfl), h⟩

/-! ### The three handlers -/

theorem ends_loadAndRun {load run : Except Fault Unit} {message : String} {P : Db → Prop}
    (h : P db) : Ends (do
        except (endsAs load) Exc.isException fun _ =>
          throw (Exc.raised .masakariException message)
        endsAs run : DbM Unit) db P := by
  unfold Ends
  rw [ensures_bind, ensures_except]
  cases load with
  | error e =>
    change if e.val.isException = true then P db else P db
    rw [if_pos e.property]
    exact h
  | ok u => exact ends_endsAs h

theorem ends_executeProcessFailure {name : Option String} {P : Db → Prop} (h : P db) :
    Ends (executeProcessFailure (endsAs flows.loadProcess) (endsAs flows.runProcess) name) db
      P := by
  unfold executeProcessFailure
  split
  · exact ends_loadAndRun h
  · exact h

theorem process_returns_iff :
    Returns (handleNotificationTypeProcess flows n) db ↔
      ∃ event, n.payload.lookup "event" = some event ∧
        (PyString.upper event = "STOPPED" → SourceHostLoads db n.sourceHostUuid ∧
          (n.payload.lookup "process_name" = some "nova-compute" →
            (∃ e, flows.loadProcess = .error e) ∨ Translated flows.runProcess)) := by
  refine upperEvent_returns_iff (markHost_returns_iff fun _ _ _ => ?_)
  rw [statusOf_returns_iff (fun _ h => by cases h) (fun _ => isA_of_subclass)]
  unfold executeProcessFailure
  by_cases hp : n.payload.lookup "process_name" = some "nova-compute"
  · rw [if_pos hp, ensures_loadAndRun]
    exact ⟨fun h _ => h, fun h => h hp⟩
  · rw [if_neg hp]
    exact iff_of_true rfl fun h => absurd h hp

theorem instance_returns_iff :
    Returns (handleNotificationTypeInstance flows n) db ↔
      (isValidEvent n.payload = true →
        (∃ e, flows.loadInstance = .error e) ∨ Translated flows.runInstance) := by
  unfold handleNotificationTypeInstance
  by_cases hv : isValidEvent n.payload = true
  · rw [if_pos hv, statusOf_returns_iff (fun _ => isA_of_subclass) (fun _ => isA_of_subclass)]
    unfold executeInstanceFailure
    rw [ensures_loadAndRun]
    exact ⟨fun h _ => h, fun h => h hv⟩
  · rw [if_neg hv]
    exact iff_of_true trivial fun h => absurd h hv

theorem raisesOnly_endsAs (r : Except Fault Unit) :
    RaisesOnly (endsAs r : DbM Unit) (fun e => e.isException = true) := by
  intro s
  cases r with
  | ok u => trivial
  | error e => exact e.property

theorem host_returns_iff :
    Returns (handleNotificationTypeHost flows n) db ↔
      ∃ event, n.payload.lookup "event" = some event ∧
        (PyString.upper event = "STOPPED" → SourceHostLoads db n.sourceHostUuid) := by
  have hIff : Returns (handleNotificationTypeHost flows n) db ↔
      ∃ event, n.payload.lookup "event" = some event ∧
        (PyString.upper event = "STOPPED" → SourceHostLoads db n.sourceHostUuid ∧ True) := by
    refine upperEvent_returns_iff (markHost_returns_iff (v := fun o => failedHostValues o.host)
      (k := fun o o' => do
        let db ← get
        statusOf
          (executeHostFailure (endsAs flows.auto) (fun _ => endsAs flows.reservedHost)
            o.failoverSegment.recoveryMethod n.notificationUuid
            (if o.failoverSegment.recoveryMethod = .auto then []
              else hostGetAllByFilters (reservedHostFilters o'.host.failoverSegmentId) db))
          (fun _ => false) (Exc.isA .skipHostRecoveryException))
      fun o o' v => iff_of_true ?_ trivial)
    unfold Returns
    rw [ensures_bind, ensures_get]
    exact (statusOf_returns_iff (fun _ h => by cases h) (fun _ => isA_of_subclass)).mpr
      (executeHostFailure_raises (raisesOnly_endsAs _) (fun _ => raisesOnly_endsAs _) _)
  refine Iff.trans hIff ?_
  simp only [and_true]

theorem handle_returns_iff : Returns (handle flows n) db ↔ Settles flows db n := by
  unfold handle Settles
  cases n.type with
  | process => exact process_returns_iff
  | vm => exact instance_returns_iff
  | computeHost => exact host_returns_iff

theorem ends_executeInstanceFailure {P : Db → Prop} (h : P db) :
    Ends (executeInstanceFailure (endsAs flows.loadInstance) (endsAs flows.runInstance)) db P :=
  ends_loadAndRun h

/-- A program that only throws or ends a flow leaves the database alone. -/
theorem ends_executeHostFailure {method : RecoveryMethod} {uuid : String} {l : List Host}
    {P : Db → Prop} (h : P db) :
    Ends (executeHostFailure (endsAs flows.auto) (fun _ => endsAs flows.reservedHost) method uuid l)
      db P := by
  have hThen : ∀ {x : DbM Unit} {test : Exc → Bool} {k : Exc → DbM Unit},
      Ends x db (· = db) → (∀ e, Ends (k e) db (· = db)) → Ends (except x test k) db (· = db) := by
    intro x test k hx hk
    unfold Ends
    rw [ensures_except]
    refine ensures_mono hx (fun _ _ h => h) fun e s' hs => ?_
    subst hs
    cases test e with
    | true => exact hk e
    | false => rfl
  have hAuto : Ends (endsAs flows.auto : DbM Unit) db (· = db) := ends_endsAs rfl
  have hRh : Ends (executeRhWorkflow (fun _ => endsAs flows.reservedHost) l) db (· = db) := by
    unfold executeRhWorkflow
    split
    · exact rfl
    · refine hThen (ends_endsAs rfl) fun e => ?_
      cases e <;> exact rfl
  have hWorkflow : Ends (hostWorkflow (endsAs flows.auto) (fun _ => endsAs flows.reservedHost)
      method l) db (· = db) := by
    cases method with
    | auto => exact hAuto
    | reservedHost => exact hRh
    | autoPriority => exact hThen hAuto fun e => by split <;> first | exact rfl | exact hRh
    | rhPriority => exact hThen hRh fun e => by split <;> first | exact rfl | exact hAuto
  refine ends_mono (hThen hWorkflow fun e => ?_) fun s' hs => hs ▸ h
  split <;> exact rfl

/-- A handler gives a status that ends the processing, and writes nothing but columns of hosts
however it ends. -/
theorem handle_keeps {P : Db → Prop} (h : P db) (hHost : ∀ uuid v, P (db.setHost uuid v)) :
    Ensures (handle flows n) db (fun s db' => Settled s ∧ P db') (fun _ => P) := by
  unfold handle
  cases n.type with
  | process =>
    refine upperEvent_frame h (markHost_frame (v := fun _ => { onMaintenance := some true })
      (k := fun _ _ => statusOf _ _ _) h fun o o' v => ?_)
    exact statusOf_settled (ends_executeProcessFailure (hHost _ v))
  | vm =>
    change Ensures (handleNotificationTypeInstance flows n) db _ _
    unfold handleNotificationTypeInstance
    split
    · exact statusOf_settled (ends_executeInstanceFailure h)
    · exact ⟨Or.inr (Or.inr rfl), h⟩
  | computeHost =>
    refine upperEvent_frame h (markHost_frame (v := fun o => failedHostValues o.host)
      (k := fun _ _ => get >>= fun _ => statusOf _ _ _) h fun o o' v => ?_)
    rw [ensures_bind, ensures_get]
    exact statusOf_settled (ends_executeHostFailure (hHost _ v))

theorem handle_frame :
    Ensures (handle flows n) db
      (fun s db' => Settled s ∧ db'.notifications = db.notifications)
      (fun _ db' => db'.notifications = db.notifications) :=
  handle_keeps rfl fun _ _ => rfl

/-! ## A processing that got past the guard -/

/-- The stored notification is in a status that ends the processing. -/
def StoredSettled (uuid : String) (db : Db) : Prop :=
  ∃ r, db.liveNotification uuid = some r ∧ Settled r.status

/-- The stored notification is still `running`. -/
def StoredRunning (uuid : String) (db : Db) : Prop :=
  ∃ r, db.liveNotification uuid = some r ∧ r.status = .running

theorem liveNotification_congr {db db' : Db} (h : db'.notifications = db.notifications)
    (uuid : String) : db'.liveNotification uuid = db.liveNotification uuid := by
  unfold Db.liveNotification
  rw [h]

theorem settles_congr {db : Db} {uuid : String} {r : Notification} {s : NotificationStatus} :
    Settles flows (db.setStatus uuid s) { r with status := s } ↔ Settles flows db r := Iff.rfl

/-- Past the guard a processing is: store `running`, handle, store the status. -/
theorem ensures_processNotification_iff {r : Notification} {Q : Unit → Db → Prop}
    {E : Exc → Db → Prop} (hr : db.liveNotification n.notificationUuid = some r)
    (hGuard : recoveringTwice n.status r.status = false) :
    Ensures (processNotification flows n) db Q E ↔
      Ensures (handle flows { r with status := .running })
        (db.setStatus n.notificationUuid .running)
        (fun s db' => Q () (db'.setStatus n.notificationUuid s)) E := by
  have hu : r.notificationUuid = n.notificationUuid := uuid_of_live hr
  have hRun : (db.setStatus n.notificationUuid .running).liveNotification n.notificationUuid =
      some { r with status := .running } := liveNotification_setStatus_self hr
  unfold processNotification
  rw [ensures_bind, ensures_transaction]
  simp only [notificationGetByUuid, hr, hGuard, Bool.false_eq_true, if_false]
  rw [ensures_bind, ensures_transaction]
  simp only [notificationUpdate, hr]
  rw [ensures_bind]
  refine ensures_congr handle_frame (fun s db' hs => ?_) fun _ _ _ => Iff.rfl
  have hl := liveNotification_congr hs.2 n.notificationUuid
  rw [hRun] at hl
  rw [ensures_bind, ensures_transaction]
  simp only [hu, notificationUpdate, hl, ensures_pure]

theorem ensures_processNotification {r : Notification} {P : Db → Prop}
    (hr : db.liveNotification n.notificationUuid = some r)
    (hGuard : recoveringTwice n.status r.status = false) :
    Ends (processNotification flows n) db P ↔
      Ensures (handle flows { r with status := .running })
        (db.setStatus n.notificationUuid .running)
        (fun s db' => P (db'.setStatus n.notificationUuid s)) (fun _ => P) :=
  ensures_processNotification_iff hr hGuard

/-- A processing that got past the guard ends with the stored notification either in a
status that ends it, or still `running`. -/
theorem processNotification_settled_or_running {r : Notification}
    (hr : db.liveNotification n.notificationUuid = some r)
    (hGuard : recoveringTwice n.status r.status = false) :
    Ends (processNotification flows n) db
      (fun db' => StoredSettled n.notificationUuid db' ∨ StoredRunning n.notificationUuid db') := by
  rw [ensures_processNotification hr hGuard]
  have hRun : (db.setStatus n.notificationUuid .running).liveNotification n.notificationUuid =
      some { r with status := .running } := liveNotification_setStatus_self hr
  refine ensures_mono handle_frame (fun s db' hs => ?_) fun e db' he => ?_
  · have hl := liveNotification_congr hs.2 n.notificationUuid
    rw [hRun] at hl
    exact Or.inl ⟨_, liveNotification_setStatus_self hl, hs.1⟩
  · have hl := liveNotification_congr he n.notificationUuid
    rw [hRun] at hl
    exact Or.inr ⟨_, hl, rfl⟩

/-- A processing that got past the guard leaves the stored notification in `finished`,
`error` or `ignored` exactly when its handler comes to a status. -/
theorem processNotification_settled_iff {r : Notification}
    (hr : db.liveNotification n.notificationUuid = some r)
    (hGuard : recoveringTwice n.status r.status = false) :
    Ends (processNotification flows n) db (StoredSettled n.notificationUuid) ↔
      Settles flows db r := by
  rw [ensures_processNotification hr hGuard, ← settles_congr, ← handle_returns_iff]
  have hRun : (db.setStatus n.notificationUuid .running).liveNotification n.notificationUuid =
      some { r with status := .running } := liveNotification_setStatus_self hr
  refine ensures_congr handle_frame (fun s db' hs => iff_of_true ?_ trivial)
    fun e db' he => iff_of_false ?_ id
  · have hl := liveNotification_congr hs.2 n.notificationUuid
    rw [hRun] at hl
    exact ⟨_, liveNotification_setStatus_self hl, hs.1⟩
  · rintro ⟨r', hr', hs⟩
    rw [liveNotification_congr he n.notificationUuid, hRun] at hr'
    cases hr'
    rcases hs with hs | hs | hs <;> cases hs

end Proofs

/-! ## A request that stays `running` -/

/-- The type and payload of a notification are those of the request body. -/
def BuiltFrom (b : NotificationBody) (n : Notification) : Prop :=
  NotificationType.ofString b.type = some n.type ∧ n.payload = b.payload

/-- Every accepted request is brought out of `running` by each of its processings. -/
def ProcessingAlwaysSettles : Prop :=
  ∀ (parseIsotime : String → Option Int) (b : NotificationBody) (flows : FlowOutcomes) (db : Db)
    (n r : Notification), b.accepted parseIsotime = true → BuiltFrom b r →
    db.liveNotification n.notificationUuid = some r → recoveringTwice n.status r.status = false →
    Ends (processNotification flows n) db (StoredSettled n.notificationUuid)

/-- A segment with one live host. -/
def oneHost (notifications : Table Notification.notificationUuid) : Db where
  segments := ⟨[⟨"segment", "east", .auto, 0⟩], by decide⟩
  hosts := ⟨[⟨1, 0, "host", "compute1", false, false, "segment", 0⟩], by decide⟩
  notifications

/-- A host notification with the payload. -/
def hostNotification (payload : Payload) (status : NotificationStatus) : Notification :=
  ⟨1, 0, "notification", 0, "host", .computeHost, payload, status, 0⟩

/-- All flows return. -/
def flowsReturn : FlowOutcomes := ⟨.ok (), .ok (), .ok (), .ok (), .ok (), .ok ()⟩

/-- A request whose payload has no `event` is accepted; its handler raises, and the
notification stays `running`. -/
theorem not_processingAlwaysSettles : ¬ ProcessingAlwaysSettles := by
  intro h
  have hEnds := h (fun _ => some 0)
    ⟨"COMPUTE_HOST", "compute1", "2018-05-24T00:00:00Z", ∅⟩ flowsReturn
    (oneHost ⟨[hostNotification ∅ .new], by decide⟩) (hostNotification ∅ .new)
    (hostNotification ∅ .new) (by decide) ⟨by decide, rfl⟩ (by decide) (by decide)
  have hRun : (processNotification flowsReturn (hostNotification ∅ .new)).run
      (oneHost ⟨[hostNotification ∅ .new], by decide⟩) = .error (.other "AttributeError")
        ((oneHost ⟨[hostNotification ∅ .new], by decide⟩).setStatus "notification" .running) := rfl
  unfold Ends Ensures at hEnds
  rw [hRun] at hEnds
  obtain ⟨r, hr, hs⟩ := hEnds
  have hRow : r = hostNotification ∅ .running := Option.some.inj (hr.symm.trans (by decide))
  subst hRow
  revert hs
  decide

/-- A stopped host whose flow returns: the processing ends with the row out of `running`. -/
theorem processNotification_settled_stopped :
    let n := hostNotification [⟨"event", "STOPPED"⟩].toFinmap .new
    Ends (processNotification flowsReturn n) (oneHost ⟨[n], by decide⟩)
      (StoredSettled "notification") :=
  (processNotification_settled_iff (n := hostNotification [⟨"event", "STOPPED"⟩].toFinmap .new)
    (r := hostNotification [⟨"event", "STOPPED"⟩].toFinmap .new)
    (by decide) (by decide)).mpr
    ⟨"STOPPED", by decide, fun _ => ⟨⟨1, 0, "host", "compute1", false, false, "segment", 0⟩,
      by decide, by decide⟩⟩

end MasakariHA.Engine
