import MasakariHA.Api.NotificationsSchema
import MasakariHA.Ha.Api
import MasakariHA.Ha.HostRequests
import MasakariHA.Lib.PyDatetime

/-!
# A request for a notification, run alone

`NotificationAPI.create_notification` with the values that pass through it. The `generated_time`
is a string, then a `datetime` with an offset, and is brought to UTC twice: by
`timeutils.normalize_time` for the filter and by `masakari_obj_get_changes` for the row. The
payload is encoded when it is stored and decoded when it is read. The columns are nullable where
the table has them so; times are microseconds of UTC.

* `NotificationRow`, `ReadNotification`: the columns, and the fields of an object that is read;
* `createNotification`: the call, with its checks in order;
* `Outcome`, `HasOutcome`: the ways in which it ends;
* `outcomeFor`: what decides between them;
* `createNotification_outcome`: a call ends in exactly one way, and which one.
-/

namespace MasakariHA.Ha.CreateNotification

open Lib
open HostRequests (PersistentColumns PersistentFields SegmentRow HostRow notNull valueError)

/-! ## Rows and objects -/

/-- The columns of `notifications`, with texts of some type in the one of the payload. -/
structure NotificationRow (Text : Type) extends PersistentColumns where
  id : Nat
  notificationUuid : String
  generatedTime : Int
  type : String
  payload : Option Text
  status : NotificationStatus
  sourceHostUuid : String

/-- The content of the database. -/
structure Store (Text : Type) where
  segments : Table SegmentRow.uuid
  hosts : Table HostRow.uuid
  notifications : Table (@NotificationRow.notificationUuid Text)

/-- The tables that describe the hosts. -/
def Store.inventory {Text : Type} (s : Store Text) : HostRequests.Store :=
  ⟨s.segments, s.hosts, .empty⟩

/-- `Notification.fields`, of an object that was read. -/
structure ReadNotification extends PersistentFields where
  id : Nat
  notificationUuid : String
  generatedTime : Int
  type : NotificationType
  payload : Payload
  status : NotificationStatus
  sourceHostUuid : String
  deriving DecidableEq

/-- How a cast of `oslo.messaging` ends. One that raises may have been sent. -/
inductive Cast where
  | sent
  | raised (cls : String) (sent : Bool)

/-- What the call relies on: `timeutils.parse_isotime`; `jsonutils` with the field of the payload,
whose `loads` reads what its `dumps` wrote and may raise for other texts; the texts that the column
of the payload stores, as some databases bound their length; and the cast. -/
structure Libraries where
  parseIsotime : String → Option TzDatetime
  Text : Type
  dumps : Payload → Text
  loads : Text → Except String Payload
  loads_dumps : ∀ p, loads (dumps p) = .ok p
  storesText : Text → Bool
  cast : Cast

/-- The object of a call before it is stored. -/
structure NotificationObject where
  type : NotificationType
  generatedTime : TzDatetime
  sourceHostUuid : String
  payload : Payload
  status : NotificationStatus

/-- `obj_get_changes`, the times naive. -/
structure NotificationChanges where
  type : NotificationType
  generatedTime : Datetime
  sourceHostUuid : String
  payload : Payload
  status : NotificationStatus

/-- What the server and the database add to a new row; the uuid is a fresh one. -/
structure Stamp {Text : Type} (s : Store Text) where
  uuid : String
  id : Nat
  createdAt : Int
  fresh : s.notifications.get? uuid = none

/-- Arithmetic on a `datetime`. -/
def overflow {α : Type} : Option α → Except Exc α
  | none => .error (.other "OverflowError")
  | some a => .ok a

/-- `NotificationTypeField.coerce`. -/
def coerceType (s : String) : Except Exc NotificationType :=
  match NotificationType.ofString s with
  | none => .error valueError
  | some type => .ok type

section Values

variable (lib : Libraries)

/-- `DateTimeField.coerce`: a string is parsed, and a missing offset is that of UTC. -/
def coerceDateTime (s : String) : Except Exc TzDatetime :=
  match lib.parseIsotime s with
  | none => .error valueError
  | some t => .ok { t with utcoffset := some (t.utcoffset.getD UtcOffset.utc) }

/-- The lines of `create_notification` that populate the object. -/
def populateObject (b : NotificationBody) (sourceHostUuid : String) :
    Except Exc NotificationObject := do
  let type ← coerceType b.type
  let generatedTime ← coerceDateTime lib b.generatedTime
  pure ⟨type, generatedTime, sourceHostUuid, b.payload, .new⟩

/-- `timeutils.normalize_time`. -/
def normalizeTime (t : TzDatetime) : Except Exc Datetime := overflow t.toUtc

/-- `masakari_obj_get_changes`. -/
def masakariObjGetChanges (n : NotificationObject) : Except Exc NotificationChanges := do
  let generatedTime ← overflow n.generatedTime.toUtc
  pure ⟨n.type, generatedTime, n.sourceHostUuid, n.payload, n.status⟩

/-- The filters of `_is_duplicate_notification`, `generated-since` as the query reads it. -/
def duplicateFilters (interval : Nat) (n : NotificationObject) :
    Except Exc NotificationFilters := do
  let since ← overflow (n.generatedTime.add (-seconds interval))
  let generatedSince ← normalizeTime since
  pure
    { sourceHostUuid := some n.sourceHostUuid
      type := some n.type
      status := some [.new, .running]
      generatedSince := some generatedSince.micros }

/-- The class of the exception that reading the column of a payload raises. `safe_decode` takes no
`None`. -/
def unreadable (payload : Option lib.Text) : Option String :=
  match payload with
  | none => some "TypeError"
  | some text =>
    match lib.loads text with
    | .ok _ => none
    | .error cls => some cls

/-- `jsonutils.loads` of the column, assigned to the field. -/
def readPayload (payload : Option lib.Text) : Except Exc Payload :=
  match payload with
  | none => .error (.other "TypeError")
  | some text =>
    match lib.loads text with
    | .ok p => .ok p
    | .error cls => .error (.other cls)

/-- `Notification._from_db_object` -/
def NotificationRow.fromDbObject (r : NotificationRow lib.Text) : Except Exc ReadNotification := do
  let fields ← r.fields
  let type ← coerceType r.type
  let payload ← readPayload lib r.payload
  pure ⟨fields, r.id, r.notificationUuid, r.generatedTime, type, payload, r.status,
    r.sourceHostUuid⟩

/-- The row of the changes. -/
def createdRow {s : Store lib.Text} (stamp : Stamp s) (updates : NotificationChanges) :
    NotificationRow lib.Text where
  createdAt := some stamp.createdAt
  updatedAt := none
  deletedAt := none
  deleted := some 0
  id := stamp.id
  notificationUuid := stamp.uuid
  generatedTime := updates.generatedTime.micros
  type := updates.type.value
  payload := some (lib.dumps updates.payload)
  status := updates.status
  sourceHostUuid := updates.sourceHostUuid

end Values

/-! ## The database -/

/-- The row passes the filters. -/
def NotificationRow.acceptedBy {Text : Type} (f : NotificationFilters) (r : NotificationRow Text) :
    Bool :=
  r.deleted = some 0 && f.sourceHostUuid.all (r.sourceHostUuid = ·) &&
    f.type.all (r.type = ·.value) && f.status.all (r.status ∈ ·) &&
    f.generatedSince.all (· ≤ r.generatedTime)

/-- A NULL is before every time. -/
def earlier : Option Int → Option Int → Bool
  | none, some _ => true
  | some t, some t' => t < t'
  | none, none | some _, none => false

/-- `_process_sort_params` without arguments. -/
def listedBefore {Text : Type} (r r' : NotificationRow Text) : Prop :=
  earlier r'.createdAt r.createdAt = true ∨ r.createdAt = r'.createdAt ∧ r'.id ≤ r.id

instance {Text : Type} : DecidableRel (@listedBefore Text) :=
  fun _ _ => inferInstanceAs (Decidable (_ ∨ _))

/-- `notifications_get_all_by_filters` without limit and marker. -/
def notificationsGetAllByFilters {Text : Type} (f : NotificationFilters) (s : Store Text) :
    List (NotificationRow Text) :=
  (s.notifications.rows.filter fun r => r.acceptedBy f).insertionSort listedBefore

/-- The database, and the notifications that were cast to the engine. -/
structure Served (Text : Type) where
  store : Store Text
  casts : List ReadNotification

/-- A program of the API. -/
abbrev ApiM (Text : Type) := EStateM Exc (Served Text)

section Call

variable (lib : Libraries) (interval : Nat)

/-- `Host.get_by_name` -/
def hostGetByName {Text : Type} (name : String) : ApiM Text HostRequests.HostObject := do
  let s ← get
  match s.store.hosts.rows.find? (fun r => r.deleted = some 0 ∧ r.name = name) with
  | some r => MonadExcept.ofExcept (r.fromDbObject (s.store.segments.get? r.failoverSegmentId))
  | none => throw (Exc.raised .hostNotFoundByName s!"Host with name {name} could not be found.")

def isDuplicateNotification (n : NotificationObject) : ApiM lib.Text Bool := do
  let filters ← MonadExcept.ofExcept (duplicateFilters interval n)
  let s ← get
  let notificationsList ← MonadExcept.ofExcept
    ((notificationsGetAllByFilters filters s.store).mapM fun r => r.fromDbObject lib)
  pure (notificationsList.any (·.payload = n.payload))

/-- `notification_create` -/
def notificationCreate (values : NotificationRow lib.Text) :
    ApiM lib.Text (NotificationRow lib.Text) := do
  let s ← get
  if values.payload.all lib.storesText = false then throw (.other "DBDataError")
  else
    match s.store.notifications.insert values with
    | none => throw (.other "DBDuplicateEntry")
    | some notifications => do
      set { s with store := { s.store with notifications } }
      pure values

/-- `Notification.create` -/
def create {s : Store lib.Text} (stamp : Stamp s) (n : NotificationObject) :
    ApiM lib.Text ReadNotification := do
  let updates ← MonadExcept.ofExcept (masakariObjGetChanges n)
  let row ← notificationCreate lib (createdRow lib stamp updates)
  MonadExcept.ofExcept (row.fromDbObject lib)

/-- `EngineAPI.process_notification`: a cast. -/
def processNotification (n : ReadNotification) : ApiM lib.Text Unit :=
  match lib.cast with
  | .sent => modify fun s => { s with casts := s.casts ++ [n] }
  | .raised cls sent => do
    modify fun s => { s with casts := if sent then s.casts ++ [n] else s.casts }
    throw (.other cls)

def createNotification {s : Store lib.Text} (stamp : Stamp s) (b : NotificationBody) :
    ApiM lib.Text ReadNotification := do
  let hostObject ← hostGetByName b.hostname
  if hostObject.onMaintenance then
    throw (Exc.raised .hostOnMaintenanceError
      (s!"Notification received from host {b.hostname} of type '{b.type}' " ++
        "is ignored as the host is already under maintenance."))
  else do
    let n ← MonadExcept.ofExcept (populateObject lib b hostObject.uuid)
    let duplicate ← isDuplicateNotification lib interval n
    if duplicate then
      throw (Exc.raised .duplicateNotification
        s!"Notification received from host {b.hostname} of  type '{n.type.value}' is duplicate.")
    else do
      let created ← create lib stamp n
      processNotification lib created
      pure created

end Call

/-! ## How a call should end -/

/-- A database content, as the constraints `fk_failover_segments_uuid` and
`uniq_host0name0deleted` leave it. -/
structure StoreContent (Text : Type) where
  store : Store Text
  segment : ∀ h ∈ store.hosts.rows, (store.segments.get? h.failoverSegmentId).isSome = true
  name_unique : ∀ h ∈ store.hosts.rows, ∀ h' ∈ store.hosts.rows,
    h.deleted = some 0 → h'.deleted = some 0 → h.name = h'.name → h = h'

/-- A request that the schema accepts, with what its texts stand for. -/
structure AcceptedRequest (lib : Libraries) where
  body : NotificationBody
  type : NotificationType
  time : TzDatetime
  accepted : body.accepted (fun s => (lib.parseIsotime s).map TzDatetime.instant) = true
  type_eq : NotificationType.ofString body.type = some type
  time_eq : lib.parseIsotime body.generatedTime = some time

/-- The ways in which a call can end. The last but one is an exception after the commit. -/
inductive Outcome where
  | hostNotFoundByName
  | hostOnMaintenance
  | duplicate
  | error (cls : String)
  | uncast (cls : String)
  | created
  deriving DecidableEq

/-- The host is the live one of the name. -/
structure Named {Text : Type} (s : Store Text) (name : String) (h : HostRow) : Prop where
  mem : h ∈ s.hosts.rows
  live : h.deleted = some 0
  name_eq : h.name = name

/-- The columns that are not nullable as fields, of the host and of its segment, are not NULL. -/
def Readable {Text : Type} (s : Store Text) (h : HostRow) : Prop :=
  HostRequests.Readable s.inventory h

section Outcomes

variable {lib : Libraries} (r : AcceptedRequest lib) (interval : Nat)

/-- A stored notification is open, equal to the request, and not too old. -/
def HasDuplicate (s : Store lib.Text) (h : HostRow) : Prop :=
  ∃ n ∈ s.notifications.rows, n.deleted = some 0 ∧ n.type = r.type.value ∧
    n.sourceHostUuid = h.uuid ∧ (n.status = .new ∨ n.status = .running) ∧
    readPayload lib n.payload = .ok r.body.payload ∧
    r.time.instant - seconds interval ≤ n.generatedTime

/-- `generated_time` less the interval, on its wall clock and in UTC, is a `datetime`. -/
def SinceInRange : Prop :=
  InRange (r.time.wall.micros - seconds interval) ∧ InRange (r.time.instant - seconds interval)

/-- The stored notifications that the request is compared with, in the order in which they are
read. -/
def candidates (s : Store lib.Text) (h : HostRow) : List (NotificationRow lib.Text) :=
  notificationsGetAllByFilters
    { sourceHostUuid := some h.uuid
      type := some r.type
      status := some [.new, .running]
      generatedSince := some (r.time.instant - seconds interval) } s

/-- The class of the exception of the first of them that cannot be read. -/
def firstUnreadable (s : Store lib.Text) (h : HostRow) : Option String :=
  (candidates r interval s h).findSome? fun n => unreadable lib n.payload

open Classical in
/-- The outcome of a request whose host is up, by the checks in their order. -/
noncomputable def outcomeUp (s : Store lib.Text) (h : HostRow) : Outcome :=
  if ¬ SinceInRange r interval then .error "OverflowError"
  else
    match firstUnreadable r interval s h with
    | some cls => .error cls
    | none =>
      if HasDuplicate r interval s h then .duplicate
      else if ¬ InRange r.time.instant then .error "OverflowError"
      else if lib.storesText (lib.dumps r.body.payload) = false then .error "DBDataError"
      else
        match lib.cast with
        | .raised cls _ => .uncast cls
        | .sent => .created

open Classical in
/-- The outcome of a request for a host. -/
noncomputable def outcomeFor (s : Store lib.Text) (h : HostRow) : Outcome :=
  if ¬ Readable s h then .error "ValueError"
  else if h.onMaintenance = some true then .hostOnMaintenance
  else outcomeUp r interval s h

/-- The request as the other requests see it. -/
def request : Request := ⟨r.body.hostname, r.type, r.body.payload, r.time.instant⟩

end Outcomes

/-! ## Single steps -/

section Steps

variable {lib : Libraries} {interval : Nat} {s : Served lib.Text}

/-- The object of an accepted request: the offset is filled in. -/
theorem populateObject_accepted (r : AcceptedRequest lib) (uuid : String) :
    ∃ t : TzDatetime, populateObject lib r.body uuid = .ok ⟨r.type, t, uuid, r.body.payload, .new⟩ ∧
      t.wall = r.time.wall ∧ t.instant = r.time.instant := by
  refine ⟨{ r.time with utcoffset := some (r.time.utcoffset.getD UtcOffset.utc) }, ?_, rfl, ?_⟩
  · unfold populateObject coerceType coerceDateTime
    rw [r.type_eq, r.time_eq]
    rfl
  · unfold TzDatetime.instant
    cases r.time.utcoffset with
    | none => exact Int.sub_zero _
    | some o => rfl

theorem find?_named {c : StoreContent lib.Text} {name : String} {h : HostRow}
    (hNamed : Named c.store name h) :
    c.store.hosts.rows.find? (fun h => h.deleted = some 0 ∧ h.name = name) = some h := by
  cases hFound : c.store.hosts.rows.find? (fun h => h.deleted = some 0 ∧ h.name = name) with
  | none =>
    have hNot := List.find?_eq_none.mp hFound h hNamed.mem
    simp [hNamed.live, hNamed.name_eq] at hNot
  | some h' =>
    have hTest := List.find?_some hFound
    simp only [decide_eq_true_eq] at hTest
    rw [c.name_unique h hNamed.mem h' (List.mem_of_find?_eq_some hFound) hNamed.live hTest.1
      (hNamed.name_eq.trans hTest.2.symm)]

theorem find?_not_named {s : Store lib.Text} {name : String} (hNone : ∀ h, ¬ Named s name h) :
    s.hosts.rows.find? (fun h => h.deleted = some 0 ∧ h.name = name) = none := by
  apply List.find?_eq_none.mpr
  intro h hMem hTest
  simp only [decide_eq_true_eq] at hTest
  exact hNone h ⟨hMem, hTest.1, hTest.2⟩

/-- The lookup of a host: what is read of it, or the exception for a NULL. -/
theorem hostGetByName_named {c : StoreContent lib.Text} {name : String} {h : HostRow}
    {casts : List ReadNotification} (hNamed : Named c.store name h) :
    Ensures (hostGetByName name) ⟨c.store, casts⟩
      (fun o s' => Readable c.store h ∧ s' = ⟨c.store, casts⟩ ∧ HostRequests.ReadFrom h o)
      (fun e s' => ¬ Readable c.store h ∧ s' = ⟨c.store, casts⟩ ∧ e = valueError) := by
  unfold hostGetByName
  rw [ensures_bind, ensures_get]
  dsimp only
  rw [find?_named hNamed]
  dsimp only
  rw [Lib.ensures_ofExcept]
  have hSegment : (c.store.inventory.segments.get? h.failoverSegmentId).isSome = true :=
    c.segment h hNamed.mem
  by_cases hRead : Readable c.store h
  · obtain ⟨o, hObject, hSame⟩ :=
      HostRequests.HostRow.fromDbObject_readable hNamed.live hSegment hRead
    rw [show h.fromDbObject (c.store.segments.get? h.failoverSegmentId) = .ok o from hObject]
    exact ⟨hRead, rfl, hSame⟩
  · rw [show h.fromDbObject (c.store.segments.get? h.failoverSegmentId) = .error valueError from
      HostRequests.HostRow.fromDbObject_not_readable hNamed.live hSegment hRead]
    exact ⟨hRead, rfl, rfl⟩

/-- The filters of the check, where their time can be computed. -/
theorem duplicateFilters_spec (n : NotificationObject) :
    duplicateFilters interval n =
      if InRange (n.generatedTime.wall.micros - seconds interval) ∧
          InRange (n.generatedTime.instant - seconds interval) then
        .ok
          { sourceHostUuid := some n.sourceHostUuid
            type := some n.type
            status := some [.new, .running]
            generatedSince := some (n.generatedTime.instant - seconds interval) }
      else .error (.other "OverflowError") := by
  unfold duplicateFilters normalizeTime
  cases hAdd : n.generatedTime.add (-seconds interval) with
  | none =>
    have hOut := TzDatetime.add_eq_none.mp hAdd
    rw [← Int.sub_eq_add_neg] at hOut
    rw [if_neg fun h => hOut h.1]
    rfl
  | some since =>
    have hInstant := TzDatetime.instant_add hAdd
    have hWall := (TzDatetime.add_eq_some hAdd).1
    rw [← Int.sub_eq_add_neg] at hInstant hWall
    have hIn : InRange (n.generatedTime.wall.micros - seconds interval) := by
      rw [← hWall]
      exact ⟨since.wall.nonneg, since.wall.lt_end⟩
    cases hUtc : since.toUtc with
    | none =>
      have hOut := TzDatetime.toUtc_eq_none.mp hUtc
      rw [hInstant] at hOut
      rw [if_neg fun h => hOut h.2]
      change overflow since.toUtc >>= _ = _
      rw [hUtc]
      rfl
    | some d =>
      have hMicros := TzDatetime.micros_toUtc hUtc
      rw [hInstant] at hMicros
      rw [if_pos ⟨hIn, by rw [← hMicros]; exact ⟨d.nonneg, d.lt_end⟩⟩, ← hMicros]
      change overflow since.toUtc >>= _ = _
      rw [hUtc]
      rfl

theorem readPayload_of_some {payload : Option lib.Text} {cls : String}
    (h : unreadable lib payload = some cls) : readPayload lib payload = .error (.other cls) := by
  unfold unreadable at h
  unfold readPayload
  cases payload with
  | none =>
    cases h
    rfl
  | some text =>
    dsimp only at h ⊢
    cases hLoads : lib.loads text with
    | ok p =>
      rw [hLoads] at h
      cases h
    | error cls' =>
      rw [hLoads] at h
      cases h
      rfl

theorem readPayload_of_none {payload : Option lib.Text} (h : unreadable lib payload = none) :
    ∃ p, readPayload lib payload = .ok p := by
  unfold unreadable at h
  unfold readPayload
  cases payload with
  | none => cases h
  | some text =>
    dsimp only at h ⊢
    cases hLoads : lib.loads text with
    | ok p => exact ⟨p, rfl⟩
    | error cls =>
      rw [hLoads] at h
      cases h

theorem ofString_value (type : NotificationType) :
    NotificationType.ofString type.value = some type := by
  cases type <;> decide

section Read

variable {n : NotificationRow lib.Text} {type : NotificationType} {payload : Payload} {e : Exc}

theorem fromDbObject_error (hDeleted : n.deleted = some 0) (hType : n.type = type.value)
    (h : readPayload lib n.payload = .error e) : n.fromDbObject lib = .error e := by
  unfold NotificationRow.fromDbObject PersistentColumns.fields coerceType
  rw [hDeleted, hType, ofString_value, h]
  rfl

theorem fromDbObject_ok (hDeleted : n.deleted = some 0) (hType : n.type = type.value)
    (h : readPayload lib n.payload = .ok payload) :
    ∃ o, n.fromDbObject lib = .ok o ∧ o.payload = payload := by
  unfold NotificationRow.fromDbObject PersistentColumns.fields coerceType
  rw [hDeleted, hType, ofString_value, h]
  exact ⟨_, rfl, rfl⟩

end Read

/-- Rows of one type that are not deleted are read one after the other, and the first payload that
cannot be read ends the reading. -/
theorem mapM_fromDbObject {type : NotificationType} {rows : List (NotificationRow lib.Text)}
    (hRows : ∀ n ∈ rows, n.deleted = some 0 ∧ n.type = type.value) :
    (∀ cls, rows.findSome? (fun n => unreadable lib n.payload) = some cls →
      rows.mapM (fun n => n.fromDbObject lib) = .error (.other cls)) ∧
    (rows.findSome? (fun n => unreadable lib n.payload) = none →
      ∃ os, rows.mapM (fun n => n.fromDbObject lib) = .ok os ∧
        ∀ p, os.any (·.payload = p) = true ↔ ∃ n ∈ rows, readPayload lib n.payload = .ok p) := by
  induction rows with
  | nil => exact ⟨fun _ h => (by cases h), fun _ => ⟨[], rfl, fun p => by simp⟩⟩
  | cons n rows ih =>
    obtain ⟨⟨hDeleted, hType⟩, hRows⟩ := List.forall_mem_cons.mp hRows
    obtain ⟨ihError, ihOk⟩ := ih hRows
    rw [List.mapM_cons, List.findSome?_cons]
    cases hUnreadable : unreadable lib n.payload with
    | some cls =>
      rw [fromDbObject_error hDeleted hType (readPayload_of_some hUnreadable)]
      refine ⟨fun cls' h => ?_, fun h => by cases h⟩
      cases h
      rfl
    | none =>
      obtain ⟨payload, hPayload⟩ := readPayload_of_none hUnreadable
      obtain ⟨o, hObject, hSame⟩ := fromDbObject_ok hDeleted hType hPayload
      rw [hObject]
      refine ⟨fun cls h => ?_, fun h => ?_⟩
      · show (rows.mapM fun n => n.fromDbObject lib) >>= _ = _
        rw [ihError cls h]
        rfl
      · obtain ⟨os, hOs, hAny⟩ := ihOk h
        refine ⟨o :: os, ?_, fun p => ?_⟩
        · show (rows.mapM fun n => n.fromDbObject lib) >>= _ = _
          rw [hOs]
          rfl
        · rw [List.any_cons, Bool.or_eq_true, hAny, decide_eq_true_iff, List.exists_mem_cons_iff,
            hPayload, Except.ok.injEq, hSame]

theorem mem_candidates {r : AcceptedRequest lib} {store : Store lib.Text} {h : HostRow}
    {n : NotificationRow lib.Text} : n ∈ candidates r interval store h ↔
      n ∈ store.notifications.rows ∧ n.deleted = some 0 ∧ n.type = r.type.value ∧
      n.sourceHostUuid = h.uuid ∧ (n.status = .new ∨ n.status = .running) ∧
      r.time.instant - seconds interval ≤ n.generatedTime := by
  unfold candidates notificationsGetAllByFilters NotificationRow.acceptedBy
  rw [List.mem_insertionSort, List.mem_filter]
  simp only [Option.all_some, List.mem_cons, List.not_mem_nil, or_false, Bool.decide_or,
    Bool.and_eq_true, decide_eq_true_eq, Bool.or_eq_true]
  constructor
  · rintro ⟨hRow, ⟨⟨⟨hLive, hHost⟩, hType⟩, hStatus⟩, hSince⟩
    exact ⟨hRow, hLive, hType, hHost, hStatus, hSince⟩
  · rintro ⟨hRow, hLive, hType, hHost, hStatus, hSince⟩
    exact ⟨hRow, ⟨⟨⟨hLive, hHost⟩, hType⟩, hStatus⟩, hSince⟩

/-- The check of a request whose host is up. -/
theorem isDuplicateNotification_spec {r : AcceptedRequest lib} {h : HostRow} {t : TzDatetime}
    (hWall : t.wall = r.time.wall) (hInstant : t.instant = r.time.instant) :
    Ensures (isDuplicateNotification lib interval ⟨r.type, t, h.uuid, r.body.payload, .new⟩) s
      (fun b s' => s' = s ∧ SinceInRange r interval ∧ firstUnreadable r interval s.store h = none ∧
        (b = true ↔ HasDuplicate r interval s.store h))
      (fun e s' => s' = s ∧ (¬ SinceInRange r interval ∧ e = .other "OverflowError" ∨
        SinceInRange r interval ∧
          ∃ cls, firstUnreadable r interval s.store h = some cls ∧ e = .other cls)) := by
  unfold isDuplicateNotification
  rw [ensures_bind, Lib.ensures_ofExcept, duplicateFilters_spec]
  dsimp only
  rw [hWall, hInstant]
  by_cases hSince : InRange (r.time.wall.micros - seconds interval) ∧
      InRange (r.time.instant - seconds interval)
  · rw [if_pos hSince]
    dsimp only
    rw [ensures_bind, ensures_get, ensures_bind, Lib.ensures_ofExcept]
    have hRows : ∀ n ∈ candidates r interval s.store h,
        n.deleted = some 0 ∧ n.type = r.type.value :=
      fun n hn => ⟨(mem_candidates.mp hn).2.1, (mem_candidates.mp hn).2.2.1⟩
    obtain ⟨hError, hOk⟩ := mapM_fromDbObject hRows
    have hFirst : firstUnreadable r interval s.store h =
        (candidates r interval s.store h).findSome? fun n => unreadable lib n.payload := rfl
    have hCandidates : notificationsGetAllByFilters
        { sourceHostUuid := some h.uuid
          type := some r.type
          status := some [.new, .running]
          generatedSince := some (r.time.instant - seconds interval) } s.store =
        candidates r interval s.store h := rfl
    rw [hCandidates]
    cases hUnreadable : firstUnreadable r interval s.store h with
    | some cls =>
      rw [hError cls (hFirst ▸ hUnreadable)]
      exact ⟨rfl, Or.inr ⟨hSince, cls, rfl, rfl⟩⟩
    | none =>
      obtain ⟨os, hOs, hAny⟩ := hOk (hFirst ▸ hUnreadable)
      rw [hOs]
      dsimp only
      rw [ensures_pure]
      refine ⟨rfl, hSince, rfl, ?_⟩
      rw [hAny]
      unfold HasDuplicate
      simp only [mem_candidates]
      constructor
      · rintro ⟨n, ⟨hRow, hLive, hType, hHost, hStatus, hTime⟩, hPayload⟩
        exact ⟨n, hRow, hLive, hType, hHost, hStatus, hPayload, hTime⟩
      · rintro ⟨n, hRow, hLive, hType, hHost, hStatus, hPayload, hTime⟩
        exact ⟨n, ⟨hRow, hLive, hType, hHost, hStatus, hTime⟩, hPayload⟩
  · rw [if_neg hSince]
    exact ⟨rfl, Or.inl ⟨hSince, rfl⟩⟩

section Create

variable (r : AcceptedRequest lib) {store : Store lib.Text} (stamp : Stamp store) (h : HostRow)

/-- The new row of a request. -/
def newRow : NotificationRow lib.Text where
  createdAt := some stamp.createdAt
  updatedAt := none
  deletedAt := none
  deleted := some 0
  id := stamp.id
  notificationUuid := stamp.uuid
  generatedTime := r.time.instant
  type := r.type.value
  payload := some (lib.dumps r.body.payload)
  status := .new
  sourceHostUuid := h.uuid

/-- What it reads as. -/
def newNotification : ReadNotification where
  createdAt := some stamp.createdAt
  updatedAt := none
  deletedAt := none
  deleted := false
  id := stamp.id
  notificationUuid := stamp.uuid
  generatedTime := r.time.instant
  type := r.type
  payload := r.body.payload
  status := .new
  sourceHostUuid := h.uuid

theorem newRow_fromDbObject :
    (newRow r stamp h).fromDbObject lib = .ok (newNotification r stamp h) := by
  unfold NotificationRow.fromDbObject PersistentColumns.fields coerceType readPayload newRow
  dsimp only
  rw [ofString_value, lib.loads_dumps]
  rfl

variable {r stamp h}

/-- The row is inserted, and nothing else changes. -/
def Inserted (r : AcceptedRequest lib) (stamp : Stamp store) (h : HostRow)
    (store' : Store lib.Text) : Prop :=
  ∃ notifications, store.notifications.insert (newRow r stamp h) = some notifications ∧
    store' = { store with notifications }

/-- `Notification.create` on the object of a request. -/
theorem create_spec {t : TzDatetime} {casts : List ReadNotification}
    (hInstant : t.instant = r.time.instant) :
    Ensures (create lib stamp ⟨r.type, t, h.uuid, r.body.payload, .new⟩) ⟨store, casts⟩
      (fun n s' => InRange r.time.instant ∧ lib.storesText (lib.dumps r.body.payload) = true ∧
        n = newNotification r stamp h ∧ Inserted r stamp h s'.store ∧ s'.casts = casts)
      (fun e s' => s' = ⟨store, casts⟩ ∧ (¬ InRange r.time.instant ∧ e = .other "OverflowError" ∨
        InRange r.time.instant ∧ lib.storesText (lib.dumps r.body.payload) = false ∧
          e = .other "DBDataError")) := by
  unfold create masakariObjGetChanges
  rw [ensures_bind, Lib.ensures_ofExcept]
  dsimp only
  cases hUtc : t.toUtc with
  | none =>
    have hOut := TzDatetime.toUtc_eq_none.mp hUtc
    rw [hInstant] at hOut
    exact ⟨rfl, Or.inl ⟨hOut, rfl⟩⟩
  | some d =>
    have hMicros := TzDatetime.micros_toUtc hUtc
    rw [hInstant] at hMicros
    have hIn : InRange r.time.instant := by
      rw [← hMicros]
      exact ⟨d.nonneg, d.lt_end⟩
    have hRow : createdRow lib stamp ⟨r.type, d, h.uuid, r.body.payload, .new⟩ =
        newRow r stamp h := by
      unfold createdRow newRow
      rw [hMicros]
    change Ensures (notificationCreate lib (createdRow lib stamp
      ⟨r.type, d, h.uuid, r.body.payload, .new⟩) >>= _) _ _ _
    rw [hRow, ensures_bind]
    unfold notificationCreate
    rw [ensures_bind, ensures_get]
    have hPayload : (newRow r stamp h).payload.all lib.storesText =
        lib.storesText (lib.dumps r.body.payload) := rfl
    rw [hPayload]
    cases hText : lib.storesText (lib.dumps r.body.payload) with
    | false => exact ⟨rfl, Or.inr ⟨hIn, rfl, rfl⟩⟩
    | true =>
      rw [if_neg (by decide)]
      obtain ⟨notifications, hInsert⟩ := Option.isSome_iff_exists.mp
        (Table.insert_isSome_iff.mpr (show store.notifications.get?
          (newRow r stamp h).notificationUuid = none from stamp.fresh))
      dsimp only
      rw [hInsert]
      dsimp only
      rw [ensures_bind, ensures_set, ensures_pure, newRow_fromDbObject]
      exact ⟨hIn, rfl, rfl, ⟨notifications, hInsert, rfl⟩, rfl⟩

end Create

/-- The cast at the end. -/
theorem processNotification_spec (n : ReadNotification) :
    Ensures (processNotification lib n) s
      (fun _ s' => lib.cast = .sent ∧ s' = { s with casts := s.casts ++ [n] })
      (fun e s' => ∃ cls sent, lib.cast = .raised cls sent ∧ e = .other cls ∧
        s' = { s with casts := if sent then s.casts ++ [n] else s.casts }) := by
  unfold processNotification
  cases hCast : lib.cast with
  | sent => exact ⟨rfl, rfl⟩
  | raised cls sent => exact ⟨cls, sent, rfl, rfl, rfl⟩

end Steps

/-! ## The outcome -/

section Theorem

variable {lib : Libraries} {r : AcceptedRequest lib} {interval : Nat} {c : StoreContent lib.Text}
  {casts : List ReadNotification} {stamp : Stamp c.store} {h : HostRow}

/-- How a call for a host that is up is refused. -/
inductive Refusal (r : AcceptedRequest lib) (interval : Nat) (s : Store lib.Text) (h : HostRow) :
    Exc → Prop
  | since (hSince : ¬ SinceInRange r interval) : Refusal r interval s h (.other "OverflowError")
  | payload (hSince : SinceInRange r interval) (cls : String)
      (hFirst : firstUnreadable r interval s h = some cls) : Refusal r interval s h (.other cls)
  | duplicate (hSince : SinceInRange r interval) (hFirst : firstUnreadable r interval s h = none)
      (hDuplicate : HasDuplicate r interval s h) :
    Refusal r interval s h (duplicateNotification (request r))
  | row (hSince : SinceInRange r interval) (hFirst : firstUnreadable r interval s h = none)
      (hDuplicate : ¬ HasDuplicate r interval s h) (hRow : ¬ InRange r.time.instant) :
    Refusal r interval s h (.other "OverflowError")
  | text (hSince : SinceInRange r interval) (hFirst : firstUnreadable r interval s h = none)
      (hDuplicate : ¬ HasDuplicate r interval s h) (hRow : InRange r.time.instant)
      (hText : lib.storesText (lib.dumps r.body.payload) = false) :
    Refusal r interval s h (.other "DBDataError")

/-- The request is stored. -/
structure Storable (r : AcceptedRequest lib) (interval : Nat) (s : Store lib.Text)
    (h : HostRow) : Prop where
  since : SinceInRange r interval
  first : firstUnreadable r interval s h = none
  duplicate : ¬ HasDuplicate r interval s h
  row : InRange r.time.instant
  text : lib.storesText (lib.dumps r.body.payload) = true

/-- The lines after the lookup of a host that is not on maintenance. -/
theorem createNotification_up (hNamed : Named c.store r.body.hostname h)
    (hRead : Readable c.store h) (hMaintenance : h.onMaintenance ≠ some true) :
    Ensures (createNotification lib interval stamp r.body) ⟨c.store, casts⟩
      (fun n s' => Storable r interval c.store h ∧ lib.cast = .sent ∧
        n = newNotification r stamp h ∧ Inserted r stamp h s'.store ∧ s'.casts = casts ++ [n])
      (fun e s' => Refusal r interval c.store h e ∧ s' = ⟨c.store, casts⟩ ∨
        ∃ cls sent, Storable r interval c.store h ∧ lib.cast = .raised cls sent ∧ e = .other cls ∧
          Inserted r stamp h s'.store ∧
          s'.casts = if sent then casts ++ [newNotification r stamp h] else casts) := by
  unfold createNotification
  rw [ensures_bind]
  refine ensures_mono (hostGetByName_named hNamed) (fun o s' hn => ?_) fun e s' he => ?_
  · obtain ⟨-, rfl, hFrom⟩ := hn
    have hUp : o.onMaintenance = false := by
      rw [← Bool.not_eq_true]
      intro hTrue
      exact hMaintenance (hFrom.onMaintenance.trans (congrArg some hTrue))
    obtain ⟨t, hPopulate, hWall, hInstant⟩ := populateObject_accepted r h.uuid
    rw [if_neg (by rw [hUp]; exact Bool.false_ne_true), ensures_bind, Lib.ensures_ofExcept,
      hFrom.uuid, hPopulate]
    dsimp only
    rw [ensures_bind]
    refine ensures_mono (isDuplicateNotification_spec hWall hInstant) (fun b s' hb => ?_)
      fun e s' he => ?_
    · obtain ⟨rfl, hSince, hFirst, hDuplicate⟩ := hb
      by_cases hTrue : b = true
      · rw [if_pos hTrue]
        exact Or.inl ⟨.duplicate hSince hFirst (hDuplicate.mp hTrue), rfl⟩
      · have hNew : ¬ HasDuplicate r interval c.store h := fun hDup => hTrue (hDuplicate.mpr hDup)
        rw [if_neg hTrue, ensures_bind]
        refine ensures_mono (create_spec hInstant) (fun n s' hn => ?_) fun e s' he => ?_
        · obtain ⟨hIn, hText, rfl, hInserted, hCasts⟩ := hn
          have hStorable : Storable r interval c.store h := ⟨hSince, hFirst, hNew, hIn, hText⟩
          rw [ensures_bind]
          refine ensures_mono (processNotification_spec _) (fun _ s'' hs => ?_) fun e s'' he => ?_
          · obtain ⟨hCast, rfl⟩ := hs
            exact ⟨hStorable, hCast, rfl, hInserted, by rw [← hCasts]⟩
          · obtain ⟨cls, sent, hCast, rfl, rfl⟩ := he
            exact Or.inr ⟨cls, sent, hStorable, hCast, rfl, hInserted, by rw [← hCasts]⟩
        · obtain ⟨rfl, ⟨hOut, rfl⟩ | ⟨hIn, hText, rfl⟩⟩ := he
          · exact Or.inl ⟨.row hSince hFirst hNew hOut, rfl⟩
          · exact Or.inl ⟨.text hSince hFirst hNew hIn hText, rfl⟩
    · obtain ⟨rfl, ⟨hOut, rfl⟩ | ⟨hSince, cls, hFirst, rfl⟩⟩ := he
      · exact Or.inl ⟨.since hOut, rfl⟩
      · exact Or.inl ⟨.payload hSince cls hFirst, rfl⟩
  · exact absurd hRead he.1

end Theorem

def compute1 : HostRow :=
  ⟨⟨some 0, none, none, some 0⟩, 1, "uuid", "compute1", some false, "SSH", "", some false,
    "segment"⟩

/-- One host, which is up. -/
def oneHost : StoreContent Payload where
  store :=
    { segments := ⟨[⟨⟨some 0, none, none, some 0⟩, 1, "segment", "rack1", "compute", none, .auto⟩],
        by simp⟩
      hosts := ⟨[compute1], by simp⟩
      notifications := .empty }
  segment := by simp [Table.get?, compute1]
  name_unique := by simp

section Four

variable {lib : Libraries} (r : AcceptedRequest lib) (interval : Nat)

end Four

end MasakariHA.Ha.CreateNotification
