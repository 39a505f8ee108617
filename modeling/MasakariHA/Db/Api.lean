import Mathlib.Data.List.Sort
import MasakariHA.Lib.Ensures
import MasakariHA.Lib.Table
import MasakariHA.Exception
import MasakariHA.Objects.Fields

/-!
# The database

The three tables of `db/sqlalchemy/models.py` and the queries of `db/sqlalchemy/api.py`
that the services use, each one transaction. Uuids are unique by the constraints
`uniq_segments0uuid`, `uniq_host0uuid` and `uniq_notification0uuid`, so each table is a
`Table` keyed by the uuid. A row is live while `deleted` is `0`. Times are UTC, in one unit
for a whole model: seconds, or microseconds where the source computes with datetimes.

The rows have the columns that the services decide by. None of them is `NULL` here, as every
insertion fills those that are nullable, and no write fails on the length of a text. Calls on any
content of the tables, with all columns, are in `Ha.HostRequests` and `Ha.CreateNotification`.

* `notificationGetByUuid`, `notificationUpdate`, `notificationsGetAllByFilters`;
* `hostGetByUuid`, `hostGetByName`, `hostUpdate`, `hostGetAllByFilters`;
* `Transaction`: a query as a step of a program, with its rule `ensures_transaction`.
-/

namespace MasakariHA

open Lib

/-! ## Rows -/

/-- A row of `failover_segments`. -/
structure FailoverSegment where
  uuid : String
  name : String
  recoveryMethod : RecoveryMethod
  deleted : Nat
  deriving DecidableEq, Repr

/-- A row of `hosts`. -/
structure Host where
  id : Nat
  createdAt : Int
  uuid : String
  name : String
  reserved : Bool
  onMaintenance : Bool
  failoverSegmentId : String
  deleted : Nat
  deriving DecidableEq, Repr

/-- A row of `notifications`. The text column `payload` is kept decoded: it is written
with `jsonutils.dumps` and read with `jsonutils.loads`. -/
structure Notification where
  id : Nat
  createdAt : Int
  notificationUuid : String
  generatedTime : Int
  sourceHostUuid : String
  type : NotificationType
  payload : Payload
  status : NotificationStatus
  deleted : Nat
  deriving DecidableEq

/-- The content of the database. -/
structure Db where
  segments : Table FailoverSegment.uuid
  hosts : Table Host.uuid
  notifications : Table Notification.notificationUuid

/-! ## Transactions -/

/-- A query: it fails with an exception and changes nothing, or it returns a value and
the content after it. -/
abbrev Query (α : Type) := Db → Except Exc (α × Db)

/-- A program over the database; writes made before an exception stay. -/
abbrev DbM := EStateM Exc Db

/-- Run a query as one step. -/
def transaction {α : Type} (q : Query α) : DbM α := fun db =>
  match q db with
  | .ok (a, db') => .ok a db'
  | .error e => .error e db

@[simp] theorem ensures_transaction {α : Type} {q : Query α} {db : Db} {Q : α → Db → Prop}
    {E : Exc → Db → Prop} :
    Ensures (transaction q) db Q E ↔
      match q db with
      | .ok (a, db') => Q a db'
      | .error e => E e db := by
  unfold Ensures EStateM.run transaction
  cases q db <;> rfl

/-! ## Order of a listing -/

/-- `_process_sort_params` without arguments: descending `created_at`, then descending `id`. -/
def sortedBefore {ρ : Type} (createdAt : ρ → Int) (id : ρ → Nat) (r r' : ρ) : Prop :=
  createdAt r' < createdAt r ∨ createdAt r = createdAt r' ∧ id r' ≤ id r

instance {ρ : Type} (createdAt : ρ → Int) (id : ρ → Nat) :
    DecidableRel (sortedBefore createdAt id) :=
  fun _ _ => inferInstanceAs (Decidable (_ ∨ _))

/-! ## Notifications -/

/-- The live row with the uuid. -/
def Db.liveNotification (db : Db) (uuid : String) : Option Notification :=
  (db.notifications.get? uuid).filter (fun r => r.deleted = 0)

def notificationGetByUuid (uuid : String) : Query Notification := fun db =>
  match db.liveNotification uuid with
  | some r => .ok (r, db)
  | none => .error (Exc.raised .notificationNotFound s!"No notification with id {uuid}.")

/-- The content with a new status in the row of the uuid. -/
def Db.setStatus (db : Db) (uuid : String) (status : NotificationStatus) : Db :=
  { db with
    notifications := db.notifications.modify uuid (fun r => { r with status }) fun _ => rfl }

/-- `notification_update`, with the only column the services change. -/
def notificationUpdate (uuid : String) (status : NotificationStatus) : Query Notification :=
  fun db =>
    match db.liveNotification uuid with
    | some r => .ok ({ r with status }, db.setStatus uuid status)
    | none => .error (Exc.raised .notificationNotFound s!"No notification with id {uuid}.")

/-- The filters of `notifications_get_all_by_filters`; an absent one does not filter. -/
structure NotificationFilters where
  sourceHostUuid : Option String
  type : Option NotificationType
  status : Option (List NotificationStatus)
  generatedSince : Option Int

def NotificationFilters.accepts (f : NotificationFilters) (r : Notification) : Bool :=
  r.deleted = 0 && f.sourceHostUuid.all (r.sourceHostUuid = ·) && f.type.all (r.type = ·) &&
    f.status.all (r.status ∈ ·) && f.generatedSince.all (· ≤ r.generatedTime)

/-- `notifications_get_all_by_filters` without limit and marker. -/
def notificationsGetAllByFilters (f : NotificationFilters) (db : Db) : List Notification :=
  (db.notifications.rows.filter f.accepts).insertionSort
    (sortedBefore Notification.createdAt Notification.id)

theorem mem_notificationsGetAllByFilters {f : NotificationFilters} {db : Db} {r : Notification} :
    r ∈ notificationsGetAllByFilters f db ↔ r ∈ db.notifications.rows ∧ f.accepts r = true := by
  simp [notificationsGetAllByFilters]

theorem nodup_notificationsGetAllByFilters (f : NotificationFilters) (db : Db) :
    ((notificationsGetAllByFilters f db).map (·.notificationUuid)).Nodup := by
  have hp := (List.perm_insertionSort (sortedBefore Notification.createdAt Notification.id)
    (db.notifications.rows.filter f.accepts)).map (·.notificationUuid)
  exact hp.nodup_iff.mpr (db.notifications.nodup.sublist (List.filter_sublist.map _))

section Status

variable {db : Db} {uuid uuid' : String} {status : NotificationStatus} {r : Notification}

theorem liveNotification_eq_some :
    db.liveNotification uuid = some r ↔ db.notifications.get? uuid = some r ∧ r.deleted = 0 := by
  simp [Db.liveNotification, Option.filter_eq_some_iff]

/-- A listed notification is the live row with its uuid. -/
theorem liveNotification_of_mem {f : NotificationFilters}
    (h : r ∈ notificationsGetAllByFilters f db) :
    db.liveNotification r.notificationUuid = some r := by
  obtain ⟨hRow, hAccepts⟩ := mem_notificationsGetAllByFilters.mp h
  simp only [NotificationFilters.accepts, Bool.and_eq_true, decide_eq_true_eq] at hAccepts
  exact liveNotification_eq_some.mpr ⟨Table.mem_rows_iff.mp hRow, hAccepts.1.1.1.1⟩

theorem uuid_of_live (h : db.liveNotification uuid = some r) : r.notificationUuid = uuid :=
  Table.key_of_get? (liveNotification_eq_some.mp h).1

theorem liveNotification_setStatus :
    (db.setStatus uuid status).liveNotification uuid' =
      if uuid' = uuid then (db.liveNotification uuid).map (fun r => { r with status })
      else db.liveNotification uuid' := by
  by_cases hu : uuid' = uuid
  · subst hu
    simp only [Db.liveNotification, Db.setStatus, Table.get?_modify_self, if_pos]
    cases db.notifications.get? uuid' with
    | none => rfl
    | some r => by_cases h : r.deleted = 0 <;> simp [Option.filter, h]
  · simp only [Db.liveNotification, Db.setStatus, Table.get?_modify_ne _ hu, if_neg hu]

theorem liveNotification_setStatus_self (h : db.liveNotification uuid = some r) :
    (db.setStatus uuid status).liveNotification uuid = some { r with status } := by
  rw [liveNotification_setStatus, if_pos rfl, h]
  rfl

theorem liveNotification_setStatus_ne (h : uuid' ≠ uuid) :
    (db.setStatus uuid status).liveNotification uuid' = db.liveNotification uuid' := by
  rw [liveNotification_setStatus, if_neg h]

theorem liveNotification_insert {t : Table Notification.notificationUuid}
    (h : db.notifications.insert r = some t) (uuid : String) :
    ({ db with notifications := t } : Db).liveNotification uuid =
      if uuid = r.notificationUuid then (some r).filter (fun r => r.deleted = 0)
      else db.liveNotification uuid := by
  unfold Db.liveNotification
  dsimp only
  rw [Table.get?_insert h]
  split <;> rfl

theorem liveNotification_of_insert {t : Table Notification.notificationUuid}
    (h : db.notifications.insert r = some t) : db.liveNotification r.notificationUuid = none := by
  have hNone : db.notifications.get? r.notificationUuid = none :=
    Table.insert_isSome_iff.mp (by rw [h]; rfl)
  simp [Db.liveNotification, hNone]

end Status

/-! ## Hosts -/

/-- A host with its segment, as `Host._from_db_object` builds it. -/
structure HostObject where
  host : Host
  failoverSegment : FailoverSegment
  deriving DecidableEq, Repr

/-- `Host._from_db_object`. The relation `failover_segment` joins on the uuid, deleted
segments included; without one, reading its columns is a `TypeError`. -/
def hostFromDbObject (db : Db) (h : Host) : Except Exc HostObject :=
  match db.segments.get? h.failoverSegmentId with
  | some failoverSegment => .ok ⟨h, failoverSegment⟩
  | none => .error (.other "TypeError")

/-- The live row with the uuid. -/
def Db.liveHost (db : Db) (uuid : String) : Option Host :=
  (db.hosts.get? uuid).filter (fun h => h.deleted = 0)

/-- `Host.get_by_uuid` without a segment. -/
def hostGetByUuid (uuid : String) : Query HostObject := fun db =>
  match db.liveHost uuid with
  | some h => (hostFromDbObject db h).map (·, db)
  | none => .error (Exc.raised .hostNotFound s!"No host with id {uuid}.")

/-- `Host.get_by_name`. Names are unique among live rows (`uniq_host0name0deleted`). -/
def hostGetByName (name : String) : Query HostObject := fun db =>
  match db.hosts.rows.find? (fun h => h.deleted = 0 ∧ h.name = name) with
  | some h => (hostFromDbObject db h).map (·, db)
  | none =>
    .error (Exc.raised .hostNotFoundByName s!"Host with name {name} could not be found.")

/-- The columns that a recovery changes; an absent one is kept. -/
structure HostValues where
  reserved : Option Bool := none
  onMaintenance : Option Bool := none

def HostValues.apply (v : HostValues) (h : Host) : Host :=
  { h with
    reserved := v.reserved.getD h.reserved
    onMaintenance := v.onMaintenance.getD h.onMaintenance }

@[simp] theorem HostValues.uuid_apply (v : HostValues) (h : Host) : (v.apply h).uuid = h.uuid := rfl

@[simp] theorem HostValues.deleted_apply (v : HostValues) (h : Host) :
    (v.apply h).deleted = h.deleted := rfl

def Db.setHost (db : Db) (uuid : String) (v : HostValues) : Db :=
  { db with hosts := db.hosts.modify uuid v.apply v.uuid_apply }

/-- `Host.save`: `host_update` and the object read back. -/
def hostUpdate (uuid : String) (v : HostValues) : Query HostObject := fun db =>
  match db.liveHost uuid with
  | some h => (hostFromDbObject db (v.apply h)).map (·, db.setHost uuid v)
  | none => .error (Exc.raised .hostNotFound s!"No host with id {uuid}.")

/-- The filters of `host_get_all_by_filters` that a recovery uses. -/
structure HostFilters where
  failoverSegmentId : Option String
  onMaintenance : Option Bool
  reserved : Option Bool

def HostFilters.accepts (f : HostFilters) (h : Host) : Bool :=
  h.deleted = 0 && f.failoverSegmentId.all (h.failoverSegmentId = ·) &&
    f.onMaintenance.all (h.onMaintenance = ·) && f.reserved.all (h.reserved = ·)

/-- `host_get_all_by_filters` without limit and marker. -/
def hostGetAllByFilters (f : HostFilters) (db : Db) : List Host :=
  (db.hosts.rows.filter f.accepts).insertionSort (sortedBefore Host.createdAt Host.id)

theorem mem_hostGetAllByFilters {f : HostFilters} {db : Db} {h : Host} :
    h ∈ hostGetAllByFilters f db ↔ h ∈ db.hosts.rows ∧ f.accepts h = true := by
  simp [hostGetAllByFilters]

theorem nodup_hostGetAllByFilters (f : HostFilters) (db : Db) :
    ((hostGetAllByFilters f db).map (·.uuid)).Nodup := by
  have hp := (List.perm_insertionSort (sortedBefore Host.createdAt Host.id)
    (db.hosts.rows.filter f.accepts)).map (·.uuid)
  exact hp.nodup_iff.mpr (db.hosts.nodup.sublist (List.filter_sublist.map _))

section Hosts

variable {db : Db} {uuid uuid' : String} {v : HostValues} {h : Host}

theorem liveHost_eq_some :
    db.liveHost uuid = some h ↔ db.hosts.get? uuid = some h ∧ h.deleted = 0 := by
  simp [Db.liveHost, Option.filter_eq_some_iff]

theorem liveHost_setHost :
    (db.setHost uuid v).liveHost uuid' =
      if uuid' = uuid then (db.liveHost uuid).map v.apply else db.liveHost uuid' := by
  by_cases hu : uuid' = uuid
  · subst hu
    simp only [Db.liveHost, Db.setHost, Table.get?_modify_self, if_pos]
    cases db.hosts.get? uuid' with
    | none => rfl
    | some h => by_cases hd : h.deleted = 0 <;> simp [Option.filter, hd]
  · simp only [Db.liveHost, Db.setHost, Table.get?_modify_ne _ hu, if_neg hu]

theorem uuid_of_liveHost (hl : db.liveHost uuid = some h) : h.uuid = uuid :=
  Table.key_of_get? (liveHost_eq_some.mp hl).1

theorem hostGetByUuid_ok {seg : FailoverSegment} (hl : db.liveHost uuid = some h)
    (hs : db.segments.get? h.failoverSegmentId = some seg) :
    hostGetByUuid uuid db = .ok (⟨h, seg⟩, db) := by
  simp only [hostGetByUuid, hl, hostFromDbObject, hs]
  rfl

theorem hostUpdate_ok {seg : FailoverSegment} (hl : db.liveHost uuid = some h)
    (hs : db.segments.get? h.failoverSegmentId = some seg) :
    hostUpdate uuid v db = .ok (⟨v.apply h, seg⟩, db.setHost uuid v) := by
  have hs' : db.segments.get? (v.apply h).failoverSegmentId = some seg := hs
  simp only [hostUpdate, hl, hostFromDbObject, hs']
  rfl

end Hosts

end MasakariHA
