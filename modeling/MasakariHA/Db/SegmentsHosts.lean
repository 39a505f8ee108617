import MasakariHA.Db.Api

/-!
# Segments and hosts in the database

The queries of `db/sqlalchemy/api.py` behind the segment and host API, each one transaction.
A row is soft-deleted by storing its `id` in `deleted`. The column `id` counts the rows of
a table from 1 in the order of their insertion.

* `failoverSegmentCreate`, `failoverSegmentUpdate`, `failoverSegmentDelete`;
* `isFailoverSegmentUnderRecovery`;
* `hostCreate`, `hostSave`, `hostDelete`, `hostGetByUuidUnder`;
* `notificationCreate`.

`liveSegment_*` and `liveHost_*` say what each write leaves live.
-/

namespace MasakariHA

open Lib

/-! ## Segments -/

def Db.liveSegment (db : Db) (uuid : String) : Option FailoverSegment :=
  (db.segments.get? uuid).filter (fun s => s.deleted = 0)

def failoverSegmentNotFound (uuid : String) : Exc :=
  Exc.raised .failoverSegmentNotFound s!"No failover segment with id {uuid}."

def failoverSegmentExists (name : String) : Exc :=
  Exc.raised .failoverSegmentExists s!"Failover segment with name {name} already exists."

def failoverSegmentGetByUuid (uuid : String) : Query FailoverSegment := fun db =>
  match db.liveSegment uuid with
  | some s => .ok (s, db)
  | none => .error (failoverSegmentNotFound uuid)

/-- Another live row has the name (`uniq_segment0name0deleted`). -/
def Db.segmentNameTaken (db : Db) (uuid name : String) : Bool :=
  db.segments.rows.any fun s => s.deleted = 0 && s.name = name && s.uuid ≠ uuid

def failoverSegmentCreate (r : FailoverSegment) : Query FailoverSegment := fun db =>
  if db.segmentNameTaken r.uuid r.name then .error (failoverSegmentExists r.name)
  else
    match db.segments.insert r with
    | none => .error (failoverSegmentExists r.name)
    | some segments => .ok (r, { db with segments })

/-- The columns that `update_segment` changes; an absent one is kept. -/
structure SegmentValues where
  name : Option String := none
  recoveryMethod : Option RecoveryMethod := none

def SegmentValues.apply (v : SegmentValues) (s : FailoverSegment) : FailoverSegment :=
  { s with
    name := v.name.getD s.name
    recoveryMethod := v.recoveryMethod.getD s.recoveryMethod }

theorem SegmentValues.uuid_apply (v : SegmentValues) (s : FailoverSegment) :
    (v.apply s).uuid = s.uuid := rfl

def Db.setSegment (db : Db) (uuid : String) (v : SegmentValues) : Db :=
  { db with segments := db.segments.modify uuid v.apply v.uuid_apply }

def failoverSegmentUpdate (uuid : String) (v : SegmentValues) : Query FailoverSegment := fun db =>
  match db.liveSegment uuid with
  | none => .error (failoverSegmentNotFound uuid)
  | some s =>
    if db.segmentNameTaken uuid (v.apply s).name then
      .error (failoverSegmentExists (v.name.getD "None"))
    else .ok (v.apply s, db.setSegment uuid v)

/-- The `id` of the row with the uuid. -/
def Db.segmentId (db : Db) (uuid : String) : Nat :=
  db.segments.rows.findIdx (·.uuid = uuid) + 1

/-- The second statement of `failover_segment_delete` on a row. -/
def Host.deleteUnder (segmentUuid : String) (h : Host) : Host :=
  if h.deleted = 0 ∧ h.failoverSegmentId = segmentUuid then { h with deleted := h.id } else h

theorem Host.uuid_deleteUnder (segmentUuid : String) (h : Host) :
    (h.deleteUnder segmentUuid).uuid = h.uuid := by
  unfold Host.deleteUnder
  split <;> rfl

/-- The segment and its live hosts soft-deleted. -/
def Db.deleteSegment (db : Db) (uuid : String) : Db :=
  { db with
    segments := db.segments.modify uuid (fun s => { s with deleted := db.segmentId uuid })
      fun _ => rfl
    hosts := db.hosts.mapRows (Host.deleteUnder uuid) (Host.uuid_deleteUnder uuid) }

def failoverSegmentDelete (uuid : String) : Query Unit := fun db =>
  match db.liveSegment uuid with
  | none => .error (failoverSegmentNotFound uuid)
  | some _ => .ok ((), db.deleteSegment uuid)

section Segments

variable {db : Db} {uuid uuid' : String}

theorem liveSegment_eq_some {s : FailoverSegment} :
    db.liveSegment uuid = some s ↔ db.segments.get? uuid = some s ∧ s.deleted = 0 := by
  simp [Db.liveSegment, Option.filter_eq_some_iff]

theorem uuid_of_liveSegment {s : FailoverSegment} (h : db.liveSegment uuid = some s) :
    s.uuid = uuid :=
  Table.key_of_get? (liveSegment_eq_some.mp h).1

theorem liveSegment_insert {r : FailoverSegment} {t : Table FailoverSegment.uuid}
    (h : db.segments.insert r = some t) (hLive : r.deleted = 0) :
    ({ db with segments := t } : Db).liveSegment uuid =
      if uuid = r.uuid then some r else db.liveSegment uuid := by
  unfold Db.liveSegment
  dsimp only
  rw [Table.get?_insert h]
  split
  · simp [Option.filter, hLive]
  · rfl

theorem isSome_liveSegment_setSegment (db : Db) (uuid uuid' : String) (v : SegmentValues) :
    ((db.setSegment uuid v).liveSegment uuid').isSome = (db.liveSegment uuid').isSome := by
  simp only [Db.liveSegment, Db.setSegment, Table.get?_modify]
  split
  · cases db.segments.get? uuid' with
    | none => rfl
    | some s => by_cases hd : s.deleted = 0 <;> simp [Option.filter, SegmentValues.apply, hd]
  · rfl

theorem liveSegment_deleteSegment :
    (db.deleteSegment uuid).liveSegment uuid' =
      if uuid' = uuid then none else db.liveSegment uuid' := by
  simp only [Db.liveSegment, Db.deleteSegment, Table.get?_modify]
  split
  · cases db.segments.get? uuid' with
    | none => rfl
    | some s => simp [Option.filter, Db.segmentId]
  · rfl

end Segments

/-- `is_failover_segment_under_recovery` with `filters['status']`: a live host of the segment
is the source of a live notification in one of the statuses. -/
def isFailoverSegmentUnderRecovery (status : List NotificationStatus) (uuid : String) (db : Db) :
    Bool :=
  let hosts := (db.hosts.rows.filter fun h => h.deleted = 0 && h.failoverSegmentId = uuid).map
    (·.uuid)
  db.notifications.rows.any fun n =>
    n.deleted = 0 && n.status ∈ status && n.sourceHostUuid ∈ hosts

/-! ## Hosts -/

def hostExists (name : String) : Exc :=
  Exc.raised .hostExists s!"Host with name {name} already exists."

def hostNotFound (uuid : String) : Exc :=
  Exc.raised .hostNotFound s!"No host with id {uuid}."

/-- Another live row has the name (`uniq_host0name0deleted`). -/
def Db.hostNameTaken (db : Db) (uuid name : String) : Bool :=
  db.hosts.rows.any fun h => h.deleted = 0 && h.name = name && h.uuid ≠ uuid

/-- `Host.create`: `host_create`, which numbers the row, and the object read back. The
segment's row may be soft-deleted: `fk_failover_segments_uuid` asks for a row only. -/
def hostCreate (values : Host) : Query HostObject := fun db =>
  let r := { values with id := db.hosts.rows.length + 1 }
  if db.hostNameTaken r.uuid r.name then .error (hostExists r.name)
  else if (db.segments.get? r.failoverSegmentId).isNone then .error (.other "DBReferenceError")
  else
    match db.hosts.insert r with
    | none => .error (hostExists r.name)
    | some hosts => (hostFromDbObject db r).map (·, { db with hosts })

/-- The columns of `update_host`; an absent one is kept. -/
structure HostColumns extends HostValues where
  name : Option String := none

def HostColumns.apply (v : HostColumns) (h : Host) : Host :=
  { v.toHostValues.apply h with name := v.name.getD h.name }

theorem HostColumns.uuid_apply (v : HostColumns) (h : Host) : (v.apply h).uuid = h.uuid := rfl

def Db.setHostColumns (db : Db) (uuid : String) (v : HostColumns) : Db :=
  { db with hosts := db.hosts.modify uuid v.apply v.uuid_apply }

/-- `Host.save` of `update_host`: `host_update` and the object read back. -/
def hostSave (uuid : String) (v : HostColumns) : Query HostObject := fun db =>
  match db.liveHost uuid with
  | none => .error (hostNotFound uuid)
  | some h =>
    if db.hostNameTaken uuid (v.apply h).name then .error (hostExists (v.name.getD "None"))
    else (hostFromDbObject db (v.apply h)).map (·, db.setHostColumns uuid v)

def Db.deleteHost (db : Db) (uuid : String) : Db :=
  { db with hosts := db.hosts.modify uuid (fun h => { h with deleted := h.id }) fun _ => rfl }

def hostDelete (uuid : String) : Query Unit := fun db =>
  match db.liveHost uuid with
  | none => .error (hostNotFound uuid)
  | some _ => .ok ((), db.deleteHost uuid)

section Hosts

variable {db : Db} {uuid uuid' : String}

theorem liveHost_of_mem {h : Host} (hMem : h ∈ db.hosts.rows) (hLive : h.deleted = 0) :
    db.liveHost h.uuid = some h :=
  liveHost_eq_some.mpr ⟨Table.mem_rows_iff.mp hMem, hLive⟩

theorem mem_of_liveHost {h : Host} (hLive : db.liveHost uuid = some h) : h ∈ db.hosts.rows :=
  Table.mem_of_get? (liveHost_eq_some.mp hLive).1

theorem isFailoverSegmentUnderRecovery_iff {status : List NotificationStatus} :
    isFailoverSegmentUnderRecovery status uuid db = true ↔
      ∃ n ∈ db.notifications.rows, n.deleted = 0 ∧ n.status ∈ status ∧
        ∃ h, db.liveHost n.sourceHostUuid = some h ∧ h.failoverSegmentId = uuid := by
  have hHosts : ∀ source, source ∈ (db.hosts.rows.filter fun h =>
      h.deleted = 0 && h.failoverSegmentId = uuid).map (·.uuid) ↔
      ∃ h, db.liveHost source = some h ∧ h.failoverSegmentId = uuid := by
    intro source
    constructor
    · intro hMem
      obtain ⟨h, hFilter, rfl⟩ := List.mem_map.mp hMem
      simp only [List.mem_filter, Bool.and_eq_true, decide_eq_true_eq] at hFilter
      exact ⟨h, liveHost_of_mem hFilter.1 hFilter.2.1, hFilter.2.2⟩
    · rintro ⟨h, hLive, hSegment⟩
      refine List.mem_map.mpr ⟨h, ?_, uuid_of_liveHost hLive⟩
      have hDeleted := (liveHost_eq_some.mp hLive).2
      simp [mem_of_liveHost hLive, hDeleted, hSegment]
  simp only [isFailoverSegmentUnderRecovery, List.any_eq_true, Bool.and_eq_true,
    decide_eq_true_eq, hHosts]
  constructor
  · rintro ⟨n, hMem, ⟨hDeleted, hStatus⟩, hSource⟩
    exact ⟨n, hMem, hDeleted, hStatus, hSource⟩
  · rintro ⟨n, hMem, hDeleted, hStatus, hSource⟩
    exact ⟨n, hMem, ⟨hDeleted, hStatus⟩, hSource⟩

theorem liveHost_insert {r : Host} {t : Table Host.uuid} (h : db.hosts.insert r = some t)
    (hLive : r.deleted = 0) (uuid : String) :
    ({ db with hosts := t } : Db).liveHost uuid =
      if uuid = r.uuid then some r else db.liveHost uuid := by
  unfold Db.liveHost
  dsimp only
  rw [Table.get?_insert h]
  split
  · simp [Option.filter, hLive]
  · rfl

theorem liveHost_setHostColumns (db : Db) (uuid uuid' : String) (v : HostColumns) :
    (db.setHostColumns uuid v).liveHost uuid' =
      if uuid' = uuid then (db.liveHost uuid').map v.apply else db.liveHost uuid' := by
  simp only [Db.liveHost, Db.setHostColumns, Table.get?_modify]
  split
  · cases db.hosts.get? uuid' with
    | none => rfl
    | some h =>
      by_cases hd : h.deleted = 0 <;> simp [Option.filter, HostColumns.apply, HostValues.apply, hd]
  · rfl

theorem liveHost_deleteHost (hId : ∀ h ∈ db.hosts.rows, 0 < h.id) (uuid uuid' : String) :
    (db.deleteHost uuid).liveHost uuid' = if uuid' = uuid then none else db.liveHost uuid' := by
  simp only [Db.liveHost, Db.deleteHost, Table.get?_modify]
  split
  · cases hGet : db.hosts.get? uuid' with
    | none => rfl
    | some h =>
      have hPos := hId h (Table.mem_of_get? hGet)
      have hNe : h.id ≠ 0 := by omega
      simp [Option.filter, hNe]
  · rfl

theorem liveHost_deleteSegment (hId : ∀ h ∈ db.hosts.rows, 0 < h.id) (uuid uuid' : String) :
    (db.deleteSegment uuid).liveHost uuid' =
      (db.liveHost uuid').filter fun h => h.failoverSegmentId ≠ uuid := by
  simp only [Db.liveHost, Db.deleteSegment, Table.get?_mapRows]
  cases hGet : db.hosts.get? uuid' with
  | none => rfl
  | some h =>
    have hPos := hId h (Table.mem_of_get? hGet)
    have hNe : h.id ≠ 0 := by omega
    by_cases hd : h.deleted = 0
    · by_cases hs : h.failoverSegmentId = uuid <;>
        simp [Option.filter, Host.deleteUnder, hd, hs, hNe]
    · simp [Option.filter, Host.deleteUnder, hd]

end Hosts

/-- `Host.get_by_uuid` with a segment; an empty `segment_uuid` does not filter. -/
def hostGetByUuidUnder (uuid segmentUuid : String) : Query HostObject := fun db =>
  if segmentUuid = "" then hostGetByUuid uuid db
  else
    match (db.liveHost uuid).filter (fun h => h.failoverSegmentId = segmentUuid) with
    | some h => (hostFromDbObject db h).map (·, db)
    | none =>
      .error (Exc.raised .hostNotFoundUnderFailoverSegment
        s!"Host '{uuid}' under failover_segment '{segmentUuid}' could not be found.")

/-! ## Notifications -/

def notificationCreate (r : Notification) : Query Notification := fun db =>
  match db.notifications.insert r with
  | none => .error (.other "DBDuplicateEntry")
  | some notifications => .ok (r, { db with notifications })

end MasakariHA
