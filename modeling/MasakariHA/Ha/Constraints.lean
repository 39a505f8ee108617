import MasakariHA.Ha.CreateNotificationRuns
import MasakariHA.Ha.Links
import MasakariHA.Lib.SoftDelete

/-!
# Constraints of the database

What holds of the tables in every state of the service, whatever its calls do to each other:
the constraints `uniq_segment0name0deleted` and `uniq_host0name0deleted`, the foreign key of a
host, and what no constraint says: the host of a notification has a row. No row is lost, and none
that is deleted comes back.

* `Consistent`: the constraints, with the marks of deleted rows;
* `Extends`: what a run leaves of the rows;
* `writes_*`: each write keeps the one and does the other;
* `consistent_of_reachable`, `extends_of_run`: runs of the service.
-/

namespace MasakariHA.Ha

open Lib

/-! ## Constraints -/

/-- The constraints that the tables are declared with, and what they rest on. -/
structure Consistent (db : Db) : Prop where
  segments : Marked FailoverSegment.name FailoverSegment.deleted db.segments.rows
  hosts : Marked Host.name Host.deleted db.hosts.rows
  ids : ∀ (i : ℕ) (h : Host), db.hosts.rows[i]? = some h → h.id = i + 1
  segmentOf : ∀ h ∈ db.hosts.rows, (db.segments.get? h.failoverSegmentId).isSome = true
  hostOf : ∀ n ∈ db.notifications.rows, (db.hosts.get? n.sourceHostUuid).isSome = true

/-- A segment later on; a deleted one is what it was. -/
structure SegmentKept (s s' : FailoverSegment) : Prop where
  uuid : s'.uuid = s.uuid
  deleted : s.deleted ≠ 0 → s' = s

/-- A host later on. -/
structure HostKept (h h' : Host) : Prop where
  id : h'.id = h.id
  createdAt : h'.createdAt = h.createdAt
  uuid : h'.uuid = h.uuid
  failoverSegmentId : h'.failoverSegmentId = h.failoverSegmentId
  deleted : h.deleted ≠ 0 → h' = h

/-- A notification later on: only the status changes, and never back to `new`. -/
structure NotificationKept (n n' : Notification) : Prop where
  row : n' = { n with status := n'.status }
  status : n'.status = .new → n.status = .new

/-- The rows are in their places, and there may be new ones behind them. -/
structure Extends (db db' : Db) : Prop where
  segments : Kept SegmentKept db.segments.rows db'.segments.rows
  hosts : Kept HostKept db.hosts.rows db'.hosts.rows
  notifications : Kept NotificationKept db.notifications.rows db'.notifications.rows

section Relations

variable {db db' db'' : Db} {uuid : String}

theorem segmentKept_refl (s : FailoverSegment) : SegmentKept s s := ⟨rfl, fun _ => rfl⟩

theorem hostKept_refl (h : Host) : HostKept h h := ⟨rfl, rfl, rfl, rfl, fun _ => rfl⟩

theorem notificationKept_refl (n : Notification) : NotificationKept n n := ⟨rfl, id⟩

theorem segmentKept_trans (s s' s'' : FailoverSegment) (h : SegmentKept s s')
    (h' : SegmentKept s' s'') : SegmentKept s s'' := by
  refine ⟨h'.uuid.trans h.uuid, fun hDeleted => ?_⟩
  have hSame := h.deleted hDeleted
  rw [h'.deleted (hSame ▸ hDeleted), hSame]

theorem hostKept_trans (r r' r'' : Host) (h : HostKept r r') (h' : HostKept r' r'') :
    HostKept r r'' := by
  refine ⟨h'.id.trans h.id, h'.createdAt.trans h.createdAt, h'.uuid.trans h.uuid,
    h'.failoverSegmentId.trans h.failoverSegmentId, fun hDeleted => ?_⟩
  have hSame := h.deleted hDeleted
  rw [h'.deleted (hSame ▸ hDeleted), hSame]

theorem notificationKept_trans (n n' n'' : Notification) (h : NotificationKept n n')
    (h' : NotificationKept n' n'') : NotificationKept n n'' := by
  refine ⟨?_, fun hNew => h.status (h'.status hNew)⟩
  rw [h'.row, h.row]

theorem extends_refl (db : Db) : Extends db db :=
  ⟨kept_refl segmentKept_refl _, kept_refl hostKept_refl _, kept_refl notificationKept_refl _⟩

theorem extends_trans (h : Extends db db') (h' : Extends db' db'') : Extends db db'' :=
  ⟨kept_trans segmentKept_trans h.segments h'.segments, kept_trans hostKept_trans h.hosts h'.hosts,
    kept_trans notificationKept_trans h.notifications h'.notifications⟩

theorem Extends.segment (h : Extends db db') (hSome : (db.segments.get? uuid).isSome = true) :
    (db'.segments.get? uuid).isSome = true :=
  isSome_get?_of_kept h.segments (fun _ _ hKept => hKept.uuid) hSome

theorem Extends.host (h : Extends db db') (hSome : (db.hosts.get? uuid).isSome = true) :
    (db'.hosts.get? uuid).isSome = true :=
  isSome_get?_of_kept h.hosts (fun _ _ hKept => hKept.uuid) hSome

/-- A host is found by its name among the live ones alone. -/
theorem Consistent.name_unique (h : Consistent db) : ∀ r ∈ db.hosts.rows, ∀ r' ∈ db.hosts.rows,
    r.deleted = 0 → r'.deleted = 0 → r.name = r'.name → r = r' := by
  intro r hr r' hr' hLive hLive' hName
  obtain ⟨i, hi⟩ := List.mem_iff_getElem?.mp hr
  obtain ⟨j, hj⟩ := List.mem_iff_getElem?.mp hr'
  obtain rfl := h.hosts.names i j r r' hi hj hLive hLive' hName
  exact Option.some.inj (hi.symm.trans hj)

end Relations

/-! ## Writes -/

/-- A write that loses nothing and keeps the constraints. -/
structure Writes (db db' : Db) : Prop where
  kept : Extends db db'
  consistent : Consistent db → Consistent db'

section Writes

variable {db db' : Db} {uuid : String}

/-- A write to the segments. -/
theorem writes_segments {segments : Table FailoverSegment.uuid}
    (hKept : Kept SegmentKept db.segments.rows segments.rows)
    (hMarked : Consistent db → Marked FailoverSegment.name FailoverSegment.deleted segments.rows) :
    Writes db { db with segments } := by
  have hExtends : Extends db { db with segments } :=
    ⟨hKept, kept_refl hostKept_refl _, kept_refl notificationKept_refl _⟩
  refine ⟨hExtends, fun h => ⟨hMarked h, h.hosts, h.ids, fun host hMem => ?_, h.hostOf⟩⟩
  exact hExtends.segment (h.segmentOf host hMem)

/-- A write to the rows of the hosts. -/
theorem writes_hosts {hosts : Table Host.uuid} {f : Host → Host}
    (hRows : hosts.rows = db.hosts.rows.map f) (hf : ∀ r ∈ db.hosts.rows, HostKept r (f r))
    (hMarked : Consistent db → Marked Host.name Host.deleted hosts.rows) :
    Writes db { db with hosts } := by
  have hKept : Kept HostKept db.hosts.rows hosts.rows := hRows ▸ kept_map hf
  have hExtends : Extends db { db with hosts } :=
    ⟨kept_refl segmentKept_refl _, hKept, kept_refl notificationKept_refl _⟩
  refine ⟨hExtends, fun h => ⟨h.segments, hMarked h, fun i r' hr' => ?_, fun r' hMem => ?_,
    fun n hMem => hExtends.host (h.hostOf n hMem)⟩⟩
  · dsimp only at hr'
    rw [hRows, List.getElem?_map, Option.map_eq_some_iff] at hr'
    obtain ⟨r, hr, rfl⟩ := hr'
    rw [(hf r (List.mem_of_getElem? hr)).id]
    exact h.ids i r hr
  · dsimp only at hMem
    rw [hRows] at hMem
    obtain ⟨r, hr, rfl⟩ := List.mem_map.mp hMem
    rw [(hf r hr).failoverSegmentId]
    exact h.segmentOf r hr

theorem writes_failoverSegmentCreate {r r' : FailoverSegment} (hLive : r.deleted = 0)
    (hq : failoverSegmentCreate r db = .ok (r', db')) : Writes db db' := by
  unfold failoverSegmentCreate at hq
  split at hq
  · cases hq
  · rename_i hFree
    split at hq
    · cases hq
    · rename_i segments hInsert
      cases hq
      have hRows := Table.rows_insert hInsert
      refine writes_segments (hRows ▸ kept_append segmentKept_refl _ _) fun h => ?_
      rw [hRows]
      refine marked_append h.segments hLive fun s hMem hDeleted hName => hFree ?_
      refine List.any_eq_true.mpr ⟨s, hMem, ?_⟩
      have hAbsent := Table.insert_isSome_iff.mp (Option.isSome_of_eq_some hInsert)
      have hNew : s.uuid ≠ r.uuid := Table.get?_eq_none_iff.mp hAbsent s hMem
      simp [hDeleted, hName, hNew]

theorem writes_failoverSegmentUpdate {r' : FailoverSegment} {v : SegmentValues}
    (hq : failoverSegmentUpdate uuid v db = .ok (r', db')) : Writes db db' := by
  unfold failoverSegmentUpdate at hq
  split at hq
  · cases hq
  · rename_i s hLive
    obtain ⟨hGet, hDeleted⟩ := liveSegment_eq_some.mp hLive
    split at hq
    · cases hq
    · rename_i hFree
      cases hq
      refine writes_segments (kept_map fun row hMem => ?_) fun h => ?_
      · split
        · rename_i hKey
          refine ⟨rfl, fun hNot => absurd ?_ hNot⟩
          rw [Table.eq_of_key hMem hKey hGet]
          exact hDeleted
        · exact segmentKept_refl row
      · refine marked_modify h.segments (fun _ => rfl) fun row hRow s' hMem hLive' hName => ?_
        cases hGet.symm.trans hRow
        by_contra hOther
        refine hFree (List.any_eq_true.mpr ⟨s', hMem, ?_⟩)
        simp [hLive', hName, hOther]

theorem writes_trans {db'' : Db} (h : Writes db db') (h' : Writes db' db'') : Writes db db'' :=
  ⟨extends_trans h.kept h'.kept, fun hConsistent => h'.consistent (h.consistent hConsistent)⟩

theorem hostKept_deleteUnder (segmentUuid : String) (r : Host) :
    HostKept r (r.deleteUnder segmentUuid) := by
  unfold Host.deleteUnder
  split
  · rename_i hLive
    exact ⟨rfl, rfl, rfl, rfl, fun hNot => absurd hLive.1 hNot⟩
  · exact hostKept_refl r

/-- A segment is marked with its number, and each live host in it with its own. -/
theorem writes_failoverSegmentDelete {u : Unit}
    (hq : failoverSegmentDelete uuid db = .ok (u, db')) : Writes db db' := by
  unfold failoverSegmentDelete at hq
  split at hq
  · cases hq
  · rename_i s hLive
    obtain ⟨hGet, hDeleted⟩ := liveSegment_eq_some.mp hLive
    cases hq
    have hSegments : Writes db { db with segments := (db.deleteSegment uuid).segments } := by
      refine writes_segments (kept_map fun row hMem => ?_) fun h => ?_
      · split
        · rename_i hKey
          refine ⟨rfl, fun hNot => absurd ?_ hNot⟩
          rw [Table.eq_of_key hMem hKey hGet]
          exact hDeleted
        · exact segmentKept_refl row
      · refine marked_map h.segments fun i row hRow => ?_
        split
        · rename_i hKey
          left
          show db.segments.rows.findIdx (fun r => decide (r.uuid = uuid)) + 1 = i + 1
          rw [← hKey, findIdx_key hRow]
        · exact Or.inr ⟨rfl, rfl⟩
    have hHosts : Writes { db with segments := (db.deleteSegment uuid).segments }
        (db.deleteSegment uuid) := by
      refine writes_hosts rfl (fun r _ => hostKept_deleteUnder uuid r) fun h => ?_
      refine marked_map h.hosts fun i r hr => ?_
      unfold Host.deleteUnder
      split
      · exact Or.inl (h.ids i r hr)
      · exact Or.inr ⟨rfl, rfl⟩
    exact writes_trans hSegments hHosts

theorem writes_hostCreate {values : Host} {o : HostObject} (hLive : values.deleted = 0)
    (hq : hostCreate values db = .ok (o, db')) : Writes db db' := by
  obtain ⟨hosts, hInsert, rfl⟩ := insert_of_hostCreate hq
  unfold hostCreate at hq
  dsimp only at hq
  split at hq
  · cases hq
  · rename_i hFree
    split at hq
    · cases hq
    · rename_i hSegment
      have hRows := Table.rows_insert hInsert
      have hKept : Kept HostKept db.hosts.rows hosts.rows :=
        hRows ▸ kept_append hostKept_refl _ _
      have hExtends : Extends db { db with hosts } :=
        ⟨kept_refl segmentKept_refl _, hKept, kept_refl notificationKept_refl _⟩
      refine ⟨hExtends, fun h => ⟨h.segments, ?_, fun i r hr => ?_, fun r hMem => ?_,
        fun n hMem => hExtends.host (h.hostOf n hMem)⟩⟩
      · dsimp only
        rw [hRows]
        refine marked_append h.hosts hLive fun r hMem hDeleted hName => hFree ?_
        refine List.any_eq_true.mpr ⟨r, hMem, ?_⟩
        have hAbsent := Table.insert_isSome_iff.mp (Option.isSome_of_eq_some hInsert)
        have hNew : r.uuid ≠ values.uuid := Table.get?_eq_none_iff.mp hAbsent r hMem
        simp [hDeleted, hName, hNew]
      · dsimp only at hr
        rw [hRows] at hr
        by_cases hOld : i < db.hosts.rows.length
        · rw [List.getElem?_append_left hOld] at hr
          exact h.ids i r hr
        · rw [List.getElem?_append_right (by omega), List.getElem?_singleton] at hr
          split at hr
          · cases hr
            dsimp only
            omega
          · cases hr
      · dsimp only at hMem
        rw [hRows] at hMem
        rcases List.mem_append.mp hMem with hOld | hNew
        · exact h.segmentOf r hOld
        · cases List.mem_singleton.mp hNew
          rw [Option.isNone_iff_eq_none] at hSegment
          exact Option.isSome_iff_ne_none.mpr hSegment

theorem writes_hostSave {o : HostObject} {v : HostColumns}
    (hq : hostSave uuid v db = .ok (o, db')) : Writes db db' := by
  obtain rfl := eq_of_hostSave hq
  unfold hostSave at hq
  split at hq
  · cases hq
  · rename_i h hLive
    obtain ⟨hGet, hDeleted⟩ := liveHost_eq_some.mp hLive
    split at hq
    · cases hq
    · rename_i hFree
      refine writes_hosts rfl (fun r hMem => ?_) fun hConsistent => ?_
      · split
        · rename_i hKey
          refine ⟨rfl, rfl, rfl, rfl, fun hNot => absurd ?_ hNot⟩
          rw [Table.eq_of_key hMem hKey hGet]
          exact hDeleted
        · exact hostKept_refl r
      · refine marked_modify hConsistent.hosts (fun _ => rfl) fun row hRow r hMem hLive' hName => ?_
        cases hGet.symm.trans hRow
        by_contra hOther
        refine hFree (List.any_eq_true.mpr ⟨r, hMem, ?_⟩)
        simp [hLive', hName, hOther]

theorem writes_hostDelete {u : Unit} (hq : hostDelete uuid db = .ok (u, db')) : Writes db db' := by
  unfold hostDelete at hq
  split at hq
  · cases hq
  · rename_i h hLive
    obtain ⟨hGet, hDeleted⟩ := liveHost_eq_some.mp hLive
    cases hq
    refine writes_hosts rfl (fun r hMem => ?_) fun hConsistent => ?_
    · split
      · rename_i hKey
        refine ⟨rfl, rfl, rfl, rfl, fun hNot => absurd ?_ hNot⟩
        rw [Table.eq_of_key hMem hKey hGet]
        exact hDeleted
      · exact hostKept_refl r
    · refine marked_map hConsistent.hosts fun i r hr => ?_
      split
      · exact Or.inl (hConsistent.ids i r hr)
      · exact Or.inr ⟨rfl, rfl⟩

theorem writes_notificationCreate {r r' : Notification}
    (hSource : (db.hosts.get? r.sourceHostUuid).isSome = true)
    (hq : notificationCreate r db = .ok (r', db')) : Writes db db' := by
  unfold notificationCreate at hq
  split at hq
  · cases hq
  · rename_i notifications hInsert
    cases hq
    have hRows := Table.rows_insert hInsert
    have hKept : Kept NotificationKept db.notifications.rows notifications.rows :=
      hRows ▸ kept_append notificationKept_refl _ _
    refine ⟨⟨kept_refl segmentKept_refl _, kept_refl hostKept_refl _, hKept⟩, fun h => ?_⟩
    refine ⟨h.segments, h.hosts, h.ids, h.segmentOf, fun n hMem => ?_⟩
    dsimp only at hMem
    rw [hRows] at hMem
    rcases List.mem_append.mp hMem with hOld | hNew
    · exact h.hostOf n hOld
    · cases List.mem_singleton.mp hNew
      exact hSource

/-- No engine stores `new`. -/
theorem writes_notificationUpdate {status : NotificationStatus} {r : Notification}
    (hStatus : status ≠ .new) (hq : notificationUpdate uuid status db = .ok (r, db')) :
    Writes db db' := by
  unfold notificationUpdate at hq
  split at hq
  · cases hq
    have hKept : Kept NotificationKept db.notifications.rows
        (db.setStatus uuid status).notifications.rows := by
      refine kept_map fun n _ => ?_
      split
      · exact ⟨rfl, fun hNew => absurd hNew hStatus⟩
      · exact notificationKept_refl n
    refine ⟨⟨kept_refl segmentKept_refl _, kept_refl hostKept_refl _, hKept⟩, fun h => ?_⟩
    refine ⟨h.segments, h.hosts, h.ids, h.segmentOf, fun n hMem => ?_⟩
    obtain ⟨n', hMem', rfl⟩ := List.mem_map.mp hMem
    split
    · exact h.hostOf n' hMem'
    · exact h.hostOf n' hMem'
  · cases hq

end Writes

/-! ## Calls -/

/-- The draft that a call has made. -/
def Call.draft? : Call → Option Draft
  | .createNotificationPopulated _ d | .createNotificationChecked d => some d
  | _ => none

/-- The draft names a host that has a row. -/
def Call.Grounded (db : Db) (c : Call) : Prop :=
  ∀ d, c.draft? = some d → (db.hosts.get? d.sourceHostUuid).isSome = true

section Calls

variable {interval : Nat} {g : Generated} {db db' : Db} {c c' : Call}

/-- What a transaction of a call does to the database and to its draft. -/
structure Proceeds (db : Db) (c' : Call) (db' : Db) : Prop where
  writes : Writes db db'
  grounded : c'.Grounded db'

theorem writes_refl (db : Db) : Writes db db := ⟨extends_refl db, id⟩

theorem grounded_of_none (h : c.draft? = none) : c.Grounded db := by
  intro d hd
  rw [h] at hd
  cases hd

theorem grounded_mono (h : Extends db db') (hGrounded : c.Grounded db) : c.Grounded db' :=
  fun d hd => h.host (hGrounded d hd)

/-- A transaction that reads, or raises. -/
theorem proceeds_read {α : Type} {x : Except Exc (α × Db)} {proceed : α → Call}
    (hRead : ∀ a db', x = .ok (a, db') → db' = db) (hDraft : ∀ a, (proceed a).draft? = none)
    (hs : some (after db x proceed) = some (c', db')) : Proceeds db c' db' := by
  cases x with
  | error e =>
    cases hs
    exact ⟨writes_refl db, grounded_of_none rfl⟩
  | ok p =>
    cases hs
    have hSame := hRead p.1 p.2 rfl
    rw [hSame]
    exact ⟨writes_refl db, grounded_of_none (hDraft p.1)⟩

/-- A transaction that writes, or raises. -/
theorem proceeds_write {α : Type} {x : Except Exc (α × Db)}
    (hOk : ∀ a db', x = .ok (a, db') → Writes db db')
    (hs : some (after db x fun _ => .returned) = some (c', db')) : Proceeds db c' db' := by
  cases x with
  | error e =>
    cases hs
    exact ⟨writes_refl db, grounded_of_none rfl⟩
  | ok p =>
    cases hs
    exact ⟨hOk p.1 p.2 rfl, grounded_of_none rfl⟩

theorem isSome_of_populate {r : Request} {d : Draft} (h : populate r db = .ok (d, db')) :
    (db.hosts.get? d.sourceHostUuid).isSome = true := by
  unfold populate hostGetByName at h
  cases hFind : db.hosts.rows.find? fun row => row.deleted = 0 ∧ row.name = r.hostname with
  | none =>
    rw [hFind] at h
    cases h
  | some host =>
    rw [hFind] at h
    rcases hostFromDbObject_cases db host with ⟨segment, hOk⟩ | hError
    · dsimp only at h
      rw [hOk] at h
      simp only [Except.map] at h
      split at h
      · cases h
      · cases h
        rw [Table.mem_rows_iff.mp (List.mem_of_find?_eq_some hFind)]
        rfl
    · dsimp only at h
      rw [hError] at h
      cases h

/-- A draft is of a host that has just been read. -/
theorem proceeds_createNotification {r : Request}
    (hs : Call.step interval g db (.createNotification r) = some (c', db')) :
    Proceeds db c' db' := by
  simp only [Call.step] at hs
  cases hPopulate : populate r db with
  | error e =>
    rw [hPopulate] at hs
    cases hs
    exact ⟨writes_refl db, grounded_of_none rfl⟩
  | ok p =>
    obtain ⟨d, db₁⟩ := p
    have hSame := populate_reads d db₁ hPopulate
    rw [hPopulate, hSame] at hs
    cases hs
    refine ⟨writes_refl db, fun d' hd' => ?_⟩
    cases hd'
    exact isSome_of_populate hPopulate

/-- One case for each stage of a call. -/
theorem proceeds_step (hGrounded : c.Grounded db) (hs : c.step interval g db = some (c', db')) :
    Proceeds db c' db' := by
  cases c with
  | createSegment d =>
    exact proceeds_write (fun a db' hq => writes_failoverSegmentCreate rfl hq) hs
  | updateSegment uuid v => exact proceeds_read failoverSegmentGetByUuid_reads (fun _ => rfl) hs
  | updateSegmentFound s v =>
    exact proceeds_read underRecovery_reads (fun inUse => by cases inUse <;> rfl) hs
  | updateSegmentChecked s v =>
    exact proceeds_write (fun a db' hq => writes_failoverSegmentUpdate hq) hs
  | deleteSegment uuid => exact proceeds_read failoverSegmentGetByUuid_reads (fun _ => rfl) hs
  | deleteSegmentFound s =>
    exact proceeds_read underRecovery_reads (fun inUse => by cases inUse <;> rfl) hs
  | deleteSegmentChecked s =>
    exact proceeds_write (fun a db' hq => writes_failoverSegmentDelete hq) hs
  | createHost segmentUuid d =>
    exact proceeds_read failoverSegmentGetByUuid_reads (fun _ => rfl) hs
  | createHostFound s d =>
    simp only [Call.step] at hs
    cases hRow : d.row s.uuid g.uuid g.createdAt with
    | error e =>
      rw [hRow] at hs
      cases hs
      exact ⟨writes_refl db, grounded_of_none rfl⟩
    | ok row =>
      rw [hRow] at hs
      exact proceeds_write (fun a db' hq => writes_hostCreate (row_of_newHostData hRow).2 hq) hs
  | updateHost segmentUuid id d =>
    exact proceeds_read failoverSegmentGetByUuid_reads (fun _ => rfl) hs
  | updateHostSegment s id d => exact proceeds_read hostGetByUuid_reads (fun _ => rfl) hs
  | updateHostFound s host d =>
    exact proceeds_read underRecovery_reads (fun inUse => by cases inUse <;> rfl) hs
  | updateHostChecked host d =>
    simp only [Call.step] at hs
    cases hColumns : d.columns with
    | error e =>
      rw [hColumns] at hs
      cases hs
      exact ⟨writes_refl db, grounded_of_none rfl⟩
    | ok v =>
      rw [hColumns] at hs
      exact proceeds_write (fun a db' hq => writes_hostSave hq) hs
  | deleteHost segmentUuid id =>
    exact proceeds_read failoverSegmentGetByUuid_reads (fun _ => rfl) hs
  | deleteHostSegment s segmentUuid id =>
    exact proceeds_read hostGetByUuidUnder_reads (fun _ => rfl) hs
  | deleteHostFound s host =>
    exact proceeds_read underRecovery_reads (fun inUse => by cases inUse <;> rfl) hs
  | deleteHostChecked host => exact proceeds_write (fun a db' hq => writes_hostDelete hq) hs
  | createNotification r => exact proceeds_createNotification hs
  | createNotificationPopulated r d =>
    simp only [Call.step] at hs
    split at hs
    · cases hs
      exact ⟨writes_refl db, grounded_of_none rfl⟩
    · cases hs
      exact ⟨writes_refl db, hGrounded⟩
  | createNotificationChecked d =>
    exact proceeds_write (fun a db' hq => writes_notificationCreate (hGrounded d rfl) hq) hs
  | returned => cases hs
  | raised e => cases hs

end Calls

/-! ## Runs -/

section Runs

variable {K : Type} [DecidableEq K] {interval : Nat} {s s' : Service K} {db : Db} {c : Call}

/-- Every call's draft names a host that has a row. -/
def Service.Grounded (s : Service K) : Prop := ∀ k, (s.calls k).Grounded s.db

theorem writes_step {m : Move K} (hGrounded : s.Grounded) (hs : s.step interval m = some s') :
    Writes s.db s'.db ∧ s'.Grounded := by
  cases m with
  | call k g =>
    simp only [Service.step] at hs
    cases hStep : (s.calls k).step interval g s.db with
    | none =>
      rw [hStep] at hs
      cases hs
    | some p =>
      obtain ⟨c', db'⟩ := p
      rw [hStep] at hs
      cases hs
      obtain ⟨hWrites, hNext⟩ := proceeds_step (hGrounded k) hStep
      refine ⟨hWrites, fun k' => ?_⟩
      dsimp only
      by_cases hSame : k' = k
      · subst hSame
        rw [Function.update_self]
        exact hNext
      · rw [Function.update_of_ne hSame]
        exact grounded_mono hWrites.kept (hGrounded k')
  | engine uuid status =>
    simp only [Service.step] at hs
    split at hs
    · cases hs
    · rename_i hStatus
      cases hUpdate : notificationUpdate uuid status s.db with
      | error e =>
        rw [hUpdate] at hs
        cases hs
      | ok p =>
        rw [hUpdate] at hs
        cases hs
        have hWrites := writes_notificationUpdate hStatus hUpdate
        exact ⟨hWrites, fun k => grounded_mono hWrites.kept (hGrounded k)⟩

/-- A run, from its first state: nothing is lost, and the constraints are kept. -/
theorem writes_run (hGrounded : s.Grounded)
    (h : Relation.ReflTransGen ((service interval).StepIf fun _ _ => True) s s') :
    Writes s.db s'.db ∧ s'.Grounded := by
  induction h with
  | refl => exact ⟨writes_refl s.db, hGrounded⟩
  | tail _ hStep ih =>
    obtain ⟨m, -, hs⟩ := hStep
    obtain ⟨hWrites, hNext⟩ := writes_step ih.2 hs
    exact ⟨writes_trans ih.1 hWrites, hNext⟩

theorem grounded_of_received (h : c.received = true) : c.Grounded db := by
  apply grounded_of_none
  cases c with
  | createNotificationPopulated r d => cases h
  | createNotificationChecked d => cases h
  | _ => rfl

theorem consistent_empty : Consistent ⟨.empty, .empty, .empty⟩ := by
  refine ⟨marked_nil, marked_nil, fun i r hr => ?_, List.forall_mem_nil _, List.forall_mem_nil _⟩
  rw [show (Db.mk .empty .empty .empty).hosts.rows = [] from rfl, List.getElem?_nil] at hr
  cases hr

/-- The invariant of the service. -/
theorem invariant_of_reachable (h : (service interval).Reachable s) :
    Consistent s.db ∧ s.Grounded := by
  obtain ⟨s₀, h₀, hRun⟩ := h
  obtain ⟨hWrites, hGrounded⟩ := writes_run (fun k => grounded_of_received (h₀.2 k)) hRun
  refine ⟨hWrites.consistent ?_, hGrounded⟩
  rw [h₀.1]
  exact consistent_empty

/-- Whatever the calls do to each other, the constraints hold in every state of the service, and a
request for a notification finds what it needs of them. -/
theorem consistent_of_reachable (h : (service interval).Reachable s) :
    Consistent s.db ∧ (∃ c : CreateNotification.Content, c.db = s.db) ∧
      ∀ (i j : ℕ) (r r' : Host), s.db.hosts.rows[i]? = some r → s.db.hosts.rows[j]? = some r' →
        r.name = r'.name → r.deleted = r'.deleted → i = j := by
  have hConsistent := (invariant_of_reachable h).1
  exact ⟨hConsistent, ⟨⟨s.db, hConsistent.segmentOf, hConsistent.name_unique⟩, rfl⟩,
    fun i j r r' hr hr' hName hDeleted => hConsistent.hosts.unique hr hr' hName hDeleted⟩

/-- The host is deleted before its notification is inserted. -/
theorem consistent_of_reachable_deleted : ∃ s : Service (Fin 4),
    (s.db.hosts.rows.any (fun h => h.deleted = 1) &&
      s.db.notifications.rows.any (fun n => n.sourceHostUuid = "host-n")) = true ∧
      Consistent s.db := by
  obtain ⟨s, hReach, hs⟩ := Trans.exists_reachable_of_runIf (T := service 180) (s := reporting)
    [.call 0 ⟨"segment-n", 1⟩, .call 1 ⟨"", 2⟩, .call 1 ⟨"host-n", 2⟩, .call 2 ⟨"", 3⟩,
      .call 2 ⟨"", 3⟩, .call 3 ⟨"", 4⟩, .call 3 ⟨"", 4⟩, .call 3 ⟨"", 4⟩, .call 3 ⟨"", 4⟩,
      .call 2 ⟨"note-n", 5⟩]
    (fun s => s.db.hosts.rows.any (fun h => h.deleted = 1) &&
      s.db.notifications.rows.any (fun n => n.sourceHostUuid = "host-n"))
    ⟨rfl, received_deletedWhileReporting⟩ (by decide)
  exact ⟨s, hs, (consistent_of_reachable hReach).1⟩

/-- From any state of the service on, no row is lost, none that is deleted changes again, and no
notification is `new` again. -/
theorem extends_of_run (h : (service interval).Reachable s)
    (hRun : Relation.ReflTransGen ((service interval).StepIf fun _ _ => True) s s') :
    Extends s.db s'.db :=
  (writes_run (invariant_of_reachable h).2 hRun).1.kept

/-- The insertion of the notification, from a state in which its host is deleted. -/
theorem extends_of_run_deleted : ∃ s s' : Service (Fin 4),
    s.db.hosts.rows.any (fun h => h.deleted = 1) = true ∧ s'.db.notifications.rows ≠ [] ∧
      Extends s.db s'.db := by
  obtain ⟨s, hReach, hs⟩ := Trans.exists_reachable_of_runIf (T := service 180) (s := reporting)
    [.call 0 ⟨"segment-n", 1⟩, .call 1 ⟨"", 2⟩, .call 1 ⟨"host-n", 2⟩, .call 2 ⟨"", 3⟩,
      .call 2 ⟨"", 3⟩, .call 3 ⟨"", 4⟩, .call 3 ⟨"", 4⟩, .call 3 ⟨"", 4⟩, .call 3 ⟨"", 4⟩]
    (fun s => s.db.hosts.rows.any (fun h => h.deleted = 1) &&
      ((service 180).step s (.call 2 ⟨"note-n", 5⟩)).any
        (fun s' => !s'.db.notifications.rows.isEmpty))
    ⟨rfl, received_deletedWhileReporting⟩ (by decide)
  obtain ⟨hDeleted, hAny⟩ := Bool.and_eq_true_iff.mp hs
  cases hStep : (service 180).step s (.call 2 ⟨"note-n", 5⟩) with
  | none =>
    rw [hStep] at hAny
    cases hAny
  | some s' =>
    rw [hStep] at hAny
    refine ⟨s, s', hDeleted, fun hNil => ?_, extends_of_run hReach (.single ⟨_, trivial, hStep⟩)⟩
    simp only [Option.any_some, hNil, List.isEmpty_nil] at hAny
    cases hAny

end Runs

end MasakariHA.Ha
