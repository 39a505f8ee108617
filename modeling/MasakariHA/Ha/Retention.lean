import MasakariHA.Db.Purge
import MasakariHA.Lib.Trans
import MasakariHA.Ha.SegmentsHosts

/-!
# Deletion times and the purge

The segment and host API with a clock. `soft_delete` reads the clock for each statement, so
`failover_segment_delete` stamps a segment and then, with a second reading, its hosts. The
purge compares the two stamps with one time.

* `Operation`, `retention`: operations that run alone, at readings that do not decrease;
* `Stamped`: what the stamps say about the rows, with `stamped_step`;
* `keepsForeignKey_iff_spared`: which purges keep the foreign key of the hosts.
-/

namespace MasakariHA.Ha

open Lib

/-! ## Operations with a clock -/

/-- An operation with the readings of the clock that it stores in `deleted_at`; or whatever
else happens, which may write the table of notifications. -/
inductive Operation where
  | createSegment (d : SegmentData) (uuid : String)
  | updateSegment (uuid : String) (v : SegmentValues)
  | deleteSegment (uuid : String) (segmentAt hostsAt : Int)
  | createHost (segmentUuid : String) (d : NewHostData) (uuid : String) (createdAt : Int)
  | updateHost (segmentUuid id : String) (d : HostData)
  | deleteHost (segmentUuid id : String) (hostAt : Int)
  | other (notifications : Table Notification.notificationUuid) (updatedAt : String → Option Int)

/-- The operation runs from its first to its last transaction; `stamp` adds the times that it
stored, unless it raised. -/
def runAlone {α : Type} (s : Dated) (op : DbM α) (stamp : Dated → Dated) : Dated :=
  match op.run s.db with
  | .ok _ db => stamp { s with db }
  | .error _ db => { s with db }

/-- The stamps of `failover_segment_delete`, whose second statement takes the hosts that were
live. -/
def stampSegment (db : Db) (uuid : String) (segmentAt hostsAt : Int) (s : Dated) : Dated :=
  { s with
    segmentDeletedAt := Function.update s.segmentDeletedAt uuid (some segmentAt)
    hostDeletedAt := fun host =>
      if (db.liveHost host).any (·.failoverSegmentId = uuid) then some hostsAt
      else s.hostDeletedAt host
    now := hostsAt }

def stampHost (uuid : String) (hostAt : Int) (s : Dated) : Dated :=
  { s with hostDeletedAt := Function.update s.hostDeletedAt uuid (some hostAt), now := hostAt }

def Operation.step (s : Dated) : Operation → Option Dated
  | .createSegment d uuid => some (runAlone s (Ha.createSegment d uuid) id)
  | .updateSegment uuid v => some (runAlone s (Ha.updateSegment uuid v) id)
  | .deleteSegment uuid segmentAt hostsAt =>
    if s.now ≤ segmentAt ∧ segmentAt ≤ hostsAt then
      some (runAlone s (Ha.deleteSegment uuid) (stampSegment s.db uuid segmentAt hostsAt))
    else none
  | .createHost segmentUuid d uuid createdAt =>
    some (runAlone s (Ha.createHost segmentUuid d uuid createdAt) id)
  | .updateHost segmentUuid id d => some (runAlone s (Ha.updateHost segmentUuid id d) fun s => s)
  | .deleteHost segmentUuid id hostAt =>
    if s.now ≤ hostAt then some (runAlone s (Ha.deleteHost segmentUuid id) (stampHost id hostAt))
    else none
  | .other notifications updatedAt =>
    some { s with db := { s.db with notifications }, notificationUpdatedAt := updatedAt }

/-- An empty database. -/
def Blank (s : Dated) : Prop :=
  s.db = ⟨.empty, .empty, .empty⟩ ∧
    ∀ uuid, s.segmentDeletedAt uuid = none ∧ s.hostDeletedAt uuid = none

def retention : Lib.Trans Dated Operation where
  init := Blank
  step s op := op.step s

/-! ## What an operation writes -/

section Writes

variable {db : Db}

theorem createSegment_writes (d : SegmentData) (uuid : String) :
    Ensures (createSegment d uuid) db
      (fun _ db' => ∃ segments r, db.segments.insert r = some segments ∧ r.uuid = uuid ∧
        r.deleted = 0 ∧ db' = { db with segments })
      (fun _ db' => db' = db) := by
  unfold createSegment
  rw [ensures_transaction]
  unfold failoverSegmentCreate
  split
  · rename_i hOk
    split at hOk
    · cases hOk
    · split at hOk
      · cases hOk
      · rename_i segments hInsert
        cases hOk
        exact ⟨segments, _, hInsert, rfl, rfl, rfl⟩
  · rfl

theorem updateSegment_writes (uuid : String) (v : SegmentValues) :
    Ensures (updateSegment uuid v) db (fun _ db' => db' = db.setSegment uuid v)
      (fun _ db' => db' = db) := by
  unfold updateSegment
  simp only [ensures_bind, ensures_transaction, failoverSegmentGetByUuid]
  cases hSegment : db.liveSegment uuid with
  | none => trivial
  | some segment =>
    simp only [underRecovery, uuid_of_liveSegment hSegment]
    cases isUnderRecovery uuid db with
    | true => rfl
    | false =>
      rw [if_neg Bool.false_ne_true]
      simp only [ensures_transaction, failoverSegmentUpdate, hSegment]
      by_cases hTaken : db.segmentNameTaken uuid (v.apply segment).name = true
      · rw [if_pos hTaken]
        trivial
      · rw [if_neg hTaken]

theorem deleteSegment_writes (uuid : String) :
    Ensures (deleteSegment uuid) db
      (fun _ db' => (db.liveSegment uuid).isSome = true ∧ db' = db.deleteSegment uuid)
      (fun _ db' => db' = db) := by
  unfold deleteSegment
  simp only [ensures_bind, ensures_transaction, failoverSegmentGetByUuid]
  cases hSegment : db.liveSegment uuid with
  | none => trivial
  | some segment =>
    simp only [underRecovery, uuid_of_liveSegment hSegment]
    cases isUnderRecovery uuid db with
    | true => rfl
    | false =>
      rw [if_neg Bool.false_ne_true]
      simp only [ensures_transaction, failoverSegmentDelete, hSegment]
      exact ⟨rfl, trivial⟩

theorem createHost_writes (segmentUuid : String) (d : NewHostData) (uuid : String)
    (createdAt : Int) : Ensures (createHost segmentUuid d uuid createdAt) db
      (fun _ db' => ∃ hosts r, db.hosts.insert r = some hosts ∧
        r.failoverSegmentId = segmentUuid ∧ r.deleted = 0 ∧
        (db.liveSegment segmentUuid).isSome = true ∧ db' = { db with hosts })
      (fun _ db' => db' = db) := by
  unfold createHost
  simp only [ensures_bind, ensures_transaction, ensures_ofExcept, failoverSegmentGetByUuid]
  cases hSegment : db.liveSegment segmentUuid with
  | none => trivial
  | some segment =>
    dsimp only
    cases hRow : d.row segment.uuid uuid createdAt with
    | error e => trivial
    | ok row =>
      obtain ⟨hId, hDeleted⟩ := row_of_newHostData hRow
      rw [uuid_of_liveSegment hSegment] at hId
      dsimp only
      cases hCreate : hostCreate row db with
      | error e => rfl
      | ok r =>
        obtain ⟨hosts, hInsert, hDb⟩ := insert_of_hostCreate hCreate
        exact ⟨hosts, _, hInsert, hId, hDeleted, rfl, hDb⟩

theorem updateHost_writes (segmentUuid id : String) (d : HostData) :
    Ensures (updateHost segmentUuid id d) db (fun _ db' => ∃ v, db' = db.setHostColumns id v)
      (fun _ db' => db' = db) := by
  unfold updateHost
  simp only [ensures_bind, ensures_transaction, failoverSegmentGetByUuid]
  cases hSegment : db.liveSegment segmentUuid with
  | none => trivial
  | some segment =>
    dsimp only
    cases hHost : db.liveHost id with
    | none =>
      rw [hostGetByUuid_of_none hHost]
    | some h =>
      rcases hostGetByUuid_of_some hHost with ⟨segment', hOk⟩ | hError
      · rw [hOk]
        simp only [underRecovery, uuid_of_liveSegment hSegment, uuid_of_liveHost hHost]
        cases isUnderRecovery segmentUuid db with
        | true => rfl
        | false =>
          rw [if_neg Bool.false_ne_true]
          simp only [ensures_bind, ensures_ofExcept, ensures_transaction]
          cases hColumns : d.columns with
          | error e => trivial
          | ok v =>
            dsimp only
            rcases hostSave_of_some v hHost with ⟨segment'', hSave⟩ | ⟨e, hSave, -⟩
            · rw [hSave]
              exact ⟨v, rfl⟩
            · rw [hSave]
              trivial
      · rw [hError]

theorem deleteHost_writes (segmentUuid id : String) :
    Ensures (deleteHost segmentUuid id) db (fun _ db' => db' = db.deleteHost id)
      (fun _ db' => db' = db) := by
  unfold deleteHost
  simp only [ensures_bind, ensures_transaction, failoverSegmentGetByUuid]
  cases hSegment : db.liveSegment segmentUuid with
  | none => trivial
  | some segment =>
    dsimp only
    by_cases hNot : ∀ h, db.liveHost id = some h →
        segmentUuid ≠ "" ∧ h.failoverSegmentId ≠ segmentUuid
    · obtain ⟨e, hError, -⟩ := hostGetByUuidUnder_of_not hNot
      rw [hError]
    · push Not at hNot
      obtain ⟨h, hHost, hBelongs⟩ := hNot
      rcases hostGetByUuidUnder_of_some hHost hBelongs with ⟨segment', hOk⟩ | hError
      · rw [hOk]
        simp only [underRecovery, uuid_of_liveSegment hSegment, uuid_of_liveHost hHost]
        cases isUnderRecovery segmentUuid db with
        | true => rfl
        | false =>
          rw [if_neg Bool.false_ne_true, ensures_transaction]
          simp only [hostDelete, hHost]
      · rw [hError]

end Writes

/-! ## The stamps and the rows -/

/-- Every host refers to a row; what is deleted is stamped; and the hosts of a stamped segment are
stamped. -/
structure Stamped (s : Dated) : Prop where
  foreignKey : ∀ h ∈ s.db.hosts.rows, (s.db.segments.get? h.failoverSegmentId).isSome = true
  segments : ∀ uuid, (s.segmentDeletedAt uuid).isSome = true →
    ∃ r, s.db.segments.get? uuid = some r ∧ r.deleted ≠ 0
  hosts : ∀ h ∈ s.db.hosts.rows, h.deleted ≠ 0 → (s.hostDeletedAt h.uuid).isSome = true
  cascade : ∀ h ∈ s.db.hosts.rows, (s.segmentDeletedAt h.failoverSegmentId).isSome = true →
    (s.hostDeletedAt h.uuid).isSome = true

section Stamped

variable {s : Dated}

theorem Stamped.unstamped_of_live (h : Stamped s) {uuid : String}
    (hLive : (s.db.liveSegment uuid).isSome = true) : s.segmentDeletedAt uuid = none := by
  by_contra hStamp
  obtain ⟨r, hGet, hDeleted⟩ := h.segments uuid (Option.isSome_iff_ne_none.mpr hStamp)
  obtain ⟨r', hLive⟩ := Option.isSome_iff_exists.mp hLive
  obtain ⟨hGet', hAlive⟩ := liveSegment_eq_some.mp hLive
  rw [hGet] at hGet'
  cases hGet'
  exact hDeleted hAlive

theorem stamped_insertSegment (h : Stamped s) {r : FailoverSegment}
    {segments : Table FailoverSegment.uuid} (hInsert : s.db.segments.insert r = some segments) :
    Stamped { s with db := { s.db with segments } } := by
  have hNew : s.db.segments.get? r.uuid = none := Table.insert_isSome_iff.mp (by rw [hInsert]; rfl)
  refine ⟨fun host hMem => ?_, fun uuid hStamp => ?_, h.hosts, h.cascade⟩
  · rw [Table.get?_insert hInsert]
    split
    · rfl
    · exact h.foreignKey host hMem
  · obtain ⟨r', hGet, hDeleted⟩ := h.segments uuid hStamp
    refine ⟨r', ?_, hDeleted⟩
    rw [Table.get?_insert hInsert, if_neg]
    · exact hGet
    · rintro rfl
      rw [hNew] at hGet
      cases hGet

theorem stamped_setSegment (h : Stamped s) (uuid : String) (v : SegmentValues) :
    Stamped { s with db := s.db.setSegment uuid v } := by
  have hGet : ∀ uuid', (s.db.setSegment uuid v).segments.get? uuid' =
      if uuid' = uuid then (s.db.segments.get? uuid').map v.apply
      else s.db.segments.get? uuid' := fun uuid' => Table.get?_modify _ _ _ _ v.uuid_apply
  refine ⟨fun host hMem => ?_, fun uuid' hStamp => ?_, h.hosts, h.cascade⟩
  · rw [hGet]
    split
    · rw [Option.isSome_map]
      exact h.foreignKey host hMem
    · exact h.foreignKey host hMem
  · obtain ⟨r, hRow, hDeleted⟩ := h.segments uuid' hStamp
    rw [hGet, hRow]
    split
    · exact ⟨_, rfl, hDeleted⟩
    · exact ⟨r, rfl, hDeleted⟩

theorem get?_deleteSegment (db : Db) (uuid uuid' : String) :
    (db.deleteSegment uuid).segments.get? uuid' = if uuid' = uuid then
      (db.segments.get? uuid').map fun r => { r with deleted := db.segmentId uuid }
      else db.segments.get? uuid' := by
  simp only [Db.deleteSegment, Table.get?_modify]

/-- A host after the deletion of a segment, and the row that it was. -/
theorem row_of_deleteSegment {db : Db} {uuid : String} {host : Host}
    (hMem : host ∈ (db.deleteSegment uuid).hosts.rows) :
    ∃ old ∈ db.hosts.rows, host.uuid = old.uuid ∧ host.failoverSegmentId = old.failoverSegmentId ∧
      (old.deleted = 0 → old.failoverSegmentId ≠ uuid → host.deleted = 0) := by
  obtain ⟨old, hOld, rfl⟩ := List.mem_map.mp hMem
  refine ⟨old, hOld, Host.uuid_deleteUnder uuid old, ?_, fun hAlive hOther => ?_⟩
  · unfold Host.deleteUnder
    split <;> rfl
  · rw [Host.deleteUnder, if_neg (fun hBoth => hOther hBoth.2)]
    exact hAlive

/-- A host of the segment had its stamp before, or gets it now. -/
theorem hostDeletedAt_stampSegment (h : Stamped s) (uuid : String) (segmentAt hostsAt : Int)
    {old : Host} (hOld : old ∈ s.db.hosts.rows)
    (hEither : old.failoverSegmentId = uuid ∨ (s.hostDeletedAt old.uuid).isSome = true) :
    ((stampSegment s.db uuid segmentAt hostsAt
      { s with db := s.db.deleteSegment uuid }).hostDeletedAt old.uuid).isSome = true := by
  simp only [stampSegment]
  split
  · rfl
  · rename_i hNot
    rcases hEither with hSegment | hStamp
    · apply h.hosts old hOld
      intro hAlive
      rw [liveHost_of_mem hOld hAlive] at hNot
      exact hNot (by simp [hSegment])
    · exact hStamp

theorem stamped_deleteSegment (h : Stamped s) (uuid : String) (segmentAt hostsAt : Int)
    (hLive : (s.db.liveSegment uuid).isSome = true) :
    Stamped (stampSegment s.db uuid segmentAt hostsAt
      { s with db := s.db.deleteSegment uuid }) := by
  refine ⟨fun host hMem => ?_, fun uuid' hStamp => ?_, fun host hMem hDeleted => ?_,
    fun host hMem hStamp => ?_⟩
  · obtain ⟨old, hOld, -, hSegment, -⟩ := row_of_deleteSegment hMem
    have hSome := h.foreignKey old hOld
    simp only [stampSegment]
    rw [get?_deleteSegment, hSegment]
    split
    · rw [Option.isSome_map]
      exact hSome
    · exact hSome
  · simp only [stampSegment] at hStamp ⊢
    rw [get?_deleteSegment]
    by_cases hSame : uuid' = uuid
    · subst hSame
      obtain ⟨r, hRow⟩ := Option.isSome_iff_exists.mp hLive
      rw [if_pos rfl, (liveSegment_eq_some.mp hRow).1]
      exact ⟨_, rfl, Nat.succ_ne_zero _⟩
    · rw [Function.update_of_ne hSame] at hStamp
      rw [if_neg hSame]
      exact h.segments uuid' hStamp
  · obtain ⟨old, hOld, hUuid, -, hKeep⟩ := row_of_deleteSegment hMem
    rw [hUuid]
    apply hostDeletedAt_stampSegment h uuid segmentAt hostsAt hOld
    by_contra hNeither
    obtain ⟨hOther, hNoStamp⟩ := not_or.mp hNeither
    have hAlive : old.deleted = 0 := by
      by_contra hDead
      exact hNoStamp (h.hosts old hOld hDead)
    exact hDeleted (hKeep hAlive hOther)
  · obtain ⟨old, hOld, hUuid, hSegment, -⟩ := row_of_deleteSegment hMem
    rw [hUuid]
    apply hostDeletedAt_stampSegment h uuid segmentAt hostsAt hOld
    by_cases hSame : old.failoverSegmentId = uuid
    · exact Or.inl hSame
    · simp only [stampSegment] at hStamp
      rw [hSegment, Function.update_of_ne hSame] at hStamp
      exact Or.inr (h.cascade old hOld hStamp)

theorem stamped_insertHost (h : Stamped s) {r : Host} {hosts : Table Host.uuid}
    (hInsert : s.db.hosts.insert r = some hosts) (hDeleted : r.deleted = 0)
    (hLive : (s.db.liveSegment r.failoverSegmentId).isSome = true) :
    Stamped { s with db := { s.db with hosts } } := by
  have hRows : ∀ host ∈ hosts.rows, host ∈ s.db.hosts.rows ∨ host = r := by
    intro host hMem
    rw [Table.rows_insert hInsert, List.mem_append, List.mem_singleton] at hMem
    exact hMem
  refine ⟨fun host hMem => ?_, h.segments, fun host hMem hDead => ?_, fun host hMem hStamp => ?_⟩
  · rcases hRows host hMem with hOld | rfl
    · exact h.foreignKey host hOld
    · obtain ⟨segment, hSegment⟩ := Option.isSome_iff_exists.mp hLive
      rw [(liveSegment_eq_some.mp hSegment).1]
      rfl
  · rcases hRows host hMem with hOld | rfl
    · exact h.hosts host hOld hDead
    · exact absurd hDeleted hDead
  · rcases hRows host hMem with hOld | rfl
    · exact h.cascade host hOld hStamp
    · rw [h.unstamped_of_live hLive] at hStamp
      cases hStamp

theorem stamped_setHostColumns (h : Stamped s) (uuid : String) (v : HostColumns) :
    Stamped { s with db := s.db.setHostColumns uuid v } := by
  have hRows : ∀ host ∈ (s.db.setHostColumns uuid v).hosts.rows, ∃ old ∈ s.db.hosts.rows,
      host.uuid = old.uuid ∧ host.failoverSegmentId = old.failoverSegmentId ∧
        host.deleted = old.deleted := by
    intro host hMem
    obtain ⟨old, hOld, rfl⟩ := List.mem_map.mp hMem
    refine ⟨old, hOld, ?_⟩
    split <;> exact ⟨rfl, rfl, rfl⟩
  refine ⟨fun host hMem => ?_, h.segments, fun host hMem hDead => ?_, fun host hMem hStamp => ?_⟩
  all_goals obtain ⟨old, hOld, hUuid, hSegment, hDeleted⟩ := hRows host hMem
  · rw [hSegment]
    exact h.foreignKey old hOld
  · rw [hDeleted] at hDead
    rw [hUuid]
    exact h.hosts old hOld hDead
  · rw [hSegment] at hStamp
    rw [hUuid]
    exact h.cascade old hOld hStamp

theorem stamped_deleteHost (h : Stamped s) (uuid : String) (hostAt : Int) :
    Stamped (stampHost uuid hostAt { s with db := s.db.deleteHost uuid }) := by
  have hRows : ∀ host ∈ (s.db.deleteHost uuid).hosts.rows, ∃ old ∈ s.db.hosts.rows,
      host.uuid = old.uuid ∧ host.failoverSegmentId = old.failoverSegmentId ∧
        (host.deleted = old.deleted ∨ old.uuid = uuid) := by
    intro host hMem
    obtain ⟨old, hOld, rfl⟩ := List.mem_map.mp hMem
    refine ⟨old, hOld, ?_⟩
    split
    · rename_i hSame
      exact ⟨rfl, rfl, Or.inr hSame⟩
    · exact ⟨rfl, rfl, Or.inl rfl⟩
  have hStamps : ∀ old : Host, old.uuid = uuid ∨ (s.hostDeletedAt old.uuid).isSome = true →
      (Function.update s.hostDeletedAt uuid (some hostAt) old.uuid).isSome = true := by
    intro old hEither
    by_cases hSame : old.uuid = uuid
    · rw [hSame, Function.update_self]
      rfl
    · rw [Function.update_of_ne hSame]
      exact hEither.resolve_left hSame
  refine ⟨fun host hMem => ?_, h.segments, fun host hMem hDead => ?_, fun host hMem hStamp => ?_⟩
  all_goals obtain ⟨old, hOld, hUuid, hSegment, hDeleted⟩ := hRows host hMem
  · rw [hSegment]
    exact h.foreignKey old hOld
  · rw [hUuid]
    apply hStamps
    rcases hDeleted with hDeleted | hSame
    · rw [hDeleted] at hDead
      exact Or.inr (h.hosts old hOld hDead)
    · exact Or.inl hSame
  · rw [hSegment] at hStamp
    rw [hUuid]
    exact hStamps old (Or.inr (h.cascade old hOld hStamp))

theorem runAlone_of_ensures {α : Type} {op : DbM α} {stamp : Dated → Dated} {I : Dated → Prop}
    {Q : α → Db → Prop} (h : Ensures op s.db Q (fun _ db => db = s.db)) (hSame : I s)
    (hOk : ∀ a db, Q a db → I (stamp { s with db })) : I (runAlone s op stamp) := by
  unfold Ensures at h
  unfold runAlone
  cases hRun : op.run s.db with
  | ok a db =>
    rw [hRun] at h
    exact hOk a db h
  | error e db =>
    rw [hRun] at h
    dsimp only at h ⊢
    rw [h]
    exact hSame

theorem stamped_step {s' : Dated} {op : Operation} (h : Stamped s) (hs : op.step s = some s') :
    Stamped s' := by
  cases op with
  | createSegment d uuid =>
    cases hs
    refine runAlone_of_ensures (createSegment_writes d uuid) h ?_
    rintro _ _ ⟨segments, r, hInsert, -, -, rfl⟩
    exact stamped_insertSegment h hInsert
  | updateSegment uuid v =>
    cases hs
    refine runAlone_of_ensures (updateSegment_writes uuid v) h ?_
    rintro _ _ rfl
    exact stamped_setSegment h uuid v
  | deleteSegment uuid segmentAt hostsAt =>
    obtain ⟨-, hs⟩ := Option.ite_none_right_eq_some.mp hs
    cases hs
    refine runAlone_of_ensures (deleteSegment_writes uuid) h ?_
    rintro _ _ ⟨hLive, rfl⟩
    exact stamped_deleteSegment h uuid segmentAt hostsAt hLive
  | createHost segmentUuid d uuid createdAt =>
    cases hs
    refine runAlone_of_ensures (createHost_writes segmentUuid d uuid createdAt) h ?_
    rintro _ _ ⟨hosts, r, hInsert, rfl, hDeleted, hLive, rfl⟩
    exact stamped_insertHost h hInsert hDeleted hLive
  | updateHost segmentUuid id d =>
    cases hs
    refine runAlone_of_ensures (updateHost_writes segmentUuid id d) h ?_
    rintro _ _ ⟨v, rfl⟩
    exact stamped_setHostColumns h id v
  | deleteHost segmentUuid id hostAt =>
    obtain ⟨-, hs⟩ := Option.ite_none_right_eq_some.mp hs
    cases hs
    refine runAlone_of_ensures (deleteHost_writes segmentUuid id) h ?_
    rintro _ _ rfl
    exact stamped_deleteHost h id hostAt
  | other notifications updatedAt =>
    cases hs
    exact ⟨h.foreignKey, h.segments, h.hosts, h.cascade⟩

theorem stamped_of_reachable (h : retention.Reachable s) : Stamped s := by
  refine Trans.invariant_of_step (I := Stamped) (fun s₀ h₀ => ?_)
    (fun _ _ _ hI _ hs => stamped_step hI hs) h
  obtain ⟨hDb, hNone⟩ := h₀
  refine ⟨fun host hMem => ?_, fun uuid hStamp => ?_, fun host hMem => ?_, fun host hMem => ?_⟩
  · rw [hDb] at hMem
    cases hMem
  · rw [(hNone uuid).1] at hStamp
    cases hStamp
  · rw [hDb] at hMem
    cases hMem
  · rw [hDb] at hMem
    cases hMem

end Stamped

/-! ## The purge -/

/-- The segment of the host is older than the cutoff, the host is not. -/
def straddles (s : Dated) (cutoff : Int) (h : Host) : Bool :=
  before (s.segmentDeletedAt h.failoverSegmentId) cutoff &&
    (s.hostDeletedAt h.uuid).any (cutoff ≤ ·)

theorem before_eq_false_iff {at? : Option Int} (cutoff : Int) (h : at?.isSome = true) :
    before at? cutoff = false ↔ at?.any (cutoff ≤ ·) = true := by
  obtain ⟨t, rfl⟩ := Option.isSome_iff_exists.mp h
  simp only [before, Option.any_some, decide_eq_false_iff_not, decide_eq_true_eq]
  omega

/-- A purge keeps the foreign key exactly when its limit spares the segment of every host whose
stamp lies on the other side of the cutoff than the one of the segment. -/
theorem keepsForeignKey_iff_spared (sql : Sql) (utcnow : Datetime) (ageInDays maxRows : Int)
    {s : Dated} (h : retention.Reachable s) :
    KeepsForeignKey (purgeDeletedRows sql utcnow ageInDays maxRows s) ↔
      ∀ cutoff, deletedAge utcnow ageInDays = some cutoff →
        ∀ host ∈ s.db.hosts.rows, straddles s cutoff host = true →
          s.Spared sql cutoff maxRows host.failoverSegmentId := by
  have hStamped := stamped_of_reachable h
  unfold purgeDeletedRows
  cases hAge : deletedAge utcnow ageInDays with
  | none =>
    refine ⟨fun _ cutoff hCutoff => (by cases hCutoff), fun _ => ⟨?_, hStamped.foreignKey⟩⟩
    intro hSame
    simp at hSame
  | some cutoff =>
    dsimp only
    rw [keepsForeignKey_iff sql cutoff maxRows hStamped.foreignKey]
    constructor
    · rintro hSpared _ ⟨⟩ host hMem hStraddles
      simp only [straddles, Bool.and_eq_true] at hStraddles
      have hSome := hStamped.cascade host hMem (Option.isSome_of_any hStraddles.1)
      exact hSpared host hMem hStraddles.1 ((before_eq_false_iff cutoff hSome).mpr hStraddles.2)
    · intro hSpared host hMem hSegment hHost
      have hSome := hStamped.cascade host hMem (Option.isSome_of_any hSegment)
      refine hSpared cutoff rfl host hMem ?_
      simp only [straddles, Bool.and_eq_true]
      exact ⟨hSegment, (before_eq_false_iff cutoff hSome).mp hHost⟩

/-! ## A purge between the two readings -/

/-- MySQL, or SQLite with its foreign keys switched on or off. -/
def backend (foreignKeys : Bool) : Sql where
  tables := [.hosts, .notifications, .failoverSegments]
  nodup := by decide
  mem := fun t => by cases t <;> decide
  hostsFirst := by decide
  orderBy := fun column keys => keys.insertionSort (Order.Preimage column (· ≤ ·))
  perm := fun column keys => List.perm_insertionSort _ keys
  sorted := fun column keys => List.pairwise_insertionSort (Order.Preimage column (· ≤ ·)) keys
  foreignKeys

def blank : Dated := ⟨⟨.empty, .empty, .empty⟩, fun _ => none, fun _ => none, fun _ => none, 0⟩

/-- A segment with a host, deleted at 63745056000 s; the hosts are stamped a second later. -/
def emptied : List Operation :=
  [.createSegment ⟨"rack2", .rhPriority⟩ "segment-r",
    .createHost "segment-r" { name := "compute9" } "host-r" 0,
    .deleteSegment "segment-r" 63745056000000000 63745056001000000]

/-- Thirty days after the segment was stamped, and one second. -/
def oneSecondLater : Datetime := ⟨63747648001000000, by omega, by unfold datetimeEnd; omega⟩

/-- Thirty days after the segment was stamped, and two seconds. -/
def twoSecondsLater : Datetime := ⟨63747648002000000, by omega, by unfold datetimeEnd; omega⟩

/-- Two seconds after, both are old enough. -/
theorem keepsForeignKey_iff_spared_later : ∃ s, retention.Reachable s ∧
    (s.db.hosts.rows.any fun h => (s.hostDeletedAt h.uuid).isSome) = true ∧
    KeepsForeignKey (purgeDeletedRows (backend true) twoSecondsLater 30 (-1) s) := by
  obtain ⟨s, hReach, hs⟩ := Trans.exists_reachable_of_runIf (T := retention) (s := blank) emptied
    (fun s => (s.db.hosts.rows.any fun h => (s.hostDeletedAt h.uuid).isSome) &&
      s.db.hosts.rows.all fun h => !straddles s 63745056002000000 h)
    ⟨rfl, fun _ => ⟨rfl, rfl⟩⟩ (by decide)
  rw [Bool.and_eq_true] at hs
  refine ⟨s, hReach, hs.1, (keepsForeignKey_iff_spared _ _ 30 (-1) hReach).mpr ?_⟩
  intro cutoff hCutoff host hMem hStraddles
  have hValue : deletedAge twoSecondsLater 30 = some 63745056002000000 := by decide
  rw [hValue] at hCutoff
  cases hCutoff
  have hNot := List.all_eq_true.mp hs.2 host hMem
  rw [hStraddles] at hNot
  cases hNot

/-- Every purge keeps the foreign key. -/
def AlwaysKeepsForeignKey (foreignKeys : Bool) : Prop :=
  ∀ (sql : Sql) (utcnow : Datetime) (ageInDays maxRows : Int) (s : Dated),
    sql.foreignKeys = foreignKeys → retention.Reachable s →
      KeepsForeignKey (purgeDeletedRows sql utcnow ageInDays maxRows s)

/-- One second after, the segment goes and its host stays; or the statement is refused. -/
theorem not_alwaysKeepsForeignKey :
    ¬ AlwaysKeepsForeignKey true ∧ ¬ AlwaysKeepsForeignKey false := by
  constructor
  · intro h
    obtain ⟨s, hReach, hs⟩ := Trans.exists_reachable_of_runIf (T := retention) (s := blank) emptied
      (fun s => match (purgeDeletedRows (backend true) oneSecondLater 30 (-1) s).1 with
        | .error (.other e) => e = "DBReferenceError"
        | _ => false)
      ⟨rfl, fun _ => ⟨rfl, rfl⟩⟩ (by decide)
    have hKeeps := (h (backend true) oneSecondLater 30 (-1) s rfl hReach).1
    split at hs
    · rename_i e hError
      rw [decide_eq_true_eq] at hs
      subst hs
      exact hKeeps hError
    · cases hs
  · intro h
    obtain ⟨s, hReach, hs⟩ := Trans.exists_reachable_of_runIf (T := retention) (s := blank) emptied
      (fun s =>
        let left := (purgeDeletedRows (backend false) oneSecondLater 30 (-1) s).2.db
        left.hosts.rows.any fun h => (left.segments.get? h.failoverSegmentId).isNone)
      ⟨rfl, fun _ => ⟨rfl, rfl⟩⟩ (by decide)
    obtain ⟨host, hMem, hNone⟩ := List.any_eq_true.mp hs
    have hSome := (h (backend false) oneSecondLater 30 (-1) s rfl hReach).2 host hMem
    rw [Option.isNone_iff_eq_none.mp hNone] at hSome
    cases hSome

end MasakariHA.Ha
