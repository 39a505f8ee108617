import Mathlib.Algebra.GroupWithZero.Nat
import Mathlib.Data.List.TakeWhile
import MasakariHA.Db.SegmentsHosts
import MasakariHA.Lib.PyDatetime

/-!
# Purging soft-deleted rows

`purge_deleted_rows` of `db/sqlalchemy/api.py`. Rows of hosts and segments go by `deleted_at`,
settled notifications by `updated_at`; the tables are walked in reversed dependency order
until the limit of rows is reached.

* `Dated`: the content with the times that the purge compares;
* `Sql`: what the statements leave to the database and its driver;
* `purgeDeletedRows`, with `purgeTables` for its loop;
* `keepsForeignKey_iff`: when a purge removes no segment that a remaining host refers to.
-/

namespace MasakariHA

open Lib

/-! ## Times -/

/-- The content with the columns `deleted_at` and `updated_at`, in microseconds, each given by
the uuid of its row, and the clock of the service. -/
structure Dated where
  db : Db
  segmentDeletedAt : String → Option Int
  hostDeletedAt : String → Option Int
  notificationUpdatedAt : String → Option Int
  now : Int

/-- `column < cutoff`, where `NULL` is not smaller. -/
def before (at? : Option Int) (cutoff : Int) : Bool := at?.any (· < cutoff)

/-- The place of a status in the enumeration `notification_status`. -/
def statusIndex : NotificationStatus → Int
  | .new => 0
  | .running => 1
  | .error => 2
  | .failed => 3
  | .ignored => 4
  | .finished => 5

/-! ## The statements -/

/-- The tables with a column `deleted`. -/
inductive TableName where
  | failoverSegments
  | hosts
  | notifications
  deriving DecidableEq, Repr

/-- The database and its driver: `reversed(metadata.sorted_tables)`, the order in which
`ORDER BY` returns rows, and whether foreign keys are enforced. -/
structure Sql where
  tables : List TableName
  nodup : tables.Nodup
  mem : ∀ t, t ∈ tables
  hostsFirst : .hosts ∈ tables.takeWhile (· ≠ .failoverSegments)
  orderBy : (String → Int) → List String → List String
  perm : ∀ column keys, (orderBy column keys).Perm keys
  sorted : ∀ column keys, (orderBy column keys).Pairwise fun k k' => column k ≤ column k'
  foreignKeys : Bool

namespace Dated

variable (s : Dated)

/-- The rows that the purge of a table selects without a limit, in their order. -/
def selected (sql : Sql) (cutoff : Int) : TableName → List String
  | .failoverSegments =>
    sql.orderBy (fun k => (s.segmentDeletedAt k).getD 0)
      ((s.db.segments.rows.map (·.uuid)).filter fun k => before (s.segmentDeletedAt k) cutoff)
  | .hosts =>
    sql.orderBy (fun k => (s.hostDeletedAt k).getD 0)
      ((s.db.hosts.rows.map (·.uuid)).filter fun k => before (s.hostDeletedAt k) cutoff)
  | .notifications =>
    sql.orderBy (fun k => ((s.db.notifications.get? k).map fun n => statusIndex n.status).getD 0)
      ((s.db.notifications.rows.filter fun n =>
        before (s.notificationUpdatedAt n.notificationUuid) cutoff &&
          n.status ∈ [.finished, .failed, .ignored]).map (·.notificationUuid))

/-- The rows of a table with these keys deleted. -/
def delete (keys : List String) : TableName → Dated
  | .failoverSegments =>
    { s with db := { s.db with segments := s.db.segments.filter (·.uuid ∉ keys) } }
  | .hosts => { s with db := { s.db with hosts := s.db.hosts.filter (·.uuid ∉ keys) } }
  | .notifications =>
    { s with
      db := { s.db with notifications := s.db.notifications.filter (·.notificationUuid ∉ keys) } }

/-- A host refers to one of the segments. -/
def referenced (keys : List String) : Bool :=
  s.db.hosts.rows.any (·.failoverSegmentId ∈ keys)

/-- One `DELETE` statement; `fk_failover_segments_uuid` restricts that of segments. -/
def deleteStatement (sql : Sql) (keys : List String) (t : TableName) : Option Dated :=
  if sql.foreignKeys && t = .failoverSegments && s.referenced keys then none
  else some (s.delete keys t)

end Dated

/-- `LIMIT max_rows - total_rows_purged`, where `max_rows` sets a limit. -/
def limited (maxRows : Int) (total : Nat) (keys : List String) : List String :=
  if 0 < maxRows then keys.take (maxRows - total).toNat else keys

/-- The loop over the tables. Each statement is committed by itself. -/
def purgeTables (sql : Sql) (cutoff maxRows : Int) :
    List TableName → Nat → Dated → Except Exc Unit × Dated
  | [], _, s => (.ok (), s)
  | t :: ts, total, s =>
    let keys := limited maxRows total (s.selected sql cutoff t)
    match s.deleteStatement sql keys t with
    | none => (.error (.other "DBReferenceError"), s)
    | some s' =>
      if 0 < maxRows ∧ (total + keys.length : Int) = maxRows then (.ok (), s')
      else purgeTables sql cutoff maxRows ts (total + keys.length) s'

def deletedAge (utcnow : Datetime) (ageInDays : Int) : Option Int :=
  (utcnow.add (-days ageInDays)).map (·.micros)

def purgeDeletedRows (sql : Sql) (utcnow : Datetime) (ageInDays maxRows : Int) (s : Dated) :
    Except Exc Unit × Dated :=
  match deletedAge utcnow ageInDays with
  | none => (.error (.other "OverflowError"), s)
  | some cutoff => purgeTables sql cutoff maxRows sql.tables 0 s

/-- Every statement of the purge goes through, and every host that is left has its segment. -/
def KeepsForeignKey (r : Except Exc Unit × Dated) : Prop :=
  r.1 ≠ .error (.other "DBReferenceError") ∧
    ∀ h ∈ r.2.db.hosts.rows, (r.2.db.segments.get? h.failoverSegmentId).isSome = true

/-- The rows that the purge selects in the tables it walks before the segments. -/
def Dated.selectedFirst (s : Dated) (sql : Sql) (cutoff : Int) : Nat :=
  ((sql.tables.takeWhile (· ≠ .failoverSegments)).map fun t => (s.selected sql cutoff t).length).sum

/-- The limit is reached before the segment. -/
def Dated.Spared (s : Dated) (sql : Sql) (cutoff maxRows : Int) (segmentUuid : String) : Prop :=
  0 < maxRows ∧ maxRows ≤ s.selectedFirst sql cutoff +
    (s.selected sql cutoff .failoverSegments).idxOf segmentUuid

/-! ## What a statement leaves -/

section Statement

variable {s : Dated} {cutoff : Int} {keys : List String} {t t' : TableName}

theorem selected_delete {sql : Sql} (h : t' ≠ t) :
    (s.delete keys t).selected sql cutoff t' = s.selected sql cutoff t' := by
  cases t <;> cases t' <;> first | exact absurd rfl h | rfl

theorem segments_delete (h : t ≠ .failoverSegments) :
    (s.delete keys t).db.segments = s.db.segments := by
  cases t <;> first | exact absurd rfl h | rfl

theorem hosts_delete (h : t ≠ .hosts) : (s.delete keys t).db.hosts = s.db.hosts := by
  cases t <;> first | exact absurd rfl h | rfl

theorem mem_selected_hosts (sql : Sql) {uuid : String} : uuid ∈ s.selected sql cutoff .hosts ↔
    (∃ h ∈ s.db.hosts.rows, h.uuid = uuid) ∧ before (s.hostDeletedAt uuid) cutoff = true := by
  unfold Dated.selected
  rw [(sql.perm _ _).mem_iff, List.mem_filter, List.mem_map]

theorem mem_selected_segments (sql : Sql) {uuid : String} :
    uuid ∈ s.selected sql cutoff .failoverSegments ↔
    (∃ r ∈ s.db.segments.rows, r.uuid = uuid) ∧ before (s.segmentDeletedAt uuid) cutoff = true := by
  unfold Dated.selected
  rw [(sql.perm _ _).mem_iff, List.mem_filter, List.mem_map]

theorem deleteStatement_eq_some {sql : Sql} (h : t ≠ .failoverSegments) :
    s.deleteStatement sql keys t = some (s.delete keys t) := by
  simp [Dated.deleteStatement, h]

end Statement

/-! ## The loop -/

/-- What deleting rows of other tables, and the selected hosts, leaves. -/
structure Remains (s s' : Dated) (hosts : List String) : Prop where
  segments : s'.db.segments = s.db.segments
  segmentDeletedAt : s'.segmentDeletedAt = s.segmentDeletedAt
  hosts : s'.db.hosts.rows = s.db.hosts.rows.filter (·.uuid ∉ hosts)

section Loop

variable {sql : Sql} {cutoff maxRows : Int}

theorem limited_of_lt {total : Nat} {keys : List String}
    (h : ¬ (0 < maxRows ∧ maxRows ≤ (total + keys.length : Nat))) :
    limited maxRows total keys = keys := by
  unfold limited
  split
  · apply List.take_of_length_le
    omega
  · rfl

/-- A statement on one table leaves what is selected in the others. -/
theorem selected_delete_of_notMem {t : TableName} {ts : List TableName} {s : Dated}
    (keys : List String) (hNew : t ∉ ts) :
    ∀ t' ∈ ts, (s.delete keys t).selected sql cutoff t' = s.selected sql cutoff t' := by
  intro t' hMem
  apply selected_delete
  rintro rfl
  exact hNew hMem

theorem map_length_selected_delete {t : TableName} {ts : List TableName} {s : Dated}
    (keys : List String) (hNew : t ∉ ts) :
    (ts.map fun t' => ((s.delete keys t).selected sql cutoff t').length) =
      ts.map fun t' => (s.selected sql cutoff t').length := by
  apply List.map_congr_left
  intro t' hMem
  rw [selected_delete_of_notMem keys hNew t' hMem]

/-- A table is emptied of what it selects, and then the tables after it. -/
theorem remains_delete {t : TableName} {ts : List TableName} {s s' : Dated}
    (hHead : t ≠ .failoverSegments) (hNew : t ∉ ts)
    (h : Remains (s.delete (s.selected sql cutoff t) t) s'
      (if .hosts ∈ ts then (s.delete (s.selected sql cutoff t) t).selected sql cutoff .hosts
        else [])) :
    Remains s s' (if .hosts ∈ t :: ts then s.selected sql cutoff .hosts else []) := by
  obtain ⟨hSegments, hDeletedAt, hHosts⟩ := h
  refine ⟨hSegments.trans (segments_delete hHead), ?_, ?_⟩
  · rw [hDeletedAt]
    cases t <;> rfl
  · rw [hHosts]
    by_cases hHostsTable : t = .hosts
    · subst hHostsTable
      rw [if_neg hNew, if_pos List.mem_cons_self]
      simp [Dated.delete, Table.filter]
    · rw [hosts_delete hHostsTable]
      by_cases hLater : .hosts ∈ ts
      · rw [if_pos hLater, if_pos (List.mem_cons_of_mem t hLater),
          selected_delete_of_notMem _ hNew _ hLater]
      · rw [if_neg hLater, if_neg (by simp [hLater, Ne.symm hHostsTable])]

/-- The tables before the segments are emptied of what they select, unless the limit is
reached there. -/
theorem purgeTables_front {front : List TableName} (hNot : .failoverSegments ∉ front)
    (hNodup : front.Nodup) (rest : List TableName) (total : Nat) (s : Dated)
    (hLimit : ¬ (0 < maxRows ∧
      maxRows ≤ (total + (front.map fun t => (s.selected sql cutoff t).length).sum : Nat))) :
    ∃ s', purgeTables sql cutoff maxRows (front ++ rest) total s =
        purgeTables sql cutoff maxRows rest
          (total + (front.map fun t => (s.selected sql cutoff t).length).sum) s' ∧
      Remains s s' (if .hosts ∈ front then s.selected sql cutoff .hosts else []) := by
  induction front generalizing total s with
  | nil =>
    refine ⟨s, rfl, rfl, rfl, ?_⟩
    simp
  | cons t ts ih =>
    have hHead := List.ne_of_not_mem_cons hNot
    have hTail := List.not_mem_of_not_mem_cons hNot
    obtain ⟨hNew, hNodup⟩ := List.nodup_cons.mp hNodup
    rw [List.map_cons, List.sum_cons] at hLimit
    have hAll : limited maxRows total (s.selected sql cutoff t) = s.selected sql cutoff t := by
      apply limited_of_lt
      omega
    obtain ⟨s', hRun, hRemains⟩ := ih hTail hNodup
      (total + (s.selected sql cutoff t).length) (s.delete (s.selected sql cutoff t) t) (by
        rw [map_length_selected_delete _ hNew]
        omega)
    rw [map_length_selected_delete _ hNew] at hRun
    refine ⟨s', ?_, remains_delete (Ne.symm hHead) hNew hRemains⟩
    rw [List.cons_append, purgeTables, hAll, deleteStatement_eq_some (Ne.symm hHead)]
    dsimp only
    rw [if_neg (by omega), hRun, List.map_cons, List.sum_cons, Nat.add_assoc]

/-- Walking tables other than the segments deletes no segment and adds no host. -/
theorem purgeTables_others (sql : Sql) (cutoff maxRows : Int) {ts : List TableName}
    (hNot : .failoverSegments ∉ ts) (total : Nat) (s : Dated) :
    (purgeTables sql cutoff maxRows ts total s).1 = .ok () ∧
      (purgeTables sql cutoff maxRows ts total s).2.db.segments = s.db.segments ∧
      (∀ h ∈ (purgeTables sql cutoff maxRows ts total s).2.db.hosts.rows, h ∈ s.db.hosts.rows) ∧
      (.hosts ∉ ts → (purgeTables sql cutoff maxRows ts total s).2.db.hosts = s.db.hosts) := by
  induction ts generalizing total s with
  | nil => exact ⟨rfl, rfl, fun _ hMem => hMem, fun _ => rfl⟩
  | cons t ts ih =>
    have hHead := List.ne_of_not_mem_cons hNot
    have hTail := List.not_mem_of_not_mem_cons hNot
    have hHosts : ∀ keys, ∀ h ∈ (s.delete keys t).db.hosts.rows, h ∈ s.db.hosts.rows := by
      intro keys h hMem
      cases t with
      | failoverSegments | notifications => exact hMem
      | hosts => exact (List.mem_filter.mp hMem).1
    rw [purgeTables, deleteStatement_eq_some (Ne.symm hHead)]
    dsimp only
    split
    · exact ⟨rfl, segments_delete (Ne.symm hHead), hHosts _,
        fun hNo => hosts_delete (List.ne_of_not_mem_cons hNo).symm⟩
    · obtain ⟨hOk, hSegments, hRows, hSame⟩ := ih hTail _ _
      exact ⟨hOk, hSegments.trans (segments_delete (Ne.symm hHead)),
        fun h hMem => hHosts _ h (hRows h hMem), fun hNo =>
          (hSame (List.not_mem_of_not_mem_cons hNo)).trans
            (hosts_delete (List.ne_of_not_mem_cons hNo).symm)⟩

/-- A limit that is reached before the segments leaves them alone. -/
theorem purgeTables_limit {front : List TableName} (hNot : .failoverSegments ∉ front)
    (rest : List TableName) (total : Nat) (s : Dated) (hNodup : front.Nodup)
    (hTotal : (total : Int) < maxRows)
    (hLimit : maxRows ≤
      (total + (front.map fun t => (s.selected sql cutoff t).length).sum : Nat)) :
    purgeTables sql cutoff maxRows (front ++ rest) total s =
      purgeTables sql cutoff maxRows front total s := by
  induction front generalizing total s with
  | nil => simp only [List.map_nil, List.sum_nil] at hLimit; omega
  | cons t ts ih =>
    have hHead := List.ne_of_not_mem_cons hNot
    have hTail := List.not_mem_of_not_mem_cons hNot
    obtain ⟨hNew, hNodup⟩ := List.nodup_cons.mp hNodup
    rw [List.cons_append, purgeTables, purgeTables, deleteStatement_eq_some (Ne.symm hHead)]
    dsimp only
    split
    · rfl
    · rename_i hGoesOn
      rw [List.map_cons, List.sum_cons] at hLimit
      have hLength : (limited maxRows total (s.selected sql cutoff t)).length =
          min (maxRows - total).toNat (s.selected sql cutoff t).length := by
        rw [limited, if_pos (by omega), List.length_take]
      apply ih hTail _ _ hNodup
      · rw [hLength] at hGoesOn ⊢
        omega
      · rw [map_length_selected_delete _ hNew, hLength]
        rw [hLength] at hGoesOn
        omega

end Loop

/-! ## The foreign key -/

/-- The walk reaches the segments after the hosts. -/
theorem Sql.tables_eq (sql : Sql) : ∃ back,
    sql.tables = sql.tables.takeWhile (· ≠ .failoverSegments) ++ .failoverSegments :: back := by
  have hSplit : sql.tables.takeWhile (· ≠ .failoverSegments) ++
      sql.tables.dropWhile (· ≠ .failoverSegments) = sql.tables := List.takeWhile_append_dropWhile
  cases hDrop : sql.tables.dropWhile (fun t => decide (t ≠ TableName.failoverSegments)) with
  | nil =>
    rw [hDrop, List.append_nil] at hSplit
    have hMem := sql.mem .failoverSegments
    rw [← hSplit] at hMem
    have hNe := List.mem_takeWhile_imp hMem
    simp at hNe
  | cons t back =>
    have hHead := List.head?_dropWhile_not
      (fun t => decide (t ≠ TableName.failoverSegments)) sql.tables
    rw [hDrop] at hHead hSplit
    have hSegments : t = .failoverSegments := by simpa using hHead
    exact ⟨back, hSegments ▸ hSplit.symm⟩

theorem mem_limited {maxRows : Int} {total : Nat} {keys : List String} {k : String} :
    k ∈ limited maxRows total keys ↔
      k ∈ keys ∧ (0 < maxRows → (total + keys.idxOf k : Int) < maxRows) := by
  unfold limited
  split
  · rename_i hPos
    constructor
    · intro hMem
      have hKeys := List.mem_of_mem_take hMem
      refine ⟨hKeys, fun _ => ?_⟩
      have hIdx := (List.mem_take_iff_idxOf_lt hKeys).mp hMem
      omega
    · rintro ⟨hKeys, hLt⟩
      have hLt := hLt hPos
      exact (List.mem_take_iff_idxOf_lt hKeys).mpr (by omega)
  · rename_i hPos
    exact ⟨fun hMem => ⟨hMem, fun h => absurd h hPos⟩, fun h => h.1⟩

/-- The segments under the keys are deleted, and no host any more. -/
theorem keepsForeignKey_delete {s : Dated} {keys : List String} {r : Except Exc Unit × Dated}
    (hFk : ∀ h ∈ s.db.hosts.rows, (s.db.segments.get? h.failoverSegmentId).isSome = true)
    (hOk : r.1 = .ok ())
    (hSegments : r.2.db.segments = (s.delete keys .failoverSegments).db.segments)
    (hRows : r.2.db.hosts = s.db.hosts) :
    KeepsForeignKey r ↔ ∀ h ∈ s.db.hosts.rows, h.failoverSegmentId ∉ keys := by
  unfold KeepsForeignKey
  rw [hSegments, hOk, hRows]
  constructor
  · rintro ⟨-, hKeeps⟩ h hMem hKey
    obtain ⟨r', hGet⟩ := Option.isSome_iff_exists.mp (hKeeps h hMem)
    simp only [Dated.delete, Table.get?_filter, Option.filter_eq_some_iff] at hGet
    have hUuid := Table.key_of_get? hGet.1
    rw [hUuid] at hGet
    simp [hKey] at hGet
  · intro hKeeps
    refine ⟨fun h => (by cases h), fun h hMem => ?_⟩
    obtain ⟨r', hGet⟩ := Option.isSome_iff_exists.mp (hFk h hMem)
    have hUuid := Table.key_of_get? hGet
    have hKey := hKeeps h hMem
    simp [Dated.delete, Table.get?_filter, hGet, Option.filter, hUuid, hKey]

/-- From the segments on: no remaining host may refer to a segment that is deleted. -/
theorem keepsForeignKey_segments {s : Dated} {sql : Sql} {cutoff maxRows : Int}
    {back : List TableName} (hNot : .failoverSegments ∉ back) (hHosts : .hosts ∉ back) (total : Nat)
    (hFk : ∀ h ∈ s.db.hosts.rows, (s.db.segments.get? h.failoverSegmentId).isSome = true) :
    KeepsForeignKey (purgeTables sql cutoff maxRows (.failoverSegments :: back) total s) ↔
      ∀ h ∈ s.db.hosts.rows, h.failoverSegmentId ∉
        limited maxRows total (s.selected sql cutoff .failoverSegments) := by
  rw [purgeTables]
  generalize limited maxRows total (s.selected sql cutoff .failoverSegments) = keys
  by_cases hRefused : sql.foreignKeys = true ∧ s.referenced keys = true
  · obtain ⟨h, hMem, hKey⟩ := List.any_eq_true.mp hRefused.2
    have hNone : s.deleteStatement sql keys .failoverSegments = none := by
      simp [Dated.deleteStatement, hRefused.1, hRefused.2]
    rw [hNone]
    refine ⟨fun hKeeps => absurd rfl hKeeps.1, fun hKeeps => ?_⟩
    exact absurd (of_decide_eq_true hKey) (hKeeps h hMem)
  · have hSome : s.deleteStatement sql keys .failoverSegments =
        some (s.delete keys .failoverSegments) := by
      simp only [Dated.deleteStatement, decide_true, Bool.and_true]
      rw [if_neg (by simpa using hRefused)]
    rw [hSome]
    dsimp only
    split
    · exact keepsForeignKey_delete hFk rfl rfl rfl
    · obtain ⟨hOk, hSegments, -, hSame⟩ := purgeTables_others sql cutoff maxRows hNot _ _
      exact keepsForeignKey_delete hFk hOk hSegments (hSame hHosts)

/-- The hosts that are left refer to no deleted segment exactly when the limit spares the segment of
every host that is not old enough itself. -/
theorem spared_iff {s : Dated} (sql : Sql) (cutoff maxRows : Int)
    (hFk : ∀ h ∈ s.db.hosts.rows, (s.db.segments.get? h.failoverSegmentId).isSome = true) :
    (∀ h ∈ s.db.hosts.rows.filter (·.uuid ∉ s.selected sql cutoff .hosts), h.failoverSegmentId ∉
      limited maxRows (s.selectedFirst sql cutoff) (s.selected sql cutoff .failoverSegments)) ↔
      ∀ h ∈ s.db.hosts.rows, before (s.segmentDeletedAt h.failoverSegmentId) cutoff = true →
        before (s.hostDeletedAt h.uuid) cutoff = false →
        0 < maxRows ∧ maxRows ≤ s.selectedFirst sql cutoff +
          (s.selected sql cutoff .failoverSegments).idxOf h.failoverSegmentId := by
  constructor
  · intro hKeeps h hMem hSegment hHost
    have hLeft : h ∈ s.db.hosts.rows.filter (·.uuid ∉ s.selected sql cutoff .hosts) := by
      refine List.mem_filter.mpr ⟨hMem, decide_eq_true fun hSel => ?_⟩
      have hOld := ((mem_selected_hosts sql).mp hSel).2
      rw [hHost] at hOld
      exact Bool.false_ne_true hOld
    have hRow : ∃ r ∈ s.db.segments.rows, r.uuid = h.failoverSegmentId := by
      obtain ⟨r, hGet⟩ := Option.isSome_iff_exists.mp (hFk h hMem)
      exact ⟨r, Table.mem_of_get? hGet, Table.key_of_get? hGet⟩
    have hSel := (mem_selected_segments sql).mpr ⟨hRow, hSegment⟩
    have hOut := hKeeps h hLeft
    rw [mem_limited, not_and] at hOut
    have hOut := hOut hSel
    push Not at hOut
    exact hOut
  · intro hSpared h hLeft hDeleted
    obtain ⟨hMem, hNotSel⟩ := List.mem_filter.mp hLeft
    obtain ⟨hSel, hWithin⟩ := mem_limited.mp hDeleted
    have hHost : before (s.hostDeletedAt h.uuid) cutoff = false := by
      by_contra hOld
      rw [Bool.not_eq_false] at hOld
      exact of_decide_eq_true hNotSel ((mem_selected_hosts sql).mpr ⟨⟨h, hMem, rfl⟩, hOld⟩)
    obtain ⟨hPos, hReached⟩ := hSpared h hMem ((mem_selected_segments sql).mp hSel).2 hHost
    have hLt := hWithin hPos
    omega

/-- The foreign key survives exactly when the limit spares every segment that is old enough while
one of its hosts is not. -/
theorem keepsForeignKey_iff {s : Dated} (sql : Sql) (cutoff maxRows : Int)
    (hFk : ∀ h ∈ s.db.hosts.rows, (s.db.segments.get? h.failoverSegmentId).isSome = true) :
    KeepsForeignKey (purgeTables sql cutoff maxRows sql.tables 0 s) ↔
      ∀ h ∈ s.db.hosts.rows, before (s.segmentDeletedAt h.failoverSegmentId) cutoff = true →
        before (s.hostDeletedAt h.uuid) cutoff = false →
        s.Spared sql cutoff maxRows h.failoverSegmentId := by
  obtain ⟨back, hTables⟩ := sql.tables_eq
  have hHosts := sql.hostsFirst
  have hNodup := sql.nodup
  rw [hTables] at hNodup
  obtain ⟨hFront, hRest, hDisjoint⟩ := List.nodup_append.mp hNodup
  have hNot : .failoverSegments ∉ sql.tables.takeWhile (· ≠ .failoverSegments) := fun hMem =>
    hDisjoint _ hMem _ List.mem_cons_self rfl
  have hHostsBack : .hosts ∉ back := fun hMem =>
    hDisjoint _ hHosts _ (List.mem_cons_of_mem _ hMem) rfl
  by_cases hLimit : 0 < maxRows ∧ maxRows ≤ (s.selectedFirst sql cutoff : Int)
  · obtain ⟨hOk, hSegments, hRows, -⟩ :=
      purgeTables_others sql cutoff maxRows hNot 0 s
    rw [hTables, purgeTables_limit hNot _ 0 s hFront (by omega)
      (by rw [Nat.zero_add]; exact hLimit.2)]
    refine ⟨fun _ h _ _ _ => ⟨hLimit.1, by omega⟩, fun _ => ⟨?_, fun h hMem => ?_⟩⟩
    · rw [hOk]
      exact fun h => by cases h
    · rw [hSegments]
      exact hFk h (hRows h hMem)
  · obtain ⟨s', hRun, hSegments, hDeletedAt, hRows⟩ := purgeTables_front hNot hFront
      (.failoverSegments :: back) 0 s (by rw [Nat.zero_add]; exact hLimit)
    rw [if_pos hHosts] at hRows
    have hSelected : s'.selected sql cutoff .failoverSegments =
        s.selected sql cutoff .failoverSegments := by
      simp only [Dated.selected, hSegments, hDeletedAt]
    have hFk' : ∀ h ∈ s'.db.hosts.rows,
        (s'.db.segments.get? h.failoverSegmentId).isSome = true := by
      intro h hMem
      rw [hRows] at hMem
      rw [hSegments]
      exact hFk h (List.mem_filter.mp hMem).1
    rw [hTables, hRun, keepsForeignKey_segments (List.nodup_cons.mp hRest).1 hHostsBack _ hFk',
      hSelected, hRows, Nat.zero_add]
    exact spared_iff sql cutoff maxRows hFk

end MasakariHA
