import Mathlib.Data.List.Forall2
import MasakariHA.Db.Purge

/-!
# Purging the tables that are there

`purge_deleted_rows` takes the tables from the database by reflection. Here they are any list of
tables with any rows, and the limit is threaded through the loop over them.

* `ReflectedTable`: a table, with its `id` column a key;
* `Engine`: the database, which removes as many rows of a select as its `LIMIT` allows;
* `purgeReflected`: the loop, with the selects that were issued;
* `PurgesUpTo`: what a purge should do, and `purgeReflected_spec`;
* `purgeTables_reflected`: the loop of `purgeTables` is this one on its three tables.
-/

namespace MasakariHA

open Lib

/-- The columns of a row that the purge reads. -/
structure ReflectedRow (κ : Type) where
  id : κ
  deletedAt : Option Int
  updatedAt : Option Int
  status : Option String

structure ReflectedTable (κ : Type) extends Table (ρ := ReflectedRow κ) (·.id) where
  name : String
  /-- There is a column `deleted`. -/
  hasDeleted : Bool

inductive OrderColumn where
  | status
  | deletedAt

/-- A `query_delete`: its table, the rows it selects, and its clauses. -/
structure Select (κ : Type) where
  table : String
  rows : List (ReflectedRow κ)
  orderBy : OrderColumn
  limit : Option Int

namespace Select

variable {κ : Type}

def ids (q : Select κ) : List κ := q.rows.map (·.id)

end Select

/-- The database: the rows that a `DELETE` with the select removes. A `LIMIT` below 1 may mean
anything. -/
structure Engine (κ : Type) where
  removed : Select κ → List κ
  subperm : ∀ q, (removed q).Subperm q.ids
  unlimited : ∀ q, q.limit = none → (removed q).length = q.ids.length
  limited : ∀ q n, q.limit = some n → 1 ≤ n → (removed q).length = min n.toNat q.ids.length

section Loop

variable {κ : Type} [DecidableEq κ]

/-- The `WHERE` clause of a table. -/
def whereClause (name : String) (cutoff : Int) (r : ReflectedRow κ) : Bool :=
  if name = "notifications" then
    before r.updatedAt cutoff &&
      (r.status = some "finished" || r.status = some "failed" || r.status = some "ignored")
  else before r.deletedAt cutoff

def queryDelete (cutoff maxRows : Int) (total : Nat) (t : ReflectedTable κ) : Select κ where
  table := t.name
  rows := t.rows.filter (whereClause t.name cutoff)
  orderBy := if t.name = "notifications" then .status else .deletedAt
  limit := if 0 < maxRows then some (maxRows - total) else none

def ReflectedTable.delete (t : ReflectedTable κ) (ids : List κ) : ReflectedTable κ :=
  { t with toTable := t.toTable.filter (·.id ∉ ids) }

/-- The tables after a purge, the selects that were issued, and `total_rows_purged`. -/
structure Purged (κ : Type) where
  tables : List (ReflectedTable κ)
  issued : List (Select κ)
  total : Nat

/-- The loop of `purge_deleted_rows` over the reversed list of tables. -/
def purgeReflected (engine : Engine κ) (cutoff maxRows : Int) :
    List (ReflectedTable κ) → Nat → Purged κ
  | [], total => ⟨[], [], total⟩
  | t :: ts, total =>
    if t.hasDeleted then
      let query := queryDelete cutoff maxRows total t
      let ids := engine.removed query
      if 0 < maxRows ∧ (total + ids.length : Int) = maxRows then
        ⟨t.delete ids :: ts, [query], total + ids.length⟩
      else
        let r := purgeReflected engine cutoff maxRows ts (total + ids.length)
        ⟨t.delete ids :: r.tables, query :: r.issued, r.total⟩
    else
      let r := purgeReflected engine cutoff maxRows ts total
      ⟨t :: r.tables, r.issued, r.total⟩

/-! ## What a purge should do -/

/-- A row that may go: of the notifications one that is settled and was last updated before the
cutoff, of another table one that was deleted before it. -/
def Eligible (cutoff : Int) (t : ReflectedTable κ) (r : ReflectedRow κ) : Prop :=
  t.hasDeleted = true ∧
    if t.name = "notifications" then
      (∃ updated, r.updatedAt = some updated ∧ updated < cutoff) ∧
        ∃ status ∈ ["finished", "failed", "ignored"], r.status = some status
    else ∃ deleted, r.deletedAt = some deleted ∧ deleted < cutoff

/-- Nothing but eligible rows is removed from a table. -/
structure RemovesEligible (cutoff : Int) (t t' : ReflectedTable κ) : Prop where
  name : t'.name = t.name
  hasDeleted : t'.hasDeleted = t.hasDeleted
  rows : t'.rows.Sublist t.rows
  eligible : ∀ r ∈ t.rows, r ∉ t'.rows → Eligible cutoff t r

def Emptied (cutoff : Int) (tables : List (ReflectedTable κ)) : Prop :=
  ∀ t ∈ tables, ∀ r ∈ t.rows, ¬ Eligible cutoff t r

def rowCount (tables : List (ReflectedTable κ)) : Nat := (tables.map (·.rows.length)).sum

/-- Only eligible rows are removed, every limit is positive, no more than `maxRows` rows are
removed, and if it is fewer, or there is no limit, no eligible row is left. -/
structure PurgesUpTo (cutoff maxRows : Int) (tables : List (ReflectedTable κ)) (r : Purged κ) :
    Prop where
  removes : List.Forall₂ (RemovesEligible cutoff) tables r.tables
  limits : ∀ q ∈ r.issued, ∀ n, q.limit = some n → 1 ≤ n
  atMost : 0 < maxRows → (rowCount tables : Int) - rowCount r.tables ≤ maxRows
  fewer : 0 < maxRows → (rowCount tables : Int) - rowCount r.tables < maxRows →
    Emptied cutoff r.tables
  unlimited : maxRows = -1 → Emptied cutoff r.tables

end Loop

/-! ## One table -/

section Select

variable {κ : Type} {cutoff maxRows : Int} {total : Nat} {t : ReflectedTable κ} {r : ReflectedRow κ}

theorem before_iff {at? : Option Int} :
    before at? cutoff = true ↔ ∃ time, at? = some time ∧ time < cutoff := by
  cases at? <;> simp [before]

theorem whereClause_iff (hDeleted : t.hasDeleted = true) :
    whereClause t.name cutoff r = true ↔ Eligible cutoff t r := by
  unfold whereClause Eligible
  rw [and_iff_right hDeleted]
  split
  · rw [Bool.and_eq_true, before_iff]
    simp [or_assoc]
  · exact before_iff

theorem mem_ids_queryDelete (maxRows : Int) (total : Nat) (hMem : r ∈ t.rows)
    (hDeleted : t.hasDeleted = true) :
    r.id ∈ (queryDelete cutoff maxRows total t).ids ↔ Eligible cutoff t r := by
  rw [← whereClause_iff hDeleted]
  constructor
  · intro hId
    obtain ⟨r', hSelected, hSame⟩ := List.mem_map.mp hId
    obtain ⟨hMem', hWhere⟩ := List.mem_filter.mp hSelected
    rwa [← List.inj_on_of_nodup_map t.nodup hMem' hMem hSame]
  · intro hWhere
    exact List.mem_map_of_mem (List.mem_filter.mpr ⟨hMem, hWhere⟩)

theorem removesEligible_refl : RemovesEligible cutoff t t :=
  ⟨rfl, rfl, List.Sublist.refl _, fun _ hMem hNot => absurd hMem hNot⟩

theorem ids_queryDelete_sublist :
    (queryDelete cutoff maxRows total t).ids.Sublist (t.rows.map (·.id)) :=
  List.filter_sublist.map _

end Select

section Delete

variable {κ : Type} [DecidableEq κ] {cutoff maxRows : Int} {total : Nat} {t : ReflectedTable κ}
  {ids : List κ}

theorem removesEligible_delete (hDeleted : t.hasDeleted = true)
    (hIds : ids.Subperm (queryDelete cutoff maxRows total t).ids) :
    RemovesEligible cutoff t (t.delete ids) := by
  refine ⟨rfl, rfl, List.filter_sublist, fun r hMem hGone => ?_⟩
  have hId : r.id ∈ ids := by
    by_contra hNot
    exact hGone (List.mem_filter.mpr ⟨hMem, decide_eq_true hNot⟩)
  exact (mem_ids_queryDelete maxRows total hMem hDeleted).mp (hIds.subset hId)

/-- Each of the ids has one row. -/
theorem length_delete (hIds : ids.Subperm (t.rows.map (·.id))) :
    (t.delete ids).rows.length + ids.length = t.rows.length := by
  have hNodup : ids.Nodup := by
    obtain ⟨l, hPerm, hSublist⟩ := hIds
    exact hPerm.nodup_iff.mp (t.nodup.sublist hSublist)
  have hPerm : ids.Perm ((t.rows.filter fun r => r.id ∈ ids).map (·.id)) := by
    rw [List.perm_ext_iff_of_nodup hNodup
      (t.nodup.sublist (List.filter_sublist.map _))]
    intro k
    rw [List.mem_map]
    constructor
    · intro hk
      obtain ⟨r, hMem, rfl⟩ := List.mem_map.mp (hIds.subset hk)
      exact ⟨r, List.mem_filter.mpr ⟨hMem, decide_eq_true hk⟩, rfl⟩
    · rintro ⟨r, hMem, rfl⟩
      exact of_decide_eq_true (List.mem_filter.mp hMem).2
  have hSplit := List.length_eq_length_filter_add (l := t.rows) fun r => r.id ∈ ids
  have hLength := hPerm.length_eq
  rw [List.length_map] at hLength
  simp only [ReflectedTable.delete, Table.filter, decide_not]
  omega

/-- A delete that removes as many rows as are selected leaves none of them. -/
theorem not_eligible_delete (hDeleted : t.hasDeleted = true)
    (hIds : ids.Subperm (queryDelete cutoff maxRows total t).ids)
    (hAll : ids.length = (queryDelete cutoff maxRows total t).ids.length) :
    ∀ r ∈ (t.delete ids).rows, ¬ Eligible cutoff (t.delete ids) r := by
  intro r hLeft hEligible
  obtain ⟨hMem, hNot⟩ := List.mem_filter.mp hLeft
  have hSelected := (mem_ids_queryDelete maxRows total hMem hDeleted).mpr hEligible
  exact of_decide_eq_true hNot ((hIds.perm_of_length_le hAll.ge).mem_iff.mpr hSelected)

end Delete

/-! ## The loop -/

section Spec

variable {κ : Type} {cutoff maxRows : Int}

theorem rowCount_cons (t : ReflectedTable κ) (ts : List (ReflectedTable κ)) :
    rowCount (t :: ts) = t.rows.length + rowCount ts := by
  simp [rowCount]

theorem emptied_cons {t : ReflectedTable κ} {ts : List (ReflectedTable κ)}
    (h : ∀ r ∈ t.rows, ¬ Eligible cutoff t r) (hTail : Emptied cutoff ts) :
    Emptied cutoff (t :: ts) := by
  intro t' hMem
  rcases List.mem_cons.mp hMem with rfl | hMem
  · exact h
  · exact hTail t' hMem

/-- A select removes no more rows than the limit has left, and all that it selects if it does not
reach the limit. -/
theorem removed_spec (engine : Engine κ) (cutoff : Int) (t : ReflectedTable κ) {total : Nat}
    (hTotal : 0 < maxRows → (total : Int) < maxRows) :
    let query := queryDelete cutoff maxRows total t
    (0 < maxRows → (total + (engine.removed query).length : Int) ≤ maxRows) ∧
      ((0 < maxRows → (total + (engine.removed query).length : Int) < maxRows) →
        (engine.removed query).length = query.ids.length) := by
  intro query
  by_cases hPos : 0 < maxRows
  · have hLimit : query.limit = some (maxRows - total) := if_pos hPos
    have hLeft := hTotal hPos
    have hLength := engine.limited query _ hLimit (by omega)
    constructor
    · intro _
      omega
    · intro hFewer
      have hLess := hFewer hPos
      omega
  · exact ⟨fun h => absurd h hPos, fun _ => engine.unlimited query (if_neg hPos)⟩

variable [DecidableEq κ]

/-- What the loop does from where `total` rows have been purged. -/
structure PurgesFrom (cutoff maxRows : Int) (total : Nat) (tables : List (ReflectedTable κ))
    (r : Purged κ) : Prop where
  removes : List.Forall₂ (RemovesEligible cutoff) tables r.tables
  limits : ∀ q ∈ r.issued, ∀ n, q.limit = some n → 1 ≤ n
  counts : rowCount tables + total = rowCount r.tables + r.total
  atMost : 0 < maxRows → (r.total : Int) ≤ maxRows
  emptied : (0 < maxRows → (r.total : Int) < maxRows) → Emptied cutoff r.tables

/-- What the delete of one table does. -/
structure Deletes (cutoff maxRows : Int) (total : Nat) (t : ReflectedTable κ) (ids : List κ) :
    Prop where
  removes : RemovesEligible cutoff t (t.delete ids)
  length : (t.delete ids).rows.length + ids.length = t.rows.length
  limit : ∀ n, (queryDelete cutoff maxRows total t).limit = some n → 1 ≤ n
  within : 0 < maxRows → (total + ids.length : Int) ≤ maxRows
  emptied : (0 < maxRows → (total + ids.length : Int) < maxRows) →
    ∀ r ∈ (t.delete ids).rows, ¬ Eligible cutoff (t.delete ids) r

/-- As long as the limit is not reached, one more row may go. -/
theorem deletes_removed (engine : Engine κ) (cutoff : Int) {t : ReflectedTable κ} {total : Nat}
    (hDeleted : t.hasDeleted = true) (hTotal : 0 < maxRows → (total : Int) < maxRows) :
    Deletes cutoff maxRows total t (engine.removed (queryDelete cutoff maxRows total t)) := by
  obtain ⟨hWithin, hAll⟩ := removed_spec engine cutoff t hTotal
  have hSubperm := engine.subperm (queryDelete cutoff maxRows total t)
  refine ⟨removesEligible_delete hDeleted hSubperm,
    length_delete (hSubperm.trans ids_queryDelete_sublist.subperm), fun n hn => ?_, hWithin,
    fun hFewer => not_eligible_delete hDeleted hSubperm (hAll hFewer)⟩
  by_cases hPos : 0 < maxRows
  · have hLeft := hTotal hPos
    simp only [queryDelete, if_pos hPos, Option.some.injEq] at hn
    omega
  · simp only [queryDelete, if_neg hPos, reduceCtorEq] at hn

section Step

variable {total : Nat} {t : ReflectedTable κ} {ts : List (ReflectedTable κ)} {ids : List κ}
  {r : Purged κ}

/-- The delete that reaches the limit is the last one. -/
theorem purgesFrom_last (h : Deletes cutoff maxRows total t ids)
    (hReached : 0 < maxRows ∧ (total + ids.length : Int) = maxRows) :
    PurgesFrom cutoff maxRows total (t :: ts)
      ⟨t.delete ids :: ts, [queryDelete cutoff maxRows total t], total + ids.length⟩ where
  removes := .cons h.removes (List.forall₂_same.mpr fun _ _ => removesEligible_refl)
  limits q hq := by
    rw [List.mem_singleton.mp hq]
    exact h.limit
  counts := by
    have hLength := h.length
    dsimp only
    rw [rowCount_cons, rowCount_cons]
    omega
  atMost _ := hReached.2.le
  emptied hFewer := by
    have hLess := hFewer hReached.1
    dsimp only at hLess
    omega

theorem purgesFrom_cons (h : Deletes cutoff maxRows total t ids)
    (hGoesOn : ¬ (0 < maxRows ∧ (total + ids.length : Int) = maxRows))
    (hTail : PurgesFrom cutoff maxRows (total + ids.length) ts r) :
    PurgesFrom cutoff maxRows total (t :: ts)
      ⟨t.delete ids :: r.tables, queryDelete cutoff maxRows total t :: r.issued, r.total⟩ where
  removes := .cons h.removes hTail.removes
  limits q hq := by
    rcases List.mem_cons.mp hq with rfl | hq
    · exact h.limit
    · exact hTail.limits q hq
  counts := by
    have hLength := h.length
    have hCounts := hTail.counts
    dsimp only
    rw [rowCount_cons, rowCount_cons]
    omega
  atMost := hTail.atMost
  emptied hFewer := by
    refine emptied_cons (h.emptied fun hPos => ?_) (hTail.emptied hFewer)
    have hLe := h.within hPos
    omega

omit [DecidableEq κ] in
theorem purgesFrom_skip (hDeleted : ¬ t.hasDeleted = true)
    (hTail : PurgesFrom cutoff maxRows total ts r) :
    PurgesFrom cutoff maxRows total (t :: ts) ⟨t :: r.tables, r.issued, r.total⟩ where
  removes := .cons removesEligible_refl hTail.removes
  limits := hTail.limits
  counts := by
    have hCounts := hTail.counts
    dsimp only
    rw [rowCount_cons, rowCount_cons]
    omega
  atMost := hTail.atMost
  emptied hFewer := emptied_cons (fun _ _ h => hDeleted h.1) (hTail.emptied hFewer)

end Step

theorem purgeReflected_spec (engine : Engine κ) (cutoff : Int) (tables : List (ReflectedTable κ))
    (total : Nat) (hTotal : 0 < maxRows → (total : Int) < maxRows) :
    PurgesFrom cutoff maxRows total tables (purgeReflected engine cutoff maxRows tables total) := by
  induction tables generalizing total with
  | nil => exact ⟨.nil, nofun, rfl, fun hPos => (hTotal hPos).le, fun _ => nofun⟩
  | cons t ts ih =>
    rw [purgeReflected]
    split
    · rename_i hDeleted
      have hDeletes := deletes_removed engine cutoff hDeleted hTotal
      dsimp only
      split
      · rename_i hReached
        exact purgesFrom_last hDeletes hReached
      · rename_i hGoesOn
        refine purgesFrom_cons hDeletes hGoesOn (ih _ fun hPos => ?_)
        have hLe := hDeletes.within hPos
        push_cast
        omega
    · rename_i hDeleted
      exact purgesFrom_skip hDeleted (ih total hTotal)

theorem purgesUpTo_purgeReflected (engine : Engine κ) (tables : List (ReflectedTable κ)) :
    PurgesUpTo cutoff maxRows tables (purgeReflected engine cutoff maxRows tables 0) := by
  obtain ⟨hRemoves, hLimits, hCounts, hAtMost, hEmptied⟩ :=
    purgeReflected_spec engine cutoff tables 0 fun hPos => hPos
  refine ⟨hRemoves, hLimits, fun hPos => ?_, fun hPos hFewer => hEmptied fun _ => ?_,
    fun hNone => hEmptied fun hPos => ?_⟩
  · have hLe := hAtMost hPos
    omega
  · omega
  · omega

end Spec

/-! ## The three tables -/

namespace Dated

variable (s : Dated)

/-- What reflection finds of a table. -/
def reflect : TableName → ReflectedTable String
  | .failoverSegments =>
    { name := "failover_segments"
      hasDeleted := true
      rows := s.db.segments.rows.map fun r => ⟨r.uuid, s.segmentDeletedAt r.uuid, none, none⟩
      nodup := by
        rw [List.map_map]
        exact s.db.segments.nodup }
  | .hosts =>
    { name := "hosts"
      hasDeleted := true
      rows := s.db.hosts.rows.map fun h => ⟨h.uuid, s.hostDeletedAt h.uuid, none, none⟩
      nodup := by
        rw [List.map_map]
        exact s.db.hosts.nodup }
  | .notifications =>
    { name := "notifications"
      hasDeleted := true
      rows := s.db.notifications.rows.map fun n =>
        ⟨n.notificationUuid, none, s.notificationUpdatedAt n.notificationUuid, some n.status.value⟩
      nodup := by
        rw [List.map_map]
        exact s.db.notifications.nodup }

/-- The column by which the select of a table is ordered. -/
def orderColumn (table : String) (k : String) : Int :=
  if table = "hosts" then (s.hostDeletedAt k).getD 0
  else if table = "failover_segments" then (s.segmentDeletedAt k).getD 0
  else ((s.db.notifications.get? k).map fun n => statusIndex n.status).getD 0

end Dated

/-- The database of `purgeTables`: a select returns its first rows in the order of its column. -/
def Sql.engine (sql : Sql) (s : Dated) : Engine String where
  removed q :=
    match q.limit with
    | some n => (sql.orderBy (s.orderColumn q.table) q.ids).take n.toNat
    | none => sql.orderBy (s.orderColumn q.table) q.ids
  subperm q := by
    have hPerm := (sql.perm (s.orderColumn q.table) q.ids).subperm
    split
    · exact (List.take_sublist _ _).subperm.trans hPerm
    · exact hPerm
  unlimited q hNone := by
    simp only [hNone, (sql.perm (s.orderColumn q.table) q.ids).length_eq]
  limited q n hSome _ := by
    simp only [hSome, List.length_take, (sql.perm (s.orderColumn q.table) q.ids).length_eq]

section Reflect

variable {sql : Sql} {cutoff maxRows : Int} {s s' : Dated} {t t' : TableName} {keys : List String}

theorem reflect_delete_of_ne (h : t' ≠ t) : (s.delete keys t).reflect t' = s.reflect t' := by
  cases t <;> cases t' <;> first | exact absurd rfl h | rfl

theorem reflect_delete : (s.delete keys t).reflect t = (s.reflect t).delete keys := by
  cases t <;> simp [Dated.delete, Dated.reflect, ReflectedTable.delete, Table.filter,
    List.filter_map, Function.comp_def]

theorem isSettled_value (n : NotificationStatus) :
    (some n.value = some "finished" || some n.value = some "failed" ||
      some n.value = some "ignored") = decide (n ∈ [.finished, .failed, .ignored]) := by
  cases n <;> rfl

/-- The rows that are selected are those of the `WHERE` clause, in the order of the column. -/
theorem selected_eq (maxRows : Int) (total : Nat) : s.selected sql cutoff t =
    sql.orderBy (s.orderColumn (s.reflect t).name)
      (queryDelete cutoff maxRows total (s.reflect t)).ids := by
  cases t with
  | failoverSegments =>
    have hIds : (queryDelete cutoff maxRows total (s.reflect .failoverSegments)).ids =
        (s.db.segments.rows.map (·.uuid)).filter fun k => before (s.segmentDeletedAt k) cutoff := by
      simp only [Select.ids, queryDelete, Dated.reflect, List.filter_map, List.map_map]
      rfl
    rw [hIds]
    rfl
  | hosts =>
    have hIds : (queryDelete cutoff maxRows total (s.reflect .hosts)).ids =
        (s.db.hosts.rows.map (·.uuid)).filter fun k => before (s.hostDeletedAt k) cutoff := by
      simp only [Select.ids, queryDelete, Dated.reflect, List.filter_map, List.map_map]
      rfl
    rw [hIds]
    rfl
  | notifications =>
    have hIds : (queryDelete cutoff maxRows total (s.reflect .notifications)).ids =
        (s.db.notifications.rows.filter fun n =>
          before (s.notificationUpdatedAt n.notificationUuid) cutoff &&
            n.status ∈ [.finished, .failed, .ignored]).map (·.notificationUuid) := by
      simp only [Select.ids, queryDelete, Dated.reflect, List.filter_map, List.map_map,
        ← isSettled_value]
      rfl
    rw [hIds]
    rfl

theorem removed_engine (sql : Sql) (cutoff maxRows : Int) (total : Nat) {s₀ : Dated}
    (hColumn : s₀.orderColumn (s.reflect t).name = s.orderColumn (s.reflect t).name) :
    (sql.engine s₀).removed (queryDelete cutoff maxRows total (s.reflect t)) =
      limited maxRows total (s.selected sql cutoff t) := by
  rw [selected_eq maxRows total, ← hColumn]
  unfold Sql.engine limited
  by_cases hPos : 0 < maxRows
  · simp only [queryDelete, if_pos hPos]
  · simp only [queryDelete, if_neg hPos]

theorem orderColumn_delete (h : t' ≠ t) :
    (s.delete keys t).orderColumn (s.reflect t').name = s.orderColumn (s.reflect t').name := by
  cases t <;> cases t' <;> first | exact absurd rfl h | rfl

theorem deleteStatement_cases (h : s.deleteStatement sql keys t = some s') :
    s' = s.delete keys t := by
  unfold Dated.deleteStatement at h
  split at h
  · cases h
  · exact (Option.some.inj h).symm

/-- A table that is not walked stays as it is. -/
theorem reflect_purgeTables (sql : Sql) (cutoff maxRows : Int) {ts : List TableName}
    (hNot : t ∉ ts) (total : Nat) (s : Dated) :
    (purgeTables sql cutoff maxRows ts total s).2.reflect t = s.reflect t := by
  induction ts generalizing total s with
  | nil => rfl
  | cons t' ts ih =>
    have hHead := List.ne_of_not_mem_cons hNot
    have hTail := List.not_mem_of_not_mem_cons hNot
    rw [purgeTables]
    split
    · rfl
    · rename_i s' hStatement
      rw [deleteStatement_cases hStatement]
      split
      · exact reflect_delete_of_ne hHead
      · exact (ih hTail _ _).trans (reflect_delete_of_ne hHead)

/-- A purge of the three tables whose statements all go through is the loop on what reflection
finds of them. -/
theorem purgeTables_reflected {s₀ : Dated} {ts : List TableName} (hNodup : ts.Nodup) (total : Nat)
    (hColumn : ∀ t ∈ ts, s₀.orderColumn (s.reflect t).name = s.orderColumn (s.reflect t).name)
    (hRun : purgeTables sql cutoff maxRows ts total s = (.ok (), s')) :
    (purgeReflected (sql.engine s₀) cutoff maxRows (ts.map s.reflect) total).tables =
      ts.map s'.reflect := by
  induction ts generalizing total s with
  | nil => rfl
  | cons t ts ih =>
    obtain ⟨hNew, hNodup⟩ := List.nodup_cons.mp hNodup
    have hDeleted : (s.reflect t).hasDeleted = true := by cases t <;> rfl
    have hRemoved := removed_engine sql cutoff maxRows total
      (hColumn t List.mem_cons_self)
    have hSame : ∀ t' ∈ ts, ∀ keys, (s.delete keys t).reflect t' = s.reflect t' :=
      fun t' hMem keys => reflect_delete_of_ne (ne_of_mem_of_not_mem hMem hNew)
    rw [purgeTables] at hRun
    rw [List.map_cons, List.map_cons, purgeReflected, if_pos hDeleted]
    dsimp only at hRun ⊢
    rw [hRemoved]
    split at hRun
    · cases hRun
    · rename_i s₁ hStatement
      rw [deleteStatement_cases hStatement] at hRun
      split at hRun
      · rename_i hReached
        cases hRun
        rw [if_pos hReached, reflect_delete]
        exact congrArg _ (List.map_congr_left fun t' hMem => (hSame t' hMem _).symm)
      · rename_i hGoesOn
        have hRest := ih hNodup _ (fun t' hMem => ?_) hRun
        · rw [if_neg hGoesOn]
          dsimp only
          rw [← List.map_congr_left fun t' hMem => hSame t' hMem _, hRest, ← reflect_delete]
          have hKept := reflect_purgeTables sql cutoff maxRows hNew
            (total + (limited maxRows total (s.selected sql cutoff t)).length)
            (s.delete (limited maxRows total (s.selected sql cutoff t)) t)
          rw [hRun] at hKept
          rw [hKept]
        · rw [hSame t' hMem, orderColumn_delete (ne_of_mem_of_not_mem hMem hNew)]
          exact hColumn t' (List.mem_cons_of_mem t hMem)

end Reflect

end MasakariHA
