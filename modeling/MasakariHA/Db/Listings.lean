import Mathlib.Data.List.Infix
import Mathlib.Data.Sum.Order
import Mathlib.Data.String.Basic
import Mathlib.Order.WithBot
import MasakariHA.Db.Api
import MasakariHA.Lib.Keyset

/-!
# The listings

`failover_segment_get_all_by_filters`, `host_get_all_by_filters` and
`notifications_get_all_by_filters` with their sort parameters, limit and marker. The rows are those
of `db/sqlalchemy/models.py` with all of their columns. Of those that are nullable, `created_at`,
`deleted`, `reserved` and `on_maintenance` have a default that every insertion fills in, and none of
these is `NULL` here.

* `processSortParams`, with `processSortParams_spec`: the keys and directions of a listing;
* `Paginate`: `paginate_query` and the database behind it;
* `getAllByFilters`: what the three listings share;
* `ListsAll`: a listing read page by page, and `listings_paged`: the three of them;
* `readPages_hosts`, `readPages_notifications`: without sort parameters these are the listings that
  the services read at once.
-/

namespace MasakariHA.Listings

open Lib

/-! ## Rows -/

/-- The value of a column; a boolean or a time is a number. -/
inductive Value where
  | int (i : Int)
  | text (s : String)

/-- The columns of `failover_segments`. `created_at` is filled by the default of its column at every
insert. -/
structure SegmentRow extends FailoverSegment where
  id : Nat
  createdAt : Int
  updatedAt : Option Int
  deletedAt : Option Int
  serviceType : String
  description : Option String

/-- The columns of `hosts`. -/
structure HostRow extends Host where
  updatedAt : Option Int
  deletedAt : Option Int
  type : String
  controlAttributes : String

/-- The columns of `notifications`, the payload also as the text that is stored. -/
structure NotificationRow extends Notification where
  updatedAt : Option Int
  deletedAt : Option Int
  payloadText : Option String

/-- What a listing needs to know of a model: the keys that name its columns, and two of them. -/
structure Model (ρ : Type) where
  id : ρ → Nat
  createdAt : ρ → Int
  deleted : ρ → Nat
  columns : List (String × (ρ → Option Value))
  lookup_id : columns.lookup "id" = some fun r => some (.int (id r))
  lookup_createdAt : columns.lookup "created_at" = some fun r => some (.int (createdAt r))

def ofBool (b : Bool) : Value := .int (if b then 1 else 0)

def failoverSegment : Model SegmentRow where
  id := (·.id)
  createdAt := (·.createdAt)
  deleted := (·.deleted)
  columns :=
    [("id", fun r => some (.int r.id)),
      ("created_at", fun r => some (.int r.createdAt)),
      ("updated_at", fun r => r.updatedAt.map .int),
      ("deleted_at", fun r => r.deletedAt.map .int),
      ("deleted", fun r => some (.int r.deleted)),
      ("uuid", fun r => some (.text r.uuid)),
      ("name", fun r => some (.text r.name)),
      ("service_type", fun r => some (.text r.serviceType)),
      ("description", fun r => r.description.map .text),
      ("recovery_method", fun r => some (.text r.recoveryMethod.value))]
  lookup_id := rfl
  lookup_createdAt := rfl

def host : Model HostRow where
  id := (·.id)
  createdAt := (·.createdAt)
  deleted := (·.deleted)
  columns :=
    [("id", fun r => some (.int r.id)),
      ("created_at", fun r => some (.int r.createdAt)),
      ("updated_at", fun r => r.updatedAt.map .int),
      ("deleted_at", fun r => r.deletedAt.map .int),
      ("deleted", fun r => some (.int r.deleted)),
      ("uuid", fun r => some (.text r.uuid)),
      ("name", fun r => some (.text r.name)),
      ("reserved", fun r => some (ofBool r.reserved)),
      ("type", fun r => some (.text r.type)),
      ("control_attributes", fun r => some (.text r.controlAttributes)),
      ("on_maintenance", fun r => some (ofBool r.onMaintenance)),
      ("failover_segment_id", fun r => some (.text r.failoverSegmentId))]
  lookup_id := rfl
  lookup_createdAt := rfl

def notification : Model NotificationRow where
  id := (·.id)
  createdAt := (·.createdAt)
  deleted := (·.deleted)
  columns :=
    [("id", fun r => some (.int r.id)),
      ("created_at", fun r => some (.int r.createdAt)),
      ("updated_at", fun r => r.updatedAt.map .int),
      ("deleted_at", fun r => r.deletedAt.map .int),
      ("deleted", fun r => some (.int r.deleted)),
      ("notification_uuid", fun r => some (.text r.notificationUuid)),
      ("generated_time", fun r => some (.int r.generatedTime)),
      ("type", fun r => some (.text r.type.value)),
      ("payload", fun r => r.payloadText.map .text),
      ("status", fun r => some (.text r.status.value)),
      ("source_host_uuid", fun r => some (.text r.sourceHostUuid))]
  lookup_id := rfl
  lookup_createdAt := rfl

/-! ## Sort parameters -/

/-- The directions that are given, or the default one for each key; and then as many default ones as
are missing. -/
def resultDirs (sortKeys sortDirs : List String) (defaultDirValue : String) : List String :=
  let dirs := if sortDirs = [] then sortKeys.map fun _ => defaultDirValue else sortDirs
  dirs ++ List.replicate (sortKeys.length - dirs.length) defaultDirValue

/-- The loop that adds the default keys. -/
def addDefaultKeys (defaultKeys : List String) (defaultDirValue : String)
    (r : List String × List String) : List String × List String :=
  defaultKeys.foldl
    (fun r key => if key ∈ r.1 then r else (r.1 ++ [key], r.2 ++ [defaultDirValue])) r

/-- `_process_sort_params`; a missing list is empty. -/
def processSortParams (sortKeys sortDirs defaultKeys : List String) (defaultDir : String) :
    Except Exc (List String × List String) :=
  let defaultDirValue := sortDirs.head?.getD defaultDir
  if sortDirs.any (· ∉ ["asc", "desc"]) then
    .error (.raised .invalidInput
      "Invalid input received: Unknown sort direction, must be 'asc' or 'desc'")
  else
    let dirs := resultDirs sortKeys sortDirs defaultDirValue
    if sortKeys.length < dirs.length then
      .error (.raised .invalidInput
        "Invalid input received: Sort direction size exceeds sort key size")
    else .ok (addDefaultKeys defaultKeys defaultDirValue (sortKeys, dirs))

def direction (dir : String) : Direction := if dir = "desc" then .desc else .asc

/-! ## Pages of a query -/

/-- The order that the requested keys and directions stand for, if the values of a column are
ordered by `rank`. -/
def requested {ρ K : Type} (model : Model ρ) (rank : String → Value → K)
    (sortKeys sortDirs : List String) : List ((ρ → WithBot K) × Direction) :=
  (sortKeys.zip sortDirs).map fun x =>
    (fun r => ((model.columns.lookup x.1).bind (· r)).map (rank x.1), direction x.2)

/-- `sqlalchemyutils.paginate_query` and the database behind it: how the values of a column are
ordered, and the rows that come of a query. -/
structure Paginate where
  K : Type
  order : LinearOrder K
  rank : String → Value → K
  int_le : ∀ column i j, rank column (.int i) ≤ rank column (.int j) ↔ i ≤ j
  fetch : ∀ ρ : Type, List ρ → Option Int → List ((ρ → WithBot K) × Direction) → Option ρ → List ρ
  /-- Where no key is `NULL`, these are the first rows strictly after the marker. -/
  fetch_eq : ∀ (ρ : Type) (query : List ρ) (limit : Nat) (keys : List ((ρ → WithBot K) × Direction))
    (marker : Option ρ), 1 ≤ limit → (∀ k ∈ keys, ∀ r ∈ query ++ marker.toList, k.1 r ≠ ⊥) →
    ∃ l, Arranged (LexLt keys) (query.filter fun r => marker.all fun m => LexLt keys m r) l ∧
      fetch ρ query (some limit) keys marker = l.take limit

instance (p : Paginate) : LinearOrder p.K := p.order

/-- `read_deleted` of the context. -/
inductive ReadDeleted where
  | no
  | only
  | yes

def ReadDeleted.shows : ReadDeleted → Nat → Bool
  | .no, deleted => deleted = 0
  | .only, deleted => deleted ≠ 0
  | .yes, _ => true

section Listing

variable (p : Paginate) (readDeleted : ReadDeleted)

/-- `paginate_query`, which looks the keys up among the columns. -/
def paginateQuery {ρ : Type} (model : Model ρ) (query : List ρ) (limit : Option Int)
    (sortKeys : List String) (marker : Option ρ) (sortDirs : List String) : Except Exc (List ρ) :=
  match sortKeys.find? fun key => (model.columns.lookup key).isNone with
  | some key => .error (.raised .invalidSortKey s!"Sort key supplied is invalid: {key}")
  | none => .ok (p.fetch ρ query limit (requested model p.rank sortKeys sortDirs) marker)

/-- What the listings share, for the filters of each. -/
def getAllByFilters {ρ : Type} (model : Model ρ) (accepts : ρ → Bool) (rows : List ρ)
    (sortKeys sortDirs : List String) (limit : Option Int) (marker : Option Nat) :
    Except Exc (List ρ) :=
  if limit = some 0 then .ok []
  else do
    let (sortKeys, sortDirs) ← processSortParams sortKeys sortDirs ["created_at", "id"] "desc"
    let live := rows.filter fun r => readDeleted.shows (model.deleted r)
    let query := live.filter accepts
    match marker with
    | none => paginateQuery p model query limit sortKeys none sortDirs
    | some id =>
      match live.find? (model.id · = id) with
      | none => .error (.raised .markerNotFound s!"Marker {id} could not be found.")
      | some row => paginateQuery p model query limit sortKeys (some row) sortDirs

/-! ## The three listings -/

structure SegmentFilters where
  recoveryMethod : Option RecoveryMethod
  serviceType : Option String

def SegmentFilters.selects (f : SegmentFilters) (r : SegmentRow) : Bool :=
  f.recoveryMethod.all (r.recoveryMethod = ·) && f.serviceType.all (r.serviceType = ·)

def failoverSegmentGetAllByFilters (filters : SegmentFilters) : List SegmentRow → List String →
    List String → Option Int → Option Nat → Except Exc (List SegmentRow) :=
  getAllByFilters p readDeleted failoverSegment filters.selects

structure ListedHostFilters extends HostFilters where
  type : Option String

def ListedHostFilters.selects (f : ListedHostFilters) (r : HostRow) : Bool :=
  f.failoverSegmentId.all (r.failoverSegmentId = ·) && f.type.all (r.type = ·) &&
    f.onMaintenance.all (r.onMaintenance = ·) && f.reserved.all (r.reserved = ·)

def hostGetAllByFilters (filters : ListedHostFilters) : List HostRow → List String →
    List String → Option Int → Option Nat → Except Exc (List HostRow) :=
  getAllByFilters p readDeleted host filters.selects

/-- A single status is a list of one. `generated-since` is taken as `normalize_time` leaves it; that
this overflows near the ends of `datetime` is not part of the listing. -/
def NotificationFilters.selects (f : NotificationFilters) (r : NotificationRow) : Bool :=
  f.sourceHostUuid.all (r.sourceHostUuid = ·) && f.type.all (r.type = ·) &&
    f.status.all (r.status ∈ ·) && f.generatedSince.all (· ≤ r.generatedTime)

def notificationsGetAllByFilters (filters : NotificationFilters) : List NotificationRow →
    List String → List String → Option Int → Option Nat → Except Exc (List NotificationRow) :=
  getAllByFilters p readDeleted notification (NotificationFilters.selects filters)

/-! ## What a listing should do -/

/-- For all sort parameters that are accepted, over columns that no row has `NULL` in, and for every
limit: the pages are the rows that pass the filters, each once and in the requested order. -/
def ListsAll {ρ : Type} (model : Model ρ) (rows : List ρ) (accepts : ρ → Bool)
    (list : List String → List String → Option Int → Option Nat → Except Exc (List ρ)) : Prop :=
  ∀ sortKeys sortDirs keys dirs, ∀ limit : Nat,
    processSortParams sortKeys sortDirs ["created_at", "id"] "desc" = .ok (keys, dirs) →
    (∀ key ∈ sortKeys, ∃ column, model.columns.lookup key = some column ∧
      ∀ r ∈ rows, column r ≠ none) →
    1 ≤ limit →
    sortKeys <+: keys ∧ sortDirs <+: dirs ∧ ∃ sorted,
      sorted.Perm (rows.filter fun r => readDeleted.shows (model.deleted r) && accepts r) ∧
      sorted.Pairwise (LexLt (requested model p.rank keys dirs)) ∧
      ∀ fetches, rows.length < fetches →
        readPages model.id (list sortKeys sortDirs (some limit)) fetches none = .ok (some sorted)

end Listing

/-! ## The keys -/

section Keys

variable {sortKeys sortDirs defaultKeys keys dirs : List String} {defaultDir : String}

theorem addDefaultKeys_spec (defaultKeys : List String) (dir : String) {ks ds : List String}
    (hLength : ks.length = ds.length) :
    ks <+: (addDefaultKeys defaultKeys dir (ks, ds)).1 ∧
      ds <+: (addDefaultKeys defaultKeys dir (ks, ds)).2 ∧
      (addDefaultKeys defaultKeys dir (ks, ds)).1.length =
        (addDefaultKeys defaultKeys dir (ks, ds)).2.length ∧
      (∀ key ∈ defaultKeys, key ∈ (addDefaultKeys defaultKeys dir (ks, ds)).1) ∧
      ∀ key ∈ (addDefaultKeys defaultKeys dir (ks, ds)).1, key ∈ ks ∨ key ∈ defaultKeys := by
  induction defaultKeys generalizing ks ds with
  | nil => exact ⟨List.prefix_refl _, List.prefix_refl _, hLength, nofun, fun _ h => Or.inl h⟩
  | cons key defaultKeys ih =>
    by_cases hKey : key ∈ ks
    · have hStep : addDefaultKeys (key :: defaultKeys) dir (ks, ds) =
          addDefaultKeys defaultKeys dir (ks, ds) := by
        simp only [addDefaultKeys, List.foldl_cons, if_pos hKey]
      obtain ⟨hKs, hDs, hLengths, hAll, hOnly⟩ := ih hLength
      rw [hStep]
      refine ⟨hKs, hDs, hLengths, List.forall_mem_cons.mpr ⟨hKs.subset hKey, hAll⟩, ?_⟩
      exact fun k hk => (hOnly k hk).imp_right (List.mem_cons_of_mem key)
    · have hStep : addDefaultKeys (key :: defaultKeys) dir (ks, ds) =
          addDefaultKeys defaultKeys dir (ks ++ [key], ds ++ [dir]) := by
        simp only [addDefaultKeys, List.foldl_cons, if_neg hKey]
      have hGrown : (ks ++ [key]).length = (ds ++ [dir]).length := by simp [hLength]
      obtain ⟨hKs, hDs, hLengths, hAll, hOnly⟩ := ih hGrown
      rw [hStep]
      have hNew : key ∈ ks ++ [key] := List.mem_append_right ks List.mem_cons_self
      refine ⟨(List.prefix_append ks [key]).trans hKs, (List.prefix_append ds [dir]).trans hDs,
        hLengths, List.forall_mem_cons.mpr ⟨hKs.subset hNew, hAll⟩, fun k hk => ?_⟩
      rcases hOnly k hk with hOld | hDefault
      · rcases List.mem_append.mp hOld with hMem | hMem
        · exact Or.inl hMem
        · exact Or.inr (List.mem_singleton.mp hMem ▸ List.mem_cons_self)
      · exact Or.inr (List.mem_cons_of_mem key hDefault)

theorem prefix_resultDirs (sortKeys sortDirs : List String) (dir : String) :
    sortDirs <+: resultDirs sortKeys sortDirs dir := by
  unfold resultDirs
  dsimp only
  split
  · rename_i hNone
    rw [hNone]
    exact List.nil_prefix
  · exact List.prefix_append _ _

theorem length_resultDirs_ge (sortKeys sortDirs : List String) (dir : String) :
    sortKeys.length ≤ (resultDirs sortKeys sortDirs dir).length := by
  unfold resultDirs
  dsimp only
  rw [List.length_append, List.length_replicate]
  omega

/-- Accepted parameters begin the processed ones, and the default keys are among these. -/
theorem processSortParams_spec
    (h : processSortParams sortKeys sortDirs defaultKeys defaultDir = .ok (keys, dirs)) :
    sortKeys <+: keys ∧ sortDirs <+: dirs ∧ keys.length = dirs.length ∧
      (∀ key ∈ defaultKeys, key ∈ keys) ∧ ∀ key ∈ keys, key ∈ sortKeys ∨ key ∈ defaultKeys := by
  unfold processSortParams at h
  dsimp only at h
  split at h
  · cases h
  split at h
  · cases h
  · rename_i hFits
    rw [Except.ok.injEq] at h
    have hDirs := prefix_resultDirs sortKeys sortDirs (sortDirs.head?.getD defaultDir)
    have hLength := length_resultDirs_ge sortKeys sortDirs (sortDirs.head?.getD defaultDir)
    have hSpec := addDefaultKeys_spec defaultKeys (sortDirs.head?.getD defaultDir)
      (Nat.le_antisymm hLength (Nat.le_of_not_lt hFits))
    rw [h] at hSpec
    exact ⟨hSpec.1, hDirs.trans hSpec.2.1, hSpec.2.2⟩

end Keys

/-! ## The pages -/

section Pages

variable {p : Paginate} {readDeleted : ReadDeleted} {ρ : Type} {model : Model ρ} {rows : List ρ}
  {accepts : ρ → Bool} {sortKeys sortDirs keys dirs : List String}

theorem rank_int_injective (p : Paginate) (column : String) {i j : Int}
    (h : p.rank column (.int i) = p.rank column (.int j)) : i = j :=
  Int.le_antisymm ((p.int_le column i j).mp h.le) ((p.int_le column j i).mp h.ge)

/-- Among the keys there is `id`, so that no two rows stand in the same place. -/
theorem orders_requested (hNodup : (rows.map model.id).Nodup) (hLength : keys.length = dirs.length)
    (hId : "id" ∈ keys) : Orders (LexLt (requested model p.rank keys dirs)) rows where
  irrefl _ := lexLt_irrefl
  trans _ _ _ := lexLt_trans
  nodup := hNodup.of_map _
  total r hr r' hr' hNe := by
    rcases lexLt_trichotomy (requested model p.rank keys dirs) r r' with hLt | hGt | hSame
    · exact Or.inl hLt
    · exact Or.inr hGt
    · refine absurd ?_ hNe
      rw [← List.map_fst_zip hLength.le] at hId
      obtain ⟨⟨key, dir⟩, hMem, rfl⟩ := List.mem_map.mp hId
      have hKey := hSame _ (List.mem_map_of_mem hMem)
      simp only [model.lookup_id, Option.bind_some, Option.map_some] at hKey
      have hIds := rank_int_injective p "id" (WithBot.coe_injective hKey)
      exact List.inj_on_of_nodup_map hNodup hr hr' (Int.ofNat_inj.mp hIds)

/-- No row has `NULL` in a column that is sorted by. -/
def NoNulls (model : Model ρ) (rows : List ρ) (keys : List String) : Prop :=
  ∀ key ∈ keys, ∃ column, model.columns.lookup key = some column ∧ ∀ r ∈ rows, column r ≠ none

theorem noNulls_processed (hNonNull : NoNulls model rows sortKeys)
    (hOnly : ∀ key ∈ keys, key ∈ sortKeys ∨ key ∈ ["created_at", "id"]) :
    NoNulls model rows keys := by
  intro key hKey
  rcases hOnly key hKey with hGiven | hDefault
  · exact hNonNull key hGiven
  · simp only [List.mem_cons, List.not_mem_nil, or_false] at hDefault
    rcases hDefault with rfl | rfl
    · exact ⟨_, model.lookup_createdAt, fun _ _ => nofun⟩
    · exact ⟨_, model.lookup_id, fun _ _ => nofun⟩

theorem requested_ne_bot (p : Paginate) (dirs : List String) (hNonNull : NoNulls model rows keys) :
    ∀ k ∈ requested model p.rank keys dirs, ∀ r ∈ rows, k.1 r ≠ ⊥ := by
  intro k hk r hr
  obtain ⟨⟨key, dir⟩, hMem, rfl⟩ := List.mem_map.mp hk
  obtain ⟨column, hColumn, hSome⟩ := hNonNull key (List.of_mem_zip hMem).1
  obtain ⟨value, hValue⟩ := Option.ne_none_iff_exists'.mp (hSome r hr)
  simp only [hColumn, Option.bind_some, hValue, Option.map_some]
  exact WithBot.coe_ne_bot

theorem paginateQuery_eq {query : List ρ} {limit : Option Int} {marker : Option ρ}
    (hNonNull : NoNulls model rows keys) :
    paginateQuery p model query limit keys marker dirs =
      .ok (p.fetch ρ query limit (requested model p.rank keys dirs) marker) := by
  have hFind : (keys.find? fun key => (model.columns.lookup key).isNone) = none := by
    rw [List.find?_eq_none]
    intro key hKey hNone
    obtain ⟨column, hColumn, -⟩ := hNonNull key hKey
    rw [hColumn] at hNone
    cases hNone
  rw [paginateQuery, hFind]

/-- The query of a listing. -/
def selected (readDeleted : ReadDeleted) (model : Model ρ) (rows : List ρ) (accepts : ρ → Bool) :
    List ρ :=
  rows.filter fun r => readDeleted.shows (model.deleted r) && accepts r

/-- A row of the query is found again by its id. -/
theorem find?_id {l : List ρ} {m : ρ} (hNodup : (l.map model.id).Nodup) (hm : m ∈ l) :
    l.find? (fun r => model.id r = model.id m) = some m := by
  cases hFind : l.find? fun r => model.id r = model.id m with
  | none =>
    have hNone := List.find?_eq_none.mp hFind m hm
    exact absurd (decide_eq_true rfl) hNone
  | some r =>
    have hSame : model.id r = model.id m := by simpa using List.find?_some hFind
    rw [List.inj_on_of_nodup_map hNodup (List.mem_of_find?_eq_some hFind) hm hSame]

/-- A page of a listing is one of its query in the requested order. -/
theorem pages_getAllByFilters {limit : Nat} (hNodup : (rows.map model.id).Nodup)
    (hKeys : processSortParams sortKeys sortDirs ["created_at", "id"] "desc" = .ok (keys, dirs))
    (hNonNull : NoNulls model rows keys) (hLimit : 1 ≤ limit) :
    Pages (LexLt (requested model p.rank keys dirs)) (selected readDeleted model rows accepts)
      limit model.id (getAllByFilters p readDeleted model accepts rows sortKeys sortDirs
        (some limit)) := by
  have hZero : ¬ some (limit : Int) = some 0 := by
    simp only [Option.some.injEq]
    omega
  have hQuery : (rows.filter fun r => readDeleted.shows (model.deleted r)).filter accepts =
      selected readDeleted model rows accepts := by
    rw [List.filter_filter, selected]
    exact List.filter_congr fun r _ => Bool.and_comm _ _
  have hQueryRow : ∀ r ∈ selected readDeleted model rows accepts, r ∈ rows :=
    fun r hr => (List.mem_filter.mp hr).1
  have hBot := requested_ne_bot p dirs hNonNull
  constructor
  · have hKeyed : ∀ k ∈ requested model p.rank keys dirs,
        ∀ r ∈ selected readDeleted model rows accepts ++ Option.toList none, k.1 r ≠ ⊥ := by
      intro k hk r hr
      rw [Option.toList_none, List.append_nil] at hr
      exact hBot k hk r (hQueryRow r hr)
    obtain ⟨l, hArranged, hFetch⟩ := p.fetch_eq ρ _ limit _ none hLimit hKeyed
    refine ⟨l, by simpa using hArranged, ?_⟩
    rw [getAllByFilters, if_neg hZero, hKeys]
    simp only [bind, Except.bind, hQuery]
    rw [paginateQuery_eq hNonNull, hFetch]
  · intro m hm
    have hKeyed : ∀ k ∈ requested model p.rank keys dirs,
        ∀ r ∈ selected readDeleted model rows accepts ++ (some m).toList, k.1 r ≠ ⊥ := by
      intro k hk r hr
      rcases List.mem_append.mp hr with hQueried | hSelf
      · exact hBot k hk r (hQueryRow r hQueried)
      · rw [Option.toList_some, List.mem_singleton] at hSelf
        exact hBot k hk r (hSelf ▸ hQueryRow m hm)
    have hLive : m ∈ rows.filter fun r => readDeleted.shows (model.deleted r) := by
      obtain ⟨hRow, hSelected⟩ := List.mem_filter.mp hm
      exact List.mem_filter.mpr ⟨hRow, ((Bool.and_eq_true _ _).mp hSelected).1⟩
    have hMarker := find?_id (hNodup.sublist (List.filter_sublist.map _)) hLive
    obtain ⟨l, hArranged, hFetch⟩ := p.fetch_eq ρ _ limit _ (some m) hLimit hKeyed
    refine ⟨l, by simpa using hArranged, ?_⟩
    rw [getAllByFilters, if_neg hZero, hKeys]
    simp only [bind, Except.bind, hQuery, hMarker]
    rw [paginateQuery_eq hNonNull, hFetch]

theorem listsAll_getAllByFilters (hNodup : (rows.map model.id).Nodup) :
    ListsAll p readDeleted model rows accepts
      (getAllByFilters p readDeleted model accepts rows) := by
  intro sortKeys sortDirs keys dirs limit hKeys hNonNull hLimit
  obtain ⟨hGiven, hDirs, hLength, hDefaults, hOnly⟩ := processSortParams_spec hKeys
  have hProcessed := noNulls_processed hNonNull hOnly
  have hIds : ((selected readDeleted model rows accepts).map model.id).Nodup :=
    hNodup.sublist (List.filter_sublist.map _)
  have hOrders := orders_requested (p := p) hIds hLength (hDefaults "id" (by simp))
  obtain ⟨sorted, hPerm, hSorted, hRead⟩ := readPages_eq hOrders hLimit
    (pages_getAllByFilters hNodup hKeys hProcessed hLimit)
  refine ⟨hGiven, hDirs, sorted, hPerm, hSorted, fun fetches hFetches => hRead fetches ?_⟩
  exact (List.length_filter_le _ _).trans_lt hFetches

end Pages

/-! ## The default listing -/

section Default

variable {p : Paginate} {ρ σ : Type} {model : Model ρ} {rows sorted : List ρ}

instance (createdAt : ρ → Int) (id : ρ → Nat) : Std.Total (sortedBefore createdAt id) where
  total _ _ := by
    unfold sortedBefore
    omega

instance (createdAt : ρ → Int) (id : ρ → Nat) : IsTrans ρ (sortedBefore createdAt id) where
  trans _ _ _ := by
    unfold sortedBefore
    omega

theorem rank_int_lt (p : Paginate) (column : String) (i j : Int) :
    p.rank column (.int i) < p.rank column (.int j) ↔ i < j := by
  rw [← not_le, p.int_le, not_le]

/-- Newest first, and of equally old rows the one with the greater id. -/
theorem sortedBefore_of_requested {r r' : ρ}
    (h : LexLt (requested model p.rank ["created_at", "id"] ["desc", "desc"]) r r') :
    sortedBefore model.createdAt model.id r r' := by
  have hCreatedAt : ∀ s, ((model.columns.lookup "created_at").bind (· s)).map
      (p.rank "created_at") = WithBot.some (p.rank "created_at" (.int (model.createdAt s))) := by
    intro s
    rw [model.lookup_createdAt]
    rfl
  have hId : ∀ s, ((model.columns.lookup "id").bind (· s)).map (p.rank "id") =
      WithBot.some (p.rank "id" (.int (model.id s))) := by
    intro s
    rw [model.lookup_id]
    rfl
  simp only [requested, direction, List.zip_cons_cons, List.zip_nil_right, List.map_cons,
    List.map_nil, if_pos, lexLt_desc, not_lexLt_nil, hCreatedAt, hId, WithBot.coe_lt_coe,
    WithBot.coe_inj, rank_int_lt, and_false, or_false] at h
  rcases h with hNewer | ⟨hSame, hGreater⟩
  · exact Or.inl hNewer
  · exact Or.inr ⟨rank_int_injective p _ hSame, by omega⟩

/-- Without sort parameters a listing is the one that the services make, over what they know of the
rows. -/
theorem map_eq_insertionSort {f : ρ → σ} {createdAt : σ → Int} {id : σ → Nat}
    (hCreatedAt : ∀ r, createdAt (f r) = model.createdAt r) (hId : ∀ r, id (f r) = model.id r)
    (hNodup : (rows.map model.id).Nodup) (hPerm : sorted.Perm rows)
    (hSorted : sorted.Pairwise
      (LexLt (requested model p.rank ["created_at", "id"] ["desc", "desc"]))) :
    sorted.map f = (rows.map f).insertionSort (sortedBefore createdAt id) := by
  have hPerms : (sorted.map f).Perm ((rows.map f).insertionSort (sortedBefore createdAt id)) :=
    (hPerm.map f).trans (List.perm_insertionSort _ _).symm
  refine hPerms.eq_of_pairwise ?_ ?_ (List.pairwise_insertionSort _ _)
  · intro a b ha hb hab hba
    obtain ⟨r, hr, rfl⟩ := List.mem_map.mp ha
    obtain ⟨r', hr', rfl⟩ := List.mem_map.mp ((List.mem_insertionSort _).mp hb)
    unfold sortedBefore at hab hba
    have hIds : id (f r) = id (f r') := by omega
    rw [hId, hId] at hIds
    rw [List.inj_on_of_nodup_map hNodup (hPerm.mem_iff.mp hr) hr' hIds]
  · rw [List.pairwise_map]
    refine hSorted.imp fun hLex => ?_
    have hBefore := sortedBefore_of_requested hLex
    unfold sortedBefore at hBefore ⊢
    rwa [hCreatedAt, hCreatedAt, hId, hId]

/-- The pages of such a listing. -/
theorem readPages_default {f : ρ → σ} {createdAt : σ → Int} {id : σ → Nat}
    {list : List String → List String → Option Int → Option Nat → Except Exc (List ρ)}
    {accepts : ρ → Bool} {accepts' : σ → Bool} {limit fetches : Nat}
    (hCreatedAt : ∀ r, createdAt (f r) = model.createdAt r) (hId : ∀ r, id (f r) = model.id r)
    (hAccepts : ∀ r, accepts' (f r) = (ReadDeleted.no.shows (model.deleted r) && accepts r))
    (hNodup : (rows.map model.id).Nodup) (hList : ListsAll p .no model rows accepts list)
    (hLimit : 1 ≤ limit) (hFetches : rows.length < fetches) :
    ∃ pages, readPages model.id (list [] [] (some limit)) fetches none = .ok (some pages) ∧
      pages.map f = ((rows.map f).filter accepts').insertionSort (sortedBefore createdAt id) := by
  obtain ⟨-, -, sorted, hPerm, hSorted, hRead⟩ := hList [] [] _ _ limit rfl nofun hLimit
  refine ⟨sorted, hRead fetches hFetches, ?_⟩
  have hFilter : (rows.map f).filter accepts' =
      (rows.filter fun r => ReadDeleted.no.shows (model.deleted r) && accepts r).map f := by
    rw [List.filter_map]
    exact congrArg (List.map f) (List.filter_congr fun r _ => hAccepts r)
  rw [hFilter]
  exact map_eq_insertionSort hCreatedAt hId (hNodup.sublist (List.filter_sublist.map _)) hPerm
    hSorted

/-- The pages of the hosts are the listing that a recovery reads at once. -/
theorem readPages_hosts (p : Paginate) (filters : HostFilters) {db : Db} {hosts : Table host.id}
    {limit fetches : Nat} (hRows : hosts.rows.map HostRow.toHost = db.hosts.rows)
    (hLimit : 1 ≤ limit) (hFetches : hosts.rows.length < fetches) :
    ∃ pages, readPages host.id
        (hostGetAllByFilters p .no ⟨filters, none⟩ hosts.rows [] [] (some limit)) fetches none =
          .ok (some pages) ∧
      pages.map HostRow.toHost = MasakariHA.hostGetAllByFilters filters db := by
  rw [MasakariHA.hostGetAllByFilters, ← hRows]
  refine readPages_default (fun _ => rfl) (fun _ => rfl) (fun r => ?_) hosts.nodup
    (listsAll_getAllByFilters hosts.nodup) hLimit hFetches
  simp only [HostFilters.accepts, ListedHostFilters.selects, ReadDeleted.shows, host,
    Option.all_none, Bool.and_true, Bool.and_assoc]
  rfl

/-- Those of the notifications are the listing of the periodic tasks. -/
theorem readPages_notifications (p : Paginate) (filters : NotificationFilters) {db : Db}
    {notifications : Table notification.id} {limit fetches : Nat}
    (hRows : notifications.rows.map NotificationRow.toNotification = db.notifications.rows)
    (hLimit : 1 ≤ limit) (hFetches : notifications.rows.length < fetches) :
    ∃ pages, readPages notification.id
        (notificationsGetAllByFilters p .no filters notifications.rows [] [] (some limit)) fetches
          none = .ok (some pages) ∧
      pages.map NotificationRow.toNotification =
        MasakariHA.notificationsGetAllByFilters filters db := by
  rw [MasakariHA.notificationsGetAllByFilters, ← hRows]
  refine readPages_default (fun _ => rfl) (fun _ => rfl) (fun r => ?_) notifications.nodup
    (listsAll_getAllByFilters notifications.nodup) hLimit hFetches
  simp only [NotificationFilters.accepts, NotificationFilters.selects, ReadDeleted.shows,
    notification, Bool.and_assoc]
  rfl

end Default

/-- A database that sorts numbers before texts. -/
def sorting : Paginate where
  K := Lex (Int ⊕ String)
  order := inferInstance
  rank _ value :=
    match value with
    | .int i => toLex (.inl i)
    | .text s => toLex (.inr s)
  int_le _ _ _ := Sum.Lex.inl_le_inl_iff
  fetch _ query limit keys marker :=
    (arrange keys (query.filter fun r => marker.all fun m => LexLt keys m r)).take
      ((limit.map (·.toNat)).getD query.length)
  fetch_eq _ _ _ keys _ _ _ := ⟨_, arranged_arrange keys _, rfl⟩

/-- The three listings, read page by page. -/
theorem listings_paged (p : Paginate) (readDeleted : ReadDeleted) :
    (∀ (segments : Table failoverSegment.id) filters,
      ListsAll p readDeleted failoverSegment segments.rows filters.selects
        (failoverSegmentGetAllByFilters p readDeleted filters segments.rows)) ∧
    (∀ (hosts : Table host.id) filters,
      ListsAll p readDeleted host hosts.rows filters.selects
        (hostGetAllByFilters p readDeleted filters hosts.rows)) ∧
    ∀ (notifications : Table notification.id) filters,
      ListsAll p readDeleted notification notifications.rows (NotificationFilters.selects filters)
        (notificationsGetAllByFilters p readDeleted filters notifications.rows) :=
  ⟨fun segments _ => listsAll_getAllByFilters segments.nodup,
    fun hosts _ => listsAll_getAllByFilters hosts.nodup,
    fun notifications _ => listsAll_getAllByFilters notifications.nodup⟩

end MasakariHA.Listings
