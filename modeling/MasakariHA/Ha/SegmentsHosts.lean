import MasakariHA.Db.SegmentsHosts

/-!
# The segment and host API

`FailoverSegmentAPI` and `HostAPI` of `ha/api.py`. A host is addressed by the uuid of a segment
and its own; both are looked up, and a change is refused while the segment is used to
process notifications.

* `createSegment`, `updateSegment`, `deleteSegment`;
* `createHost`, `getHost`, `updateHost`, `deleteHost`;
* `actsWithinSegment_iff`: which addressed pairs an operation on a host treats as a pair.
-/

namespace MasakariHA.Ha

open Lib

/-! ## Requests -/

/-- A value of `parameter_types.boolean`, with what `strutils` reads in a text. -/
inductive Flag where
  | bool (b : Bool)
  | text (flag : Option Bool)
  deriving DecidableEq, Repr

/-- `strutils.bool_from_string(value, strict=True)`. -/
def Flag.parse : Flag → Except Exc Bool
  | .bool b => .ok b
  | .text (some b) => .ok b
  | .text none => .error (.other "ValueError")

/-- The columns of a `create_segment` request. -/
structure SegmentData where
  name : String
  recoveryMethod : RecoveryMethod

/-- The columns of a `create_host` request. -/
structure NewHostData where
  name : String
  reserved : Option Flag := none
  onMaintenance : Option Flag := none

/-- The columns of an `update_host` request. -/
structure HostData where
  name : Option String := none
  reserved : Option Flag := none
  onMaintenance : Option Flag := none

def parseOptional : Option Flag → Except Exc (Option Bool)
  | none => .ok none
  | some f => f.parse.map some

/-- What `update_host` writes. -/
def HostData.columns (d : HostData) : Except Exc HostColumns := do
  let onMaintenance ← parseOptional d.onMaintenance
  let reserved ← parseOptional d.reserved
  return { reserved, onMaintenance, name := d.name }

/-- The row that `create_host` inserts, under a generated uuid. -/
def NewHostData.row (d : NewHostData) (segmentUuid uuid : String) (createdAt : Int) :
    Except Exc Host := do
  let onMaintenance ← (d.onMaintenance.getD (.bool false)).parse
  let reserved ← (d.reserved.getD (.bool false)).parse
  return ⟨0, createdAt, uuid, d.name, reserved, onMaintenance, segmentUuid, 0⟩

theorem row_of_newHostData {d : NewHostData} {segmentUuid uuid : String} {createdAt : Int}
    {row : Host} (h : d.row segmentUuid uuid createdAt = .ok row) :
    row.failoverSegmentId = segmentUuid ∧ row.deleted = 0 := by
  simp only [NewHostData.row, except_bind_eq_ok] at h
  obtain ⟨onMaintenance, -, reserved, -, hRow⟩ := h
  cases hRow
  exact ⟨rfl, rfl⟩

/-- Pure code of an operation, which may raise. -/
def ofExcept {α : Type} : Except Exc α → DbM α
  | .ok a => pure a
  | .error e => throw e

/-! ## Operations -/

/-- The statuses of a notification that uses its segment. -/
def recoveryStatuses : List NotificationStatus := [.new, .running, .error]

def isUnderRecovery (uuid : String) (db : Db) : Bool :=
  isFailoverSegmentUnderRecovery recoveryStatuses uuid db

/-- `is_failover_segment_under_recovery` of `ha/api.py`. -/
def underRecovery (segment : FailoverSegment) : Query Bool := fun db =>
  .ok (isUnderRecovery segment.uuid db, db)

def createSegment (d : SegmentData) (uuid : String) : DbM FailoverSegment :=
  transaction (failoverSegmentCreate ⟨uuid, d.name, d.recoveryMethod, 0⟩)

def segmentNotUpdated (uuid : String) : Exc :=
  Exc.raised .failoverSegmentInUse
    s!"Failover segment {uuid} can't be updated as it is in-use to process notifications."

def updateSegment (uuid : String) (v : SegmentValues) : DbM FailoverSegment := do
  let segment ← transaction (failoverSegmentGetByUuid uuid)
  let inUse ← transaction (underRecovery segment)
  if inUse then throw (segmentNotUpdated uuid)
  transaction (failoverSegmentUpdate segment.uuid v)

def segmentNotDeleted (uuid : String) : Exc :=
  Exc.raised .failoverSegmentInUse
    s!"Failover segment ({uuid}) can't be deleted as it is in-use to process notifications."

def deleteSegment (uuid : String) : DbM Unit := do
  let segment ← transaction (failoverSegmentGetByUuid uuid)
  let inUse ← transaction (underRecovery segment)
  if inUse then throw (segmentNotDeleted uuid)
  transaction (failoverSegmentDelete segment.uuid)

def createHost (segmentUuid : String) (d : NewHostData) (uuid : String) (createdAt : Int) :
    DbM HostObject := do
  let segment ← transaction (failoverSegmentGetByUuid segmentUuid)
  let row ← ofExcept (d.row segment.uuid uuid createdAt)
  transaction (hostCreate row)

/-- `get_host`; `isUuidLike` is `uuidutils.is_uuid_like`. -/
def getHost (isUuidLike : String → Bool) (segmentUuid hostUuid : String) : DbM HostObject := do
  let _ ← transaction (failoverSegmentGetByUuid segmentUuid)
  if isUuidLike hostUuid then transaction (hostGetByUuid hostUuid)
  else throw (hostNotFound hostUuid)

def hostNotUpdated (uuid : String) : Exc :=
  Exc.raised .hostInUse
    s!"Host {uuid} can't be updated as it is in-use to process notifications."

def updateHost (segmentUuid id : String) (d : HostData) : DbM HostObject := do
  let segment ← transaction (failoverSegmentGetByUuid segmentUuid)
  let host ← transaction (hostGetByUuid id)
  let inUse ← transaction (underRecovery segment)
  if inUse then throw (hostNotUpdated host.host.uuid)
  let columns ← ofExcept d.columns
  transaction (hostSave host.host.uuid columns)

def hostNotDeleted (uuid : String) : Exc :=
  Exc.raised .hostInUse
    s!"Host {uuid} can't be deleted as it is in-use to process notifications."

def deleteHost (segmentUuid id : String) : DbM Unit := do
  let segment ← transaction (failoverSegmentGetByUuid segmentUuid)
  let host ← transaction (hostGetByUuidUnder id segmentUuid)
  let inUse ← transaction (underRecovery segment)
  if inUse then throw (hostNotDeleted host.host.uuid)
  transaction (hostDelete host.host.uuid)

/-! ## Operations on an addressed host -/

inductive HostOperation where
  | getHost
  | updateHost (d : HostData)
  | deleteHost

/-- The operation on the pair; what it answers with. -/
def HostOperation.run (isUuidLike : String → Bool) (segmentUuid hostUuid : String) :
    HostOperation → DbM (Option HostObject)
  | .getHost => some <$> Ha.getHost isUuidLike segmentUuid hostUuid
  | .updateHost d => some <$> Ha.updateHost segmentUuid hostUuid d
  | .deleteHost => (fun _ => none) <$> Ha.deleteHost segmentUuid hostUuid

def HostOperation.writes : HostOperation → Bool
  | .getHost => false
  | .updateHost _ | .deleteHost => true

/-- Nothing but the row of the host differs. -/
structure OnlyHost (uuid : String) (db db' : Db) : Prop where
  segments : db'.segments = db.segments
  notifications : db'.notifications = db.notifications
  hosts : ∀ uuid', uuid' ≠ uuid → db'.hosts.get? uuid' = db.hosts.get? uuid'

/-- The live host with the uuid belongs to another segment than the addressed one. -/
def Elsewhere (segmentUuid hostUuid : String) (db : Db) : Prop :=
  (db.liveHost hostUuid).any (fun h => h.failoverSegmentId ≠ segmentUuid) = true

/-- The operation acts on a live host of the addressed segment, and changes it only while its
own segment is not used; a host of another segment is not found. -/
def ActsWithinSegment (isUuidLike : String → Bool) (op : HostOperation)
    (segmentUuid hostUuid : String) (db : Db) : Prop :=
  Ensures (op.run isUuidLike segmentUuid hostUuid) db
    (fun answer db' => OnlyHost hostUuid db db' ∧
      (∀ o ∈ answer, o.host.uuid = hostUuid) ∧
      ∃ h, db.liveHost hostUuid = some h ∧ h.failoverSegmentId = segmentUuid ∧
        (op.writes = true → isUnderRecovery h.failoverSegmentId db = false))
    (fun e db' => db' = db ∧ (Elsewhere segmentUuid hostUuid db → e.isA .hostNotFound = true))

/-- The pairs on which the operation does so. -/
def Addresses (isUuidLike : String → Bool) (op : HostOperation) (segmentUuid hostUuid : String)
    (db : Db) : Prop :=
  Elsewhere segmentUuid hostUuid db → (db.liveSegment segmentUuid).isSome = true ∧
    match op with
    | .getHost => isUuidLike hostUuid = false
    | .updateHost _ => False
    | .deleteHost => segmentUuid ≠ ""

/-! ## What an operation on a host does -/

section Host

variable {isUuidLike : String → Bool} {segmentUuid uuid : String} {db : Db}

@[simp] theorem ensures_ofExcept {α : Type} {x : Except Exc α} {Q : α → Db → Prop}
    {E : Exc → Db → Prop} :
    Ensures (ofExcept x) db Q E ↔ match x with | .ok a => Q a db | .error e => E e db := by
  cases x <;> rfl

theorem onlyHost_refl : OnlyHost uuid db db := ⟨rfl, rfl, fun _ _ => rfl⟩

theorem onlyHost_setHostColumns (v : HostColumns) : OnlyHost uuid db (db.setHostColumns uuid v) :=
  ⟨rfl, rfl, fun _ hNe => Table.get?_modify_ne _ hNe _ v.uuid_apply⟩

theorem onlyHost_deleteHost : OnlyHost uuid db (db.deleteHost uuid) := by
  refine ⟨rfl, rfl, fun uuid' hNe => ?_⟩
  simp only [Db.deleteHost, Table.get?_modify, if_neg hNe]

theorem elsewhere_iff : Elsewhere segmentUuid uuid db ↔
    ∃ h, db.liveHost uuid = some h ∧ h.failoverSegmentId ≠ segmentUuid := by
  unfold Elsewhere
  cases db.liveHost uuid <;> simp

/-- A row of a host becomes an object, unless its segment is missing. -/
theorem hostFromDbObject_cases (db : Db) (h : Host) :
    (∃ segment, hostFromDbObject db h = .ok ⟨h, segment⟩) ∨
      hostFromDbObject db h = .error (.other "TypeError") := by
  unfold hostFromDbObject
  cases db.segments.get? h.failoverSegmentId with
  | none => exact Or.inr rfl
  | some segment => exact Or.inl ⟨segment, rfl⟩

/-- What `Host.create` stores. -/
theorem insert_of_hostCreate {values : Host} {o : HostObject} {db' : Db}
    (h : hostCreate values db = .ok (o, db')) : ∃ hosts,
      db.hosts.insert { values with id := db.hosts.rows.length + 1 } = some hosts ∧
        db' = { db with hosts } := by
  unfold hostCreate at h
  dsimp only at h
  split at h
  · cases h
  · split at h
    · cases h
    · split at h
      · cases h
      · rename_i hosts hInsert
        refine ⟨hosts, hInsert, ?_⟩
        rcases hostFromDbObject_cases db
          { values with id := db.hosts.rows.length + 1 } with ⟨segment, hOk⟩ | hError
        · rw [hOk] at h
          cases h
          rfl
        · rw [hError] at h
          cases h

theorem parse_error {f : Flag} {e : Exc} (h : f.parse = .error e) : e = .other "ValueError" := by
  cases f with
  | bool b => cases h
  | text flag =>
    cases flag with
    | some b => cases h
    | none =>
      cases h
      rfl

theorem parseOptional_error {f : Option Flag} {e : Exc} (h : parseOptional f = .error e) :
    e = .other "ValueError" := by
  cases f with
  | none => cases h
  | some f =>
    cases hParsed : f.parse with
    | ok b =>
      rw [parseOptional, hParsed] at h
      cases h
    | error e' =>
      rw [parseOptional, hParsed] at h
      cases h
      exact parse_error hParsed

theorem notFound_of_columns {d : HostData} {e : Exc} (h : d.columns = .error e) :
    e.isA .hostNotFound = false := by
  simp only [HostData.columns, except_bind_eq_error] at h
  have hValue : e = .other "ValueError" := by
    rcases h with hError | ⟨onMaintenance, -, hError | ⟨reserved, -, hPure⟩⟩
    · exact parseOptional_error hError
    · exact parseOptional_error hError
    · cases hPure
  rw [hValue]
  rfl

theorem hostGetByUuid_of_none (h : db.liveHost uuid = none) :
    hostGetByUuid uuid db = .error (hostNotFound uuid) := by
  simp only [hostGetByUuid, h]
  rfl

theorem hostGetByUuid_of_some {h : Host} (hLive : db.liveHost uuid = some h) :
    (∃ segment, hostGetByUuid uuid db = .ok (⟨h, segment⟩, db)) ∨
      hostGetByUuid uuid db = .error (.other "TypeError") := by
  simp only [hostGetByUuid, hLive]
  rcases hostFromDbObject_cases db h with ⟨segment, hOk⟩ | hError
  · exact Or.inl ⟨segment, by rw [hOk]; rfl⟩
  · exact Or.inr (by rw [hError]; rfl)

theorem hostSave_of_some {h : Host} (v : HostColumns) (hLive : db.liveHost uuid = some h) :
    (∃ segment, hostSave uuid v db = .ok (⟨v.apply h, segment⟩, db.setHostColumns uuid v)) ∨
      ∃ e, hostSave uuid v db = .error e ∧ e.isA .hostNotFound = false := by
  simp only [hostSave, hLive]
  split
  · exact Or.inr ⟨_, rfl, rfl⟩
  · rcases hostFromDbObject_cases db (v.apply h) with ⟨segment, hOk⟩ | hError
    · exact Or.inl ⟨segment, by rw [hOk]; rfl⟩
    · exact Or.inr ⟨_, by rw [hError]; rfl, rfl⟩

theorem eq_of_hostSave {v : HostColumns} {o : HostObject} {db' : Db}
    (h : hostSave uuid v db = .ok (o, db')) : db' = db.setHostColumns uuid v := by
  cases hLive : db.liveHost uuid with
  | none =>
    simp only [hostSave, hLive] at h
    cases h
  | some row =>
    rcases hostSave_of_some v hLive with ⟨segment, hOk⟩ | ⟨e, hError, -⟩
    · rw [hOk] at h
      cases h
      rfl
    · rw [hError] at h
      cases h

theorem getHost_spec : Ensures (getHost isUuidLike segmentUuid uuid) db
    (fun o db' => db' = db ∧ isUuidLike uuid = true ∧ db.liveHost uuid = some o.host)
    (fun e db' => db' = db ∧ (e.isA .hostNotFound = true ↔ (db.liveSegment segmentUuid).isSome ∧
      (isUuidLike uuid = false ∨ db.liveHost uuid = none))) := by
  unfold getHost
  simp only [ensures_bind, ensures_transaction, failoverSegmentGetByUuid]
  cases hSegment : db.liveSegment segmentUuid with
  | none => exact ⟨trivial, by simp [Exc.isA, Exc.raised, failoverSegmentNotFound]; rfl⟩
  | some segment =>
    dsimp only
    cases hLike : isUuidLike uuid with
    | false => exact ⟨rfl, by simp [Exc.isA, Exc.raised, hostNotFound]; rfl⟩
    | true =>
      rw [if_pos rfl, ensures_transaction]
      cases hHost : db.liveHost uuid with
      | none =>
        rw [hostGetByUuid_of_none hHost]
        exact ⟨rfl, by simp [Exc.isA, Exc.raised, hostNotFound]; rfl⟩
      | some h =>
        rcases hostGetByUuid_of_some hHost with ⟨segment', hOk⟩ | hError
        · rw [hOk]
          exact ⟨rfl, rfl, rfl⟩
        · rw [hError]
          exact ⟨rfl, by simp [Exc.isA]⟩

theorem updateHost_spec {d : HostData} : Ensures (updateHost segmentUuid uuid d) db
    (fun o db' => OnlyHost uuid db db' ∧ o.host.uuid = uuid ∧ (db.liveHost uuid).isSome ∧
      isUnderRecovery segmentUuid db = false)
    (fun e db' => db' = db ∧ (e.isA .hostNotFound = true → db.liveHost uuid = none)) := by
  unfold updateHost
  simp only [ensures_bind, ensures_transaction, failoverSegmentGetByUuid]
  cases hSegment : db.liveSegment segmentUuid with
  | none => exact ⟨trivial, fun h => by cases h⟩
  | some segment =>
    dsimp only
    cases hHost : db.liveHost uuid with
    | none =>
      rw [hostGetByUuid_of_none hHost]
      exact ⟨rfl, fun _ => rfl⟩
    | some h =>
      rcases hostGetByUuid_of_some hHost with ⟨segment', hOk⟩ | hError
      · rw [hOk]
        simp only [underRecovery, uuid_of_liveSegment hSegment, uuid_of_liveHost hHost]
        cases hUse : isUnderRecovery segmentUuid db with
        | true => exact ⟨rfl, fun h => by cases h⟩
        | false =>
          rw [if_neg Bool.false_ne_true]
          simp only [ensures_bind, ensures_ofExcept, ensures_transaction]
          cases hColumns : d.columns with
          | error e =>
            refine ⟨trivial, fun h => ?_⟩
            rw [notFound_of_columns hColumns] at h
            cases h
          | ok v =>
            dsimp only
            rcases hostSave_of_some v hHost with ⟨segment'', hSave⟩ | ⟨e, hSave, hNot⟩
            · rw [hSave]
              have hUuid : h.uuid = uuid := uuid_of_liveHost hHost
              exact ⟨onlyHost_setHostColumns v, hUuid, rfl, trivial⟩
            · rw [hSave]
              refine ⟨trivial, fun h => ?_⟩
              rw [hNot] at h
              cases h
      · rw [hError]
        exact ⟨rfl, fun h => by cases h⟩

theorem hostGetByUuidUnder_of_some {h : Host} (hLive : db.liveHost uuid = some h)
    (hSegment : segmentUuid ≠ "" → h.failoverSegmentId = segmentUuid) :
    (∃ segment, hostGetByUuidUnder uuid segmentUuid db = .ok (⟨h, segment⟩, db)) ∨
      hostGetByUuidUnder uuid segmentUuid db = .error (.other "TypeError") := by
  unfold hostGetByUuidUnder
  split
  · exact hostGetByUuid_of_some hLive
  · rename_i hNe
    have hFilter : (some h).filter (fun h => h.failoverSegmentId = segmentUuid) = some h := by
      simp [Option.filter, hSegment hNe]
    rw [hLive, hFilter]
    dsimp only
    rcases hostFromDbObject_cases db h with ⟨segment, hOk⟩ | hError
    · exact Or.inl ⟨segment, by rw [hOk]; rfl⟩
    · exact Or.inr (by rw [hError]; rfl)

theorem hostGetByUuidUnder_of_not
    (hNot : ∀ h, db.liveHost uuid = some h → segmentUuid ≠ "" ∧ h.failoverSegmentId ≠ segmentUuid) :
    ∃ e, hostGetByUuidUnder uuid segmentUuid db = .error e ∧ e.isA .hostNotFound = true := by
  unfold hostGetByUuidUnder
  cases hHost : db.liveHost uuid with
  | none =>
    split
    · exact ⟨_, hostGetByUuid_of_none hHost, rfl⟩
    · exact ⟨_, rfl, rfl⟩
  | some h =>
    obtain ⟨hEmpty, hSegment⟩ := hNot h hHost
    rw [if_neg hEmpty]
    have hFilter : (some h).filter (fun h => h.failoverSegmentId = segmentUuid) = none := by
      simp [Option.filter, hSegment]
    rw [hFilter]
    exact ⟨_, rfl, rfl⟩

theorem deleteHost_spec : Ensures (deleteHost segmentUuid uuid) db
    (fun _ db' => OnlyHost uuid db db' ∧ isUnderRecovery segmentUuid db = false ∧
      ∃ h, db.liveHost uuid = some h ∧ (segmentUuid ≠ "" → h.failoverSegmentId = segmentUuid))
    (fun e db' => db' = db ∧ (e.isA .hostNotFound = true ↔ (db.liveSegment segmentUuid).isSome ∧
      ∀ h, db.liveHost uuid = some h → segmentUuid ≠ "" ∧ h.failoverSegmentId ≠ segmentUuid)) := by
  unfold deleteHost
  simp only [ensures_bind, ensures_transaction, failoverSegmentGetByUuid]
  cases hSegment : db.liveSegment segmentUuid with
  | none => exact ⟨trivial, by simp [Exc.isA, Exc.raised, failoverSegmentNotFound]; rfl⟩
  | some segment =>
    dsimp only
    by_cases hNot : ∀ h, db.liveHost uuid = some h →
        segmentUuid ≠ "" ∧ h.failoverSegmentId ≠ segmentUuid
    · obtain ⟨e, hError, hIs⟩ := hostGetByUuidUnder_of_not hNot
      rw [hError]
      exact ⟨rfl, fun _ => ⟨rfl, hNot⟩, fun _ => hIs⟩
    · have hFails : ∀ e : Exc, e.isA .hostNotFound = false → (e.isA .hostNotFound = true ↔
          (some segment).isSome = true ∧ ∀ h, db.liveHost uuid = some h →
            segmentUuid ≠ "" ∧ h.failoverSegmentId ≠ segmentUuid) := by
        intro e he
        rw [he]
        exact ⟨fun h => absurd h Bool.false_ne_true, fun h => absurd h.2 hNot⟩
      push Not at hNot
      obtain ⟨h, hHost, hBelongs⟩ := hNot
      rcases hostGetByUuidUnder_of_some hHost hBelongs with ⟨segment', hOk⟩ | hError
      · rw [hOk]
        simp only [underRecovery, uuid_of_liveSegment hSegment, uuid_of_liveHost hHost]
        cases hUse : isUnderRecovery segmentUuid db with
        | true => exact ⟨rfl, hFails _ rfl⟩
        | false =>
          rw [if_neg Bool.false_ne_true, ensures_transaction]
          simp only [hostDelete, hHost]
          exact ⟨onlyHost_deleteHost, trivial, h, rfl, hBelongs⟩
      · rw [hError]
        exact ⟨rfl, hFails _ rfl⟩

end Host

/-! ## Which operations keep to the addressed pair -/

section Addressed

variable {isUuidLike : String → Bool} {op : HostOperation} {segmentUuid uuid : String} {db : Db}

/-- An operation that keeps to the pair does not find a host of another segment. -/
theorem notFound_of_elsewhere (h : ActsWithinSegment isUuidLike op segmentUuid uuid db)
    (hElsewhere : Elsewhere segmentUuid uuid db) :
    Ensures (op.run isUuidLike segmentUuid uuid) db (fun _ _ => False)
      (fun e _ => e.isA .hostNotFound = true) := by
  refine ensures_mono h (fun answer db' hAnswer => ?_) fun e db' he => he.2 hElsewhere
  obtain ⟨-, -, h', hHost', hSegment, -⟩ := hAnswer
  obtain ⟨h, hHost, hOther⟩ := elsewhere_iff.mp hElsewhere
  rw [hHost] at hHost'
  cases hHost'
  exact hOther hSegment

/-- What every `HostNotFound` of the operation implies. -/
theorem of_notFound {p : Prop} {E : Exc → Db → Prop}
    (h : ActsWithinSegment isUuidLike op segmentUuid uuid db)
    (hElsewhere : Elsewhere segmentUuid uuid db)
    (hRun : Ensures (op.run isUuidLike segmentUuid uuid) db (fun _ _ => True) E)
    (hRaised : ∀ e db', E e db' → e.isA .hostNotFound = true → p) : p := by
  apply (ensures_const (op.run isUuidLike segmentUuid uuid) db p).mp
  refine ensures_mono (ensures_and.mpr ⟨notFound_of_elsewhere h hElsewhere, hRun⟩)
    (fun _ _ hAnswer => hAnswer.1.elim) fun e db' he => ?_
  exact hRaised e db' he.2 he.1

/-- A live host under the uuid belongs to the addressed segment, unless it is elsewhere. -/
theorem segment_of_not_elsewhere {h : Host} (hHost : db.liveHost uuid = some h)
    (hNot : ¬ Elsewhere segmentUuid uuid db) : h.failoverSegmentId = segmentUuid := by
  by_contra hOther
  exact hNot (elsewhere_iff.mpr ⟨h, hHost, hOther⟩)

theorem getHost_actsWithinSegment :
    ActsWithinSegment isUuidLike .getHost segmentUuid uuid db ↔
      Addresses isUuidLike .getHost segmentUuid uuid db := by
  have hRun : Ensures (getHost isUuidLike segmentUuid uuid) db _ _ := getHost_spec
  constructor
  · intro hActs hElsewhere
    refine of_notFound hActs hElsewhere
      (ensures_map.mpr (ensures_mono hRun (fun _ _ _ => trivial) fun _ _ he => he))
      fun e db' he hIs => ?_
    obtain ⟨hLive, hLike | hNone⟩ := he.2.mp hIs
    · exact ⟨hLive, hLike⟩
    · obtain ⟨h, hHost, -⟩ := elsewhere_iff.mp hElsewhere
      rw [hHost] at hNone
      cases hNone
  · intro hAddresses
    refine ensures_map.mpr (ensures_mono hRun ?_ ?_)
    · rintro o db' ⟨rfl, hLike, hHost⟩
      refine ⟨onlyHost_refl, ?_, o.host, hHost, segment_of_not_elsewhere hHost ?_, ?_⟩
      · intro o' ho'
        cases ho'
        exact uuid_of_liveHost hHost
      · intro hElsewhere
        have hNot := (hAddresses hElsewhere).2
        rw [hLike] at hNot
        cases hNot
      · intro h
        cases h
    · rintro e db' ⟨hSame, hIff⟩
      refine ⟨hSame, fun hElsewhere => ?_⟩
      obtain ⟨hLive, hLike⟩ := hAddresses hElsewhere
      exact hIff.mpr ⟨hLive, Or.inl hLike⟩

theorem updateHost_actsWithinSegment {d : HostData} :
    ActsWithinSegment isUuidLike (.updateHost d) segmentUuid uuid db ↔
      Addresses isUuidLike (.updateHost d) segmentUuid uuid db := by
  have hRun : Ensures (updateHost segmentUuid uuid d) db _ _ := updateHost_spec
  constructor
  · intro hActs hElsewhere
    refine of_notFound hActs hElsewhere
      (ensures_map.mpr (ensures_mono hRun (fun _ _ _ => trivial) fun _ _ he => he))
      fun e db' he hIs => ?_
    obtain ⟨h, hHost, -⟩ := elsewhere_iff.mp hElsewhere
    have hNone := he.2 hIs
    rw [hHost] at hNone
    cases hNone
  · intro hAddresses
    refine ensures_map.mpr (ensures_mono hRun ?_ ?_)
    · rintro o db' ⟨hOnly, hUuid, hSome, hUse⟩
      obtain ⟨h, hHost⟩ := Option.isSome_iff_exists.mp hSome
      have hSegment := segment_of_not_elsewhere hHost fun hElsewhere => (hAddresses hElsewhere).2
      refine ⟨hOnly, ?_, h, hHost, hSegment, fun _ => ?_⟩
      · intro o' ho'
        cases ho'
        exact hUuid
      · rw [hSegment]
        exact hUse
    · rintro e db' ⟨hSame, -⟩
      exact ⟨hSame, fun hElsewhere => (hAddresses hElsewhere).2.elim⟩

theorem deleteHost_actsWithinSegment :
    ActsWithinSegment isUuidLike .deleteHost segmentUuid uuid db ↔
      Addresses isUuidLike .deleteHost segmentUuid uuid db := by
  have hRun : Ensures (deleteHost segmentUuid uuid) db _ _ := deleteHost_spec
  constructor
  · intro hActs hElsewhere
    refine of_notFound hActs hElsewhere
      (ensures_map.mpr (ensures_mono hRun (fun _ _ _ => trivial) fun _ _ he => he))
      fun e db' he hIs => ?_
    obtain ⟨h, hHost, -⟩ := elsewhere_iff.mp hElsewhere
    obtain ⟨hLive, hEmpty⟩ := he.2.mp hIs
    exact ⟨hLive, (hEmpty h hHost).1⟩
  · intro hAddresses
    refine ensures_map.mpr (ensures_mono hRun ?_ ?_)
    · rintro _ db' ⟨hOnly, hUse, h, hHost, hBelongs⟩
      have hSegment : h.failoverSegmentId = segmentUuid := by
        by_contra hOther
        exact hOther (hBelongs (hAddresses (elsewhere_iff.mpr ⟨h, hHost, hOther⟩)).2)
      refine ⟨hOnly, ?_, h, hHost, hSegment, fun _ => ?_⟩
      · intro o ho
        cases ho
      · rw [hSegment]
        exact hUse
    · rintro e db' ⟨hSame, hIff⟩
      refine ⟨hSame, fun hElsewhere => ?_⟩
      obtain ⟨hLive, hEmpty⟩ := hAddresses hElsewhere
      refine hIff.mpr ⟨hLive, fun h hHost => ⟨hEmpty, ?_⟩⟩
      obtain ⟨h', hHost', hOther⟩ := elsewhere_iff.mp hElsewhere
      rw [hHost] at hHost'
      cases hHost'
      exact hOther

end Addressed

/-- An operation keeps to the addressed pair exactly when no live host of another segment has
the uuid, or the operation looks for it in the addressed segment or does not look at all. -/
theorem actsWithinSegment_iff (isUuidLike : String → Bool) (op : HostOperation)
    (segmentUuid hostUuid : String) (db : Db) :
    ActsWithinSegment isUuidLike op segmentUuid hostUuid db ↔
      Addresses isUuidLike op segmentUuid hostUuid db := by
  cases op with
  | getHost => exact getHost_actsWithinSegment
  | updateHost d => exact updateHost_actsWithinSegment
  | deleteHost => exact deleteHost_actsWithinSegment

/-! ## A host in the middle of its recovery -/

/-- A host of the segment `east` is being recovered; the segment `west` is not used. -/
def recoveringEast : Db where
  segments := ⟨[⟨"west", "w", .auto, 0⟩, ⟨"east", "e", .reservedHost, 0⟩], by decide⟩
  hosts := ⟨[⟨1, 0, "h", "compute7", false, true, "east", 0⟩], by decide⟩
  notifications :=
    ⟨[⟨1, 0, "n", 0, "h", .computeHost, [⟨"event", "STOPPED"⟩].toFinmap, .running, 0⟩], by decide⟩

/-- Every operation keeps to the addressed pair. -/
def AlwaysActsWithinSegment : Prop :=
  ∀ (isUuidLike : String → Bool) (op : HostOperation) (segmentUuid hostUuid : String) (db : Db),
    ActsWithinSegment isUuidLike op segmentUuid hostUuid db

/-- Addressed under `west`, the host is updated in the middle of its recovery. -/
theorem not_alwaysActsWithinSegment : ¬ AlwaysActsWithinSegment := by
  intro h
  have hUpdate := h (fun _ => true) (.updateHost { onMaintenance := some (.bool false) }) "west" "h"
    recoveringEast
  have hUpdated : Ensures (HostOperation.run (fun _ => true) "west" "h"
      (.updateHost { onMaintenance := some (.bool false) })) recoveringEast
      (fun _ db' => (db'.liveHost "h").map (·.onMaintenance) = some false) (fun _ _ => False) :=
    rfl
  have hHost : (recoveringEast.liveHost "h").map (·.failoverSegmentId) = some "east" := rfl
  refine not_ensures_false _ _ (ensures_mono (ensures_and.mpr ⟨hUpdate, hUpdated⟩) ?_ ?_)
  · rintro _ _ ⟨⟨_, _, h', hHost', hWest, _⟩, _⟩
    rw [hHost', Option.map_some, hWest] at hHost
    simp at hHost
  · rintro _ _ ⟨_, hFalse⟩
    exact hFalse

end MasakariHA.Ha
