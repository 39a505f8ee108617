import MasakariHA.Api.HostsSchema
import MasakariHA.Ha.SegmentsHosts
import MasakariHA.Lib.PyString

/-!
# Requests that write a host

`create_host` and `update_host` with the values that pass through them. A host is described three
times: by the schema of a request, by the fields of the object, and by the columns of the table,
some of which are nullable where the field is not. `Db.Api` has the rows without `NULL` and without
the columns that decide nothing; what a call does to them is in `Ha.ForgetColumns`.

* `SegmentRow`, `HostRow` and `SegmentObject`, `HostObject`: columns and fields;
* `createHost`, `updateHost`: the calls, on a decoded body;
* `HostRequest`, `AnswersClient`: a request, and the exceptions that its controller answers;
* `answersClient_iff`: when a request ends in an answer to the client.
-/

namespace MasakariHA.Ha.HostRequests

open Lib Lib.PyRegex MasakariHA.Api

/-! ## Columns -/

/-- The columns of `MasakariAPIBase` and `SoftDeleteMixin`. -/
structure PersistentColumns where
  createdAt : Option Int
  updatedAt : Option Int
  deletedAt : Option Int
  deleted : Option Nat
  deriving DecidableEq, Repr

/-- The columns of `failover_segments`. -/
structure SegmentRow extends PersistentColumns where
  id : Nat
  uuid : String
  name : String
  serviceType : String
  description : Option String
  recoveryMethod : RecoveryMethod
  deriving DecidableEq, Repr

/-- The columns of `hosts`. -/
structure HostRow extends PersistentColumns where
  id : Nat
  uuid : String
  name : String
  reserved : Option Bool
  type : String
  controlAttributes : String
  onMaintenance : Option Bool
  failoverSegmentId : String
  deriving DecidableEq, Repr

/-- The content of the database. -/
structure Store where
  segments : Table SegmentRow.uuid
  hosts : Table HostRow.uuid
  notifications : Table Notification.notificationUuid

namespace Store

variable (s : Store)

def liveSegment (uuid : String) : Option SegmentRow :=
  (s.segments.get? uuid).filter (fun r => r.deleted = some 0)

def liveHost (uuid : String) : Option HostRow :=
  (s.hosts.get? uuid).filter (fun r => r.deleted = some 0)

/-- Another live row has the name (`uniq_host0name0deleted`). -/
def hostNameTaken (uuid name : String) : Bool :=
  s.hosts.rows.any fun r => r.deleted = some 0 && r.name = name && r.uuid ≠ uuid

/-- `is_failover_segment_under_recovery` of `db/sqlalchemy/api.py`. -/
def isUnderRecovery (uuid : String) : Bool :=
  let hosts := (s.hosts.rows.filter fun r =>
    r.deleted = some 0 && r.failoverSegmentId = uuid).map (·.uuid)
  s.notifications.rows.any fun n =>
    n.deleted = 0 && n.status ∈ recoveryStatuses && n.sourceHostUuid ∈ hosts

end Store

/-! ## Fields -/

/-- The fields of `MasakariPersistentObject`. -/
structure PersistentFields where
  createdAt : Option Int
  updatedAt : Option Int
  deletedAt : Option Int
  deleted : Bool
  deriving DecidableEq, Repr

/-- `FailoverSegment.fields`. -/
structure SegmentObject extends PersistentFields where
  id : Nat
  uuid : String
  name : String
  serviceType : String
  description : Option String
  recoveryMethod : RecoveryMethod
  deriving DecidableEq, Repr

/-- `Host.fields`. -/
structure HostObject extends PersistentFields where
  id : Nat
  uuid : String
  name : String
  failoverSegmentId : String
  failoverSegment : SegmentObject
  type : String
  reserved : Bool
  controlAttributes : String
  onMaintenance : Bool
  deriving DecidableEq, Repr

def valueError : Exc := .other "ValueError"

/-- A column is assigned to a field that is not nullable. -/
def notNull {α : Type} : Option α → Except Exc α
  | some a => .ok a
  | none => .error valueError

/-- `StringField.coerce`, the field not nullable. -/
def coerceString : Json → Except Exc String
  | .string s => .ok s
  | .bool b => .ok (Json.bool b).str
  | .number text => .ok text
  | .null | .array _ | .object _ => .error valueError

def PersistentColumns.fields (r : PersistentColumns) : Except Exc PersistentFields := do
  let deleted ← notNull r.deleted
  pure ⟨r.createdAt, r.updatedAt, r.deletedAt, deleted ≠ 0⟩

/-- `FailoverSegment._from_db_object`. -/
def SegmentRow.fromDbObject (r : SegmentRow) : Except Exc SegmentObject := do
  let fields ← r.fields
  pure ⟨fields, r.id, r.uuid, r.name, r.serviceType, r.description, r.recoveryMethod⟩

/-- `Host._from_db_object`, with the row that the relation `failover_segment` joins. -/
def HostRow.fromDbObject (r : HostRow) (segment : Option SegmentRow) : Except Exc HostObject := do
  let fields ← r.fields
  let reserved ← notNull r.reserved
  let onMaintenance ← notNull r.onMaintenance
  match segment with
  | none => .error (.other "TypeError")
  | some segment => do
    let failoverSegment ← segment.fromDbObject
    pure ⟨fields, r.id, r.uuid, r.name, r.failoverSegmentId, failoverSegment, r.type, reserved,
      r.controlAttributes, onMaintenance⟩

/-! ## The database -/

/-- A program over the database. -/
abbrev StoreM := EStateM Exc Store

def failoverSegmentGetByUuid (uuid : String) : StoreM SegmentObject := do
  let s ← get
  match s.liveSegment uuid with
  | some r => MonadExcept.ofExcept r.fromDbObject
  | none => throw (failoverSegmentNotFound uuid)

/-- The row as an object. -/
def readHost (r : HostRow) : StoreM HostObject := do
  let s ← get
  MonadExcept.ofExcept (r.fromDbObject (s.segments.get? r.failoverSegmentId))

def hostGetByUuid (uuid : String) : StoreM HostObject := do
  let s ← get
  match s.liveHost uuid with
  | some r => readHost r
  | none => throw (hostNotFound uuid)

/-- `obj_get_changes` of a host that was read. -/
structure HostChanges where
  name : Option String
  reserved : Option Bool
  type : Option String
  controlAttributes : Option String
  onMaintenance : Option Bool

def HostChanges.apply (v : HostChanges) (r : HostRow) : HostRow :=
  { r with
    name := v.name.getD r.name
    reserved := v.reserved.or r.reserved
    type := v.type.getD r.type
    controlAttributes := v.controlAttributes.getD r.controlAttributes
    onMaintenance := v.onMaintenance.or r.onMaintenance }

theorem HostChanges.uuid_apply (v : HostChanges) (r : HostRow) : (v.apply r).uuid = r.uuid := rfl

section Writes

variable (storesText : String → Bool)

/-- `host_create`. A `Text` column stores the texts of `storesText`: some databases bound their
length. -/
def hostCreate (values : HostRow) : StoreM HostRow := do
  let s ← get
  let r := { values with id := s.hosts.rows.length + 1 }
  if storesText r.controlAttributes = false then throw (.other "DBDataError")
  else if s.hostNameTaken r.uuid r.name then throw (hostExists r.name)
  else if (s.segments.get? r.failoverSegmentId).isNone then throw (.other "DBReferenceError")
  else
    match s.hosts.insert r with
    | none => throw (hostExists r.name)
    | some hosts => do
      set { s with hosts }
      pure r

/-- `host_update`. -/
def hostUpdate (uuid : String) (v : HostChanges) : StoreM HostRow := do
  let s ← get
  match s.liveHost uuid with
  | none => throw (hostNotFound uuid)
  | some r =>
    if v.controlAttributes.any (storesText · = false) then throw (.other "DBDataError")
    else if s.hostNameTaken uuid (v.apply r).name then throw (hostExists (v.name.getD "None"))
    else do
      set { s with hosts := s.hosts.modify uuid v.apply v.uuid_apply }
      pure (v.apply r)

end Writes

/-! ## The calls -/

/-- `strutils.bool_from_string` with `strict`, on a text; `none` is its `ValueError`. It takes the
values of the schema's type `boolean`. -/
structure Strutils where
  boolFromString : String → Option Bool
  takes : ∀ v ∈ ParameterTypes.booleanEnum, (boolFromString v.str).isSome = true

section Bodies

variable (strutils : Strutils)

/-- `strutils.bool_from_string(value, strict=True)`. -/
def boolFromString : Json → Except Exc Bool
  | .bool b => .ok b
  | v => notNull (strutils.boolFromString v.str)

/-- The assignments of `create_host`, and the changes that they make; the uuid is generated. -/
def populateHost (segment : SegmentObject) (d : HostBody) (uuid : String) (utcnow : Int) :
    Except Exc HostRow := do
  let name ← coerceString (d.name.getD .null)
  let type ← coerceString (d.type.getD .null)
  let controlAttributes ← coerceString (d.controlAttributes.getD .null)
  let onMaintenance ← boolFromString strutils (d.onMaintenance.getD (.bool false))
  let reserved ← boolFromString strutils (d.reserved.getD (.bool false))
  pure
    { createdAt := some utcnow, updatedAt := none, deletedAt := none, deleted := some 0, id := 0,
      uuid, name, reserved := some reserved, type, controlAttributes,
      onMaintenance := some onMaintenance, failoverSegmentId := segment.uuid }

/-- `host_data[key] = bool_from_string(host_data[key])`, if the key is there. -/
def convertFlag : Option Json → Except Exc (Option Bool)
  | none => .ok none
  | some v => (boolFromString strutils v).map some

/-- `host.update(host_data)` of one string, if the key is there. -/
def assign (old : String) : Option Json → Except Exc String
  | none => .ok old
  | some v => coerceString v

/-- A field that was set to another value. -/
def changed {α : Type} [DecidableEq α] (old new : α) : Option α :=
  if new = old then none else some new

/-- The conversions and assignments of `update_host`, and the changes that they make. -/
def updatesOf (host : HostObject) (d : HostBody) : Except Exc HostChanges := do
  let onMaintenance ← convertFlag strutils d.onMaintenance
  let reserved ← convertFlag strutils d.reserved
  let name ← assign host.name d.name
  let type ← assign host.type d.type
  let controlAttributes ← assign host.controlAttributes d.controlAttributes
  pure
    { name := changed host.name name
      reserved := reserved.bind (changed host.reserved)
      type := changed host.type type
      controlAttributes := changed host.controlAttributes controlAttributes
      onMaintenance := onMaintenance.bind (changed host.onMaintenance) }

end Bodies

section Calls

variable (strutils : Strutils) (storesText : String → Bool) (segmentUuid : String)

def createHost (d : HostBody) (uuid : String) (utcnow : Int) : StoreM HostObject := do
  let segment ← failoverSegmentGetByUuid segmentUuid
  let values ← MonadExcept.ofExcept (populateHost strutils segment d uuid utcnow)
  let row ← hostCreate storesText values
  readHost row

def updateHost (id : String) (d : HostBody) : StoreM HostObject := do
  let segment ← failoverSegmentGetByUuid segmentUuid
  let host ← hostGetByUuid id
  let s ← get
  if s.isUnderRecovery segment.uuid then throw (hostNotUpdated host.uuid)
  else do
    let updates ← MonadExcept.ofExcept (updatesOf strutils host d)
    let row ← hostUpdate storesText host.uuid updates
    readHost row

end Calls

/-! ## Requests -/

inductive HostRequest where
  | create (d : HostBody) (uuid : String) (utcnow : Int)
  | update (id : String) (d : HostBody)

namespace HostRequest

/-- The decorator `validation.schema` lets the request through. -/
def accepted (u : UnicodeData) : HostRequest → Bool
  | .create d _ _ => HostsSchema.create u d
  | .update _ d => HostsSchema.update u d

def run (strutils : Strutils) (storesText : String → Bool) (segmentUuid : String) :
    HostRequest → StoreM HostObject
  | .create d uuid utcnow => createHost strutils storesText segmentUuid d uuid utcnow
  | .update id d => updateHost strutils storesText segmentUuid id d

/-- The classes that the controller's `except` clauses turn into a client error. -/
def translated : HostRequest → List MasakariClass
  | .create _ _ _ => [.failoverSegmentNotFound, .hostExists]
  | .update _ _ => [.hostNotFound, .failoverSegmentNotFound, .hostExists, .conflict]

def answers (r : HostRequest) (e : Exc) : Bool := r.translated.any fun cls => e.isA cls

end HostRequest

/-- A database content: `fk_failover_segments_uuid` holds, and each text is one that can be
stored. -/
structure Content (storesText : String → Bool) where
  store : Store
  segment : ∀ r ∈ store.hosts.rows, (store.segments.get? r.failoverSegmentId).isSome = true
  text : ∀ r ∈ store.hosts.rows, storesText r.controlAttributes = true

section Answers

variable (strutils : Strutils) (storesText : String → Bool) (segmentUuid : String)

/-- The call succeeds, or raises what the controller answers with a client error. -/
def AnswersClient (r : HostRequest) (s : Store) : Prop :=
  Ensures (r.run strutils storesText segmentUuid) s (fun _ _ => True)
    (fun e _ => r.answers e = true)

/-- No `null` is given. -/
structure NoNull (d : HostBody) : Prop where
  type : d.type ≠ some .null
  controlAttributes : d.controlAttributes ≠ some .null

/-- The fields and the columns take what is given. -/
structure Assignable (d : HostBody) : Prop extends NoNull d where
  text : ∀ text, d.controlAttributes = some (.string text) → storesText text = true

/-- No column of the host or its segment is `NULL` where the field is not nullable. -/
structure Readable (s : Store) (r : HostRow) : Prop where
  reserved : r.reserved ≠ none
  onMaintenance : r.onMaintenance ≠ none
  segment : ∀ segment, s.segments.get? r.failoverSegmentId = some segment → segment.deleted ≠ none

/-- When a request should get an answer: what it addresses is not there, or it can be read and
takes what is given. -/
def Answerable (s : Store) : HostRequest → Prop
  | .create d _ _ => s.liveSegment segmentUuid = none ∨ Assignable storesText d
  | .update id d => s.liveSegment segmentUuid = none ∨ ∀ r, s.liveHost id = some r →
    Readable s r ∧ (s.isUnderRecovery segmentUuid = true ∨ Assignable storesText d)

end Answers

/-! ## Reading a row -/

section Read

variable {s : Store} {uuid : String}

theorem liveSegment_eq_some {r : SegmentRow} :
    s.liveSegment uuid = some r ↔ s.segments.get? uuid = some r ∧ r.deleted = some 0 := by
  simp [Store.liveSegment, Option.filter_eq_some_iff]

theorem liveHost_eq_some {r : HostRow} :
    s.liveHost uuid = some r ↔ s.hosts.get? uuid = some r ∧ r.deleted = some 0 := by
  simp [Store.liveHost, Option.filter_eq_some_iff]

theorem SegmentRow.fromDbObject_of_some {r : SegmentRow} {n : Nat} (h : r.deleted = some n) :
    ∃ o, r.fromDbObject = .ok o ∧ o.uuid = r.uuid := by
  unfold SegmentRow.fromDbObject PersistentColumns.fields
  rw [h]
  exact ⟨_, rfl, rfl⟩

theorem SegmentRow.fromDbObject_of_none {r : SegmentRow} (h : r.deleted = none) :
    r.fromDbObject = .error valueError := by
  unfold SegmentRow.fromDbObject PersistentColumns.fields
  rw [h]
  rfl

/-- The object was read from the row. -/
structure ReadFrom (r : HostRow) (o : HostObject) : Prop where
  uuid : o.uuid = r.uuid
  name : o.name = r.name
  controlAttributes : o.controlAttributes = r.controlAttributes
  reserved : r.reserved = some o.reserved
  onMaintenance : r.onMaintenance = some o.onMaintenance

theorem HostRow.fromDbObject_readable {r : HostRow} (hLive : r.deleted = some 0)
    (hSegment : (s.segments.get? r.failoverSegmentId).isSome = true) (hRead : Readable s r) :
    ∃ o, r.fromDbObject (s.segments.get? r.failoverSegmentId) = .ok o ∧ ReadFrom r o := by
  obtain ⟨segment, hGet⟩ := Option.isSome_iff_exists.mp hSegment
  obtain ⟨reserved, hReserved⟩ := Option.ne_none_iff_exists'.mp hRead.reserved
  obtain ⟨onMaintenance, hMaintenance⟩ := Option.ne_none_iff_exists'.mp hRead.onMaintenance
  obtain ⟨n, hDeleted⟩ := Option.ne_none_iff_exists'.mp (hRead.segment segment hGet)
  obtain ⟨o, hObject, -⟩ := SegmentRow.fromDbObject_of_some hDeleted
  unfold HostRow.fromDbObject PersistentColumns.fields
  rw [hLive, hReserved, hMaintenance, hGet]
  simp only [notNull, bind, Except.bind, pure, Except.pure, hObject]
  exact ⟨_, rfl, rfl, rfl, rfl, hReserved, hMaintenance⟩

theorem HostRow.fromDbObject_not_readable {r : HostRow} (hLive : r.deleted = some 0)
    (hSegment : (s.segments.get? r.failoverSegmentId).isSome = true) (hRead : ¬ Readable s r) :
    r.fromDbObject (s.segments.get? r.failoverSegmentId) = .error valueError := by
  obtain ⟨segment, hGet⟩ := Option.isSome_iff_exists.mp hSegment
  unfold HostRow.fromDbObject PersistentColumns.fields
  rw [hLive, hGet]
  simp only [notNull, bind, Except.bind, pure, Except.pure]
  cases hReserved : r.reserved with
  | none => rfl
  | some reserved =>
    cases hMaintenance : r.onMaintenance with
    | none => rfl
    | some onMaintenance =>
      have hNull : segment.deleted = none := by
        by_contra hDeleted
        refine hRead ⟨by simp [hReserved], by simp [hMaintenance], fun segment' hGet' => ?_⟩
        rw [hGet] at hGet'
        cases hGet'
        exact hDeleted
      simp only [SegmentRow.fromDbObject_of_none hNull]

theorem readHost_spec {r : HostRow} (hLive : r.deleted = some 0)
    (hSegment : (s.segments.get? r.failoverSegmentId).isSome = true) :
    Ensures (readHost r) s
      (fun o s' => Readable s r ∧ s' = s ∧ ReadFrom r o)
      (fun e _ => ¬ Readable s r ∧ e = valueError) := by
  rw [readHost, ensures_bind, ensures_get, Lib.ensures_ofExcept]
  by_cases hRead : Readable s r
  · obtain ⟨o, hObject, hSame⟩ := HostRow.fromDbObject_readable hLive hSegment hRead
    rw [hObject]
    exact ⟨hRead, rfl, hSame⟩
  · rw [HostRow.fromDbObject_not_readable hLive hSegment hRead]
    exact ⟨hRead, rfl⟩

end Read

/-! ## Values of an accepted body -/

section Values

variable {strutils : Strutils} {u : UnicodeData} {d : HostBody} {v : Json}

theorem boolFromString_enum (h : v ∈ ParameterTypes.booleanEnum) :
    ∃ b, boolFromString strutils v = .ok b := by
  obtain ⟨b, hParsed⟩ := Option.isSome_iff_exists.mp (strutils.takes v h)
  cases v with
  | bool b => exact ⟨b, rfl⟩
  | null | number text | string s | array text | object text =>
    refine ⟨b, ?_⟩
    simp only [boolFromString]
    rw [hParsed]
    rfl

theorem convertFlag_enum {o : Option Json} (h : ∀ v ∈ o, v ∈ ParameterTypes.booleanEnum) :
    ∃ b, convertFlag strutils o = .ok b := by
  cases o with
  | none => exact ⟨none, rfl⟩
  | some v =>
    have hFlag : ∃ b, boolFromString strutils v = .ok b := boolFromString_enum (h v rfl)
    obtain ⟨b, hParsed⟩ := hFlag
    exact ⟨some b, by rw [convertFlag, hParsed]; rfl⟩

theorem boolFromString_default {o : Option Json} (h : ∀ v ∈ o, v ∈ ParameterTypes.booleanEnum) :
    ∃ b, boolFromString strutils (o.getD (.bool false)) = .ok b := by
  cases o with
  | none => exact ⟨false, rfl⟩
  | some v => exact boolFromString_enum (h v rfl)

/-- The changes that `create_host` makes are complete, unless a `null` is assigned. -/
theorem populateHost_cases (h : HostsSchema.create u d = true) (segment : SegmentObject)
    (uuid : String) (utcnow : Int) :
    (NoNull d ∧ ∃ row, populateHost strutils segment d uuid utcnow = .ok row ∧
      d.controlAttributes = some (.string row.controlAttributes) ∧ row.deleted = some 0 ∧
      row.reserved ≠ none ∧ row.onMaintenance ≠ none ∧ row.failoverSegmentId = segment.uuid) ∨
    ¬ NoNull d ∧ populateHost strutils segment d uuid utcnow = .error valueError := by
  simp only [HostsSchema.create, Bool.and_eq_true, Option.isSome_iff_exists] at h
  obtain ⟨⟨⟨hBase, name, hName⟩, type, hType⟩, control, hControl⟩ := h
  have hShapes := HostsSchema.accepted_shapes hBase
  obtain ⟨nameText, rfl⟩ := hShapes.name name hName
  obtain ⟨onMaintenance, hMaintenance⟩ := boolFromString_default hShapes.onMaintenance
  obtain ⟨reserved, hReserved⟩ := boolFromString_default hShapes.reserved
  unfold populateHost
  rw [hName, hType, hControl, hMaintenance, hReserved]
  cases hShapes.type type hType with
  | null => exact Or.inr ⟨fun hNoNull => hNoNull.type hType, rfl⟩
  | string typeText =>
    cases hShapes.controlAttributes control hControl with
    | null => exact Or.inr ⟨fun hNoNull => hNoNull.controlAttributes hControl, rfl⟩
    | string controlText =>
      refine Or.inl ⟨⟨by simp [hType], by simp [hControl]⟩, _, rfl, rfl, rfl, ?_, ?_, rfl⟩
      · exact Option.some_ne_none reserved
      · exact Option.some_ne_none onMaintenance

theorem assign_textual (old : String) {o : Option Json} (h : ∀ v ∈ o, HostsSchema.Textual v) :
    (o = some .null ∧ assign old o = .error valueError) ∨ o ≠ some .null ∧ ∃ new,
      assign old o = .ok new ∧ (o = none ∧ new = old ∨ o = some (.string new)) := by
  cases o with
  | none => exact Or.inr ⟨nofun, old, rfl, Or.inl ⟨rfl, rfl⟩⟩
  | some v =>
    cases h v rfl with
    | null => exact Or.inl ⟨rfl, rfl⟩
    | string s => exact Or.inr ⟨by simp, s, rfl, Or.inr rfl⟩

theorem changed_eq_some {old new a : String} : changed old new = some a ↔ new = a ∧ new ≠ old := by
  unfold changed
  split
  · rename_i hSame
    exact ⟨nofun, fun h => absurd hSame h.2⟩
  · rename_i hNe
    rw [Option.some.injEq]
    exact (and_iff_left hNe).symm

/-- Only a text that was given is a change, and one that was given is, but for the old one. -/
theorem changed_of_assign {o : Option Json} {old new : String}
    (h : o = none ∧ new = old ∨ o = some (.string new)) :
    (∀ text, changed old new = some text → o = some (.string text)) ∧
      ∀ text, o = some (.string text) → text = old ∨ changed old new = some text := by
  constructor
  · intro text hText
    obtain ⟨rfl, hOther⟩ := changed_eq_some.mp hText
    rcases h with ⟨-, hSame⟩ | hGiven
    · exact absurd hSame hOther
    · exact hGiven
  · intro text hText
    rcases h with ⟨hNone, -⟩ | hGiven
    · rw [hNone] at hText
      cases hText
    · rw [hGiven] at hText
      cases hText
      by_cases hSame : new = old
      · exact Or.inl hSame
      · exact Or.inr (changed_eq_some.mpr ⟨rfl, hSame⟩)

/-- The changes that `update_host` makes, unless a `null` is assigned. -/
theorem updatesOf_cases (h : HostsSchema.update u d = true) (host : HostObject) :
    (NoNull d ∧ ∃ updates, updatesOf strutils host d = .ok updates ∧
      (∀ text, updates.controlAttributes = some text → d.controlAttributes = some (.string text)) ∧
      ∀ text, d.controlAttributes = some (.string text) → text = host.controlAttributes ∨
        updates.controlAttributes = some text) ∨
    ¬ NoNull d ∧ updatesOf strutils host d = .error valueError := by
  have hShapes := HostsSchema.accepted_shapes (HostsSchema.base_of_update h)
  obtain ⟨onMaintenance, hMaintenance⟩ := convertFlag_enum hShapes.onMaintenance
  obtain ⟨reserved, hReserved⟩ := convertFlag_enum hShapes.reserved
  have hName : ∃ name, assign host.name d.name = .ok name := by
    cases hGiven : d.name with
    | none => exact ⟨host.name, rfl⟩
    | some v =>
      obtain ⟨text, rfl⟩ := hShapes.name v hGiven
      exact ⟨text, rfl⟩
  obtain ⟨name, hName⟩ := hName
  unfold updatesOf
  rw [hMaintenance, hReserved, hName]
  simp only [bind, Except.bind, pure, Except.pure]
  rcases assign_textual host.type hShapes.type with ⟨hNull, hError⟩ | ⟨hType, type, hOk, -⟩
  · rw [hError]
    exact Or.inr ⟨fun hNoNull => hNoNull.type hNull, rfl⟩
  rw [hOk]
  rcases assign_textual host.controlAttributes hShapes.controlAttributes with
    ⟨hNull, hError⟩ | ⟨hControl, control, hOk, hNew⟩
  · rw [hError]
    exact Or.inr ⟨fun hNoNull => hNoNull.controlAttributes hNull, rfl⟩
  rw [hOk]
  exact Or.inl ⟨⟨hType, hControl⟩, _, rfl, changed_of_assign hNew⟩

end Values

/-! ## Writing a row -/

section Write

variable {storesText : String → Bool} {s : Store}

/-- A write fails on a text that does not fit, or else on the name. -/
inductive WriteFails (fits : Prop) : Exc → Prop
  | text (h : ¬ fits) : WriteFails fits (.other "DBDataError")
  | name (h : fits) (name : String) : WriteFails fits (hostExists name)

theorem hostCreate_spec (values : HostRow)
    (hSegment : (s.segments.get? values.failoverSegmentId).isSome = true) :
    Ensures (hostCreate storesText values) s
      (fun r s' => storesText values.controlAttributes = true ∧
        s.hostNameTaken values.uuid values.name = false ∧ ∃ hosts,
          r = { values with id := s.hosts.rows.length + 1 } ∧ s.hosts.insert r = some hosts ∧
            s' = { s with hosts })
      (fun e _ => WriteFails (storesText values.controlAttributes = true) e) := by
  unfold hostCreate
  rw [ensures_bind, ensures_get]
  dsimp only
  by_cases hText : storesText values.controlAttributes = true
  · rw [if_neg (by simp [hText])]
    split
    · exact .name hText _
    · rename_i hFree
      rw [if_neg (by simp [Option.isSome_iff_ne_none.mp hSegment])]
      split
      · exact .name hText _
      · rename_i hosts hInsert
        exact ⟨hText, Bool.eq_false_of_not_eq_true hFree, hosts, rfl, hInsert, rfl⟩
  · rw [if_pos (by simpa using hText)]
    exact .text hText

theorem hostUpdate_spec {uuid : String} {r : HostRow} (hLive : s.liveHost uuid = some r)
    (v : HostChanges) :
    Ensures (hostUpdate storesText uuid v) s
      (fun r' s' => (∀ text ∈ v.controlAttributes, storesText text = true) ∧
        s.hostNameTaken uuid (v.apply r).name = false ∧ r' = v.apply r ∧
          s' = { s with hosts := s.hosts.modify uuid v.apply v.uuid_apply })
      (fun e _ => WriteFails (∀ text ∈ v.controlAttributes, storesText text = true) e) := by
  have hAny : v.controlAttributes.any (fun text => decide (storesText text = false)) = true ↔
      ¬ ∀ text ∈ v.controlAttributes, storesText text = true := by
    cases v.controlAttributes <;> simp
  unfold hostUpdate
  rw [ensures_bind, ensures_get, hLive]
  dsimp only
  by_cases hText : ∀ text ∈ v.controlAttributes, storesText text = true
  · rw [if_neg (mt hAny.mp (not_not.mpr hText))]
    split
    · exact .name hText _
    · rename_i hFree
      exact ⟨hText, Bool.eq_false_of_not_eq_true hFree, rfl, rfl⟩
  · rw [if_pos (hAny.mpr hText)]
    exact .text hText

end Write

/-! ## Which requests are answered -/

section Answered

variable {strutils : Strutils} {u : UnicodeData} {storesText : String → Bool}
  {segmentUuid : String}

@[simp] theorem ensures_failoverSegmentGetByUuid {s : Store} {uuid : String}
    {Q : SegmentObject → Store → Prop} {E : Exc → Store → Prop} :
    Ensures (failoverSegmentGetByUuid uuid) s Q E ↔
      match s.liveSegment uuid with
      | some r => Ensures (MonadExcept.ofExcept r.fromDbObject) s Q E
      | none => E (failoverSegmentNotFound uuid) s := by
  rw [failoverSegmentGetByUuid, ensures_bind, ensures_get]
  cases s.liveSegment uuid <;> exact Iff.rfl

theorem ensures_failoverSegmentGetByUuid_live {s : Store} {row : SegmentRow}
    (h : s.liveSegment segmentUuid = some row) : ∃ segment : SegmentObject,
      segment.uuid = segmentUuid ∧ ∀ (Q : SegmentObject → Store → Prop) (E : Exc → Store → Prop),
        Ensures (failoverSegmentGetByUuid segmentUuid) s Q E ↔ Q segment s := by
  obtain ⟨hGet, hDeleted⟩ := liveSegment_eq_some.mp h
  obtain ⟨segment, hRead, hUuid⟩ := SegmentRow.fromDbObject_of_some hDeleted
  refine ⟨segment, hUuid.trans (Table.key_of_get? hGet), fun Q E => ?_⟩
  rw [ensures_failoverSegmentGetByUuid, h]
  dsimp only
  rw [hRead]
  exact Lib.ensures_ofExcept

/-- If a run decides `p` by how it ends, then `p` is whether it ends well. -/
theorem ensures_decides {α : Type} {x : StoreM α} {s : Store} {A : Exc → Prop} {p : Prop}
    (h : Ensures x s (fun _ _ => p) (fun e _ => A e ↔ p)) :
    Ensures x s (fun _ _ => True) (fun e _ => A e) ↔ p :=
  (ensures_congr h (fun _ _ hp => iff_of_true trivial hp) fun _ _ he => he).trans
    (ensures_const x s p)

/-- `host.create()`. -/
theorem insert_spec {s : Store} {values : HostRow} (hLive : values.deleted = some 0)
    (hSegment : (s.segments.get? values.failoverSegmentId).isSome = true)
    (hReadable : Readable s values) :
    Ensures (do
        let row ← hostCreate storesText values
        readHost row) s
      (fun _ _ => storesText values.controlAttributes = true)
      (fun e _ => WriteFails (storesText values.controlAttributes = true) e) := by
  rw [ensures_bind]
  refine ensures_mono (hostCreate_spec values hSegment) ?_ fun _ _ hFails => hFails
  rintro r s' ⟨hStores, -, hosts, rfl, -, rfl⟩
  refine ensures_mono (readHost_spec hLive hSegment) (fun _ _ _ => hStores) fun e _ hFails => ?_
  exact absurd ⟨hReadable.reserved, hReadable.onMaintenance, hReadable.segment⟩ hFails.1

theorem createHost_spec (c : Content storesText) {d : HostBody}
    (h : HostsSchema.create u d = true) (uuid : String) (utcnow : Int) :
    Ensures (createHost strutils storesText segmentUuid d uuid utcnow) c.store
      (fun _ _ => Answerable storesText segmentUuid c.store (.create d uuid utcnow))
      (fun e _ => HostRequest.answers (.create d uuid utcnow) e = true ↔
        Answerable storesText segmentUuid c.store (.create d uuid utcnow)) := by
  unfold createHost
  cases hSegment : c.store.liveSegment segmentUuid with
  | none =>
    rw [ensures_bind, ensures_failoverSegmentGetByUuid, hSegment]
    exact iff_of_true rfl (Or.inl hSegment)
  | some row =>
    obtain ⟨hGet, hDeleted⟩ := liveSegment_eq_some.mp hSegment
    obtain ⟨segment, hUuid, hRead⟩ := ensures_failoverSegmentGetByUuid_live hSegment
    have hHas : Answerable storesText segmentUuid c.store (.create d uuid utcnow) ↔
        Assignable storesText d := by
      simp [Answerable, hSegment]
    rw [hHas, ensures_bind, hRead, ensures_bind]
    rcases populateHost_cases h segment uuid utcnow with
      ⟨hNoNull, values, hOk, hText, hLive, hReserved, hMaintenance, hId⟩ | ⟨hNull, hError⟩
    · have hFits : storesText values.controlAttributes = true ↔ Assignable storesText d := by
        refine ⟨fun hStores => ⟨hNoNull, fun text hGiven => ?_⟩, fun h => h.text _ hText⟩
        rw [hText] at hGiven
        cases hGiven
        exact hStores
      have hOwn : c.store.segments.get? values.failoverSegmentId = some row := by
        rw [hId, hUuid, hGet]
      have hReadable : Readable c.store values := by
        refine ⟨hReserved, hMaintenance, fun segment' hGet' => ?_⟩
        cases hOwn.symm.trans hGet'
        simp [hDeleted]
      rw [hOk, Lib.ensures_ofExcept]
      refine ensures_mono (insert_spec hLive (by simp [hOwn]) hReadable) ?_ ?_
      · exact fun _ _ hStores => hFits.mp hStores
      · rintro e s' (hText | ⟨hStores, name⟩)
        · exact iff_of_false Bool.false_ne_true fun h => hText (hFits.mpr h)
        · exact iff_of_true rfl (hFits.mp hStores)
    · rw [hError]
      exact iff_of_false Bool.false_ne_true fun hAssignable => hNull hAssignable.toNoNull

/-- The changes keep what makes a row readable. -/
theorem readable_apply {s : Store} {r : HostRow} (h : Readable s r) (v : HostChanges)
    (hosts : Table HostRow.uuid) : Readable { s with hosts } (v.apply r) where
  reserved := by
    cases hReserved : v.reserved <;> simp [HostChanges.apply, hReserved, h.reserved]
  onMaintenance := by
    cases hMaintenance : v.onMaintenance <;> simp [HostChanges.apply, hMaintenance, h.onMaintenance]
  segment := h.segment

/-- `host.update(host_data)` and `host.save()` of a host that was read. -/
theorem save_spec (c : Content storesText) {d : HostBody} (h : HostsSchema.update u d = true)
    {id : String} {r : HostRow} {host : HostObject} (hHost : c.store.liveHost id = some r)
    (hReadable : Readable c.store r) (hRead : ReadFrom r host) :
    Ensures (do
        let updates ← MonadExcept.ofExcept (updatesOf strutils host d)
        let row ← hostUpdate storesText host.uuid updates
        readHost row) c.store
      (fun _ _ => Assignable storesText d)
      (fun e _ => HostRequest.answers (.update id d) e = true ↔ Assignable storesText d) := by
  obtain ⟨hGet, hLive⟩ := liveHost_eq_some.mp hHost
  have hMem := Table.mem_of_get? hGet
  have hUuid : host.uuid = id := hRead.uuid.trans (Table.key_of_get? hGet)
  rw [ensures_bind, Lib.ensures_ofExcept]
  rcases updatesOf_cases h host with ⟨hNoNull, updates, hOk, hFrom, hTo⟩ | ⟨hNull, hError⟩
  · have hFits : (∀ text ∈ updates.controlAttributes, storesText text = true) ↔
        Assignable storesText d := by
      refine ⟨fun hStores => ⟨hNoNull, fun text hGiven => ?_⟩,
        fun h text hText => h.text text (hFrom text hText)⟩
      rcases hTo text hGiven with rfl | hText
      · rw [hRead.controlAttributes]
        exact c.text r hMem
      · exact hStores text hText
    rw [hOk]
    dsimp only
    rw [ensures_bind, hUuid]
    refine ensures_mono (hostUpdate_spec hHost updates) ?_ ?_
    · rintro r' s' ⟨hStores, -, rfl, rfl⟩
      refine ensures_mono (readHost_spec hLive (c.segment r hMem)) ?_ ?_
      · exact fun _ _ _ => hFits.mp hStores
      · exact fun e _ hFails => absurd (readable_apply hReadable updates _) hFails.1
    · rintro e s' (hText | ⟨hStores, name⟩)
      · exact iff_of_false Bool.false_ne_true fun h => hText (hFits.mpr h)
      · exact iff_of_true rfl (hFits.mp hStores)
  · rw [hError]
    exact iff_of_false Bool.false_ne_true fun hAssignable => hNull hAssignable.toNoNull

theorem updateHost_spec (c : Content storesText) {d : HostBody}
    (h : HostsSchema.update u d = true) (id : String) :
    Ensures (updateHost strutils storesText segmentUuid id d) c.store
      (fun _ _ => Answerable storesText segmentUuid c.store (.update id d))
      (fun e _ => HostRequest.answers (.update id d) e = true ↔
        Answerable storesText segmentUuid c.store (.update id d)) := by
  unfold updateHost
  cases hSegment : c.store.liveSegment segmentUuid with
  | none =>
    rw [ensures_bind, ensures_failoverSegmentGetByUuid, hSegment]
    exact iff_of_true rfl (Or.inl hSegment)
  | some row =>
    obtain ⟨segment, hUuid, hRead⟩ := ensures_failoverSegmentGetByUuid_live hSegment
    rw [ensures_bind, hRead, ensures_bind, hostGetByUuid, ensures_bind, ensures_get]
    cases hHost : c.store.liveHost id with
    | none =>
      refine iff_of_true rfl (Or.inr fun r hr => ?_)
      rw [hHost] at hr
      cases hr
    | some r =>
      obtain ⟨hGetHost, hLive⟩ := liveHost_eq_some.mp hHost
      have hMem := Table.mem_of_get? hGetHost
      have hHas : Answerable storesText segmentUuid c.store (.update id d) ↔ Readable c.store r ∧
          (c.store.isUnderRecovery segmentUuid = true ∨ Assignable storesText d) := by
        simp [Answerable, hSegment, hHost]
      rw [hHas]
      dsimp only
      refine ensures_mono (readHost_spec hLive (c.segment r hMem)) ?_ ?_
      · rintro host s ⟨hReadable, rfl, hReadFrom⟩
        rw [ensures_bind, ensures_get, hUuid]
        cases hUse : c.store.isUnderRecovery segmentUuid with
        | true => exact iff_of_true rfl ⟨hReadable, Or.inl rfl⟩
        | false =>
          have hAssign : Readable c.store r ∧ (false = true ∨ Assignable storesText d) ↔
              Assignable storesText d := by
            simp [hReadable]
          rw [hAssign, if_neg Bool.false_ne_true]
          exact save_spec c h hHost hReadable hReadFrom
      · rintro e s ⟨hNot, rfl⟩
        exact iff_of_false Bool.false_ne_true fun h => hNot h.1

/-- A request ends in a success or an answer to the client exactly if what it addresses is not
there, or can be read and takes what is given. -/
theorem answersClient_iff (strutils : Strutils) {r : HostRequest} (h : r.accepted u = true)
    (segmentUuid : String) (c : Content storesText) :
    AnswersClient strutils storesText segmentUuid r c.store ↔
      Answerable storesText segmentUuid c.store r := by
  cases r with
  | create d uuid utcnow => exact ensures_decides (createHost_spec c h uuid utcnow)
  | update id d => exact ensures_decides (updateHost_spec c h id)

end Answered

/-! ## A host without a type -/

/-- `TEXT` of MySQL. -/
def mysqlText (s : String) : Bool := s.utf8ByteSize ≤ 65535

/-- One live segment. -/
def oneSegment : Content mysqlText where
  store :=
    { segments :=
        ⟨[⟨⟨none, none, none, some 0⟩, 1, "s", "segment", "compute", none, .auto⟩],
          List.nodup_singleton _⟩
      hosts := Table.empty
      notifications := Table.empty }
  segment _ h := absurd h List.not_mem_nil
  text _ h := absurd h List.not_mem_nil

/-- `{"host": {"name": "a", "type": null, "control_attributes": ""}}`. -/
def nullType : HostBody where
  name := some (.string "a")
  type := some .null
  controlAttributes := some (.string "")

theorem accepts_nameA : (ParameterTypes.name ascii).accepts (.string "a") = true := by
  have hName : validateName ascii (codePoints "a") = .ok () := by
    refine validateName_eq_ok.mpr (Or.inl ⟨⟨by decide, ?_, ?_⟩, by decide⟩)
    · rintro c ⟨⟩
      decide
    · rintro c ⟨⟩
      decide
  exact HostsSchema.accepts_name (by decide) (by decide) hName

theorem accepts_noControl : (ParameterTypes.description ascii).accepts (.string "") = true :=
  HostsSchema.accepts_description nofun

theorem accepted_nullType : HostRequest.accepted ascii (.create nullType "h" 0) = true := by
  rw [HostRequest.accepted, nullType]
  exact HostsSchema.create_of_accepts accepts_nameA (by decide) accepts_noControl

/-- The words of `strutils`. -/
def words : Strutils := ⟨PyString.strictBoolFromString, by decide⟩

theorem answersClient_iff_nullType :
    AnswersClient words mysqlText "s" (.create nullType "h" 0) oneSegment.store ↔
      Answerable mysqlText "s" oneSegment.store (.create nullType "h" 0) :=
  answersClient_iff words (r := .create nullType "h" 0) accepted_nullType "s" oneSegment

/-- Whatever the request that is accepted and the content, the client gets an answer. -/
def AlwaysAnswersClient (strutils : Strutils) (u : UnicodeData) (storesText : String → Bool) :
    Prop :=
  ∀ r : HostRequest, r.accepted u = true → ∀ (segmentUuid : String) (c : Content storesText),
    AnswersClient strutils storesText segmentUuid r c.store

/-- A host whose type is `null` is accepted, and `create_host` raises a `ValueError`. -/
theorem not_alwaysAnswersClient : ¬ AlwaysAnswersClient words ascii mysqlText := by
  intro h
  have hAnswers := h (.create nullType "h" 0) accepted_nullType "s" oneSegment
  have hAccepted : HostsSchema.create ascii nullType = true := accepted_nullType
  rcases (ensures_decides (createHost_spec oneSegment hAccepted "h" 0)).mp hAnswers with
    hNone | hAssignable
  · cases hNone
  · exact hAssignable.type rfl

end MasakariHA.Ha.HostRequests
