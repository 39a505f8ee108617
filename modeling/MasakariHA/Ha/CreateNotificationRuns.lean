import MasakariHA.Ha.CreateNotification

/-!
# A request for a notification among others

The call of one request as a run of the system `api` with this request alone: three transactions and
a cast. The database of `api` has no NULL and keeps payloads decoded.

* `Shows`: a store without NULLs reads as such a database;
* `Content`: the constraints of the database, and `Shows.content`: those of the store;
* `createNotification_leads`: but for an exception of Python, the database or the cast, the call is
  a run of `api`.
-/

namespace MasakariHA.Ha.CreateNotification

open Lib
open HostRequests (SegmentRow HostRow)

/-! ## Stores without NULLs -/

def plainSegment (r : SegmentRow) : Option FailoverSegment :=
  r.deleted.map fun deleted => ⟨r.uuid, r.name, r.recoveryMethod, deleted⟩

def plainHost (h : HostRow) : Option Host := do
  let createdAt ← h.createdAt
  let reserved ← h.reserved
  let onMaintenance ← h.onMaintenance
  let deleted ← h.deleted
  some ⟨h.id, createdAt, h.uuid, h.name, reserved, onMaintenance, h.failoverSegmentId, deleted⟩

section Shows

variable (lib : Libraries)

def plainNotification (n : NotificationRow lib.Text) : Option Notification := do
  let createdAt ← n.createdAt
  let deleted ← n.deleted
  let type ← NotificationType.ofString n.type
  let payload ← (readPayload lib n.payload).toOption
  some ⟨n.id, createdAt, n.notificationUuid, n.generatedTime, n.sourceHostUuid, type, payload,
    n.status, deleted⟩

/-- The rows of the store read as those of the database. -/
structure Shows (s : Store lib.Text) (db : Db) : Prop where
  segments : s.segments.rows.map plainSegment = db.segments.rows.map some
  hosts : s.hosts.rows.map plainHost = db.hosts.rows.map some
  notifications : s.notifications.rows.map (plainNotification lib) = db.notifications.rows.map some

end Shows

/-- A database content, as the constraints `fk_failover_segments_uuid` and
`uniq_host0name0deleted` leave it. -/
structure Content where
  db : Db
  segment : ∀ h ∈ db.hosts.rows, (db.segments.get? h.failoverSegmentId).isSome = true
  name_unique : ∀ h ∈ db.hosts.rows, ∀ h' ∈ db.hosts.rows,
    h.deleted = 0 → h'.deleted = 0 → h.name = h'.name → h = h'

section Plain

variable {α β : Type} {f : α → Option β} {l : List α} {l' : List β}

theorem exists_of_mem (h : l.map f = l'.map some) {a : α} (ha : a ∈ l) :
    ∃ b ∈ l', f a = some b := by
  have hMem : f a ∈ l'.map some := h ▸ List.mem_map_of_mem ha
  obtain ⟨b, hb, hSame⟩ := List.mem_map.mp hMem
  exact ⟨b, hb, hSame.symm⟩

theorem exists_of_mem_some (h : l.map f = l'.map some) {b : β} (hb : b ∈ l') :
    ∃ a ∈ l, f a = some b := by
  have hMem : some b ∈ l.map f := h.symm ▸ List.mem_map_of_mem hb
  exact List.mem_map.mp hMem

theorem plainSegment_eq_some {r : SegmentRow} {segment : FailoverSegment}
    (h : plainSegment r = some segment) :
    segment.uuid = r.uuid ∧ r.deleted = some segment.deleted := by
  obtain ⟨deleted, hDeleted, rfl⟩ := Option.map_eq_some_iff.mp h
  exact ⟨rfl, hDeleted⟩

/-- What a host reads as. -/
structure HostAs (r : HostRow) (h : Host) : Prop where
  uuid : h.uuid = r.uuid
  name : h.name = r.name
  failoverSegmentId : h.failoverSegmentId = r.failoverSegmentId
  reserved : r.reserved = some h.reserved
  onMaintenance : r.onMaintenance = some h.onMaintenance
  deleted : r.deleted = some h.deleted

theorem plainHost_eq_some {r : HostRow} {h : Host} (hPlain : plainHost r = some h) :
    HostAs r h := by
  simp only [plainHost, Option.bind_eq_bind, Option.bind_eq_some_iff] at hPlain
  obtain ⟨createdAt, -, reserved, hReserved, onMaintenance, hMaintenance, deleted, hDeleted,
    hSame⟩ := hPlain
  cases hSame
  exact ⟨rfl, rfl, rfl, hReserved, hMaintenance, hDeleted⟩

end Plain

namespace Shows

variable {lib : Libraries} {s : Store lib.Text} {c : Content}

theorem segment_isSome (h : Shows lib s c.db) {uuid : String}
    (hSome : (c.db.segments.get? uuid).isSome = true) : (s.segments.get? uuid).isSome = true := by
  obtain ⟨segment, hGet⟩ := Option.isSome_iff_exists.mp hSome
  obtain ⟨row, hRow, hPlain⟩ := exists_of_mem_some h.segments (Table.mem_of_get? hGet)
  have hUuid : row.uuid = uuid :=
    (plainSegment_eq_some hPlain).1.symm.trans (Table.key_of_get? hGet)
  rw [Option.isSome_iff_ne_none]
  intro hNone
  exact Table.get?_eq_none_iff.mp hNone row hRow hUuid

/-- The constraints of the database are those of the store. -/
def content (h : Shows lib s c.db) : StoreContent lib.Text where
  store := s
  segment r hr := by
    obtain ⟨host, hHost, hPlain⟩ := exists_of_mem h.hosts hr
    rw [← (plainHost_eq_some hPlain).failoverSegmentId]
    exact h.segment_isSome (c.segment host hHost)
  name_unique r hr r' hr' hLive hLive' hName := by
    obtain ⟨host, hHost, hPlain⟩ := exists_of_mem h.hosts hr
    obtain ⟨host', hHost', hPlain'⟩ := exists_of_mem h.hosts hr'
    have hAs := plainHost_eq_some hPlain
    have hAs' := plainHost_eq_some hPlain'
    have hSame : host = host' := by
      refine c.name_unique host hHost host' hHost' ?_ ?_ ?_
      · exact Option.some.inj (hAs.deleted.symm.trans hLive)
      · exact Option.some.inj (hAs'.deleted.symm.trans hLive')
      · rw [hAs.name, hAs'.name, hName]
    refine List.inj_on_of_nodup_map s.hosts.nodup hr hr' ?_
    rw [← hAs.uuid, ← hAs'.uuid, hSame]

end Shows

/-! ## What the database decides -/

section Decisions

variable {lib : Libraries} {r : AcceptedRequest lib} {interval : Nat} {c : Content}
  {s : Store lib.Text} {row : HostRow} {h : Host}

/-- The notification of a request before it is stored. -/
def draft (r : AcceptedRequest lib) (h : Host) : Draft :=
  ⟨r.type, r.time.instant, h.uuid, r.body.payload⟩

/-- The lookup of a host of the database. -/
theorem hostGetByName_content {name : String} (hMem : h ∈ c.db.hosts.rows) (hLive : h.deleted = 0)
    (hName : h.name = name) :
    ∃ segment, MasakariHA.hostGetByName name c.db = .ok (⟨h, segment⟩, c.db) := by
  obtain ⟨segment, hSegment⟩ := Option.isSome_iff_exists.mp (c.segment h hMem)
  refine ⟨segment, ?_⟩
  have hFind : c.db.hosts.rows.find? (fun h => h.deleted = 0 ∧ h.name = name) = some h := by
    cases hFound : c.db.hosts.rows.find? (fun h => h.deleted = 0 ∧ h.name = name) with
    | none =>
      have hNot := List.find?_eq_none.mp hFound h hMem
      simp [hLive, hName] at hNot
    | some h' =>
      have hTest := List.find?_some hFound
      simp only [decide_eq_true_eq] at hTest
      rw [c.name_unique h hMem h' (List.mem_of_find?_eq_some hFound) hLive hTest.1
        (hName.trans hTest.2.symm)]
  unfold MasakariHA.hostGetByName hostFromDbObject
  rw [hFind]
  dsimp only
  rw [hSegment]
  rfl

/-- The host of a row that is named. -/
theorem exists_host (hShows : Shows lib s c.db) {name : String} (hNamed : Named s name row) :
    ∃ h segment, HostAs row h ∧
      MasakariHA.hostGetByName name c.db = .ok (⟨h, segment⟩, c.db) := by
  obtain ⟨h, hMem, hPlain⟩ := exists_of_mem hShows.hosts hNamed.mem
  have hAs := plainHost_eq_some hPlain
  obtain ⟨segment, hGet⟩ := hostGetByName_content hMem
    (Option.some.inj (hAs.deleted.symm.trans hNamed.live)) (hAs.name.trans hNamed.name_eq)
  exact ⟨h, segment, hAs, hGet⟩

theorem hostGetByName_content_none (hShows : Shows lib s c.db) {name : String}
    (hNone : ∀ row, ¬ Named s name row) : MasakariHA.hostGetByName name c.db =
      .error (Exc.raised .hostNotFoundByName s!"Host with name {name} could not be found.") := by
  have hFind : c.db.hosts.rows.find? (fun h => h.deleted = 0 ∧ h.name = name) = none := by
    apply List.find?_eq_none.mpr
    intro h hMem hTest
    simp only [decide_eq_true_eq] at hTest
    obtain ⟨row, hRow, hPlain⟩ := exists_of_mem_some hShows.hosts hMem
    have hAs := plainHost_eq_some hPlain
    exact hNone row ⟨hRow, hAs.deleted.trans (congrArg some hTest.1), hAs.name.symm.trans hTest.2⟩
  unfold MasakariHA.hostGetByName
  rw [hFind]

theorem value_of_ofString {s : String} {type : NotificationType}
    (h : NotificationType.ofString s = some type) : type.value = s := by
  obtain ⟨front, back, hAll, -⟩ := List.lookup_eq_some_iff.mp h
  have hMem : (s, type) ∈ NotificationType.all := by
    rw [hAll]
    exact List.mem_append_right front List.mem_cons_self
  have hValues : ∀ p ∈ NotificationType.all, p.2.value = p.1 := by decide
  exact hValues _ hMem

theorem plainNotification_eq_some {row : NotificationRow lib.Text} {n : Notification}
    (h : plainNotification lib row = some n) :
    row.deleted = some n.deleted ∧ n.sourceHostUuid = row.sourceHostUuid ∧
      row.type = n.type.value ∧ n.status = row.status ∧ n.generatedTime = row.generatedTime ∧
      readPayload lib row.payload = .ok n.payload := by
  simp only [plainNotification, Option.bind_eq_bind, Option.bind_eq_some_iff] at h
  obtain ⟨createdAt, -, deleted, hDeleted, type, hType, payload, hPayload, hSame⟩ := h
  cases hSame
  refine ⟨hDeleted, rfl, (value_of_ofString hType).symm, rfl, rfl, ?_⟩
  cases hRead : readPayload lib row.payload with
  | ok p =>
    rw [hRead] at hPayload
    cases hPayload
    rfl
  | error e =>
    rw [hRead] at hPayload
    cases hPayload

/-- The check of `api` decides the same. -/
theorem isDuplicateNotification_draft (hShows : Shows lib s c.db) (hAs : HostAs row h) :
    Ha.isDuplicateNotification (interval * 1000000) (draft r h) c.db = true ↔
      HasDuplicate r interval s row := by
  have hSeconds : ((interval * 1000000 : Nat) : Int) = seconds interval := by
    unfold seconds
    omega
  unfold Ha.isDuplicateNotification Ha.duplicateFilters draft
  rw [hSeconds, List.any_eq_true]
  constructor
  · rintro ⟨n, hMem, hPayload⟩
    obtain ⟨hRow, hAccepts⟩ := mem_notificationsGetAllByFilters.mp hMem
    simp only [NotificationFilters.accepts, Option.all_some, List.mem_cons, List.not_mem_nil,
      or_false, Bool.decide_or, Bool.and_eq_true, decide_eq_true_eq, Bool.or_eq_true] at hAccepts
    obtain ⟨⟨⟨⟨hLive, hHost⟩, hType⟩, hStatus⟩, hSince⟩ := hAccepts
    obtain ⟨stored, hStored, hPlain⟩ := exists_of_mem_some hShows.notifications hRow
    obtain ⟨hDeleted, hSource, hTypeOf, hStatusOf, hTime, hRead⟩ := plainNotification_eq_some hPlain
    refine ⟨stored, hStored, ?_, ?_, ?_, ?_, ?_, ?_⟩
    · rw [hDeleted, hLive]
    · rw [hTypeOf, hType]
    · rw [← hSource, hHost, hAs.uuid]
    · rw [← hStatusOf]
      exact hStatus
    · rw [hRead, of_decide_eq_true hPayload]
    · rw [← hTime]
      exact hSince
  · rintro ⟨stored, hStored, hLive, hType, hHost, hStatus, hPayload, hSince⟩
    obtain ⟨n, hMem, hPlain⟩ := exists_of_mem hShows.notifications hStored
    obtain ⟨hDeleted, hSource, hTypeOf, hStatusOf, hTime, hRead⟩ := plainNotification_eq_some hPlain
    have hLiveOf : n.deleted = 0 := Option.some.inj (hDeleted.symm.trans hLive)
    have hPayloadOf : n.payload = r.body.payload := Except.ok.inj (hRead.symm.trans hPayload)
    have hTypes : n.type = r.type := by
      have hValues := congrArg NotificationType.ofString (hTypeOf.symm.trans hType)
      rw [ofString_value, ofString_value] at hValues
      exact Option.some.inj hValues
    refine ⟨n, mem_notificationsGetAllByFilters.mpr ⟨hMem, ?_⟩, decide_eq_true hPayloadOf⟩
    rw [← hStatusOf] at hStatus
    rw [← hTime] at hSince
    have hUuid : n.sourceHostUuid = h.uuid := by rw [hSource, hHost, hAs.uuid]
    simp [NotificationFilters.accepts, hLiveOf, hTypes, hUuid, hStatus, hSince]

end Decisions

/-! ## The transactions of a call -/

section Transactions

variable {lib : Libraries} {r : AcceptedRequest lib} {interval : Nat} {db : Db}

/-- The only request on a database. -/
def alone (db : Db) (p : Progress) : Api Unit := ⟨db, fun _ => p⟩

/-- Some steps of `api`, its times in microseconds, lead from one state to the other. -/
def Leads (r : AcceptedRequest lib) (interval : Nat) : Api Unit → Api Unit → Prop :=
  Relation.ReflTransGen
    ((api (fun _ : Unit => request r) (interval * 1000000)).StepIf fun _ _ => True)

theorem leads_step {s s' s'' : Api Unit} {l : Label Unit} (hLeads : Leads r interval s s')
    (hStep : Api.step (fun _ => request r) (interval * 1000000) s' l = some s'') :
    Leads r interval s s'' :=
  hLeads.tail ⟨l, trivial, hStep⟩

theorem proceed_alone (p p' : Progress) : (alone db p).proceed () p' = alone db p' := by
  unfold Api.proceed alone
  congr 1

variable {d : Draft} {e : Exc} {n : Notification}

theorem leads_lookUp_error (hPopulate : populate (request r) db = .error e) :
    Leads r interval (alone db .received) (alone db (.raised e)) := by
  apply leads_step (l := .lookUp ()) .refl
  rw [← proceed_alone .received (.raised e)]
  unfold Api.step alone
  dsimp only
  rw [hPopulate]

theorem leads_lookUp (hPopulate : populate (request r) db = .ok (d, db)) :
    Leads r interval (alone db .received) (alone db (.populated d)) := by
  apply leads_step (l := .lookUp ()) .refl
  rw [← proceed_alone .received (.populated d)]
  unfold Api.step alone
  dsimp only
  rw [hPopulate]

theorem alone_check_duplicate
    (h : Ha.isDuplicateNotification (interval * 1000000) d db = true) :
    Api.step (fun _ => request r) (interval * 1000000) (alone db (.populated d)) (.check ()) =
      some (alone db (.raised (duplicateNotification (request r)))) := by
  rw [← proceed_alone (.populated d) (.raised _)]
  change (if Ha.isDuplicateNotification (interval * 1000000) d db then _ else _) = _
  rw [if_pos h]

theorem alone_check (h : ¬ Ha.isDuplicateNotification (interval * 1000000) d db = true) :
    Api.step (fun _ => request r) (interval * 1000000) (alone db (.populated d)) (.check ()) =
      some (alone db (.checked d)) := by
  rw [← proceed_alone (.populated d) (.checked d)]
  change (if Ha.isDuplicateNotification (interval * 1000000) d db then _ else _) = _
  rw [if_neg h]

theorem alone_create {uuid : String} {id : Nat} {createdAt : Int}
    {notifications : Table Notification.notificationUuid}
    (h : db.notifications.insert (d.row uuid id createdAt) = some notifications) :
    Api.step (fun _ => request r) (interval * 1000000) (alone db (.checked d))
        (.create () uuid id createdAt) =
      some (alone { db with notifications } (.created (d.row uuid id createdAt))) := by
  rw [← proceed_alone (.checked d) (.created _)]
  simp only [Api.step, alone]
  rw [h]
  rfl

theorem alone_cast : Api.step (fun _ => request r) (interval * 1000000) (alone db (.created n))
    (.cast ()) = some (alone db (.returned n)) := by
  rw [← proceed_alone (.created n) (.returned n)]
  rfl

end Transactions

/-! ## The call as a run -/

section Refinement

variable {lib : Libraries} {r : AcceptedRequest lib} {interval : Nat} {c : Content}
  {store store' : Store lib.Text} {stamp : Stamp store} {row : HostRow}

/-- The lookup of a host that is up. -/
theorem populate_named {h : Host} {segment : FailoverSegment}
    (hGet : MasakariHA.hostGetByName r.body.hostname c.db = .ok (⟨h, segment⟩, c.db))
    (hMaintenance : h.onMaintenance = false) :
    populate (request r) c.db = .ok (draft r h, c.db) := by
  unfold populate request
  rw [hGet]
  dsimp only
  rw [if_neg (by rw [hMaintenance]; exact Bool.false_ne_true)]
  rfl

/-- The insertion in the database of `api`. -/
theorem exists_insert (hShows : Shows lib store c.db) {h : Host} (hAs : HostAs row h)
    (hInserted : Inserted r stamp row store') :
    ∃ notifications,
      c.db.notifications.insert ((draft r h).row stamp.uuid stamp.id stamp.createdAt) =
        some notifications ∧ Shows lib store' { c.db with notifications } := by
  obtain ⟨stored, hInsert, rfl⟩ := hInserted
  have hFresh : c.db.notifications.get? stamp.uuid = none := by
    apply Table.get?_eq_none_iff.mpr
    intro n hn hUuid
    obtain ⟨n', hn', hPlain⟩ := exists_of_mem_some hShows.notifications hn
    have hSame : n.notificationUuid = n'.notificationUuid := by
      simp only [plainNotification, Option.bind_eq_bind, Option.bind_eq_some_iff] at hPlain
      obtain ⟨_, -, _, -, _, -, _, -, hSame⟩ := hPlain
      cases hSame
      rfl
    exact Table.get?_eq_none_iff.mp stamp.fresh n' hn' (hSame.symm.trans hUuid)
  obtain ⟨notifications, hPlainInsert⟩ := Option.isSome_iff_exists.mp
    (Table.insert_isSome_iff.mpr (show c.db.notifications.get?
      ((draft r h).row stamp.uuid stamp.id stamp.createdAt).notificationUuid = none from hFresh))
  refine ⟨notifications, hPlainInsert, hShows.segments, hShows.hosts, ?_⟩
  have hRow : plainNotification lib (newRow r stamp row) =
      some ((draft r h).row stamp.uuid stamp.id stamp.createdAt) := by
    unfold plainNotification newRow readPayload draft Draft.row
    dsimp only
    rw [ofString_value, lib.loads_dumps, hAs.uuid]
    rfl
  dsimp only
  rw [Table.rows_insert hInsert, Table.rows_insert hPlainInsert, List.map_append, List.map_append,
    hShows.notifications, List.map_singleton, List.map_singleton, hRow]

/-- The transactions of a request that is stored. -/
theorem leads_created (hShows : Shows lib store c.db) {h : Host} {segment : FailoverSegment}
    (hAs : HostAs row h)
    (hGet : MasakariHA.hostGetByName r.body.hostname c.db = .ok (⟨h, segment⟩, c.db))
    (hMaintenance : h.onMaintenance = false) (hStorable : Storable r interval store row)
    (hInserted : Inserted r stamp row store') :
    ∃ db n, Shows lib store' db ∧
      Leads r interval (alone c.db .received) (alone db (.created n)) := by
  obtain ⟨notifications, hInsert, hShows'⟩ := exists_insert hShows hAs hInserted
  have hPopulated : Leads r interval (alone c.db .received) (alone c.db (.populated (draft r h))) :=
    leads_lookUp (populate_named hGet hMaintenance)
  have hChecked := leads_step hPopulated (alone_check fun hDup =>
    hStorable.duplicate ((isDuplicateNotification_draft hShows hAs).mp hDup))
  exact ⟨_, _, hShows', leads_step hChecked (alone_create hInsert)⟩

/-- A refusal is that of `api`, or an exception of Python or the database. -/
theorem leads_refusal (hShows : Shows lib store c.db) {h : Host} {segment : FailoverSegment}
    (hAs : HostAs row h)
    (hGet : MasakariHA.hostGetByName r.body.hostname c.db = .ok (⟨h, segment⟩, c.db))
    (hMaintenance : h.onMaintenance = false) {e : Exc} (hRefusal : Refusal r interval store row e) :
    (∃ cls, e = .other cls) ∨
      Leads r interval (alone c.db .received) (alone c.db (.raised e)) := by
  cases hRefusal with
  | since _ => exact Or.inl ⟨_, rfl⟩
  | payload _ cls _ => exact Or.inl ⟨cls, rfl⟩
  | duplicate _ _ hDuplicate =>
    have hPopulated : Leads r interval (alone c.db .received)
        (alone c.db (.populated (draft r h))) :=
      leads_lookUp (populate_named hGet hMaintenance)
    have hDup := (isDuplicateNotification_draft hShows hAs).mpr hDuplicate
    exact Or.inr (leads_step hPopulated (alone_check_duplicate hDup))
  | row _ _ _ _ => exact Or.inl ⟨_, rfl⟩
  | text _ _ _ _ _ => exact Or.inl ⟨_, rfl⟩

/-- The call is a run of `api` with this one request, which is cut off by an exception of Python, of
the database or of the cast. -/
theorem createNotification_leads (r : AcceptedRequest lib) (interval : Nat) (c : Content)
    (hShows : Shows lib store c.db) (casts : List ReadNotification) (stamp : Stamp store) :
    Ensures (createNotification lib interval stamp r.body) ⟨store, casts⟩
      (fun _ s' => ∃ db n, Shows lib s'.store db ∧
        Leads r interval (alone c.db .received) (alone db (.returned n)))
      (fun e s' => (∃ cls, e = .other cls) ∧ (s'.store = store ∨ ∃ db n, Shows lib s'.store db ∧
          Leads r interval (alone c.db .received) (alone db (.created n))) ∨
        s'.store = store ∧ Leads r interval (alone c.db .received) (alone c.db (.raised e))) := by
  by_cases hHost : ∃ row, Named store r.body.hostname row
  · obtain ⟨row, hNamed⟩ := hHost
    obtain ⟨h, segment, hAs, hGet⟩ := exists_host hShows hNamed
    cases hMaintenance : h.onMaintenance with
    | true =>
      unfold createNotification
      rw [ensures_bind]
      refine ensures_mono (hostGetByName_named (c := hShows.content) hNamed) (fun o s' hn => ?_)
        fun e s' he => ?_
      · obtain ⟨-, rfl, hFrom⟩ := hn
        have hTrue : o.onMaintenance = true := by
          have hSame := hFrom.onMaintenance.symm.trans hAs.onMaintenance
          rw [Option.some.inj hSame, hMaintenance]
        rw [if_pos hTrue, ensures_throw]
        refine Or.inr ⟨rfl, leads_lookUp_error ?_⟩
        unfold populate request
        rw [hGet]
        dsimp only
        rw [if_pos hMaintenance, value_of_ofString r.type_eq]
      · obtain ⟨-, rfl, rfl⟩ := he
        exact Or.inl ⟨⟨_, rfl⟩, Or.inl rfl⟩
    | false =>
      by_cases hRead : Readable store row
      · have hUp : row.onMaintenance ≠ some true := by
          rw [hAs.onMaintenance, hMaintenance]
          decide
        refine ensures_mono (createNotification_up (c := hShows.content) hNamed hRead hUp)
          (fun n s' hn => ?_) fun e s' he => ?_
        · obtain ⟨hStorable, -, -, hInserted, -⟩ := hn
          obtain ⟨db, n', hShows', hCreated⟩ :=
            leads_created hShows hAs hGet hMaintenance hStorable hInserted
          exact ⟨db, n', hShows', leads_step hCreated alone_cast⟩
        · rcases he with ⟨hRefusal, rfl⟩ | ⟨cls, _, hStorable, -, rfl, hInserted, -⟩
          · rcases leads_refusal hShows hAs hGet hMaintenance hRefusal with hOther | hRaised
            · exact Or.inl ⟨hOther, Or.inl rfl⟩
            · exact Or.inr ⟨rfl, hRaised⟩
          · exact Or.inl ⟨⟨cls, rfl⟩, Or.inr
              (leads_created hShows hAs hGet hMaintenance hStorable hInserted)⟩
      · unfold createNotification
        rw [ensures_bind]
        refine ensures_mono (hostGetByName_named (c := hShows.content) hNamed) (fun o s' hn => ?_)
          fun e s' he => ?_
        · exact absurd hn.1 hRead
        · obtain ⟨-, rfl, rfl⟩ := he
          exact Or.inl ⟨⟨_, rfl⟩, Or.inl rfl⟩
  · have hNone : ∀ row, ¬ Named store r.body.hostname row := fun row hNamed => hHost ⟨row, hNamed⟩
    unfold createNotification hostGetByName
    rw [ensures_bind, ensures_bind, ensures_get]
    dsimp only
    rw [find?_not_named hNone, ensures_throw]
    refine Or.inr ⟨rfl, leads_lookUp_error ?_⟩
    unfold populate request
    rw [hostGetByName_content_none hShows hNone]

end Refinement

end MasakariHA.Ha.CreateNotification
