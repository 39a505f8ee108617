import MasakariHA.Db.Api
import MasakariHA.Lib.Trans
import Mathlib.Data.Fintype.Basic

/-!
# The notification API

`NotificationAPI` of `ha/api.py`. A request looks up its host, asks whether an open
notification with its payload is stored already, inserts its own and casts it to the engine:
three transactions and a message, between which other requests, of any API server, proceed.

* `isDuplicateNotification`: the filter query and the comparison of the payloads;
* `Api`, `Api.step`: any number of requests, the engines and the other users of the
  database, one transaction at a time;
* `Accepted`: the invariant, with `accepted_step`;
* `atMostOne_of_noOvertaking`: of matching requests at most one is accepted, as long as none
  inserts between the check and the insert of another one.
-/

namespace MasakariHA.Ha

open Lib

/-- The data of a request, its `generated_time` parsed. -/
structure Request where
  hostname : String
  type : NotificationType
  payload : Payload
  generatedTime : Int

/-- The notification object before it is stored. -/
structure Draft where
  type : NotificationType
  generatedTime : Int
  sourceHostUuid : String
  payload : Payload

/-- The row of a draft, in status `new`. -/
def Draft.row (d : Draft) (uuid : String) (id : Nat) (createdAt : Int) : Notification :=
  ⟨id, createdAt, uuid, d.generatedTime, d.sourceHostUuid, d.type, d.payload, .new, 0⟩

/-- The lookup of the host and the draft of the notification. -/
def populate (r : Request) : Query Draft := fun db =>
  match hostGetByName r.hostname db with
  | .error e => .error e
  | .ok (o, db) =>
    if o.host.onMaintenance then
      .error (Exc.raised .hostOnMaintenanceError
        (s!"Notification received from host {r.hostname} of type '{r.type.value}' " ++
          "is ignored as the host is already under maintenance."))
    else .ok (⟨r.type, r.generatedTime, o.host.uuid, r.payload⟩, db)

/-- The filters of `_is_duplicate_notification`. -/
def duplicateFilters (interval : Nat) (d : Draft) : NotificationFilters :=
  { sourceHostUuid := some d.sourceHostUuid
    type := some d.type
    status := some [.new, .running]
    generatedSince := some (d.generatedTime - interval) }

def isDuplicateNotification (interval : Nat) (d : Draft) (db : Db) : Bool :=
  (notificationsGetAllByFilters (duplicateFilters interval d) db).any (·.payload = d.payload)

/-- The exception for a duplicate. -/
def duplicateNotification (r : Request) : Exc :=
  Exc.raised .duplicateNotification
    s!"Notification received from host {r.hostname} of  type '{r.type.value}' is duplicate."

/-! ## Requests on one database -/

/-- Where a call of `create_notification` stands. -/
inductive Progress where
  | received
  /-- The host was found. -/
  | populated (d : Draft)
  /-- No duplicate was found. -/
  | checked (d : Draft)
  /-- The row is inserted; the engine is to be told. -/
  | created (n : Notification)
  | returned (n : Notification)
  | raised (e : Exc)

/-- The draft of a request that has yet to insert its row. -/
def Progress.draft : Progress → Option Draft
  | .populated d | .checked d => some d
  | _ => none

/-- The request has passed the check and not yet inserted. -/
def Progress.passed : Progress → Bool
  | .checked _ => true
  | _ => false

/-- The row that the request has inserted. -/
def Progress.made : Progress → Option Notification
  | .created n | .returned n => some n
  | _ => none

/-- The request was rejected as a duplicate. -/
def Progress.duplicate : Progress → Bool
  | .raised e => e.isA .duplicateNotification
  | _ => false

/-- The requests `K` with the database. -/
structure Api (K : Type) where
  db : Db
  progress : K → Progress

/-- A request steps, or an engine or another user of the database does. -/
inductive Label (K : Type) where
  | lookUp (k : K)
  | check (k : K)
  | create (k : K) (uuid : String) (id : Nat) (createdAt : Int)
  | cast (k : K)
  | setStatus (uuid : String) (st : NotificationStatus)
  | setHost (uuid : String) (v : HostValues)
  | insert (r : Notification)

section System

variable {K : Type} [DecidableEq K] (requests : K → Request) (interval : Nat)

def Api.proceed (s : Api K) (k : K) (p : Progress) : Api K :=
  { s with progress := Function.update s.progress k p }

/-- The steps of `create_notification`, and the environment. -/
def Api.step (s : Api K) : Label K → Option (Api K)
  | .lookUp k =>
    match s.progress k with
    | .received =>
      match populate (requests k) s.db with
      | .error e => some (s.proceed k (.raised e))
      | .ok (d, _) => some (s.proceed k (.populated d))
    | _ => none
  | .check k =>
    match s.progress k with
    | .populated d =>
      if isDuplicateNotification interval d s.db then
        some (s.proceed k (.raised (duplicateNotification (requests k))))
      else some (s.proceed k (.checked d))
    | _ => none
  | .create k uuid id createdAt =>
    match s.progress k with
    | .checked d =>
      match s.db.notifications.insert (d.row uuid id createdAt) with
      | none => none
      | some notifications =>
        some { s.proceed k (.created (d.row uuid id createdAt)) with
          db := { s.db with notifications } }
    | _ => none
  | .cast k =>
    match s.progress k with
    | .created n => some (s.proceed k (.returned n))
    | _ => none
  | .setStatus uuid st => some { s with db := s.db.setStatus uuid st }
  | .setHost uuid v => some { s with db := s.db.setHost uuid v }
  | .insert r =>
    match s.db.notifications.insert r with
    | none => none
    | some notifications => some { s with db := { s.db with notifications } }

/-- The requests, on any content of the database. -/
def api : Trans (Api K) (Label K) where
  init s := ∀ k, s.progress k = .received
  step := Api.step requests interval

/-- The premises on a step: a lookup finds the host, not on maintenance; a notification of
the requests does not leave `new` and `running`. -/
def Premises (s : Api K) : Label K → Prop
  | .lookUp k => (populate (requests k) s.db).isOk = true
  | .setStatus uuid st => st = .new ∨ st = .running ∨
      ∀ k, (s.progress k).made.all (·.notificationUuid ≠ uuid) = true
  | _ => True

/-- No request inserts its row while another one has passed the check and not yet inserted. -/
def NoOvertaking (s : Api K) : Label K → Prop
  | .create k _ _ _ => ∀ k', k' ≠ k → (s.progress k').passed = false
  | _ => True

section Decidable

variable [Fintype K]

instance (s : Api K) (l : Label K) : Decidable (Premises requests s l) :=
  match l with
  | .lookUp k => inferInstanceAs (Decidable ((populate (requests k) s.db).isOk = true))
  | .setStatus uuid st => inferInstanceAs (Decidable (st = .new ∨ st = .running ∨
      ∀ k, (s.progress k).made.all (·.notificationUuid ≠ uuid) = true))
  | .check _ | .create .. | .cast _ | .setHost .. | .insert _ => inferInstanceAs (Decidable True)

instance (s : Api K) (l : Label K) : Decidable (NoOvertaking s l) :=
  match l with
  | .create k _ _ _ => inferInstanceAs (Decidable (∀ k', k' ≠ k → (s.progress k').passed = false))
  | .lookUp _ | .check _ | .cast _ | .setStatus .. | .setHost .. | .insert _ =>
    inferInstanceAs (Decidable True)

end Decidable

/-- The requests agree in host, type and payload, and in the time up to the interval. -/
def Matching : Prop :=
  ∀ k k', (requests k).hostname = (requests k').hostname ∧ (requests k).type = (requests k').type ∧
    (requests k).payload = (requests k').payload ∧
    (requests k).generatedTime - interval ≤ (requests k').generatedTime

/-- At most one request has inserted a row, and no request has raised anything but
`DuplicateNotification`. -/
def AtMostOne (s : Api K) : Prop :=
  (∀ k k' n n', (s.progress k).made = some n → (s.progress k').made = some n' → k = k') ∧
    ∀ k e, s.progress k = .raised e → e.isA .duplicateNotification = true

end System

/-! ## What a step does -/

section Inversion

variable {K : Type} [DecidableEq K] {requests : K → Request} {interval : Nat} {s s' : Api K} {k : K}

theorem step_lookUp (h : s.step requests interval (.lookUp k) = some s') :
    (∃ e, populate (requests k) s.db = .error e ∧ s' = s.proceed k (.raised e)) ∨
      ∃ d db, populate (requests k) s.db = .ok (d, db) ∧ s' = s.proceed k (.populated d) := by
  simp only [Api.step] at h
  split at h
  · cases hPopulate : populate (requests k) s.db with
    | error e =>
      rw [hPopulate] at h
      exact Or.inl ⟨e, rfl, (Option.some.inj h).symm⟩
    | ok o =>
      obtain ⟨d, db⟩ := o
      rw [hPopulate] at h
      exact Or.inr ⟨d, db, rfl, (Option.some.inj h).symm⟩
  · cases h

theorem step_check (h : s.step requests interval (.check k) = some s') :
    ∃ d, s.progress k = .populated d ∧
      (isDuplicateNotification interval d s.db = true ∧
          s' = s.proceed k (.raised (duplicateNotification (requests k))) ∨
        isDuplicateNotification interval d s.db = false ∧ s' = s.proceed k (.checked d)) := by
  simp only [Api.step] at h
  split at h
  · rename_i d hProgress
    refine ⟨d, hProgress, ?_⟩
    cases hDuplicate : isDuplicateNotification interval d s.db with
    | true =>
      rw [hDuplicate, if_pos rfl] at h
      exact Or.inl ⟨rfl, (Option.some.inj h).symm⟩
    | false =>
      rw [hDuplicate, if_neg Bool.false_ne_true] at h
      exact Or.inr ⟨rfl, (Option.some.inj h).symm⟩
  · cases h

theorem step_create {uuid : String} {id : Nat} {createdAt : Int}
    (h : s.step requests interval (.create k uuid id createdAt) = some s') :
    ∃ d notifications, s.progress k = .checked d ∧
      s.db.notifications.insert (d.row uuid id createdAt) = some notifications ∧
      s' = { s.proceed k (.created (d.row uuid id createdAt)) with
        db := { s.db with notifications } } := by
  simp only [Api.step] at h
  split at h
  · rename_i d hProgress
    cases hInsert : s.db.notifications.insert (d.row uuid id createdAt) with
    | none =>
      rw [hInsert] at h
      cases h
    | some notifications =>
      rw [hInsert] at h
      exact ⟨d, notifications, hProgress, hInsert, (Option.some.inj h).symm⟩
  · cases h

theorem step_cast (h : s.step requests interval (.cast k) = some s') :
    ∃ n, s.progress k = .created n ∧ s' = s.proceed k (.returned n) := by
  simp only [Api.step] at h
  split at h
  · rename_i n hProgress
    exact ⟨n, hProgress, (Option.some.inj h).symm⟩
  · cases h

theorem step_insert {r : Notification} (h : s.step requests interval (.insert r) = some s') :
    ∃ notifications, s.db.notifications.insert r = some notifications ∧
      s' = { s with db := { s.db with notifications } } := by
  simp only [Api.step] at h
  cases hInsert : s.db.notifications.insert r with
  | none =>
    rw [hInsert] at h
    cases h
  | some notifications =>
    rw [hInsert] at h
    exact ⟨notifications, rfl, (Option.some.inj h).symm⟩

/-- A cast changes no row. -/
theorem made_returned {n : Notification} (hCreated : s.progress k = .created n) (k' : K) :
    ((s.proceed k (.returned n)).progress k').made = (s.progress k').made := by
  simp only [Api.proceed, Function.update_apply]
  split
  · rename_i hSame
    rw [hSame, hCreated]
    rfl
  · rfl

end Inversion

/-! ## What a check sees -/

/-- The uuid of the host that a lookup by name finds. -/
def uuidOfName (db : Db) (name : String) : Option String :=
  (db.hosts.rows.find? fun h => h.deleted = 0 ∧ h.name = name).map (·.uuid)

theorem uuidOfName_setHost (db : Db) (uuid name : String) (v : HostValues) :
    uuidOfName (db.setHost uuid v) name = uuidOfName db name := by
  have hName : ((fun h : Host => decide (h.deleted = 0 ∧ h.name = name)) ∘
      fun h => if h.uuid = uuid then v.apply h else h) =
      fun h => decide (h.deleted = 0 ∧ h.name = name) := by
    funext h
    dsimp only [Function.comp]
    split <;> rfl
  unfold uuidOfName Db.setHost Table.modify
  rw [List.find?_map, hName, Option.map_map]
  congr 1
  funext h
  dsimp only [Function.comp]
  split <;> rfl

/-- The object, of the given source host, type, payload and time, is that of the request. -/
def IsOf (db : Db) (r : Request) (source : String) (type : NotificationType) (payload : Payload)
    (generatedTime : Int) : Prop :=
  uuidOfName db r.hostname = some source ∧ type = r.type ∧ payload = r.payload ∧
    generatedTime = r.generatedTime

/-- The draft is that of the request. -/
def DraftOf (db : Db) (r : Request) (d : Draft) : Prop :=
  IsOf db r d.sourceHostUuid d.type d.payload d.generatedTime

/-- The row is that of the request. -/
def RowOf (db : Db) (r : Request) (n : Notification) : Prop :=
  IsOf db r n.sourceHostUuid n.type n.payload n.generatedTime

/-- The row is open: a filter on `new` and `running` accepts it. -/
def IsOpen (st : NotificationStatus) : Prop := st = .new ∨ st = .running

theorem draftOf_populate {r : Request} {db db' : Db} {d : Draft}
    (h : populate r db = .ok (d, db')) : DraftOf db r d := by
  unfold populate at h
  cases hGet : hostGetByName r.hostname db with
  | error e => rw [hGet] at h; cases h
  | ok o =>
    obtain ⟨o, db₁⟩ := o
    rw [hGet] at h
    dsimp only at h
    split at h
    · cases h
    · cases h
      refine ⟨?_, rfl, rfl, rfl⟩
      unfold hostGetByName at hGet
      unfold uuidOfName
      cases hFind : db.hosts.rows.find? fun h => h.deleted = 0 ∧ h.name = r.hostname with
      | none => rw [hFind] at hGet; cases hGet
      | some host =>
        rw [hFind] at hGet
        unfold hostFromDbObject at hGet
        dsimp only at hGet
        split at hGet
        · cases hGet
          rfl
        · cases hGet

section Check

variable {K : Type} {requests : K → Request} {interval : Nat} {db : Db}

/-- An open row of a matching request makes a draft a duplicate. -/
theorem isDuplicate_of_row {k k' : K} {d : Draft} {r : Notification} {uuid : String}
    (hMatch : Matching requests interval) (hDraft : DraftOf db (requests k') d)
    (hLive : db.liveNotification uuid = some r) (hOpen : IsOpen r.status)
    (hRow : RowOf db (requests k) r) : isDuplicateNotification interval d db = true := by
  obtain ⟨hHost, hType, hPayload, hTime⟩ := hMatch k' k
  obtain ⟨hSourceD, hTypeD, hPayloadD, hTimeD⟩ := hDraft
  obtain ⟨hSourceR, hTypeR, hPayloadR, hTimeR⟩ := hRow
  obtain ⟨hGet, hDeleted⟩ := liveNotification_eq_some.mp hLive
  have hSource : r.sourceHostUuid = d.sourceHostUuid := by
    rw [hHost, hSourceR] at hSourceD
    exact Option.some.inj hSourceD
  refine List.any_eq_true.mpr ⟨r, mem_notificationsGetAllByFilters.mpr
    ⟨Table.mem_of_get? hGet, ?_⟩, ?_⟩
  · have hSince : d.generatedTime - interval ≤ r.generatedTime := by
      rw [hTimeD, hTimeR]
      exact hTime
    have hStatus : r.status ∈ [NotificationStatus.new, .running] := by
      rcases hOpen with h | h <;> rw [h] <;> decide
    simp [NotificationFilters.accepts, duplicateFilters, hDeleted, hSource, hTypeD, hTypeR, hType,
      hStatus, hSince]
  · rw [hPayloadR, hPayloadD, hPayload]
    exact decide_eq_true rfl

end Check

/-! ## The invariant -/

structure Accepted {K : Type} (requests : K → Request) (s : Api K) : Prop where
  drafts : ∀ k d, (s.progress k).draft = some d → DraftOf s.db (requests k) d
  rows : ∀ k n, (s.progress k).made = some n → ∃ r,
    s.db.liveNotification n.notificationUuid = some r ∧ IsOpen r.status ∧ RowOf s.db (requests k) r
  alone : ∀ k n, (s.progress k).made = some n → ∀ k', k' ≠ k →
    (s.progress k').made = none ∧ (s.progress k').passed = false
  raises : ∀ k e, s.progress k = .raised e → e.isA .duplicateNotification = true

section Invariant

variable {K : Type} [DecidableEq K] {requests : K → Request} {interval : Nat} {s s' : Api K}

/-- A request proceeds, neither past the check nor to a row of its own. -/
theorem accepted_proceed {k : K} {p : Progress} (h : Accepted requests s)
    (hDraft : ∀ d, p.draft = some d → DraftOf s.db (requests k) d) (hMade : p.made = none)
    (hPassed : p.passed = true → ∀ k' n, (s.progress k').made ≠ some n)
    (hRaised : ∀ e, p = .raised e → e.isA .duplicateNotification = true) :
    Accepted requests (s.proceed k p) := by
  refine ⟨fun k' d hd => ?_, fun k' n hn => ?_, fun k' n hn k'' hNe => ?_, fun k' e he => ?_⟩
  · simp only [Api.proceed, Function.update_apply] at hd
    split at hd
    · rename_i hSame
      rw [hSame]
      exact hDraft d hd
    · exact h.drafts k' d hd
  · simp only [Api.proceed, Function.update_apply] at hn
    split at hn
    · rw [hMade] at hn
      cases hn
    · exact h.rows k' n hn
  · simp only [Api.proceed, Function.update_apply] at hn ⊢
    split at hn
    · rw [hMade] at hn
      cases hn
    · split
      · refine ⟨hMade, ?_⟩
        by_contra hTrue
        exact hPassed (by simpa using hTrue) k' n hn
      · exact h.alone k' n hn k'' hNe
  · simp only [Api.proceed, Function.update_apply] at he
    split at he
    · exact hRaised e he
    · exact h.raises k' e he

omit [DecidableEq K] in
/-- A change of the database that keeps the names of the hosts and the open rows of the
requests. -/
theorem accepted_environment {db' : Db} (h : Accepted requests s)
    (hHosts : ∀ name, uuidOfName db' name = uuidOfName s.db name)
    (hRows : ∀ k n r, (s.progress k).made = some n →
      s.db.liveNotification n.notificationUuid = some r → IsOpen r.status →
      ∃ st, IsOpen st ∧ db'.liveNotification n.notificationUuid = some { r with status := st }) :
    Accepted requests { s with db := db' } := by
  have hIs : ∀ {r source type payload generatedTime},
      IsOf s.db r source type payload generatedTime →
        IsOf db' r source type payload generatedTime := by
    intro r source type payload generatedTime hIs
    exact ⟨(hHosts _).trans hIs.1, hIs.2⟩
  refine ⟨fun k d hd => hIs (h.drafts k d hd), fun k n hn => ?_, h.alone, h.raises⟩
  obtain ⟨r, hLive, hOpen, hRow⟩ := h.rows k n hn
  obtain ⟨st, hSt, hLive'⟩ := hRows k n r hn hLive hOpen
  exact ⟨_, hLive', hSt, hIs hRow⟩

theorem live_of_insert {db : Db} {r row : Notification} {t : Table Notification.notificationUuid}
    {uuid : String} (hInsert : db.notifications.insert r = some t)
    (hLive : db.liveNotification uuid = some row) :
    ({ db with notifications := t } : Db).liveNotification uuid = some row := by
  have hNe : uuid ≠ r.notificationUuid := by
    intro hSame
    rw [hSame, liveNotification_of_insert hInsert] at hLive
    cases hLive
  rw [liveNotification_insert hInsert, if_neg hNe]
  exact hLive

/-- A request that nobody overtakes inserts the only row. -/
theorem accepted_create {k : K} {d : Draft} {uuid : String} {id : Nat} {createdAt : Int}
    {t : Table Notification.notificationUuid} (h : Accepted requests s)
    (hCheck : s.progress k = .checked d)
    (hInsert : s.db.notifications.insert (d.row uuid id createdAt) = some t)
    (hAlone : ∀ k', k' ≠ k → (s.progress k').passed = false) :
    Accepted requests { s.proceed k (.created (d.row uuid id createdAt)) with
      db := { s.db with notifications := t } } := by
  have hDraft := h.drafts k d (by rw [hCheck]; rfl)
  -- A request that has its row would not have let this one through the check.
  have hNone : ∀ k', (s.progress k').made = none := by
    intro k'
    by_contra hMade
    obtain ⟨n, hn⟩ := Option.ne_none_iff_exists'.mp hMade
    by_cases hSame : k' = k
    · rw [hSame, hCheck] at hn
      cases hn
    · have hPassed := (h.alone k' n hn k (Ne.symm hSame)).2
      rw [hCheck] at hPassed
      cases hPassed
  refine ⟨fun k' d' hd' => ?_, fun k' n hn => ?_, fun k' n hn k'' hNe => ?_, fun k' e he => ?_⟩
  · simp only [Api.proceed, Function.update_apply] at hd'
    split at hd'
    · cases hd'
    · exact h.drafts k' d' hd'
  · simp only [Api.proceed, Function.update_apply] at hn
    split at hn
    · rename_i hSame
      cases hn
      rw [hSame]
      refine ⟨d.row uuid id createdAt, ?_, Or.inl rfl, hDraft⟩
      rw [liveNotification_insert hInsert, if_pos rfl]
      rfl
    · rw [hNone k'] at hn
      cases hn
  · simp only [Api.proceed, Function.update_apply] at hn ⊢
    split at hn
    · rename_i hSame
      rw [if_neg (hSame ▸ hNe)]
      exact ⟨hNone k'', hAlone k'' (hSame ▸ hNe)⟩
    · rw [hNone k'] at hn
      cases hn
  · simp only [Api.proceed, Function.update_apply] at he
    split at he
    · cases he
    · exact h.raises k' e he

/-- A cast keeps all that is known of the rows. -/
theorem accepted_cast {k : K} {n : Notification} (h : Accepted requests s)
    (hCreated : s.progress k = .created n) : Accepted requests (s.proceed k (.returned n)) := by
  have hMade := made_returned hCreated
  refine ⟨fun k' d hd => ?_, fun k' n' hn' => ?_, fun k' n' hn' k'' hNe => ?_, fun k' e he => ?_⟩
  · simp only [Api.proceed, Function.update_apply] at hd
    split at hd
    · cases hd
    · exact h.drafts k' d hd
  · rw [hMade] at hn'
    exact h.rows k' n' hn'
  · rw [hMade] at hn'
    rw [hMade]
    refine ⟨(h.alone k' n' hn' k'' hNe).1, ?_⟩
    simp only [Api.proceed, Function.update_apply]
    split
    · rfl
    · exact (h.alone k' n' hn' k'' hNe).2
  · simp only [Api.proceed, Function.update_apply] at he
    split at he
    · cases he
    · exact h.raises k' e he

omit [DecidableEq K] in
/-- A new status, under which a row of the requests stays open. -/
theorem accepted_setStatus {uuid : String} {st : NotificationStatus} (h : Accepted requests s)
    (hPremises : Premises requests s (.setStatus uuid st)) :
    Accepted requests { s with db := s.db.setStatus uuid st } := by
  refine accepted_environment h (fun _ => rfl) fun k n r hn hLive hOpen => ?_
  by_cases hSame : n.notificationUuid = uuid
  · have hSt : IsOpen st := by
      rcases hPremises with hNew | hRunning | hOther
      · exact Or.inl hNew
      · exact Or.inr hRunning
      · have hNe := hOther k
        rw [hn] at hNe
        simp [hSame] at hNe
    refine ⟨st, hSt, ?_⟩
    rw [hSame] at hLive ⊢
    exact liveNotification_setStatus_self hLive
  · refine ⟨r.status, hOpen, ?_⟩
    rw [liveNotification_setStatus_ne hSame]
    exact hLive

theorem accepted_step {l : Label K} (hMatch : Matching requests interval)
    (h : Accepted requests s) (hPremises : Premises requests s l) (hC : NoOvertaking s l)
    (hs : s.step requests interval l = some s') : Accepted requests s' := by
  cases l with
  | lookUp k =>
    obtain ⟨e, hPopulate, -⟩ | ⟨d, db, hPopulate, rfl⟩ := step_lookUp hs
    · simp [Premises, hPopulate, Except.isOk, Except.toBool] at hPremises
    · refine accepted_proceed h (fun d' hd' => ?_) rfl (fun hp => by cases hp)
        fun e he => by cases he
      cases hd'
      exact draftOf_populate hPopulate
  | check k =>
    obtain ⟨d, hProgress, hCheck⟩ := step_check hs
    have hDraft := h.drafts k d (by rw [hProgress]; rfl)
    obtain ⟨-, rfl⟩ | ⟨hNot, rfl⟩ := hCheck
    · refine accepted_proceed h (fun d' hd' => by cases hd') rfl (fun hp => by cases hp)
        fun e he => ?_
      cases he
      rfl
    · refine accepted_proceed h (fun d' hd' => ?_) rfl (fun _ k' n hn => ?_)
        fun e he => by cases he
      · cases hd'
        exact hDraft
      · -- The row of the other request would have been found.
        obtain ⟨r, hLive, hOpen, hRow⟩ := h.rows k' n hn
        rw [isDuplicate_of_row hMatch hDraft hLive hOpen hRow] at hNot
        cases hNot
  | create k uuid id createdAt =>
    obtain ⟨d, notifications, hProgress, hInsert, rfl⟩ := step_create hs
    exact accepted_create h hProgress hInsert hC
  | cast k =>
    obtain ⟨n, hProgress, rfl⟩ := step_cast hs
    exact accepted_cast h hProgress
  | setStatus uuid st =>
    cases hs
    exact accepted_setStatus h hPremises
  | setHost uuid v =>
    cases hs
    exact accepted_environment h (fun name => uuidOfName_setHost s.db uuid name v)
      fun k n r _ hLive hOpen => ⟨r.status, hOpen, hLive⟩
  | insert r =>
    obtain ⟨notifications, hInsert, rfl⟩ := step_insert hs
    exact accepted_environment h (fun _ => rfl)
      fun k n row _ hLive hOpen => ⟨row.status, hOpen, live_of_insert hInsert hLive⟩

/-- Of matching requests, none of which inserts between the check and the insert of another
one, at most one is accepted, and every other one raises `DuplicateNotification`. -/
theorem atMostOne_of_noOvertaking (hMatch : Matching requests interval)
    (h : (api requests interval).ReachableIf
      (fun s l => Premises requests s l ∧ NoOvertaking s l) s) : AtMostOne s := by
  have hSound : Accepted requests s := by
    refine Trans.invariant_of_step (I := Accepted requests) (fun s₀ h₀ => ?_)
      (fun _ _ _ hI hC hs => accepted_step hMatch hI hC.1 hC.2 hs) h
    have hReceived : ∀ k, s₀.progress k = .received := h₀
    refine ⟨fun k d hd => ?_, fun k n hn => ?_, fun k n hn => ?_, fun k e he => ?_⟩
    · rw [hReceived k] at hd
      cases hd
    · rw [hReceived k] at hn
      cases hn
    · rw [hReceived k] at hn
      cases hn
    · rw [hReceived k] at he
      cases he
  refine ⟨fun k k' n n' hn hn' => ?_, hSound.raises⟩
  by_contra hNe
  rw [(hSound.alone k' n' hn' k hNe).1] at hn
  cases hn

end Invariant

/-! ## Two monitors report one host -/

/-- Two requests for the same failure. -/
def sameFailure (_ : Bool) : Request :=
  ⟨"compute1", .computeHost, [⟨"event", "STOPPED"⟩].toFinmap, 0⟩

/-- One live host, and two requests for it. -/
def twoRequests : Api Bool where
  db :=
    { segments := ⟨[⟨"segment", "west", .auto, 0⟩], by decide⟩
      hosts := ⟨[⟨1, 0, "host1", "compute1", false, false, "segment", 0⟩], by decide⟩
      notifications := .empty }
  progress _ := .received

theorem matching_sameFailure : Matching sameFailure 180 := by
  intro k k'
  have hTime : (0 : Int) - (180 : Nat) ≤ 0 := by omega
  exact ⟨rfl, rfl, rfl, hTime⟩

/-- One after the other, the second request is a duplicate. -/
theorem atMostOne_of_noOvertaking_duplicate : ∃ s : Api Bool,
    ((s.progress false).made.isSome = true ∧ (s.progress true).duplicate = true) ∧
      AtMostOne s := by
  obtain ⟨s, hReach, hs⟩ := Trans.exists_reachableIf_of_runIf (T := api sameFailure 180)
    (c := fun s l => decide (Premises sameFailure s l ∧ NoOvertaking s l)) (s := twoRequests)
    [.lookUp false, .lookUp true, .check false, .create false "a" 1 0, .check true, .cast false]
    (fun s => (s.progress false).made.isSome && (s.progress true).duplicate)
    (fun _ => rfl) (by decide)
  rw [Bool.and_eq_true] at hs
  exact ⟨s, hs, atMostOne_of_noOvertaking matching_sameFailure
    (Trans.reachableIf_mono (fun _ _ hC => of_decide_eq_true hC) hReach)⟩

/-- Of matching requests at most one is accepted. -/
def AlwaysAtMostOne : Prop :=
  ∀ (K : Type) [DecidableEq K] (requests : K → Request) (interval : Nat) (s : Api K),
    Matching requests interval →
    (api requests interval).ReachableIf (Premises requests) s → AtMostOne s

/-- Both requests pass the check before either has inserted its row. -/
theorem not_alwaysAtMostOne : ¬ AlwaysAtMostOne := by
  intro h
  obtain ⟨s, hReach, hs⟩ := Trans.exists_reachableIf_of_runIf (T := api sameFailure 180)
    (c := fun s l => decide (Premises sameFailure s l)) (s := twoRequests)
    [.lookUp false, .lookUp true, .check false, .check true, .create false "a" 1 0,
      .create true "b" 2 0]
    (fun s => (s.progress false).made.isSome && (s.progress true).made.isSome)
    (fun _ => rfl) (by decide)
  rw [Bool.and_eq_true] at hs
  obtain ⟨n, hn⟩ := Option.isSome_iff_exists.mp hs.1
  obtain ⟨n', hn'⟩ := Option.isSome_iff_exists.mp hs.2
  have hOne := h Bool sameFailure 180 s matching_sameFailure
    (Trans.reachableIf_mono (fun _ _ hC => of_decide_eq_true hC) hReach)
  cases hOne.1 false true n n' hn hn'

end MasakariHA.Ha
