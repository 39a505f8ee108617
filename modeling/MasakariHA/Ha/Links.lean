import MasakariHA.Ha.Api
import MasakariHA.Ha.SegmentsHosts

/-!
# Links between notifications, hosts and segments

Calls of the segment, host and notification API on one database, with the status updates of
the engines. A call looks up and checks in transactions of its own and writes in a later one;
other calls proceed in between.

* `Call.step`: one transaction of a call; `run_createHost` and the like: a call that runs
  alone is the operation of `Ha/SegmentsHosts`;
* `Linked`: an unsettled notification has a live host, a live host has a live segment;
* `UpToDate`: what a write rests on still holds when it is made;
* `linked_of_upToDate`: such runs keep the links, and any other write breaks them.
-/

namespace MasakariHA.Ha

open Lib

/-! ## Calls -/

/-- What the call draws for a row it creates. -/
structure Generated where
  uuid : String
  createdAt : Int

/-- Where a call stands. -/
inductive Call where
  | createSegment (d : SegmentData)
  | updateSegment (uuid : String) (v : SegmentValues)
  | updateSegmentFound (segment : FailoverSegment) (v : SegmentValues)
  | updateSegmentChecked (segment : FailoverSegment) (v : SegmentValues)
  | deleteSegment (uuid : String)
  | deleteSegmentFound (segment : FailoverSegment)
  | deleteSegmentChecked (segment : FailoverSegment)
  | createHost (segmentUuid : String) (d : NewHostData)
  | createHostFound (segment : FailoverSegment) (d : NewHostData)
  | updateHost (segmentUuid id : String) (d : HostData)
  | updateHostSegment (segment : FailoverSegment) (id : String) (d : HostData)
  | updateHostFound (segment : FailoverSegment) (host : HostObject) (d : HostData)
  | updateHostChecked (host : HostObject) (d : HostData)
  | deleteHost (segmentUuid id : String)
  | deleteHostSegment (segment : FailoverSegment) (segmentUuid id : String)
  | deleteHostFound (segment : FailoverSegment) (host : HostObject)
  | deleteHostChecked (host : HostObject)
  | createNotification (r : Request)
  | createNotificationPopulated (r : Request) (d : Draft)
  | createNotificationChecked (d : Draft)
  | returned
  | raised (e : Exc)

/-- The call has made no transaction yet. -/
def Call.received : Call → Bool
  | .createSegment _ | .updateSegment .. | .deleteSegment _ | .createHost .. | .updateHost ..
  | .deleteHost .. | .createNotification _ => true
  | _ => false

/-- The call after a transaction: it proceeds, or ends with the exception. -/
def after {α : Type} (db : Db) (x : Except Exc (α × Db)) (proceed : α → Call) : Call × Db :=
  match x with
  | .ok (a, db') => (proceed a, db')
  | .error e => (.raised e, db)

/-- The next transaction of a call, with the pure code after it. -/
def Call.step (interval : Nat) (g : Generated) (db : Db) : Call → Option (Call × Db)
  | .createSegment d =>
    some (after db (failoverSegmentCreate ⟨g.uuid, d.name, d.recoveryMethod, 0⟩ db)
      fun _ => .returned)
  | .updateSegment uuid v =>
    some (after db (failoverSegmentGetByUuid uuid db) fun s => .updateSegmentFound s v)
  | .updateSegmentFound s v =>
    some (after db (underRecovery s db) fun inUse =>
      if inUse then .raised (segmentNotUpdated s.uuid) else .updateSegmentChecked s v)
  | .updateSegmentChecked s v =>
    some (after db (failoverSegmentUpdate s.uuid v db) fun _ => .returned)
  | .deleteSegment uuid =>
    some (after db (failoverSegmentGetByUuid uuid db) fun s => .deleteSegmentFound s)
  | .deleteSegmentFound s =>
    some (after db (underRecovery s db) fun inUse =>
      if inUse then .raised (segmentNotDeleted s.uuid) else .deleteSegmentChecked s)
  | .deleteSegmentChecked s =>
    some (after db (failoverSegmentDelete s.uuid db) fun _ => .returned)
  | .createHost segmentUuid d =>
    some (after db (failoverSegmentGetByUuid segmentUuid db) fun s => .createHostFound s d)
  | .createHostFound s d =>
    match d.row s.uuid g.uuid g.createdAt with
    | .ok row => some (after db (hostCreate row db) fun _ => .returned)
    | .error e => some (.raised e, db)
  | .updateHost segmentUuid id d =>
    some (after db (failoverSegmentGetByUuid segmentUuid db) fun s => .updateHostSegment s id d)
  | .updateHostSegment s id d =>
    some (after db (hostGetByUuid id db) fun host => .updateHostFound s host d)
  | .updateHostFound s host d =>
    some (after db (underRecovery s db) fun inUse =>
      if inUse then .raised (hostNotUpdated host.host.uuid) else .updateHostChecked host d)
  | .updateHostChecked host d =>
    match d.columns with
    | .ok columns => some (after db (hostSave host.host.uuid columns db) fun _ => .returned)
    | .error e => some (.raised e, db)
  | .deleteHost segmentUuid id =>
    some (after db (failoverSegmentGetByUuid segmentUuid db) fun s =>
      .deleteHostSegment s segmentUuid id)
  | .deleteHostSegment s segmentUuid id =>
    some (after db (hostGetByUuidUnder id segmentUuid db) fun host => .deleteHostFound s host)
  | .deleteHostFound s host =>
    some (after db (underRecovery s db) fun inUse =>
      if inUse then .raised (hostNotDeleted host.host.uuid) else .deleteHostChecked host)
  | .deleteHostChecked host =>
    some (after db (hostDelete host.host.uuid db) fun _ => .returned)
  | .createNotification r =>
    some (after db (populate r db) fun d => .createNotificationPopulated r d)
  | .createNotificationPopulated r d =>
    if isDuplicateNotification interval d db then some (.raised (duplicateNotification r), db)
    else some (.createNotificationChecked d, db)
  | .createNotificationChecked d =>
    let row := d.row g.uuid (db.notifications.rows.length + 1) g.createdAt
    some (after db (notificationCreate row db) fun _ => .returned)
  | .returned | .raised _ => none

/-! ## A call that runs alone -/

/-- At most `n` transactions of a call, with nothing in between. -/
def Call.run (interval : Nat) (g : Generated) : Nat → Call → Db → Call × Db
  | 0, c, db => (c, db)
  | n + 1, c, db =>
    match c.step interval g db with
    | some (c', db') => c'.run interval g n db'
    | none => (c, db)

/-- How a call ends that runs an operation. -/
def ended {α : Type} (x : DbM α) (db : Db) : Call × Db :=
  match x.run db with
  | .ok _ db' => (.returned, db')
  | .error e db' => (.raised e, db')

section Alone

variable {interval : Nat} {g : Generated} {db : Db}

@[simp] theorem run_returned (n : Nat) : Call.run interval g n .returned db = (.returned, db) := by
  cases n <;> rfl

@[simp] theorem run_raised (n : Nat) (e : Exc) :
    Call.run interval g n (.raised e) db = (.raised e, db) := by
  cases n <;> rfl

theorem run_transaction {α : Type} {q : Query α} :
    (transaction q).run db =
      match q db with
      | .ok (a, db') => .ok a db'
      | .error e => .error e db := rfl

/-- The first transaction of an operation, and the rest of it. -/
theorem ended_bind {α β : Type} {q : Query α} {f : α → DbM β} :
    ended (transaction q >>= f) db =
      match q db with
      | .ok (a, db') => ended (f a) db'
      | .error e => (.raised e, db) := by
  unfold ended
  rw [EStateM.run_bind, run_transaction]
  cases q db <;> rfl

theorem ended_ofExcept_bind {α β : Type} {x : Except Exc α} {f : α → DbM β} :
    ended (ofExcept x >>= f) db =
      match x with
      | .ok a => ended (f a) db
      | .error e => (.raised e, db) := by
  cases x <;> rfl

theorem ended_transaction {α : Type} {q : Query α} :
    ended (transaction q) db = after db (q db) fun _ => .returned := by
  unfold ended after
  rw [run_transaction]
  cases q db <;> rfl

theorem ended_throw_bind {α β : Type} (e : Exc) (f : α → DbM β) :
    ended ((throw e : DbM α) >>= f) db = (.raised e, db) := rfl

/-- A call whose next transaction is the first one of an operation, and that proceeds like
the rest of it, runs the operation. -/
theorem run_bind {α β : Type} {n : Nat} {c : Call} {q : Query α} {proceed : α → Call}
    {f : α → DbM β} (hStep : c.step interval g db = some (after db (q db) proceed))
    (hRest : ∀ a db', q db = .ok (a, db') → (proceed a).run interval g n db' = ended (f a) db') :
    c.run interval g (n + 1) db = ended (transaction q >>= f) db := by
  rw [ended_bind, Call.run, hStep]
  cases hq : q db with
  | error e => simp [after]
  | ok p =>
    obtain ⟨a, db'⟩ := p
    exact hRest a db' hq

/-- The refusal of a call on a segment in use. -/
theorem run_underRecovery {β : Type} {n : Nat} {c c' : Call} {segment : FailoverSegment} {e : Exc}
    {f : DbM β} (hStep : c.step interval g db = some (after db (underRecovery segment db)
      fun inUse => if inUse then .raised e else c'))
    (hRest : c'.run interval g n db = ended f db) :
    c.run interval g (n + 1) db = ended (do
      let inUse ← transaction (underRecovery segment)
      if inUse then throw e
      f) db := by
  refine run_bind hStep fun inUse db' hq => ?_
  cases hq
  cases isUnderRecovery segment.uuid db with
  | true => simp only [if_pos, run_raised, ended_throw_bind]
  | false =>
    simp only [Bool.false_eq_true, if_false]
    exact hRest

theorem run_transaction_last {α : Type} {c : Call} {q : Query α}
    (hStep : c.step interval g db = some (after db (q db) fun _ => .returned)) :
    c.run interval g 1 db = ended (transaction q) db := by
  rw [ended_transaction, Call.run, hStep]
  rfl

theorem uuid_of_failoverSegmentGetByUuid {uuid : String} {s : FailoverSegment} {db' : Db}
    (h : failoverSegmentGetByUuid uuid db = .ok (s, db')) : s.uuid = uuid := by
  unfold failoverSegmentGetByUuid at h
  split at h
  · cases h
    rename_i hLive
    exact uuid_of_liveSegment hLive
  · cases h

theorem run_createSegment (d : SegmentData) :
    Call.run interval g 1 (.createSegment d) db = ended (createSegment d g.uuid) db :=
  run_transaction_last rfl

theorem run_updateSegment (uuid : String) (v : SegmentValues) :
    Call.run interval g 3 (.updateSegment uuid v) db = ended (updateSegment uuid v) db := by
  refine run_bind rfl fun s db' hq => ?_
  have hUuid := uuid_of_failoverSegmentGetByUuid hq
  subst hUuid
  exact run_underRecovery rfl (run_transaction_last rfl)

theorem run_deleteSegment (uuid : String) :
    Call.run interval g 3 (.deleteSegment uuid) db = ended (deleteSegment uuid) db := by
  refine run_bind rfl fun s db' hq => ?_
  have hUuid := uuid_of_failoverSegmentGetByUuid hq
  subst hUuid
  exact run_underRecovery rfl (run_transaction_last rfl)

theorem run_createHost (segmentUuid : String) (d : NewHostData) :
    Call.run interval g 2 (.createHost segmentUuid d) db =
      ended (createHost segmentUuid d g.uuid g.createdAt) db := by
  refine run_bind rfl fun s db' _ => ?_
  rw [ended_ofExcept_bind]
  cases hRow : d.row s.uuid g.uuid g.createdAt with
  | error e => simp only [Call.run, Call.step, hRow]
  | ok row => exact run_transaction_last (by simp only [Call.step, hRow])

theorem run_updateHost (segmentUuid id : String) (d : HostData) :
    Call.run interval g 4 (.updateHost segmentUuid id d) db =
      ended (updateHost segmentUuid id d) db := by
  refine run_bind rfl fun s db' _ => run_bind rfl fun host db'' _ => run_underRecovery rfl ?_
  rw [ended_ofExcept_bind]
  cases hColumns : d.columns with
  | error e => simp only [Call.run, Call.step, hColumns]
  | ok columns => exact run_transaction_last (by simp only [Call.step, hColumns])

theorem run_deleteHost (segmentUuid id : String) :
    Call.run interval g 4 (.deleteHost segmentUuid id) db = ended (deleteHost segmentUuid id) db :=
  run_bind rfl fun _ _ _ => run_bind rfl fun _ _ _ =>
    run_underRecovery rfl (run_transaction_last rfl)

end Alone

/-! ## Calls on one database -/

/-- The calls `K` with the database. -/
structure Service (K : Type) where
  db : Db
  calls : K → Call

/-- A call makes its next transaction, or an engine stores a status. -/
inductive Move (K : Type) where
  | call (k : K) (g : Generated)
  | engine (uuid : String) (status : NotificationStatus)

section Service

variable {K : Type} [DecidableEq K] (interval : Nat)

/-- No engine stores `new`. -/
def Service.step (s : Service K) : Move K → Option (Service K)
  | .call k g =>
    match (s.calls k).step interval g s.db with
    | some (c, db) => some ⟨db, Function.update s.calls k c⟩
    | none => none
  | .engine uuid status =>
    if status = .new then none
    else
      match notificationUpdate uuid status s.db with
      | .ok (_, db) => some { s with db }
      | .error _ => none

/-- Any calls, on the empty database. -/
def service : Trans (Service K) (Move K) where
  init s := s.db = ⟨.empty, .empty, .empty⟩ ∧ ∀ k, (s.calls k).received = true
  step := Service.step interval

end Service

/-- An unsettled notification has a live source host, a live host has a live segment. -/
structure Linked (db : Db) : Prop where
  notifications : ∀ n ∈ db.notifications.rows, n.status ∈ recoveryStatuses →
    (db.liveHost n.sourceHostUuid).isSome = true
  hosts : ∀ h ∈ db.hosts.rows, h.deleted = 0 → (db.liveSegment h.failoverSegmentId).isSome = true

/-- An unsettled notification names the host: what `is_failover_segment_under_recovery` asks
of the hosts of a segment. -/
def hostInUse (uuid : String) (db : Db) : Bool :=
  db.notifications.rows.any fun n =>
    n.deleted = 0 && n.status ∈ recoveryStatuses && n.sourceHostUuid = uuid

/-- If the next transaction of the call writes, what the call found still holds. -/
def Call.upToDate (db : Db) : Call → Bool
  | .createHostFound s _ => (db.liveSegment s.uuid).isSome
  | .createNotificationChecked d => (db.liveHost d.sourceHostUuid).isSome
  | .deleteSegmentChecked s => !isUnderRecovery s.uuid db
  | .deleteHostChecked host => !hostInUse host.host.uuid db
  | _ => true

/-- The write rests on nothing outdated: a call's write on what the call found, an engine's
on the host, when it stores a status to be recovered from. -/
def UpToDate {K : Type} (s : Service K) : Move K → Bool
  | .call k _ => (s.calls k).upToDate s.db
  | .engine uuid status => status ∉ recoveryStatuses ||
      (s.db.liveNotification uuid).all fun n => (s.db.liveHost n.sourceHostUuid).isSome

/-- The move has written what it was to write. -/
def Wrote {K : Type} (s' : Service K) : Move K → Prop
  | .call k _ => s'.calls k = .returned
  | .engine _ _ => True

/-! ## The invariant -/

/-- The links, and what the deletions rely on. -/
structure Sound (db : Db) : Prop where
  linked : Linked db
  stored : ∀ n ∈ db.notifications.rows, n.deleted = 0
  ids : ∀ h ∈ db.hosts.rows, 0 < h.id

section Sound

variable {db : Db} {uuid : String}

/-- The links in terms of lookups. -/
theorem Linked.segmentOf (h : Linked db) {host : Host} (hLive : db.liveHost uuid = some host) :
    (db.liveSegment host.failoverSegmentId).isSome = true :=
  h.hosts host (mem_of_liveHost hLive) (liveHost_eq_some.mp hLive).2

theorem linked_of_lookups
    (hNotifications : ∀ n ∈ db.notifications.rows, n.status ∈ recoveryStatuses →
      (db.liveHost n.sourceHostUuid).isSome = true)
    (hHosts : ∀ uuid host, db.liveHost uuid = some host →
      (db.liveSegment host.failoverSegmentId).isSome = true) : Linked db :=
  ⟨hNotifications, fun host hMem hLive => hHosts _ host (liveHost_of_mem hMem hLive)⟩

/-- A write to the segments that keeps the live ones. -/
theorem sound_segments {segments : Table FailoverSegment.uuid} (h : Sound db)
    (hKeep : ∀ uuid, (db.liveSegment uuid).isSome = true →
      (({ db with segments } : Db).liveSegment uuid).isSome = true) :
    Sound { db with segments } :=
  ⟨⟨h.linked.notifications, fun host hMem hLive => hKeep _ (h.linked.hosts host hMem hLive)⟩,
    h.stored, h.ids⟩

theorem sound_failoverSegmentCreate {r r' : FailoverSegment} {db' : Db} (h : Sound db)
    (hLive : r.deleted = 0) (hq : failoverSegmentCreate r db = .ok (r', db')) : Sound db' := by
  unfold failoverSegmentCreate at hq
  split at hq
  · cases hq
  · split at hq
    · cases hq
    · rename_i hInsert
      cases hq
      refine sound_segments h fun uuid hSome => ?_
      rw [liveSegment_insert hInsert hLive]
      split
      · rfl
      · exact hSome

theorem sound_failoverSegmentUpdate {r' : FailoverSegment} {v : SegmentValues} {db' : Db}
    (h : Sound db) (hq : failoverSegmentUpdate uuid v db = .ok (r', db')) : Sound db' := by
  unfold failoverSegmentUpdate at hq
  split at hq
  · cases hq
  · split at hq
    · cases hq
    · cases hq
      refine sound_segments h fun uuid' hSome => ?_
      have hSame := isSome_liveSegment_setSegment db uuid uuid' v
      exact hSame.trans hSome

theorem linked_deleteSegment_iff (h : Sound db) :
    Linked (db.deleteSegment uuid) ↔ isUnderRecovery uuid db = false := by
  have hHost := liveHost_deleteSegment h.ids uuid
  constructor
  · intro hLinked
    by_contra hUse
    rw [Bool.not_eq_false] at hUse
    obtain ⟨n, hMem, _, hStatus, host, hLive, hSegment⟩ :=
      isFailoverSegmentUnderRecovery_iff.mp hUse
    have hSome := hLinked.notifications n hMem hStatus
    rw [hHost, hLive] at hSome
    simp [Option.filter, hSegment] at hSome
  · intro hUse
    refine linked_of_lookups (fun n hMem hStatus => ?_) fun uuid' host hLive => ?_
    · obtain ⟨host, hLive⟩ := Option.isSome_iff_exists.mp (h.linked.notifications n hMem hStatus)
      have hSegment : host.failoverSegmentId ≠ uuid := by
        intro hSegment
        have hTrue : isUnderRecovery uuid db = true := isFailoverSegmentUnderRecovery_iff.mpr
          ⟨n, hMem, h.stored n hMem, hStatus, host, hLive, hSegment⟩
        exact Bool.false_ne_true (hUse.symm.trans hTrue)
      rw [hHost, hLive]
      simp [Option.filter, hSegment]
    · rw [hHost] at hLive
      obtain ⟨hBefore, hSegment⟩ := Option.filter_eq_some_iff.mp hLive
      rw [liveSegment_deleteSegment, if_neg (of_decide_eq_true hSegment)]
      exact h.linked.segmentOf hBefore

theorem linked_deleteHost_iff (h : Sound db) :
    Linked (db.deleteHost uuid) ↔ hostInUse uuid db = false := by
  have hHost := liveHost_deleteHost h.ids uuid
  have hInUse : hostInUse uuid db = true ↔
      ∃ n ∈ db.notifications.rows, n.status ∈ recoveryStatuses ∧ n.sourceHostUuid = uuid := by
    simp only [hostInUse, List.any_eq_true, Bool.and_eq_true, decide_eq_true_eq]
    constructor
    · rintro ⟨n, hMem, ⟨_, hStatus⟩, hSource⟩
      exact ⟨n, hMem, hStatus, hSource⟩
    · rintro ⟨n, hMem, hStatus, hSource⟩
      exact ⟨n, hMem, ⟨h.stored n hMem, hStatus⟩, hSource⟩
  constructor
  · intro hLinked
    by_contra hUse
    rw [Bool.not_eq_false] at hUse
    obtain ⟨n, hMem, hStatus, hSource⟩ := hInUse.mp hUse
    have hSome := hLinked.notifications n hMem hStatus
    rw [hHost, if_pos hSource] at hSome
    cases hSome
  · intro hUse
    refine linked_of_lookups (fun n hMem hStatus => ?_) fun uuid' host hLive => ?_
    · have hSource : n.sourceHostUuid ≠ uuid := by
        intro hSource
        have hTrue := hInUse.mpr ⟨n, hMem, hStatus, hSource⟩
        exact Bool.false_ne_true (hUse.symm.trans hTrue)
      rw [hHost, if_neg hSource]
      exact h.linked.notifications n hMem hStatus
    · rw [hHost] at hLive
      split at hLive
      · cases hLive
      · exact h.linked.segmentOf hLive

theorem linked_insertHost_iff {r : Host} {t : Table Host.uuid} (h : Sound db)
    (hInsert : db.hosts.insert r = some t) (hLive : r.deleted = 0) :
    Linked { db with hosts := t } ↔ (db.liveSegment r.failoverSegmentId).isSome = true := by
  have hHost := liveHost_insert hInsert hLive
  constructor
  · intro hLinked
    exact hLinked.segmentOf ((hHost r.uuid).trans (if_pos rfl))
  · intro hSegment
    refine linked_of_lookups (fun n hMem hStatus => ?_) fun uuid' host hLive' => ?_
    · rw [hHost]
      split
      · rfl
      · exact h.linked.notifications n hMem hStatus
    · rw [hHost] at hLive'
      split at hLive'
      · cases hLive'
        exact hSegment
      · exact h.linked.segmentOf hLive'

theorem linked_insertNotification_iff {r : Notification}
    {t : Table Notification.notificationUuid} (h : Sound db)
    (hInsert : db.notifications.insert r = some t) (hStatus : r.status ∈ recoveryStatuses) :
    Linked { db with notifications := t } ↔ (db.liveHost r.sourceHostUuid).isSome = true := by
  have hRows := Table.rows_insert hInsert
  constructor
  · intro hLinked
    exact hLinked.notifications r (by simp [hRows]) hStatus
  · intro hHost
    refine ⟨fun n hMem hStatus' => ?_, h.linked.hosts⟩
    have hMem : n ∈ db.notifications.rows ++ [r] := by
      rw [← hRows]
      exact hMem
    rcases List.mem_append.mp hMem with hOld | hNew
    · exact h.linked.notifications n hOld hStatus'
    · cases List.mem_singleton.mp hNew
      exact hHost

theorem linked_setStatus_iff (status : NotificationStatus) {r : Notification} (h : Sound db)
    (hLive : db.liveNotification uuid = some r) :
    Linked (db.setStatus uuid status) ↔
      (status ∈ recoveryStatuses → (db.liveHost r.sourceHostUuid).isSome = true) := by
  obtain ⟨hGet, _⟩ := liveNotification_eq_some.mp hLive
  constructor
  · intro hLinked hStatus
    refine hLinked.notifications { r with status } (Table.mem_of_get? (k := uuid) ?_) hStatus
    rw [Db.setStatus, Table.get?_modify_self, hGet]
    rfl
  · intro hHost
    refine ⟨fun n hMem hStatus => ?_, h.linked.hosts⟩
    obtain ⟨n', hMem', rfl⟩ := List.mem_map.mp hMem
    by_cases hSame : n'.notificationUuid = uuid
    · have hRow : n' = r := by
        have hGet' := Table.mem_rows_iff.mp hMem'
        rw [hSame, hGet] at hGet'
        exact (Option.some.inj hGet').symm
      rw [if_pos hSame] at hStatus ⊢
      rw [hRow]
      exact hHost hStatus
    · rw [if_neg hSame] at hStatus ⊢
      exact h.linked.notifications n' hMem' hStatus

end Sound

/-! ## Steps -/

section Step

variable {interval : Nat} {g : Generated} {db db' : Db} {c c' : Call}

/-- What a transaction does to the links: a read, or an exception, leaves the database; a
write keeps them exactly when the call is up to date. -/
def Settles (c : Call) (db : Db) (c' : Call) (db' : Db) : Prop :=
  (c.upToDate db = true → Sound db') ∧
    (c.upToDate db = false → c' = .returned → ¬ Linked db')

theorem settles_unchanged (h : Sound db) (hDb : db' = db) (hReturned : c' ≠ .returned) :
    Settles c db c' db' := by
  subst hDb
  exact ⟨fun _ => h, fun _ hEnd => absurd hEnd hReturned⟩

/-- A transaction that reads. -/
theorem settles_read {α : Type} {x : Except Exc (α × Db)} {proceed : α → Call} (h : Sound db)
    (hRead : ∀ a db', x = .ok (a, db') → db' = db) (hProceed : ∀ a, proceed a ≠ .returned)
    (hs : some (after db x proceed) = some (c', db')) : Settles c db c' db' := by
  cases x with
  | error e =>
    cases hs
    exact settles_unchanged h rfl (by simp)
  | ok p =>
    cases hs
    exact settles_unchanged h (hRead p.1 p.2 rfl) (hProceed p.1)

/-- A transaction that writes. -/
theorem settles_write {α : Type} {x : Except Exc (α × Db)} (h : Sound db)
    (hOk : ∀ a db', x = .ok (a, db') →
      (c.upToDate db = true → Sound db') ∧ (c.upToDate db = false → ¬ Linked db'))
    (hs : some (after db x fun _ => .returned) = some (c', db')) : Settles c db c' db' := by
  cases x with
  | error e =>
    cases hs
    exact settles_unchanged h rfl (by simp)
  | ok p =>
    cases hs
    obtain ⟨hKeep, hBreak⟩ := hOk p.1 p.2 rfl
    exact ⟨hKeep, fun hNot _ => hBreak hNot⟩

theorem failoverSegmentGetByUuid_reads {uuid : String} (a : FailoverSegment) (db' : Db)
    (hq : failoverSegmentGetByUuid uuid db = .ok (a, db')) : db' = db := by
  unfold failoverSegmentGetByUuid at hq
  split at hq <;> cases hq
  rfl

theorem underRecovery_reads {s : FailoverSegment} (a : Bool) (db' : Db)
    (hq : underRecovery s db = .ok (a, db')) : db' = db := by
  cases hq
  rfl

/-- A row read with its segment. -/
theorem fromDb_reads {host : Host} (a : HostObject) (db' : Db)
    (hq : (hostFromDbObject db host).map (·, db) = .ok (a, db')) : db' = db := by
  rcases hostFromDbObject_cases db host with ⟨segment, hOk⟩ | hError
  · rw [hOk] at hq
    cases hq
    rfl
  · rw [hError] at hq
    cases hq

theorem hostGetByUuid_reads {uuid : String} (a : HostObject) (db' : Db)
    (hq : hostGetByUuid uuid db = .ok (a, db')) : db' = db := by
  unfold hostGetByUuid at hq
  split at hq
  · exact fromDb_reads a db' hq
  · cases hq

theorem hostGetByUuidUnder_reads {uuid segmentUuid : String} (a : HostObject) (db' : Db)
    (hq : hostGetByUuidUnder uuid segmentUuid db = .ok (a, db')) : db' = db := by
  unfold hostGetByUuidUnder at hq
  split at hq
  · exact hostGetByUuid_reads a db' hq
  · split at hq
    · exact fromDb_reads a db' hq
    · cases hq

theorem populate_reads {r : Request} (d : Draft) (db' : Db)
    (hq : populate r db = .ok (d, db')) : db' = db := by
  unfold populate hostGetByName at hq
  split at hq
  · cases hq
  · rename_i hGet
    split at hGet
    · have hSame := fromDb_reads _ _ hGet
      split at hq
      · cases hq
      · cases hq
        exact hSame
    · cases hGet

theorem sound_hosts {hosts : Table Host.uuid} (h : Sound db)
    (hLinked : Linked { db with hosts }) (hIds : ∀ host ∈ hosts.rows, 0 < host.id) :
    Sound { db with hosts } :=
  ⟨hLinked, h.stored, hIds⟩

theorem ids_map {f : Host → Host} (hKeep : ∀ r, (f r).id = r.id) (h : Sound db) :
    ∀ host ∈ db.hosts.rows.map f, 0 < host.id := by
  intro host hMem
  obtain ⟨host', hMem', rfl⟩ := List.mem_map.mp hMem
  rw [hKeep]
  exact h.ids host' hMem'

theorem settles_deleteSegment {s : FailoverSegment} (h : Sound db)
    (hs : Call.step interval g db (.deleteSegmentChecked s) = some (c', db')) :
    Settles (.deleteSegmentChecked s) db c' db' := by
  refine settles_write h (fun a db' hq => ?_) hs
  unfold failoverSegmentDelete at hq
  split at hq
  · cases hq
  · cases hq
    simp only [Call.upToDate, Bool.not_eq_true', Bool.not_eq_false']
    have hIds : ∀ row, (Host.deleteUnder s.uuid row).id = row.id := by
      intro row
      unfold Host.deleteUnder
      split <;> rfl
    refine ⟨fun hUse => ?_, fun hUse hLinked => ?_⟩
    · exact ⟨(linked_deleteSegment_iff h).mpr hUse, h.stored, ids_map hIds h⟩
    · rw [(linked_deleteSegment_iff h).mp hLinked] at hUse
      cases hUse

theorem settles_deleteHost {host : HostObject} (h : Sound db)
    (hs : Call.step interval g db (.deleteHostChecked host) = some (c', db')) :
    Settles (.deleteHostChecked host) db c' db' := by
  refine settles_write h (fun a db' hq => ?_) hs
  unfold hostDelete at hq
  split at hq
  · cases hq
  · cases hq
    simp only [Call.upToDate, Bool.not_eq_true', Bool.not_eq_false']
    refine ⟨fun hUse => ?_, fun hUse hLinked => ?_⟩
    · exact ⟨(linked_deleteHost_iff h).mpr hUse, h.stored, ids_map (fun row => by split <;> rfl) h⟩
    · rw [(linked_deleteHost_iff h).mp hLinked] at hUse
      cases hUse

theorem settles_createHost {s : FailoverSegment} {d : NewHostData} (h : Sound db)
    (hs : Call.step interval g db (.createHostFound s d) = some (c', db')) :
    Settles (.createHostFound s d) db c' db' := by
  simp only [Call.step] at hs
  cases hRow : d.row s.uuid g.uuid g.createdAt with
  | error e =>
    rw [hRow] at hs
    cases hs
    exact settles_unchanged h rfl (by simp)
  | ok row =>
    rw [hRow] at hs
    obtain ⟨hSegment, hLive⟩ := row_of_newHostData hRow
    refine settles_write h (fun a db' hq => ?_) hs
    obtain ⟨hosts, hInsert, rfl⟩ := insert_of_hostCreate hq
    have hIff := linked_insertHost_iff h hInsert hLive
    simp only [hSegment] at hIff
    simp only [Call.upToDate]
    refine ⟨fun hSome => sound_hosts h (hIff.mpr hSome) fun host hMem => ?_,
      fun hNone hLinked => ?_⟩
    · rw [Table.rows_insert hInsert] at hMem
      rcases List.mem_append.mp hMem with hOld | hNew
      · exact h.ids host hOld
      · cases List.mem_singleton.mp hNew
        exact Nat.succ_pos _
    · rw [hIff.mp hLinked] at hNone
      cases hNone

theorem settles_updateHost {host : HostObject} {d : HostData} (h : Sound db)
    (hs : Call.step interval g db (.updateHostChecked host d) = some (c', db')) :
    Settles (.updateHostChecked host d) db c' db' := by
  simp only [Call.step] at hs
  cases hColumns : d.columns with
  | error e =>
    rw [hColumns] at hs
    cases hs
    exact settles_unchanged h rfl (by simp)
  | ok v =>
    rw [hColumns] at hs
    refine settles_write h (fun a db' hq => ⟨fun _ => ?_, fun hNot => (by cases hNot)⟩) hs
    have hDb := eq_of_hostSave hq
    have hHost := fun uuid => liveHost_setHostColumns db host.host.uuid uuid v
    rw [hDb]
    refine sound_hosts h (linked_of_lookups (fun n hMem hStatus => ?_) fun uuid row hLive => ?_)
      (ids_map (fun row => by split <;> rfl) h)
    · have hSome := h.linked.notifications n hMem hStatus
      rw [← Db.setHostColumns, hHost]
      split
      · rw [Option.isSome_map]
        exact hSome
      · exact hSome
    · rw [← Db.setHostColumns, hHost] at hLive
      split at hLive
      · obtain ⟨row', hLive', rfl⟩ := Option.map_eq_some_iff.mp hLive
        have hSegment := h.linked.segmentOf hLive'
        exact hSegment
      · exact h.linked.segmentOf hLive

theorem settles_createNotification {d : Draft} (h : Sound db)
    (hs : Call.step interval g db (.createNotificationChecked d) = some (c', db')) :
    Settles (.createNotificationChecked d) db c' db' := by
  refine settles_write h (fun a db' hq => ?_) hs
  unfold notificationCreate at hq
  split at hq
  · cases hq
  · rename_i notifications hInsert
    cases hq
    have hStatus : NotificationStatus.new ∈ recoveryStatuses := by decide
    have hIff := linked_insertNotification_iff h hInsert hStatus
    simp only [Draft.row] at hIff
    simp only [Call.upToDate]
    refine ⟨fun hSome => ⟨hIff.mpr hSome, fun n hMem => ?_, h.ids⟩, fun hNone hLinked => ?_⟩
    · rw [Table.rows_insert hInsert] at hMem
      rcases List.mem_append.mp hMem with hOld | hNew
      · exact h.stored n hOld
      · cases List.mem_singleton.mp hNew
        rfl
    · rw [hIff.mp hLinked] at hNone
      cases hNone

/-- One case for each stage of a call. -/
theorem settles_step (h : Sound db) (hs : c.step interval g db = some (c', db')) :
    Settles c db c' db' := by
  cases c with
  | createSegment d =>
    exact settles_write h (fun a db' hq =>
      ⟨fun _ => sound_failoverSegmentCreate h rfl hq, fun hNot => (by cases hNot)⟩) hs
  | updateSegment uuid v =>
    exact settles_read h failoverSegmentGetByUuid_reads (fun _ => by simp) hs
  | updateSegmentFound s v =>
    exact settles_read h underRecovery_reads (fun inUse => by cases inUse <;> simp) hs
  | updateSegmentChecked s v =>
    exact settles_write h (fun a db' hq =>
      ⟨fun _ => sound_failoverSegmentUpdate h hq, fun hNot => (by cases hNot)⟩) hs
  | deleteSegment uuid =>
    exact settles_read h failoverSegmentGetByUuid_reads (fun _ => by simp) hs
  | deleteSegmentFound s =>
    exact settles_read h underRecovery_reads (fun inUse => by cases inUse <;> simp) hs
  | deleteSegmentChecked s => exact settles_deleteSegment h hs
  | createHost segmentUuid d =>
    exact settles_read h failoverSegmentGetByUuid_reads (fun _ => by simp) hs
  | createHostFound s d => exact settles_createHost h hs
  | updateHost segmentUuid id d =>
    exact settles_read h failoverSegmentGetByUuid_reads (fun _ => by simp) hs
  | updateHostSegment s id d =>
    exact settles_read h hostGetByUuid_reads (fun _ => by simp) hs
  | updateHostFound s host d =>
    exact settles_read h underRecovery_reads (fun inUse => by cases inUse <;> simp) hs
  | updateHostChecked host d => exact settles_updateHost h hs
  | deleteHost segmentUuid id =>
    exact settles_read h failoverSegmentGetByUuid_reads (fun _ => by simp) hs
  | deleteHostSegment s segmentUuid id =>
    exact settles_read h hostGetByUuidUnder_reads (fun _ => by simp) hs
  | deleteHostFound s host =>
    exact settles_read h underRecovery_reads (fun inUse => by cases inUse <;> simp) hs
  | deleteHostChecked host => exact settles_deleteHost h hs
  | createNotification r =>
    exact settles_read h populate_reads (fun _ => by simp) hs
  | createNotificationPopulated r d =>
    simp only [Call.step] at hs
    split at hs <;> cases hs <;> exact settles_unchanged h rfl (by simp)
  | createNotificationChecked d => exact settles_createNotification h hs
  | returned => cases hs
  | raised e => cases hs

end Step

section Run

variable {K : Type} [DecidableEq K] {interval : Nat} {s s' : Service K}

theorem sound_step {m : Move K} (h : Sound s.db) (hs : s.step interval m = some s') :
    (UpToDate s m = true → Sound s'.db) ∧
      (UpToDate s m = false → Wrote s' m → ¬ Linked s'.db) := by
  cases m with
  | call k g =>
    simp only [Service.step] at hs
    cases hStep : (s.calls k).step interval g s.db with
    | none => rw [hStep] at hs; cases hs
    | some p =>
      obtain ⟨c', db'⟩ := p
      rw [hStep] at hs
      cases hs
      obtain ⟨hKeep, hBreak⟩ := settles_step h hStep
      refine ⟨hKeep, fun hNot hWrote => hBreak hNot ?_⟩
      simpa only [Wrote, Function.update_self] using hWrote
  | engine uuid status =>
    simp only [Service.step] at hs
    split at hs
    · cases hs
    · unfold notificationUpdate at hs
      cases hLive : s.db.liveNotification uuid with
      | none =>
        rw [hLive] at hs
        cases hs
      | some r =>
        rw [hLive] at hs
        cases hs
        have hIff := linked_setStatus_iff status h hLive
        have hUpToDate : UpToDate s (.engine uuid status) = true ↔
            Linked (s.db.setStatus uuid status) := by
          rw [hIff]
          simp only [UpToDate, hLive, Option.all_some, Bool.or_eq_true, decide_eq_true_eq]
          exact Decidable.imp_iff_not_or.symm
        refine ⟨fun hUp => ⟨hUpToDate.mp hUp, fun n hMem => ?_, h.ids⟩, fun hNot _ hLinked => ?_⟩
        · obtain ⟨n', hMem', rfl⟩ := List.mem_map.mp hMem
          split <;> exact h.stored n' hMem'
        · rw [hUpToDate.mpr hLinked] at hNot
          cases hNot

/-- Where every write rests on what still holds, the links hold in every state; the first
write that does not breaks them. -/
theorem linked_of_upToDate (h : (service interval).ReachableIf (fun s m => UpToDate s m = true) s) :
    Linked s.db ∧ ∀ m s', s.step interval m = some s' → UpToDate s m = false → Wrote s' m →
      ¬ Linked s'.db := by
  have hSound : Sound s.db := by
    refine Trans.invariant_of_step (I := fun s : Service K => Sound s.db) (fun s₀ h₀ => ?_)
      (fun _ _ _ hI hUp hs => (sound_step hI hs).1 hUp) h
    rw [h₀.1]
    have hEmpty : Linked ⟨.empty, .empty, .empty⟩ :=
      ⟨fun _ hMem => (by cases hMem), fun _ hMem => (by cases hMem)⟩
    exact ⟨hEmpty, fun _ hMem => (by cases hMem), fun _ hMem => (by cases hMem)⟩
  exact ⟨hSound.linked, fun m s' hs => (sound_step hSound hs).2⟩

end Run

/-! ## A host is deleted while it reports a failure -/

/-- A segment, a host in it, a notification from the host, and the deletion of the host. -/
def deletedWhileReporting (k : Fin 4) : Call :=
  match k with
  | 0 => .createSegment ⟨"north", .auto⟩
  | 1 => .createHost "segment-n" { name := "compute3" }
  | 2 => .createNotification ⟨"compute3", .vm, [⟨"event", "LIFECYCLE"⟩].toFinmap, 50⟩
  | 3 => .deleteHost "segment-n" "host-n"

def reporting : Service (Fin 4) := ⟨⟨.empty, .empty, .empty⟩, deletedWhileReporting⟩

theorem received_deletedWhileReporting (k : Fin 4) : (reporting.calls k).received = true := by
  revert k
  decide

/-- The notification is stored and running before the deletion asks whether the host is used. -/
theorem linked_of_upToDate_inUse : ∃ s : Service (Fin 4),
    (s.db.notifications.rows.any (·.status = .running) &&
      (match s.calls 3 with | .raised e => e.isA .hostInUse | _ => false)) = true ∧
      Linked s.db := by
  obtain ⟨s, hReach, hs⟩ := Trans.exists_reachableIf_of_runIf (T := service 180)
    (c := UpToDate) (s := reporting)
    [.call 0 ⟨"segment-n", 1⟩, .call 1 ⟨"", 2⟩, .call 1 ⟨"host-n", 2⟩, .call 2 ⟨"", 3⟩,
      .call 2 ⟨"", 3⟩, .call 3 ⟨"", 4⟩, .call 2 ⟨"note-n", 5⟩, .engine "note-n" .running,
      .call 3 ⟨"", 6⟩, .call 3 ⟨"", 6⟩]
    (fun s => s.db.notifications.rows.any (·.status = .running) &&
      (match s.calls 3 with | .raised e => e.isA .hostInUse | _ => false))
    ⟨rfl, received_deletedWhileReporting⟩ (by decide)
  exact ⟨s, hs, (linked_of_upToDate hReach).1⟩

/-- The links hold in every state. -/
def AlwaysLinked : Prop :=
  ∀ (K : Type) [DecidableEq K] (interval : Nat) (s : Service K),
    (service interval).Reachable s → Linked s.db

/-- The notification is inserted after its host is deleted, both calls having checked before. -/
theorem not_alwaysLinked : ¬ AlwaysLinked := by
  intro h
  obtain ⟨s, hReach, hs⟩ := Trans.exists_reachable_of_runIf (T := service 180) (s := reporting)
    [.call 0 ⟨"segment-n", 1⟩, .call 1 ⟨"", 2⟩, .call 1 ⟨"host-n", 2⟩, .call 2 ⟨"", 3⟩,
      .call 2 ⟨"", 3⟩, .call 3 ⟨"", 4⟩, .call 3 ⟨"", 4⟩, .call 3 ⟨"", 4⟩, .call 3 ⟨"", 4⟩,
      .call 2 ⟨"note-n", 5⟩]
    (fun s => s.db.notifications.rows.any fun n =>
      n.status ∈ recoveryStatuses && (s.db.liveHost n.sourceHostUuid).isNone)
    ⟨rfl, received_deletedWhileReporting⟩ (by decide)
  obtain ⟨n, hMem, hn⟩ := List.any_eq_true.mp hs
  rw [Bool.and_eq_true, decide_eq_true_eq] at hn
  have hSome := (h (Fin 4) 180 s hReach).notifications n hMem hn.1
  rw [Option.isNone_iff_eq_none.mp hn.2] at hSome
  cases hSome

end MasakariHA.Ha
