import MasakariHA.Engine.System

/-!
# One call of the periodic task

`_process_unfinished_notifications` alone, from its list to its end. An exception of
`_process_notification` is not caught in the loop: it ends the call, and what is behind on the
list waits for the next one.

* `treat`, `processUnfinishedNotifications`: the body of the loop, and the call;
* `treat_spec`: what treating one entry leaves;
* `treatsAll_iff`: when every entry is treated, whatever happens to the others.
-/

namespace MasakariHA.Engine

open Lib

/-! ## The call -/

/-- The database, and the notifications for which `_process_notification` was called. -/
structure Pass where
  db : Db
  ran : List String

/-- A program of the periodic task. -/
abbrev PassM := EStateM Exc Pass

def onDb {α : Type} (x : DbM α) : PassM α := fun s =>
  match x.run s.db with
  | .ok a db => .ok a { s with db }
  | .error e db => .error e { s with db }

/-- `timeutils.is_older_than` at a reading of the clock. -/
def isOlderThan (utcnow before seconds : Int) : Bool := seconds < utcnow - before

section Task

variable (flows : String → FlowOutcomes) (utcnow : String → Int)
  (retryNotificationNewStatusInterval : Int)

/-- The entry is processed; `utcnow` is what the clock shows when its turn comes. -/
def eligible (n : Notification) : Bool :=
  n.status = .error || n.status = .new &&
    isOlderThan (utcnow n.notificationUuid) n.generatedTime retryNotificationNewStatusInterval

/-- The row is read again; `error` becomes `failed`. -/
def giveUp (n : Notification) : DbM Unit := do
  let notificationDb ← transaction (notificationGetByUuid n.notificationUuid)
  if notificationDb.status = .error then
    let _ ← transaction (notificationUpdate notificationDb.notificationUuid .failed)

/-- The body of the loop. -/
def treat (n : Notification) : PassM Unit := do
  if eligible utcnow retryNotificationNewStatusInterval n then
    modify fun s => { s with ran := s.ran ++ [n.notificationUuid] }
    onDb (processNotification (flows n.notificationUuid) n)
  onDb (giveUp n)

def processUnfinishedNotifications : PassM Unit := do
  let s ← get
  (notificationsGetAllByFilters unfinished s.db).forM
    (treat flows utcnow retryNotificationNewStatusInterval)

/-- However the call ends, it has processed every entry of its list that is to be processed, and
none that was in `error` on the list is stored so. -/
def TreatsAll (db : Db) : Prop :=
  Ends (processUnfinishedNotifications flows utcnow retryNotificationNewStatusInterval) ⟨db, []⟩
    fun s =>
      (∀ n ∈ notificationsGetAllByFilters unfinished db,
        eligible utcnow retryNotificationNewStatusInterval n = true →
          n.notificationUuid ∈ s.ran) ∧
      ∀ n ∈ notificationsGetAllByFilters unfinished db, n.status = .error →
        ∀ r, s.db.liveNotification n.notificationUuid = some r → r.status ≠ .error

end Task

/-! ## One entry -/

section Entry

variable {flows : String → FlowOutcomes} {utcnow : String → Int}
  {retryNotificationNewStatusInterval : Int}

@[simp] theorem ensures_onDb {α : Type} {x : DbM α} {s : Pass} {Q : α → Pass → Prop}
    {E : Exc → Pass → Prop} :
    Ensures (onDb x) s Q E ↔
      Ensures x s.db (fun a db => Q a { s with db }) (fun e db => E e { s with db }) := by
  unfold Ensures onDb EStateM.run
  dsimp only
  cases x s.db <;> rfl

/-- What a processing of the notification leaves as it was. -/
structure LeavesOthers (uuid : String) (db db' : Db) : Prop where
  others : ∀ uuid', uuid' ≠ uuid → db'.liveNotification uuid' = db.liveNotification uuid'
  hosts : ∀ uuid', SourceHostLoads db' uuid' ↔ SourceHostLoads db uuid'

theorem sourceHostLoads_setHost (db : Db) (uuid : String) (v : HostValues) (uuid' : String) :
    SourceHostLoads (db.setHost uuid v) uuid' ↔ SourceHostLoads db uuid' := by
  have hSegments : (db.setHost uuid v).segments = db.segments := rfl
  unfold SourceHostLoads
  rw [liveHost_setHost, hSegments]
  by_cases hSame : uuid' = uuid
  · subst hSame
    rw [if_pos rfl]
    cases db.liveHost uuid' with
    | none => rfl
    | some h =>
      constructor
      · rintro ⟨_, ⟨⟩, hSome⟩
        exact ⟨h, rfl, hSome⟩
      · rintro ⟨_, ⟨⟩, hSome⟩
        exact ⟨v.apply h, rfl, hSome⟩
  · rw [if_neg hSame]

theorem leavesOthers_refl (uuid : String) (db : Db) : LeavesOthers uuid db db :=
  ⟨fun _ _ => rfl, fun _ => Iff.rfl⟩

theorem LeavesOthers.trans {uuid : String} {db db' db'' : Db} (h : LeavesOthers uuid db db')
    (h' : LeavesOthers uuid db' db'') : LeavesOthers uuid db db'' :=
  ⟨fun uuid' hNe => (h'.others uuid' hNe).trans (h.others uuid' hNe),
    fun uuid' => (h'.hosts uuid').trans (h.hosts uuid')⟩

theorem leavesOthers_setStatus (uuid : String) (db : Db) (status : NotificationStatus) :
    LeavesOthers uuid db (db.setStatus uuid status) :=
  ⟨fun _ hNe => liveNotification_setStatus_ne hNe, fun _ => Iff.rfl⟩

/-- `_process_notification` for the copy of a row that has not changed since: it returns, with
the row in a final status, exactly when the handler comes to a status. -/
theorem processNotification_spec {f : FlowOutcomes} {db : Db} {n : Notification}
    (hLive : db.liveNotification n.notificationUuid = some n) :
    Ensures (processNotification f n) db
      (fun _ db' => Settles f db n ∧ StoredSettled n.notificationUuid db' ∧
        LeavesOthers n.notificationUuid db db')
      (fun _ db' => ¬ Settles f db n ∧ StoredRunning n.notificationUuid db' ∧
        LeavesOthers n.notificationUuid db db') := by
  have hGuard : recoveringTwice n.status n.status = false := by
    unfold recoveringTwice
    cases n.status <;> rfl
  rw [ensures_processNotification_iff hLive hGuard]
  have hRunning : (db.setStatus n.notificationUuid .running).liveNotification n.notificationUuid =
      some { n with status := .running } := liveNotification_setStatus_self hLive
  let P : Db → Prop := fun db' => LeavesOthers n.notificationUuid db db' ∧
    db'.notifications = (db.setStatus n.notificationUuid .running).notifications
  have hKeeps : Ensures (handle f { n with status := .running })
      (db.setStatus n.notificationUuid .running) (fun s db' => Settled s ∧ P db')
      (fun _ => P) := by
    apply handle_keeps ⟨leavesOthers_setStatus n.notificationUuid db .running, rfl⟩
    intro uuid v
    exact ⟨(leavesOthers_setStatus n.notificationUuid db .running).trans
      ⟨fun _ _ => rfl, sourceHostLoads_setHost _ uuid v⟩, rfl⟩
  refine ensures_mono (ensures_and.mpr ⟨hKeeps, ensures_returns _ _⟩) ?_ ?_
  · rintro status db' ⟨⟨hSettled, hOthers, hRows⟩, hReturns⟩
    have hRow := liveNotification_congr hRows n.notificationUuid
    rw [hRunning] at hRow
    exact ⟨settles_congr.mp (handle_returns_iff.mp hReturns),
      ⟨_, liveNotification_setStatus_self hRow, hSettled⟩,
      hOthers.trans (leavesOthers_setStatus n.notificationUuid db' status)⟩
  · rintro e db' ⟨⟨hOthers, hRows⟩, hNot⟩
    have hRow := liveNotification_congr hRows n.notificationUuid
    rw [hRunning] at hRow
    refine ⟨fun hSettles => hNot ?_, ⟨_, hRow, rfl⟩, hOthers⟩
    exact handle_returns_iff.mpr (settles_congr.mpr hSettles)

/-- The row is live and not in `error`. -/
def NotInError (uuid : String) (db : Db) : Prop :=
  ∃ r, db.liveNotification uuid = some r ∧ r.status ≠ .error

theorem giveUp_spec {db : Db} {n r : Notification}
    (hLive : db.liveNotification n.notificationUuid = some r) :
    Ensures (giveUp n) db
      (fun _ db' => NotInError n.notificationUuid db' ∧ LeavesOthers n.notificationUuid db db')
      (fun _ _ => False) := by
  have hUuid : r.notificationUuid = n.notificationUuid := uuid_of_live hLive
  unfold giveUp
  rw [ensures_bind, ensures_transaction]
  simp only [notificationGetByUuid, hLive]
  by_cases hError : r.status = .error
  · rw [if_pos hError, ensures_bind, ensures_transaction, hUuid]
    simp only [notificationUpdate, hLive, ensures_pure]
    refine ⟨⟨_, liveNotification_setStatus_self hLive, ?_⟩,
      leavesOthers_setStatus n.notificationUuid db .failed⟩
    intro h
    cases h
  · rw [if_neg hError]
    exact ⟨⟨r, hLive, hError⟩, leavesOthers_refl _ _⟩

/-- An entry is passed with its row out of `error`; only an entry that is to be processed and
whose handler comes to no status ends the loop. -/
theorem treat_spec {s : Pass} {n : Notification}
    (hLive : s.db.liveNotification n.notificationUuid = some n) :
    Ensures (treat flows utcnow retryNotificationNewStatusInterval n) s
      (fun _ s' =>
        (eligible utcnow retryNotificationNewStatusInterval n = true →
          Settles (flows n.notificationUuid) s.db n ∧ n.notificationUuid ∈ s'.ran) ∧
        (∀ uuid ∈ s'.ran, uuid ∈ s.ran ∨ uuid = n.notificationUuid) ∧
        (∀ uuid ∈ s.ran, uuid ∈ s'.ran) ∧
        NotInError n.notificationUuid s'.db ∧ LeavesOthers n.notificationUuid s.db s'.db)
      (fun _ s' => eligible utcnow retryNotificationNewStatusInterval n = true ∧
        ¬ Settles (flows n.notificationUuid) s.db n ∧
        s'.ran = s.ran ++ [n.notificationUuid] ∧
        NotInError n.notificationUuid s'.db ∧ LeavesOthers n.notificationUuid s.db s'.db) := by
  unfold treat
  by_cases hEligible : eligible utcnow retryNotificationNewStatusInterval n = true
  · rw [if_pos hEligible]
    simp only [ensures_bind, ensures_modify, ensures_onDb]
    refine ensures_mono (processNotification_spec hLive) ?_ ?_
    · rintro _ db' ⟨hSettles, ⟨r, hRow, -⟩, hOthers⟩
      refine ensures_mono (giveUp_spec hRow) ?_ (fun _ _ h => h.elim)
      rintro _ db'' ⟨hNot, hOthers'⟩
      refine ⟨fun _ => ⟨hSettles, ?_⟩, fun uuid hMem => ?_, fun uuid hMem => ?_, hNot,
        hOthers.trans hOthers'⟩
      · exact List.mem_append_right _ (List.mem_singleton.mpr rfl)
      · rcases List.mem_append.mp hMem with hOld | hNew
        · exact Or.inl hOld
        · exact Or.inr (List.mem_singleton.mp hNew)
      · exact List.mem_append_left _ hMem
    · rintro _ db' ⟨hNot, ⟨r, hRow, hRunning⟩, hOthers⟩
      refine ⟨hEligible, hNot, trivial, ⟨r, hRow, ?_⟩, hOthers⟩
      rw [hRunning]
      intro h
      cases h
  · rw [if_neg hEligible]
    simp only [ensures_onDb]
    refine ensures_mono (giveUp_spec hLive) ?_ (fun _ _ h => h.elim)
    rintro _ db' ⟨hNot, hOthers⟩
    exact ⟨fun h => absurd h hEligible, fun _ hMem => Or.inl hMem, fun _ hMem => hMem, hNot,
      hOthers⟩

end Entry

/-! ## The whole list -/

section Run

variable {flows : String → FlowOutcomes} {utcnow : String → Int}
  {retryNotificationNewStatusInterval : Int}

theorem settles_of_hosts {f : FlowOutcomes} {db db' : Db} {n : Notification}
    (h : ∀ uuid, SourceHostLoads db' uuid ↔ SourceHostLoads db uuid) :
    Settles f db' n ↔ Settles f db n := by
  unfold Settles
  rw [h]

/-- The entries passed so far: each came to its status, has been processed if it was to be, and is
out of `error`; the other entries are stored as listed. -/
structure Passed (flows : String → FlowOutcomes) (utcnow : String → Int) (interval : Int) (db : Db)
    (passed : List Notification) (s : Pass) : Prop where
  settles : ∀ n ∈ passed, eligible utcnow interval n = true →
    Settles (flows n.notificationUuid) db n ∧ n.notificationUuid ∈ s.ran
  ran : ∀ uuid ∈ s.ran, uuid ∈ passed.map (·.notificationUuid)
  rows : ∀ n ∈ passed, NotInError n.notificationUuid s.db
  others : ∀ uuid, uuid ∉ passed.map (·.notificationUuid) →
    s.db.liveNotification uuid = db.liveNotification uuid
  hosts : ∀ uuid, SourceHostLoads s.db uuid ↔ SourceHostLoads db uuid

/-- The call ended at `n`, which was to be processed and came to no status. -/
structure EndedAt (flows : String → FlowOutcomes) (utcnow : String → Int) (interval : Int) (db : Db)
    (passed : List Notification) (n : Notification) (s : Pass) : Prop where
  settles : ∀ m ∈ passed, eligible utcnow interval m = true →
    Settles (flows m.notificationUuid) db m ∧ m.notificationUuid ∈ s.ran
  eligible : eligible utcnow interval n = true
  unsettled : ¬ Settles (flows n.notificationUuid) db n
  processed : n.notificationUuid ∈ s.ran
  ran : ∀ uuid ∈ s.ran, uuid ∈ (passed ++ [n]).map (·.notificationUuid)
  rows : ∀ m ∈ passed ++ [n], NotInError m.notificationUuid s.db

theorem notInError_of_others {uuid uuid' : String} {db db' : Db} (h : LeavesOthers uuid db db')
    (hNe : uuid' ≠ uuid) (hRow : NotInError uuid' db) : NotInError uuid' db' := by
  obtain ⟨r, hLive, hStatus⟩ := hRow
  exact ⟨r, (h.others uuid' hNe).trans hLive, hStatus⟩

/-- The rows of the entries before stay as they are while one more is treated. -/
theorem rows_append {passed : List Notification} {n : Notification} {db db' : Db}
    (h : ∀ m ∈ passed, NotInError m.notificationUuid db)
    (hNew : n.notificationUuid ∉ passed.map (·.notificationUuid))
    (hOthers : LeavesOthers n.notificationUuid db db') (hOut : NotInError n.notificationUuid db') :
    ∀ m ∈ passed ++ [n], NotInError m.notificationUuid db' := by
  intro m hMem
  rcases List.mem_append.mp hMem with hPassed | hLast
  · refine notInError_of_others hOthers (fun hSame => ?_) (h m hPassed)
    exact hNew (List.mem_map.mpr ⟨m, hPassed, hSame⟩)
  · cases List.mem_singleton.mp hLast
    exact hOut

/-- One more entry. -/
theorem passed_treat {db : Db} {passed : List Notification} {n : Notification} {s : Pass}
    (h : Passed flows utcnow retryNotificationNewStatusInterval db passed s)
    (hLive : db.liveNotification n.notificationUuid = some n)
    (hNew : n.notificationUuid ∉ passed.map (·.notificationUuid)) :
    Ensures (treat flows utcnow retryNotificationNewStatusInterval n) s
      (fun _ => Passed flows utcnow retryNotificationNewStatusInterval db (passed ++ [n]))
      (fun _ => EndedAt flows utcnow retryNotificationNewStatusInterval db passed n) := by
  have hRow : s.db.liveNotification n.notificationUuid = some n := (h.others _ hNew).trans hLive
  refine ensures_mono (treat_spec hRow) ?_ ?_
  · rintro _ s' ⟨hSettles, hRan, hKeep, hOut, hOthers⟩
    refine ⟨fun m hMem hEligible => ?_, fun uuid hMem => ?_, rows_append h.rows hNew hOthers hOut,
      fun uuid hOld => ?_, fun uuid => (hOthers.hosts uuid).trans (h.hosts uuid)⟩
    · rcases List.mem_append.mp hMem with hPassed | hLast
      · obtain ⟨hSettled, hIn⟩ := h.settles m hPassed hEligible
        exact ⟨hSettled, hKeep _ hIn⟩
      · cases List.mem_singleton.mp hLast
        obtain ⟨hSettled, hIn⟩ := hSettles hEligible
        exact ⟨(settles_of_hosts h.hosts).mp hSettled, hIn⟩
    · rw [List.map_append, List.mem_append, List.map_singleton, List.mem_singleton]
      exact (hRan uuid hMem).imp_left (h.ran uuid)
    · rw [List.map_append, List.mem_append, List.map_singleton, List.mem_singleton,
        not_or] at hOld
      exact (hOthers.others uuid hOld.2).trans (h.others uuid hOld.1)
  · rintro _ s' ⟨hEligible, hNot, hRan, hOut, hOthers⟩
    refine ⟨fun m hMem hE => ?_, hEligible, fun hSettles => ?_, ?_, fun uuid hMem => ?_,
      rows_append h.rows hNew hOthers hOut⟩
    · obtain ⟨hSettled, hIn⟩ := h.settles m hMem hE
      rw [hRan]
      exact ⟨hSettled, List.mem_append_left _ hIn⟩
    · exact hNot ((settles_of_hosts h.hosts).mpr hSettles)
    · rw [hRan]
      exact List.mem_append_right _ (List.mem_singleton.mpr rfl)
    · rw [hRan, List.mem_append] at hMem
      rw [List.map_append, List.mem_append, List.map_singleton]
      exact hMem.imp_left (h.ran uuid)

/-- The call passes its whole list, or ends at an entry. -/
theorem processUnfinishedNotifications_spec (flows : String → FlowOutcomes)
    (utcnow : String → Int) (retryNotificationNewStatusInterval : Int) (db : Db) :
    Ensures (processUnfinishedNotifications flows utcnow retryNotificationNewStatusInterval)
      ⟨db, []⟩
      (fun _ => Passed flows utcnow retryNotificationNewStatusInterval db
        (notificationsGetAllByFilters unfinished db))
      (fun _ s => ∃ passed n rest,
        notificationsGetAllByFilters unfinished db = passed ++ n :: rest ∧
        EndedAt flows utcnow retryNotificationNewStatusInterval db passed n s) := by
  unfold processUnfinishedNotifications
  rw [ensures_bind, ensures_get]
  refine ensures_forM_split (Passed flows utcnow retryNotificationNewStatusInterval db) ?_ ?_
  · exact ⟨fun _ hMem => (by cases hMem), fun _ hMem => (by cases hMem),
      fun _ hMem => (by cases hMem), fun _ _ => rfl, fun _ => Iff.rfl⟩
  · intro passed n rest hSplit s hPassed
    have hMem : n ∈ notificationsGetAllByFilters unfinished db := by
      rw [hSplit]
      exact List.mem_append_right passed List.mem_cons_self
    have hNodup := nodup_notificationsGetAllByFilters unfinished db
    rw [hSplit, List.map_append, List.map_cons] at hNodup
    have hNew : n.notificationUuid ∉ passed.map (·.notificationUuid) := fun hOld =>
      (List.nodup_append.mp hNodup).2.2 _ hOld _ List.mem_cons_self rfl
    refine ensures_mono (passed_treat hPassed (liveNotification_of_mem hMem) hNew)
      (fun _ _ h => h) fun _ _ h => ?_
    exact ⟨passed, n, rest, hSplit, h⟩

section Ended

variable {db : Db} {passed rest : List Notification} {n : Notification} {s : Pass}

/-- The entry at which the call ended is the only one that was to be processed and came to no
status. -/
theorem pairwise_of_endedAt
    (h : EndedAt flows utcnow retryNotificationNewStatusInterval db passed n s) :
    ((passed ++ n :: rest).Pairwise fun n m =>
      eligible utcnow retryNotificationNewStatusInterval n = true →
      eligible utcnow retryNotificationNewStatusInterval m = true →
        Settles (flows n.notificationUuid) db n) ↔
      ∀ m ∈ rest, eligible utcnow retryNotificationNewStatusInterval m = false := by
  constructor
  · intro hPairwise m hMem
    by_contra hEligible
    rw [Bool.not_eq_false] at hEligible
    have hBehind := (List.pairwise_cons.mp (List.pairwise_append.mp hPairwise).2.1).1 m hMem
    exact h.unsettled (hBehind h.eligible hEligible)
  · intro hRest
    refine List.pairwise_append.mpr ⟨?_, List.pairwise_cons.mpr ⟨?_, ?_⟩, ?_⟩
    · apply List.pairwise_of_forall_mem_list
      intro m hMem _ _ hEligible _
      exact (h.settles m hMem hEligible).1
    · intro m hMem _ hEligible
      rw [hRest m hMem] at hEligible
      cases hEligible
    · apply List.pairwise_of_forall_mem_list
      intro m hMem _ _ hEligible _
      rw [hRest m hMem] at hEligible
      cases hEligible
    · intro m hMem _ _ hEligible _
      exact (h.settles m hMem hEligible).1

/-- Behind the entry nothing has been processed. -/
theorem notMem_ran_of_endedAt
    (h : EndedAt flows utcnow retryNotificationNewStatusInterval db passed n s)
    (hNodup : ((passed ++ n :: rest).map (·.notificationUuid)).Nodup) {m : Notification}
    (hMem : m ∈ rest) : m.notificationUuid ∉ s.ran := by
  intro hRan
  have hIn := h.ran _ hRan
  rw [← List.singleton_append, ← List.append_assoc, List.map_append] at hNodup
  exact (List.nodup_append.mp hNodup).2.2 _ hIn _ (List.mem_map_of_mem hMem) rfl

theorem treats_of_endedAt
    (h : EndedAt flows utcnow retryNotificationNewStatusInterval db passed n s)
    (hRest : ∀ m ∈ rest, eligible utcnow retryNotificationNewStatusInterval m = false)
    {m : Notification} (hMem : m ∈ passed ++ n :: rest)
    (hEligible : eligible utcnow retryNotificationNewStatusInterval m = true) :
    m.notificationUuid ∈ s.ran ∧ NotInError m.notificationUuid s.db := by
  have hPlace : m ∈ passed ++ [n] := by
    rw [← List.singleton_append, ← List.append_assoc] at hMem
    rcases List.mem_append.mp hMem with hIn | hBehind
    · exact hIn
    · rw [hRest m hBehind] at hEligible
      cases hEligible
  refine ⟨?_, h.rows m hPlace⟩
  rcases List.mem_append.mp hPlace with hPassed | hLast
  · exact (h.settles m hPassed hEligible).2
  · cases List.mem_singleton.mp hLast
    exact h.processed

end Ended

theorem ne_error_of_notInError {uuid : String} {db : Db} {r : Notification}
    (h : NotInError uuid db) (hLive : db.liveNotification uuid = some r) : r.status ≠ .error := by
  obtain ⟨r', hLive', hStatus⟩ := h
  rw [hLive] at hLive'
  cases hLive'
  exact hStatus

/-- Every entry is treated exactly when no entry that is to be processed, and has another such
entry behind it, comes to no status. -/
theorem treatsAll_iff (flows : String → FlowOutcomes) (utcnow : String → Int)
    (retryNotificationNewStatusInterval : Int) (db : Db) :
    TreatsAll flows utcnow retryNotificationNewStatusInterval db ↔
      (notificationsGetAllByFilters unfinished db).Pairwise fun n m =>
        eligible utcnow retryNotificationNewStatusInterval n = true →
        eligible utcnow retryNotificationNewStatusInterval m = true →
          Settles (flows n.notificationUuid) db n := by
  refine Iff.trans (ensures_congr (processUnfinishedNotifications_spec flows utcnow
    retryNotificationNewStatusInterval db) (fun _ s hPassed => ?_) (fun _ s hEnded => ?_))
    (ensures_const _ _ _)
  · refine iff_of_true ⟨fun n hMem hEligible => (hPassed.settles n hMem hEligible).2,
      fun n hMem _ r hLive => ne_error_of_notInError (hPassed.rows n hMem) hLive⟩ ?_
    apply List.pairwise_of_forall_mem_list
    intro n hMem _ _ hEligible _
    exact (hPassed.settles n hMem hEligible).1
  · obtain ⟨passed, n, rest, hSplit, hEnded⟩ := hEnded
    have hNodup := nodup_notificationsGetAllByFilters unfinished db
    rw [hSplit] at hNodup ⊢
    rw [pairwise_of_endedAt hEnded]
    constructor
    · rintro ⟨hRan, -⟩ m hMem
      by_contra hEligible
      rw [Bool.not_eq_false] at hEligible
      exact notMem_ran_of_endedAt hEnded hNodup hMem
        (hRan m (List.mem_append_right passed (List.mem_cons_of_mem n hMem)) hEligible)
    · intro hRest
      refine ⟨fun m hMem hEligible => (treats_of_endedAt hEnded hRest hMem hEligible).1,
        fun m hMem hError r hLive => ?_⟩
      have hEligible : eligible utcnow retryNotificationNewStatusInterval m = true := by
        simp [eligible, hError]
      exact ne_error_of_notInError (treats_of_endedAt hEnded hRest hMem hEligible).2 hLive

end Run

/-! ## A host that was removed -/

/-- Two host failures to retry; the host of the first one is gone. -/
def removedHost : Db where
  segments := ⟨[⟨"segment-u", "cell3", .auto, 0⟩], by decide⟩
  hosts := ⟨[⟨1, 0, "host-u", "compute12", false, true, "segment-u", 0⟩], by decide⟩
  notifications :=
    ⟨[⟨1, 10, "waiting", 10, "host-u", .computeHost, [⟨"event", "STOPPED"⟩].toFinmap, .error, 0⟩,
      ⟨2, 20, "poisoned", 20, "host-v", .computeHost, [⟨"event", "STOPPED"⟩].toFinmap, .error, 0⟩],
      by decide⟩

/-- Every call treats every entry of its list. -/
def AlwaysTreatsAll : Prop :=
  ∀ (flows : String → FlowOutcomes) (utcnow : String → Int)
    (retryNotificationNewStatusInterval : Int) (db : Db),
    TreatsAll flows utcnow retryNotificationNewStatusInterval db

/-- The call ends with the host that is not found; the other failure is not retried. -/
theorem not_alwaysTreatsAll : ¬ AlwaysTreatsAll := by
  intro h
  have hTreats := h (fun _ => flowsReturn) (fun _ => 100) 60 removedHost
  have hRan : Ends (processUnfinishedNotifications (fun _ => flowsReturn) (fun _ => 100) 60)
      ⟨removedHost, []⟩ (fun s => s.ran = ["poisoned"]) := rfl
  have hListed : ∃ n ∈ notificationsGetAllByFilters unfinished removedHost,
      eligible (fun _ => 100) 60 n = true ∧ n.notificationUuid = "waiting" := by decide
  obtain ⟨n, hMem, hEligible, hUuid⟩ := hListed
  unfold TreatsAll Ends at hTreats
  unfold Ends at hRan
  refine not_ensures_false _ _ (ensures_mono (ensures_and.mpr ⟨hTreats, hRan⟩) ?_ ?_)
  · rintro _ s ⟨⟨hAll, -⟩, hOne⟩
    have hIn := hAll n hMem hEligible
    rw [hUuid, hOne] at hIn
    simp at hIn
  · rintro _ s ⟨⟨hAll, -⟩, hOne⟩
    have hIn := hAll n hMem hEligible
    rw [hUuid, hOne] at hIn
    simp at hIn

end MasakariHA.Engine
