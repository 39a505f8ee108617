import MasakariHA.Engine.Manager
import MasakariHA.Lib.Trans
import Mathlib.Data.List.Chain

/-!
# Engine processes on one database

Any number of engine processes that share the database and the RPC topic. Each has its
own table of locks, a greenthread for each delivery, and one greenthread for its periodic
tasks. A step is one read or one save of the database, one operation on a lock, or the end
of a handler, whose outcome the label chooses; between two steps of one greenthread any
other may step.

* `Call`: where a call of `_process_notification` stands;
* `Sweep`: where `_process_unfinished_notifications` stands;
* `System.step`: the steps, each written after the line of the source it takes;
* `system`: the transition system, from any content of the database;
* `run_processNotification`: a call that runs without interruption does to the
  notifications what `processNotification` does.
-/

namespace MasakariHA

/-- The stored status of a notification. -/
def Db.status (db : Db) (uuid : String) : Option NotificationStatus :=
  (db.liveNotification uuid).map (·.status)

theorem Db.status_eq_some {db : Db} {uuid : String} {st : NotificationStatus} :
    db.status uuid = some st ↔ ∃ r, db.liveNotification uuid = some r ∧ r.status = st := by
  simp [Db.status]

theorem Db.status_setStatus (db : Db) (uuid uuid' : String) (st : NotificationStatus) :
    (db.setStatus uuid st).status uuid' =
      if uuid' = uuid then (db.status uuid).map fun _ => st else db.status uuid' := by
  unfold Db.status
  rw [liveNotification_setStatus]
  by_cases h : uuid' = uuid
  · rw [if_pos h, if_pos h, Option.map_map, Option.map_map]
    rfl
  · rw [if_neg h, if_neg h]

namespace Engine

open Lib

/-! ## Greenthreads -/

/-- The greenthreads of a process that call `_process_notification`. -/
inductive Agent where
  | rpc (delivery : Nat)
  | sweep
deriving DecidableEq

/-- A call of `_process_notification` with the object it was given. -/
inductive Call where
  | idle
  /-- Waits for the lock of the source host. -/
  | waiting (n : Notification)
  /-- Has the lock; the row is to be read. -/
  | locked (n : Notification)
  /-- Got past the guard; `running` is to be saved. -/
  | checked (n : Notification)
  /-- The handler runs the recovery workflow. -/
  | executing (n : Notification)
  /-- The handler gave a status, which is to be saved. -/
  | settled (n : Notification) (st : NotificationStatus)
  /-- Returns, or raises, once the lock is released. -/
  | releasing (n : Notification) (raises : Bool)

/-- The object of a call. -/
def Call.object : Call → Option Notification
  | .idle => none
  | .waiting n | .locked n | .checked n | .executing n | .settled n _ | .releasing n _ => some n

/-- The object of a call that has yet to save `running`. -/
def Call.pending : Call → Option Notification
  | .waiting n | .locked n | .checked n => some n
  | _ => none

/-- The object of a call between its two saves. -/
def Call.active : Call → Option Notification
  | .executing n | .settled n _ => some n
  | _ => none

/-- The object of a call that holds the lock. -/
def Call.holding : Call → Option Notification
  | .locked n | .checked n | .executing n | .settled n _ | .releasing n _ => some n
  | _ => none

/-- The loop of `_process_unfinished_notifications`. -/
inductive Phase where
  | idle
  /-- The next entry of the list is to be treated. -/
  | next
  | processing (n : Notification)
  /-- `_process_notification` returned or was skipped; the row is to be read. -/
  | rereading (n : Notification)
  /-- The row was read as `error`; `failed` is to be saved. -/
  | failing (n : Notification)

/-- A run of the periodic task: the entries of its list still to be treated, and (for the
statements only) the notifications for which it stored `error` itself. -/
structure Sweep where
  phase : Phase
  rest : List Notification
  ran : List String

/-- No run is under way. -/
def Sweep.none : Sweep := ⟨.idle, [], []⟩

/-! ## The state -/

/-- A start of a recovery workflow: the status that the object carried, by whom, and what
had been stored for the notification before. -/
structure Start where
  uuid : String
  carried : NotificationStatus
  agent : Agent
  before : List NotificationStatus

/-- A notification moved to `failed`: whether the same run of the task had stored its
`error`, and the starts of its workflow before. -/
structure Failure where
  uuid : String
  own : Bool
  starts : List Start

/-- The processes `E` with their locks, calls and sweeps, and the database. What was stored
for each notification, newest first, the starts and the failures are a record for the
statements; no step reads it. -/
structure System (E : Type) where
  db : Db
  locks : E × String → Option Agent
  calls : E × Agent → Call
  sweeps : E → Sweep
  stored : String → List NotificationStatus
  starts : List Start
  failures : List Failure

/-- Nothing has happened on the database yet. -/
def System.initial {E : Type} (db : Db) : System E where
  db
  locks _ := none
  calls _ := .idle
  sweeps _ := .none
  stored uuid := (db.status uuid).toList
  starts := []
  failures := []

/-! ## Steps -/

section Steps

variable {E : Type} [DecidableEq E] (s : System E)

def System.setCall (w : E × Agent) (c : Call) : System E :=
  { s with calls := Function.update s.calls w c }

def System.setLock (l : E × String) (holder : Option Agent) : System E :=
  { s with locks := Function.update s.locks l holder }

def System.setSweep (e : E) (sw : Sweep) : System E :=
  { s with sweeps := Function.update s.sweeps e sw }

/-- A status is saved. -/
def System.store (uuid : String) (st : NotificationStatus) : System E :=
  { s with
    db := s.db.setStatus uuid st
    stored := Function.update s.stored uuid (st :: s.stored uuid) }

/-- The API inserts a notification in status `new`. -/
def System.create (r : Notification) : Option (System E) :=
  if r.status = .new ∧ r.deleted = 0 then
    match s.db.notifications.insert r with
    | none => none
    | some notifications => some { s with
        db := { s.db with notifications }
        stored := Function.update s.stored r.notificationUuid
          (.new :: s.stored r.notificationUuid) }
  else none

/-- `process_notification` is delivered, with a copy of the notification as it was created. -/
def System.deliver (e : E) (k : Nat) (uuid : String) : Option (System E) :=
  match s.calls (e, .rpc k), s.db.liveNotification uuid with
  | .idle, some r => some (s.setCall (e, .rpc k) (.waiting { r with status := .new }))
  | _, _ => none

/-- `int_lock.acquire(blocking=True)`. -/
def System.acquire (w : E × Agent) : Option (System E) :=
  match s.calls w with
  | .waiting n =>
    if s.locks (w.1, n.sourceHostUuid) = none then
      some ((s.setCall w (.locked n)).setLock (w.1, n.sourceHostUuid) (some w.2))
    else none
  | _ => none

/-- `Notification.get_by_uuid` and the guard. -/
def System.guardRead (w : E × Agent) : Option (System E) :=
  match s.calls w with
  | .locked n =>
    match notificationGetByUuid n.notificationUuid s.db with
    | .error _ => some (s.setCall w (.releasing n true))
    | .ok (r, _) =>
      if recoveringTwice n.status r.status then some (s.setCall w (.releasing n false))
      else some (s.setCall w (.checked n))
  | _ => none

/-- `running` is saved and the handler starts. -/
def System.begin (w : E × Agent) (n : Notification) : System E :=
  { (s.setCall w (.executing n)).store n.notificationUuid .running with
    starts := ⟨n.notificationUuid, n.status, w.2, s.stored n.notificationUuid⟩ :: s.starts }

/-- The save of `running`. -/
def System.saveRunning (w : E × Agent) : Option (System E) :=
  match s.calls w with
  | .checked n =>
    match notificationUpdate n.notificationUuid .running s.db with
    | .error _ => some (s.setCall w (.releasing n true))
    | .ok _ => some (s.begin w n)
  | _ => none

/-- The handler raises, or gives a status. -/
def System.finish (w : E × Agent) (outcome : Option NotificationStatus) : Option (System E) :=
  match s.calls w, outcome with
  | .executing n, none => some (s.setCall w (.releasing n true))
  | .executing n, some st =>
    if Settled st then some (s.setCall w (.settled n st)) else none
  | _, _ => none

/-- The status of the handler is saved. -/
def System.conclude (w : E × Agent) (n : Notification) (st : NotificationStatus) : System E :=
  let s' := (s.setCall w (.releasing n false)).store n.notificationUuid st
  if w.2 = .sweep ∧ st = .error then
    s'.setSweep w.1 { s.sweeps w.1 with ran := n.notificationUuid :: (s.sweeps w.1).ran }
  else s'

/-- The save of the status that the handler gave. -/
def System.saveFinal (w : E × Agent) : Option (System E) :=
  match s.calls w with
  | .settled n st =>
    match notificationUpdate n.notificationUuid st s.db with
    | .error _ => some (s.setCall w (.releasing n true))
    | .ok _ => some (s.conclude w n st)
  | _ => none

/-- The lock is released and the call ends; an exception ends the run of the task too. -/
def System.release (w : E × Agent) : Option (System E) :=
  match s.calls w with
  | .releasing n raises =>
    let s' := (s.setCall w .idle).setLock (w.1, n.sourceHostUuid) none
    match w.2 with
    | .rpc _ => some s'
    | .sweep =>
      some (s'.setSweep w.1
        (if raises then .none else { s.sweeps w.1 with phase := .rereading n }))
  | _ => none

/-- The filters of the periodic task. -/
def unfinished : NotificationFilters :=
  { sourceHostUuid := none, type := none, status := some [.error, .new], generatedSince := none }

/-- The periodic task starts with its list. -/
def System.snapshot (e : E) : Option (System E) :=
  match (s.sweeps e).phase with
  | .idle => some (s.setSweep e ⟨.next, notificationsGetAllByFilters unfinished s.db, []⟩)
  | _ => none

/-- The next entry: it is processed when its copy is in `error`, or in `new` and old enough. -/
def System.pick (e : E) (isOlderThan : Bool) : Option (System E) :=
  match (s.sweeps e).phase, (s.sweeps e).rest with
  | .next, [] => some (s.setSweep e .none)
  | .next, n :: rest =>
    if n.status = .error ∨ n.status = .new ∧ isOlderThan = true then
      some ((s.setCall (e, .sweep) (.waiting n)).setSweep e
        ⟨.processing n, rest, (s.sweeps e).ran⟩)
    else some (s.setSweep e ⟨.rereading n, rest, (s.sweeps e).ran⟩)
  | _, _ => none

/-- `Notification.get_by_uuid` after the execution. -/
def System.reread (e : E) : Option (System E) :=
  match (s.sweeps e).phase with
  | .rereading n =>
    match notificationGetByUuid n.notificationUuid s.db with
    | .error _ => some (s.setSweep e .none)
    | .ok (r, _) =>
      if r.status = .error then some (s.setSweep e { s.sweeps e with phase := .failing n })
      else some (s.setSweep e { s.sweeps e with phase := .next })
  | _ => none

/-- `failed` is saved. -/
def System.giveUp (e : E) (n : Notification) : System E :=
  { (s.setSweep e { s.sweeps e with phase := .next }).store n.notificationUuid .failed with
    failures := ⟨n.notificationUuid, n.notificationUuid ∈ (s.sweeps e).ran,
      s.starts.filter (·.uuid = n.notificationUuid)⟩ :: s.failures }

/-- The save of `failed`, without the lock. -/
def System.saveFailed (e : E) : Option (System E) :=
  match (s.sweeps e).phase with
  | .failing n =>
    match notificationUpdate n.notificationUuid .failed s.db with
    | .error _ => some (s.setSweep e .none)
    | .ok _ => some (s.giveUp e n)
  | _ => none

end Steps

/-- Who steps, and what the state leaves open. -/
inductive Label (E : Type) where
  | create (r : Notification)
  | deliver (e : E) (k : Nat) (uuid : String)
  | acquire (w : E × Agent)
  | guardRead (w : E × Agent)
  | saveRunning (w : E × Agent)
  | finish (w : E × Agent) (outcome : Option NotificationStatus)
  | saveFinal (w : E × Agent)
  | release (w : E × Agent)
  | snapshot (e : E)
  | pick (e : E) (isOlderThan : Bool)
  | reread (e : E)
  | saveFailed (e : E)

section Transitions

variable {E : Type} [DecidableEq E]

def System.step (s : System E) : Label E → Option (System E)
  | .create r => s.create r
  | .deliver e k uuid => s.deliver e k uuid
  | .acquire w => s.acquire w
  | .guardRead w => s.guardRead w
  | .saveRunning w => s.saveRunning w
  | .finish w outcome => s.finish w outcome
  | .saveFinal w => s.saveFinal w
  | .release w => s.release w
  | .snapshot e => s.snapshot e
  | .pick e isOlderThan => s.pick e isOlderThan
  | .reread e => s.reread e
  | .saveFailed e => s.saveFailed e

/-- The engine processes `E`, from any content of the database. -/
def system (E : Type) [DecidableEq E] : Trans (System E) (Label E) where
  init s := ∃ db, s = .initial db
  step := System.step

end Transitions

/-! ## What a step does -/

section Cases

variable {E : Type} [DecidableEq E] {s s' : System E} {w : E × Agent} {e : E}

theorem notificationGetByUuid_cases (uuid : String) (db : Db) :
    (∃ r, db.liveNotification uuid = some r ∧ notificationGetByUuid uuid db = .ok (r, db)) ∨
      (db.liveNotification uuid = none ∧ ∃ e, notificationGetByUuid uuid db = .error e) := by
  unfold notificationGetByUuid
  cases db.liveNotification uuid with
  | none => exact Or.inr ⟨rfl, _, rfl⟩
  | some r => exact Or.inl ⟨r, rfl, rfl⟩

theorem notificationUpdate_cases (uuid : String) (st : NotificationStatus) (db : Db) :
    (∃ r, db.liveNotification uuid = some r ∧
        notificationUpdate uuid st db = .ok ({ r with status := st }, db.setStatus uuid st)) ∨
      (db.liveNotification uuid = none ∧ ∃ e, notificationUpdate uuid st db = .error e) := by
  unfold notificationUpdate
  cases db.liveNotification uuid with
  | none => exact Or.inr ⟨rfl, _, rfl⟩
  | some r => exact Or.inl ⟨r, rfl, rfl⟩

omit [DecidableEq E] in
theorem create_cases {r : Notification} (h : s.create r = some s') :
    r.status = .new ∧ r.deleted = 0 ∧ ∃ notifications,
      s.db.notifications.insert r = some notifications ∧
      s' = { s with
        db := { s.db with notifications }
        stored := Function.update s.stored r.notificationUuid
          (.new :: s.stored r.notificationUuid) } := by
  unfold System.create at h
  split at h
  · rename_i hNew
    cases hInsert : s.db.notifications.insert r with
    | none => rw [hInsert] at h; cases h
    | some t => rw [hInsert] at h; cases h; exact ⟨hNew.1, hNew.2, t, rfl, rfl⟩
  · cases h

theorem deliver_cases {k : Nat} {uuid : String} (h : s.deliver e k uuid = some s') :
    s.calls (e, .rpc k) = .idle ∧ ∃ r, s.db.liveNotification uuid = some r ∧
      s' = s.setCall (e, .rpc k) (.waiting { r with status := .new }) := by
  unfold System.deliver at h
  split at h
  · rename_i r hIdle hLive
    cases h
    exact ⟨hIdle, r, hLive, rfl⟩
  · cases h

theorem acquire_cases (h : s.acquire w = some s') :
    ∃ n, s.calls w = .waiting n ∧ s.locks (w.1, n.sourceHostUuid) = none ∧
      s' = (s.setCall w (.locked n)).setLock (w.1, n.sourceHostUuid) (some w.2) := by
  unfold System.acquire at h
  split at h
  · rename_i n hCall
    split at h
    · rename_i hFree
      cases h
      exact ⟨n, hCall, hFree, rfl⟩
    · cases h
  · cases h

theorem guardRead_cases (h : s.guardRead w = some s') :
    ∃ n, s.calls w = .locked n ∧
      ((s.db.liveNotification n.notificationUuid = none ∧ s' = s.setCall w (.releasing n true)) ∨
        ∃ r, s.db.liveNotification n.notificationUuid = some r ∧
          ((recoveringTwice n.status r.status = true ∧ s' = s.setCall w (.releasing n false)) ∨
            (recoveringTwice n.status r.status = false ∧ s' = s.setCall w (.checked n)))) := by
  unfold System.guardRead at h
  split at h
  · rename_i n hCall
    refine ⟨n, hCall, ?_⟩
    rcases notificationGetByUuid_cases n.notificationUuid s.db with
      ⟨r, hLive, hGet⟩ | ⟨hLive, x, hGet⟩
    · rw [hGet] at h
      dsimp only at h
      split at h
      · rename_i hTwice
        cases h
        exact Or.inr ⟨r, hLive, Or.inl ⟨hTwice, rfl⟩⟩
      · rename_i hTwice
        cases h
        exact Or.inr ⟨r, hLive, Or.inr ⟨by simpa using hTwice, rfl⟩⟩
    · rw [hGet] at h
      cases h
      exact Or.inl ⟨hLive, rfl⟩
  · cases h

theorem saveRunning_cases (h : s.saveRunning w = some s') :
    ∃ n, s.calls w = .checked n ∧
      ((s.db.liveNotification n.notificationUuid = none ∧ s' = s.setCall w (.releasing n true)) ∨
        ∃ r, s.db.liveNotification n.notificationUuid = some r ∧ s' = s.begin w n) := by
  unfold System.saveRunning at h
  split at h
  · rename_i n hCall
    refine ⟨n, hCall, ?_⟩
    rcases notificationUpdate_cases n.notificationUuid .running s.db with
      ⟨r, hLive, hUpdate⟩ | ⟨hLive, x, hUpdate⟩
    · rw [hUpdate] at h
      cases h
      exact Or.inr ⟨r, hLive, rfl⟩
    · rw [hUpdate] at h
      cases h
      exact Or.inl ⟨hLive, rfl⟩
  · cases h

theorem finish_cases {outcome : Option NotificationStatus} (h : s.finish w outcome = some s') :
    ∃ n, s.calls w = .executing n ∧
      (s' = s.setCall w (.releasing n true) ∨
        ∃ st, Settled st ∧ s' = s.setCall w (.settled n st)) := by
  unfold System.finish at h
  split at h
  · rename_i n hCall
    cases h
    exact ⟨n, hCall, Or.inl rfl⟩
  · rename_i n st hCall
    split at h
    · rename_i hSettled
      cases h
      exact ⟨n, hCall, Or.inr ⟨st, hSettled, rfl⟩⟩
    · cases h
  · cases h

theorem saveFinal_cases (h : s.saveFinal w = some s') :
    ∃ n st, s.calls w = .settled n st ∧
      ((s.db.liveNotification n.notificationUuid = none ∧ s' = s.setCall w (.releasing n true)) ∨
        ∃ r, s.db.liveNotification n.notificationUuid = some r ∧ s' = s.conclude w n st) := by
  unfold System.saveFinal at h
  split at h
  · rename_i n st hCall
    refine ⟨n, st, hCall, ?_⟩
    rcases notificationUpdate_cases n.notificationUuid st s.db with
      ⟨r, hLive, hUpdate⟩ | ⟨hLive, x, hUpdate⟩
    · rw [hUpdate] at h
      cases h
      exact Or.inr ⟨r, hLive, rfl⟩
    · rw [hUpdate] at h
      cases h
      exact Or.inl ⟨hLive, rfl⟩
  · cases h

theorem release_cases (h : s.release w = some s') :
    ∃ n raises, s.calls w = .releasing n raises ∧
      ((∃ k, w.2 = .rpc k ∧ s' = (s.setCall w .idle).setLock (w.1, n.sourceHostUuid) none) ∨
        (w.2 = .sweep ∧ s' = ((s.setCall w .idle).setLock (w.1, n.sourceHostUuid) none).setSweep w.1
          (if raises then .none else { s.sweeps w.1 with phase := .rereading n }))) := by
  unfold System.release at h
  split at h
  · rename_i n raises hCall
    refine ⟨n, raises, hCall, ?_⟩
    dsimp only at h
    split at h
    · rename_i k hAgent
      cases h
      exact Or.inl ⟨k, hAgent, rfl⟩
    · rename_i hAgent
      cases h
      exact Or.inr ⟨hAgent, rfl⟩
  · cases h

theorem snapshot_cases (h : s.snapshot e = some s') :
    (s.sweeps e).phase = .idle ∧
      s' = s.setSweep e ⟨.next, notificationsGetAllByFilters unfinished s.db, []⟩ := by
  unfold System.snapshot at h
  split at h
  · rename_i hPhase
    cases h
    exact ⟨hPhase, rfl⟩
  · cases h

theorem pick_cases {isOlderThan : Bool} (h : s.pick e isOlderThan = some s') :
    (s.sweeps e).phase = .next ∧
      (((s.sweeps e).rest = [] ∧ s' = s.setSweep e .none) ∨
        ∃ n rest, (s.sweeps e).rest = n :: rest ∧
          (s' = (s.setCall (e, .sweep) (.waiting n)).setSweep e
              ⟨.processing n, rest, (s.sweeps e).ran⟩ ∨
            (n.status ≠ .error ∧
              s' = s.setSweep e ⟨.rereading n, rest, (s.sweeps e).ran⟩))) := by
  unfold System.pick at h
  split at h
  · rename_i hPhase hRest
    cases h
    exact ⟨hPhase, Or.inl ⟨hRest, rfl⟩⟩
  · rename_i n rest hPhase hRest
    refine ⟨hPhase, Or.inr ⟨n, rest, hRest, ?_⟩⟩
    split at h
    · cases h
      exact Or.inl rfl
    · rename_i hSkip
      cases h
      exact Or.inr ⟨fun hError => hSkip (Or.inl hError), rfl⟩
  · cases h

theorem reread_cases (h : s.reread e = some s') :
    ∃ n, (s.sweeps e).phase = .rereading n ∧
      (s' = s.setSweep e .none ∨
        (s.db.status n.notificationUuid = some .error ∧
          s' = s.setSweep e { s.sweeps e with phase := .failing n }) ∨
        s' = s.setSweep e { s.sweeps e with phase := .next }) := by
  unfold System.reread at h
  split at h
  · rename_i n hPhase
    refine ⟨n, hPhase, ?_⟩
    rcases notificationGetByUuid_cases n.notificationUuid s.db with
      ⟨r, hLive, hGet⟩ | ⟨hLive, x, hGet⟩
    · rw [hGet] at h
      dsimp only at h
      split at h
      · rename_i hError
        cases h
        exact Or.inr (Or.inl ⟨Db.status_eq_some.mpr ⟨r, hLive, hError⟩, rfl⟩)
      · cases h
        exact Or.inr (Or.inr rfl)
    · rw [hGet] at h
      cases h
      exact Or.inl rfl
  · cases h

theorem saveFailed_cases (h : s.saveFailed e = some s') :
    ∃ n, (s.sweeps e).phase = .failing n ∧
      (s' = s.setSweep e .none ∨
        ∃ r, s.db.liveNotification n.notificationUuid = some r ∧ s' = s.giveUp e n) := by
  unfold System.saveFailed at h
  split at h
  · rename_i n hPhase
    refine ⟨n, hPhase, ?_⟩
    rcases notificationUpdate_cases n.notificationUuid .failed s.db with
      ⟨r, hLive, hUpdate⟩ | ⟨hLive, x, hUpdate⟩
    · rw [hUpdate] at h
      cases h
      exact Or.inr ⟨r, hLive, rfl⟩
    · rw [hUpdate] at h
      cases h
      exact Or.inl rfl
  · cases h

end Cases

/-! ## A call on its own -/

section Alone

variable {E : Type} [DecidableEq E] {s : System E} {w : E × Agent} {flows : FlowOutcomes}
  {n : Notification}

/-- Whose step of a call the label is. -/
def Label.caller : Label E → Option (E × Agent)
  | .acquire w | .guardRead w | .saveRunning w | .finish w _ | .saveFinal w | .release w => some w
  | _ => none

/-- The steps of one greenthread, without interruption. -/
def RunsAlone (w : E × Agent) : System E → System E → Prop :=
  Relation.ReflTransGen ((system E).StepIf fun _ l => l.caller = some w)

theorem runsAlone_step {s s' : System E} {l : Label E} (hs : s.step l = some s')
    (hl : l.caller = some w) : RunsAlone w s s' :=
  .single ⟨l, hl, hs⟩

theorem calls_setCall_self (s : System E) (w : E × Agent) (c : Call) :
    (s.setCall w c).calls w = c := by
  simp [System.setCall]

/-- A call that has come to its end releases the lock. -/
theorem runsAlone_release {raises : Bool} (hCall : s.calls w = .releasing n raises) :
    ∃ s', RunsAlone w s s' ∧ s'.calls w = .idle ∧ s'.db = s.db := by
  obtain ⟨e, a⟩ := w
  cases a with
  | rpc k =>
    have hRelease : s.step (.release (e, .rpc k)) =
        some ((s.setCall (e, .rpc k) .idle).setLock (e, n.sourceHostUuid) none) := by
      simp only [System.step, System.release, hCall]
    exact ⟨_, runsAlone_step hRelease rfl, calls_setCall_self s _ _, rfl⟩
  | sweep =>
    have hRelease : s.step (.release (e, .sweep)) =
        some (((s.setCall (e, .sweep) .idle).setLock (e, n.sourceHostUuid) none).setSweep e
          (if raises then .none else { s.sweeps e with phase := .rereading n })) := by
      simp only [System.step, System.release, hCall]
    exact ⟨_, runsAlone_step hRelease rfl, calls_setCall_self s _ _, rfl⟩

/-- A call that comes to its end after some steps. -/
theorem runsAlone_end {s' : System E} {c : Call} {raises : Bool} (h : RunsAlone w s s')
    (hc : c = .releasing n raises) (hCall : s'.calls w = c) :
    ∃ t, RunsAlone w s t ∧ t.calls w = .idle ∧ t.db = s'.db := by
  subst hc
  obtain ⟨t, hRun, hIdle, hDb⟩ := runsAlone_release hCall
  exact ⟨t, h.trans hRun, hIdle, hDb⟩

/-- Past the guard: the save of `running`, the handler, the save of its status. -/
theorem runsAlone_checked {r : Notification} (hCall : s.calls w = .checked n)
    (hLive : s.db.liveNotification n.notificationUuid = some r) (n' : Notification) :
    Ensures (handle flows n') (s.db.setStatus n.notificationUuid .running)
      (fun st db' => ∃ t, RunsAlone w s t ∧ t.calls w = .idle ∧
        t.db.notifications = (db'.setStatus n.notificationUuid st).notifications)
      (fun _ db' => ∃ t, RunsAlone w s t ∧ t.calls w = .idle ∧
        t.db.notifications = db'.notifications) := by
  have hBegin : s.step (.saveRunning w) = some (s.begin w n) := by
    simp only [System.step, System.saveRunning, hCall, notificationUpdate, hLive]
  have hRunning : (s.begin w n).calls w = .executing n := calls_setCall_self _ _ _
  refine ensures_mono handle_frame (fun st db' h => ?_) fun e db' h => ?_
  · obtain ⟨hSettled, hFrame⟩ := h
    have hFinish : (s.begin w n).step (.finish w (some st)) =
        some ((s.begin w n).setCall w (.settled n st)) := by
      simp only [System.step, System.finish, hRunning, if_pos hSettled]
    have hLive' : ((s.begin w n).setCall w (.settled n st)).db.liveNotification
        n.notificationUuid = some { r with status := .running } :=
      liveNotification_setStatus_self hLive
    have hSave : ((s.begin w n).setCall w (.settled n st)).step (.saveFinal w) =
        some (((s.begin w n).setCall w (.settled n st)).conclude w n st) := by
      simp only [System.step, System.saveFinal, calls_setCall_self, notificationUpdate, hLive']
    have hConclude : (((s.begin w n).setCall w (.settled n st)).conclude w n st).calls w =
          .releasing n false ∧
        (((s.begin w n).setCall w (.settled n st)).conclude w n st).db =
          (s.db.setStatus n.notificationUuid .running).setStatus n.notificationUuid st := by
      unfold System.conclude
      dsimp only
      split <;> exact ⟨calls_setCall_self _ _ _, rfl⟩
    obtain ⟨t, hRun, hIdle, hDb⟩ := runsAlone_end (((runsAlone_step hBegin rfl).trans
      (runsAlone_step hFinish rfl)).trans (runsAlone_step hSave rfl)) rfl hConclude.1
    refine ⟨t, hRun, hIdle, ?_⟩
    rw [hDb, hConclude.2]
    unfold Db.setStatus
    rw [hFrame]
    rfl
  · have hFinish : (s.begin w n).step (.finish w none) =
        some ((s.begin w n).setCall w (.releasing n true)) := by
      simp only [System.step, System.finish, hRunning]
    obtain ⟨t, hRun, hIdle, hDb⟩ := runsAlone_end ((runsAlone_step hBegin rfl).trans
      (runsAlone_step hFinish rfl)) rfl (calls_setCall_self (s.begin w n) w _)
    refine ⟨t, hRun, hIdle, ?_⟩
    rw [hDb, h]
    rfl

/-- A call that is not interrupted does to the notifications what `processNotification`
does, however its handler ends. -/
theorem run_processNotification (hCall : s.calls w = .waiting n)
    (hFree : s.locks (w.1, n.sourceHostUuid) = none) :
    Ends (processNotification flows n) s.db fun db' =>
      ∃ t, RunsAlone w s t ∧ t.calls w = .idle ∧ t.db.notifications = db'.notifications := by
  let s₁ := (s.setCall w (.locked n)).setLock (w.1, n.sourceHostUuid) (some w.2)
  have hAcquire : s.step (.acquire w) = some s₁ := by
    simp only [System.step, System.acquire, hCall, hFree, if_true]
    rfl
  have hLocked : s₁.calls w = .locked n := calls_setCall_self _ _ _
  -- A call that leaves at the guard changes nothing.
  have hLeave : ∀ raises, s₁.step (.guardRead w) = some (s₁.setCall w (.releasing n raises)) →
      ∃ t, RunsAlone w s t ∧ t.calls w = .idle ∧ t.db.notifications = s.db.notifications := by
    intro raises hGuard
    obtain ⟨t, hRun, hIdle, hDb⟩ := runsAlone_end ((runsAlone_step hAcquire rfl).trans
      (runsAlone_step hGuard rfl)) rfl (calls_setCall_self s₁ w _)
    exact ⟨t, hRun, hIdle, by rw [hDb]; rfl⟩
  cases hLive : s.db.liveNotification n.notificationUuid with
  | none =>
    unfold Ends processNotification
    rw [ensures_bind, ensures_transaction]
    simp only [notificationGetByUuid, hLive]
    refine hLeave true ?_
    simp only [System.step, System.guardRead, hLocked, notificationGetByUuid]
    rw [show s₁.db = s.db from rfl, hLive]
  | some r =>
    have hGet : notificationGetByUuid n.notificationUuid s₁.db = .ok (r, s.db) := by
      rw [show s₁.db = s.db from rfl]
      simp only [notificationGetByUuid, hLive]
    cases hTwice : recoveringTwice n.status r.status with
    | true =>
      unfold Ends processNotification
      rw [ensures_bind, ensures_transaction]
      simp only [notificationGetByUuid, hLive, hTwice, if_true, ensures_pure]
      refine hLeave false ?_
      simp only [System.step, System.guardRead, hLocked, hGet, hTwice, if_true]
    | false =>
      have hGuard : s₁.step (.guardRead w) = some (s₁.setCall w (.checked n)) := by
        simp only [System.step, System.guardRead, hLocked, hGet, hTwice, Bool.false_eq_true,
          if_false]
      rw [ensures_processNotification hLive hTwice]
      refine ensures_mono (runsAlone_checked (calls_setCall_self s₁ w _) hLive _)
        (fun st db' h => ?_) fun e db' h => ?_
      all_goals
        obtain ⟨t, hRun, hIdle, hDb⟩ := h
        exact ⟨t, ((runsAlone_step hAcquire rfl).trans (runsAlone_step hGuard rfl)).trans hRun,
          hIdle, hDb⟩

end Alone

end Engine

end MasakariHA
