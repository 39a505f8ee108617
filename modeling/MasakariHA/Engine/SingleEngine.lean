import MasakariHA.Engine.Lifecycle

/-!
# One engine process

In one process the lock on the source host orders the calls for one notification, and only
the periodic task, which runs once at a time, takes a notification out of `error`. So the
condition of `Engine/Lifecycle.lean` holds of every step.

* `CallsLocked`, `SweepSound`: the invariant of the calls with their locks, and of the
  periodic task;
* `singleEngine_findsAsRead`: every save finds the row as it was read;
* `singleEngine_path`: what is stored for a notification is always a path of its life, and
  its workflow is started at most once from `new`.
-/

namespace MasakariHA.Engine

open Lib

/-- The row of the object is live, under the same source host. -/
def Known (db : Db) (n : Notification) : Prop :=
  ∃ r, db.liveNotification n.notificationUuid = some r ∧ r.sourceHostUuid = n.sourceHostUuid

theorem known_setStatus {db : Db} {n : Notification} {u : String} {st : NotificationStatus}
    (h : Known db n) : Known (db.setStatus u st) n := by
  obtain ⟨r, hLive, hSource⟩ := h
  unfold Known
  rw [liveNotification_setStatus]
  by_cases hu : n.notificationUuid = u
  · rw [if_pos hu, ← hu, hLive]
    exact ⟨_, rfl, hSource⟩
  · rw [if_neg hu]
    exact ⟨r, hLive, hSource⟩

theorem source_eq_of_known {db : Db} {n n' : Notification} (h : Known db n) (h' : Known db n')
    (hSame : n.notificationUuid = n'.notificationUuid) : n.sourceHostUuid = n'.sourceHostUuid := by
  obtain ⟨r, hLive, hSource⟩ := h
  obtain ⟨r', hLive', hSource'⟩ := h'
  rw [hSame, hLive'] at hLive
  obtain rfl := Option.some.inj hLive
  exact hSource.symm.trans hSource'

/-! ## Calls and locks -/

/-- The calls of the process, its locks and the rows. -/
structure CallsLocked (s : System Unit) : Prop where
  known : ∀ w n, (s.calls w).object = some n → Known s.db n
  holds : ∀ w n, (s.calls w).holding = some n → s.locks ((), n.sourceHostUuid) = some w.2
  delivered : ∀ k n, (s.calls ((), .rpc k)).pending = some n → n.status = .new
  checked : ∀ w n, s.calls w = .checked n → s.db.status n.notificationUuid = some n.status

section CallsLocked

variable {s s' : System Unit} {w : Unit × Agent}

theorem object_of_holding {c : Call} {n : Notification} (h : c.holding = some n) :
    c.object = some n := by
  cases c <;> first | exact h | cases h

/-- Two calls that hold the lock for one notification are one call. -/
theorem eq_of_holding (h : CallsLocked s) {w w' : Unit × Agent} {n n' : Notification}
    (hw : (s.calls w).holding = some n) (hw' : (s.calls w').holding = some n')
    (hSame : n.notificationUuid = n'.notificationUuid) : w = w' := by
  have hSource := source_eq_of_known (h.known w n (object_of_holding hw))
    (h.known w' n' (object_of_holding hw')) hSame
  have hHolder := h.holds w n hw
  rw [hSource, h.holds w' n' hw'] at hHolder
  exact Prod.ext rfl (Option.some.inj hHolder).symm

theorem callsLocked_setCall {c : Call} (h : CallsLocked s)
    (hKnown : ∀ n, c.object = some n → Known s.db n)
    (hHolds : ∀ n, c.holding = some n → s.locks ((), n.sourceHostUuid) = some w.2)
    (hDelivered : ∀ k n, w = ((), .rpc k) → c.pending = some n → n.status = .new)
    (hChecked : ∀ n, c = .checked n → s.db.status n.notificationUuid = some n.status) :
    CallsLocked (s.setCall w c) := by
  refine ⟨fun w' n hn => ?_, fun w' n hn => ?_, fun k n hn => ?_, fun w' n hn => ?_⟩
  all_goals
    simp only [System.setCall, Function.update_apply] at hn
    split at hn
  · exact hKnown n hn
  · exact h.known w' n hn
  · rename_i hw
    rw [hw]
    exact hHolds n hn
  · exact h.holds w' n hn
  · rename_i hw
    exact hDelivered k n hw.symm hn
  · exact h.delivered k n hn
  · exact hChecked n hn
  · exact h.checked w' n hn

/-- A call moves on with its object, under the lock it holds. -/
theorem callsLocked_advance {c : Call} {n : Notification} (h : CallsLocked s)
    (hOld : (s.calls w).holding = some n) (hNew : c.object = some n)
    (hPending : ∀ m, c.pending = some m → (s.calls w).pending = some m)
    (hChecked : ∀ m, c = .checked m → s.db.status m.notificationUuid = some m.status) :
    CallsLocked (s.setCall w c) := by
  refine callsLocked_setCall h (fun m hm => ?_) (fun m hm => ?_) (fun k m hw hm => ?_) hChecked
  · rw [hNew] at hm
    cases hm
    exact h.known w n (object_of_holding hOld)
  · rw [object_of_holding hm] at hNew
    cases hNew
    exact h.holds w _ hOld
  · have hm' := hPending m hm
    rw [hw] at hm'
    exact h.delivered k m hm'

theorem callsLocked_store {u : String} {st : NotificationStatus} (h : CallsLocked s)
    (hChecked : ∀ w n, s.calls w = .checked n → n.notificationUuid ≠ u) :
    CallsLocked (s.store u st) := by
  refine ⟨fun w n hn => known_setStatus (h.known w n hn), h.holds, h.delivered, fun w n hn => ?_⟩
  change (s.db.setStatus u st).status n.notificationUuid = _
  rw [Db.status_setStatus, if_neg (hChecked w n hn)]
  exact h.checked w n hn

end CallsLocked

/-! ## The periodic task -/

/-- The entries still to be treated: of different notifications, and in `error` in the
database if they are so on the list. -/
structure RestSound (db : Db) (rest : List Notification) : Prop where
  nodup : (rest.map (·.notificationUuid)).Nodup
  known : ∀ n ∈ rest, Known db n
  error : ∀ n ∈ rest, n.status = .error → db.status n.notificationUuid = some .error

/-- The call of the task, and the entry it treats. -/
def PhaseSound (db : Db) (c : Call) (sw : Sweep) : Prop :=
  match sw.phase with
  | .idle | .next => c = .idle
  | .processing n => c.object = some n ∧ n.notificationUuid ∉ sw.rest.map (·.notificationUuid) ∧
      (c.pending = some n → n.status = .error → db.status n.notificationUuid = some .error)
  | .rereading n => c = .idle ∧ n.notificationUuid ∉ sw.rest.map (·.notificationUuid)
  | .failing n => c = .idle ∧ n.notificationUuid ∉ sw.rest.map (·.notificationUuid) ∧
      db.status n.notificationUuid = some .error

structure SweepSound (db : Db) (c : Call) (sw : Sweep) : Prop where
  rest : RestSound db sw.rest
  phase : PhaseSound db c sw

section SweepSound

variable {db db' : Db} {c c' : Call} {sw : Sweep} {n : Notification}

theorem sweepSound_none : SweepSound db .idle .none := by
  refine ⟨⟨List.nodup_nil, fun n hn => ?_, fun n hn => ?_⟩, rfl⟩ <;> cases hn

/-- A save of another greenthread, which leaves every `error` in place. -/
theorem sweepSound_keeps (h : SweepSound db c sw) (hKnown : ∀ n, Known db n → Known db' n)
    (hError : ∀ u, db.status u = some .error → db'.status u = some .error) :
    SweepSound db' c sw := by
  refine ⟨⟨h.rest.nodup, fun n hn => hKnown n (h.rest.known n hn),
    fun n hn hSt => hError _ (h.rest.error n hn hSt)⟩, ?_⟩
  have hPhase := h.phase
  unfold PhaseSound at hPhase ⊢
  split at hPhase
  · exact hPhase
  · exact hPhase
  · exact ⟨hPhase.1, hPhase.2.1, fun hc hSt => hError _ (hPhase.2.2 hc hSt)⟩
  · exact hPhase
  · exact ⟨hPhase.1, hPhase.2.1, hError _ hPhase.2.2⟩

/-- The task is in a call for the entry it processes. -/
theorem phase_of_object (h : SweepSound db c sw) (hc : c.object = some n) :
    sw.phase = .processing n ∧ n.notificationUuid ∉ sw.rest.map (·.notificationUuid) ∧
      (c.pending = some n → n.status = .error → db.status n.notificationUuid = some .error) := by
  have hPhase := h.phase
  unfold PhaseSound at hPhase
  split at hPhase
  · rw [hPhase] at hc
    cases hc
  · rw [hPhase] at hc
    cases hc
  · rename_i m hm
    rw [hc] at hPhase
    cases hPhase.1
    exact ⟨hm, hPhase.2⟩
  · rw [hPhase.1] at hc
    cases hc
  · rw [hPhase.1] at hc
    cases hc

/-- The call of the task moves on. -/
theorem sweepSound_advance (h : SweepSound db c sw) (hc : c.object = some n)
    (hc' : c'.object = some n) (hPending : c'.pending = some n → c.pending = some n) :
    SweepSound db c' sw := by
  obtain ⟨hPhase, hRest, hError⟩ := phase_of_object h hc
  refine ⟨h.rest, ?_⟩
  unfold PhaseSound
  rw [hPhase]
  exact ⟨hc', hRest, fun hp => hError (hPending hp)⟩

/-- The call of the task saves a status for the entry it processes. -/
theorem sweepSound_save {st : NotificationStatus} (h : SweepSound db c sw)
    (hc : c.object = some n) (hc' : c'.object = some n) (hPending : c'.pending = none) :
    SweepSound (db.setStatus n.notificationUuid st) c' sw := by
  obtain ⟨hPhase, hRest, -⟩ := phase_of_object h hc
  refine ⟨⟨h.rest.nodup, fun m hm => known_setStatus (h.rest.known m hm), fun m hm hSt => ?_⟩, ?_⟩
  · have hNe : m.notificationUuid ≠ n.notificationUuid := fun hSame =>
      hRest (hSame ▸ List.mem_map_of_mem hm)
    rw [Db.status_setStatus, if_neg hNe]
    exact h.rest.error m hm hSt
  · unfold PhaseSound
    rw [hPhase]
    refine ⟨hc', hRest, fun hp => ?_⟩
    rw [hPending] at hp
    cases hp

end SweepSound

/-! ## One step of the process -/

/-- The state of the call of the periodic task. -/
abbrev System.sweepCall (s : System Unit) : Call := s.calls ((), .sweep)

structure SingleEngine (s : System Unit) : Prop where
  life : Lifecycle s
  calls : CallsLocked s
  sweep : SweepSound s.db s.sweepCall (s.sweeps ())

theorem singleEngine_initial (db : Db) : SingleEngine (.initial db) := by
  refine ⟨lifecycle_initial db, ⟨?_, ?_, ?_, ?_⟩, sweepSound_none⟩
  · intro w n hn
    cases hn
  · intro w n hn
    cases hn
  · intro k n hn
    cases hn
  · intro w n hn
    cases hn

section Step

variable {s s' : System Unit} {w : Unit × Agent}

/-- In one process every save finds the row as it was read. -/
theorem singleEngine_findsAsRead (h : SingleEngine s) (l : Label Unit) : FindsAsRead s l := by
  cases l with
  | saveRunning w =>
    unfold FindsAsRead findsAsRead
    dsimp only
    split
    · rename_i n hCall
      exact decide_eq_true (h.calls.checked w n hCall)
    · rfl
  | saveFailed e =>
    unfold FindsAsRead findsAsRead
    dsimp only
    split
    · rename_i n hPhase
      have hSound := h.sweep.phase
      unfold PhaseSound at hSound
      rw [hPhase] at hSound
      exact decide_eq_true hSound.2.2
    · rfl
  | _ => rfl

/-- The call of the task stays as it is when another greenthread steps. -/
theorem sweepCall_setCall_rpc {k : Nat} {c : Call} :
    (s.setCall ((), .rpc k) c).sweepCall = s.sweepCall := by
  simp [System.sweepCall, System.setCall]

theorem sweepCall_setCall_sweep {c : Call} : (s.setCall ((), .sweep) c).sweepCall = c := by
  simp [System.sweepCall, System.setCall]

theorem sweeps_setSweep {sw : Sweep} : (s.setSweep () sw).sweeps () = sw := by
  simp [System.setSweep]

/-- A call that moves on keeps the periodic task sound, whichever greenthread it is of. -/
theorem sweepSound_setCall {c : Call} {n : Notification}
    (h : SweepSound s.db s.sweepCall (s.sweeps ())) (hOld : (s.calls w).object = some n)
    (hNew : c.object = some n) (hPending : c.pending = some n → (s.calls w).pending = some n) :
    SweepSound s.db (s.setCall w c).sweepCall (s.sweeps ()) := by
  obtain ⟨⟨⟩, a⟩ := w
  cases a with
  | rpc k =>
    rw [sweepCall_setCall_rpc]
    exact h
  | sweep =>
    rw [sweepCall_setCall_sweep]
    exact sweepSound_advance h hOld hNew hPending

/-- Whichever greenthread saves a status: the periodic task is sound if the row was not in
`error`, or if the task itself saves. -/
theorem sweepSound_setCall_store {c : Call} {n : Notification} {st : NotificationStatus}
    (h : SweepSound s.db s.sweepCall (s.sweeps ())) (hOld : (s.calls w).object = some n)
    (hNew : c.object = some n) (hPending : c.pending = none)
    (hError : ∀ k, w = ((), .rpc k) → s.db.status n.notificationUuid ≠ some .error) :
    SweepSound (s.db.setStatus n.notificationUuid st) (s.setCall w c).sweepCall (s.sweeps ()) := by
  obtain ⟨⟨⟩, a⟩ := w
  cases a with
  | rpc k =>
    rw [sweepCall_setCall_rpc]
    refine sweepSound_keeps h (fun _ => known_setStatus) fun u hu => ?_
    have hNe : u ≠ n.notificationUuid := fun hSame => hError k rfl (hSame ▸ hu)
    rw [Db.status_setStatus, if_neg hNe]
    exact hu
  | sweep =>
    rw [sweepCall_setCall_sweep]
    exact sweepSound_save h hOld hNew hPending

theorem singleEngine_create {r : Notification} (h : SingleEngine s) (hs : s.create r = some s') :
    SingleEngine s' := by
  have hLife := lifecycle_create h.life hs
  obtain ⟨hNew, hLive, t, hInsert, rfl⟩ := create_cases hs
  have hFresh := status_fresh hInsert
  have hStatus : ∀ u st, s.db.status u = some st →
      ({ s.db with notifications := t } : Db).status u = some st := by
    intro u st hu
    have hNe : u ≠ r.notificationUuid := by
      intro hSame
      rw [hSame, hFresh] at hu
      cases hu
    rw [status_insert hInsert hLive, if_neg hNe]
    exact hu
  have hKnown : ∀ n, Known s.db n → Known { s.db with notifications := t } n := by
    rintro n ⟨m, hm, hSource⟩
    have hNe : n.notificationUuid ≠ r.notificationUuid := by
      intro hSame
      rw [Db.status, ← hSame, hm] at hFresh
      cases hFresh
    refine ⟨m, ?_, hSource⟩
    rw [liveNotification_insert hInsert, if_neg hNe]
    exact hm
  exact ⟨hLife, ⟨fun w n hn => hKnown n (h.calls.known w n hn), h.calls.holds, h.calls.delivered,
    fun w n hn => hStatus _ _ (h.calls.checked w n hn)⟩,
    sweepSound_keeps h.sweep hKnown fun u hu => hStatus u _ hu⟩

theorem singleEngine_deliver {k : Nat} {uuid : String} (h : SingleEngine s)
    (hs : s.deliver () k uuid = some s') (hLife : Lifecycle s') : SingleEngine s' := by
  obtain ⟨-, r, hLive, rfl⟩ := deliver_cases hs
  refine ⟨hLife, callsLocked_setCall h.calls (fun n hn => ?_) (fun n hn => ?_) (fun _ n _ hn => ?_)
    (fun n hn => ?_), ?_⟩
  · cases hn
    have hUuid : r.notificationUuid = uuid := uuid_of_live hLive
    exact ⟨r, hUuid ▸ hLive, rfl⟩
  · cases hn
  · cases hn
    rfl
  · cases hn
  · rw [sweepCall_setCall_rpc]
    exact h.sweep

theorem singleEngine_acquire (h : SingleEngine s) (hs : s.acquire w = some s')
    (hLife : Lifecycle s') : SingleEngine s' := by
  obtain ⟨n, hCall, hFree, rfl⟩ := acquire_cases hs
  have hOld : (s.calls w).object = some n := by rw [hCall]; rfl
  refine ⟨hLife, ?_, ?_⟩
  · -- No call holds the lock, so taking it disturbs none.
    have hTaken : CallsLocked (s.setLock (w.1, n.sourceHostUuid) (some w.2)) := by
      refine { h.calls with holds := fun w' n' hn' => ?_ }
      have hHolder := h.calls.holds w' n' hn'
      simp only [System.setLock, Function.update_apply]
      split
      · rename_i hSame
        rw [← hSame, hHolder] at hFree
        cases hFree
      · exact hHolder
    refine callsLocked_setCall (s := s.setLock (w.1, n.sourceHostUuid) (some w.2)) hTaken
      (fun m hm => ?_) (fun m hm => ?_) (fun k m hw hm => ?_) fun m hm => by cases hm
    · cases hm
      exact h.calls.known w n hOld
    · cases hm
      simp [System.setLock]
    · cases hm
      have hPending : (s.calls w).pending = some n := by rw [hCall]; rfl
      rw [hw] at hPending
      exact h.calls.delivered k n hPending
  · exact sweepSound_setCall h.sweep hOld rfl fun _ => by rw [hCall]; rfl

/-- A call comes to its end without a save. -/
theorem singleEngine_releasing {n : Notification} {raises : Bool} (h : SingleEngine s)
    (hOld : (s.calls w).holding = some n) :
    SingleEngine (s.setCall w (.releasing n raises)) := by
  refine ⟨lifecycle_leave h.life rfl rfl, callsLocked_advance h.calls hOld rfl (fun m hm => ?_)
    fun m hm => ?_, sweepSound_setCall h.sweep (object_of_holding hOld) rfl fun hp => ?_⟩
  · cases hm
  · cases hm
  · cases hp

theorem singleEngine_guardRead (h : SingleEngine s) (hs : s.guardRead w = some s')
    (hLife : Lifecycle s') : SingleEngine s' := by
  obtain ⟨n, hCall, hCases⟩ := guardRead_cases hs
  have hOld : (s.calls w).holding = some n := by rw [hCall]; rfl
  have hPending : (s.calls w).pending = some n := by rw [hCall]; rfl
  obtain ⟨-, rfl⟩ | ⟨r, hLive, ⟨-, rfl⟩ | ⟨hGuard, rfl⟩⟩ := hCases
  · exact singleEngine_releasing h hOld
  · exact singleEngine_releasing h hOld
  · have hStatus : s.db.status n.notificationUuid = some r.status :=
      Db.status_eq_some.mpr ⟨r, hLive, rfl⟩
    refine ⟨hLife, callsLocked_advance h.calls hOld rfl (fun m hm => ?_) fun m hm => ?_,
      sweepSound_setCall h.sweep (object_of_holding hOld) rfl fun _ => hPending⟩
    · cases hm
      exact hPending
    · cases hm
      rcases h.life.calls.carried w n hPending with hNew | hError
      · -- The guard lets a copy in `new` pass only when the row is so.
        have hRow : r.status = .new := by
          by_contra hRow
          simp [recoveringTwice, hNew, hRow] at hGuard
        rw [hStatus, hRow, hNew]
      · -- A copy in `error` is the task's, and nobody else takes the row out of `error`.
        obtain ⟨⟨⟩, a⟩ := w
        cases a with
        | rpc k =>
          rw [h.calls.delivered k n hPending] at hError
          cases hError
        | sweep =>
          rw [(phase_of_object h.sweep (object_of_holding hOld)).2.2 hPending hError, hError]

theorem singleEngine_saveRunning (h : SingleEngine s) (hs : s.saveRunning w = some s')
    (hLife : Lifecycle s') : SingleEngine s' := by
  obtain ⟨n, hCall, hCases⟩ := saveRunning_cases hs
  have hOld : (s.calls w).holding = some n := by rw [hCall]; rfl
  obtain ⟨-, rfl⟩ | ⟨r, hLive, rfl⟩ := hCases
  · exact singleEngine_releasing h hOld
  · have hMoved : CallsLocked (s.setCall w (.executing n)) :=
      callsLocked_advance h.calls hOld rfl (fun _ hm => by cases hm) fun _ hm => by cases hm
    refine ⟨hLife, { callsLocked_store hMoved fun w' n' hn' hSame => ?_ with }, ?_⟩
    · -- Another call past the guard would hold the same lock.
      simp only [System.setCall, Function.update_apply] at hn'
      split at hn'
      · cases hn'
      · rename_i hw
        exact hw (eq_of_holding h.calls (by rw [hn']; rfl) hOld hSame)
    · refine sweepSound_setCall_store h.sweep (object_of_holding hOld) rfl rfl fun k hw hRow => ?_
      have hRead := h.calls.checked w n hCall
      have hNew := h.calls.delivered k n (by rw [← hw, hCall]; rfl)
      rw [hRow, hNew] at hRead
      cases hRead

theorem singleEngine_finish {outcome : Option NotificationStatus} (h : SingleEngine s)
    (hs : s.finish w outcome = some s') (hLife : Lifecycle s') : SingleEngine s' := by
  obtain ⟨n, hCall, hCases⟩ := finish_cases hs
  have hOld : (s.calls w).holding = some n := by rw [hCall]; rfl
  obtain rfl | ⟨st, -, rfl⟩ := hCases
  · exact singleEngine_releasing h hOld
  · refine ⟨hLife, callsLocked_advance h.calls hOld rfl (fun m hm => ?_) fun m hm => ?_,
      sweepSound_setCall h.sweep (object_of_holding hOld) rfl fun hp => ?_⟩
    · cases hm
    · cases hm
    · cases hp

theorem singleEngine_saveFinal (h : SingleEngine s) (hs : s.saveFinal w = some s')
    (hLife : Lifecycle s') : SingleEngine s' := by
  obtain ⟨n, st, hCall, hCases⟩ := saveFinal_cases hs
  have hOld : (s.calls w).holding = some n := by rw [hCall]; rfl
  have hRow := h.life.calls.running w n (by rw [hCall]; rfl)
  obtain ⟨-, rfl⟩ | ⟨r, hLive, rfl⟩ := hCases
  · exact singleEngine_releasing h hOld
  · have hMoved : CallsLocked (s.setCall w (.releasing n false)) :=
      callsLocked_advance h.calls hOld rfl (fun _ hm => by cases hm) fun _ hm => by cases hm
    have hSaved : CallsLocked ((s.setCall w (.releasing n false)).store n.notificationUuid st) := by
      refine callsLocked_store hMoved fun w' n' hn' hSame => ?_
      simp only [System.setCall, Function.update_apply] at hn'
      split at hn'
      · cases hn'
      · have hRead := h.calls.checked w' n' hn'
        rw [hSame, hRow] at hRead
        rcases h.life.calls.carried w' n' (by rw [hn']; rfl) with hSt | hSt <;>
          rw [hSt] at hRead <;> cases hRead
    have hSweep : SweepSound (s.db.setStatus n.notificationUuid st)
        (s.setCall w (.releasing n false)).sweepCall (s.sweeps ()) :=
      sweepSound_setCall_store h.sweep (object_of_holding hOld) rfl rfl fun k _ hError => by
        rw [hRow] at hError
        cases hError
    -- The record of the task's own errors is no part of the invariant.
    unfold System.conclude at hLife ⊢
    dsimp only at hLife ⊢
    split at hLife
    · rename_i hOwn
      rw [if_pos hOwn]
      refine ⟨hLife, { hSaved with }, ?_⟩
      rw [sweeps_setSweep]
      exact ⟨hSweep.rest, hSweep.phase⟩
    · rename_i hOther
      rw [if_neg hOther]
      exact ⟨hLife, hSaved, hSweep⟩

theorem singleEngine_release (h : SingleEngine s) (hs : s.release w = some s')
    (hLife : Lifecycle s') : SingleEngine s' := by
  obtain ⟨n, raises, hCall, hCases⟩ := release_cases hs
  have hOld : (s.calls w).holding = some n := by rw [hCall]; rfl
  have hIdle : CallsLocked (s.setCall w .idle) :=
    callsLocked_setCall h.calls (fun _ hm => by cases hm) (fun _ hm => by cases hm)
      (fun _ _ _ hm => by cases hm) fun _ hm => by cases hm
  have hFreed : CallsLocked ((s.setCall w .idle).setLock (w.1, n.sourceHostUuid) none) := by
    refine { hIdle with holds := fun w' n' hn' => ?_ }
    have hHolder := hIdle.holds w' n' hn'
    simp only [System.setLock, Function.update_apply]
    split
    · -- Only this call held the lock, and it is over.
      rename_i hSame
      have hMine := h.calls.holds w n hOld
      rw [hSame] at hHolder
      have hAgent : w'.2 = w.2 := by
        rw [show ((w.1, n.sourceHostUuid) : Unit × String) = ((), n.sourceHostUuid) from rfl]
          at hHolder
        exact Option.some.inj (hHolder.symm.trans hMine)
      have hw : w' = w := Prod.ext rfl hAgent
      rw [hw] at hn'
      simp only [System.setLock, System.setCall, Function.update_self] at hn'
      cases hn'
    · exact hHolder
  obtain ⟨k, hk, rfl⟩ | ⟨hk, rfl⟩ := hCases
  · refine ⟨hLife, hFreed, ?_⟩
    have hw : w = ((), .rpc k) := Prod.ext rfl hk
    subst hw
    change SweepSound s.db (s.setCall ((), .rpc k) .idle).sweepCall (s.sweeps ())
    rw [sweepCall_setCall_rpc]
    exact h.sweep
  · have hw : w = ((), .sweep) := Prod.ext rfl hk
    subst hw
    refine ⟨hLife, { hFreed with }, ?_⟩
    rw [sweeps_setSweep]
    change SweepSound s.db (s.setCall ((), .sweep) .idle).sweepCall _
    rw [sweepCall_setCall_sweep]
    split
    · exact sweepSound_none
    · exact ⟨h.sweep.rest, rfl, (phase_of_object h.sweep (object_of_holding hOld)).2.1⟩

/-- The periodic task moves on, its call as it is. -/
theorem singleEngine_setSweep {sw : Sweep} (h : SingleEngine s)
    (hLife : Lifecycle (s.setSweep () sw)) (hSweep : SweepSound s.db s.sweepCall sw) :
    SingleEngine (s.setSweep () sw) := by
  refine ⟨hLife, { h.calls with }, ?_⟩
  rw [sweeps_setSweep]
  exact hSweep

theorem sweepCall_of_phase {ph : Phase} (h : SingleEngine s) (hPhase : (s.sweeps ()).phase = ph)
    (hProcessing : ∀ n, ph ≠ .processing n) : s.sweepCall = .idle := by
  have hSound := h.sweep.phase
  unfold PhaseSound at hSound
  rw [hPhase] at hSound
  cases ph with
  | idle => exact hSound
  | next => exact hSound
  | processing n => exact absurd rfl (hProcessing n)
  | rereading n => exact hSound.1
  | failing n => exact hSound.1

theorem singleEngine_snapshot (h : SingleEngine s) (hs : s.snapshot () = some s')
    (hLife : Lifecycle s') : SingleEngine s' := by
  obtain ⟨hPhase, rfl⟩ := snapshot_cases hs
  refine singleEngine_setSweep h hLife ⟨⟨nodup_notificationsGetAllByFilters _ _, fun n hn => ?_,
    fun n hn hSt => ?_⟩, sweepCall_of_phase h hPhase fun n hEq => by cases hEq⟩
  · exact ⟨n, liveNotification_of_mem hn, rfl⟩
  · exact Db.status_eq_some.mpr ⟨n, liveNotification_of_mem hn, hSt⟩

theorem singleEngine_pick {isOlderThan : Bool} (h : SingleEngine s)
    (hs : s.pick () isOlderThan = some s') (hLife : Lifecycle s') : SingleEngine s' := by
  obtain ⟨hPhase, hCases⟩ := pick_cases hs
  have hIdle := sweepCall_of_phase h hPhase fun n hEq => by cases hEq
  obtain ⟨-, rfl⟩ | ⟨n, rest, hRest, hCases⟩ := hCases
  · refine singleEngine_setSweep h hLife ?_
    rw [hIdle]
    exact sweepSound_none
  · have hSound := h.sweep.rest
    rw [hRest] at hSound
    obtain ⟨hNotMem, hNodup⟩ := List.nodup_cons.mp hSound.nodup
    have hTail : RestSound s.db rest := ⟨hNodup, fun m hm => hSound.known m (.tail n hm),
      fun m hm => hSound.error m (.tail n hm)⟩
    obtain rfl | ⟨-, rfl⟩ := hCases
    · have hMoved : CallsLocked (s.setCall ((), .sweep) (.waiting n)) := by
        refine callsLocked_setCall h.calls (fun m hm => ?_) (fun m hm => ?_) (fun k m hw _ => ?_)
          fun m hm => ?_
        · cases hm
          exact hSound.known n List.mem_cons_self
        · cases hm
        · cases hw
        · cases hm
      refine ⟨hLife, { hMoved with }, ?_⟩
      rw [sweeps_setSweep]
      change SweepSound s.db (s.setCall ((), .sweep) (.waiting n)).sweepCall _
      rw [sweepCall_setCall_sweep]
      exact ⟨hTail, rfl, hNotMem, fun _ hSt => hSound.error n List.mem_cons_self hSt⟩
    · exact singleEngine_setSweep h hLife ⟨hTail, hIdle, hNotMem⟩

theorem singleEngine_reread (h : SingleEngine s) (hs : s.reread () = some s')
    (hLife : Lifecycle s') : SingleEngine s' := by
  obtain ⟨n, hPhase, hCases⟩ := reread_cases hs
  have hIdle := sweepCall_of_phase h hPhase fun m hEq => by cases hEq
  have hSound := h.sweep.phase
  unfold PhaseSound at hSound
  rw [hPhase] at hSound
  obtain rfl | ⟨hError, rfl⟩ | rfl := hCases
  · refine singleEngine_setSweep h hLife ?_
    rw [hIdle]
    exact sweepSound_none
  · exact singleEngine_setSweep h hLife ⟨h.sweep.rest, hIdle, hSound.2, hError⟩
  · exact singleEngine_setSweep h hLife ⟨h.sweep.rest, hIdle⟩

theorem singleEngine_saveFailed (h : SingleEngine s) (hs : s.saveFailed () = some s')
    (hLife : Lifecycle s') : SingleEngine s' := by
  obtain ⟨n, hPhase, hCases⟩ := saveFailed_cases hs
  have hIdle := sweepCall_of_phase h hPhase fun m hEq => by cases hEq
  have hSound := h.sweep.phase
  unfold PhaseSound at hSound
  rw [hPhase] at hSound
  obtain ⟨-, hNotMem, hRow⟩ := hSound
  obtain rfl | ⟨r, hLive, rfl⟩ := hCases
  · refine singleEngine_setSweep h hLife ?_
    rw [hIdle]
    exact sweepSound_none
  · have hSaved : CallsLocked (s.store n.notificationUuid .failed) := by
      refine callsLocked_store h.calls fun w m hm hSame => ?_
      -- A checked object in `error` would be the task's own, whose call is over.
      have hRead := h.calls.checked w m hm
      rw [hSame, hRow] at hRead
      obtain ⟨⟨⟩, a⟩ := w
      cases a with
      | rpc k =>
        rw [h.calls.delivered k m (by rw [hm]; rfl)] at hRead
        cases hRead
      | sweep =>
        rw [show s.calls ((), .sweep) = .idle from hIdle] at hm
        cases hm
    refine ⟨hLife, { hSaved with }, ?_⟩
    have hSweep : (s.giveUp () n).sweeps () = { s.sweeps () with phase := .next } :=
      sweeps_setSweep (s := s)
    rw [hSweep]
    refine ⟨⟨h.sweep.rest.nodup, fun m hm => known_setStatus (h.sweep.rest.known m hm),
      fun m hm hSt => ?_⟩, hIdle⟩
    change (s.db.setStatus n.notificationUuid .failed).status m.notificationUuid = some .error
    have hNe : m.notificationUuid ≠ n.notificationUuid := fun hSame =>
      hNotMem (hSame ▸ List.mem_map_of_mem hm)
    rw [Db.status_setStatus, if_neg hNe]
    exact h.sweep.rest.error m hm hSt

theorem singleEngine_step {l : Label Unit} (h : SingleEngine s) (hs : s.step l = some s') :
    SingleEngine s' := by
  have hLife := lifecycle_step h.life (singleEngine_findsAsRead h l) hs
  cases l with
  | create r => exact singleEngine_create h hs
  | deliver e k uuid => exact singleEngine_deliver h hs hLife
  | acquire w => exact singleEngine_acquire h hs hLife
  | guardRead w => exact singleEngine_guardRead h hs hLife
  | saveRunning w => exact singleEngine_saveRunning h hs hLife
  | finish w outcome => exact singleEngine_finish h hs hLife
  | saveFinal w => exact singleEngine_saveFinal h hs hLife
  | release w => exact singleEngine_release h hs hLife
  | snapshot e => exact singleEngine_snapshot h hs hLife
  | pick e isOlderThan => exact singleEngine_pick h hs hLife
  | reread e => exact singleEngine_reread h hs hLife
  | saveFailed e => exact singleEngine_saveFailed h hs hLife

theorem singleEngine_of_reachableIf {C : System Unit → Label Unit → Prop}
    (h : (system Unit).ReachableIf C s) : SingleEngine s := by
  refine Trans.invariant_of_step (I := SingleEngine) (fun s₀ h₀ => ?_)
    (fun _ _ _ hI _ hs => singleEngine_step hI hs) h
  obtain ⟨db, rfl⟩ := h₀
  exact singleEngine_initial db

/-- Whatever the order of deliveries and sweeps in one process: what is stored for a
notification is a path of its life, a final status is its last one, and its workflow is
started at most once with an object in `new`. -/
theorem singleEngine_path (h : (system Unit).Reachable s) (uuid : String) :
    IsPath (s.stored uuid) ∧
      (∀ st ∈ s.stored uuid, Final st → (s.stored uuid).head? = some st) ∧
      newStarts s.starts uuid ≤ 1 := by
  have hLife := (singleEngine_of_reachableIf h).life
  refine ⟨hLife.recorded.path uuid, fun st hSt => head_of_final (hLife.recorded.path uuid) hSt, ?_⟩
  have hOnce := hLife.starts.once uuid
  split at hOnce <;> omega

/-- A delivery that fails, and its retry. -/
theorem singleEngine_path_retry : ∃ s : System Unit,
    (s.stored "notification" = [.finished, .running, .error, .running, .new] ∧
      s.starts.length = 2) ∧
    IsPath (s.stored "notification") ∧
      (∀ st ∈ s.stored "notification", Final st → (s.stored "notification").head? = some st) ∧
      newStarts s.starts "notification" ≤ 1 := by
  obtain ⟨s, hReach, hs⟩ := Trans.exists_reachable_of_runIf (T := system Unit)
    (s := .initial oneNotification)
    [.deliver () 0 "notification", .acquire ((), .rpc 0), .guardRead ((), .rpc 0),
      .saveRunning ((), .rpc 0), .finish ((), .rpc 0) (some .error), .saveFinal ((), .rpc 0),
      .release ((), .rpc 0), .snapshot (), .pick () false, .acquire ((), .sweep),
      .guardRead ((), .sweep), .saveRunning ((), .sweep), .finish ((), .sweep) (some .finished),
      .saveFinal ((), .sweep)]
    (fun s => s.stored "notification" = [.finished, .running, .error, .running, .new] ∧
      s.starts.length = 2) ⟨_, rfl⟩ (by decide)
  exact ⟨s, of_decide_eq_true hs, singleEngine_path hReach "notification"⟩

end Step

end MasakariHA.Engine
