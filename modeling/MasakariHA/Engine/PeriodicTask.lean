import MasakariHA.Engine.SingleEngine

/-!
# What the periodic task gives up

`_process_unfinished_notifications` in one engine process: it moves a notification to
`failed` when it reads it in `error` after its own pass. Whether that `error` is its own
depends on the deliveries of the same process.

* `undisturbed`: no delivery stores `error` for a notification that a run of the task has
  on its list and has still to read again;
* `OwnErrors`: the invariant of the runs whose steps are undisturbed, with `ownErrors_step`;
* `givesUpOwn_of_undisturbed`: in these the task gives up only what it has just tried.
-/

namespace MasakariHA.Engine

open Lib

/-- The notifications that a run of the task has still to read again. -/
def Sweep.unread (sw : Sweep) : List String :=
  (match sw.phase with
    | .processing n | .rereading n => [n.notificationUuid]
    | _ => []) ++ sw.rest.map (·.notificationUuid)

/-- The step is not the save of `error` by a delivery, for a notification that the periodic
task has still to read again. -/
def undisturbed (s : System Unit) : Label Unit → Bool
  | .saveFinal ((), .rpc k) =>
    match s.calls ((), .rpc k) with
    | .settled n .error => n.notificationUuid ∉ (s.sweeps ()).unread
    | _ => true
  | _ => true

/-- The condition on the steps of a run. -/
def Undisturbed (s : System Unit) (l : Label Unit) : Prop := undisturbed s l = true

/-- The periodic task has started the workflow of the notification. -/
def StartedBySweep (starts : List Start) (uuid : String) : Prop :=
  ∃ st ∈ starts, st.uuid = uuid ∧ st.agent = .sweep

/-- An `error` of the entry that the task treats is the one it has to retry, or its own. -/
def PhaseOwn (db : Db) (c : Call) (sw : Sweep) : Prop :=
  match sw.phase with
  | .processing n => db.status n.notificationUuid = some .error →
      (c.pending = some n ∧ n.status = .error) ∨ n.notificationUuid ∈ sw.ran
  | .rereading n => db.status n.notificationUuid = some .error → n.notificationUuid ∈ sw.ran
  | .failing n => n.notificationUuid ∈ sw.ran
  | _ => True

structure SweepOwn (db : Db) (c : Call) (sw : Sweep) (starts : List Start) : Prop where
  /-- An entry that is `new` on the list is not in `error`. -/
  rest : ∀ n ∈ sw.rest, n.status = .new → db.status n.notificationUuid ≠ some .error
  phase : PhaseOwn db c sw
  ran : ∀ u ∈ sw.ran, StartedBySweep starts u
  active : ∀ n, c.active = some n → StartedBySweep starts n.notificationUuid

/-- What was given up was the task's own error, after a start by the task. -/
def FailuresOwn (failures : List Failure) : Prop :=
  ∀ f ∈ failures, f.own = true ∧ StartedBySweep f.starts f.uuid

section SweepOwn

variable {db db' : Db} {c c' : Call} {sw : Sweep} {starts starts' : List Start} {n : Notification}

theorem sweepOwn_none : SweepOwn db .idle .none starts := by
  refine ⟨fun n hn => ?_, trivial, fun u hu => ?_, fun n hn => ?_⟩
  · cases hn
  · cases hu
  · cases hn

/-- A step of another greenthread, after which no more entries are in `error`. -/
theorem sweepOwn_keeps (h : SweepOwn db c sw starts)
    (hError : ∀ u ∈ sw.unread, db'.status u = some .error → db.status u = some .error)
    (hStarts : ∀ st ∈ starts, st ∈ starts') : SweepOwn db' c sw starts' := by
  have hStarted : ∀ u, StartedBySweep starts u → StartedBySweep starts' u :=
    fun u ⟨st, hSt, hRest⟩ => ⟨st, hStarts st hSt, hRest⟩
  refine ⟨fun n hn hNew hRow => h.rest n hn hNew (hError _ ?_ hRow), ?_,
    fun u hu => hStarted u (h.ran u hu), fun n hn => hStarted _ (h.active n hn)⟩
  · exact List.mem_append_right _ (List.mem_map_of_mem hn)
  · have hPhase := h.phase
    unfold PhaseOwn at hPhase ⊢
    split at hPhase
    · rename_i m hm
      exact fun hRow => hPhase (hError _ (by simp [Sweep.unread, hm]) hRow)
    · rename_i m hm
      exact fun hRow => hPhase (hError _ (by simp [Sweep.unread, hm]) hRow)
    · exact hPhase
    · exact hPhase

end SweepOwn

/-! ## Steps -/

structure OwnErrors (s : System Unit) : Prop where
  sweep : SweepOwn s.db s.sweepCall (s.sweeps ()) s.starts
  failures : FailuresOwn s.failures

section Step

variable {s s' : System Unit} {w : Unit × Agent}

/-- The call of the task moves on without a save; it may leave its pending part only when
the row is not in `error`, or with an object in `new`. -/
theorem sweepOwn_advance {c : Call} {n : Notification} (hEngine : SingleEngine s)
    (h : SweepOwn s.db s.sweepCall (s.sweeps ()) s.starts) (hOld : s.sweepCall.object = some n)
    (hActive : ∀ m, c.active = some m → s.sweepCall.active = some m)
    (hPending : c.pending = some n ∨ n.status = .new ∨
      s.db.status n.notificationUuid ≠ some .error) :
    SweepOwn s.db c (s.sweeps ()) s.starts := by
  have hPhase := (phase_of_object hEngine.sweep hOld).1
  refine ⟨h.rest, ?_, h.ran, fun m hm => h.active m (hActive m hm)⟩
  have hOwn := h.phase
  unfold PhaseOwn at hOwn ⊢
  rw [hPhase] at hOwn ⊢
  intro hRow
  rcases hOwn hRow with ⟨-, hError⟩ | hRan
  · rcases hPending with hp | hNew | hNot
    · exact Or.inl ⟨hp, hError⟩
    · rw [hNew] at hError
      cases hError
    · exact absurd hRow hNot
  · exact Or.inr hRan

theorem ownErrors_setCall {c : Call} {n : Notification} (hEngine : SingleEngine s)
    (h : OwnErrors s) (hOld : (s.calls w).object = some n)
    (hActive : ∀ m, c.active = some m → (s.calls w).active = some m)
    (hPending : c.pending = some n ∨ n.status = .new ∨
      s.db.status n.notificationUuid ≠ some .error) : OwnErrors (s.setCall w c) := by
  obtain ⟨⟨⟩, a⟩ := w
  refine ⟨?_, h.failures⟩
  cases a with
  | rpc k =>
    rw [sweepCall_setCall_rpc]
    exact h.sweep
  | sweep =>
    rw [sweepCall_setCall_sweep]
    exact sweepOwn_advance (s := s) hEngine h.sweep hOld hActive hPending

theorem not_error_of_none {n : Notification}
    (h : s.db.liveNotification n.notificationUuid = none) :
    s.db.status n.notificationUuid ≠ some .error := by
  simp [Db.status, h]

theorem not_error_of_active {n : Notification} (hEngine : SingleEngine s)
    (h : (s.calls w).active = some n) : s.db.status n.notificationUuid ≠ some .error := by
  rw [hEngine.life.calls.running w n h]
  exact fun hEq => by cases hEq

theorem ownErrors_create {r : Notification} (h : OwnErrors s) (hs : s.create r = some s') :
    OwnErrors s' := by
  obtain ⟨hNew, hLive, t, hInsert, rfl⟩ := create_cases hs
  refine ⟨sweepOwn_keeps h.sweep (fun u _ hu => ?_) fun _ hSt => hSt, h.failures⟩
  rw [status_insert hInsert hLive] at hu
  split at hu
  · rw [hNew] at hu
    cases hu
  · exact hu

theorem ownErrors_guardRead (hEngine : SingleEngine s) (h : OwnErrors s)
    (hs : s.guardRead w = some s') : OwnErrors s' := by
  obtain ⟨n, hCall, hCases⟩ := guardRead_cases hs
  have hOld : (s.calls w).object = some n := by rw [hCall]; rfl
  obtain ⟨hNone, rfl⟩ | ⟨r, -, ⟨hTwice, rfl⟩ | ⟨-, rfl⟩⟩ := hCases
  · exact ownErrors_setCall hEngine h hOld (fun m hm => by cases hm)
      (Or.inr (Or.inr (not_error_of_none hNone)))
  · -- The guard rejects only objects in `new`.
    have hNew : n.status = .new := by
      simp only [recoveringTwice, Bool.and_eq_true, decide_eq_true_eq] at hTwice
      exact hTwice.1
    exact ownErrors_setCall hEngine h hOld (fun m hm => by cases hm) (Or.inr (Or.inl hNew))
  · exact ownErrors_setCall hEngine h hOld (fun m hm => by cases hm) (Or.inl rfl)

theorem not_mem_rest {n : Notification} (hEngine : SingleEngine s)
    (hOld : s.sweepCall.object = some n) : ∀ m ∈ (s.sweeps ()).rest,
      m.notificationUuid ≠ n.notificationUuid := by
  intro m hm hSame
  exact (phase_of_object hEngine.sweep hOld).2.1 (hSame ▸ List.mem_map_of_mem hm)

theorem ownErrors_begin {n : Notification} (hEngine : SingleEngine s) (h : OwnErrors s)
    (hCall : s.calls w = .checked n)
    (hLive : ∃ r, s.db.liveNotification n.notificationUuid = some r) :
    OwnErrors (s.begin w n) := by
  obtain ⟨r, hLive⟩ := hLive
  have hStatus : s.db.status n.notificationUuid = some r.status :=
    Db.status_eq_some.mpr ⟨r, hLive, rfl⟩
  have hStarts : ∀ st ∈ s.starts, st ∈ (s.begin w n).starts := fun st => List.mem_cons_of_mem _
  have hError : ∀ u, (s.db.setStatus n.notificationUuid .running).status u = some .error →
      s.db.status u = some .error := by
    intro u hu
    rw [Db.status_setStatus, hStatus] at hu
    split at hu
    · cases hu
    · exact hu
  have hKept : SweepOwn (s.db.setStatus n.notificationUuid .running) s.sweepCall (s.sweeps ())
      (s.begin w n).starts := sweepOwn_keeps h.sweep (fun u _ => hError u) hStarts
  refine ⟨?_, h.failures⟩
  obtain ⟨⟨⟩, a⟩ := w
  cases a with
  | rpc k =>
    change SweepOwn _ (s.setCall ((), .rpc k) (.executing n)).sweepCall _ _
    rw [sweepCall_setCall_rpc]
    exact hKept
  | sweep =>
    change SweepOwn _ (s.setCall ((), .sweep) (.executing n)).sweepCall _ _
    rw [sweepCall_setCall_sweep]
    have hPhase := (phase_of_object (n := n) hEngine.sweep (by
      rw [show s.sweepCall = .checked n from hCall]; rfl)).1
    refine ⟨hKept.rest, ?_, hKept.ran, fun m hm => ?_⟩
    · unfold PhaseOwn
      rw [show ((s.begin ((), .sweep) n).sweeps ()).phase = .processing n from hPhase]
      intro hRow
      rw [show (s.begin ((), .sweep) n).db = s.db.setStatus n.notificationUuid .running from rfl,
        Db.status_setStatus, if_pos rfl, hStatus] at hRow
      cases hRow
    · cases hm
      exact ⟨_, List.mem_cons_self, rfl, rfl⟩

/-- A save of `error` by a delivery is for a notification that the task is done with. -/
theorem not_mem_unread {k : Nat} {n : Notification}
    (h : Undisturbed s (.saveFinal ((), .rpc k)))
    (hCall : s.calls ((), .rpc k) = .settled n .error) :
    n.notificationUuid ∉ (s.sweeps ()).unread := by
  simpa [Undisturbed, undisturbed, hCall] using h

/-- The row of a settled notification is still `running`, so the save changes no other status. -/
theorem status_conclude {n : Notification} {st : NotificationStatus} (hEngine : SingleEngine s)
    (hCall : s.calls w = .settled n st) (u : String) :
    (s.db.setStatus n.notificationUuid st).status u =
      if u = n.notificationUuid then some st else s.db.status u := by
  have hActive : (s.calls w).active = some n := by rw [hCall]; rfl
  rw [Db.status_setStatus, hEngine.life.calls.running w n hActive]
  rfl

theorem ownErrors_concludeRpc {k : Nat} {n : Notification} {st : NotificationStatus}
    (hEngine : SingleEngine s) (h : OwnErrors s) (hC : Undisturbed s (.saveFinal ((), .rpc k)))
    (hCall : s.calls ((), .rpc k) = .settled n st) : OwnErrors (s.conclude ((), .rpc k) n st) := by
  refine ⟨?_, h.failures⟩
  change SweepOwn _ (s.setCall ((), .rpc k) (.releasing n false)).sweepCall _ _
  rw [sweepCall_setCall_rpc]
  refine sweepOwn_keeps h.sweep (fun u hu hRow' => ?_) fun _ hSt => hSt
  change (s.db.setStatus n.notificationUuid st).status u = some .error at hRow'
  rw [status_conclude hEngine hCall] at hRow'
  split at hRow'
  · rename_i hSame
    rw [Option.some.inj hRow'] at hCall
    exact absurd (hSame ▸ hu) (not_mem_unread hC hCall)
  · exact hRow'

theorem ownErrors_concludeSweep {n : Notification} {st : NotificationStatus}
    (hEngine : SingleEngine s) (h : OwnErrors s) (hCall : s.calls ((), .sweep) = .settled n st) :
    OwnErrors (s.conclude ((), .sweep) n st) := by
  have hOld : s.sweepCall.object = some n := by
    rw [show s.sweepCall = .settled n st from hCall]
    rfl
  have hPhase := (phase_of_object hEngine.sweep hOld).1
  have hRest : ∀ m ∈ (s.sweeps ()).rest, m.status = .new →
      (s.db.setStatus n.notificationUuid st).status m.notificationUuid ≠ some .error := by
    intro m hm hNew
    rw [status_conclude hEngine hCall, if_neg (not_mem_rest hEngine hOld m hm)]
    exact h.sweep.rest m hm hNew
  by_cases hSt : st = .error
  · -- The task's own error goes on its record.
    have hConclude : s.conclude ((), .sweep) n st =
        ((s.setCall ((), .sweep) (.releasing n false)).store n.notificationUuid st).setSweep ()
          { s.sweeps () with ran := n.notificationUuid :: (s.sweeps ()).ran } := by
      unfold System.conclude
      rw [if_pos ⟨rfl, hSt⟩]
    rw [hConclude]
    refine ⟨?_, h.failures⟩
    rw [sweeps_setSweep]
    change SweepOwn _ (s.setCall ((), .sweep) (.releasing n false)).sweepCall _ _
    rw [sweepCall_setCall_sweep]
    refine ⟨hRest, ?_, fun u hu => ?_, fun m hm => by cases hm⟩
    · unfold PhaseOwn
      dsimp only
      rw [hPhase]
      exact fun _ => Or.inr List.mem_cons_self
    · rcases List.mem_cons.mp hu with rfl | hu
      · exact h.sweep.active n (by rw [show s.sweepCall = .settled n st from hCall]; rfl)
      · exact h.sweep.ran u hu
  · have hConclude : s.conclude ((), .sweep) n st =
        (s.setCall ((), .sweep) (.releasing n false)).store n.notificationUuid st := by
      unfold System.conclude
      rw [if_neg fun hBoth => hSt hBoth.2]
    rw [hConclude]
    refine ⟨?_, h.failures⟩
    change SweepOwn (s.db.setStatus n.notificationUuid st)
      (s.setCall ((), .sweep) (.releasing n false)).sweepCall (s.sweeps ()) s.starts
    rw [sweepCall_setCall_sweep]
    refine ⟨hRest, ?_, h.sweep.ran, fun m hm => by cases hm⟩
    unfold PhaseOwn
    rw [hPhase]
    intro hRow'
    rw [status_conclude hEngine hCall, if_pos rfl] at hRow'
    exact absurd (Option.some.inj hRow') hSt

theorem ownErrors_conclude {n : Notification} {st : NotificationStatus} (hEngine : SingleEngine s)
    (h : OwnErrors s) (hC : Undisturbed s (.saveFinal w)) (hCall : s.calls w = .settled n st) :
    OwnErrors (s.conclude w n st) := by
  obtain ⟨⟨⟩, a⟩ := w
  cases a with
  | rpc k => exact ownErrors_concludeRpc hEngine h hC hCall
  | sweep => exact ownErrors_concludeSweep hEngine h hCall

theorem ownErrors_release (hEngine : SingleEngine s) (h : OwnErrors s)
    (hs : s.release w = some s') : OwnErrors s' := by
  obtain ⟨n, raises, hCall, hCases⟩ := release_cases hs
  obtain ⟨k, hk, rfl⟩ | ⟨hk, rfl⟩ := hCases
  · have hw : w = ((), .rpc k) := Prod.ext rfl hk
    subst hw
    refine ⟨?_, h.failures⟩
    change SweepOwn s.db (s.setCall ((), .rpc k) .idle).sweepCall _ _
    rw [sweepCall_setCall_rpc]
    exact h.sweep
  · have hw : w = ((), .sweep) := Prod.ext rfl hk
    subst hw
    refine ⟨?_, h.failures⟩
    rw [sweeps_setSweep]
    change SweepOwn s.db (s.setCall ((), .sweep) .idle).sweepCall _ _
    rw [sweepCall_setCall_sweep]
    split
    · exact sweepOwn_none
    · have hOld : s.sweepCall.object = some n := by
        rw [show s.sweepCall = .releasing n raises from hCall]
        rfl
      have hOwn := h.sweep.phase
      unfold PhaseOwn at hOwn
      rw [(phase_of_object hEngine.sweep hOld).1] at hOwn
      refine ⟨h.sweep.rest, fun hRow => ?_, h.sweep.ran, fun m hm => by cases hm⟩
      rcases hOwn hRow with ⟨hp, -⟩ | hRan
      · rw [show s.sweepCall = .releasing n raises from hCall] at hp
        cases hp
      · exact hRan

theorem ownErrors_setSweep {sw : Sweep} (h : OwnErrors s)
    (hSweep : SweepOwn s.db s.sweepCall sw s.starts) : OwnErrors (s.setSweep () sw) := by
  refine ⟨?_, h.failures⟩
  rw [sweeps_setSweep]
  exact hSweep

theorem ownErrors_snapshot (hEngine : SingleEngine s) (h : OwnErrors s)
    (hs : s.snapshot () = some s') : OwnErrors s' := by
  obtain ⟨hPhase, rfl⟩ := snapshot_cases hs
  have hIdle := sweepCall_of_phase hEngine hPhase fun n hEq => by cases hEq
  refine ownErrors_setSweep h ⟨fun n hn hNew hRow => ?_, trivial, fun u hu => ?_, fun n hn => ?_⟩
  · -- The list shows the status of the row.
    obtain ⟨r, hr, hError⟩ := Db.status_eq_some.mp hRow
    rw [liveNotification_of_mem hn] at hr
    obtain rfl := Option.some.inj hr
    rw [hNew] at hError
    cases hError
  · cases hu
  · rw [hIdle] at hn
    cases hn

theorem ownErrors_pick {isOlderThan : Bool} (hEngine : SingleEngine s) (h : OwnErrors s)
    (hs : s.pick () isOlderThan = some s') : OwnErrors s' := by
  obtain ⟨hPhase, hCases⟩ := pick_cases hs
  have hIdle := sweepCall_of_phase hEngine hPhase fun n hEq => by cases hEq
  obtain ⟨-, rfl⟩ | ⟨n, rest, hRest, hCases⟩ := hCases
  · refine ownErrors_setSweep h ?_
    rw [hIdle]
    exact sweepOwn_none
  · have hTail : ∀ m ∈ rest, m.status = .new → s.db.status m.notificationUuid ≠ some .error :=
      fun m hm => h.sweep.rest m (by rw [hRest]; exact .tail n hm)
    have hHead := h.sweep.rest n (by rw [hRest]; exact List.mem_cons_self)
    have hListed := hEngine.life.listed () n (by rw [hRest]; exact List.mem_cons_self)
    obtain rfl | ⟨hNot, rfl⟩ := hCases
    · refine ⟨?_, h.failures⟩
      rw [sweeps_setSweep]
      change SweepOwn s.db (s.setCall ((), .sweep) (.waiting n)).sweepCall _ _
      rw [sweepCall_setCall_sweep]
      refine ⟨hTail, fun hRow => ?_, h.sweep.ran, fun m hm => by cases hm⟩
      rcases hListed with hNew | hError
      · exact absurd hRow (hHead hNew)
      · exact Or.inl ⟨rfl, hError⟩
    · refine ownErrors_setSweep h ⟨hTail, fun hRow => ?_, h.sweep.ran, h.sweep.active⟩
      exact absurd hRow (hHead (hListed.resolve_right hNot))

theorem ownErrors_reread (hEngine : SingleEngine s) (h : OwnErrors s)
    (hs : s.reread () = some s') : OwnErrors s' := by
  obtain ⟨n, hPhase, hCases⟩ := reread_cases hs
  have hIdle := sweepCall_of_phase hEngine hPhase fun m hEq => by cases hEq
  obtain rfl | ⟨hError, rfl⟩ | rfl := hCases
  · refine ownErrors_setSweep h ?_
    rw [hIdle]
    exact sweepOwn_none
  · have hOwn := h.sweep.phase
    unfold PhaseOwn at hOwn
    rw [hPhase] at hOwn
    exact ownErrors_setSweep h ⟨h.sweep.rest, hOwn hError, h.sweep.ran, h.sweep.active⟩
  · exact ownErrors_setSweep h ⟨h.sweep.rest, trivial, h.sweep.ran, h.sweep.active⟩

theorem ownErrors_saveFailed (hEngine : SingleEngine s) (h : OwnErrors s)
    (hs : s.saveFailed () = some s') : OwnErrors s' := by
  obtain ⟨n, hPhase, hCases⟩ := saveFailed_cases hs
  have hIdle := sweepCall_of_phase hEngine hPhase fun m hEq => by cases hEq
  obtain rfl | ⟨r, hLive, rfl⟩ := hCases
  · refine ownErrors_setSweep h ?_
    rw [hIdle]
    exact sweepOwn_none
  · have hOwn := h.sweep.phase
    unfold PhaseOwn at hOwn
    rw [hPhase] at hOwn
    have hStatus : s.db.status n.notificationUuid = some r.status :=
      Db.status_eq_some.mpr ⟨r, hLive, rfl⟩
    have hMoved : OwnErrors (s.setSweep () { s.sweeps () with phase := .next }) :=
      ownErrors_setSweep h ⟨h.sweep.rest, trivial, h.sweep.ran, h.sweep.active⟩
    refine ⟨sweepOwn_keeps hMoved.sweep (fun u _ hu => ?_) fun _ hSt => hSt, fun f hf => ?_⟩
    · change (s.db.setStatus n.notificationUuid .failed).status u = some .error at hu
      rw [Db.status_setStatus, hStatus] at hu
      split at hu
      · cases hu
      · exact hu
    · rcases List.mem_cons.mp hf with rfl | hf
      · obtain ⟨st, hSt, hUuid, hAgent⟩ := h.sweep.ran n.notificationUuid hOwn
        exact ⟨decide_eq_true hOwn, st, List.mem_filter.mpr ⟨hSt, decide_eq_true hUuid⟩,
          hUuid, hAgent⟩
      · exact h.failures f hf

theorem ownErrors_step {l : Label Unit} (hEngine : SingleEngine s) (h : OwnErrors s)
    (hC : Undisturbed s l) (hs : s.step l = some s') : OwnErrors s' := by
  cases l with
  | create r => exact ownErrors_create h hs
  | deliver e k uuid =>
    obtain ⟨-, r, -, rfl⟩ := deliver_cases hs
    refine ⟨?_, h.failures⟩
    rw [sweepCall_setCall_rpc]
    exact h.sweep
  | acquire w =>
    obtain ⟨n, hCall, -, rfl⟩ := acquire_cases hs
    have hOld : (s.calls w).object = some n := by rw [hCall]; rfl
    have hMoved : OwnErrors (s.setCall w (.locked n)) :=
      ownErrors_setCall hEngine h hOld (fun m hm => by cases hm) (Or.inl rfl)
    exact ⟨hMoved.sweep, hMoved.failures⟩
  | guardRead w => exact ownErrors_guardRead hEngine h hs
  | saveRunning w =>
    obtain ⟨n, hCall, ⟨hNone, rfl⟩ | ⟨r, hLive, rfl⟩⟩ := saveRunning_cases hs
    · exact ownErrors_setCall hEngine h (by rw [hCall]; rfl) (fun m hm => by cases hm)
        (Or.inr (Or.inr (not_error_of_none hNone)))
    · exact ownErrors_begin hEngine h hCall ⟨r, hLive⟩
  | finish w outcome =>
    obtain ⟨n, hCall, hCases⟩ := finish_cases hs
    have hNot := not_error_of_active (w := w) (n := n) hEngine (by rw [hCall]; rfl)
    obtain rfl | ⟨st, -, rfl⟩ := hCases
    · exact ownErrors_setCall hEngine h (by rw [hCall]; rfl) (fun m hm => by cases hm)
        (Or.inr (Or.inr hNot))
    · refine ownErrors_setCall hEngine h (by rw [hCall]; rfl) (fun m hm => ?_)
        (Or.inr (Or.inr hNot))
      rw [hCall]
      exact hm
  | saveFinal w =>
    obtain ⟨n, st, hCall, ⟨hNone, rfl⟩ | ⟨r, -, rfl⟩⟩ := saveFinal_cases hs
    · exact ownErrors_setCall hEngine h (by rw [hCall]; rfl) (fun m hm => by cases hm)
        (Or.inr (Or.inr (not_error_of_none hNone)))
    · exact ownErrors_conclude hEngine h hC hCall
  | release w => exact ownErrors_release hEngine h hs
  | snapshot e => exact ownErrors_snapshot hEngine h hs
  | pick e isOlderThan => exact ownErrors_pick hEngine h hs
  | reread e => exact ownErrors_reread hEngine h hs
  | saveFailed e => exact ownErrors_saveFailed hEngine h hs

/-- What the task has moved to `failed` it had itself tried in the same run, and it was not
tried by a delivery only. -/
def GivesUpOwn (s : System Unit) : Prop :=
  ∀ f ∈ s.failures, f.own = true ∧ ∀ k, f.starts.map (·.agent) ≠ [.rpc k]

/-- In every run in which no delivery stores `error` under a run of the task that has still
to read the notification again, the task gives up only what it has just tried. -/
theorem givesUpOwn_of_undisturbed (h : (system Unit).ReachableIf Undisturbed s) :
    GivesUpOwn s := by
  have hOwn : SingleEngine s ∧ OwnErrors s := by
    refine Trans.invariant_of_step (I := fun s => SingleEngine s ∧ OwnErrors s)
      (fun s₀ h₀ => ?_) (fun _ _ _ hI hC hs => ?_) h
    · obtain ⟨db, rfl⟩ := h₀
      exact ⟨singleEngine_initial db, sweepOwn_none, fun f hf => by cases hf⟩
    · exact ⟨singleEngine_step hI.1 hs, ownErrors_step hI.1 hI.2 hC hs⟩
  intro f hf
  obtain ⟨hTrue, st, hSt, -, hAgent⟩ := hOwn.2.failures f hf
  refine ⟨hTrue, fun k hAgents => ?_⟩
  have hMem : st.agent ∈ f.starts.map (·.agent) := List.mem_map_of_mem hSt
  rw [hAgents, hAgent] at hMem
  cases List.mem_singleton.mp hMem

/-- A delivery that fails before the task starts, a retry that fails too. -/
theorem givesUpOwn_of_undisturbed_retry : ∃ s : System Unit,
    (s.stored "notification").head? = some .failed ∧ GivesUpOwn s := by
  obtain ⟨s, hReach, hs⟩ := Trans.exists_reachableIf_of_runIf (T := system Unit) (c := undisturbed)
    (s := .initial oneNotification)
    [.deliver () 0 "notification", .acquire ((), .rpc 0), .guardRead ((), .rpc 0),
      .saveRunning ((), .rpc 0), .finish ((), .rpc 0) (some .error), .saveFinal ((), .rpc 0),
      .release ((), .rpc 0), .snapshot (), .pick () false, .acquire ((), .sweep),
      .guardRead ((), .sweep), .saveRunning ((), .sweep), .finish ((), .sweep) (some .error),
      .saveFinal ((), .sweep), .release ((), .sweep), .reread (), .saveFailed ()]
    (fun s => (s.stored "notification").head? = some .failed) ⟨_, rfl⟩ (by decide)
  exact ⟨s, of_decide_eq_true hs, givesUpOwn_of_undisturbed hReach⟩

/-- The task of one process gives up only what it has just tried. -/
def AlwaysGivesUpOwn : Prop := ∀ s : System Unit, (system Unit).Reachable s → GivesUpOwn s

/-- The list of the task shows a young notification in `new`; its first execution, by the
delivery, ends in `error` before the task reads it again. -/
theorem not_alwaysGivesUpOwn : ¬ AlwaysGivesUpOwn := by
  intro h
  obtain ⟨s, hReach, hs⟩ := Trans.exists_reachable_of_runIf (T := system Unit)
    (s := .initial oneNotification)
    [.deliver () 0 "notification", .snapshot (), .acquire ((), .rpc 0), .guardRead ((), .rpc 0),
      .saveRunning ((), .rpc 0), .finish ((), .rpc 0) (some .error), .saveFinal ((), .rpc 0),
      .pick () false, .reread (), .saveFailed ()]
    (fun s => s.failures.any fun f => !f.own) ⟨_, rfl⟩ (by decide)
  obtain ⟨f, hf, hOwn⟩ := List.any_eq_true.mp hs
  rw [(h s hReach f hf).1] at hOwn
  cases hOwn

end Step

end MasakariHA.Engine
