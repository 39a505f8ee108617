import MasakariHA.Engine.System

/-!
# The life of a notification

What holds over the runs of any number of processes as long as every save of a status
finds the row as the process has last read it (`findsAsRead`).

* `IsPath`: the statuses stored one after the other follow the edges `new → running`,
  `error → running`, `running → finished | error | ignored` and `error → failed`;
* `Lifecycle`: the invariant, with `lifecycle_step`;
* `lifecycle_exclusive`: no notification is recovered twice at the same time, or once more
  after a final status was stored.
-/

namespace MasakariHA.Engine

open Lib

/-! ## Paths of statuses -/

/-- The edges of the life of a notification. -/
def allowed (old st : NotificationStatus) : Prop :=
  ((old = .new ∨ old = .error) ∧ st = .running) ∨ (old = .running ∧ Settled st) ∨
    (old = .error ∧ st = .failed)

/-- The statuses that are never left. -/
def Final (st : NotificationStatus) : Prop := st = .finished ∨ st = .ignored ∨ st = .failed

/-- A list of stored statuses, newest first, that follows the edges. -/
def IsPath (l : List NotificationStatus) : Prop := l.IsChain fun st old => allowed old st

theorem not_allowed_of_final {old st : NotificationStatus} (h : Final old) : ¬ allowed old st := by
  rintro (⟨h' | h', -⟩ | ⟨h', -⟩ | ⟨h', -⟩) <;> subst h' <;>
    rcases h with h | h | h <;> cases h

theorem isPath_cons {st old : NotificationStatus} {l : List NotificationStatus} (hl : IsPath l)
    (hHead : l.head? = some old) (h : allowed old st) : IsPath (st :: l) := by
  refine hl.cons fun y hy => ?_
  rw [hHead] at hy
  obtain rfl := Option.mem_some_iff.mp hy
  exact h

/-- A final status in a path is its newest one. -/
theorem head_of_final {l : List NotificationStatus} (hl : IsPath l) {st : NotificationStatus}
    (hSt : st ∈ l) (hFinal : Final st) : l.head? = some st := by
  induction l with
  | nil => cases hSt
  | cons a l ih =>
    obtain ⟨hHead, hTail⟩ := List.isChain_cons.mp hl
    rcases List.mem_cons.mp hSt with rfl | hMem
    · rfl
    · exact absurd (hHead st (ih hTail hMem)) (not_allowed_of_final hFinal)

/-- A list of stored statuses that ends at the row. -/
structure Recorded (db : Db) (stored : String → List NotificationStatus) : Prop where
  head : ∀ u, (stored u).head? = db.status u
  path : ∀ u, IsPath (stored u)

theorem recorded_store {db : Db} {stored : String → List NotificationStatus} {u : String}
    {p st : NotificationStatus} (h : Recorded db stored) (hp : db.status u = some p)
    (hAllowed : allowed p st) :
    Recorded (db.setStatus u st) (Function.update stored u (st :: stored u)) := by
  constructor <;> intro u' <;> rw [Function.update_apply]
  · rw [Db.status_setStatus, hp]
    split
    · rfl
    · exact h.head u'
  · split
    · exact isPath_cons (h.path u) ((h.head u).trans hp) hAllowed
    · exact h.path u'

/-! ## Calls -/

/-- The status of an object that has yet to save `running`. -/
def Unfinished (st : NotificationStatus) : Prop := st = .new ∨ st = .error

section Calls

variable {W : Type}

structure CallsSound (db : Db) (calls : W → Call) : Prop where
  /-- A process works on objects in `new` or `error`. -/
  carried : ∀ w n, (calls w).pending = some n → Unfinished n.status
  /-- What a handler comes to ends the processing. -/
  comesTo : ∀ w n st, calls w = .settled n st → Settled st
  /-- Between its two saves a call is alone, and the row is `running`. -/
  running : ∀ w n, (calls w).active = some n → db.status n.notificationUuid = some .running
  alone : ∀ w w' n n', (calls w).active = some n → (calls w').active = some n' →
    n.notificationUuid = n'.notificationUuid → w = w'

/-- A step after which a call is active on what it was active on before, or is the one
call that has just stored `running` for a notification nobody is active on. -/
theorem callsSound_step {db db' : Db} {calls calls' : W → Call} (w₀ : W)
    (h : CallsSound db calls)
    (hPending : ∀ w n, (calls' w).pending = some n → Unfinished n.status)
    (hSettled : ∀ w n st, calls' w = .settled n st → Settled st)
    (hActive : ∀ w n, (calls' w).active = some n →
      ((calls w).active = some n ∧ db'.status n.notificationUuid = db.status n.notificationUuid) ∨
      (w = w₀ ∧ db'.status n.notificationUuid = some .running ∧
        db.status n.notificationUuid ≠ some .running)) :
    CallsSound db' calls' := by
  refine ⟨hPending, hSettled, fun w n hn => ?_, fun w w' n n' hn hn' hSame => ?_⟩
  · rcases hActive w n hn with ⟨hOld, hStatus⟩ | ⟨-, hStatus, -⟩
    · exact hStatus.trans (h.running w n hOld)
    · exact hStatus
  · rcases hActive w n hn with ⟨hOld, -⟩ | ⟨hw, -, hFree⟩ <;>
      rcases hActive w' n' hn' with ⟨hOld', -⟩ | ⟨hw', -, hFree'⟩
    · exact h.alone w w' n n' hOld hOld' hSame
    · exact absurd (hSame ▸ h.running w n hOld) hFree'
    · exact absurd (hSame ▸ h.running w' n' hOld') hFree
    · exact hw.trans hw'.symm

variable [DecidableEq W]

theorem callsSound_update {db : Db} {calls : W → Call} {w : W} {c : Call}
    (h : CallsSound db calls) (hPending : ∀ n, c.pending = some n → Unfinished n.status)
    (hSettled : ∀ n st, c = .settled n st → Settled st)
    (hActive : ∀ n, c.active = some n → (calls w).active = some n) :
    CallsSound db (Function.update calls w c) := by
  refine callsSound_step w h (fun w' n hn => ?_) (fun w' n st hn => ?_) fun w' n hn => ?_
  all_goals
    rw [Function.update_apply] at hn
    split at hn
  · exact hPending n hn
  · exact h.carried w' n hn
  · exact hSettled n st hn
  · exact h.comesTo w' n st hn
  · rename_i hw
    exact Or.inl ⟨hw ▸ hActive n hn, rfl⟩
  · exact Or.inl ⟨hn, rfl⟩

/-- A call saves a status for a notification that no other call is active on. -/
theorem callsSound_save {db : Db} {calls : W → Call} {w : W} {c : Call} {u : String}
    {p st : NotificationStatus} (h : CallsSound db calls) (hp : db.status u = some p)
    (hPending : c.pending = none) (hSettled : ∀ n st, c ≠ .settled n st)
    (hActive : ∀ n, c.active = some n → n.notificationUuid = u ∧ st = .running ∧ p ≠ .running)
    (hOthers : ∀ w' n, w' ≠ w → (calls w').active = some n → n.notificationUuid ≠ u) :
    CallsSound (db.setStatus u st) (Function.update calls w c) := by
  refine callsSound_step w h (fun w' n hn => ?_) (fun w' n st hn => ?_) fun w' n hn => ?_
  all_goals
    rw [Function.update_apply] at hn
    split at hn
  · rw [hPending] at hn
    cases hn
  · exact h.carried w' n hn
  · exact absurd hn (hSettled n st)
  · exact h.comesTo w' n st hn
  · rename_i hw
    obtain ⟨hu, hSt, hNot⟩ := hActive n hn
    refine Or.inr ⟨hw, ?_, ?_⟩
    · rw [Db.status_setStatus, if_pos hu, hp, hSt]
      rfl
    · rw [hu, hp]
      exact fun hEq => hNot (Option.some.inj hEq)
  · rename_i hw
    refine Or.inl ⟨hn, ?_⟩
    rw [Db.status_setStatus, if_neg (hOthers w' n hw hn)]

end Calls

/-! ## Starts -/

/-- How often a workflow was started with an object that carries `new`. -/
def newStarts (starts : List Start) (uuid : String) : Nat :=
  starts.countP fun st => st.uuid = uuid && st.carried = .new

structure StartsSound (db : Db) (starts : List Start) : Prop where
  /-- No workflow was started after a final status. -/
  clean : ∀ st ∈ starts, ∀ x ∈ st.before, ¬ Final x
  /-- A start that carries `new` takes the row out of `new` for good. -/
  once : ∀ u, newStarts starts u ≤ if db.status u = none ∨ db.status u = some .new then 0 else 1

theorem startsSound_congr {db db' : Db} {starts : List Start} (h : StartsSound db starts)
    (hStatus : ∀ u, db'.status u = none ∨ db'.status u = some .new →
      db.status u = none ∨ db.status u = some .new) : StartsSound db' starts := by
  refine ⟨h.clean, fun u => (h.once u).trans ?_⟩
  by_cases hu : db'.status u = none ∨ db'.status u = some .new
  · rw [if_pos hu, if_pos (hStatus u hu)]
  · rw [if_neg hu]
    split <;> omega

theorem startsSound_store {db : Db} {starts : List Start} {u : String}
    {p st : NotificationStatus} (h : StartsSound db starts) (hp : db.status u = some p)
    (hSt : st ≠ .new) : StartsSound (db.setStatus u st) starts := by
  refine startsSound_congr h fun u' hu' => ?_
  rw [Db.status_setStatus, hp] at hu'
  split at hu'
  · rcases hu' with hu' | hu'
    · cases hu'
    · exact absurd (Option.some.inj hu') hSt
  · exact hu'

theorem startsSound_start {db : Db} {starts : List Start} {u : String}
    {p : NotificationStatus} {a : Agent} {before : List NotificationStatus}
    (h : StartsSound db starts) (hp : db.status u = some p)
    (hBefore : ∀ x ∈ before, ¬ Final x) :
    StartsSound (db.setStatus u .running) (⟨u, p, a, before⟩ :: starts) := by
  constructor
  · intro st hSt
    rcases List.mem_cons.mp hSt with rfl | hSt
    · exact hBefore
    · exact h.clean st hSt
  · intro u'
    have hOnce := h.once u'
    rw [Db.status_setStatus, hp]
    unfold newStarts at *
    rw [List.countP_cons]
    by_cases hu : u' = u
    · subst hu
      rw [hp] at hOnce
      rw [if_pos rfl]
      simp only [Option.map_some, reduceCtorEq, Option.some.injEq, or_self, if_false]
      by_cases hNew : p = .new
      · simp only [hNew, or_true, if_true] at hOnce ⊢
        simp only [decide_true, Bool.and_self, if_true]
        omega
      · simp only [hNew, decide_false, Bool.and_false, Bool.false_eq_true, if_false]
        split at hOnce <;> omega
    · rw [if_neg hu]
      have hNe : u ≠ u' := fun hEq => hu hEq.symm
      simp only [hNe, decide_false, Bool.false_and, Bool.false_eq_true, if_false]
      omega

/-! ## The invariant -/

section Lifecycle

variable {E : Type}

structure Lifecycle (s : System E) : Prop where
  calls : CallsSound s.db s.calls
  listed : ∀ e, ∀ n ∈ (s.sweeps e).rest, Unfinished n.status
  recorded : Recorded s.db s.stored
  starts : StartsSound s.db s.starts

theorem lifecycle_initial (db : Db) : Lifecycle (System.initial db : System E) := by
  refine ⟨⟨?_, ?_, ?_, ?_⟩, ?_, ⟨fun u => ?_, fun u => ?_⟩, ⟨?_, fun u => Nat.zero_le _⟩⟩
  · intro w n hn
    cases hn
  · intro w n st hn
    cases hn
  · intro w n hn
    cases hn
  · intro w w' n n' hn
    cases hn
  · intro e n hn
    cases hn
  · cases h : db.status u <;> simp [System.initial, h]
  · cases h : db.status u <;> simp [System.initial, h, IsPath]
  · intro st hSt
    cases hSt

variable [DecidableEq E] {s s' : System E} {w : E × Agent} {e : E}

/-! ### Steps that save nothing -/

theorem lifecycle_setCall {c : Call} (h : Lifecycle s)
    (hPending : ∀ n, c.pending = some n → Unfinished n.status)
    (hSettled : ∀ n st, c = .settled n st → Settled st)
    (hActive : ∀ n, c.active = some n → (s.calls w).active = some n) :
    Lifecycle (s.setCall w c) :=
  ⟨callsSound_update h.calls hPending hSettled hActive, h.listed, h.recorded, h.starts⟩

theorem lifecycle_setSweep {sw : Sweep} (h : Lifecycle s)
    (hRest : ∀ n ∈ sw.rest, Unfinished n.status) : Lifecycle (s.setSweep e sw) := by
  refine ⟨h.calls, fun e' n hn => ?_, h.recorded, h.starts⟩
  simp only [System.setSweep, Function.update_apply] at hn
  split at hn
  · exact hRest n hn
  · exact h.listed e' n hn

theorem lifecycle_leave {c : Call} (h : Lifecycle s) (hPending : c.pending = none)
    (hActive : c.active = none) : Lifecycle (s.setCall w c) := by
  refine lifecycle_setCall h (fun n hn => ?_) (fun n st hc => ?_) fun n hn => ?_
  · rw [hPending] at hn
    cases hn
  · rw [hc] at hActive
    cases hActive
  · rw [hActive] at hn
    cases hn

theorem lifecycle_advance {c : Call} {n : Notification} (h : Lifecycle s)
    (hc : c.pending = some n) (hActive : c.active = none) (hn : Unfinished n.status) :
    Lifecycle (s.setCall w c) := by
  refine lifecycle_setCall h (fun n' hn' => ?_) (fun n' st hSettled => ?_) fun n' hn' => ?_
  · rw [hc] at hn'
    cases hn'
    exact hn
  · rw [hSettled] at hActive
    cases hActive
  · rw [hActive] at hn'
    cases hn'

/-! ### Steps that save a status -/

/-- A workflow starts on a row in the status that its object carries. -/
theorem lifecycle_begin {n : Notification} (h : Lifecycle s) (hCall : s.calls w = .checked n)
    (hRow : s.db.status n.notificationUuid = some n.status) : Lifecycle (s.begin w n) := by
  have hUnfinished : Unfinished n.status := h.calls.carried w n (by rw [hCall]; rfl)
  have hNotRunning : n.status ≠ .running := by
    rcases hUnfinished with hSt | hSt <;> rw [hSt] <;> exact fun hEq => by cases hEq
  refine ⟨?_, h.listed, recorded_store h.recorded hRow (Or.inl ⟨hUnfinished, rfl⟩),
    startsSound_start h.starts hRow fun x hx hFinal => ?_⟩
  · refine callsSound_save h.calls hRow rfl (fun _ _ hc => by cases hc) (fun n' hn' => ?_)
      fun w' n' hw hn' hSame => ?_
    · cases hn'
      exact ⟨rfl, rfl, hNotRunning⟩
    · have hRunning := h.calls.running w' n' hn'
      rw [hSame, hRow] at hRunning
      exact hNotRunning (Option.some.inj hRunning)
  · have hHead := head_of_final (h.recorded.path _) hx hFinal
    rw [h.recorded.head, hRow] at hHead
    obtain rfl : n.status = x := Option.some.inj hHead
    rcases hUnfinished with hSt | hSt <;> rw [hSt] at hFinal <;> rcases hFinal with hF | hF | hF <;>
      cases hF

/-- The status of the handler is saved over `running`. -/
theorem lifecycle_conclude {n : Notification} {st : NotificationStatus} (h : Lifecycle s)
    (hCall : s.calls w = .settled n st) : Lifecycle (s.conclude w n st) := by
  have hActive : (s.calls w).active = some n := by rw [hCall]; rfl
  have hRow := h.calls.running w n hActive
  have hSettled := h.calls.comesTo w n st hCall
  have hNotNew : st ≠ .new := by
    rcases hSettled with hSt | hSt | hSt <;> rw [hSt] <;> exact fun hEq => by cases hEq
  have hSaved : Lifecycle ((s.setCall w (.releasing n false)).store n.notificationUuid st) := by
    refine ⟨?_, h.listed, recorded_store h.recorded hRow (Or.inr (Or.inl ⟨rfl, hSettled⟩)),
      startsSound_store h.starts hRow hNotNew⟩
    refine callsSound_save h.calls hRow rfl (fun _ _ hc => by cases hc) (fun _ hn' => by cases hn')
      fun w' n' hw hn' hSame => hw (h.calls.alone w' w n' n hn' hActive hSame)
  unfold System.conclude
  dsimp only
  split
  · exact lifecycle_setSweep hSaved (h.listed w.1)
  · exact hSaved

/-- `failed` is saved over `error`. -/
theorem lifecycle_giveUp {n : Notification} (h : Lifecycle s)
    (hRow : s.db.status n.notificationUuid = some .error) : Lifecycle (s.giveUp e n) := by
  have hSweep : Lifecycle (s.setSweep e { s.sweeps e with phase := .next }) :=
    lifecycle_setSweep h (h.listed e)
  refine ⟨?_, hSweep.listed, recorded_store h.recorded hRow (Or.inr (Or.inr ⟨rfl, rfl⟩)),
    startsSound_store h.starts hRow fun hEq => by cases hEq⟩
  refine callsSound_step (e, .sweep) h.calls h.calls.carried h.calls.comesTo fun w' n' hn' =>
    Or.inl ⟨hn', ?_⟩
  have hRunning := h.calls.running w' n' hn'
  have hNe : n'.notificationUuid ≠ n.notificationUuid := by
    intro hSame
    rw [hSame, hRow] at hRunning
    cases hRunning
  change (s.db.setStatus n.notificationUuid .failed).status n'.notificationUuid = _
  rw [Db.status_setStatus, if_neg hNe]

theorem status_insert {db : Db} {r : Notification} {t : Table Notification.notificationUuid}
    (hInsert : db.notifications.insert r = some t) (hLive : r.deleted = 0) (u : String) :
    ({ db with notifications := t } : Db).status u =
      if u = r.notificationUuid then some r.status else db.status u := by
  unfold Db.status
  rw [liveNotification_insert hInsert]
  split
  · simp [Option.filter, hLive]
  · rfl

theorem status_fresh {db : Db} {r : Notification} {t : Table Notification.notificationUuid}
    (hInsert : db.notifications.insert r = some t) : db.status r.notificationUuid = none := by
  rw [Db.status, liveNotification_of_insert hInsert]
  rfl

omit [DecidableEq E] in
theorem lifecycle_create {r : Notification} (h : Lifecycle s) (hs : s.create r = some s') :
    Lifecycle s' := by
  obtain ⟨hNew, hLive, t, hInsert, rfl⟩ := create_cases hs
  have hFresh := status_fresh hInsert
  have hStored : s.stored r.notificationUuid = [] := by
    have hHead := h.recorded.head r.notificationUuid
    rw [hFresh] at hHead
    exact List.head?_eq_none_iff.mp hHead
  refine ⟨⟨h.calls.carried, h.calls.comesTo, fun w n hn => ?_, h.calls.alone⟩, h.listed,
    ⟨fun u => ?_, fun u => ?_⟩, startsSound_congr h.starts fun u hu => ?_⟩
  · have hRunning := h.calls.running w n hn
    have hNe : n.notificationUuid ≠ r.notificationUuid := by
      intro hSame
      rw [hSame, hFresh] at hRunning
      cases hRunning
    rw [status_insert hInsert hLive, if_neg hNe]
    exact hRunning
  · rw [status_insert hInsert hLive]
    dsimp only
    rw [Function.update_apply]
    split
    · rw [hNew]
      rfl
    · exact h.recorded.head u
  · dsimp only
    rw [Function.update_apply, hStored]
    split
    · exact List.isChain_singleton _
    · exact h.recorded.path u
  · rw [status_insert hInsert hLive] at hu
    split at hu
    · rename_i hSame
      rw [hSame]
      exact Or.inl hFresh
    · exact hu

/-! ### All steps -/

/-- A save of a status finds the row as the process has last read it: `running` is saved
over the status that the object carries, `failed` over `error`. -/
def findsAsRead (s : System E) : Label E → Bool
  | .saveRunning w =>
    match s.calls w with
    | .checked n => s.db.status n.notificationUuid = some n.status
    | _ => true
  | .saveFailed e =>
    match (s.sweeps e).phase with
    | .failing n => s.db.status n.notificationUuid = some .error
    | _ => true
  | _ => true

/-- The condition on the steps of a run. -/
def FindsAsRead (s : System E) (l : Label E) : Prop := findsAsRead s l = true

omit [DecidableEq E] in
theorem status_of_findsAsRead {n : Notification} (h : FindsAsRead s (.saveRunning w))
    (hCall : s.calls w = .checked n) : s.db.status n.notificationUuid = some n.status := by
  simpa [FindsAsRead, findsAsRead, hCall] using h

omit [DecidableEq E] in
theorem error_of_findsAsRead {n : Notification} (h : FindsAsRead s (.saveFailed e))
    (hPhase : (s.sweeps e).phase = .failing n) : s.db.status n.notificationUuid = some .error := by
  simpa [FindsAsRead, findsAsRead, hPhase] using h

theorem lifecycle_step {l : Label E} (h : Lifecycle s) (hRead : FindsAsRead s l)
    (hs : s.step l = some s') : Lifecycle s' := by
  cases l with
  | create r => exact lifecycle_create h hs
  | deliver e k uuid =>
    obtain ⟨-, r, -, rfl⟩ := deliver_cases hs
    exact lifecycle_advance h rfl rfl (Or.inl rfl)
  | acquire w =>
    obtain ⟨n, hCall, -, rfl⟩ := acquire_cases hs
    exact { lifecycle_advance (w := w) h (c := .locked n) rfl rfl
      (h.calls.carried w n (by rw [hCall]; rfl)) with }
  | guardRead w =>
    obtain ⟨n, hCall, ⟨-, rfl⟩ | ⟨r, -, ⟨-, rfl⟩ | ⟨-, rfl⟩⟩⟩ := guardRead_cases hs
    · exact lifecycle_leave h rfl rfl
    · exact lifecycle_leave h rfl rfl
    · exact lifecycle_advance h rfl rfl (h.calls.carried w n (by rw [hCall]; rfl))
  | saveRunning w =>
    obtain ⟨n, hCall, ⟨-, rfl⟩ | ⟨r, -, rfl⟩⟩ := saveRunning_cases hs
    · exact lifecycle_leave h rfl rfl
    · exact lifecycle_begin h hCall (status_of_findsAsRead hRead hCall)
  | finish w outcome =>
    obtain ⟨n, hCall, rfl | ⟨st, hSettled, rfl⟩⟩ := finish_cases hs
    · exact lifecycle_leave h rfl rfl
    · refine lifecycle_setCall h (fun n' hn' => by cases hn') (fun n' st' hc => ?_) fun n' hn' => ?_
      · cases hc
        exact hSettled
      · rw [hCall]
        exact hn'
  | saveFinal w =>
    obtain ⟨n, st, hCall, ⟨-, rfl⟩ | ⟨r, -, rfl⟩⟩ := saveFinal_cases hs
    · exact lifecycle_leave h rfl rfl
    · exact lifecycle_conclude h hCall
  | release w =>
    obtain ⟨n, raises, hCall, ⟨k, -, rfl⟩ | ⟨-, rfl⟩⟩ := release_cases hs
    · exact { lifecycle_leave (w := w) h (c := .idle) rfl rfl with }
    · have hIdle : Lifecycle ((s.setCall w .idle).setLock (w.1, n.sourceHostUuid) none) :=
        { lifecycle_leave (w := w) h (c := .idle) rfl rfl with }
      refine lifecycle_setSweep hIdle fun m hm => ?_
      split at hm
      · cases hm
      · exact h.listed w.1 m hm
  | snapshot e =>
    obtain ⟨-, rfl⟩ := snapshot_cases hs
    refine lifecycle_setSweep h fun m hm => ?_
    have hAccepts := (mem_notificationsGetAllByFilters.mp hm).2
    simp only [NotificationFilters.accepts, unfinished, Option.all_none, Option.all_some,
      Bool.and_true, Bool.and_eq_true, decide_eq_true_eq, List.mem_cons, List.not_mem_nil,
      or_false] at hAccepts
    exact hAccepts.2.symm
  | pick e isOlderThan =>
    obtain ⟨-, ⟨-, rfl⟩ | ⟨n, rest, hRest, rfl | ⟨-, rfl⟩⟩⟩ := pick_cases hs
    · exact lifecycle_setSweep h fun m hm => by cases hm
    · have hn : Unfinished n.status := h.listed e n (by rw [hRest]; exact List.mem_cons_self)
      refine lifecycle_setSweep (lifecycle_advance h rfl rfl hn) fun m hm => ?_
      exact h.listed e m (by rw [hRest]; exact List.mem_cons_of_mem n hm)
    · refine lifecycle_setSweep h fun m hm => ?_
      exact h.listed e m (by rw [hRest]; exact List.mem_cons_of_mem n hm)
  | reread e =>
    obtain ⟨n, -, rfl | ⟨-, rfl⟩ | rfl⟩ := reread_cases hs
    · exact lifecycle_setSweep h fun m hm => by cases hm
    · exact lifecycle_setSweep h (h.listed e)
    · exact lifecycle_setSweep h (h.listed e)
  | saveFailed e =>
    obtain ⟨n, hPhase, rfl | ⟨r, -, rfl⟩⟩ := saveFailed_cases hs
    · exact lifecycle_setSweep h fun m hm => by cases hm
    · exact lifecycle_giveUp h (error_of_findsAsRead hRead hPhase)

/-- The invariant holds over every run whose saves find the rows as they were read. -/
theorem lifecycle_of_reachableIf (h : (system E).ReachableIf FindsAsRead s) : Lifecycle s := by
  refine Trans.invariant_of_step (fun s₀ h₀ => ?_) (fun _ _ _ => lifecycle_step) h
  obtain ⟨db, rfl⟩ := h₀
  exact lifecycle_initial db

/-! ## Recovering twice -/

/-- A process runs the recovery workflow of the notification. -/
def Executing (s : System E) (e : E) (uuid : String) : Prop :=
  ∃ a n, s.calls (e, a) = .executing n ∧ n.notificationUuid = uuid

/-- No two processes run the workflow of one notification, and none was started after a
final status had been stored for it. -/
def Exclusive (s : System E) : Prop :=
  (∀ e e' uuid, Executing s e uuid → Executing s e' uuid → e = e') ∧
    ∀ st ∈ s.starts, ∀ x ∈ st.before, ¬ Final x

/-- In every run whose saves find the rows as they were read, no notification is recovered
twice at once, or again after a final status. -/
theorem lifecycle_exclusive (h : (system E).ReachableIf FindsAsRead s) : Exclusive s := by
  have hLife := lifecycle_of_reachableIf h
  refine ⟨?_, hLife.starts.clean⟩
  rintro e e' uuid ⟨a, n, hCall, hUuid⟩ ⟨a', n', hCall', hUuid'⟩
  have hSame := hLife.calls.alone (e, a) (e', a') n n' (by rw [hCall]; rfl) (by rw [hCall']; rfl)
    (hUuid.trans hUuid'.symm)
  exact congrArg Prod.fst hSame

end Lifecycle

/-- One notification in `new`, of one host. -/
def oneNotification : Db := oneHost ⟨[hostNotification ∅ .new], by decide⟩

/-- The process runs the workflow in its periodic task. -/
def sweepExecutes {E : Type} (s : System E) (e : E) : Bool :=
  match s.calls (e, .sweep) with
  | .executing n => n.notificationUuid = "notification"
  | _ => false

theorem executing_of_sweepExecutes {E : Type} {s : System E} {e : E}
    (h : sweepExecutes s e = true) :
    Executing s e "notification" := by
  unfold sweepExecutes at h
  split at h
  · rename_i n hCall
    exact ⟨.sweep, n, hCall, of_decide_eq_true h⟩
  · cases h

/-- One process sweeps, the other one finds the notification `running`. -/
theorem lifecycle_exclusive_sweep : ∃ s : System Bool,
    (sweepExecutes s false = true ∧ (s.sweeps true).rest.isEmpty = true) ∧ Exclusive s := by
  obtain ⟨s, hReach, hs⟩ := Trans.exists_reachableIf_of_runIf (T := system Bool) (c := findsAsRead)
    (s := .initial oneNotification)
    [.snapshot false, .pick false true, .acquire (false, .sweep), .guardRead (false, .sweep),
      .saveRunning (false, .sweep), .snapshot true]
    (fun s => sweepExecutes s false && (s.sweeps true).rest.isEmpty) ⟨_, rfl⟩ (by decide)
  exact ⟨s, by simpa using hs, lifecycle_exclusive hReach⟩

/-- Processes that share the database never recover a notification twice. -/
def AlwaysExclusive : Prop :=
  ∀ (E : Type) [DecidableEq E] (s : System E), (system E).Reachable s → Exclusive s

/-- The periodic tasks of two processes take the notification off the same list: each
passes the guard before the other one saves `running`. -/
theorem not_alwaysExclusive : ¬ AlwaysExclusive := by
  intro h
  obtain ⟨s, hReach, hs⟩ := Trans.exists_reachable_of_runIf (T := system Bool)
    (s := .initial oneNotification)
    [.snapshot false, .snapshot true, .pick false true, .pick true true,
      .acquire (false, .sweep), .acquire (true, .sweep), .guardRead (false, .sweep),
      .guardRead (true, .sweep), .saveRunning (false, .sweep), .saveRunning (true, .sweep)]
    (fun s => sweepExecutes s false && sweepExecutes s true) ⟨_, rfl⟩ (by decide)
  rw [Bool.and_eq_true] at hs
  have hSame := (h Bool s hReach).1 false true "notification" (executing_of_sweepExecutes hs.1)
    (executing_of_sweepExecutes hs.2)
  cases hSame

end MasakariHA.Engine
