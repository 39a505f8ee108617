import MasakariHA.Engine.Taskflow.EvacuateInstances

/-!
# The state of an instance after its evacuation

What `_evacuate_and_confirm` does to an instance when nova carries every call out. Nova
evacuates only what is active, stopped or in error; anything else is reset to `error` first, and
what was read before and after this reset decides whether the instance is stopped and whether it
is reset once more.

* `Obliging`: a nova that answers every call;
* `firstPoll`, `ensures_waitFor_polls`: the poll that ends a wait;
* `restoresState_iff`: when the instance is left in the state that it was in before.
-/

namespace MasakariHA.Engine

open Lib

/-! ## A nova that carries every call out -/

/-- What nova answers about the instance. After a reset it reports `error`, and the power state
that the instance had. -/
structure Obliging (i : Server) where
  getServer : List NovaCall → Server
  evacuationPolls : Nat
  stopPolls : Nat
  vmState_reset : ∀ calls, (getServer (calls ++ [.resetInstanceState i.id])).vmState = "error"
  powerState_reset : ∀ calls,
    (getServer (calls ++ [.resetInstanceState i.id])).powerState = i.powerState

namespace Obliging

variable {i : Server} (o : Obliging i)

def nova : Nova where
  getServer calls := .ok (o.getServer calls)
  lockServer _ := .ok ()
  resetInstanceState _ := .ok ()
  evacuateInstance _ := .ok ()
  stopServer _ := .ok ()
  unlockServer _ := .ok ()
  evacuationPolls := o.evacuationPolls
  stopPolls := o.stopPolls

/-- The reply to the next `get_server`. -/
def reply (calls : List NovaCall) : Server := { o.getServer calls with id := i.id }

end Obliging

/-- The first of `n` polls, made after the calls, whose reply passes the test. -/
def firstPoll (id : String) (p : List NovaCall → Bool) (n : Nat) (calls : List NovaCall) :
    Option Nat :=
  (List.range n).find? fun k => p (calls ++ List.replicate k (.getServer id))

/-! ## What should be done -/

/-- The calls after `evacuate_instance`. -/
def afterEvacuation : List NovaCall → List NovaCall
  | [] => []
  | .evacuateInstance _ _ :: calls => calls
  | _ :: calls => afterEvacuation calls

/-- The instance keeps running after its evacuation. -/
def keepsRunning (i : Server) : Bool :=
  i.vmState = "active" || i.vmState = "resized" && i.powerState ≠ shutdown

/-- Once its evacuation is confirmed, the instance is reset to `error` exactly when it was in
`error`, stopped exactly when it was not to run, and never stopped when it was active. -/
def RestoresState {i : Server} (o : Obliging i) (hostName : String) (target : Option String) :
    Prop :=
  let t := runThread o.nova hostName target i
  Confirmed hostName t →
    (NovaCall.resetInstanceState i.id ∈ afterEvacuation t.calls ↔ i.vmState = "error") ∧
    (NovaCall.stopServer i.id ∈ t.calls ↔
      i.vmState ≠ "active" ∧ ¬ (i.vmState = "resized" ∧ i.powerState ≠ shutdown)) ∧
    (i.vmState = "active" → NovaCall.stopServer i.id ∉ t.calls)

section Replies

variable {i : Server} (o : Obliging i) (hostName : String) (target : Option String)

/-- Nova does not evacuate an instance in its vm state. -/
def refused (i : Server) : Bool := i.vmState ∉ ["active", "error", "stopped"]

/-- The calls up to the lock. -/
def lockCalls : List NovaCall :=
  if (o.reply []).locked then [.getServer i.id] else [.getServer i.id, .lockServer i.id]

/-- The calls up to `evacuate_instance`. -/
def evacuateCalls : List NovaCall :=
  (if refused i || i.taskState ≠ none then
      lockCalls o ++ [.resetInstanceState i.id, .getServer i.id]
    else lockCalls o) ++
    [.evacuateInstance i.id target]

/-- The instance that the confirmation compares with. -/
def compared : Server :=
  if refused i || i.taskState ≠ none then
    o.reply (lockCalls o ++ [.resetInstanceState i.id])
  else i

/-- The poll that confirms the evacuation. -/
def evacuationPoll : Option Nat :=
  firstPoll i.id (fun calls => evacuated hostName (compared o) (o.reply calls)) o.evacuationPolls
    (evacuateCalls o target)

/-- After an evacuation confirmed by poll `k` and `stop_server`, one of the polls that fit into
the waiting period shows the instance stopped. -/
def stopConfirmed (k : Nat) : Bool :=
  (firstPoll i.id (fun calls => (o.reply calls).vmState = "stopped") o.stopPolls
    (evacuateCalls o target ++ List.replicate (k + 1) (.getServer i.id) ++
      [.stopServer i.id])).isSome

end Replies

/-! ## Polls -/

/-- A wait whose polls answer by a function of the calls ends at the first poll that passes. -/
theorem ensures_waitFor_polls {body : ThreadM Bool} (id : String) (p : List NovaCall → Bool)
    (hBody : ∀ t, Ensures body t
      (fun done t' => done = p t.calls ∧ t'.calls = t.calls ++ [.getServer id])
      (fun _ _ => False)) (n : Nat) (t : Thread) :
    Ensures (waitFor body n) t
      (fun _ t' => ∃ k, firstPoll id p n t.calls = some k ∧
        t'.calls = t.calls ++ List.replicate (k + 1) (.getServer id))
      (fun e t' => e = .timeout ∧ firstPoll id p n t.calls = none ∧
        t'.calls = t.calls ++ List.replicate n (.getServer id)) := by
  induction n generalizing t with
  | zero => exact ⟨rfl, rfl, by simp⟩
  | succ n ih =>
    have hFirst : firstPoll id p (n + 1) t.calls =
        if p t.calls then some 0
        else (firstPoll id p n (t.calls ++ [.getServer id])).map (· + 1) := by
      unfold firstPoll
      rw [List.range_succ_eq_map, List.find?_cons, List.find?_map]
      simp only [List.replicate_zero, List.append_nil]
      cases p t.calls with
      | true => rfl
      | false =>
        simp only [Bool.false_eq_true, if_false]
        congr 2
        funext k
        simp [List.replicate_succ]
    change Ensures (body >>= fun done => if done then pure () else waitFor body n) t _ _
    rw [ensures_bind, hFirst]
    refine ensures_mono (hBody t) (fun done t' h => ?_) fun _ _ h => h.elim
    obtain ⟨rfl, hCalls⟩ := h
    cases hp : p t.calls with
    | true => exact ⟨0, rfl, hCalls⟩
    | false =>
      refine ensures_mono (ih t') (fun _ t'' h => ?_) fun e t'' h => ?_
      · obtain ⟨k, hPoll, hCalls'⟩ := h
        rw [hCalls] at hPoll hCalls'
        refine ⟨k + 1, by simp [hPoll], ?_⟩
        rw [hCalls', List.append_assoc, List.replicate_succ (n := k + 1), List.singleton_append]
      · obtain ⟨hTimeout, hPoll, hCalls'⟩ := h
        rw [hCalls] at hPoll hCalls'
        refine ⟨hTimeout, by simp [hPoll], ?_⟩
        rw [hCalls', List.append_assoc, List.replicate_succ, List.singleton_append]

section Calls

variable {i j : Server} {o : Obliging i} {hostName : String} {target : Option String} {t : Thread}

theorem ensures_reply {Q : Server → Thread → Prop} {E : Exc → Thread → Prop}
    (hId : j.id = i.id) :
    Ensures (getServer o.nova j.id) t Q E ↔ Q (o.reply t.calls) (t.call (.getServer i.id)) := by
  unfold getServer
  rw [ensures_bind, ensures_send, hId]
  rfl

theorem pollEvacuation_spec (hId : j.id = i.id) (t : Thread) :
    Ensures (pollEvacuation o.nova hostName j) t
      (fun done t' => done = evacuated hostName j (o.reply t.calls) ∧
        t'.calls = t.calls ++ [.getServer i.id] ∧
        t'.polled = t.polled ++ [(j, o.reply t.calls)])
      (fun _ _ => False) := by
  unfold pollEvacuation getStateAndHostOfInstance
  rw [ensures_bind, ensures_bind, ensures_reply hId, ensures_pure]
  dsimp only
  rw [ensures_bind, ensures_modify]
  by_cases hHost : (o.reply t.calls).hypervisorHostname = hostName
  · rw [if_neg (not_not_intro hHost), ensures_pure]
    exact ⟨by simp [evacuated, hHost], rfl, rfl⟩
  · rw [if_pos hHost, ensures_pure]
    exact ⟨by simp [evacuated, hHost], rfl, rfl⟩

theorem pollStop_spec (hId : j.id = i.id) (t : Thread) :
    Ensures (pollStop o.nova j) t
      (fun done t' => done = decide ((o.reply t.calls).vmState = "stopped") ∧
        t'.calls = t.calls ++ [.getServer i.id] ∧ t'.polled = t.polled)
      (fun _ _ => False) := by
  unfold pollStop getStateAndHostOfInstance
  rw [ensures_bind, ensures_bind, ensures_reply hId, ensures_pure]
  exact ⟨rfl, rfl, rfl⟩

/-- The wait is ended by the first poll that shows the instance evacuated. -/
theorem waitForEvacuationConfirmation_spec (hId : j.id = i.id) (n : Nat) (t : Thread)
    (hPolled : t.polled = []) :
    Ensures (waitForEvacuationConfirmation o.nova hostName j n) t
      (fun _ t' => Confirmed hostName t' ∧ ∃ k,
        firstPoll i.id (fun calls => evacuated hostName j (o.reply calls)) n t.calls = some k ∧
        t'.calls = t.calls ++ List.replicate (k + 1) (.getServer i.id))
      (fun e t' => e = .timeout ∧ ¬ Confirmed hostName t' ∧
        firstPoll i.id (fun calls => evacuated hostName j (o.reply calls)) n t.calls = none ∧
        t'.calls = t.calls ++ List.replicate n (.getServer i.id)) := by
  unfold waitForEvacuationConfirmation
  have hPolls := ensures_waitFor_polls i.id (fun calls => evacuated hostName j (o.reply calls))
    (fun t => ensures_mono (pollEvacuation_spec hId t) (fun _ _ h => ⟨h.1, h.2.1⟩)
      fun _ _ h => h) n t
  have hSeen : Ensures (waitFor (pollEvacuation o.nova hostName j) n) t
      (fun _ => Confirmed hostName)
      (fun _ t' => ∀ p ∈ t'.polled, evacuated hostName p.1 p.2 = false) := by
    refine ensures_waitFor (I := fun t' => ∀ p ∈ t'.polled, evacuated hostName p.1 p.2 = false)
      (fun t₁ h₁ => ensures_mono (pollEvacuation_spec hId t₁) (fun done t₂ h₂ => ?_)
        fun _ _ h => h.elim) (fun _ h => h) n t ?_
    · obtain ⟨rfl, -, hPolled₂⟩ := h₂
      cases hDone : evacuated hostName j (o.reply t₁.calls) with
      | true =>
        refine ⟨(j, o.reply t₁.calls), ?_, hDone⟩
        rw [hPolled₂]
        exact List.mem_append_right _ (List.mem_singleton.mpr rfl)
      | false =>
        intro p hMem
        rw [hPolled₂] at hMem
        rcases List.mem_append.mp hMem with hOld | hNew
        · exact h₁ p hOld
        · cases List.mem_singleton.mp hNew
          exact hDone
    · rw [hPolled]
      intro p hMem
      cases hMem
  refine ensures_mono (ensures_and.mpr ⟨hPolls, hSeen⟩) (fun _ t' h => ⟨h.2, h.1⟩)
    fun e t' h => ⟨h.1.1, ?_, h.1.2⟩
  rintro ⟨p, hMem, hEvacuated⟩
  rw [h.2 p hMem] at hEvacuated
  cases hEvacuated

/-- `stop_server` and its wait; the polls of this wait are not those of the confirmation. -/
theorem stopAfterEvacuation_spec (hId : j.id = i.id) (t : Thread) :
    Ensures (stopAfterEvacuation o.nova j) t
      (fun _ t' => (firstPoll i.id (fun calls => (o.reply calls).vmState = "stopped") o.stopPolls
          (t.calls ++ [.stopServer i.id])).isSome = true ∧ t'.polled = t.polled ∧
        ∃ m, t'.calls = t.calls ++ [.stopServer i.id] ++ List.replicate m (.getServer i.id))
      (fun e t' => e = .timeout ∧
        (firstPoll i.id (fun calls => (o.reply calls).vmState = "stopped") o.stopPolls
          (t.calls ++ [.stopServer i.id])).isSome = false ∧ t'.polled = t.polled ∧
        ∃ m, t'.calls = t.calls ++ [.stopServer i.id] ++ List.replicate m (.getServer i.id)) := by
  unfold stopAfterEvacuation stopServer
  rw [ensures_bind, ensures_send, hId]
  change Ensures (waitFor (pollStop o.nova j) o.stopPolls) (t.call (.stopServer i.id)) _ _
  have hPolls := ensures_waitFor_polls i.id (fun calls => (o.reply calls).vmState = "stopped")
    (fun t => ensures_mono (pollStop_spec hId t) (fun _ _ h => ⟨h.1, h.2.1⟩) fun _ _ h => h)
    o.stopPolls (t.call (.stopServer i.id))
  have hKept : Ensures (waitFor (pollStop o.nova j) o.stopPolls) (t.call (.stopServer i.id))
      (fun _ t' => t'.polled = t.polled) (fun _ t' => t'.polled = t.polled) := by
    refine ensures_waitFor (I := fun t' => t'.polled = t.polled) (fun t₁ h₁ => ?_)
      (fun _ h => h) o.stopPolls (t.call (.stopServer i.id)) rfl
    refine ensures_mono (pollStop_spec hId t₁) (fun done t₂ h₂ => ?_) fun _ _ h => h.elim
    rw [h₂.2.2]
    split <;> exact h₁
  refine ensures_mono (ensures_and.mpr ⟨hPolls, hKept⟩) ?_ ?_
  · rintro _ t' ⟨⟨k, hFirst, hCalls⟩, hPolled⟩
    exact ⟨Option.isSome_of_mem hFirst, hPolled, k + 1, hCalls⟩
  · rintro e t' ⟨⟨hTimeout, hFirst, hCalls⟩, hPolled⟩
    refine ⟨hTimeout, ?_, hPolled, o.stopPolls, hCalls⟩
    rw [show (t.calls ++ [NovaCall.stopServer i.id]) = (t.call (.stopServer i.id)).calls from rfl,
      hFirst]
    rfl

/-- What the inner `try` block does to the instance, from the calls `c` on: nothing before the
confirmation; then it is stopped as asked, and reset if it is to be in error and did stop. -/
structure Restored (o : Obliging i) (hostName : String) (j : Server) (vmState : String)
    (stopInstance : Bool) (c : List NovaCall) (t : Thread) : Prop where
  confirmed : Confirmed hostName t ↔
    (firstPoll i.id (fun calls => evacuated hostName j (o.reply calls)) o.evacuationPolls c).isSome
      = true
  calls : ∃ rest, t.calls = c ++ rest ∧ ∀ k,
    firstPoll i.id (fun calls => evacuated hostName j (o.reply calls)) o.evacuationPolls c =
        some k →
      (NovaCall.stopServer i.id ∈ rest ↔ vmState ≠ "active" ∧ stopInstance = true) ∧
      (NovaCall.resetInstanceState i.id ∈ rest ↔ vmState = "error" ∧ stopInstance = true ∧
        (firstPoll i.id (fun calls => (o.reply calls).vmState = "stopped") o.stopPolls
          (c ++ List.replicate (k + 1) (.getServer i.id) ++ [.stopServer i.id])).isSome = true)

/-- The calls after a confirmation decide what was restored. -/
theorem restored_of_confirmed {vmState : String} {stopInstance : Bool} {c : List NovaCall}
    {t : Thread} (hConfirmed : Confirmed hostName t) {k : Nat} {rest : List NovaCall}
    (hFirst : firstPoll i.id (fun calls => evacuated hostName j (o.reply calls))
      o.evacuationPolls c = some k)
    (hCalls : t.calls = c ++ rest)
    (hStop : NovaCall.stopServer i.id ∈ rest ↔ vmState ≠ "active" ∧ stopInstance = true)
    (hReset : NovaCall.resetInstanceState i.id ∈ rest ↔ vmState = "error" ∧ stopInstance = true ∧
      (firstPoll i.id (fun calls => (o.reply calls).vmState = "stopped") o.stopPolls
        (c ++ List.replicate (k + 1) (.getServer i.id) ++ [.stopServer i.id])).isSome = true) :
    Restored o hostName j vmState stopInstance c t := by
  refine ⟨iff_of_true hConfirmed (Option.isSome_of_mem hFirst), rest, hCalls, fun k' hk' => ?_⟩
  rw [hFirst] at hk'
  cases hk'
  exact ⟨hStop, hReset⟩

/-- A confirmed instance that is not to run: it is stopped, and then reset if it is to be in
error. -/
theorem restored_of_stop (hId : j.id = i.id) {vmState : String} (hActive : vmState ≠ "active")
    {c : List NovaCall} {t : Thread} (hConfirmed : Confirmed hostName t) {k : Nat}
    (hFirst : firstPoll i.id (fun calls => evacuated hostName j (o.reply calls))
      o.evacuationPolls c = some k)
    (hCalls : t.calls = c ++ List.replicate (k + 1) (.getServer i.id)) :
    Ensures (stopAfterEvacuation o.nova j >>= fun _ =>
        if vmState = "error" then resetInstanceState o.nova j.id else pure ()) t
      (fun _ => Restored o hostName j vmState true c)
      (fun e t' => e = .timeout ∧ Restored o hostName j vmState true c t') := by
  rw [ensures_bind]
  refine ensures_mono (stopAfterEvacuation_spec hId t) ?_ ?_
  · rintro _ t₂ ⟨hStopped, hPolled₂, m, hCalls₂⟩
    have hConfirmed₂ := confirmed_congr hPolled₂ hConfirmed
    rw [hCalls] at hStopped hCalls₂
    by_cases hError : vmState = "error"
    · rw [if_pos hError]
      unfold resetInstanceState
      rw [ensures_send, hId]
      have hCalls₃ : (t₂.call (.resetInstanceState i.id)).calls =
          c ++ (List.replicate (k + 1) (.getServer i.id) ++ ([.stopServer i.id] ++
            (List.replicate m (.getServer i.id) ++ [.resetInstanceState i.id]))) := by
        change t₂.calls ++ _ = _
        rw [hCalls₂]
        simp only [List.append_assoc]
      refine restored_of_confirmed hConfirmed₂ hFirst hCalls₃ ?_ ?_
      · exact iff_of_true (by simp) ⟨hActive, rfl⟩
      · exact iff_of_true (by simp) ⟨hError, rfl, hStopped⟩
    · rw [if_neg hError]
      simp only [List.append_assoc] at hCalls₂
      refine restored_of_confirmed hConfirmed₂ hFirst hCalls₂ ?_ ?_
      · exact iff_of_true (by simp) ⟨hActive, rfl⟩
      · exact iff_of_false (by simp) fun h => hError h.1
  · rintro e t₂ ⟨hTimeout, hStopped, hPolled₂, m, hCalls₂⟩
    have hConfirmed₂ := confirmed_congr hPolled₂ hConfirmed
    rw [hCalls] at hStopped hCalls₂
    simp only [List.append_assoc] at hCalls₂
    refine ⟨hTimeout, restored_of_confirmed hConfirmed₂ hFirst hCalls₂ ?_ ?_⟩
    · exact iff_of_true (by simp) ⟨hActive, rfl⟩
    · refine iff_of_false (by simp) fun h => ?_
      rw [h.2.2] at hStopped
      cases hStopped

theorem confirmAndRestore_spec (hId : j.id = i.id) (vmState : String) (stopInstance : Bool)
    (t : Thread) (hPolled : t.polled = []) :
    Ensures (confirmAndRestore o.nova hostName j vmState stopInstance) t
      (fun _ => Restored o hostName j vmState stopInstance t.calls) (fun _ _ => False) := by
  unfold confirmAndRestore
  rw [ensures_except, ensures_bind]
  refine ensures_mono (waitForEvacuationConfirmation_spec hId o.evacuationPolls t hPolled) ?_ ?_
  · rintro _ t₁ ⟨hConfirmed, k, hFirst, hCalls⟩
    -- Without `stop_server` the thread has only polled since.
    have hQuiet : ∀ c, c ≠ .getServer i.id → c ∉ List.replicate (k + 1) (NovaCall.getServer i.id) :=
      fun c hNe hMem => hNe (List.eq_of_mem_replicate hMem)
    by_cases hActive : vmState = "active"
    · rw [if_neg (not_not_intro hActive)]
      refine restored_of_confirmed hConfirmed hFirst hCalls ?_ ?_
      · exact iff_of_false (hQuiet _ (by simp)) fun h => h.1 hActive
      · refine iff_of_false (hQuiet _ (by simp)) fun h => ?_
        rw [hActive] at h
        simp at h
    rw [if_pos hActive]
    cases stopInstance with
    | false =>
      refine restored_of_confirmed hConfirmed hFirst hCalls ?_ ?_
      · exact iff_of_false (hQuiet _ (by simp)) fun h => by cases h.2
      · exact iff_of_false (hQuiet _ (by simp)) fun h => by cases h.2.1
    | true =>
      rw [if_pos rfl]
      refine ensures_mono (restored_of_stop hId hActive hConfirmed hFirst hCalls)
        (fun _ _ h => h) ?_
      rintro e t₂ ⟨rfl, hRestored⟩
      rw [if_pos (decide_eq_true rfl), ensures_modify]
      obtain ⟨hPoll, hRest⟩ := hRestored
      exact ⟨hPoll, hRest⟩
  · rintro e t₁ ⟨rfl, hNot, hFirst, hCalls⟩
    rw [if_pos (decide_eq_true rfl), ensures_modify]
    refine ⟨iff_of_false hNot ?_, _, hCalls, fun k hk => ?_⟩
    · rw [hFirst]
      exact Bool.false_ne_true
    · rw [hFirst] at hk
      cases hk

theorem lockInstance_spec :
    Ensures (lockInstance o.nova i.id) {}
      (fun _ t => t.calls = lockCalls o ∧ t.polled = []) (fun _ _ => False) := by
  unfold lockInstance lockServer lockCalls
  rw [ensures_bind, ensures_reply rfl]
  change Ensures (if (o.reply []).locked = true then _ else _) _ _ _
  by_cases hLocked : (o.reply []).locked = true
  · rw [if_pos hLocked, if_pos hLocked]
    exact ⟨rfl, rfl⟩
  · rw [if_neg hLocked, if_neg hLocked, ensures_bind, ensures_send]
    exact ⟨rfl, rfl⟩

/-- A reset, and the instance read again. -/
theorem ensures_resetAndRead {α : Type} {f : Server → ThreadM α} {Q : α → Thread → Prop}
    {E : Exc → Thread → Prop} :
    Ensures (resetInstanceState o.nova i.id >>= fun _ => getServer o.nova i.id >>= f) t Q E ↔
      Ensures (f (o.reply (t.calls ++ [.resetInstanceState i.id])))
        ((t.call (.resetInstanceState i.id)).call (.getServer i.id)) Q E := by
  unfold resetInstanceState
  rw [ensures_bind, ensures_send]
  change Ensures (getServer o.nova i.id >>= f) (t.call (.resetInstanceState i.id)) Q E ↔ _
  rw [ensures_bind, ensures_reply rfl]
  rfl

/-- What the lines before the evacuation leave to the rest. -/
theorem resetForEvacuation_spec (target : Option String) (hCalls : t.calls = lockCalls o)
    (hPolled : t.polled = []) :
    Ensures (resetForEvacuation o.nova i) t
      (fun r t' => r.1 = compared o ∧ r.2.1 = (if refused i then "error" else i.vmState) ∧
        (r.2.1 ≠ "active" ∧ r.2.2 = true ↔ keepsRunning i = false) ∧
        t'.calls ++ [.evacuateInstance i.id target] = evacuateCalls o target ∧ t'.polled = [])
      (fun _ _ => False) := by
  unfold resetForEvacuation compared evacuateCalls
  by_cases hRefused : i.vmState ∉ ["active", "error", "stopped"]
  · have hTrue : refused i = true := decide_eq_true hRefused
    have hNotActive : i.vmState ≠ "active" := fun h => hRefused (by simp [h])
    have hError : (o.reply (lockCalls o ++ [.resetInstanceState i.id])).vmState = "error" :=
      o.vmState_reset _
    have hPower : (o.reply (lockCalls o ++ [.resetInstanceState i.id])).powerState =
        i.powerState := o.powerState_reset _
    rw [if_pos hRefused, hTrue, ensures_resetAndRead, ensures_pure, hCalls]
    refine ⟨rfl, hError, ?_, ?_, hPolled⟩
    · rw [hError, hPower]
      simp [keepsRunning, hNotActive, imp_iff_not_or]
    · change t.calls ++ _ ++ _ ++ _ = _
      rw [hCalls]
      simp
  · have hFalse : refused i = false := decide_eq_false hRefused
    have hAccepted : i.vmState = "active" ∨ i.vmState = "error" ∨ i.vmState = "stopped" := by
      simpa using not_not.mp hRefused
    have hResized : i.vmState ≠ "resized" := by
      intro h
      simp [h] at hAccepted
    rw [if_neg hRefused, hFalse]
    by_cases hTask : i.taskState ≠ none
    · rw [if_pos hTask, ensures_resetAndRead, ensures_pure, hCalls]
      refine ⟨?_, rfl, ?_, ?_, hPolled⟩
      · rw [if_pos (by simpa using hTask)]
      · simp [keepsRunning, hResized]
      · rw [if_pos (by simpa using hTask)]
        change t.calls ++ _ ++ _ ++ _ = _
        rw [hCalls]
        simp
    · rw [if_neg hTask, ensures_pure]
      refine ⟨?_, rfl, ?_, ?_, hPolled⟩
      · rw [if_neg (by simpa using hTask)]
      · simp [keepsRunning, hResized]
      · rw [if_neg (by simpa using hTask), hCalls]

theorem compared_id : (compared o).id = i.id := by
  unfold compared
  split <;> rfl

theorem afterEvacuation_append {front back : List NovaCall} {id : String}
    (h : ∀ c ∈ front, ∀ id target, c ≠ .evacuateInstance id target) :
    afterEvacuation (front ++ .evacuateInstance id target :: back) = back := by
  induction front with
  | nil => rfl
  | cons c cs ih =>
    have hRest := ih fun c' hMem => h c' (List.mem_cons_of_mem c hMem)
    cases c with
    | evacuateInstance id' target' => exact absurd rfl (h _ List.mem_cons_self id' target')
    | getServer id' => exact hRest
    | lockServer id' => exact hRest
    | resetInstanceState id' => exact hRest
    | stopServer id' => exact hRest
    | unlockServer id' => exact hRest

/-- The calls before `evacuate_instance` neither evacuate nor stop the instance. -/
theorem mem_frontCalls {c : NovaCall}
    (h : c ∈ (if refused i || i.taskState ≠ none then
      lockCalls o ++ [.resetInstanceState i.id, .getServer i.id] else lockCalls o)) :
    c = .getServer i.id ∨ c = .lockServer i.id ∨ c = .resetInstanceState i.id := by
  have hLock : ∀ c ∈ lockCalls o, c = .getServer i.id ∨ c = .lockServer i.id := by
    intro c hMem
    unfold lockCalls at hMem
    split at hMem <;> simp at hMem <;> simp [hMem]
  split at h
  · rcases List.mem_append.mp h with hOld | hNew
    · rcases hLock c hOld with hGet | hLocks
      · exact Or.inl hGet
      · exact Or.inr (Or.inl hLocks)
    · simp only [List.mem_cons, List.not_mem_nil, or_false] at hNew
      rcases hNew with hReset | hGet
      · exact Or.inr (Or.inr hReset)
      · exact Or.inl hGet
  · rcases hLock c h with hGet | hLocks
    · exact Or.inl hGet
    · exact Or.inr (Or.inl hLocks)

/-- What the greenthread has done at its end. -/
structure Done (o : Obliging i) (hostName : String) (target : Option String) (t : Thread) :
    Prop where
  confirmed : Confirmed hostName t ↔ (evacuationPoll o hostName target).isSome = true
  calls : ∃ rest, t.calls = evacuateCalls o target ++ rest ∧
    ∀ k, evacuationPoll o hostName target = some k →
      (NovaCall.stopServer i.id ∈ rest ↔ keepsRunning i = false) ∧
      (NovaCall.resetInstanceState i.id ∈ rest ↔ (refused i = true ∨ i.vmState = "error") ∧
        keepsRunning i = false ∧ stopConfirmed o target k = true)

theorem done_call (h : Done o hostName target t) {c : NovaCall}
    (hStop : c ≠ .stopServer i.id) (hReset : c ≠ .resetInstanceState i.id) :
    Done o hostName target (t.call c) := by
  obtain ⟨rest, hCalls, hRest⟩ := h.calls
  refine ⟨h.confirmed, rest ++ [c], ?_, fun k hk => ?_⟩
  · change t.calls ++ [c] = _
    rw [hCalls, List.append_assoc]
  · rw [List.mem_append, List.mem_append, List.mem_singleton, List.mem_singleton,
      or_iff_left hStop.symm, or_iff_left hReset.symm]
    exact hRest k hk

theorem evacuate_spec (hCalls : t.calls = lockCalls o) (hPolled : t.polled = []) :
    Ensures (evacuate o.nova hostName target i) t (fun _ => Done o hostName target)
      (fun _ _ => False) := by
  unfold evacuate evacuateInstance
  rw [ensures_bind]
  refine ensures_mono (resetForEvacuation_spec target hCalls hPolled) ?_
    fun _ _ h => h
  rintro ⟨j, vmState, stopInstance⟩ t₁ ⟨hCompared, hVmState, hStop, hCalls₁, hPolled₁⟩
  dsimp only at hCompared hVmState hStop ⊢
  have hId : j.id = i.id := hCompared ▸ compared_id
  rw [ensures_bind, ensures_send, hId]
  have hEvacuate : (t₁.call (.evacuateInstance i.id target)).calls = evacuateCalls o target :=
    hCalls₁
  refine ensures_mono (confirmAndRestore_spec hId vmState stopInstance
    (t₁.call (.evacuateInstance i.id target)) hPolled₁) (fun _ t₂ h => ?_) fun _ _ h => h
  obtain ⟨hConfirmed, rest, hRest, hActions⟩ := h
  subst hCompared
  rw [hEvacuate] at hConfirmed hRest hActions
  refine ⟨hConfirmed, rest, hRest, fun k hk => ?_⟩
  obtain ⟨hStops, hResets⟩ := hActions k hk
  refine ⟨hStops.trans hStop, hResets.trans ?_⟩
  have hError : vmState = "error" ↔ refused i = true ∨ i.vmState = "error" := by
    rw [hVmState]
    cases refused i with
    | true => exact iff_of_true rfl (Or.inl rfl)
    | false => simp
  constructor
  · rintro ⟨hVm, hStopInstance, hStopped⟩
    have hNotActive : vmState ≠ "active" := by
      rw [hVm]
      decide
    exact ⟨hError.mp hVm, hStop.mp ⟨hNotActive, hStopInstance⟩, hStopped⟩
  · rintro ⟨hVm, hKeeps, hStopped⟩
    exact ⟨hError.mpr hVm, (hStop.mpr hKeeps).2, hStopped⟩

/-- A greenthread of an obliging nova ends in a `Done` state. -/
theorem runThread_done (o : Obliging i) (hostName : String) (target : Option String) :
    Done o hostName target (runThread o.nova hostName target i) := by
  have hEnds : Ensures (evacuateAndConfirm o.nova hostName target i) {}
      (fun _ => Done o hostName target) (fun _ _ => False) := by
    unfold evacuateAndConfirm
    rw [ensures_bind]
    refine ensures_mono lockInstance_spec (fun alreadyLocked t₁ h₁ => ?_) fun _ _ h => h
    rw [ensures_finally, ensures_except]
    refine ensures_mono (evacuate_spec h₁.1 h₁.2) (fun _ t₂ h₂ => ?_) fun _ _ h => h.elim
    cases alreadyLocked with
    | true => exact h₂
    | false =>
      rw [if_neg Bool.false_ne_true]
      unfold unlockServer
      rw [ensures_send]
      exact done_call h₂ (by simp) (by simp)
  exact ends_runThread (ensures_mono hEnds (fun _ _ h => h) fun _ _ h => h.elim)

end Calls

/-! ## What becomes of an instance -/

/-- A `stop_server` stands after `evacuate_instance`, and nothing else does but the rest. -/
theorem calls_of_done {i : Server} {o : Obliging i} {target : Option String} {t : Thread}
    {rest : List NovaCall} (hCalls : t.calls = evacuateCalls o target ++ rest) :
    afterEvacuation t.calls = rest ∧
      (NovaCall.stopServer i.id ∈ t.calls ↔ NovaCall.stopServer i.id ∈ rest) := by
  rw [hCalls]
  unfold evacuateCalls
  constructor
  · rw [List.append_assoc, List.singleton_append]
    apply afterEvacuation_append
    intro c hMem id target' hc
    rcases mem_frontCalls hMem with h | h | h <;> rw [h] at hc <;> cases hc
  · rw [List.mem_append, List.mem_append, List.mem_singleton]
    refine ⟨fun h => ?_, Or.inr⟩
    rcases h with (hFront | hEvacuate) | hRest
    · rcases mem_frontCalls hFront with h | h | h <;> cases h
    · cases hEvacuate
    · exact hRest

theorem keepsRunning_eq_false (i : Server) :
    keepsRunning i = false ↔
      i.vmState ≠ "active" ∧ ¬ (i.vmState = "resized" ∧ i.powerState ≠ shutdown) := by
  simp [keepsRunning]

/-- An instance is left as it was exactly when the actions of a confirmed evacuation fit its old
state: one in error is reset only if it is seen stopped in time, and one that nova refused to
evacuate is reset like one in error, if it is stopped at all. -/
theorem restoresState_iff {i : Server} (o : Obliging i) (hostName : String)
    (target : Option String) :
    RestoresState o hostName target ↔ ∀ k, evacuationPoll o hostName target = some k →
      (i.vmState = "error" → stopConfirmed o target k = true) ∧
      (refused i = true → keepsRunning i = false → stopConfirmed o target k = false) := by
  obtain ⟨hConfirmed, rest, hCalls, hRest⟩ := runThread_done o hostName target
  obtain ⟨hAfter, hStop⟩ := calls_of_done hCalls
  unfold RestoresState
  dsimp only
  rw [hAfter, hStop, hConfirmed, ← keepsRunning_eq_false]
  cases hPoll : evacuationPoll o hostName target with
  | none => simp
  | some k =>
    obtain ⟨hStops, hResets⟩ := hRest k hPoll
    have hActive : i.vmState = "active" → keepsRunning i = true := by
      intro h
      simp [keepsRunning, h]
    have hError : i.vmState = "error" → keepsRunning i = false ∧ refused i = false := by
      intro h
      simp [keepsRunning, refused, h]
    rw [hStops, hResets]
    constructor
    · rintro h k' ⟨⟩
      obtain ⟨hReset, -, -⟩ := h rfl
      refine ⟨fun hOld => (hReset.mpr hOld).2.2, fun hRefused hKeeps => ?_⟩
      -- A refused instance was not in error, so it must not have been reset.
      cases hStopped : stopConfirmed o target k with
      | false => rfl
      | true =>
        have hOld := hReset.mp ⟨Or.inl hRefused, hKeeps, hStopped⟩
        rw [(hError hOld).2] at hRefused
        cases hRefused
    · intro h hSome
      obtain ⟨hInError, hRefused⟩ := h k rfl
      refine ⟨⟨?_, fun hOld => ?_⟩, Iff.rfl, fun hOld hKeeps => ?_⟩
      · rintro ⟨hRefusedOrError, hKeeps, hStopped⟩
        rcases hRefusedOrError with hRef | hOld
        · rw [hRefused hRef hKeeps] at hStopped
          cases hStopped
        · exact hOld
      · exact ⟨Or.inr hOld, (hError hOld).1, hInError hOld⟩
      · rw [hActive hOld] at hKeeps
        cases hKeeps

/-- A paused instance, which nova shows evacuated and stopped at the first poll. -/
def pausedInstance : Server where
  id := "i-1"
  host := "compute-1"
  hypervisorHostname := "compute-1"
  vmState := "paused"
  taskState := none
  powerState := 3
  locked := false
  metadata := ∅

def evacuatesPaused : Obliging pausedInstance where
  getServer calls :=
    { pausedInstance with
      host := "compute-2"
      hypervisorHostname := "compute-2"
      vmState := if NovaCall.stopServer "i-1" ∈ calls ∧
        calls.getLast? ≠ some (.resetInstanceState "i-1") then "stopped" else "error" }
  evacuationPolls := 30
  stopPolls := 60
  vmState_reset calls := by simp [pausedInstance]
  powerState_reset _ := rfl

/-- The paused instance is left in error: it is reset after it has been stopped. -/
theorem not_alwaysRestoresState :
    ¬ ∀ (i : Server) (o : Obliging i) (hostName : String) (target : Option String),
      RestoresState o hostName target := by
  intro h
  have hConfirmed : Confirmed "compute-1"
      (runThread evacuatesPaused.nova "compute-1" none pausedInstance) := by
    unfold Confirmed
    decide
  have hReset : NovaCall.resetInstanceState pausedInstance.id ∈
      afterEvacuation (runThread evacuatesPaused.nova "compute-1" none pausedInstance).calls := by
    decide
  have hPaused := (h pausedInstance evacuatesPaused "compute-1" none hConfirmed).1.mp hReset
  simp [pausedInstance] at hPaused

end MasakariHA.Engine
