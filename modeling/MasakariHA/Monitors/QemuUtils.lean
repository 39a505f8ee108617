import Mathlib.Data.List.TakeWhile
import MasakariHA.Lib.Ensures
import MasakariHA.Lib.Trans
import MasakariHA.Exception

/-!
# The introspective instance monitor

`qemu_utils.py` on one domain: the journal with its state machine, the ping of the guest
agent and the notification of a guest that stopped answering.

* `nextStates`, `Journal`: the machine and its counters;
* `qemuAgentGuestPing`: one ping;
* `Guest`: the journal with what happened so far, the newest first;
* `Due`: the history asks for a notification;
* `Tracks`: what the journal knows of the history, with `tracks_step`;
* `notified_iff_due`: the notifier is called exactly when the history asks for it.
-/

namespace MasakariHA.Monitors.QemuUtils

open Lib

/-! ## The state machine -/

inductive VmState where
  | discovery
  | healthy
  | error
  | reported
  deriving DecidableEq, Repr

inductive Trigger where
  | guestPingable
  | guestNotPingable
  | report
  deriving DecidableEq, Repr

/-- `next_states` of `STATE_SPACE`. -/
def nextStates : VmState → Trigger → Option VmState
  | .discovery, .guestPingable => some .healthy
  | .discovery, .guestNotPingable => some .discovery
  | .healthy, .guestPingable => some .healthy
  | .healthy, .guestNotPingable => some .error
  | .error, .report => some .reported
  | .error, .guestPingable => some .healthy
  | .error, .guestNotPingable => some .error
  | .reported, .guestPingable => some .discovery
  | .reported, .guestNotPingable => some .reported
  | _, _ => none

structure Journal where
  currentState : VmState
  failedCount : Nat
  sentNotification : Bool
  deriving DecidableEq, Repr

/-- `Journal.factory`. -/
def Journal.factory : Journal := ⟨.discovery, 0, false⟩

/-- `Journal.resetState`: the machine is initialized again. -/
def Journal.resetState (_ : Journal) : Journal := ⟨.discovery, 0, false⟩

/-! ## A ping -/

/-- The journal, and how the notifier ended if it was called: it returned (`none`), or it
raised. -/
structure Ping where
  journal : Journal
  notified : Option (Option Exc)

abbrev PingM := EStateM Exc Ping

/-- `process_event`: the machine raises `NotFound` where it has no transition. -/
def processEvent (t : Trigger) : PingM Unit := do
  let s ← get
  match nextStates s.journal.currentState t with
  | some st => set { s with journal := { s.journal with currentState := st } }
  | none => throw (.other "NotFound")

def incrementFailedCount : PingM Unit :=
  modify fun s =>
    if s.journal.currentState = .error then
      { s with journal := { s.journal with failedCount := s.journal.failedCount + 1 } }
    else s

def resetFailedCount : PingM Unit :=
  modify fun s => { s with journal := { s.journal with failedCount := 0 } }

def setSentNotification (boolean : Bool) : PingM Unit :=
  modify fun s => { s with journal := { s.journal with sentNotification := boolean } }

/-- `_thresholdsCrossing`. -/
def thresholdsCrossing (threshold : Nat) (j : Journal) : Bool :=
  j.currentState = .error && threshold < j.failedCount

/-- The call of the notifier, which ends as given. -/
def sendNotification (outcome : Option Exc) : PingM Unit := do
  modify fun s => { s with notified := some outcome }
  match outcome with
  | none => pure ()
  | some e => throw e

/-- `_masakari_notifier`. -/
def masakariNotifier (outcome : Option Exc) : PingM Unit := do
  let s ← get
  if s.journal.sentNotification then pure ()
  else
    tryCatch
      (do
        sendNotification outcome
        processEvent .report
        setSentNotification true)
      (fun e => if e.isException then pure () else throw e)

def noHeartbeat : PingM Unit := do
  processEvent .guestNotPingable
  incrementFailedCount

def withHeartbeat : PingM Unit := do
  resetFailedCount
  processEvent .guestPingable

/-- `_qemuAgentGuestPing`, with the end of the notifier should it be called. -/
def qemuAgentGuestPing (threshold : Nat) (answered : Bool) (outcome : Option Exc) :
    PingM Unit := do
  if answered then withHeartbeat
  else
    let s ← get
    if thresholdsCrossing threshold s.journal then masakariNotifier outcome
    noHeartbeat

/-! ## Histories -/

inductive Event where
  | ping (answered : Bool) (outcome : Option Exc)
  /-- `resetJournal`. -/
  | reset

/-- An event, and how the notifier ended if it was called. -/
structure Entry where
  event : Event
  notified : Option (Option Exc)

namespace Entry

def isReset (e : Entry) : Bool :=
  match e.event with
  | .reset => true
  | .ping .. => false

/-- A ping without an answer. -/
def missed (e : Entry) : Bool :=
  match e.event with
  | .ping answered _ => !answered
  | .reset => false

/-- A ping with an answer. -/
def answered (e : Entry) : Bool :=
  match e.event with
  | .ping answered _ => answered
  | .reset => false

/-- The notifier was called and returned. -/
def sent (e : Entry) : Bool :=
  match e.event with
  | .ping .. => e.notified = some none
  | .reset => false

end Entry

/-- The journal of the domain and its history, newest first. -/
structure Guest where
  journal : Journal
  history : List Entry

/-- An event on a journal: the journal after it, and what to record. -/
def observe (threshold : Nat) (j : Journal) : Event → Journal × Entry
  | .reset => (j.resetState, ⟨.reset, none⟩)
  | .ping answered outcome =>
    match (qemuAgentGuestPing threshold answered outcome).run ⟨j, none⟩ with
    | .ok _ s | .error _ s => (s.journal, ⟨.ping answered outcome, s.notified⟩)

/-- A domain whose journal stays in the cache. -/
def guest (threshold : Nat) : Trans Guest Event where
  init g := g = ⟨.factory, []⟩
  step g event :=
    some ⟨(observe threshold g.journal event).1, (observe threshold g.journal event).2 :: g.history⟩

/-- The pings since the last reset, or since the start. -/
def sinceReset (h : List Entry) : List Entry := h.takeWhile (!·.isReset)

/-- No notification was sent since the last reset, and a ping since then had an answer which
more than `threshold` missed ones followed, up to now. -/
def Due (threshold : Nat) (h : List Entry) : Prop :=
  (∀ e ∈ sinceReset h, e.sent = false) ∧
    ∃ misses a rest, sinceReset h = misses ++ a :: rest ∧ (∀ m ∈ misses, m.missed = true) ∧
      a.answered = true ∧ threshold + 1 ≤ misses.length

/-! ## What an event does to the journal -/

section Observe

variable {threshold : Nat} {j : Journal} {outcome : Option Exc}

/-- The journal after a missed ping without a notification. -/
def Journal.miss (j : Journal) : Journal :=
  match j.currentState with
  | .discovery | .reported => j
  | .healthy | .error => { j with currentState := .error, failedCount := j.failedCount + 1 }

/-- The journal after an answered ping. -/
def Journal.recover (j : Journal) : Journal :=
  match j.currentState with
  | .discovery | .healthy | .error => { j with currentState := .healthy, failedCount := 0 }
  | .reported => { j with currentState := .discovery, failedCount := 0 }

theorem run_noHeartbeat (notified : Option (Option Exc)) :
    noHeartbeat.run ⟨j, notified⟩ = .ok () ⟨j.miss, notified⟩ := by
  obtain ⟨currentState, failedCount, sentNotification⟩ := j
  cases currentState <;> rfl

theorem observe_answered :
    observe threshold j (.ping true outcome) = (j.recover, ⟨.ping true outcome, none⟩) := by
  obtain ⟨currentState, failedCount, sentNotification⟩ := j
  cases currentState <;> rfl

/-- The run of an unanswered ping. -/
theorem run_missed : (qemuAgentGuestPing threshold false outcome).run ⟨j, none⟩ =
    if thresholdsCrossing threshold j = true then
      (masakariNotifier outcome >>= fun _ => noHeartbeat).run ⟨j, none⟩
    else noHeartbeat.run ⟨j, none⟩ := by
  change EStateM.run (if thresholdsCrossing threshold j = true then
    (masakariNotifier outcome >>= fun _ => noHeartbeat) else noHeartbeat) _ = _
  split <;> rfl

/-- Below the threshold, or after a notification, the notifier is not called. -/
theorem observe_quiet (h : thresholdsCrossing threshold j = false ∨ j.sentNotification = true) :
    observe threshold j (.ping false outcome) = (j.miss, ⟨.ping false outcome, none⟩) := by
  have hRun : (qemuAgentGuestPing threshold false outcome).run ⟨j, none⟩ =
      noHeartbeat.run ⟨j, none⟩ := by
    rw [run_missed]
    split
    · rename_i hCrossing
      rcases h with hBelow | hSent
      · rw [hBelow] at hCrossing
        cases hCrossing
      · obtain ⟨currentState, failedCount, sentNotification⟩ := j
        cases hSent
        rfl
    · rfl
  simp only [observe, hRun, run_noHeartbeat]

/-- The journal after a call of the notifier. -/
def Journal.notify (outcome : Option Exc) (j : Journal) : Journal :=
  match outcome with
  | none => { j with currentState := .reported, sentNotification := true }
  | some e => if e.isException then j.miss else j

theorem thresholdsCrossing_iff :
    thresholdsCrossing threshold j = true ↔
      j.currentState = .error ∧ threshold < j.failedCount := by
  simp [thresholdsCrossing]

theorem observe_called (hCrossing : thresholdsCrossing threshold j = true)
    (hSent : j.sentNotification = false) : observe threshold j (.ping false outcome) =
      (j.notify outcome, ⟨.ping false outcome, some outcome⟩) := by
  obtain ⟨hError, _⟩ := thresholdsCrossing_iff.mp hCrossing
  obtain ⟨currentState, failedCount, sentNotification⟩ := j
  cases hError
  cases hSent
  simp only [observe, run_missed, if_pos hCrossing]
  cases outcome with
  | none => rfl
  | some e =>
    cases e with
    | timeout => rfl
    | masakari cls message => rfl
    | other cls => rfl

end Observe

/-! ## Reading a history -/

section History

variable {threshold : Nat} {h : List Entry} {e : Entry}

/-- The missed pings after the last answer since the reset. -/
def missedSince (h : List Entry) : List Entry := (sinceReset h).takeWhile (·.missed)

/-- A ping had an answer since the reset. -/
def foundSince (h : List Entry) : Bool := (sinceReset h).any (·.answered)

theorem sinceReset_ping (he : e.isReset = false) : sinceReset (e :: h) = e :: sinceReset h := by
  simp [sinceReset, he]

theorem sinceReset_reset (he : e.isReset = true) : sinceReset (e :: h) = [] := by
  simp [sinceReset, he]

theorem answered_of_not_missed (hReset : e.isReset = false) (hMissed : e.missed = false) :
    e.answered = true := by
  obtain ⟨event, notified⟩ := e
  cases event with
  | ping answered outcome => simpa [Entry.missed, Entry.answered] using hMissed
  | reset => cases hReset

theorem not_missed_of_answered (hAnswered : e.answered = true) : e.missed = false := by
  obtain ⟨event, notified⟩ := e
  cases event with
  | ping answered outcome => simpa [Entry.missed, Entry.answered] using hAnswered
  | reset => cases hAnswered

theorem not_reset_of_mem (he : e ∈ sinceReset h) : e.isReset = false := by
  have := List.mem_takeWhile_imp he
  simpa using this

/-- The missed pings of a history that is due are all missed pings since the last answer. -/
theorem due_iff : Due threshold h ↔ (sinceReset h).any (·.sent) = false ∧ foundSince h = true ∧
    threshold < (missedSince h).length := by
  have hQuiet : (∀ e ∈ sinceReset h, e.sent = false) ↔ (sinceReset h).any (·.sent) = false := by
    simp
  unfold Due
  rw [hQuiet]
  refine and_congr_right fun _ => ⟨?_, ?_⟩
  · rintro ⟨misses, a, rest, hSplit, hMisses, hAnswered, hLength⟩
    have hTake : missedSince h = misses := by
      have hNot := not_missed_of_answered hAnswered
      rw [missedSince, hSplit, List.takeWhile_append_of_pos hMisses,
        List.takeWhile_cons_of_neg (by simp [hNot]), List.append_nil]
    refine ⟨List.any_eq_true.mpr ⟨a, by simp [hSplit], hAnswered⟩, ?_⟩
    rw [hTake]
    exact hLength
  · rintro ⟨hFound, hLength⟩
    have hSplit := List.takeWhile_append_dropWhile (p := (·.missed)) (l := sinceReset h)
    cases hDrop : (sinceReset h).dropWhile (·.missed) with
    | nil =>
      -- All pings since the reset are missed: none had an answer.
      obtain ⟨a, hMem, hAnswered⟩ := List.any_eq_true.mp hFound
      have hMissed := List.dropWhile_eq_nil_iff.mp hDrop a hMem
      rw [not_missed_of_answered hAnswered] at hMissed
      cases hMissed
    | cons a rest =>
      rw [hDrop] at hSplit
      refine ⟨missedSince h, a, rest, hSplit.symm, ?_, ?_, hLength⟩
      · intro m hm
        exact List.mem_takeWhile_imp hm
      · have hMem : a ∈ sinceReset h := by
          rw [← hSplit]
          simp
        have hHead : a.missed = false := by
          have := List.head?_dropWhile_not (fun e : Entry => e.missed) (sinceReset h)
          rw [hDrop] at this
          simpa using this
        exact answered_of_not_missed (not_reset_of_mem hMem) hHead

end History

/-! ## What the journal knows of the history -/

/-- The state and the counter of a journal that has sent nothing since the reset, after
`missed` pings since the last answer, if there was one. -/
def Awake (threshold : Nat) (j : Journal) (found : Bool) (missed : Nat) : Prop :=
  match j.currentState with
  | .discovery => found = false ∧ j.failedCount = 0
  | .healthy => found = true ∧ missed = 0 ∧ j.failedCount = 0
  | .error => found = true ∧ j.failedCount ≤ missed ∧
      (j.failedCount = missed ∨ threshold < j.failedCount)
  | .reported => False

structure Tracks (threshold : Nat) (g : Guest) : Prop where
  sent : g.journal.sentNotification = (sinceReset g.history).any (·.sent)
  awake : g.journal.sentNotification = false →
    Awake threshold g.journal (foundSince g.history) (missedSince g.history).length

section Tracks

variable {threshold : Nat} {g : Guest} {outcome : Option Exc}

/-- A ping with an answer. -/
theorem tracks_answered (h : Tracks threshold g) :
    Tracks threshold ⟨g.journal.recover, ⟨.ping true outcome, none⟩ :: g.history⟩ := by
  have hSince := sinceReset_ping (h := g.history) (e := ⟨.ping true outcome, none⟩) rfl
  have hKeep : g.journal.recover.sentNotification = g.journal.sentNotification := by
    unfold Journal.recover
    split <;> rfl
  refine ⟨?_, fun hAwake => ?_⟩
  · rw [hSince, hKeep, h.sent]
    rfl
  · rw [hKeep] at hAwake
    have hBefore := h.awake hAwake
    have hFound : foundSince (⟨.ping true outcome, none⟩ :: g.history) = true := by
      rw [foundSince, hSince]
      rfl
    have hMissed : missedSince (⟨.ping true outcome, none⟩ :: g.history) = [] := by
      rw [missedSince, hSince]
      rfl
    unfold Awake at hBefore
    cases hState : g.journal.currentState with
    | reported =>
      rw [hState] at hBefore
      exact hBefore.elim
    | discovery | healthy | error =>
      simp only [Awake, Journal.recover, hState, hFound, hMissed, List.length_nil, and_self]

/-- A ping without an answer and without a notification that was sent. -/
theorem tracks_missed {notified : Option (Option Exc)} {j : Journal}
    (h : Tracks threshold g) (hNotified : notified ≠ some none)
    (hKeep : j.sentNotification = g.journal.sentNotification)
    (hAwake : ∀ found missed, Awake threshold g.journal found missed →
      Awake threshold j found (missed + 1)) :
    Tracks threshold ⟨j, ⟨.ping false outcome, notified⟩ :: g.history⟩ := by
  have hSince := sinceReset_ping (h := g.history) (e := ⟨.ping false outcome, notified⟩) rfl
  refine ⟨?_, fun hQuiet => ?_⟩
  · rw [hSince, hKeep, h.sent, List.any_cons]
    simp [Entry.sent, hNotified]
  · have hFound : foundSince (⟨.ping false outcome, notified⟩ :: g.history) =
        foundSince g.history := by
      rw [foundSince, hSince]
      rfl
    have hMissed : missedSince (⟨.ping false outcome, notified⟩ :: g.history) =
        ⟨.ping false outcome, notified⟩ :: missedSince g.history := by
      rw [missedSince, hSince]
      rfl
    rw [hFound, hMissed, List.length_cons]
    exact hAwake _ _ (h.awake (hKeep.symm.trans hQuiet))

theorem awake_miss {j : Journal} {found : Bool} {missed : Nat}
    (h : Awake threshold j found missed) : Awake threshold j.miss found (missed + 1) := by
  obtain ⟨currentState, failedCount, sentNotification⟩ := j
  cases currentState with
  | discovery => exact h
  | healthy =>
    simp only [Awake, Journal.miss] at h ⊢
    obtain ⟨hFound, hMissed, hCount⟩ := h
    exact ⟨hFound, by omega, Or.inl (by omega)⟩
  | error =>
    simp only [Awake, Journal.miss] at h ⊢
    obtain ⟨hFound, hLe, hCount⟩ := h
    exact ⟨hFound, by omega, by omega⟩
  | reported => exact h

/-- The notifier raised what `except Exception` does not catch: the ping ended there. -/
theorem awake_escaped {j : Journal} {found : Bool} {missed : Nat}
    (hCrossing : thresholdsCrossing threshold j = true) (h : Awake threshold j found missed) :
    Awake threshold j found (missed + 1) := by
  obtain ⟨hError, hBelow⟩ := thresholdsCrossing_iff.mp hCrossing
  simp only [Awake, hError] at h ⊢
  obtain ⟨hFound, hLe, _⟩ := h
  exact ⟨hFound, by omega, Or.inr hBelow⟩

theorem tracks_step (h : Tracks threshold g) (event : Event) :
    Tracks threshold
      ⟨(observe threshold g.journal event).1,
        (observe threshold g.journal event).2 :: g.history⟩ := by
  cases event with
  | reset =>
    have hSince := sinceReset_reset (h := g.history) (e := ⟨.reset, none⟩) rfl
    refine ⟨?_, fun _ => ?_⟩
    · change false = _
      rw [observe, hSince]
      rfl
    · rw [observe, foundSince, missedSince, hSince]
      exact ⟨rfl, rfl⟩
  | ping answered outcome =>
    cases answered with
    | true =>
      rw [observe_answered]
      exact tracks_answered h
    | false =>
      have hMissKeep : g.journal.miss.sentNotification = g.journal.sentNotification := by
        unfold Journal.miss
        split <;> rfl
      by_cases hQuiet : thresholdsCrossing threshold g.journal = false ∨
          g.journal.sentNotification = true
      · rw [observe_quiet hQuiet]
        exact tracks_missed h (by simp) hMissKeep fun _ _ => awake_miss
      · push Not at hQuiet
        obtain ⟨hCrossing, hSent⟩ := hQuiet
        replace hCrossing := Bool.eq_true_of_not_eq_false hCrossing
        replace hSent := Bool.eq_false_of_not_eq_true hSent
        rw [observe_called hCrossing hSent]
        cases outcome with
        | none =>
          have hSince := sinceReset_ping (h := g.history) (e := ⟨.ping false none, some none⟩) rfl
          refine ⟨?_, fun hAwake => by cases hAwake⟩
          rw [hSince]
          rfl
        | some e =>
          simp only [Journal.notify]
          split
          · exact tracks_missed h (by simp) hMissKeep fun _ _ => awake_miss
          · exact tracks_missed h (by simp) rfl fun _ _ => awake_escaped hCrossing

theorem tracks_of_reachable (h : (guest threshold).Reachable g) : Tracks threshold g := by
  refine Trans.invariant_of_step (I := Tracks threshold) (fun g₀ h₀ => ?_)
    (fun g₁ event g₂ hI _ hs => ?_) h
  · rw [h₀]
    exact ⟨rfl, fun _ => ⟨rfl, rfl⟩⟩
  · cases hs
    exact tracks_step hI event

end Tracks

/-! ## When the notifier is called -/

/-- The notifier is called by the ping. -/
def Notifies (threshold : Nat) (g : Guest) (answered : Bool) (outcome : Option Exc) : Prop :=
  (observe threshold g.journal (.ping answered outcome)).2.notified.isSome = true

section Due

variable {threshold : Nat} {g : Guest}

theorem due_of_tracks (h : Tracks threshold g) : Due threshold g.history ↔
    thresholdsCrossing threshold g.journal = true ∧ g.journal.sentNotification = false := by
  rw [due_iff, thresholdsCrossing_iff, ← h.sent]
  constructor
  · rintro ⟨hSent, hFound, hLength⟩
    refine ⟨?_, hSent⟩
    have hAwake := h.awake hSent
    unfold Awake at hAwake
    cases hState : g.journal.currentState with
    | discovery =>
      rw [hState, hFound] at hAwake
      cases hAwake.1
    | healthy =>
      rw [hState] at hAwake
      have hZero := hAwake.2.1
      omega
    | error =>
      rw [hState] at hAwake
      obtain ⟨_, _, hCount⟩ := hAwake
      exact ⟨rfl, by omega⟩
    | reported =>
      rw [hState] at hAwake
      exact hAwake.elim
  · rintro ⟨⟨hError, hBelow⟩, hSent⟩
    have hAwake := h.awake hSent
    simp only [Awake, hError] at hAwake
    obtain ⟨hFound, hLe, _⟩ := hAwake
    exact ⟨hSent, hFound, by omega⟩

theorem notifies_iff_of_tracks (h : Tracks threshold g) (answered : Bool) (outcome : Option Exc) :
    Notifies threshold g answered outcome ↔ answered = false ∧ Due threshold g.history := by
  unfold Notifies
  rw [due_of_tracks h]
  cases answered with
  | true =>
    rw [observe_answered]
    simp
  | false =>
    by_cases hQuiet : thresholdsCrossing threshold g.journal = false ∨
        g.journal.sentNotification = true
    · rw [observe_quiet hQuiet]
      rcases hQuiet with hBelow | hSent
      · simp [hBelow]
      · simp [hSent]
    · push Not at hQuiet
      obtain ⟨hCrossing, hSent⟩ := hQuiet
      replace hCrossing := Bool.eq_true_of_not_eq_false hCrossing
      replace hSent := Bool.eq_false_of_not_eq_true hSent
      rw [observe_called hCrossing hSent]
      simp [hCrossing, hSent]

end Due

theorem notified_of_sent {e : Entry} (h : e.sent = true) : e.notified = some none := by
  obtain ⟨event, notified⟩ := e
  cases event with
  | ping answered outcome => simpa [Entry.sent] using h
  | reset => cases h

/-- Between two notifications that were sent there is a reset. -/
def SentOnce (h : List Entry) : Prop :=
  ∀ later e between e' earlier, h = later ++ e :: between ++ e' :: earlier → e.sent = true →
    e'.sent = true → ∃ r ∈ between, r.isReset = true

theorem sentOnce_cons {e : Entry} {h : List Entry} (hOnce : SentOnce h)
    (hSent : e.sent = true → ∀ e' ∈ sinceReset h, e'.sent = false) : SentOnce (e :: h) := by
  intro later a between a' earlier hSplit ha ha'
  cases later with
  | nil =>
    rw [List.nil_append, List.cons_append] at hSplit
    obtain ⟨rfl, rfl⟩ := List.cons.inj hSplit
    by_contra hNone
    push Not at hNone
    -- The older notification would be one since the last reset.
    have hKept : ∀ x ∈ between, (!x.isReset) = true := by
      intro x hx
      simpa using hNone x hx
    have hPing : (!a'.isReset) = true := by
      obtain ⟨event, notified⟩ := a'
      cases event with
      | ping answered outcome => rfl
      | reset => cases ha'
    have hMem : a' ∈ sinceReset (between ++ a' :: earlier) := by
      have hFirst : a' ∈ (a' :: earlier).takeWhile fun e => !e.isReset := by
        simp [hPing]
      rw [sinceReset, List.takeWhile_append_of_pos hKept]
      exact List.mem_append_right between hFirst
    rw [hSent ha a' hMem] at ha'
    cases ha'
  | cons x later =>
    rw [List.cons_append, List.cons_append] at hSplit
    obtain ⟨rfl, rfl⟩ := List.cons.inj hSplit
    exact hOnce later a between a' earlier rfl ha ha'

theorem sentOnce_of_reachable {threshold : Nat} {g : Guest}
    (h : (guest threshold).Reachable g) : SentOnce g.history := by
  have hBoth : Tracks threshold g ∧ SentOnce g.history := by
    refine Trans.invariant_of_step (I := fun g => Tracks threshold g ∧ SentOnce g.history)
      (fun g₀ h₀ => ?_) (fun g₁ event g₂ hI _ hs => ?_) h
    · rw [h₀]
      refine ⟨⟨rfl, fun _ => ⟨rfl, rfl⟩⟩, fun later e between e' earlier hSplit => ?_⟩
      simp at hSplit
    · cases hs
      refine ⟨tracks_step hI.1 event, sentOnce_cons hI.2 fun hSent => ?_⟩
      cases event with
      | reset => cases hSent
      | ping answered outcome =>
        have hNotifies : Notifies threshold g₁ answered outcome := by
          rw [Notifies, notified_of_sent hSent]
          rfl
        exact ((notifies_iff_of_tracks hI.1 answered outcome).mp hNotifies).2.1
  exact hBoth.2

/-- In every run: the notifier is called by a ping exactly when the ping has no answer and the
history asks for a notification; and it returns at most once between two resets. -/
theorem notified_iff_due {threshold : Nat} {g : Guest} (h : (guest threshold).Reachable g) :
    (∀ answered outcome, Notifies threshold g answered outcome ↔
      answered = false ∧ Due threshold g.history) ∧ SentOnce g.history :=
  ⟨notifies_iff_of_tracks (tracks_of_reachable h), sentOnce_of_reachable h⟩

/-- An answer, two missed pings and a notifier that raised: the next missed ping tries again. -/
theorem notified_iff_due_again : ∃ g : Guest,
    g.history.length = 3 ∧ Notifies 0 g false none ∧ Due 0 g.history := by
  obtain ⟨g, hReach, hg⟩ := Trans.exists_reachable_of_runIf (T := guest 0) (s := ⟨.factory, []⟩)
    [.ping true none, .ping false none, .ping false (some (.other "HttpException"))]
    (fun g => decide (g.history.length = 3) &&
      (observe 0 g.journal (.ping false none)).2.notified.isSome)
    rfl (by decide)
  rw [Bool.and_eq_true, decide_eq_true_eq] at hg
  exact ⟨g, hg.1, hg.2, (((notified_iff_due hReach).1 false none).mp hg.2).2⟩

end MasakariHA.Monitors.QemuUtils
