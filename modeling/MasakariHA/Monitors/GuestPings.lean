import MasakariHA.Lib.Keyed
import MasakariHA.Monitors.QemuUtils

/-!
# Pings and resets at the same time

The introspective monitor with all its domains. The timer pings the guests while the thread of
the libvirt events resets journals, so that a reset can fall between any two accesses of a ping
to the journal; every call of a method of the journal is one step here. The cache drops a journal
when its time is over (a week by default), and the next access makes a new one. The lock of a
domain keeps its pings apart.

* `Domain.step`: a ping access by access, with resets and expiries between them;
* `decided`: the ping will go on to the notifier, or has passed it: a reset now comes after it;
* `Linear`: the history as one of whole pings and resets, with `linear_step`;
* `guests_linear`: every run is such a history, unless a reset or an expiry falls at one of two
  places;
* `muted_of_lost`: what one at the second place leads to.
-/

namespace MasakariHA.Monitors.QemuUtils

open Lib

/-- The next access of a ping. `notified` is how the notifier ended if it was called. -/
inductive Access where
  | idle
  /-- `_thresholdsCrossing`: `current_state`. -/
  | currentState
  /-- `_thresholdsCrossing`: `getFailedCount`. -/
  | getFailedCount
  | getSentNotification
  | sendNotification
  | processReport
  | setSentNotification
  /-- `_no_heartbeat`: `processEvent('guest_not_pingable')`. -/
  | processNotPingable (notified : Option (Option Exc))
  | incrementFailedCount (notified : Option (Option Exc))
  /-- `_with_heartbeat`: `resetFailedCount`. -/
  | resetFailedCount
  | processPingable
  deriving DecidableEq

/-- A domain: its journal, the ping under way, and the history of the pings that have ended and
of the resets and expiries, newest first. One that comes after a ping under way waits with it, in
`resets`. -/
structure Domain where
  journal : Journal
  next : Access
  resets : Nat
  history : List Entry

inductive Label where
  /-- The agent has answered, or not: `_record` begins. -/
  | ping (answered : Bool)
  /-- The next access; `outcome` is how the notifier ends if it is called. -/
  | access (outcome : Option Exc)
  | reset
  /-- The journal expires in the cache. -/
  | expire

/-- A new journal is like one that was reset, and an expiry is recorded as a reset. -/
def resetEntry : Entry := ⟨.reset, none⟩

namespace Domain

/-- The ping ends, and the resets that waited come after it. -/
def finish (d : Domain) (entry : Entry) : Domain :=
  { d with next := .idle, resets := 0
           history := List.replicate d.resets resetEntry ++ entry :: d.history }

/-- What is recorded of a ping without an answer. -/
def missedEntry (notified : Option (Option Exc)) : Entry := ⟨.ping false notified.join, notified⟩

/-- The ping will call the notifier, or it has passed that point. -/
def decided (d : Domain) : Bool :=
  match d.next with
  | .idle | .currentState | .getFailedCount | .resetFailedCount | .processPingable => false
  | .getSentNotification => !d.journal.sentNotification
  | .sendNotification | .processReport | .setSentNotification => true
  | .processNotPingable _ | .incrementFailedCount _ => true

/-- `resetJournal`, and also a new journal after an expiry. -/
def reset (d : Domain) : Domain :=
  if d.decided then { d with journal := d.journal.resetState, resets := d.resets + 1 }
  else { d with journal := d.journal.resetState, history := resetEntry :: d.history }

def setState (d : Domain) (state : VmState) : Domain :=
  { d with journal := { d.journal with currentState := state } }

/-- The next access of the ping. -/
def access (threshold : Nat) (outcome : Option Exc) (d : Domain) : Option Domain :=
  match d.next with
  | .idle => none
  | .currentState =>
    if d.journal.currentState = .error then some { d with next := .getFailedCount }
    else some { d with next := .processNotPingable none }
  | .getFailedCount =>
    if threshold < d.journal.failedCount then some { d with next := .getSentNotification }
    else some { d with next := .processNotPingable none }
  | .getSentNotification =>
    if d.journal.sentNotification then some { d with next := .processNotPingable none }
    else some { d with next := .sendNotification }
  | .sendNotification =>
    match outcome with
    | none => some { d with next := .processReport }
    | some e =>
      if e.isException then some { d with next := .processNotPingable (some (some e)) }
      else some (d.finish (missedEntry (some (some e))))
  | .processReport =>
    match nextStates d.journal.currentState .report with
    | some state => some { d.setState state with next := .setSentNotification }
    | none => some { d with next := .processNotPingable (some none) }
  | .setSentNotification =>
    some { d with journal := { d.journal with sentNotification := true }
                  next := .processNotPingable (some none) }
  | .processNotPingable notified =>
    match nextStates d.journal.currentState .guestNotPingable with
    | some state => some { d.setState state with next := .incrementFailedCount notified }
    | none => some (d.finish (missedEntry notified))
  | .incrementFailedCount notified =>
    if d.journal.currentState = .error then
      some ({ d with
        journal := { d.journal with failedCount := d.journal.failedCount + 1 } }.finish
          (missedEntry notified))
    else some (d.finish (missedEntry notified))
  | .resetFailedCount =>
    some { d with journal := { d.journal with failedCount := 0 }, next := .processPingable }
  | .processPingable =>
    match nextStates d.journal.currentState .guestPingable with
    | some state => some ((d.setState state).finish ⟨.ping true none, none⟩)
    | none => some (d.finish ⟨.ping true none, none⟩)

def step (threshold : Nat) (d : Domain) : Label → Option Domain
  | .ping answered =>
    -- The lock is free.
    if d.next = .idle then
      some { d with next := if answered then .resetFailedCount else .currentState }
    else none
  | .access outcome => d.access threshold outcome
  | .reset | .expire => some d.reset

end Domain

/-- One domain under its lock. -/
def domain (threshold : Nat) : Trans Domain Label where
  init d := d = ⟨.factory, .idle, 0, []⟩
  step := Domain.step threshold

/-- The monitor: the domains by their uuid. -/
def guests (threshold : Nat) : Trans (String → Domain) (String × Label) :=
  Trans.keyed String (domain threshold)

/-! ## Whole pings -/

/-- The journal that the thread of the pings has in view, given what it would be without the
resets that wait. -/
def Domain.after (d : Domain) (j : Journal) : Journal :=
  if d.resets = 0 then j else .factory

/-- The ping of the journal calls the notifier. -/
def Calls (threshold : Nat) (j : Journal) : Prop :=
  thresholdsCrossing threshold j = true ∧ j.sentNotification = false

/-- How the notifier ended, in a ping that goes on to `_no_heartbeat`. -/
def EndsWith (threshold : Nat) (j : Journal) : Option (Option Exc) → Prop
  | none => thresholdsCrossing threshold j = false ∨ j.sentNotification = true
  | some outcome => Calls threshold j ∧ ∀ e, outcome = some e → e.isException = true

/-- The journal before `_no_heartbeat`. -/
def Journal.marked (j : Journal) : Option (Option Exc) → Journal
  | some none => j.notify none
  | none | some (some _) => j

/-- `processEvent('guest_not_pingable')`. -/
def Journal.advance (j : Journal) : Journal :=
  match j.currentState with
  | .discovery | .reported => j
  | .healthy | .error => { j with currentState := .error }

/-- The history is one of whole pings and resets that leave the journal `j`, and the ping under
way is at its place in `j`. -/
def Linear (threshold : Nat) (d : Domain) (j : Journal) : Prop :=
  match d.next with
  | .idle | .currentState | .resetFailedCount => d.resets = 0 ∧ d.journal = j
  | .getFailedCount =>
    d.resets = 0 ∧ d.journal = j ∧ (j.currentState = .error ∨ j.failedCount = 0)
  | .getSentNotification => thresholdsCrossing threshold j = true ∧ d.journal = d.after j ∧
      (d.resets ≠ 0 → j.sentNotification = false)
  | .sendNotification | .processReport => Calls threshold j ∧ d.journal = d.after j
  | .setSentNotification => Calls threshold j ∧ d.resets = 0 ∧
      d.journal = { j with currentState := .reported }
  | .processNotPingable notified => EndsWith threshold j notified ∧
      d.journal = d.after (j.marked notified)
  | .incrementFailedCount notified => EndsWith threshold j notified ∧
      d.journal = d.after (j.marked notified).advance
  | .processPingable => d.resets = 0 ∧ d.journal = { j with failedCount := 0 }

/-- The two places where a reset or an expiry does harm: between the check of the threshold and that
of `sent_notification`, when this is set; and between `report` and the setting of it. -/
def harmless (d : Domain) : Label → Bool
  | .reset | .expire => d.next ≠ .setSentNotification &&
      !(d.next = .getSentNotification && d.journal.sentNotification)
  | .ping _ | .access _ => true

section Linear

variable {threshold : Nat} {d d' : Domain} {j : Journal} {h : List Entry}

theorem reachable_observe (hReach : (guest threshold).Reachable ⟨j, h⟩) (e : Event) :
    (guest threshold).Reachable ⟨(observe threshold j e).1, (observe threshold j e).2 :: h⟩ :=
  Trans.reachableIf_step (l := e) hReach trivial rfl

/-- Resets that wait come after the ping. -/
theorem reachable_resets (hReach : (guest threshold).Reachable ⟨j, h⟩) (n : Nat) :
    (guest threshold).Reachable
      ⟨if n = 0 then j else .factory, List.replicate n resetEntry ++ h⟩ := by
  induction n with
  | zero => exact hReach
  | succ n ih => exact reachable_observe ih .reset

theorem observe_missed {notified : Option (Option Exc)} (h : EndsWith threshold j notified) :
    observe threshold j (.ping false notified.join) =
      (match notified with
        | none => j.miss
        | some outcome => j.notify outcome, Domain.missedEntry notified) := by
  cases notified with
  | none => exact observe_quiet h
  | some outcome => exact observe_called h.1.1 h.1.2

/-- The end of `_no_heartbeat`. -/
theorem advance_miss {notified : Option (Option Exc)} (h : EndsWith threshold j notified) :
    (if (j.marked notified).advance.currentState = .error then
      { (j.marked notified).advance with
        failedCount := (j.marked notified).advance.failedCount + 1 }
      else (j.marked notified).advance) = (observe threshold j (.ping false notified.join)).1 := by
  rw [observe_missed h]
  have hMiss : (if j.advance.currentState = .error then
      { j.advance with failedCount := j.advance.failedCount + 1 } else j.advance) = j.miss := by
    obtain ⟨currentState, failedCount, sentNotification⟩ := j
    cases currentState <;> rfl
  rcases notified with - | - | e
  · exact hMiss
  · rfl
  · have hException := h.2 e rfl
    show (if j.advance.currentState = .error then
        { j.advance with failedCount := j.advance.failedCount + 1 } else j.advance) =
      j.notify (some e)
    rw [hMiss, Journal.notify, if_pos hException]

/-- A ping that ends leaves the domain idle, with the journal of the history. -/
theorem linear_finish (hReach : (guest threshold).Reachable ⟨j, d.history⟩)
    (answered : Bool) (outcome : Option Exc) {entry : Entry}
    (hEntry : (observe threshold j (.ping answered outcome)).2 = entry)
    (hJournal : d.journal = d.after (observe threshold j (.ping answered outcome)).1) :
    ∃ j', (guest threshold).Reachable ⟨j', (d.finish entry).history⟩ ∧
      Linear threshold (d.finish entry) j' := by
  subst hEntry
  exact ⟨d.journal, hJournal ▸ reachable_resets (reachable_observe hReach _) d.resets, rfl, rfl⟩

theorem after_zero (hZero : d.resets = 0) (j : Journal) : d.after j = j := if_pos hZero

theorem after_reset (hReset : d.resets ≠ 0) (j : Journal) : d.after j = .factory := if_neg hReset

/-- A reset that is not one of the harmful ones. -/
theorem linear_reset (hReach : (guest threshold).Reachable ⟨j, d.history⟩)
    (hLinear : Linear threshold d j) (hHarmless : harmless d .reset = true) :
    ∃ j', (guest threshold).Reachable ⟨j', d.reset.history⟩ ∧ Linear threshold d.reset j' := by
  have hMarking : d.next ≠ .setSentNotification := by
    intro hNext
    simp [harmless, hNext] at hHarmless
  have hSent : d.next = .getSentNotification → d.journal.sentNotification = false := by
    intro hNext
    simpa [harmless, hNext] using hHarmless
  have hNow : d.decided = false → d.reset =
      { d with journal := .factory, history := resetEntry :: d.history } := fun h => by
    rw [Domain.reset, h]; rfl
  have hWaits : d.decided = true → d.reset =
      { d with journal := .factory, resets := d.resets + 1 } := fun h => by
    rw [Domain.reset, h]; rfl
  have hFactory := reachable_observe hReach .reset
  unfold Linear at hLinear
  cases hNext : d.next with
  | idle | currentState | resetFailedCount =>
    rw [hNow (by rw [Domain.decided, hNext])]
    simp only [hNext] at hLinear
    exact ⟨.factory, hFactory, by simp only [Linear, hNext]; exact ⟨hLinear.1, trivial⟩⟩
  | getFailedCount =>
    rw [hNow (by rw [Domain.decided, hNext])]
    simp only [hNext] at hLinear
    exact ⟨.factory, hFactory, by simp only [Linear, hNext]; exact ⟨hLinear.1, trivial, Or.inr rfl⟩⟩
  | processPingable =>
    rw [hNow (by rw [Domain.decided, hNext])]
    simp only [hNext] at hLinear
    exact ⟨.factory, hFactory, by simp only [Linear, hNext]; exact ⟨hLinear.1, rfl⟩⟩
  | getSentNotification =>
    have hUnsent := hSent hNext
    rw [hWaits (by rw [Domain.decided, hNext, hUnsent]; rfl)]
    simp only [hNext] at hLinear
    obtain ⟨hCrossing, hJournal, hAfter⟩ := hLinear
    refine ⟨j, hReach, ?_⟩
    simp only [Linear, hNext]
    refine ⟨hCrossing, rfl, fun _ => ?_⟩
    by_cases hZero : d.resets = 0
    · rwa [hJournal, after_zero hZero] at hUnsent
    · exact hAfter hZero
  | sendNotification | processReport =>
    rw [hWaits (by rw [Domain.decided, hNext])]
    simp only [hNext] at hLinear
    exact ⟨j, hReach, by simp only [Linear, hNext]; exact ⟨hLinear.1, rfl⟩⟩
  | setSentNotification => exact absurd hNext hMarking
  | processNotPingable notified | incrementFailedCount notified =>
    rw [hWaits (by rw [Domain.decided, hNext])]
    simp only [hNext] at hLinear
    exact ⟨j, hReach, by simp only [Linear, hNext]; exact ⟨hLinear.1, rfl⟩⟩

end Linear

section Steps

variable {threshold : Nat} {d d' : Domain} {j : Journal}

/-- The accesses of an unanswered ping up to the call of the notifier. -/
theorem linear_thresholds {outcome : Option Exc}
    (hReach : (guest threshold).Reachable ⟨j, d.history⟩) (hLinear : Linear threshold d j)
    (hNext : d.next = .currentState ∨ d.next = .getFailedCount ∨ d.next = .getSentNotification)
    (hStep : d.access threshold outcome = some d') :
    (guest threshold).Reachable ⟨j, d'.history⟩ ∧ Linear threshold d' j := by
  unfold Linear at hLinear
  rcases hNext with hNext | hNext | hNext
  · simp only [hNext] at hLinear
    obtain ⟨hZero, hJournal⟩ := hLinear
    simp only [Domain.access, hNext] at hStep
    split at hStep
    · rename_i hError
      cases hStep
      exact ⟨hReach, hZero, hJournal, Or.inl (hJournal ▸ hError)⟩
    · rename_i hOther
      cases hStep
      refine ⟨hReach, Or.inl ?_, ?_⟩
      · rw [hJournal] at hOther
        simp [thresholdsCrossing, hOther]
      · rw [Domain.after, if_pos hZero]
        exact hJournal
  · simp only [hNext] at hLinear
    obtain ⟨hZero, hJournal, hCount⟩ := hLinear
    simp only [Domain.access, hNext] at hStep
    split at hStep
    · rename_i hBelow
      cases hStep
      rw [hJournal] at hBelow
      have hError : j.currentState = .error := hCount.resolve_right fun h => by omega
      refine ⟨hReach, thresholdsCrossing_iff.mpr ⟨hError, hBelow⟩, ?_, fun h => absurd hZero h⟩
      rw [Domain.after, if_pos hZero]
      exact hJournal
    · rename_i hBelow
      cases hStep
      rw [hJournal] at hBelow
      refine ⟨hReach, Or.inl ?_, ?_⟩
      · simp [thresholdsCrossing, hBelow]
      · rw [Domain.after, if_pos hZero]
        exact hJournal
  · simp only [hNext] at hLinear
    obtain ⟨hCrossing, hJournal, hAfter⟩ := hLinear
    simp only [Domain.access, hNext] at hStep
    split at hStep
    · rename_i hSent
      cases hStep
      -- A reset would have cleared the flag.
      have hZero : d.resets = 0 := by
        by_contra hReset
        rw [hJournal, after_reset hReset] at hSent
        cases hSent
      rw [hJournal, after_zero hZero] at hSent
      exact ⟨hReach, Or.inr hSent, hJournal⟩
    · rename_i hUnsent
      cases hStep
      refine ⟨hReach, ⟨hCrossing, ?_⟩, hJournal⟩
      by_cases hZero : d.resets = 0
      · rw [hJournal, after_zero hZero] at hUnsent
        exact Bool.eq_false_iff.mpr hUnsent
      · exact hAfter hZero

/-- The accesses of an unanswered ping from the call of the notifier on. -/
theorem linear_notifier {outcome : Option Exc}
    (hReach : (guest threshold).Reachable ⟨j, d.history⟩) (hLinear : Linear threshold d j)
    (hNext : d.next = .sendNotification ∨ d.next = .processReport ∨ d.next = .setSentNotification)
    (hStep : d.access threshold outcome = some d') :
    ∃ j', (guest threshold).Reachable ⟨j', d'.history⟩ ∧ Linear threshold d' j' := by
  unfold Linear at hLinear
  rcases hNext with hNext | hNext | hNext
  · simp only [hNext] at hLinear
    obtain ⟨hCalls, hJournal⟩ := hLinear
    simp only [Domain.access, hNext] at hStep
    cases outcome with
    | none =>
      cases hStep
      exact ⟨j, hReach, hCalls, hJournal⟩
    | some e =>
      dsimp only at hStep
      split at hStep
      · rename_i hException
        cases hStep
        exact ⟨j, hReach, ⟨hCalls, fun e' he' => Option.some.inj he' ▸ hException⟩, hJournal⟩
      · rename_i hEscapes
        cases hStep
        have hObserve : observe threshold j (.ping false (some e)) =
            (j.notify (some e), ⟨.ping false (some e), some (some e)⟩) :=
          observe_called hCalls.1 hCalls.2
        refine linear_finish hReach false (some e) ?_ ?_
        · rw [hObserve]
          rfl
        · rw [hObserve, hJournal, Journal.notify, if_neg hEscapes]
  · simp only [hNext] at hLinear
    obtain ⟨hCalls, hJournal⟩ := hLinear
    have hError := (thresholdsCrossing_iff.mp hCalls.1).1
    simp only [Domain.access, hNext] at hStep
    by_cases hZero : d.resets = 0
    · rw [hJournal, after_zero hZero, hError] at hStep
      cases hStep
      refine ⟨j, hReach, hCalls, hZero, ?_⟩
      simp only [Domain.setState, hJournal, after_zero hZero]
    · -- The machine was initialized again: it has no transition.
      rw [hJournal, after_reset hZero] at hStep
      cases hStep
      refine ⟨j, hReach, ⟨hCalls, fun _ he => absurd he.symm (Option.some_ne_none _)⟩, ?_⟩
      rw [Domain.after, if_neg hZero]
  · simp only [hNext] at hLinear
    obtain ⟨hCalls, hZero, hJournal⟩ := hLinear
    simp only [Domain.access, hNext] at hStep
    cases hStep
    refine ⟨j, hReach, ⟨hCalls, fun _ he => absurd he.symm (Option.some_ne_none _)⟩, ?_⟩
    rw [Domain.after, if_pos hZero, hJournal]
    rfl

theorem advance_of_nextStates {state : VmState}
    (h : nextStates j.currentState .guestNotPingable = some state) :
    { j with currentState := state } = j.advance := by
  obtain ⟨currentState, failedCount, sentNotification⟩ := j
  cases currentState <;> cases h <;> rfl

/-- `_no_heartbeat`. -/
theorem linear_noHeartbeat {outcome : Option Exc} {notified : Option (Option Exc)}
    (hReach : (guest threshold).Reachable ⟨j, d.history⟩) (hLinear : Linear threshold d j)
    (hNext : d.next = .processNotPingable notified ∨ d.next = .incrementFailedCount notified)
    (hStep : d.access threshold outcome = some d') :
    ∃ j', (guest threshold).Reachable ⟨j', d'.history⟩ ∧ Linear threshold d' j' := by
  unfold Linear at hLinear
  rcases hNext with hNext | hNext
  · simp only [hNext] at hLinear
    obtain ⟨hEnds, hJournal⟩ := hLinear
    have hAdvance : ∀ state, nextStates d.journal.currentState .guestNotPingable = some state →
        { d.journal with currentState := state } = d.after (j.marked notified).advance := by
      intro state hState
      by_cases hZero : d.resets = 0
      · rw [after_zero hZero]
        rw [hJournal, after_zero hZero] at hState ⊢
        exact advance_of_nextStates hState
      · rw [after_reset hZero]
        rw [hJournal, after_reset hZero] at hState ⊢
        cases hState
        rfl
    simp only [Domain.access, hNext] at hStep
    split at hStep
    · rename_i state hState
      cases hStep
      exact ⟨j, hReach, hEnds, hAdvance state hState⟩
    · rename_i hNone
      cases hState : d.journal.currentState <;> rw [hState] at hNone <;> cases hNone
  · simp only [hNext] at hLinear
    obtain ⟨hEnds, hJournal⟩ := hLinear
    have hEntry : (observe threshold j (.ping false notified.join)).2 =
        Domain.missedEntry notified := by rw [observe_missed hEnds]
    have hMiss := advance_miss hEnds
    simp only [Domain.access, hNext] at hStep
    have hCount : ∀ t : Journal, t = (if d.journal.currentState = .error then
        { d.journal with failedCount := d.journal.failedCount + 1 } else d.journal) →
        t = d.after (observe threshold j (.ping false notified.join)).1 := by
      rintro t rfl
      by_cases hZero : d.resets = 0
      · rw [after_zero hZero, hJournal, after_zero hZero]
        exact hMiss
      · rw [after_reset hZero, hJournal, after_reset hZero]
        rfl
    split at hStep
    · rename_i hError
      cases hStep
      exact linear_finish
        (d := { d with journal := { d.journal with failedCount := d.journal.failedCount + 1 } })
        hReach _ _ hEntry (hCount _ (if_pos hError).symm)
    · rename_i hOther
      cases hStep
      exact linear_finish hReach _ _ hEntry (hCount _ (if_neg hOther).symm)

/-- `_with_heartbeat`. -/
theorem linear_withHeartbeat {outcome : Option Exc}
    (hReach : (guest threshold).Reachable ⟨j, d.history⟩) (hLinear : Linear threshold d j)
    (hNext : d.next = .resetFailedCount ∨ d.next = .processPingable)
    (hStep : d.access threshold outcome = some d') :
    ∃ j', (guest threshold).Reachable ⟨j', d'.history⟩ ∧ Linear threshold d' j' := by
  unfold Linear at hLinear
  rcases hNext with hNext | hNext
  · simp only [hNext] at hLinear
    obtain ⟨hZero, hJournal⟩ := hLinear
    simp only [Domain.access, hNext] at hStep
    cases hStep
    refine ⟨j, hReach, hZero, ?_⟩
    rw [hJournal]
  · simp only [hNext] at hLinear
    obtain ⟨hZero, hJournal⟩ := hLinear
    have hObserve : observe threshold j (.ping true none) =
        (j.recover, ⟨.ping true none, none⟩) := observe_answered
    have hRecover : ∀ state, nextStates d.journal.currentState .guestPingable = some state →
        { d.journal with currentState := state } = d.after j.recover := by
      intro state hState
      rw [after_zero hZero]
      rw [hJournal] at hState ⊢
      obtain ⟨currentState, failedCount, sentNotification⟩ := j
      cases currentState <;> cases hState <;> rfl
    simp only [Domain.access, hNext] at hStep
    split at hStep
    · rename_i state hState
      cases hStep
      refine linear_finish (d := d.setState state) hReach true none ?_ ?_
      · rw [hObserve]
      · rw [hObserve]
        exact hRecover state hState
    · rename_i hNone
      cases hState : d.journal.currentState <;> rw [hState] at hNone <;> cases hNone

theorem linear_step {l : Label} (hReach : (guest threshold).Reachable ⟨j, d.history⟩)
    (hLinear : Linear threshold d j) (hHarmless : harmless d l = true)
    (hStep : d.step threshold l = some d') :
    ∃ j', (guest threshold).Reachable ⟨j', d'.history⟩ ∧ Linear threshold d' j' := by
  cases l with
  | reset | expire =>
    cases hStep
    exact linear_reset hReach hLinear hHarmless
  | ping answered =>
    simp only [Domain.step] at hStep
    split at hStep
    · rename_i hIdle
      cases hStep
      simp only [Linear, hIdle] at hLinear
      cases answered <;> exact ⟨j, hReach, hLinear⟩
    · cases hStep
  | access outcome =>
    cases hNext : d.next with
    | idle => simp [Domain.step, Domain.access, hNext] at hStep
    | currentState => exact ⟨j, linear_thresholds hReach hLinear (by simp [hNext]) hStep⟩
    | getFailedCount => exact ⟨j, linear_thresholds hReach hLinear (by simp [hNext]) hStep⟩
    | getSentNotification => exact ⟨j, linear_thresholds hReach hLinear (by simp [hNext]) hStep⟩
    | sendNotification => exact linear_notifier hReach hLinear (by simp [hNext]) hStep
    | processReport => exact linear_notifier hReach hLinear (by simp [hNext]) hStep
    | setSentNotification => exact linear_notifier hReach hLinear (by simp [hNext]) hStep
    | processNotPingable notified =>
      exact linear_noHeartbeat hReach hLinear (Or.inl hNext) hStep
    | incrementFailedCount notified =>
      exact linear_noHeartbeat hReach hLinear (Or.inr hNext) hStep
    | resetFailedCount => exact linear_withHeartbeat hReach hLinear (Or.inl hNext) hStep
    | processPingable => exact linear_withHeartbeat hReach hLinear (Or.inr hNext) hStep

theorem linear_of_domain
    (h : (domain threshold).ReachableIf (fun d l => harmless d l = true) d) :
    ∃ j, (guest threshold).Reachable ⟨j, d.history⟩ ∧ Linear threshold d j := by
  refine Trans.invariant_of_step
    (I := fun d => ∃ j, (guest threshold).Reachable ⟨j, d.history⟩ ∧ Linear threshold d j)
    (fun d₀ h₀ => ?_) (fun d₁ l d₂ hI hHarmless hStep => ?_) h
  · rw [h₀]
    exact ⟨.factory, Trans.reachableIf_init rfl, rfl, rfl⟩
  · obtain ⟨j, hReach, hLinear⟩ := hI
    exact linear_step hReach hLinear hHarmless hStep

end Steps

/-! ## Runs of the monitor -/

/-- Unless a reset or an expiry falls at one of the two places, the history of every domain is one
of whole pings and resets, the expiries among these, whatever the order of the steps and whatever
happens to the other domains: an idle domain has the journal of its history, the notifier is called
for it only when the history asks for it, and it returns at most once between two resets. -/
theorem guests_linear {threshold : Nat} {s : String → Domain}
    (h : (guests threshold).ReachableIf (fun s l => harmless (s l.1) l.2 = true) s)
    (uuid : String) :
    (∃ j, (guest threshold).Reachable ⟨j, (s uuid).history⟩ ∧
      ((s uuid).next = .idle → (s uuid).journal = j)) ∧
    ((s uuid).next = .sendNotification → Due threshold (s uuid).history) ∧
    SentOnce (s uuid).history := by
  obtain ⟨j, hReach, hLinear⟩ := linear_of_domain
    (Trans.reachableIf_of_keyed (C := fun d l => harmless d l = true) h uuid)
  refine ⟨⟨j, hReach, fun hIdle => ?_⟩, fun hNext => ?_, sentOnce_of_reachable hReach⟩
  · simp only [Linear, hIdle] at hLinear
    exact hLinear.2
  · simp only [Linear, hNext] at hLinear
    exact (due_of_tracks (tracks_of_reachable hReach)).mpr hLinear.1

/-- The guest of `a` is started again while its notification is sent; `b` is pinged meanwhile. -/
theorem guests_linear_restart : ∃ s : String → Domain,
    (s "a").next = .idle ∧ (s "a").journal = .factory ∧ (s "a").history.length = 4 ∧
      SentOnce (s "a").history := by
  obtain ⟨s, hReach, hs⟩ := Trans.exists_reachableIf_of_runIf (T := guests 0)
    (c := fun s l => harmless (s l.1) l.2) (s := fun _ => ⟨.factory, .idle, 0, []⟩)
    [("a", .ping true), ("a", .access none), ("a", .access none),
      ("a", .ping false), ("a", .access none), ("a", .access none), ("a", .access none),
      ("a", .ping false), ("a", .access none), ("a", .access none), ("a", .access none),
      ("b", .ping true), ("a", .reset), ("b", .access none), ("a", .access none),
      ("a", .access none), ("a", .access none), ("a", .access none)]
    (fun s => decide ((s "a").next = .idle) && decide ((s "a").journal = .factory) &&
      decide ((s "a").history.length = 4)) (fun _ => rfl) (by decide)
  simp only [Bool.and_eq_true, decide_eq_true_eq] at hs
  exact ⟨s, hs.1.1, hs.1.2, hs.2, (guests_linear hReach "a").2.2⟩

/-! ## A reset that is lost -/

/-- The journal is a new one after the step, or like a new one. -/
def Label.renews : Label → Bool
  | .reset | .expire => true
  | .ping _ | .access _ => false

/-- The flag is set, or about to be set. -/
def Muted (d : Domain) : Prop :=
  d.next = .setSentNotification ∨
    d.journal.sentNotification = true ∧ d.next ≠ .sendNotification ∧ d.next ≠ .processReport

theorem muted_step {threshold : Nat} {d d' : Domain} {l : Label} (hMuted : Muted d)
    (hl : l.renews = false) (hStep : d.step threshold l = some d') : Muted d' := by
  cases l with
  | reset | expire => cases hl
  | ping answered =>
    simp only [Domain.step] at hStep
    split at hStep
    · rename_i hIdle
      cases hStep
      rcases hMuted with hNext | ⟨hSent, -, -⟩
      · rw [hIdle] at hNext
        cases hNext
      · exact Or.inr ⟨hSent, by cases answered <;> simp, by cases answered <;> simp⟩
    · cases hStep
  | access outcome =>
    simp only [Domain.step] at hStep
    rcases hMuted with hNext | ⟨hSent, hSend, hReport⟩
    · simp only [Domain.access, hNext] at hStep
      cases hStep
      exact Or.inr ⟨rfl, by simp, by simp⟩
    · unfold Domain.access at hStep
      cases hNext : d.next with
      | idle => simp [hNext] at hStep
      | sendNotification => exact absurd hNext hSend
      | processReport => exact absurd hNext hReport
      | setSentNotification =>
        simp only [hNext] at hStep
        cases hStep
        exact Or.inr ⟨rfl, by simp, by simp⟩
      | getSentNotification =>
        simp only [hNext, hSent, if_true] at hStep
        cases hStep
        exact Or.inr ⟨hSent, by simp, by simp⟩
      | currentState | getFailedCount | processNotPingable notified
      | incrementFailedCount notified | processPingable =>
        simp only [hNext] at hStep
        split at hStep <;> cases hStep <;>
          exact Or.inr ⟨hSent, by simp [Domain.finish], by simp [Domain.finish]⟩
      | resetFailedCount =>
        simp only [hNext] at hStep
        cases hStep
        exact Or.inr ⟨hSent, by simp, by simp⟩

/-- A guest that is started again between `report` and the setting of `sent_notification`, or whose
journal expires there, is muted: whatever happens after that, the notifier is not called for it
until the next reset or expiry. -/
theorem muted_of_lost (threshold : Nat) {s s' t : String → Domain} {uuid : String} {lost : Label}
    (hNext : (s uuid).next = .setSentNotification) (hLost : lost.renews = true)
    (hReset : (guests threshold).step s (uuid, lost) = some s')
    (hRun : Relation.ReflTransGen
      ((guests threshold).StepIf fun _ l => l.1 = uuid → l.2.renews = false) s' t) :
    (t uuid).next ≠ .sendNotification := by
  have hMuted : Muted (t uuid) := by
    induction hRun with
    | refl =>
      obtain ⟨d, hd, rfl⟩ := Option.map_eq_some_iff.mp hReset
      have hStep : (domain threshold).step (s uuid) lost = some (s uuid).reset := by
        cases lost with
        | reset | expire => rfl
        | ping answered | access outcome => cases hLost
      obtain rfl := Option.some.inj (hStep.symm.trans hd)
      refine Or.inl ?_
      rw [Function.update_self, Domain.reset]
      split <;> exact hNext
    | tail _ hStep ih =>
      obtain ⟨l, hl, hStep⟩ := hStep
      obtain ⟨d, hd, rfl⟩ := Option.map_eq_some_iff.mp hStep
      by_cases hSame : l.1 = uuid
      · subst hSame
        rw [Function.update_self]
        exact muted_step ih (hl rfl) hd
      · rw [Function.update_of_ne (Ne.symm hSame)]
        exact ih
  rcases hMuted with hNext | ⟨-, hSend, -⟩
  · rw [hNext]
    intro hSend
    cases hSend
  · exact hSend

/-- A guest whose notification has been sent, at the reset that is lost. It comes up and goes down
again: at the last ping the threshold is passed, and the notifier is passed by. -/
theorem muted_of_lost_reported : ∃ t : String → Domain,
    (t "a").journal = ⟨.error, 1, true⟩ ∧ (t "a").next = .processNotPingable none ∧
      (t "a").next ≠ .sendNotification := by
  let s : String → Domain := fun _ => ⟨⟨.reported, 1, false⟩, .setSentNotification, 0, []⟩
  have hReset : (guests 0).step s ("a", .reset) = some (Function.update s "a" (s "a").reset) := rfl
  obtain ⟨t, hRun, ht⟩ := Trans.exists_reflTransGen_of_runIf (T := guests 0)
    (c := fun _ l => !l.2.renews) (C := fun _ l => l.1 = "a" → l.2.renews = false)
    (fun _ l hl _ => by simpa using hl) (s := Function.update s "a" (s "a").reset)
    ((List.replicate 3 ("a", .access none)) ++
      [("a", .ping true), ("a", .access none), ("a", .access none)] ++
      [("a", .ping false), ("a", .access none), ("a", .access none), ("a", .access none)] ++
      [("a", .ping false), ("a", .access none), ("a", .access none), ("a", .access none)])
    (fun t => decide ((t "a").journal = ⟨.error, 1, true⟩) &&
      decide ((t "a").next = .processNotPingable none)) (by decide)
  simp only [Bool.and_eq_true, decide_eq_true_eq] at ht
  exact ⟨t, ht.1, ht.2, muted_of_lost 0 rfl rfl hReset hRun⟩

end MasakariHA.Monitors.QemuUtils
