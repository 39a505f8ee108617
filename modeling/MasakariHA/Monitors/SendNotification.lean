import MasakariHA.Ha.Api

/-!
# Sending a notification

`SendNotification.send_notification` of `ha/masakari.py` on one side, the calls of
`create_notification` that its requests lead to on the other. A request or its answer can be
lost, an error can come from something in between, and the call can still be running in the
server when the monitor tries again.

* `Client.handle`: one round of the retry loop;
* `Sending.step`: the monitor, the calls its attempts lead to, the engines, other users;
* `Once`: the invariant, with `once_step`;
* `atMostOneRow_of_undisturbed`: when retrying does not duplicate the event.
-/

namespace MasakariHA.Monitors.SendNotification

open Lib Ha

/-! ## The monitor -/

/-- How `client.create_notification` ends. -/
inductive Outcome where
  | response
  | httpException (status : Nat)
  | exception
  deriving DecidableEq, Repr

inductive Phase where
  | ready
  | waiting
  | stopped
  deriving DecidableEq, Repr

/-- The loop of `send_notification`: about to send a request, waiting for its end, left. -/
structure Client where
  retryCount : Nat
  phase : Phase

def Client.retry (apiRetryMax : Int) (c : Client) : Client :=
  if c.retryCount < apiRetryMax then ⟨c.retryCount + 1, .ready⟩ else ⟨c.retryCount, .stopped⟩

/-- What the loop does with the end of a request. -/
def Client.handle (apiRetryMax : Int) (c : Client) : Outcome → Client
  | .response => ⟨c.retryCount, .stopped⟩
  | .httpException status =>
    if status = 409 then ⟨c.retryCount, .stopped⟩ else c.retry apiRetryMax
  | .exception => c.retry apiRetryMax

/-- The request of the attempt has been sent. -/
def Client.sent (c : Client) (i : Nat) : Bool :=
  match c.phase with
  | .ready => i < c.retryCount
  | .waiting | .stopped => i ≤ c.retryCount

/-! ## The server -/

/-- The status that `NotificationsController.create` answers an exception with. -/
def httpStatus (e : Exc) : Nat :=
  if e.isA .hostNotFoundByName then 400
  else if e.isA .duplicateNotification || e.isA .hostOnMaintenanceError then 409
  else 500

def answer : Progress → Option Outcome
  | .returned _ => some .response
  | .raised e => some (.httpException (httpStatus e))
  | _ => none

/-- A monitor with one event to send; its attempts are the requests of the API. -/
structure Sending where
  client : Client
  api : Api ℕ

inductive Step where
  | call
  | answered
  /-- A request or an answer is lost, or an error comes from in between. -/
  | fails (o : Outcome)
  | server (l : Label ℕ)

/-- A request that was not sent does not arrive. -/
def Sending.arrives (s : Sending) : Label ℕ → Bool
  | .lookUp i => s.client.sent i
  | _ => true

section System

variable (apiRetryMax : Int) (interval : Nat) (event : Request)

def Sending.step (s : Sending) : Step → Option Sending
  | .call =>
    match s.client.phase with
    | .ready => some { s with client := { s.client with phase := .waiting } }
    | .waiting | .stopped => none
  | .answered =>
    match s.client.phase with
    | .waiting => (answer (s.api.progress s.client.retryCount)).map fun o =>
        { s with client := s.client.handle apiRetryMax o }
    | .ready | .stopped => none
  | .fails o =>
    match s.client.phase with
    | .waiting =>
      if o = .response then none else some { s with client := s.client.handle apiRetryMax o }
    | .ready | .stopped => none
  | .server l =>
    if s.arrives l then (s.api.step (fun _ => event) interval l).map fun api => { s with api }
    else none

/-- The event is handed over, on any content of the database. -/
def sending : Trans Sending Step where
  init s := s.client = ⟨0, .ready⟩ ∧ ∀ i, s.api.progress i = .received
  step := Sending.step apiRetryMax interval event

end System

/-- The row of the notification is `new` or `running`. -/
def openRow (db : Db) (n : Notification) : Bool :=
  (db.liveNotification n.notificationUuid).any fun r => r.status = .new || r.status = .running

/-- An attempt is checked while the row of an earlier one is `new` or `running`, and no attempt
inserts while another one has passed the check and not yet inserted. -/
def Undisturbed (s : Sending) : Step → Bool
  | .server (.check _) => decide (∀ i ≤ s.client.retryCount,
      (s.api.progress i).made.all (openRow s.api.db) = true)
  | .server (.create j _ _ _) => decide (∀ i ≤ s.client.retryCount,
      i ≠ j → (s.api.progress i).passed = false)
  | _ => true

/-- At most one attempt has created a row. -/
def AtMostOneRow (s : Sending) : Prop :=
  ∀ i j n n', (s.api.progress i).made = some n → (s.api.progress j).made = some n' → i = j

/-! ## The invariant -/

structure Once (event : Request) (s : Sending) : Prop where
  unsent : ∀ i, s.client.sent i = false → s.api.progress i = .received
  drafts : ∀ i d, (s.api.progress i).draft = some d → DraftOf s.api.db event d
  rows : ∀ i n, (s.api.progress i).made = some n → ∃ r,
    s.api.db.liveNotification n.notificationUuid = some r ∧ RowOf s.api.db event r
  alone : ∀ i n, (s.api.progress i).made = some n → ∀ j, j ≠ i →
    (s.api.progress j).made = none ∧ (s.api.progress j).passed = false

section Invariant

variable {apiRetryMax : Int} {interval : Nat} {event : Request} {s s' : Sending}

/-- A step sends a request, handles the end of one, or is one of the server. -/
theorem step_cases {l : Step} (hs : s.step apiRetryMax interval event l = some s') :
    (s.client.phase = .ready ∧ s' = { s with client := { s.client with phase := .waiting } }) ∨
      (∃ o, s.client.phase = .waiting ∧
        s' = { s with client := s.client.handle apiRetryMax o }) ∨
      ∃ l' api, l = .server l' ∧ s.arrives l' = true ∧
        s.api.step (fun _ => event) interval l' = some api ∧ s' = { s with api } := by
  cases l with
  | call =>
    simp only [Sending.step] at hs
    split at hs
    · rename_i hReady
      exact Or.inl ⟨hReady, (Option.some.inj hs).symm⟩
    · cases hs
    · cases hs
  | answered =>
    simp only [Sending.step] at hs
    split at hs
    · rename_i hWaiting
      obtain ⟨o, -, hSame⟩ := Option.map_eq_some_iff.mp hs
      exact Or.inr (Or.inl ⟨o, hWaiting, hSame.symm⟩)
    · cases hs
    · cases hs
  | fails o =>
    simp only [Sending.step] at hs
    split at hs
    · rename_i hWaiting
      split at hs
      · cases hs
      · exact Or.inr (Or.inl ⟨o, hWaiting, (Option.some.inj hs).symm⟩)
    · cases hs
    · cases hs
  | server l =>
    simp only [Sending.step] at hs
    split at hs
    · rename_i hArrives
      obtain ⟨api, hApi, hSame⟩ := Option.map_eq_some_iff.mp hs
      exact Or.inr (Or.inr ⟨l, api, rfl, hArrives, hApi, hSame.symm⟩)
    · cases hs

/-- An attempt that the server has begun with is among those sent. -/
theorem Once.le_retryCount {i : Nat} (h : Once event s) (hi : s.api.progress i ≠ .received) :
    i ≤ s.client.retryCount := by
  by_contra hLt
  have hUnsent : s.client.sent i = false := by
    unfold Client.sent
    split <;> simp <;> omega
  exact hi (h.unsent i hUnsent)

/-- The monitor moves: nothing that was sent is taken back. -/
theorem once_client {client : Client} (h : Once event s)
    (hSent : ∀ i, s.client.sent i = true → client.sent i = true) :
    Once event { s with client } := by
  refine ⟨fun i hi => h.unsent i ?_, h.drafts, h.rows, h.alone⟩
  by_contra hTrue
  rw [Bool.not_eq_false] at hTrue
  exact Bool.false_ne_true (hi.symm.trans (hSent i hTrue))

theorem sent_retry {c : Client} (hWaiting : c.phase = .waiting) (i : Nat)
    (hi : c.sent i = true) : (c.retry apiRetryMax).sent i = true := by
  simp only [Client.sent, hWaiting, decide_eq_true_eq] at hi
  unfold Client.retry
  split
  · simp only [Client.sent, decide_eq_true_eq]
    omega
  · simp only [Client.sent, decide_eq_true_eq]
    exact hi

theorem sent_handle {c : Client} (hWaiting : c.phase = .waiting) (o : Outcome) (i : Nat)
    (hi : c.sent i = true) : (c.handle apiRetryMax o).sent i = true := by
  have hStopped : (⟨c.retryCount, .stopped⟩ : Client).sent i = true := by
    simp only [Client.sent, hWaiting] at hi ⊢
    exact hi
  cases o with
  | response => exact hStopped
  | httpException status =>
    unfold Client.handle
    dsimp only
    split
    · exact hStopped
    · exact sent_retry hWaiting i hi
  | exception => exact sent_retry hWaiting i hi

/-- The attempts that were not sent stay with the monitor when one that was sent proceeds. -/
theorem unsent_proceed {k : Nat} {p : Progress} (h : Once event s)
    (hSent : s.client.sent k = true) :
    ∀ i, s.client.sent i = false → (s.api.proceed k p).progress i = .received := by
  intro i hi
  have hNe : i ≠ k := by
    intro hSame
    rw [hSame] at hi
    exact Bool.false_ne_true (hi.symm.trans hSent)
  simp only [Api.proceed, Function.update_apply, if_neg hNe]
  exact h.unsent i hi

theorem drafts_proceed {k : Nat} {p : Progress} (h : Once event s)
    (hDraft : ∀ d, p.draft = some d → DraftOf s.api.db event d) :
    ∀ i d, ((s.api.proceed k p).progress i).draft = some d → DraftOf s.api.db event d := by
  intro i d hd
  simp only [Api.proceed, Function.update_apply] at hd
  split at hd
  · exact hDraft d hd
  · exact h.drafts i d hd

/-- An attempt proceeds, neither past the check nor to a row of its own. -/
theorem once_proceed {k : Nat} {p : Progress} (h : Once event s) (hSent : s.client.sent k = true)
    (hDraft : ∀ d, p.draft = some d → DraftOf s.api.db event d) (hMade : p.made = none)
    (hPassed : p.passed = true → ∀ i n, (s.api.progress i).made ≠ some n) :
    Once event { s with api := s.api.proceed k p } := by
  refine ⟨unsent_proceed h hSent, drafts_proceed h hDraft, fun i n hn => ?_,
    fun i n hn j hNe => ?_⟩
  · simp only [Api.proceed, Function.update_apply] at hn
    split at hn
    · rw [hMade] at hn
      cases hn
    · exact h.rows i n hn
  · simp only [Api.proceed, Function.update_apply] at hn ⊢
    split at hn
    · rw [hMade] at hn
      cases hn
    · split
      · refine ⟨hMade, ?_⟩
        by_contra hTrue
        exact hPassed (by simpa using hTrue) i n hn
      · exact h.alone i n hn j hNe

/-- A change of the database that keeps the names of the hosts and, up to their statuses, the
rows of the event. -/
theorem once_environment {db' : Db} (h : Once event s)
    (hHosts : ∀ name, uuidOfName db' name = uuidOfName s.api.db name)
    (hRows : ∀ uuid r, s.api.db.liveNotification uuid = some r →
      ∃ status, db'.liveNotification uuid = some { r with status }) :
    Once event { s with api := { s.api with db := db' } } := by
  refine ⟨h.unsent, fun i d hd => ?_, fun i n hn => ?_, h.alone⟩
  · obtain ⟨hSource, hRest⟩ := h.drafts i d hd
    exact ⟨(hHosts _).trans hSource, hRest⟩
  · obtain ⟨r, hLive, hSource, hRest⟩ := h.rows i n hn
    obtain ⟨status, hLive'⟩ := hRows _ r hLive
    exact ⟨_, hLive', (hHosts _).trans hSource, hRest⟩

theorem Once.sent_of_begun {k : Nat} (h : Once event s) (hk : s.api.progress k ≠ .received) :
    s.client.sent k = true := by
  by_contra hNot
  exact hk (h.unsent k (by simpa using hNot))

/-- An attempt that has its row would not have let another one through the check. -/
theorem none_made_of_checked {k : Nat} {d : Draft} (h : Once event s)
    (hCheck : s.api.progress k = .checked d) : ∀ i, (s.api.progress i).made = none := by
  intro i
  by_contra hMade
  obtain ⟨n, hn⟩ := Option.ne_none_iff_exists'.mp hMade
  by_cases hSame : i = k
  · rw [hSame, hCheck] at hn
    cases hn
  · have hPassed := (h.alone i n hn k (Ne.symm hSame)).2
    rw [hCheck] at hPassed
    cases hPassed

theorem once_create {k : Nat} {d : Draft} {uuid : String} {id : Nat} {createdAt : Int}
    {t : Table Notification.notificationUuid} (h : Once event s)
    (hCheck : s.api.progress k = .checked d)
    (hInsert : s.api.db.notifications.insert (d.row uuid id createdAt) = some t)
    (hAlone : ∀ i ≤ s.client.retryCount, i ≠ k → (s.api.progress i).passed = false) :
    Once event { s with api := { s.api.proceed k (.created (d.row uuid id createdAt)) with
      db := { s.api.db with notifications := t } } } := by
  have hDraft := h.drafts k d (by rw [hCheck]; rfl)
  have hSent := h.sent_of_begun (k := k) (by rw [hCheck]; simp)
  have hNone := none_made_of_checked h hCheck
  have hPassed : ∀ i, i ≠ k → (s.api.progress i).passed = false := by
    intro i hNe
    by_cases hLe : i ≤ s.client.retryCount
    · exact hAlone i hLe hNe
    · by_contra hTrue
      refine hLe (h.le_retryCount fun hReceived => hTrue ?_)
      rw [hReceived]
      rfl
  refine ⟨unsent_proceed h hSent, drafts_proceed h fun d' hd' => (by cases hd'), fun i n hn => ?_,
    fun i n hn j hNe => ?_⟩
  · simp only [Api.proceed, Function.update_apply] at hn
    split at hn
    · cases hn
      refine ⟨d.row uuid id createdAt, ?_, hDraft⟩
      rw [liveNotification_insert hInsert, if_pos rfl]
      rfl
    · rw [hNone i] at hn
      cases hn
  · simp only [Api.proceed, Function.update_apply] at hn ⊢
    split at hn
    · rename_i hSame
      rw [if_neg (hSame ▸ hNe)]
      exact ⟨hNone j, hPassed j (hSame ▸ hNe)⟩
    · rw [hNone i] at hn
      cases hn

/-- The engine is told: the attempt keeps its row. -/
theorem once_cast {k : Nat} {n : Notification} (h : Once event s)
    (hCreated : s.api.progress k = .created n) :
    Once event { s with api := s.api.proceed k (.returned n) } := by
  have hSent := h.sent_of_begun (k := k) (by rw [hCreated]; simp)
  have hMade := made_returned hCreated
  refine ⟨unsent_proceed h hSent, drafts_proceed h fun d hd => (by cases hd), fun i n' hn' => ?_,
    fun i n' hn' j hNe => ?_⟩
  · exact h.rows i n' ((hMade i).symm.trans hn')
  · obtain ⟨hNone, hNot⟩ := h.alone i n' ((hMade i).symm.trans hn') j hNe
    refine ⟨(hMade j).trans hNone, ?_⟩
    simp only [Api.proceed, Function.update_apply]
    split
    · rfl
    · exact hNot

/-- The check of an attempt finds the open row of another one. -/
theorem duplicate_of_made {i : Nat} {d : Draft} {n : Notification} (h : Once event s)
    (hDraft : DraftOf s.api.db event d) (hn : (s.api.progress i).made = some n)
    (hOpen : openRow s.api.db n = true) :
    isDuplicateNotification interval d s.api.db = true := by
  obtain ⟨r, hLive, hRow⟩ := h.rows i n hn
  have hStatus : Ha.IsOpen r.status := by
    simpa [openRow, hLive, Ha.IsOpen] using hOpen
  have hMatch : Matching (fun _ : Unit => event) interval := by
    intro _ _
    have hTime : event.generatedTime - interval ≤ event.generatedTime := by omega
    exact ⟨rfl, rfl, rfl, hTime⟩
  exact @isDuplicate_of_row Unit _ interval _ () () d r _ hMatch hDraft hLive hStatus hRow

theorem once_server {l : Label ℕ} {api : Api ℕ} (h : Once event s) (hArrives : s.arrives l = true)
    (hC : Undisturbed s (.server l) = true)
    (hs : s.api.step (fun _ => event) interval l = some api) : Once event { s with api } := by
  cases l with
  | lookUp k =>
    obtain ⟨e, -, rfl⟩ | ⟨d, db, hPopulate, rfl⟩ := step_lookUp hs
    · exact once_proceed h hArrives (fun d hd => by cases hd) rfl fun hp => by cases hp
    · refine once_proceed h hArrives (fun d' hd' => ?_) rfl fun hp => by cases hp
      cases hd'
      exact draftOf_populate hPopulate
  | check k =>
    obtain ⟨d, hProgress, hCheck⟩ := step_check hs
    have hDraft := h.drafts k d (by rw [hProgress]; rfl)
    have hSent := h.sent_of_begun (k := k) (by rw [hProgress]; simp)
    obtain ⟨-, rfl⟩ | ⟨hNot, rfl⟩ := hCheck
    · exact once_proceed h hSent (fun d' hd' => by cases hd') rfl fun hp => by cases hp
    · refine once_proceed h hSent (fun d' hd' => ?_) rfl fun _ i n hn => ?_
      · cases hd'
        exact hDraft
      · have hLe : i ≤ s.client.retryCount := by
          refine h.le_retryCount fun hReceived => ?_
          rw [hReceived] at hn
          cases hn
        have hOpen := of_decide_eq_true hC i hLe
        rw [hn] at hOpen
        rw [duplicate_of_made h hDraft hn hOpen] at hNot
        cases hNot
  | create k uuid id createdAt =>
    obtain ⟨d, notifications, hProgress, hInsert, rfl⟩ := step_create hs
    exact once_create h hProgress hInsert (of_decide_eq_true hC)
  | cast k =>
    obtain ⟨n, hProgress, rfl⟩ := step_cast hs
    exact once_cast h hProgress
  | setStatus uuid st =>
    cases hs
    refine once_environment h (fun _ => rfl) fun uuid' r hLive => ?_
    by_cases hSame : uuid' = uuid
    · subst hSame
      exact ⟨st, liveNotification_setStatus_self hLive⟩
    · exact ⟨r.status, (liveNotification_setStatus_ne hSame).trans hLive⟩
  | setHost uuid v =>
    cases hs
    exact once_environment h (fun name => uuidOfName_setHost s.api.db uuid name v)
      fun _ r hLive => ⟨r.status, hLive⟩
  | insert r =>
    obtain ⟨notifications, hInsert, rfl⟩ := step_insert hs
    exact once_environment h (fun _ => rfl)
      fun _ row hLive => ⟨row.status, live_of_insert hInsert hLive⟩

theorem once_step {l : Step} (h : Once event s) (hC : Undisturbed s l = true)
    (hs : s.step apiRetryMax interval event l = some s') : Once event s' := by
  obtain ⟨hReady, rfl⟩ | ⟨o, hWaiting, rfl⟩ | ⟨l', api, rfl, hArrives, hApi, rfl⟩ := step_cases hs
  · refine once_client h fun i hi => ?_
    simp only [Client.sent, hReady, decide_eq_true_eq] at hi ⊢
    omega
  · exact once_client h (sent_handle hWaiting o)
  · exact once_server h hArrives hC hApi

/-- Retrying creates at most one row for the event, as long as every check of an attempt finds
the row of an earlier one still `new` or `running` and no attempt overtakes another one. -/
theorem atMostOneRow_of_undisturbed
    (h : (sending apiRetryMax interval event).ReachableIf (fun s l => Undisturbed s l = true) s) :
    AtMostOneRow s := by
  have hOnce : Once event s := by
    refine Trans.invariant_of_step (I := Once event) (fun s₀ h₀ => ?_)
      (fun _ _ _ hI hC hs => once_step hI hC hs) h
    have hReceived : ∀ i, s₀.api.progress i = .received := h₀.2
    refine ⟨fun i _ => hReceived i, fun i d hd => ?_, fun i n hn => ?_, fun i n hn => ?_⟩
    · rw [hReceived i] at hd
      cases hd
    · rw [hReceived i] at hn
      cases hn
    · rw [hReceived i] at hn
      cases hn
  intro i j n n' hn hn'
  by_contra hNe
  rw [(hOnce.alone j n' hn' i hNe).1] at hn
  cases hn

theorem retryCount_retry {c : Client} (hc : (c.retryCount : Int) ≤ max apiRetryMax 0) :
    ((c.retry apiRetryMax).retryCount : Int) ≤ max apiRetryMax 0 := by
  unfold Client.retry
  split
  · push_cast
    omega
  · exact hc

theorem retryCount_handle {c : Client} (o : Outcome)
    (hc : (c.retryCount : Int) ≤ max apiRetryMax 0) :
    ((c.handle apiRetryMax o).retryCount : Int) ≤ max apiRetryMax 0 := by
  cases o with
  | response => exact hc
  | exception => exact retryCount_retry hc
  | httpException status =>
    unfold Client.handle
    dsimp only
    split
    · exact hc
    · exact retryCount_retry hc

/-- The loop makes at most `api_retry_max` retries. -/
theorem retryCount_le (h : (sending apiRetryMax interval event).Reachable s) :
    s.client.retryCount ≤ max apiRetryMax 0 := by
  refine Trans.invariant_of_step
    (I := fun s : Sending => (s.client.retryCount : Int) ≤ max apiRetryMax 0)
    (fun s₀ h₀ => ?_) (fun t l t' hI _ hs => ?_) h
  · rw [h₀.1]
    exact le_max_right apiRetryMax 0
  · obtain ⟨-, rfl⟩ | ⟨o, -, rfl⟩ | ⟨l', api, -, -, -, rfl⟩ := step_cases hs
    · exact hI
    · exact retryCount_handle o hI
    · exact hI

end Invariant

/-! ## The answer is lost -/

/-- An instance has failed. -/
def instanceFailure : Request :=
  ⟨"compute5", .vm, [⟨"event", "LIFECYCLE"⟩, ⟨"vir_domain_event", "STOPPED_FAILED"⟩].toFinmap, 700⟩

/-- One live host; the event is about to be sent. -/
def handedOver : Sending where
  client := ⟨0, .ready⟩
  api :=
    { db :=
        { segments := ⟨[⟨"seg5", "south", .auto, 0⟩], by decide⟩
          hosts := ⟨[⟨1, 0, "h5", "compute5", false, false, "seg5", 0⟩], by decide⟩
          notifications := .empty }
      progress := fun _ => .received }

/-- The engine is still at it when the retry arrives: the monitor gets a 409 and stops. -/
theorem atMostOneRow_of_undisturbed_running : ∃ s : Sending,
    ((s.api.progress 0).made.isSome && (s.api.progress 1).duplicate &&
      decide (s.client.phase = .stopped)) = true ∧ AtMostOneRow s := by
  obtain ⟨s, hReach, hs⟩ := Trans.exists_reachableIf_of_runIf (T := sending 12 180 instanceFailure)
    (c := Undisturbed) (s := handedOver)
    [.call, .server (.lookUp 0), .server (.check 0), .server (.create 0 "first" 1 700),
      .server (.cast 0), .server (.setStatus "first" .running), .fails .exception, .call,
      .server (.lookUp 1), .server (.check 1), .answered]
    (fun s => (s.api.progress 0).made.isSome && (s.api.progress 1).duplicate &&
      decide (s.client.phase = .stopped))
    ⟨rfl, fun _ => rfl⟩ (by decide)
  exact ⟨s, hs, atMostOneRow_of_undisturbed hReach⟩

/-- Retrying never creates a second row. -/
def NeverSentTwice : Prop :=
  ∀ (apiRetryMax : Int) (interval : Nat) (event : Request) (s : Sending),
    (sending apiRetryMax interval event).Reachable s → AtMostOneRow s

/-- The engine has finished the notification before the retry arrives. -/
theorem not_neverSentTwice : ¬ NeverSentTwice := by
  intro h
  obtain ⟨s, hReach, hs⟩ := Trans.exists_reachable_of_runIf (T := sending 12 180 instanceFailure)
    (s := handedOver)
    [.call, .server (.lookUp 0), .server (.check 0), .server (.create 0 "first" 1 700),
      .server (.cast 0), .server (.setStatus "first" .running),
      .server (.setStatus "first" .finished), .fails .exception, .call, .server (.lookUp 1),
      .server (.check 1), .server (.create 1 "second" 2 712)]
    (fun s => (s.api.progress 0).made.isSome && (s.api.progress 1).made.isSome)
    ⟨rfl, fun _ => rfl⟩ (by decide)
  rw [Bool.and_eq_true] at hs
  obtain ⟨n, hn⟩ := Option.isSome_iff_exists.mp hs.1
  obtain ⟨n', hn'⟩ := Option.isSome_iff_exists.mp hs.2
  have hSame := h 12 180 instanceFailure s hReach 0 1 n n' hn hn'
  cases hSame

end MasakariHA.Monitors.SendNotification
