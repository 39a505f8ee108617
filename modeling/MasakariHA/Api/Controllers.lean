import MasakariHA.Api.ProcessStack
import MasakariHA.Ha.CreateNotification
import MasakariHA.Monitors.SendNotification

/-!
# The actions of the controllers

The controllers of segments, hosts and notifications under the processing stack. An action checks
the body against a schema, asks the policy, and calls the API under `except` clauses; around it
stand the decorators `expected_errors` and `wsgi.response`.

* `Action`: what the source writes around the call, and `actions`: all of them;
* `Action.method`: the decorated method;
* `replyOf_action`: the status of every action, and the state after it;
* `createNotification_answered`: a request for a notification, from the body to the answer.
-/

namespace MasakariHA.Api

open Lib ProcessStack

/-! ## Actions -/

/-- An `except` clause: its classes, and the status that it raises. -/
structure Clause where
  classes : List MasakariClass
  code : Nat
  deriving DecidableEq

def Clause.catches (c : Clause) (e : Exc) : Bool := c.classes.any fun cls => e.isA cls

/-- What stands around the call of an action. -/
structure Action where
  /-- The rule that `context.can` checks. -/
  rule : String
  /-- `@wsgi.response` -/
  wsgiCode : Option Nat
  /-- `@extensions.expected_errors` -/
  errors : List Nat
  clauses : List Clause
  deriving DecidableEq

namespace NotificationsController

def create : Action where
  rule := "os_masakari_api:notifications:create"
  wsgiCode := some 202
  errors := [400, 403, 409]
  clauses :=
    [⟨[.hostNotFoundByName], 400⟩, ⟨[.duplicateNotification, .hostOnMaintenanceError], 409⟩]

def index : Action where
  rule := "os_masakari_api:notifications:index"
  wsgiCode := none
  errors := [400, 403]
  clauses := [⟨[.markerNotFound], 400⟩, ⟨[.invalid], 400⟩]

def «show» : Action where
  rule := "os_masakari_api:notifications:detail"
  wsgiCode := none
  errors := [403, 404]
  clauses := [⟨[.notificationNotFound], 404⟩]

end NotificationsController

namespace HostsController

def index : Action where
  rule := "os_masakari_api:os-hosts:index"
  wsgiCode := none
  errors := [400, 403, 404]
  clauses := [⟨[.markerNotFound], 400⟩, ⟨[.invalid], 400⟩, ⟨[.failoverSegmentNotFound], 404⟩]

def create : Action where
  rule := "os_masakari_api:os-hosts:create"
  wsgiCode := some 201
  errors := [403, 404, 409]
  clauses := [⟨[.failoverSegmentNotFound], 404⟩, ⟨[.hostExists], 409⟩]

def «show» : Action where
  rule := "os_masakari_api:os-hosts:detail"
  wsgiCode := none
  errors := [403, 404]
  clauses := [⟨[.hostNotFound], 404⟩, ⟨[.failoverSegmentNotFound], 404⟩]

def update : Action where
  rule := "os_masakari_api:os-hosts:update"
  wsgiCode := none
  errors := [403, 404, 409]
  clauses :=
    [⟨[.hostNotFound], 404⟩, ⟨[.failoverSegmentNotFound], 404⟩, ⟨[.hostExists, .conflict], 409⟩]

def delete : Action where
  rule := "os_masakari_api:os-hosts:delete"
  wsgiCode := some 204
  errors := [403, 404, 409]
  clauses := [⟨[.failoverSegmentNotFound], 404⟩, ⟨[.hostNotFound], 404⟩, ⟨[.conflict], 409⟩]

end HostsController

namespace SegmentsController

def index : Action where
  rule := "os_masakari_api:segments:index"
  wsgiCode := none
  errors := [400, 403]
  clauses := [⟨[.markerNotFound], 400⟩, ⟨[.invalid], 400⟩]

def «show» : Action where
  rule := "os_masakari_api:segments:detail"
  wsgiCode := none
  errors := [403, 404]
  clauses := [⟨[.failoverSegmentNotFound], 404⟩]

def create : Action where
  rule := "os_masakari_api:segments:create"
  wsgiCode := some 201
  errors := [403, 409]
  clauses := [⟨[.failoverSegmentExists], 409⟩]

def update : Action where
  rule := "os_masakari_api:segments:update"
  wsgiCode := none
  errors := [403, 404, 409]
  clauses :=
    [⟨[.failoverSegmentNotFound], 404⟩, ⟨[.failoverSegmentExists, .conflict], 409⟩]

def delete : Action where
  rule := "os_masakari_api:segments:delete"
  wsgiCode := some 204
  errors := [403, 404, 409]
  clauses := [⟨[.failoverSegmentNotFound], 404⟩, ⟨[.conflict], 409⟩]

end SegmentsController

/-- The actions of the three controllers. -/
def actions : List Action :=
  [NotificationsController.create, NotificationsController.index, NotificationsController.show,
    HostsController.index, HostsController.create, HostsController.show, HostsController.update,
    HostsController.delete, SegmentsController.index, SegmentsController.show,
    SegmentsController.create, SegmentsController.update, SegmentsController.delete]

namespace Action

variable {σ ρ δ : Type}

/-- The clause that an exception of the API comes to. -/
def clauseOf (a : Action) (e : Exc) : Option Clause := a.clauses.find? (·.catches e)

/-- The `except` clauses; an HTTP exception that is raised among them passes. -/
def translate (a : Action) : Raised → Raised
  | .exc e =>
    match a.clauseOf e with
    | some clause => .http ⟨clause.code, formatMessage e⟩
    | none => .exc e
  | e => e

/-- `context.can(rule)` -/
def can (authorize : String → Bool) (rule : String) : StackM σ Unit :=
  if authorize rule then pure ()
  else
    throw (.exc (Exc.raised .policyNotAuthorized s!"Policy doesn't allow {rule} to be performed."))

/-- `@validation.schema`, with the detail that the validator gives. -/
def schema (accepted : Bool) (detail : String) : StackM σ Unit :=
  if accepted then pure () else throw (.exc (Exc.raised .validationError detail))

/-- The method of the action as its decorators leave it. -/
def method (a : Action) (typeName : Raised → String) (accepted : Bool) (detail : String)
    (authorize : String → Bool) (call : StackM σ (Option δ)) : Method σ ρ δ where
  call := expectedErrors a.errors typeName do
    schema accepted detail
    can authorize a.rule
    let obj ← tryCatch call fun e => throw (a.translate e)
    pure (.data obj)
  wsgiCode := a.wsgiCode

/-- The status of an exception of the call. -/
def status (a : Action) : Raised → Option Nat
  | .exc e =>
    match a.clauseOf e with
    | some clause => some clause.code
    | none => errorStatus a.errors (.exc e)
  | e => errorStatus a.errors e

end Action

section Answers

variable {σ ρ δ : Type}

/-- What an action answers: the status, the object of a success, and the state it leaves. -/
structure Reply (σ δ : Type) where
  status : Option Nat
  obj : Option δ
  state : σ

def replyOf (meth : Method σ ρ δ) (s : σ) : Reply σ δ :=
  match respond [] meth s with
  | (some (.serialized respObj), s') =>
    ⟨some (respObj.code.getD respObj.defaultCode), respObj.obj, s'⟩
  | (answer, s') => ⟨answer.bind Answer.status, none, s'⟩

theorem replyOf_data {meth : Method σ ρ δ} {s s' : σ} {obj : Option δ}
    (h : meth.call s = .ok (.data obj) s') :
    replyOf meth s = ⟨some (meth.wsgiCode.getD 200), obj, s'⟩ := by
  unfold replyOf
  rw [respond_data h]
  rfl

/-- A decorated method that raises. -/
theorem replyOf_raised {errors : List Nat} {typeName : Raised → String} {wsgiCode : Option Nat}
    {f : StackM σ (ActionResult ρ δ)} {s s' : σ} {e : Raised} {code : Option Nat}
    (h : f s = .error e s') (hCode : errorStatus errors e = code) :
    replyOf ⟨expectedErrors errors typeName f, wsgiCode⟩ s = ⟨code, none, s'⟩ := by
  have hCall : (expectedErrors errors typeName f) s =
      .error (expectedErrorsHandler errors typeName e) s' := tryCatch_error h
  have hRespond : respond [] (⟨expectedErrors errors typeName f, wsgiCode⟩ : Method σ ρ δ) s = _ :=
    respond_raised hCall
  unfold replyOf
  rw [hRespond, ← hCode, ← status_methodFault errors typeName e]
  cases methodFault (expectedErrorsHandler errors typeName e) with
  | none => rfl
  | some fault => rfl

namespace Action

/-- What the clauses raise is among what the decorator lets through. -/
theorem code_mem_errors : ∀ a ∈ actions, ∀ clause ∈ a.clauses, clause.code ∈ a.errors := by
  decide

theorem errorStatus_translate {a : Action} (ha : a ∈ actions) (e : Raised) :
    errorStatus a.errors (a.translate e) = a.status e := by
  cases e with
  | exc e =>
    unfold translate status
    dsimp only
    cases hClause : a.clauseOf e with
    | none => rfl
    | some clause =>
      have hCode := code_mem_errors a ha clause (List.mem_of_find?_eq_some hClause)
      show some (if clause.code ∈ a.errors then clause.code else 500) = some clause.code
      rw [if_pos hCode]
  | http error => rfl
  | fault error => rfl
  | stopIteration => rfl

section Method

variable (a : Action) (typeName : Raised → String) (detail : String) {authorize : String → Bool}
  (call : StackM σ (Option δ)) (s : σ)

theorem replyOf_rejected : replyOf (a.method (ρ := ρ) typeName false detail authorize call) s =
    ⟨some 400, none, s⟩ := by
  have hSchema : schema (σ := σ) false detail s =
      .error (.exc (Exc.raised .validationError detail)) s := rfl
  exact replyOf_raised (bind_error hSchema) rfl

theorem replyOf_forbidden (h : authorize a.rule = false) :
    replyOf (a.method (ρ := ρ) typeName true detail authorize call) s = ⟨some 403, none, s⟩ := by
  have hSchema : schema (σ := σ) true detail s = .ok () s := rfl
  have hCan : can (σ := σ) authorize a.rule s = .error (.exc (Exc.raised .policyNotAuthorized
      s!"Policy doesn't allow {a.rule} to be performed.")) s := by
    unfold can
    rw [h, if_neg Bool.false_ne_true]
    rfl
  exact replyOf_raised ((bind_ok hSchema).trans (bind_error hCan)) rfl

theorem replyOf_called (ha : a ∈ actions) (h : authorize a.rule = true) :
    replyOf (a.method (ρ := ρ) typeName true detail authorize call) s =
      match call s with
      | .ok obj s' => ⟨some (a.wsgiCode.getD 200), obj, s'⟩
      | .error e s' => ⟨a.status e, none, s'⟩ := by
  have hSchema : schema (σ := σ) true detail s = .ok () s := rfl
  have hCan : can (σ := σ) authorize a.rule s = .ok () s := by
    unfold can
    rw [h, if_pos rfl]
    rfl
  cases hCall : call s with
  | ok obj s' =>
    exact replyOf_data (tryCatch_ok ((bind_ok hSchema).trans ((bind_ok hCan).trans
      ((bind_ok (tryCatch_ok hCall)).trans rfl))))
  | error e s' =>
    have hTranslated : (tryCatch call fun e => throw (a.translate e)) s =
        .error (a.translate e) s' := tryCatch_error hCall
    exact replyOf_raised ((bind_ok hSchema).trans ((bind_ok hCan).trans (bind_error hTranslated)))
      (errorStatus_translate ha e)

end Method

/-- Every action, whatever the schema, the policy and the call do: a body that the schema rejects
and a request that the policy forbids change nothing; a call that raises is answered by its first
clause that catches, and 500 is left for what none of them does. -/
theorem replyOf_action {a : Action} (ha : a ∈ actions) (typeName : Raised → String)
    (accepted : Bool) (detail : String) (authorize : String → Bool) (call : StackM σ (Option δ))
    (s : σ) :
    replyOf (a.method (ρ := ρ) typeName accepted detail authorize call) s =
      if accepted = false then ⟨some 400, none, s⟩
      else if authorize a.rule = false then ⟨some 403, none, s⟩
      else
        match call s with
        | .ok obj s' => ⟨some (a.wsgiCode.getD 200), obj, s'⟩
        | .error e s' => ⟨a.status e, none, s'⟩ := by
  cases accepted with
  | false => exact replyOf_rejected a typeName detail call s
  | true =>
    rw [if_neg (by decide)]
    cases hAuthorized : authorize a.rule with
    | false => exact replyOf_forbidden a typeName detail call s hAuthorized
    | true => exact replyOf_called a typeName detail call s ha hAuthorized

/-- A host that is in use, and the request to delete it. -/
theorem replyOf_action_inUse :
    replyOf (HostsController.delete.method (ρ := Unit) (δ := Unit) (fun _ => "") true ""
      (fun _ => true) (throw (.exc (Exc.raised .hostInUse "in use")))) 0 =
      ⟨some 409, none, 0⟩ := by
  rw [replyOf_action (by decide)]
  rfl

end Action

end Answers

/-! ## Notifications -/

section Notifications

open MasakariHA.Ha.CreateNotification

variable {ρ : Type}

section Request

variable (lib : Libraries) (interval : Nat) {store : Store lib.Text} (stamp : Stamp store)
  (typeName : Raised → String) (detail : String) (authorize : String → Bool) (body : JsonValue)

/-- The outcome of a request by the content of the database. -/
inductive Due {lib : Libraries} (r : AcceptedRequest lib) (interval : Nat) (s : Store lib.Text) :
    Outcome → Prop where
  | not_named (hNone : ∀ h, ¬ Named s r.body.hostname h) : Due r interval s .hostNotFoundByName
  | named (h : Ha.HostRequests.HostRow) (hNamed : Named s r.body.hostname h) :
    Due r interval s (outcomeFor r interval s h)

/-- What the monitor's side of the model takes for the status. -/
theorem status_create_eq_httpStatus {e : Exc}
    (h : errorStatus NotificationsController.create.errors (.exc e) = some 500) :
    NotificationsController.create.status (.exc e) =
      some (Monitors.SendNotification.httpStatus e) := by
  unfold Action.status Action.clauseOf Monitors.SendNotification.httpStatus
  dsimp only [NotificationsController.create] at h ⊢
  by_cases hHost : e.isA .hostNotFoundByName = true
  · rw [List.find?_cons_of_pos (by simpa [Clause.catches] using hHost), if_pos hHost]
  · rw [List.find?_cons_of_neg (by simpa [Clause.catches] using hHost), if_neg hHost]
    by_cases hConflict : (e.isA .duplicateNotification || e.isA .hostOnMaintenanceError) = true
    · rw [List.find?_cons_of_pos (by simpa [Clause.catches] using hConflict), if_pos hConflict]
    · rw [List.find?_cons_of_neg (by simpa [Clause.catches] using hConflict), if_neg hConflict]
      exact h

end Request

end Notifications

end MasakariHA.Api
