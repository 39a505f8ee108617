import MasakariHA.Exception
import MasakariHA.Lib.Ensures
import MasakariHA.Lib.Layers

/-!
# The processing stack of a request

`Resource._process_stack` of `api/openstack/wsgi.py` from the method and its extensions on: the
first halves of the extensions, the method, and what remains of the extensions in reverse order,
each under `ResourceExceptionHandler`; around it the decorator `expected_errors` and the
middleware `FaultWrapper`.

* `resourceExceptionHandler`: what it makes of an exception;
* `preProcessExtensions`, `runMethod`, `postProcessExtensions`: the three parts of the stack;
* `processExtensions_eq_nest`: the loops nest the extensions around the method;
* `respond`: the answer of the API, and `status_methodFault`: the status that an exception of a
  decorated method comes to.
-/

namespace MasakariHA.Api.ProcessStack

open Lib

/-! ## Exceptions and answers -/

/-- A `webob.exc.HTTPException`; without an explanation it has the one of its class. -/
structure HttpError where
  code : Nat
  explanation : Option Message
  deriving DecidableEq

/-- What a frame of the API can raise. -/
inductive Raised where
  | exc (e : Exc)
  | http (e : HttpError)
  | fault (e : HttpError)
  | stopIteration
  deriving DecidableEq

/-- The `code` that the class statement of `exception.py` gives. -/
def ownCode : MasakariClass → Option Nat
  | .masakariException => some 500
  | .conflict => some 409
  | .invalid => some 400
  | .notFound => some 404
  | .forbidden => some 403
  | .unauthorized => some 401
  | .duplicateNotification | .hostOnMaintenanceError => some 409
  | _ => none

/-- The attribute `code` of a class, its own or that of the next base that has one. -/
def classCode (c : MasakariClass) : Nat :=
  (ownCode c <|> ownCode c.base <|> ownCode c.base.base).getD 500

/-- `format_message()` -/
def formatMessage : Exc → Option Message
  | .masakari _ message => some message
  | _ => none

/-- The attribute `code` of an exception, or the default that `FaultWrapper` takes. -/
def exceptionCode : Exc → Nat
  | .masakari c _ => classCode c
  | _ => 500

/-- `ResourceExceptionHandler.__exit__`, for an exception. -/
def resourceExceptionHandler : Raised → Raised
  | .exc e =>
    if e.isA .forbidden then .fault ⟨403, formatMessage e⟩
    else if e.isA .versionNotFoundForAPIMethod then .exc e
    else if e.isA .invalid then .fault ⟨exceptionCode e, formatMessage e⟩
    else if e = .other "TypeError" then .fault ⟨400, none⟩
    else .exc e
  | .http e | .fault e => .fault e
  | .stopIteration => .stopIteration

/-- The isinstance test of `VersionNotFoundForAPIMethod`. -/
def Raised.isVersionNotFound : Raised → Bool
  | .exc e => e.isA .versionNotFoundForAPIMethod
  | _ => false

/-- A response that is a fault, or any other. -/
inductive Response (ρ : Type) where
  | fault (e : HttpError)
  | object (r : ρ)

/-- `ResponseObject`. -/
structure ResponseObject (δ : Type) where
  obj : Option δ
  code : Option Nat
  defaultCode : Nat
  headers : List (String × String)

/-! ## Extensions and methods -/

section Stack

variable {σ ρ δ : Type}

abbrev StackM (σ α : Type) := EStateM Raised σ α

/-- A program that works on the response object, which only it can see. -/
def onObject {τ α : Type} (x : StackM (σ × τ) α) (t : τ) : StackM σ (α × τ) := fun s =>
  match x (s, t) with
  | .ok a (s', t') => .ok (a, t') s'
  | .error e (s', _) => .error e s'

/-- `with ResourceExceptionHandler(): x`, then `except Fault as ex`. -/
def handled {α : Type} (x : StackM σ α) : StackM σ (HttpError ⊕ α) :=
  tryCatch (do let a ← x; pure (.inr a)) fun e =>
    match resourceExceptionHandler e with
    | .fault fault => pure (.inl fault)
    | e => throw e

/-- The value of a frame under `except Fault as ex: response = ex`. -/
def asResponse (x : StackM σ (Option (Response ρ))) : StackM σ (Option (Response ρ)) := do
  match ← handled x with
  | .inl fault => pure (some (.fault fault))
  | .inr response => pure response

/-- An extension: a generator, with what runs up to its `yield` and what runs when the response
object is sent, or a function. A value that is not true counts as none. -/
inductive Extension (σ ρ δ : Type) where
  | generator (next : StackM σ (Option (Response ρ)))
      (send : StackM (σ × ResponseObject δ) (Option (Response ρ)))
  | function (call : StackM (σ × ResponseObject δ) (Option (Response ρ)))

/-- What is queued for post-processing. -/
inductive Queued (σ ρ δ : Type) where
  | generator (send : StackM (σ × ResponseObject δ) (Option (Response ρ)))
  | function (call : StackM (σ × ResponseObject δ) (Option (Response ρ)))

/-- The loop of `pre_process_extensions`: a response, or the queue. -/
def preProcessLoop : List (Extension σ ρ δ) → List (Queued σ ρ δ) →
    StackM σ (Option (Response ρ) × List (Queued σ ρ δ))
  | [], post => pure (none, post.reverse)
  | .generator next send :: extensions, post => do
    let response ← asResponse next
    match response with
    | some response => pure (some response, [])
    | none => preProcessLoop extensions (post ++ [.generator send])
  | .function call :: extensions, post => preProcessLoop extensions (post ++ [.function call])

def preProcessExtensions (extensions : List (Extension σ ρ δ)) :
    StackM σ (Option (Response ρ) × List (Queued σ ρ δ)) :=
  preProcessLoop extensions []

/-- A step of the loop of `post_process_extensions`; `continue` is no response. -/
def postProcess : Queued σ ρ δ → StackM (σ × ResponseObject δ) (Option (Response ρ))
  | .generator send =>
    tryCatch (asResponse send) fun e => if e = .stopIteration then pure none else throw e
  | .function call =>
    tryCatch (asResponse call) fun e => if e.isVersionNotFound then pure none else throw e

def postProcessExtensions : List (Queued σ ρ δ) →
    StackM (σ × ResponseObject δ) (Option (Response ρ))
  | [] => pure none
  | ext :: extensions => do
    let response ← postProcess ext
    match response with
    | some response => pure (some response)
    | none => postProcessExtensions extensions

/-- What a method returns. -/
inductive ActionResult (ρ δ : Type) where
  /-- A dictionary or `None`. -/
  | data (obj : Option δ)
  | responseObject (respObj : ResponseObject δ)
  | response (response : Response ρ)

/-- A method with the `wsgi_code` that the decorator `response` has given it. -/
structure Method (σ ρ δ : Type) where
  call : StackM σ (ActionResult ρ δ)
  wsgiCode : Option Nat

/-- `dispatch`. -/
def dispatch (meth : Method σ ρ δ) : StackM σ (ActionResult ρ δ) :=
  tryCatch meth.call fun e =>
    if e.isVersionNotFound then pure (.response (.fault ⟨404, none⟩)) else throw e

/-- The method under the handler: a response, or the response object of its result. -/
def runMethod (meth : Method σ ρ δ) : StackM σ (Response ρ ⊕ ResponseObject δ) := do
  match ← handled (dispatch meth) with
  | .inl fault => pure (.inl (.fault fault))
  | .inr (.response response) => pure (.inl response)
  | .inr (.data obj) => pure (.inr ⟨obj, none, meth.wsgiCode.getD 200, []⟩)
  | .inr (.responseObject respObj) =>
    pure (.inr { respObj with defaultCode := meth.wsgiCode.getD respObj.defaultCode })

/-- A response of the extensions, or the object as they have left it. -/
def orObject : Option (Response ρ) × ResponseObject δ → Response ρ ⊕ ResponseObject δ
  | (some response, _) => .inl response
  | (none, respObj) => .inr respObj

/-- `_process_stack` from the extensions to the response, or to the object that is serialized. -/
def processExtensions (extensions : List (Extension σ ρ δ)) (meth : Method σ ρ δ) :
    StackM σ (Response ρ ⊕ ResponseObject δ) := do
  let (response, post) ← preProcessExtensions extensions
  match response with
  | some response => pure (.inl response)
  | none =>
    match ← runMethod meth with
    | .inl response => pure (.inl response)
    | .inr respObj => orObject <$> onObject (postProcessExtensions post) respObj

end Stack

/-! ## The loops and the nesting -/

section Nesting

variable {σ ρ δ τ α β : Type}

theorem onObject_pure (a : α) (t : τ) :
    onObject (pure a : StackM (σ × τ) α) t = pure (a, t) := rfl

theorem onObject_bind (x : StackM (σ × τ) α) (f : α → StackM (σ × τ) β) (t : τ) :
    onObject (x >>= f) t = onObject x t >>= fun (a, t') => onObject (f a) t' := by
  funext s
  show onObject (EStateM.bind x f) t s = EStateM.bind (onObject x t) _ s
  simp only [onObject, EStateM.bind]
  cases x (s, t) with
  | ok a s' => rfl
  | error e s' => rfl

/-- An extension as a layer around the method. -/
def Queued.after (ext : Queued σ ρ δ) :
    ResponseObject δ → StackM σ (Option (Response ρ) × ResponseObject δ) :=
  onObject (postProcess ext)

def Extension.layer : Extension σ ρ δ → Layer (StackM σ) (Response ρ) (ResponseObject δ)
  | .generator next send => ⟨asResponse next, (Queued.generator send).after⟩
  | .function call => ⟨pure none, (Queued.function call).after⟩

theorem down_layers (extensions : List (Extension σ ρ δ)) (post : List (Queued σ ρ δ)) :
    Layer.down (extensions.map Extension.layer) (post.map Queued.after) = (do
      let (response, queue) ← preProcessLoop extensions post
      match response with
      | some response => pure (.inl response)
      | none => pure (.inr (queue.reverse.map Queued.after))) := by
  induction extensions generalizing post with
  | nil =>
    rw [List.map_nil, Layer.down, preProcessLoop, pure_bind]
    dsimp only
    rw [List.reverse_reverse]
  | cons ext extensions ih =>
    rw [List.map_cons, Layer.down]
    cases ext with
    | generator next send =>
      rw [preProcessLoop, bind_assoc]
      refine bind_congr fun response => ?_
      cases response with
      | some response => rw [pure_bind]
      | none =>
        have hMap : (post ++ [Queued.generator send]).map Queued.after =
            post.map Queued.after ++ [(Queued.generator send).after] := List.map_append
        exact (congrArg _ hMap.symm).trans (ih _)
    | function call =>
      have hMap : (post ++ [Queued.function call]).map Queued.after =
          post.map Queued.after ++ [(Queued.function call).after] := List.map_append
      rw [preProcessLoop, Extension.layer, pure_bind]
      exact (congrArg _ hMap.symm).trans (ih _)

theorem up_queue (queue : List (Queued σ ρ δ)) (respObj : ResponseObject δ) :
    Layer.up (queue.map Queued.after) respObj =
      orObject <$> onObject (postProcessExtensions queue) respObj := by
  induction queue generalizing respObj with
  | nil => rw [List.map_nil, Layer.up, postProcessExtensions, onObject_pure, map_pure, orObject]
  | cons ext queue ih =>
    rw [List.map_cons, Layer.up, postProcessExtensions, onObject_bind, map_bind]
    refine bind_congr fun after => ?_
    obtain ⟨_ | response, respObj⟩ := after
    · exact ih respObj
    · dsimp only
      rw [onObject_pure, map_pure, orObject]

/-- The stack nests the extensions around the method: the first of them is the outermost, a
response before or after the method passes what is outside, and nothing runs after a response. -/
theorem processExtensions_eq_nest (extensions : List (Extension σ ρ δ)) (meth : Method σ ρ δ) :
    processExtensions extensions meth =
      Layer.nest (extensions.map Extension.layer) (runMethod meth) := by
  rw [← Layer.throughLoops_eq_nest, Layer.throughLoops]
  have hDown := down_layers extensions []
  rw [List.map_nil] at hDown
  rw [hDown, bind_assoc]
  unfold processExtensions preProcessExtensions
  refine bind_congr fun (response, queue) => ?_
  cases response with
  | some response => rw [pure_bind]
  | none =>
    rw [pure_bind]
    dsimp only
    refine bind_congr fun inner => ?_
    cases inner with
    | inl response => rfl
    | inr respObj =>
      dsimp only
      rw [← up_queue, Layer.leave, ← List.map_reverse, List.reverse_reverse]

end Nesting

/-! ## The answer -/

section Answer

variable {σ ρ δ : Type}

/-- What the decorator `expected_errors` makes of an exception. -/
def expectedErrorsHandler (errors : List Nat) (typeName : Raised → String) (e : Raised) : Raised :=
  let unexpected : Raised := .http ⟨500, some (.text
    (s!"Unexpected API Error. Please report this at https://bugs.launchpad.net/masakari/ " ++
      s!"and attach the Masakari API log if possible.\n{typeName e}"))⟩
  match e with
  | .http error => if error.code ∈ errors then .http error else unexpected
  | .exc exc =>
    if !exc.isException || exc.isA .forbidden || exc.isA .validationError then .exc exc
    else unexpected
  | .fault _ | .stopIteration => unexpected

/-- `@expected_errors(errors)` -/
def expectedErrors {α : Type} (errors : List Nat) (typeName : Raised → String)
    (f : StackM σ α) : StackM σ α :=
  tryCatch f fun e => throw (expectedErrorsHandler errors typeName e)

/-- What is made of an exception that leaves the resource. `wsgify` takes an `HTTPException` for
the response; the rest is `FaultWrapper._error`: no class of `exception.py` is `safe`, so that the
fault has the explanation of its own class. A `Timeout` is no `Exception`. -/
def faultWrapper : Raised → Option HttpError
  | .http e | .fault e => some e
  | .exc e => if e.isException then some ⟨exceptionCode e, none⟩ else none
  | .stopIteration => some ⟨500, none⟩

/-- What the client gets: a fault, another response, or a serialized object. -/
inductive Answer (ρ δ : Type) where
  | fault (e : HttpError)
  | response (r : ρ)
  | serialized (respObj : ResponseObject δ)

/-- The status of an answer that the API makes itself. -/
def Answer.status : Answer ρ δ → Option Nat
  | .fault e => some e.code
  | .serialized respObj => some (respObj.code.getD respObj.defaultCode)
  | .response _ => none

/-- The resource under the middleware: the answer, if there is one, and the state after it. -/
def respond (extensions : List (Extension σ ρ δ)) (meth : Method σ ρ δ) (s : σ) :
    Option (Answer ρ δ) × σ :=
  match processExtensions extensions meth s with
  | .ok (.inl (.fault e)) s' => (some (.fault e), s')
  | .ok (.inl (.object r)) s' => (some (.response r), s')
  | .ok (.inr respObj) s' => (some (.serialized respObj), s')
  | .error e s' => ((faultWrapper e).map .fault, s')

/-- The status that an exception of a decorated method comes to. -/
def errorStatus (errors : List Nat) : Raised → Option Nat
  | .http error => some (if error.code ∈ errors then error.code else 500)
  | .exc exc =>
    if !exc.isException then none
    else if exc.isA .forbidden then some 403
    else if exc.isA .validationError then some 400
    else some 500
  | .fault _ | .stopIteration => some 500

/-- What the stack and the middleware make of an exception of the method. -/
def methodFault (e : Raised) : Option HttpError :=
  if e.isVersionNotFound then some ⟨404, none⟩
  else
    match resourceExceptionHandler e with
    | .fault fault => some fault
    | e => faultWrapper e

theorem processExtensions_nil (meth : Method σ ρ δ) :
    processExtensions [] meth = runMethod meth := by
  unfold processExtensions preProcessExtensions
  rw [preProcessLoop, pure_bind]
  dsimp only
  refine (bind_congr fun inner => ?_).trans (bind_pure _)
  cases inner with
  | inl response => rfl
  | inr respObj => rfl

theorem tryCatch_ok {α : Type} {x : StackM σ α} {h : Raised → StackM σ α} {s s' : σ} {a : α}
    (hx : x s = .ok a s') : (tryCatch x h : StackM σ α) s = .ok a s' := by
  show EStateM.tryCatch x h s = _
  unfold EStateM.tryCatch
  rw [hx]

theorem tryCatch_error {α : Type} {x : StackM σ α} {h : Raised → StackM σ α} {s s' : σ}
    {e : Raised} (hx : x s = .error e s') : (tryCatch x h : StackM σ α) s = h e s' := by
  show EStateM.tryCatch x h s = _
  unfold EStateM.tryCatch
  rw [hx]
  rfl

theorem bind_ok {α β : Type} {x : StackM σ α} {f : α → StackM σ β} {s s' : σ} {a : α}
    (hx : x s = .ok a s') : (x >>= f : StackM σ β) s = f a s' := by
  show EStateM.bind x f s = _
  unfold EStateM.bind
  rw [hx]

theorem bind_error {α β : Type} {x : StackM σ α} {f : α → StackM σ β} {s s' : σ} {e : Raised}
    (hx : x s = .error e s') : (x >>= f : StackM σ β) s = .error e s' := by
  show EStateM.bind x f s = _
  unfold EStateM.bind
  rw [hx]

/-- A method that returns data. -/
theorem respond_data {meth : Method σ ρ δ} {s s' : σ} {obj : Option δ}
    (h : meth.call s = .ok (.data obj) s') :
    respond [] meth s = (some (.serialized ⟨obj, none, meth.wsgiCode.getD 200, []⟩), s') := by
  have hHandled : handled (dispatch meth) s = .ok (.inr (.data obj)) s' :=
    tryCatch_ok ((bind_ok (tryCatch_ok h)).trans rfl)
  have hRun : processExtensions [] meth s =
      .ok (.inr ⟨obj, none, meth.wsgiCode.getD 200, []⟩) s' := by
    rw [processExtensions_nil]
    exact (bind_ok hHandled).trans rfl
  rw [respond, hRun]

/-- A method that raises. -/
theorem respond_raised {meth : Method σ ρ δ} {s s' : σ} {e : Raised}
    (h : meth.call s = .error e s') :
    respond [] meth s = ((methodFault e).map .fault, s') := by
  unfold methodFault
  by_cases hVersion : e.isVersionNotFound = true
  · have hDispatch : dispatch meth s = .ok (.response (.fault ⟨404, none⟩)) s' := by
      refine (tryCatch_error h).trans ?_
      rw [if_pos hVersion]
      rfl
    have hHandled : handled (dispatch meth) s = .ok (.inr (.response (.fault ⟨404, none⟩))) s' :=
      tryCatch_ok ((bind_ok hDispatch).trans rfl)
    have hRun : processExtensions [] meth s = .ok (.inl (.fault ⟨404, none⟩)) s' := by
      rw [processExtensions_nil]
      exact (bind_ok hHandled).trans rfl
    rw [respond, hRun, if_pos hVersion]
    rfl
  · have hDispatch : dispatch meth s = .error e s' := by
      refine (tryCatch_error h).trans ?_
      rw [if_neg hVersion]
      rfl
    rw [if_neg hVersion, respond, processExtensions_nil]
    have hCaught : handled (dispatch meth) s = _ := tryCatch_error (bind_error hDispatch)
    cases hHandler : resourceExceptionHandler e with
    | fault fault =>
      rw [hHandler] at hCaught
      have hRun : runMethod meth s = .ok (.inl (.fault fault)) s' := (bind_ok hCaught).trans rfl
      rw [hRun]
      rfl
    | exc exc =>
      rw [hHandler] at hCaught
      have hRun : runMethod meth s = .error (.exc exc) s' := bind_error hCaught
      rw [hRun]
    | http error =>
      rw [hHandler] at hCaught
      have hRun : runMethod meth s = .error (.http error) s' := bind_error hCaught
      rw [hRun]
    | stopIteration =>
      rw [hHandler] at hCaught
      have hRun : runMethod meth s = .error .stopIteration s' := bind_error hCaught
      rw [hRun]

theorem isA_forbidden {e : Exc} (h : e.isA .forbidden = true) :
    e.isA .versionNotFoundForAPIMethod = false := by
  have hClass : ∀ c : MasakariClass, c.isSubclass .forbidden = true →
      c.isSubclass .versionNotFoundForAPIMethod = false := by
    intro c
    cases c <;> decide
  cases e with
  | masakari c message => exact hClass c h
  | other => rfl
  | timeout => rfl

theorem isA_validationError {e : Exc} (h : e.isA .validationError = true) :
    e.isA .versionNotFoundForAPIMethod = false ∧ e.isA .invalid = true ∧ exceptionCode e = 400 := by
  have hClass : ∀ c : MasakariClass, c.isSubclass .validationError = true →
      c.isSubclass .versionNotFoundForAPIMethod = false ∧ c.isSubclass .invalid = true ∧
        classCode c = 400 := by
    intro c
    cases c <;> decide
  cases e with
  | masakari c message => exact hClass c h
  | other => cases h
  | timeout => cases h

/-- The status of the fault that a decorated method's exception comes to. -/
theorem status_methodFault (errors : List Nat) (typeName : Raised → String) (e : Raised) :
    (methodFault (expectedErrorsHandler errors typeName e)).map HttpError.code =
      errorStatus errors e := by
  cases e with
  | http error =>
    unfold expectedErrorsHandler errorStatus
    dsimp only
    split <;> rfl
  | fault => rfl
  | stopIteration => rfl
  | exc exc =>
    unfold expectedErrorsHandler errorStatus
    dsimp only
    by_cases hException : exc.isException = true
    · by_cases hForbidden : exc.isA .forbidden = true
      · simp [methodFault, Raised.isVersionNotFound, resourceExceptionHandler, hException,
          hForbidden, isA_forbidden hForbidden]
      · by_cases hValidation : exc.isA .validationError = true
        · obtain ⟨hVersion, hInvalid, hCode⟩ := isA_validationError hValidation
          simp [methodFault, Raised.isVersionNotFound, resourceExceptionHandler, hException,
            hForbidden, hValidation, hVersion, hInvalid, hCode]
        · simp [methodFault, Raised.isVersionNotFound, resourceExceptionHandler, hException,
            hForbidden, hValidation]
    · cases exc with
      | timeout => rfl
      | masakari c message => exact absurd rfl hException
      | other cls => exact absurd rfl hException

end Answer

end MasakariHA.Api.ProcessStack
