import Mathlib.Tactic.DeriveFintype

/-!
# Exceptions

The classes of `masakari/exception.py` with their inheritance, and the exceptions that
the code around them can raise: any other `Exception` of a client library, of taskflow
or of Python itself, and `eventlet.timeout.Timeout`, which is a `BaseException` and is
not caught by `except Exception`.

* `Exc.isA`: `isinstance(exc, cls)`;
* `Exc.isException`: what `except Exception` catches;
* `Fault`: an exception that is an `Exception`, the kind a call to another service raises.
-/

namespace MasakariHA

/-- The exception classes of `masakari/exception.py`. -/
inductive MasakariClass
  | masakariException | apiException | apiTimeout | conflict | invalid | invalidName
  | invalidInput | invalidAPIVersionString | malformedRequestBody | notFound | configNotFound
  | forbidden | adminRequired | policyNotAuthorized | pasteAppNotFound | invalidContentType
  | versionNotFoundForAPIMethod | invalidGlobalAPIVersion | apiVersionsIntersect
  | validationError | invalidSortKey | markerNotFound | failoverSegmentNotFound | hostNotFound
  | notificationNotFound | failoverSegmentNotFoundByName | hostNotFoundByName
  | failoverSegmentExists | hostExists | unauthorized | objectActionError | orphanedObjectError
  | duplicateNotification | hostOnMaintenanceError | hostRecoveryFailureException
  | instanceRecoveryFailureException | skipInstanceRecoveryException
  | skipProcessRecoveryException | skipHostRecoveryException | processRecoveryFailureException
  | dbNotAllowed | failoverSegmentInUse | hostInUse | reservedHostsUnavailable
  | lockAlreadyAcquired | ignoreInstanceRecoveryException | hostNotFoundUnderFailoverSegment
  deriving DecidableEq, Repr

namespace MasakariClass

/-- The base class that `exception.py` names in the class statement. -/
def base : MasakariClass → MasakariClass
  | .apiTimeout => .apiException
  | .invalidName | .invalidInput | .invalidAPIVersionString | .invalidContentType
  | .versionNotFoundForAPIMethod | .invalidGlobalAPIVersion | .apiVersionsIntersect
  | .validationError | .invalidSortKey | .duplicateNotification
  | .hostOnMaintenanceError => .invalid
  | .configNotFound | .markerNotFound | .failoverSegmentNotFound | .hostNotFound
  | .notificationNotFound => .notFound
  | .adminRequired | .policyNotAuthorized => .forbidden
  | .failoverSegmentNotFoundByName => .failoverSegmentNotFound
  | .hostNotFoundByName | .hostNotFoundUnderFailoverSegment => .hostNotFound
  | .failoverSegmentInUse | .hostInUse => .conflict
  | _ => .masakariException

/-- `issubclass(c, d)`; no class is more than three steps below `MasakariException`. -/
def isSubclass (c d : MasakariClass) : Bool :=
  c == d || c.base == d || c.base.base == d || c.base.base.base == d

theorem isSubclass_masakariException (c : MasakariClass) :
    c.isSubclass .masakariException = true := by
  cases c <;> rfl

end MasakariClass

/-- The text of an exception: a plain message, or the message of a failed evacuation
with the ids it reports. -/
inductive Message
  | text (s : String)
  /-- "Failed to evacuate instances %(instances)s from host %(host_name)s." -/
  | evacuation (instances : List String) (hostName : String)
  deriving DecidableEq, Repr

/-- What a Python frame can raise. -/
inductive Exc
  /-- An instance of `MasakariException` or of one of its subclasses. -/
  | masakari (cls : MasakariClass) (message : Message)
  /-- Any other `Exception`, by the name of its class. -/
  | other (cls : String)
  /-- `eventlet.timeout.Timeout`. -/
  | timeout
  deriving DecidableEq, Repr

namespace Exc

/-- `isinstance(exc, cls)` for a class of `exception.py`. -/
def isA (cls : MasakariClass) : Exc → Bool
  | .masakari c _ => c.isSubclass cls
  | .other _ => false
  | .timeout => false

/-- What `except Exception` catches. -/
def isException : Exc → Bool
  | .timeout => false
  | _ => true

/-- An exception of `exception.py` with its default message. -/
def raised (cls : MasakariClass) (message : String) : Exc := .masakari cls (.text message)

end Exc

/-- An exception that `except Exception` catches. -/
abbrev Fault := { e : Exc // e.isException = true }

end MasakariHA
