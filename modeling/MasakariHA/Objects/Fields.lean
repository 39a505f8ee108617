import Mathlib.Data.Finmap

/-!
# Enumerations and payloads of the versioned objects

`NotificationStatus`, `NotificationType` and `FailoverSegmentRecoveryMethod` of
`objects/fields.py`, with their values on the wire, and the payload, a dictionary of
strings.
-/

namespace MasakariHA

inductive NotificationStatus
  | new | running | error | failed | ignored | finished
  deriving DecidableEq, Repr

/-- The value of a member. -/
def NotificationStatus.value : NotificationStatus → String
  | .new => "new"
  | .running => "running"
  | .error => "error"
  | .failed => "failed"
  | .ignored => "ignored"
  | .finished => "finished"

inductive NotificationType
  | computeHost | vm | process
  deriving DecidableEq, Repr

namespace NotificationType

/-- `NotificationType.ALL`, with the value of each member. -/
def all : List (String × NotificationType) :=
  [("COMPUTE_HOST", .computeHost), ("VM", .vm), ("PROCESS", .process)]

def ofString (s : String) : Option NotificationType := all.lookup s

/-- The value of a member. -/
def value : NotificationType → String
  | .computeHost => "COMPUTE_HOST"
  | .vm => "VM"
  | .process => "PROCESS"

end NotificationType

/-- `fields.FailoverSegmentRecoveryMethod`. -/
inductive RecoveryMethod
  | auto | reservedHost | autoPriority | rhPriority
  deriving DecidableEq, Repr

/-- The value of a member. -/
def RecoveryMethod.value : RecoveryMethod → String
  | .auto => "auto"
  | .reservedHost => "reserved_host"
  | .autoPriority => "auto_priority"
  | .rhPriority => "rh_priority"

/-- A payload, `DictOfStringsField`: two payloads are equal when they have the same
items, in whatever order they were written. -/
abbrev Payload := Finmap (fun _ : String => String)

end MasakariHA
