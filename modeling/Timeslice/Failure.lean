import Timeslice.Command.Basic
import Timeslice.Exchange.Basic
import Timeslice.Query.Plan

/-!
# Failures of commands

A command that fails says which command on which table it was, and why.
-/

namespace Timeslice

inductive FailureCause where
  | rejected (rejection : Rejection)
  | unplannable (fault : PlanFault)
  | unexpectedResponse (got : Shape)
  /-- The command came to a response that commands of its kind do not come to. -/
  | wrongShape
  | invalidData (fault : DataFault)
  | cancelled
  /-- The command came to an end without an outcome. -/
  | aborted
  deriving DecidableEq

structure Failure where
  table : String
  command : CommandKind
  cause : FailureCause
  deriving DecidableEq

def PlanFault.kind : PlanFault → FailureKind
  | predicate _ | cut (.tooManyQuanta _ _) => .unparsablePredicate
  | schema _ | unknownColumn _ _ | cut (.nonPositiveWidth _) => .schema

def DataFault.kind : DataFault → FailureKind
  | wrongTypeAccess _ _ => .wrongTypeAccess
  | _ => .typeMismatch

def FailureCause.kind : FailureCause → FailureKind
  | rejected rejection => rejection.kind
  | unplannable fault => fault.kind
  | unexpectedResponse _ | wrongShape => .transport
  | invalidData fault => fault.kind
  | cancelled => .cancelled
  | aborted => .transport

namespace Failure

def kind (f : Failure) : FailureKind :=
  f.cause.kind

def isCancelled (f : Failure) : Bool :=
  f.cause = .cancelled

def message (f : Failure) : String :=
  f.command.text ++ " on '" ++ f.table ++ "' " ++
    match f.cause with
    | .rejected rejection => "failed: " ++ rejection.message
    | .unplannable fault => "could not be planned: " ++ fault.message
    | .unexpectedResponse got => "received an unexpected response: " ++ got.text
    | .wrongShape => "received an unexpected response: payload of the wrong shape"
    | .invalidData fault => "returned invalid data: " ++ fault.message
    | .cancelled => "was cancelled"
    | .aborted => "stopped before it settled"

end Failure

namespace Command

def failure (c : Command) (cause : FailureCause) : Failure :=
  ⟨c.table, c.kind, cause⟩

end Command

end Timeslice
