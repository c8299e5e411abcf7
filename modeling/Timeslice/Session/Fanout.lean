import Timeslice.Exchange.Basic
import Timeslice.Failure

/-!
# Fanning out a plan

The pieces of a plan are sent in the plan's order with a bounded number of them in flight, and their
answers may come in any order. Each answer is put into the slot of its piece, so the merged result
does not depend on that order. The first answer that does not fit fails the whole query.
-/

namespace Timeslice

structure Fanout where
  plan : Plan
  /-- One slot for each piece, empty until its answer has come. -/
  slots : List (Option ResultSet)
  waiting : List Nat
  unsent : List (Nat × Piece)
  deriving DecidableEq

namespace Fanout

def ofPlan (plan : Plan) : Fanout where
  plan := plan
  slots := plan.pieces.map fun _ => none
  waiting := []
  unsent := (List.range plan.pieces.length).zip plan.pieces

/-- The next piece to send while fewer than `bound` are in flight, and the state once it is sent. -/
def send? (bound : Nat) (f : Fanout) : Option ((Nat × Piece) × Fanout) :=
  match f.unsent with
  | [] => none
  | next :: rest =>
    if f.waiting.length < bound then
      some (next, { f with unsent := rest, waiting := f.waiting ++ [next.1] })
    else none

end Fanout

namespace Response

/-- The rows of a response. An empty response has none. -/
def asRows : Response → Except FailureCause ResultSet
  | rows result => .ok result
  | empty => .ok .empty
  | table _ => .error (.unexpectedResponse .table)

def asEmpty : Response → Except FailureCause Unit
  | empty => .ok ()
  | r => .error (.unexpectedResponse r.shape)

def asTable : Response → Except FailureCause Schema
  | table schema => .ok schema
  | r => .error (.unexpectedResponse r.shape)

end Response

namespace Fanout

def checkWidth (width : Nat) (part : ResultSet) : Except FailureCause ResultSet :=
  match part.rows.find? fun row => row.length != width with
  | none => .ok part
  | some row => .error (.invalidData (.arityMismatch .row width row.length))

def part (plan : Plan) (reply : Except Rejection Response) : Except FailureCause ResultSet :=
  match reply with
  | .error rejection => .error (.rejected rejection)
  | .ok response => response.asRows.bind (checkWidth plan.columns.length)

def receive (f : Fanout) (slot : Nat) (reply : Except Rejection Response) :
    Except FailureCause Fanout :=
  (part f.plan reply).map fun part =>
    { f with slots := f.slots.set slot (some part), waiting := f.waiting.erase slot }

def isComplete (f : Fanout) : Bool :=
  f.unsent.isEmpty && f.waiting.isEmpty

def result (f : Fanout) : ResultSet :=
  f.plan.merge (f.slots.map fun slot => slot.getD .empty)

end Fanout

end Timeslice
