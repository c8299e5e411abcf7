import Timeslice.Cluster.Shelf
import Timeslice.Exchange.Basic
import Timeslice.Predicate.Evaluation
import Timeslice.Predicate.Parser
import Timeslice.Schema.Check
import Timeslice.Time.Grid

/-!
# Scans

How a shelf answers one piece of a query. The piece's span must lie inside one quantum. Its rows are
those in the span for which the residual holds, in key order.
-/

namespace Timeslice

def Rejection.unparsable (message : String) : Rejection :=
  ⟨.unparsablePredicate, message⟩

namespace Shelf

/-- Whether the first and the last instant of a span lie in quanta with the same start. -/
def insideQuantum (grid : Grid) (s : Span) : Bool :=
  grid.start s.start == grid.start (s.stop - 1)

def checkSpan (schema : Schema) (origin : Int64) (s : Span) : Except Rejection Unit :=
  match schema.quantumWidth with
  | .error fault => .error ⟨.schema, fault.message⟩
  | .ok width =>
    if insideQuantum ⟨width, origin⟩ s then .ok ()
    else .error (.unparsable ("query range " ++ s.text ++ " spans more than one quantum"))

def readResidual : Option String → Except Rejection (Option Predicate)
  | none => .ok none
  | some text => ((Predicate.read text).mapError fun f => .unparsable f.message).map some

def positions (schema : Schema) : List String → Except Rejection (List Nat)
  | [] => .ok []
  | name :: rest =>
    match schema.indexOf? name with
    | none => .error (.unparsable ("unknown column " ++ name))
    | some i => (positions schema rest).map (i :: ·)

def inSpan (span : Option Span) (timeIndex : Nat) (row : Row) : Bool :=
  match span with
  | none => true
  | some s =>
    match row[timeIndex]? with
    | some (.timestamp t) => s.contains t
    | _ => false

def satisfies (columns : List Column) (residual : Option Predicate) (row : Row) :
    Except EvaluationFault Bool :=
  match residual with
  | none => .ok true
  | some p => p.evaluate columns row

def select (columns : List Column) (residual : Option Predicate) :
    List Row → Except Rejection (List Row)
  | [] => .ok []
  | row :: rest =>
    match satisfies columns residual row with
    | .error fault => .error (.unparsable fault.message)
    | .ok true => (select columns residual rest).map (row :: ·)
    | .ok false => select columns residual rest

def scan (s : Shelf) (origin : Int64) (piece : Piece) : Except Rejection ResultSet :=
  match s.schema.indexOf? piece.timeColumn with
  | none => .error (.unparsable ("unknown time column " ++ piece.timeColumn))
  | some timeIndex =>
    if piece.span.any (·.isEmpty) then .ok .empty
    else do
      (piece.span.map (checkSpan s.schema origin)).getD (.ok ())
      let residual ← readResidual piece.residual
      let indices ← positions s.schema piece.projection
      let rows ← select s.schema.plainColumns residual
        (s.contents.filter (inSpan piece.span timeIndex))
      return .ofRows (s.columnsAt indices) (rows.map fun row => Row.project row indices)

end Shelf

end Timeslice
