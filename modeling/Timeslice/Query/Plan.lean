import Timeslice.Data.ResultSet
import Timeslice.Predicate.Bounds
import Timeslice.Query.Piece
import Timeslice.Query.Statement
import Timeslice.Schema.Check
import Timeslice.Settings
import Timeslice.Time.Grid

/-!
# Query plans

A SELECT is planned against the schema of its table as a list of pieces, one for each quantum that
its time bounds meet and earliest first. A SELECT without time bounds is a single piece without a
span. The plan also says how the answers to the pieces are put together.
-/

namespace Timeslice

inductive PlanFault where
  | predicate (fault : BoundFault)
  | schema (fault : SchemaFault)
  | unknownColumn (table column : String)
  | cut (fault : CutFault)
  deriving DecidableEq

def CutFault.message : CutFault → String
  | nonPositiveWidth width => "quantum width must be positive, got " ++ Word.text width ++ " ms"
  | tooManyQuanta count limit =>
    "query spans " ++ Numeral.natText count ++ " quanta, more than the allowed " ++
      Numeral.natText limit.toNat

def PlanFault.message : PlanFault → String
  | predicate fault => "unparsable predicate: " ++ fault.message
  | schema fault => "invalid table definition: " ++ fault.message
  | unknownColumn table column => "unknown column '" ++ column ++ "' in table '" ++ table ++ "'"
  | cut fault => fault.message

structure Plan where
  table : String
  columns : List Column
  /-- The first place of the time column in the projection. -/
  timeIndex : Option Nat
  pieces : List Piece
  deriving DecidableEq

namespace Schema

def resolve (s : Schema) (name : String) : Except PlanFault Column :=
  match s.columns.find? fun c => c.name == name with
  | some c => .ok c.toColumn
  | none => .error (.unknownColumn s.name name)

def resolveAll (s : Schema) : List String → Except PlanFault (List Column)
  | [] => .ok []
  | name :: rest => do
    let column ← s.resolve name
    let columns ← s.resolveAll rest
    return column :: columns

def selected (s : Schema) : Projection → Except PlanFault (List Column)
  | .all => .ok s.plainColumns
  | .columns names => s.resolveAll names

def condition (s : Schema) (timeColumn : String) :
    Option Predicate → Except PlanFault TimeSplit
  | none => .ok ⟨none, none⟩
  | some p => do
    let _ ← s.resolveAll p.columns
    (p.splitTime timeColumn).mapError .predicate

def spans (quantum : Quantum) (origin : Int64) (limit : UInt64) :
    Option Span → Except PlanFault (List (Option Span))
  | none => .ok [none]
  | some span => ((quantum.cut origin span limit).map (·.map some)).mapError .cut

/-- The name of the time column; empty if there is none. -/
def timeColumn (s : Schema) : String :=
  s.quantumColumn?.elim "" (·.name)

def plan (s : Schema) (settings : Settings) (select : Select) : Except PlanFault Plan := do
  let columns ← s.selected select.projection
  let projection := columns.map (·.name)
  let quantum ← s.quantum.mapError .schema
  let split ← s.condition s.timeColumn select.predicate
  let spans ← spans quantum settings.origin settings.quantaLimit split.span
  return {
    table := s.name
    columns
    timeIndex := projection.findIdx? fun name => name == s.timeColumn
    pieces := spans.map fun span =>
      ⟨projection, s.timeColumn, span, split.residual.map Predicate.text⟩ }

end Schema

namespace Plan

/-- Whether a row belongs to the piece as far as its time cell shows. Rows without the time column
are not looked into. -/
def keeps (plan : Plan) (piece : Piece) (row : Row) : Bool :=
  match piece.span, plan.timeIndex with
  | some span, some index =>
    match row[index]? with
    | some (.timestamp t) => span.contains t
    | _ => false
  | _, _ => true

def merge (plan : Plan) (parts : List ResultSet) : ResultSet :=
  .ofRows plan.columns
    ((plan.pieces.zip parts).flatMap fun (piece, part) => part.rows.filter (plan.keeps piece))

end Plan

end Timeslice
