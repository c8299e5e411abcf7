import Timeslice.Data.Cell
import Timeslice.Predicate.Printer
import Timeslice.Time.Text

/-!
# Evaluating predicates

A predicate is evaluated on a row whose cells stand in the order of given columns. A comparison with
a null cell is false, and so is one with no order between its sides. AND and OR leave out their right
side when the left one decides.
-/

namespace Timeslice

inductive EvaluationFault where
  | unknownColumn (column : String)
  | incomparable (column : String) (literal : Literal)
  deriving DecidableEq

def EvaluationFault.message : EvaluationFault → String
  | unknownColumn column => "unknown column '" ++ column ++ "'"
  | incomparable column literal =>
    "cannot compare column '" ++ column ++ "' with " ++ literal.render

namespace Cell

/-- How a cell that is not null stands to a literal. The outer `none` says that they cannot be
compared, the inner one that there is no order between them. -/
def orderTo? : Cell → Literal → Option (Option Ordering)
  | varchar bytes, .text s => some (some (bytesOrder bytes (Utf8.encode s)))
  | timestamp v, .integer i | sint64 v, .integer i => some (some (wordOrder v i))
  | timestamp v, .decimal x | sint64 v, .decimal x => some ((Double.ofInt v.toInt).compare? x)
  | timestamp v, .text s => (DateText.millis? s).map fun t => some (wordOrder v t)
  | double v, .decimal x => some (v.compare? x)
  | double v, .integer i => some (v.compare? (Double.ofInt i.toInt))
  | boolean v, .truth b => some (some (Ord.compare v.toNat b.toNat))
  | _, _ => none

end Cell

namespace Comparison

def evaluate (c : Comparison) (cell : Cell) : Except EvaluationFault Bool :=
  if cell.isNull then .ok false
  else
    match cell.orderTo? c.literal with
    | some order? => .ok (order?.any c.comparator.holds)
    | none => .error (.incomparable c.column c.literal)

end Comparison

namespace Predicate

/-- The cell under the first column of this name. -/
def cellAt? (columns : List Column) (row : Row) (name : String) : Option Cell :=
  (columns.findIdx? fun c => c.name == name).bind fun i => row[i]?

def evaluate (columns : List Column) (row : Row) : Predicate → Except EvaluationFault Bool
  | compare c =>
    match cellAt? columns row c.column with
    | some cell => c.evaluate cell
    | none => .error (.unknownColumn c.column)
  | and left right =>
    match left.evaluate columns row with
    | .ok true => right.evaluate columns row
    | r => r
  | or left right =>
    match left.evaluate columns row with
    | .ok false => right.evaluate columns row
    | r => r

end Predicate

end Timeslice
