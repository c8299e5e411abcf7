import Timeslice.Data.Cell
import Timeslice.Schema.Basic

/-!
# Data that fits a schema

A row fits a table if it has a cell for each column, of the column's type or null where the column
allows it. A key fits if its cells do so for the columns of the local key.
-/

namespace Timeslice

namespace Column

def checkCell (column : Column) (cell : Cell) : Except DataFault Unit :=
  match cell.type? with
  | none => if column.nullable then .ok () else .error (.nullNotAllowed column.name)
  | some actual =>
    if actual = column.type then .ok ()
    else .error (.cellTypeMismatch column.name column.type actual)

def checkCells : List Column → List Cell → Except DataFault Unit
  | column :: columns, cell :: cells => do
    column.checkCell cell
    checkCells columns cells
  | _, _ => .ok ()

def checkAll (of : CellsOf) (columns : List Column) (cells : List Cell) : Except DataFault Unit :=
  if cells.length = columns.length then checkCells columns cells
  else .error (.arityMismatch of columns.length cells.length)

end Column

namespace Schema

def checkRow (s : Schema) (row : Row) : Except DataFault Unit :=
  Column.checkAll .row s.plainColumns row

def checkKey (s : Schema) (key : List Cell) : Except DataFault Unit :=
  Column.checkAll .key (s.localKey.map (·.toColumn)) key

end Schema

end Timeslice
