import Timeslice.Number.Numeral
import Timeslice.Schema.Column

/-!
# Faults of data

What is wrong with a row, a key or the reading of a cell.
-/

namespace Timeslice

inductive CellsOf where
  | row
  | key
  deriving DecidableEq

def CellsOf.text : CellsOf → String
  | row => "row"
  | key => "key"

inductive DataFault where
  | arityMismatch (of : CellsOf) (expected actual : Nat)
  | cellTypeMismatch (column : String) (expected actual : ColumnType)
  | nullNotAllowed (column : String)
  | wrongTypeAccess (requested actual : ColumnType)
  deriving DecidableEq

namespace DataFault

def message : DataFault → String
  | arityMismatch of expected actual =>
    of.text ++ " has " ++ Numeral.natText actual ++ " cells, expected " ++
      Numeral.natText expected
  | cellTypeMismatch column expected actual =>
    "column '" ++ column ++ "' expects " ++ expected.text ++ ", got " ++ actual.text
  | nullNotAllowed column => "column '" ++ column ++ "' is not nullable"
  | wrongTypeAccess requested actual =>
    "cannot read " ++ actual.text ++ " cell as " ++ requested.text

end DataFault

end Timeslice
