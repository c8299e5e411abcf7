/-!
# Columns

The name, type and nullability of a column.
-/

namespace Timeslice

inductive ColumnType where
  | varchar
  | timestamp
  | double
  | sint64
  | boolean
  | blob
  deriving DecidableEq

namespace ColumnType

def text : ColumnType → String
  | varchar => "varchar"
  | timestamp => "timestamp"
  | double => "double"
  | sint64 => "sint64"
  | boolean => "boolean"
  | blob => "blob"

def all : List ColumnType :=
  [varchar, timestamp, double, sint64, boolean, blob]

def ofText? (s : String) : Option ColumnType :=
  all.find? fun t => t.text == s

def isKeyable : ColumnType → Bool
  | varchar | timestamp | sint64 | blob => true
  | double | boolean => false

theorem ofText?_text (t : ColumnType) : ofText? t.text = some t := by
  cases t <;> decide

end ColumnType

structure Column where
  name : String
  type : ColumnType
  nullable : Bool
  deriving DecidableEq

end Timeslice
