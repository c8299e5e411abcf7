import Timeslice.Data.Cell

/-!
# Key order

Rows are kept in the order of their keys. A key is compared part by part: numbers by value, bytes
lexicographically, and numbers before bytes. Cells of types that cannot be part of a key are left
out of it.
-/

namespace Timeslice

inductive KeyPart where
  | number (v : Int64)
  | bytes (bs : Bytes)
  deriving DecidableEq

namespace KeyPart

def ofCell? : Cell → Option KeyPart
  | .varchar bs | .blob bs => some (bytes bs)
  | .timestamp v | .sint64 v => some (number v)
  | _ => none

def order : KeyPart → KeyPart → Ordering
  | number a, number b => Cell.wordOrder a b
  | number _, bytes _ => .lt
  | bytes _, number _ => .gt
  | bytes a, bytes b => Cell.bytesOrder a b

end KeyPart

abbrev Key := List KeyPart

namespace Key

def ofCells (cells : List Cell) : Key :=
  cells.filterMap KeyPart.ofCell?

def order : Key → Key → Ordering
  | [], [] => .eq
  | [], _ :: _ => .lt
  | _ :: _, [] => .gt
  | a :: as, b :: bs => (a.order b).then (order as bs)

end Key

end Timeslice
