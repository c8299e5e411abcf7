import Timeslice.Data.Fault
import Timeslice.Number.Shortest
import Timeslice.Number.Word
import Timeslice.Text.Utf8
import Timeslice.Time.Calendar

/-!
# Cells and rows

A cell is a typed scalar or null. Cells of one type are ordered by value and nulls are equal to each
other; cells of different types are not ordered. A row is its cells in the table's order.
-/

namespace Timeslice

inductive Cell where
  | null
  | varchar (bytes : Bytes)
  | timestamp (millis : Int64)
  | double (value : Double)
  | sint64 (value : Int64)
  | boolean (value : Bool)
  | blob (bytes : Bytes)
  deriving DecidableEq

namespace Cell

def ofText (s : String) : Cell :=
  varchar (Utf8.encode s)

/-- The moment in whole milliseconds, the fraction of a millisecond dropped. -/
def ofMoment (m : Moment) : Cell :=
  timestamp (Int64.ofInt m.millis)

def ofOption {α : Type} (make : α → Cell) : Option α → Cell
  | some a => make a
  | none => null

def isNull : Cell → Bool
  | null => true
  | _ => false

def type? : Cell → Option ColumnType
  | null => none
  | varchar _ => some .varchar
  | timestamp _ => some .timestamp
  | double _ => some .double
  | sint64 _ => some .sint64
  | boolean _ => some .boolean
  | blob _ => some .blob

def bytesOrder : Bytes → Bytes → Ordering
  | [], [] => .eq
  | [], _ :: _ => .lt
  | _ :: _, [] => .gt
  | a :: as, b :: bs => (compare a.toNat b.toNat).then (bytesOrder as bs)

def wordOrder (a b : Int64) : Ordering :=
  compare a.toInt b.toInt

def compare? : Cell → Cell → Option Ordering
  | null, null => some .eq
  | varchar a, varchar b => some (bytesOrder a b)
  | blob a, blob b => some (bytesOrder a b)
  | timestamp a, timestamp b => some (wordOrder a b)
  | sint64 a, sint64 b => some (wordOrder a b)
  | double a, double b => a.compare? b
  | boolean a, boolean b => some (compare a.toNat b.toNat)
  | _, _ => none

/-- Equality of values: a NaN has no equal, and the two zeros are equal. -/
def sameValue (a b : Cell) : Bool :=
  a.compare? b == some .eq

def text : Cell → String
  | null => "NULL"
  | varchar bytes => "'" ++ Utf8.decodeLossy bytes ++ "'"
  | timestamp v | sint64 v => Word.text v
  | double v => v.text
  | boolean true => "true"
  | boolean false => "false"
  | blob bytes => "<" ++ Numeral.natText bytes.length ++ " bytes>"

/-- Reads a cell as a type: a null cell gives nothing, a cell of another type a fault. -/
def access {α : Type} (type : ColumnType) (pick : Cell → Option α) (c : Cell) :
    Except DataFault (Option α) :=
  match c.type?, pick c with
  | none, _ => .ok none
  | some _, some a => .ok (some a)
  | some actual, none => .error (.wrongTypeAccess type actual)

def asVarchar : Cell → Except DataFault (Option Bytes) :=
  access .varchar fun
    | varchar bytes => some bytes
    | _ => none

def asTimestamp : Cell → Except DataFault (Option Int64) :=
  access .timestamp fun
    | timestamp v => some v
    | _ => none

def asDouble : Cell → Except DataFault (Option Double) :=
  access .double fun
    | double v => some v
    | _ => none

def asSint64 : Cell → Except DataFault (Option Int64) :=
  access .sint64 fun
    | sint64 v => some v
    | _ => none

def asBoolean : Cell → Except DataFault (Option Bool) :=
  access .boolean fun
    | boolean v => some v
    | _ => none

def asBlob : Cell → Except DataFault (Option Bytes) :=
  access .blob fun
    | blob bytes => some bytes
    | _ => none

def asText (c : Cell) : Except DataFault (Option String) :=
  c.asVarchar.map (·.map Utf8.decodeLossy)

def asMoment (c : Cell) : Except DataFault (Option Moment) :=
  c.asTimestamp.map (·.bind fun v => Moment.ofMillis? v.toInt)

end Cell

abbrev Row := List Cell

namespace Row

/-- The cells at these positions, null for a position past the end. -/
def project (row : Row) (indices : List Nat) : Row :=
  indices.map fun i => row[i]?.getD .null

def sameValues : Row → Row → Bool
  | [], [] => true
  | a :: as, b :: bs => a.sameValue b && sameValues as bs
  | _, _ => false

end Row

end Timeslice
