import Timeslice.Json.Fields
import Timeslice.Json.Printer
import Timeslice.Json.Reader
import Timeslice.Schema.Basic

/-!
# Schemas as JSON

A schema is written as an object with its name and its columns; a column's ordinals and quantum are
left out when it has none, and read back from `null` as well. A schema or a quantum may also be read
from the array of its fields in order. Fields of other names are passed over; a field that stands
twice is refused.
-/

namespace Timeslice

namespace TimeUnit

def word : TimeUnit → String
  | second => "Seconds"
  | minute => "Minutes"
  | hour => "Hours"
  | day => "Days"

def ofWord? (s : String) : Option TimeUnit :=
  [second, minute, hour, day].find? fun u => u.word == s

def ofJson? (v : Json) : Option TimeUnit :=
  (v.toText? <|> v.loneName?).bind ofWord?

theorem ofWord?_word (u : TimeUnit) : ofWord? u.word = some u := by
  cases u <;> decide

end TimeUnit

namespace Quantum

def toJson (q : Quantum) : Json :=
  .ofFields [("interval", .ofNat q.interval.toNat), ("unit", .ofString q.unit.word)]

def ofParts? (interval unit : Json) : Option Quantum := do
  return ⟨← interval.unsigned32?, ← TimeUnit.ofJson? unit⟩

def ofJson? : Json → Option Quantum
  | .array [interval, unit] => ofParts? interval unit
  | v => do
    let fields ← v.toFields?
    ofParts? (← Json.required? fields "interval") (← Json.required? fields "unit")

end Quantum

namespace ColumnType

/-- The single name in an object that gives it nothing, be it `null` or no fields. -/
def taggedName? : Json → Option String
  | .object [(some name, .object [])] => some name
  | v => v.loneName?

def ofJson? (v : Json) : Option ColumnType :=
  (v.toText? <|> taggedName? v).bind ofText?

end ColumnType

namespace TableColumn

def fieldNames : List String :=
  ["name", "column_type", "nullable", "partition_key_ordinal", "local_key_ordinal", "quantum"]

def deepestExtra : Nat := 124

/-- A field of another name is passed over only if its value could be taken up. -/
def allowsExtras (fields : List (String × Json)) : Bool :=
  fields.all fun f =>
    fieldNames.contains f.1 || (f.2.isMeaningful && f.2.depth ≤ deepestExtra)

def ofJson? (v : Json) : Option TableColumn := do
  let fields ← v.toFields?
  if !allowsExtras fields then none
  return {
    name := ← (← Json.required? fields "name").toText?
    type := ← ColumnType.ofJson? (← Json.required? fields "column_type")
    nullable := ← (← Json.required? fields "nullable").toBool?
    partitionOrdinal? := ← Json.optional? Json.unsigned32? fields "partition_key_ordinal"
    localOrdinal? := ← Json.optional? Json.unsigned32? fields "local_key_ordinal"
    quantum? := ← Json.optional? Quantum.ofJson? fields "quantum" }

/-- The field, unless there is nothing to put into it. -/
def fieldOf {α : Type} (name : String) (encode : α → Json) (a? : Option α) :
    List (String × Json) :=
  match a? with
  | some a => [(name, encode a)]
  | none => []

def ordinalJson (n : UInt32) : Json :=
  .ofNat n.toNat

def toJson (c : TableColumn) : Json :=
  .ofFields (
    [("name", .ofString c.name), ("column_type", .ofString c.type.text),
      ("nullable", .bool c.nullable)] ++
    fieldOf "partition_key_ordinal" ordinalJson c.partitionOrdinal? ++
    fieldOf "local_key_ordinal" ordinalJson c.localOrdinal? ++
    fieldOf "quantum" Quantum.toJson c.quantum?)

end TableColumn

namespace Schema

def ofParts? (name columns : Json) : Option Schema := do
  return ⟨← name.toText?, ← (← columns.toItems?).mapM TableColumn.ofJson?⟩

def ofJson? : Json → Option Schema
  | .array [name, columns] => ofParts? name columns
  | v => do
    let fields ← v.toFields?
    ofParts? (← Json.required? fields "name") (← Json.required? fields "columns")

def toJson (s : Schema) : Json :=
  .ofFields [("name", .ofString s.name), ("columns", .array (s.columns.map TableColumn.toJson))]

def read (text : String) : Option Schema :=
  (Json.read text).bind ofJson?

def write (s : Schema) : String :=
  s.toJson.write

end Schema

end Timeslice
