import Timeslice.Schema.Column
import Timeslice.Time.Quantum

/-!
# Schemas

The schema of a table is its name and its columns with their places in the two keys. The local key
addresses a row. The partition key says where the row lies on disk; the time column counts in it by
its quantum only. A column's place in a key is an ordinal, and a key lists its columns by
increasing ordinal.
-/

namespace Timeslice

/-- A column of a table. Ordinals start at one. -/
structure TableColumn extends Column where
  partitionOrdinal? : Option UInt32
  localOrdinal? : Option UInt32
  quantum? : Option Quantum
  deriving DecidableEq

namespace TableColumn

def inPartitionKey (c : TableColumn) : Bool :=
  c.partitionOrdinal?.isSome

def inLocalKey (c : TableColumn) : Bool :=
  c.localOrdinal?.isSome

end TableColumn

structure Schema where
  name : String
  columns : List TableColumn
  deriving DecidableEq

namespace Schema

/-- Puts a column in front of the first one whose ordinal is not less. -/
def place (entry : UInt32 × TableColumn) : List (UInt32 × TableColumn) → List (UInt32 × TableColumn)
  | [] => [entry]
  | e :: rest => if entry.1 ≤ e.1 then entry :: e :: rest else e :: place entry rest

/-- The columns that have an ordinal, by increasing ordinal. Columns of one ordinal keep the
table's order. -/
def keyed (ordinal : TableColumn → Option UInt32) (columns : List TableColumn) :
    List TableColumn :=
  let entries := columns.filterMap fun c => (ordinal c).map fun n => (n, c)
  (entries.foldr place []).map (·.2)

def partitionKey (s : Schema) : List TableColumn :=
  keyed TableColumn.partitionOrdinal? s.columns

def localKey (s : Schema) : List TableColumn :=
  keyed TableColumn.localOrdinal? s.columns

def indexOf? (s : Schema) (name : String) : Option Nat :=
  s.columns.findIdx? fun c => c.name == name

def localKeyIndices (s : Schema) : List Nat :=
  s.localKey.filterMap fun c => s.indexOf? c.name

/-- The first column that carries a quantum: the time column. -/
def quantumColumn? (s : Schema) : Option TableColumn :=
  s.columns.find? fun c => c.quantum?.isSome

def quantum? (s : Schema) : Option Quantum :=
  s.quantumColumn?.bind (·.quantum?)

def columnNames (s : Schema) : List String :=
  s.columns.map (·.name)

def plainColumns (s : Schema) : List Column :=
  s.columns.map (·.toColumn)

end Schema

end Timeslice
