import Timeslice.Data.Cell
import Timeslice.Schema.Basic

/-!
# Result sets

Rows with the columns that describe them. The description of a table is itself a result set, with a
row for each column of the table.
-/

namespace Timeslice

structure ResultSet where
  columns : List Column
  rows : List Row
  deriving DecidableEq

namespace ResultSet

def empty : ResultSet := ⟨[], []⟩

/-- Rows under their columns. A result set without rows has no columns either. -/
def ofRows (columns : List Column) (rows : List Row) : ResultSet :=
  if rows.isEmpty then empty else ⟨columns, rows⟩

end ResultSet

namespace Schema

def descriptionColumns : List Column :=
  [⟨"Column", .varchar, false⟩, ⟨"Type", .varchar, false⟩, ⟨"Nullable", .boolean, false⟩,
    ⟨"Partition Key", .sint64, true⟩, ⟨"Local Key", .sint64, true⟩, ⟨"Interval", .sint64, true⟩,
    ⟨"Unit", .varchar, true⟩]

def countCell (n : UInt32) : Cell :=
  .sint64 (Int64.ofInt n.toNat)

def descriptionRow (c : TableColumn) : Row :=
  [.ofText c.name, .ofText c.type.text, .boolean c.nullable,
    .ofOption countCell c.partitionOrdinal?, .ofOption countCell c.localOrdinal?,
    .ofOption (fun q => countCell q.interval) c.quantum?,
    .ofOption (fun q => .ofText (String.ofList [q.unit.code])) c.quantum?]

def description (s : Schema) : ResultSet :=
  ⟨descriptionColumns, s.columns.map descriptionRow⟩

end Schema

end Timeslice
