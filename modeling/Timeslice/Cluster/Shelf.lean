import Timeslice.Cluster.Key
import Timeslice.Data.Fit
import Timeslice.Data.ResultSet

/-!
# Shelves

A shelf holds the rows of one table by their local keys, in key order. A row takes the place of the
one that has its key.
-/

namespace Timeslice

structure Shelf where
  schema : Schema
  rows : List (Key × Row)
  deriving DecidableEq

namespace Shelf

def empty (schema : Schema) : Shelf := ⟨schema, []⟩

def keyOf (schema : Schema) (row : Row) : Key :=
  Key.ofCells (schema.localKeyIndices.filterMap fun i => row[i]?)

def insertRow (key : Key) (row : Row) : List (Key × Row) → List (Key × Row)
  | [] => [(key, row)]
  | e :: rest =>
    match key.order e.1 with
    | .lt => (key, row) :: e :: rest
    | .eq => (key, row) :: rest
    | .gt => e :: insertRow key row rest

def put (s : Shelf) (row : Row) : Shelf :=
  { s with rows := insertRow (keyOf s.schema row) row s.rows }

def find? (s : Shelf) (key : Key) : Option Row :=
  (s.rows.find? fun e => e.1 == key).map (·.2)

def erase (s : Shelf) (key : Key) : Shelf :=
  { s with rows := s.rows.filter fun e => e.1 != key }

def contents (s : Shelf) : List Row :=
  s.rows.map (·.2)

def columnsAt (s : Shelf) (indices : List Nat) : List Column :=
  indices.filterMap fun i => s.schema.plainColumns[i]?

def keys (s : Shelf) : ResultSet :=
  let indices := s.schema.localKeyIndices
  .ofRows (s.columnsAt indices) (s.contents.map fun row => Row.project row indices)

def fetch (s : Shelf) (key : Key) : ResultSet :=
  .ofRows s.schema.plainColumns (s.find? key).toList

end Shelf

end Timeslice
