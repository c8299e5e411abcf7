import Timeslice.Data.ResultSet
import Timeslice.Proofs.Text.Encoding

/-!
# What a description tells

The description of a table says all there is to its columns: a reader of its rows gets the columns
back, with their places in the keys and their quanta. Of the table itself it leaves out the name.
-/

namespace Timeslice

namespace Cell

def readText? : Cell → Option String
  | varchar bytes => some (Utf8.decodeLossy bytes)
  | _ => none

def readCount? : Cell → Option UInt32
  | sint64 n => Word.unsigned32? n.toInt
  | _ => none

theorem readText?_ofText (s : String) : (ofText s).readText? = some s :=
  congrArg some (Utf8.decodeLossy_encode s)

end Cell

def Quantum.ofCells? (interval unit : Cell) : Option Quantum := do
  let n ← interval.readCount?
  let name ← unit.readText?
  let u ← TimeUnit.ofName? name
  return ⟨n, u⟩

def TableColumn.ofRow? : Row → Option TableColumn
  | [name, type, .boolean nullable, partitionOrdinal, localOrdinal, interval, unit] => do
    let name ← name.readText?
    let typeText ← type.readText?
    let type ← ColumnType.ofText? typeText
    return ⟨⟨name, type, nullable⟩, partitionOrdinal.readCount?, localOrdinal.readCount?,
      Quantum.ofCells? interval unit⟩
  | _ => none

def ResultSet.describedColumns? (result : ResultSet) : Option (List TableColumn) :=
  result.rows.mapM TableColumn.ofRow?

namespace Schema

theorem readCount?_countCell (n : UInt32) : (countCell n).readCount? = some n := by
  have hlt := n.toNat_lt
  have hvalue : (Int64.ofInt (n.toNat : Int)).toInt = n.toNat :=
    Int64.toInt_ofInt_of_le (by omega) (by omega)
  rw [countCell, Cell.readCount?, hvalue, Word.unsigned32?_toNat]

theorem readCount?_ofOption (n : Option UInt32) : (Cell.ofOption countCell n).readCount? = n := by
  cases n with
  | none => rfl
  | some n => exact readCount?_countCell n

theorem ofName?_code (u : TimeUnit) : TimeUnit.ofName? (String.ofList [u.code]) = some u := by
  cases u <;> decide

theorem quantum_ofCells? (q : Option Quantum) :
    Quantum.ofCells? (.ofOption (fun q => countCell q.interval) q)
      (.ofOption (fun q => .ofText (String.ofList [q.unit.code])) q) = q := by
  cases q with
  | none => rfl
  | some q =>
    simp only [Quantum.ofCells?, Cell.ofOption, readCount?_countCell, Cell.readText?_ofText,
      ofName?_code, Option.bind_eq_bind, Option.bind_some, Option.pure_def]

theorem ofRow?_descriptionRow (c : TableColumn) : TableColumn.ofRow? (descriptionRow c) = some c := by
  simp only [descriptionRow, TableColumn.ofRow?, Cell.readText?_ofText, ColumnType.ofText?_text,
    readCount?_ofOption, quantum_ofCells?, Option.bind_eq_bind, Option.bind_some, Option.pure_def]

theorem describedColumns?_description (s : Schema) :
    s.description.describedColumns? = some s.columns := by
  obtain ⟨name, columns⟩ := s
  induction columns with
  | nil => rfl
  | cons c rest ih =>
    have hrest : (rest.map descriptionRow).mapM TableColumn.ofRow? = some rest := ih
    simp only [ResultSet.describedColumns?, description, List.map_cons, List.mapM_cons,
      ofRow?_descriptionRow, hrest, Option.bind_eq_bind, Option.bind_some, Option.pure_def]

end Schema

end Timeslice
