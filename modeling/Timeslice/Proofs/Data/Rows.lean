import Timeslice.Predicate.Evaluation
import Timeslice.Proofs.Schema.Check

/-!
# Rows that fit a schema

A row that fits has a cell under each column, and its cell under the time column is a timestamp.
Projecting a row takes its cells by name.
-/

namespace Timeslice

namespace Column

theorem checkCells_spec {columns : List Column} {cells : List Cell}
    (h : checkCells columns cells = .ok ()) {i : Nat} {column : Column} {cell : Cell}
    (hcolumn : columns[i]? = some column) (hcell : cells[i]? = some cell) :
    column.checkCell cell = .ok () := by
  induction columns generalizing cells i with
  | nil => simp at hcolumn
  | cons c columns ih =>
    cases cells with
    | nil => simp at hcell
    | cons a cells =>
      obtain ⟨⟨⟩, hhead, htail⟩ := Except.exists_of_bind h
      cases i with
      | zero =>
        cases hcolumn
        cases hcell
        exact hhead
      | succ i => exact ih htail hcolumn hcell

theorem checkAll_spec {of : CellsOf} {columns : List Column} {cells : List Cell}
    (h : checkAll of columns cells = .ok ()) :
    cells.length = columns.length ∧ ∀ (i : Nat) (column : Column) (cell : Cell),
      columns[i]? = some column → cells[i]? = some cell → column.checkCell cell = .ok () := by
  rw [checkAll] at h
  split_ifs at h with hlength
  exact ⟨hlength, fun i column cell hcolumn hcell => checkCells_spec h hcolumn hcell⟩

end Column

namespace Schema

variable {s : Schema} {c : TableColumn} {row : Row}

theorem exists_indexOf_of_mem (h : s.check = .ok ()) (hc : c ∈ s.columns) :
    ∃ i, s.indexOf? c.name = some i ∧ s.columns[i]? = some c := by
  have hsome : (s.indexOf? c.name).isSome = true := by
    rw [indexOf?, List.findIdx?_isSome]
    exact List.any_eq_true.mpr ⟨c, hc, beq_self_eq_true _⟩
  obtain ⟨i, hi⟩ := Option.isSome_iff_exists.mp hsome
  refine ⟨i, hi, ?_⟩
  obtain ⟨hlt, hname, -⟩ := List.findIdx?_eq_some_iff_getElem.mp hi
  rw [List.getElem?_eq_getElem hlt]
  exact congrArg some (eq_of_name_eq h (List.getElem_mem hlt) hc (beq_iff_eq.mp hname))

theorem cellAt_plainColumns (s : Schema) (row : Row) (name : String) :
    Predicate.cellAt? s.plainColumns row name = (s.indexOf? name).bind fun i => row[i]? := by
  rw [Predicate.cellAt?, plainColumns, List.findIdx?_map]
  rfl

theorem length_of_checkRow (hrow : s.checkRow row = .ok ()) : row.length = s.columns.length := by
  have h := (Column.checkAll_spec hrow).1
  rwa [plainColumns, List.length_map] at h

theorem exists_cellAt (h : s.check = .ok ()) (hrow : s.checkRow row = .ok ())
    (hc : c ∈ s.columns) : ∃ i cell, s.indexOf? c.name = some i ∧ row[i]? = some cell ∧
      c.toColumn.checkCell cell = .ok () := by
  obtain ⟨i, hi, hcolumn⟩ := exists_indexOf_of_mem h hc
  obtain ⟨hlength, hfits⟩ := Column.checkAll_spec hrow
  have hlt : i < row.length := by
    rw [length_of_checkRow hrow]
    exact (List.getElem?_eq_some_iff.mp hcolumn).1
  refine ⟨i, row[i], hi, List.getElem?_eq_getElem hlt, ?_⟩
  refine hfits i c.toColumn row[i] ?_ (List.getElem?_eq_getElem hlt)
  rw [plainColumns, List.getElem?_map, hcolumn]
  rfl

theorem TimedBy.exists_time {q : Quantum} (htimed : s.TimedBy c q) (h : s.check = .ok ())
    (hrow : s.checkRow row = .ok ()) :
    ∃ i t, s.indexOf? c.name = some i ∧ row[i]? = some (.timestamp t) := by
  obtain ⟨i, cell, hi, hcell, hfits⟩ := exists_cellAt h hrow htimed.mem
  have htype : c.toColumn.type = .timestamp := htimed.type
  have hnonNull : c.toColumn.nullable = false := htimed.nonNull
  cases cell with
  | timestamp t => exact ⟨i, t, hi, hcell⟩
  | null => simp [Column.checkCell, Cell.type?, hnonNull] at hfits
  | _ => simp [Column.checkCell, Cell.type?, htype] at hfits

end Schema

end Timeslice
