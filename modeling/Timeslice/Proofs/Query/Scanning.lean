import Timeslice.Proofs.Cluster.Tables
import Timeslice.Proofs.Query.Planning

/-!
# Scanning a sound shelf

A sound shelf answers a piece that stays inside a quantum with the rows of the piece's span for
which the residual holds, in key order, and of each row the named cells.
-/

namespace Timeslice

namespace ResultSet

theorem rows_ofRows (columns : List Column) (rows : List Row) : (ofRows columns rows).rows = rows := by
  unfold ofRows
  split_ifs with h
  · rw [List.isEmpty_iff.mp h]
    rfl
  · rfl

theorem columns_ofRows_eq_nil_iff {columns : List Column} {rows : List Row}
    (h : columns ≠ []) : (ofRows columns rows).columns = [] ↔ (ofRows columns rows).rows = [] := by
  rw [rows_ofRows, ofRows]
  split_ifs with hrows
  · simp [empty, List.isEmpty_iff.mp hrows]
  · simp only [h, List.isEmpty_iff.not.mp hrows]

end ResultSet

namespace Schema

variable {s : Schema}

theorem TimedBy.timeColumn_eq {c : TableColumn} {q : Quantum} (h : s.TimedBy c q) :
    s.timeColumn = c.name := by
  rw [timeColumn, h.find, Option.elim_some]

def pick (s : Schema) (names : List String) (row : Row) : Row :=
  names.map fun name => (Predicate.cellAt? s.plainColumns row name).getD .null

def view (s : Schema) (row : Row) : Projection → Row
  | .all => row
  | .columns names => s.pick names row

theorem indexOf_getElem (h : s.check = .ok ()) {i : Nat} (hi : i < s.columns.length) :
    s.indexOf? s.columns[i].name = some i := by
  obtain ⟨j, hj, hcolumn⟩ := exists_indexOf_of_mem h (List.getElem_mem hi)
  obtain ⟨hjlt, hjeq⟩ := List.getElem?_eq_some_iff.mp hcolumn
  have hnodup : s.columns.Nodup := (nodup_columnNames h).of_map
  rw [hj, hnodup.getElem_inj_iff.mp hjeq]

theorem pick_columnNames (h : s.check = .ok ()) {row : Row} (hrow : s.checkRow row = .ok ()) :
    s.pick s.columnNames row = row := by
  have hlength := length_of_checkRow hrow
  refine List.ext_getElem (by simp [pick, columnNames, hlength]) fun i hi hi' => ?_
  have hlt : i < s.columns.length := by rwa [← hlength]
  simp only [pick, columnNames, List.getElem_map, cellAt_plainColumns, indexOf_getElem h hlt,
    Option.bind_some, List.getElem?_eq_getElem hi', Option.getD_some]

theorem pick_outputNames (h : s.check = .ok ()) {row : Row} (hrow : s.checkRow row = .ok ())
    (projection : Projection) : s.pick (s.outputNames projection) row = s.view row projection := by
  cases projection with
  | all => exact pick_columnNames h hrow
  | columns names => rfl

theorem exists_positions (h : s.check = .ok ()) {names : List String}
    (hknown : ∀ name ∈ names, ∃ c ∈ s.columns, c.name = name) :
    ∃ indices, Shelf.positions s names = .ok indices ∧
      ∀ row, Row.project row indices = s.pick names row := by
  induction names with
  | nil => exact ⟨[], rfl, fun row => rfl⟩
  | cons name rest ih =>
    rw [List.forall_mem_cons] at hknown
    obtain ⟨⟨c, hc, rfl⟩, hrest⟩ := hknown
    obtain ⟨indices, hindices, hproject⟩ := ih hrest
    obtain ⟨i, hi, -⟩ := exists_indexOf_of_mem h hc
    refine ⟨i :: indices, by rw [Shelf.positions, hi, hindices]; rfl, fun row => ?_⟩
    have htail := hproject row
    unfold Row.project pick at htail ⊢
    rw [List.map_cons, List.map_cons, htail, cellAt_plainColumns, hi, Option.bind_some]

end Schema

namespace Shelf

theorem select_eq {columns : List Column} {residual : Option Predicate} {rows : List Row}
    {keep : Row → Bool} (h : ∀ row ∈ rows, satisfies columns residual row = .ok (keep row)) :
    select columns residual rows = .ok (rows.filter keep) := by
  induction rows with
  | nil => rfl
  | cons row rest ih =>
    rw [List.forall_mem_cons] at h
    rw [select, h.1, List.filter_cons]
    cases hkeep : keep row with
    | true => simp only [if_true, ih h.2, Except.map]
    | false => simpa using ih h.2

theorem readResidual_text {residual : Option Predicate}
    (h : ∀ p ∈ residual, p.IsReadable ∧ p.IsFinite) :
    ∃ read, readResidual (residual.map Predicate.text) = .ok read ∧
      ∀ columns row, satisfies columns read row = satisfies columns residual row := by
  cases residual with
  | none => exact ⟨none, rfl, fun columns row => rfl⟩
  | some p =>
    obtain ⟨hread, hfin⟩ := h p rfl
    refine ⟨some p.regroup, ?_, fun columns row => Predicate.evaluate_regroup columns row p⟩
    rw [Option.map_some, readResidual, Predicate.read_text hread hfin]
    rfl

variable {shelf : Shelf} {c : TableColumn} {q : Quantum}

theorem scan_eq (hsound : shelf.IsSound) (htimed : shelf.schema.TimedBy c q) {i : Nat}
    (hi : shelf.schema.indexOf? c.name = some i) {origin : Int64} {names : List String}
    (hknown : ∀ name ∈ names, ∃ d ∈ shelf.schema.columns, d.name = name) {span : Option Span}
    (hspan : ∀ s ∈ span, s.isEmpty = false ∧ insideQuantum ⟨q.width, origin⟩ s = true)
    {residual : Option Predicate} (hresidual : ∀ p ∈ residual, p.IsReadable ∧ p.IsFinite)
    {keep : Row → Bool}
    (hkeep : ∀ row ∈ shelf.contents, inSpan span i row = true →
      satisfies shelf.schema.plainColumns residual row = .ok (keep row)) :
    ∃ columns, shelf.scan origin ⟨names, c.name, span, residual.map Predicate.text⟩ =
      .ok (.ofRows columns ((shelf.contents.filter fun row => inSpan span i row && keep row).map
        (shelf.schema.pick names))) := by
  obtain ⟨indices, hindices, hproject⟩ := Schema.exists_positions hsound.checked hknown
  obtain ⟨read, hread, hsatisfies⟩ := readResidual_text hresidual
  have hnonempty : span.any (·.isEmpty) = false := by
    cases span with
    | none => rfl
    | some s => exact (hspan s rfl).1
  have hcheck : (span.map (checkSpan shelf.schema origin)).getD (.ok ()) = .ok () := by
    cases span with
    | none => rfl
    | some s =>
      rw [Option.map_some, Option.getD_some, checkSpan, htimed.quantumWidth_eq]
      exact if_pos (hspan s rfl).2
  have hselect : select shelf.schema.plainColumns read (shelf.contents.filter (inSpan span i)) =
      .ok (shelf.contents.filter fun row => inSpan span i row && keep row) := by
    have hin : ∀ row ∈ shelf.contents.filter (inSpan span i),
        satisfies shelf.schema.plainColumns read row = .ok (keep row) := by
      intro row hrow
      rw [List.mem_filter] at hrow
      rw [hsatisfies, hkeep row hrow.1 hrow.2]
    rw [select_eq hin, List.filter_filter]
    simp only [Bool.and_comm]
  refine ⟨shelf.columnsAt indices, ?_⟩
  simp only [scan, hi, hnonempty, hcheck, hread, hindices, hselect, Bool.false_eq_true, if_false,
    bind, Except.bind, pure, Except.pure, hproject]

end Shelf

end Timeslice
