import Timeslice.Cluster.Shelf
import Timeslice.Proofs.Data.Rows

/-!
# Keys made of cells

A column of a key is never null and of a keyable type, so each of its cells makes a part of the key,
and different cells make different parts. Cells of different types can make the same part, but no
column has cells of two types.
-/

namespace Timeslice

namespace Column

variable {column : Column} {a b : Cell}

def IsKeyable (column : Column) : Prop :=
  column.nullable = false ∧ column.type.isKeyable = true

theorem type_of_checkCell (hkey : column.IsKeyable) (h : column.checkCell a = .ok ()) :
    a.type? = some column.type := by
  unfold checkCell at h
  split at h
  · simp [hkey.1] at h
  · next actual hactual =>
    split_ifs at h with htype
    rw [hactual, htype]

theorem exists_keyPart (hkey : column.IsKeyable) (h : column.checkCell a = .ok ()) :
    ∃ part, KeyPart.ofCell? a = some part := by
  have htype := type_of_checkCell hkey h
  have hkeyable := hkey.2
  cases a <;> simp only [Cell.type?, Option.some.injEq, reduceCtorEq] at htype <;>
    first
      | exact ⟨_, rfl⟩
      | simp [← htype, ColumnType.isKeyable] at hkeyable

theorem eq_of_keyPart (hkey : column.IsKeyable) (ha : column.checkCell a = .ok ())
    (hb : column.checkCell b = .ok ()) (h : KeyPart.ofCell? a = KeyPart.ofCell? b) : a = b := by
  obtain ⟨part, hpart⟩ := exists_keyPart hkey ha
  have htype : a.type? = b.type? :=
    (type_of_checkCell hkey ha).trans (type_of_checkCell hkey hb).symm
  rw [hpart] at h
  cases a <;> cases b <;> simp_all [Cell.type?, KeyPart.ofCell?]

abbrev Fit (columns : List Column) (cells : List Cell) : Prop :=
  List.Forall₂ (fun column cell => column.checkCell cell = .ok ()) columns cells

theorem checkCells_of_fit {columns : List Column} {cells : List Cell} (h : Fit columns cells) :
    checkCells columns cells = .ok () := by
  induction h with
  | nil => rfl
  | cons hcell _ ih => simp [checkCells, hcell, ih, bind, Except.bind]

theorem checkAll_eq_ok_iff {of : CellsOf} {columns : List Column} {cells : List Cell} :
    checkAll of columns cells = .ok () ↔ Fit columns cells := by
  constructor
  · intro h
    obtain ⟨hlength, hfits⟩ := checkAll_spec h
    refine List.forall₂_iff_get.mpr ⟨hlength.symm, fun i hi hi' => ?_⟩
    exact hfits i _ _ (List.getElem?_eq_getElem hi) (List.getElem?_eq_getElem hi')
  · intro h
    rw [checkAll, if_pos h.length_eq.symm, checkCells_of_fit h]

end Column

namespace Key

variable {columns : List Column} {cells cells' : List Cell}

theorem length_ofCells (hkey : ∀ column ∈ columns, column.IsKeyable)
    (h : Column.Fit columns cells) : (ofCells cells).length = cells.length := by
  induction h with
  | nil => rfl
  | cons hcell _ ih =>
    obtain ⟨hhead, htail⟩ := List.forall_mem_cons.mp hkey
    obtain ⟨part, hpart⟩ := Column.exists_keyPart hhead hcell
    have hrest := ih htail
    unfold ofCells at hrest ⊢
    rw [List.filterMap_cons_some hpart, List.length_cons, hrest, List.length_cons]

theorem ofCells_injective (hkey : ∀ column ∈ columns, column.IsKeyable)
    (h : Column.Fit columns cells) (h' : Column.Fit columns cells')
    (heq : ofCells cells = ofCells cells') : cells = cells' := by
  induction h generalizing cells' with
  | nil =>
    cases h'
    rfl
  | @cons column a columns cells ha hcells ih =>
    cases h' with
    | @cons _ b _ cells' hb hcells' =>
      obtain ⟨hhead, htail⟩ := List.forall_mem_cons.mp hkey
      obtain ⟨part, hpart⟩ := Column.exists_keyPart hhead ha
      obtain ⟨part', hpart'⟩ := Column.exists_keyPart hhead hb
      unfold ofCells at heq
      rw [List.filterMap_cons_some hpart, List.filterMap_cons_some hpart', List.cons.injEq] at heq
      obtain rfl := Column.eq_of_keyPart hhead ha hb (by rw [hpart, hpart', heq.1])
      rw [ih htail hcells' heq.2]

end Key

namespace Schema

variable {s : Schema} {row : Row} {key key' : List Cell}

def cellsOf (s : Schema) (columns : List TableColumn) (row : Row) : List Cell :=
  (columns.filterMap fun c => s.indexOf? c.name).filterMap fun i => row[i]?

def keyCells (s : Schema) (row : Row) : List Cell :=
  s.cellsOf s.localKey row

theorem keyOf_eq (s : Schema) (row : Row) : Shelf.keyOf s row = Key.ofCells (s.keyCells row) :=
  rfl

theorem cellsOf_append (s : Schema) (front back : List TableColumn) (row : Row) :
    s.cellsOf (front ++ back) row = s.cellsOf front row ++ s.cellsOf back row := by
  rw [cellsOf, List.filterMap_append, List.filterMap_append]
  rfl

theorem cellsOf_cons {c : TableColumn} {i : Nat} {cell : Cell} (hi : s.indexOf? c.name = some i)
    (hcell : row[i]? = some cell) (columns : List TableColumn) :
    s.cellsOf (c :: columns) row = cell :: s.cellsOf columns row := by
  rw [cellsOf, List.filterMap_cons_some (f := fun c : TableColumn => s.indexOf? c.name) hi,
    List.filterMap_cons_some (f := fun i => row[i]?) hcell]
  rfl

theorem checkKey_eq_ok_iff :
    s.checkKey key = .ok () ↔ Column.Fit (s.localKey.map (·.toColumn)) key :=
  Column.checkAll_eq_ok_iff

theorem keyable_of_check (h : s.check = .ok ()) :
    ∀ column ∈ s.localKey.map (·.toColumn), column.IsKeyable := by
  rintro column hcolumn
  obtain ⟨c, hc, rfl⟩ := List.mem_map.mp hcolumn
  exact keyColumn_spec h (.inl hc)

theorem fit_cellsOf (h : s.check = .ok ()) (hrow : s.checkRow row = .ok ())
    {columns : List TableColumn} (hcolumns : ∀ c ∈ columns, c ∈ s.columns) :
    Column.Fit (columns.map (·.toColumn)) (s.cellsOf columns row) := by
  induction columns with
  | nil => exact .nil
  | cons c columns ih =>
    obtain ⟨hc, hrest⟩ := List.forall_mem_cons.mp hcolumns
    obtain ⟨i, cell, hi, hcell, hfits⟩ := exists_cellAt h hrow hc
    rw [cellsOf_cons hi hcell]
    exact .cons hfits (ih hrest)

theorem checkKey_keyCells (h : s.check = .ok ()) (hrow : s.checkRow row = .ok ()) :
    s.checkKey (s.keyCells row) = .ok () :=
  checkKey_eq_ok_iff.mpr (fit_cellsOf h hrow fun _ hc => (mem_keyed.mp hc).1)

theorem length_ofCells_of_checkKey (h : s.check = .ok ()) (hkey : s.checkKey key = .ok ()) :
    (Key.ofCells key).length = key.length :=
  Key.length_ofCells (keyable_of_check h) (checkKey_eq_ok_iff.mp hkey)

theorem eq_of_ofCells_eq (h : s.check = .ok ()) (hkey : s.checkKey key = .ok ())
    (hkey' : s.checkKey key' = .ok ()) (heq : Key.ofCells key = Key.ofCells key') : key = key' :=
  Key.ofCells_injective (keyable_of_check h) (checkKey_eq_ok_iff.mp hkey)
    (checkKey_eq_ok_iff.mp hkey') heq

end Schema

end Timeslice
