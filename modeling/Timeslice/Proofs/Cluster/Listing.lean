import Timeslice.Proofs.Cluster.Traffic
import Timeslice.Proofs.Query.Resolving
import Timeslice.Proofs.Schema.Keying

/-!
# The keys of a table

The keys that a table lists are those of its rows, in the order that cells themselves have. Each of
them can be fetched and deleted, and once all are deleted the table is as it was created. A query
without a span gives its rows in the same order.
-/

namespace Timeslice

namespace Row

/-- Rows are ordered as their first cells that are not equal. -/
def compare? : Row → Row → Option Ordering
  | [], [] => some .eq
  | [], _ :: _ => some .lt
  | _ :: _, [] => some .gt
  | a :: as, b :: bs =>
    match a.compare? b with
    | some .eq => compare? as bs
    | other => other

end Row

namespace Column

variable {column : Column} {columns : List Column} {a b : Cell}

theorem compare?_eq_order (hkey : column.IsKeyable) (ha : column.checkCell a = .ok ())
    (hb : column.checkCell b = .ok ()) {part part' : KeyPart}
    (hpart : KeyPart.ofCell? a = some part) (hpart' : KeyPart.ofCell? b = some part') :
    a.compare? b = some (part.order part') := by
  have htype : a.type? = b.type? :=
    (type_of_checkCell hkey ha).trans (type_of_checkCell hkey hb).symm
  cases a <;> cases hpart <;> cases b <;> cases hpart' <;> first | rfl | cases htype

theorem Fit.compare?_eq_order (hkey : ∀ column ∈ columns, column.IsKeyable) {as bs : List Cell}
    (ha : Fit columns as) (hb : Fit columns bs) :
    Row.compare? as bs = some (Key.order (Key.ofCells as) (Key.ofCells bs)) := by
  induction ha generalizing bs with
  | nil =>
    cases hb
    rfl
  | @cons column a columns as hcell _ ih =>
    cases hb with
    | @cons _ b _ bs hcell' hrest =>
      obtain ⟨hhead, htail⟩ := List.forall_mem_cons.mp hkey
      obtain ⟨part, hpart⟩ := exists_keyPart hhead hcell
      obtain ⟨part', hpart'⟩ := exists_keyPart hhead hcell'
      have hcells := ih htail hrest
      unfold Key.ofCells at hcells ⊢
      rw [List.filterMap_cons_some hpart, List.filterMap_cons_some hpart', Row.compare?,
        Column.compare?_eq_order hhead hcell hcell' hpart hpart', hcells, Key.order]
      cases part.order part' <;> rfl

end Column

namespace Schema

variable {s : Schema} {row : Row}

theorem project_localKeyIndices (h : s.check = .ok ()) (hrow : s.checkRow row = .ok ()) :
    Row.project row s.localKeyIndices = s.keyCells row := by
  obtain ⟨n, m, hkeyed⟩ := check_iff_isWellKeyed.mp h
  refine Eq.trans (congrFun List.filterMap_eq_map _).symm (List.filterMap_congr fun i hi => ?_)
  have hlt : i < row.length := by
    rw [length_of_checkRow hrow]
    exact hkeyed.addresses.inRange i hi
  rw [Function.comp_apply, List.getElem?_eq_getElem hlt, Option.getD_some]

theorem plainColumns_of_positions {columns : List TableColumn} {indices : List Nat}
    (h : List.Forall₂ (fun c i => s.columns[i]? = some c) columns indices) :
    (indices.filterMap fun i => s.plainColumns[i]?) = columns.map (·.toColumn) := by
  induction h with
  | nil => rfl
  | @cons c i _ _ hat _ ih =>
    have hcolumn : s.plainColumns[i]? = some c.toColumn := by
      rw [plainColumns, List.getElem?_map, hat]
      rfl
    rw [List.filterMap_cons_some hcolumn, List.map_cons, ih]

end Schema

namespace Shelf

def listing (s : Shelf) : List (List Cell) :=
  s.contents.map s.schema.keyCells

variable {s : Shelf} {row : Row} {key : List Cell}

theorem IsSound.project_listing (h : s.IsSound) :
    s.listing = s.contents.map fun row => Row.project row s.schema.localKeyIndices :=
  List.map_congr_left fun _ hrow =>
    (Schema.project_localKeyIndices h.checked (h.contents_fit hrow)).symm

theorem IsSound.keys_eq (h : s.IsSound) :
    s.keys = .ofRows (s.schema.localKey.map (·.toColumn)) s.listing := by
  have hcolumns : s.columnsAt s.schema.localKeyIndices = s.schema.localKey.map (·.toColumn) :=
    Schema.plainColumns_of_positions
      (Schema.forall₂_indices h.checked fun _ hc => (Schema.mem_keyed.mp hc).1)
  rw [keys, hcolumns, h.project_listing]

theorem IsSound.listing_sorted (h : s.IsSound) :
    s.listing.Pairwise fun a b => Row.compare? a b = some .lt := by
  refine List.pairwise_map.mpr (h.contents_sorted.imp_of_mem fun {a b} ha hb hlt => ?_)
  have hfit {row : Row} (hrow : row ∈ s.contents) :
      Column.Fit (s.schema.localKey.map (·.toColumn)) (s.schema.keyCells row) :=
    Schema.checkKey_eq_ok_iff.mp (Schema.checkKey_keyCells h.checked (h.contents_fit hrow))
  rw [(hfit ha).compare?_eq_order (Schema.keyable_of_check h.checked) (hfit hb)]
  exact congrArg some hlt

theorem IsSound.nodup_listing (h : s.IsSound) : s.listing.Nodup := by
  rw [listing, contents, List.map_map]
  exact h.nodup_keyCells

theorem IsSound.checkKey_of_mem (h : s.IsSound) (hkey : key ∈ s.listing) :
    s.schema.checkKey key = .ok () := by
  obtain ⟨row, hrow, rfl⟩ := List.mem_map.mp hkey
  exact Schema.checkKey_keyCells h.checked (h.contents_fit hrow)

theorem IsSound.exists_find? (h : s.IsSound) (hkey : key ∈ s.listing) :
    ∃ row ∈ s.contents, s.schema.keyCells row = key ∧ s.find? (Key.ofCells key) = some row := by
  obtain ⟨row, hrow, rfl⟩ := List.mem_map.mp hkey
  obtain ⟨e, he, rfl⟩ := List.mem_map.mp hrow
  refine ⟨e.2, hrow, rfl, ?_⟩
  have hsome : (s.rows.find? fun f => f.1 == Key.ofCells (s.schema.keyCells e.2)).isSome = true :=
    List.find?_isSome.mpr ⟨e, he, beq_iff_eq.mpr (h.keyed e he)⟩
  obtain ⟨f, hf⟩ := Option.isSome_iff_exists.mp hsome
  have hmem := List.mem_of_find?_eq_some hf
  have hkeyed : f.1 = Key.ofCells (s.schema.keyCells e.2) := by simpa using List.find?_some hf
  have hsame : s.schema.keyCells f.2 = s.schema.keyCells e.2 :=
    ((h.ofCells_eq_iff (h.fits f hmem) (h.checkKey_of_mem hkey)).mp
      (hkeyed.symm.trans (h.keyed f hmem))).symm
  rw [find?, hf, List.inj_on_of_nodup_map h.nodup_keyCells hmem he hsame]
  rfl

theorem IsSound.listing_erase (h : s.IsSound) (hkey : key ∈ s.listing) :
    (s.erase (Key.ofCells key)).listing = s.listing.erase key := by
  rw [h.nodup_listing.erase_eq_filter, listing, listing, contents, contents, List.map_map,
    List.map_map, List.filter_map]
  refine congrArg _ (List.filter_congr fun e he => ?_)
  have hiff := h.ofCells_eq_iff (h.fits e he) (h.checkKey_of_mem hkey)
  rw [← h.keyed e he] at hiff
  rw [Function.comp_apply, Function.comp_apply, Bool.eq_iff_iff, bne_iff_ne, bne_iff_ne, ne_comm,
    Ne, hiff, ne_comm]

theorem exists_keep_of_select {columns : List Column} {residual : Option Predicate}
    {rows selected : List Row} (h : select columns residual rows = .ok selected) :
    ∃ keep : Row → Bool, (∀ row ∈ rows, satisfies columns residual row = .ok (keep row)) ∧
      selected = rows.filter keep := by
  have hkeep : ∀ row ∈ rows, ∃ kept, satisfies columns residual row = .ok kept := by
    induction rows generalizing selected with
    | nil => exact fun row hrow => absurd hrow List.not_mem_nil
    | cons row rest ih =>
      rw [select] at h
      split at h
      · cases h
      · next hrow =>
        obtain ⟨rest', hrest, -⟩ := Except.exists_of_map h
        exact List.forall_mem_cons.mpr ⟨⟨true, hrow⟩, ih hrest⟩
      · next hrow => exact List.forall_mem_cons.mpr ⟨⟨false, hrow⟩, ih h⟩
  choose! keep hkept using hkeep
  exact ⟨keep, hkept, Except.ok.inj (h.symm.trans (select_eq hkept))⟩

/-- The rows for which the residual of a piece holds, in the order of the shelf, and of each the
cells that the piece names. -/
def Shows (s : Shelf) (piece : Piece) (result : ResultSet) : Prop :=
  ∃ timeIndex residual indices keep, s.schema.indexOf? piece.timeColumn = some timeIndex ∧
    readResidual piece.residual = .ok residual ∧
    positions s.schema piece.projection = .ok indices ∧
    (∀ row ∈ s.contents, satisfies s.schema.plainColumns residual row = .ok (keep row)) ∧
    result = .ofRows (s.columnsAt indices)
      ((s.contents.filter keep).map fun row => Row.project row indices)

theorem scan_eq_ok_iff (origin : Int64) {piece : Piece} {result : ResultSet}
    (hspan : piece.span = none) : s.scan origin piece = .ok result ↔ s.Shows piece result := by
  have hall (timeIndex : Nat) : s.contents.filter (inSpan piece.span timeIndex) = s.contents := by
    rw [hspan]
    exact List.filter_eq_self.mpr fun _ _ => rfl
  have hcheck : (piece.span.map (checkSpan s.schema origin)).getD (.ok ()) = .ok () := by
    rw [hspan]
    rfl
  have hnonempty : piece.span.any (·.isEmpty) = false := by
    rw [hspan]
    rfl
  unfold scan
  constructor
  · intro h
    split at h
    · cases h
    · next timeIndex htime =>
      rw [hnonempty, hcheck, hall] at h
      obtain ⟨residual, hresidual, h⟩ := Except.exists_of_bind h
      obtain ⟨indices, hindices, h⟩ := Except.exists_of_bind h
      obtain ⟨rows, hrows, h⟩ := Except.exists_of_bind h
      obtain ⟨keep, hkeep, rfl⟩ := exists_keep_of_select hrows
      exact ⟨timeIndex, residual, indices, keep, htime, hresidual, hindices, hkeep,
        (Except.ok.inj h).symm⟩
  · rintro ⟨timeIndex, residual, indices, keep, htime, hresidual, hindices, hkeep, rfl⟩
    simp only [htime, hnonempty, hcheck, hall, hresidual, hindices, select_eq hkeep,
      Bool.false_eq_true, if_false, bind, Except.bind, pure, Except.pure]

end Shelf

namespace Cluster

def replies (c : Cluster) : List Request → List (Except Rejection Response)
  | [] => []
  | r :: rest => (c.apply r).2 :: (c.apply r).1.replies rest

/-- The keys of a table are listed in order, and every key that is listed works. -/
structure ListsKeys (c : Cluster) (name : String) (shelf : Shelf) : Prop where
  listed : (c.apply ⟨name, .listKeys⟩).2 =
    .ok (.rows (.ofRows (shelf.schema.localKey.map (·.toColumn)) shelf.listing))
  projected : shelf.listing =
    shelf.contents.map fun row => Row.project row shelf.schema.localKeyIndices
  counted : c.tables.rowCount name = some shelf.listing.length
  ascending : shelf.listing.Pairwise fun a b => Row.compare? a b = some .lt
  fetched : ∀ key ∈ shelf.listing, shelf.schema.checkKey key = .ok () ∧ ∃ row ∈ shelf.contents,
    Row.project row shelf.schema.localKeyIndices = key ∧
      (c.apply ⟨name, .fetch key⟩).2 = .ok (.rows ⟨shelf.schema.plainColumns, [row]⟩)
  deleted : ∀ keys : List (List Cell), keys.Perm shelf.listing →
    c.replies (keys.map fun key => ⟨name, .delete key⟩) = keys.map (fun _ => .ok .empty) ∧
      (c.applied (keys.map fun key => ⟨name, .delete key⟩)).tables.find? name =
        some (.empty shelf.schema)
  queried : ∀ piece result, piece.span = none →
    ((c.apply ⟨name, .query piece⟩).2 = .ok (.rows result) ↔ shelf.Shows piece result)

variable {c : Cluster} {name : String} {shelf : Shelf} {key : List Cell}

theorem apply_delete (hfind : c.tables.find? name = some shelf) (hsound : shelf.IsSound)
    (hkey : key ∈ shelf.listing) :
    c.apply ⟨name, .delete key⟩ =
      ({ c with tables := c.tables.update (shelf.erase (Key.ofCells key)) }, .ok .empty) := by
  obtain ⟨row, -, -, hrow⟩ := hsound.exists_find? hkey
  simp [Cluster.apply, Tables.apply, hfind, Tables.delete, hsound.checkKey_of_mem hkey, hrow,
    Except.map]

/-- A table whose listed keys are deleted one after the other is left without rows. -/
theorem deletes_all (hfind : c.tables.find? name = some shelf) (hsound : shelf.IsSound)
    {keys : List (List Cell)} (hkeys : keys.Perm shelf.listing) :
    c.replies (keys.map fun key => ⟨name, .delete key⟩) = keys.map (fun _ => .ok .empty) ∧
      (c.applied (keys.map fun key => ⟨name, .delete key⟩)).tables.find? name =
        some (.empty shelf.schema) := by
  induction keys generalizing c shelf with
  | nil =>
    refine ⟨rfl, hfind.trans (congrArg some ?_)⟩
    have hrows : shelf.rows = [] := by simpa [Shelf.listing, Shelf.contents] using hkeys.symm.eq_nil
    rw [Shelf.empty, ← hrows]
  | cons key rest ih =>
    have hkey : key ∈ shelf.listing := hkeys.mem_iff.mp List.mem_cons_self
    have happly := apply_delete hfind hsound hkey
    have hleft : (c.apply ⟨name, .delete key⟩).1.tables.find? name =
        some (shelf.erase (Key.ofCells key)) := by
      rw [happly, Tables.find?_update, hfind]
      exact if_pos (Tables.name_of_find? hfind).symm
    have hrest : rest.Perm (shelf.erase (Key.ofCells key)).listing := by
      rw [hsound.listing_erase hkey]
      exact (List.cons_perm_iff_perm_erase.mp hkeys).2
    obtain ⟨hreplies, hempty⟩ := ih hleft (hsound.erase _) hrest
    refine ⟨?_, hempty⟩
    rw [List.map_cons, List.map_cons, replies, hreplies, happly]

theorem query_eq_ok_iff (hfind : c.tables.find? name = some shelf) {piece : Piece}
    {result : ResultSet} (hspan : piece.span = none) :
    (c.apply ⟨name, .query piece⟩).2 = .ok (.rows result) ↔ shelf.Shows piece result := by
  rw [← Shelf.scan_eq_ok_iff c.origin hspan]
  cases hscan : shelf.scan c.origin piece with
  | error rejection => simp [Cluster.apply, Tables.apply, hfind, hscan, Except.map]
  | ok shown => simp [Cluster.apply, Tables.apply, hfind, hscan, Except.map]

theorem listsKeys (hfind : c.tables.find? name = some shelf) (hsound : shelf.IsSound) :
    c.ListsKeys name shelf where
  listed := by
    rw [← hsound.keys_eq]
    simp only [Cluster.apply, Tables.apply, hfind]
  projected := hsound.project_listing
  counted := by
    rw [Tables.rowCount, hfind, Shelf.listing, Shelf.contents, List.length_map, List.length_map]
    rfl
  ascending := hsound.listing_sorted
  fetched key hkey := by
    have hcheck := hsound.checkKey_of_mem hkey
    obtain ⟨row, hrow, rfl, hfound⟩ := hsound.exists_find? hkey
    refine ⟨hcheck, row, hrow,
      Schema.project_localKeyIndices hsound.checked (hsound.contents_fit hrow), ?_⟩
    rw [fetch_eq hfind hsound hcheck, hsound.lookup_relation, if_pos hcheck, hfound]
    rfl
  deleted _ hkeys := deletes_all hfind hsound hkeys
  queried _ _ hspan := query_eq_ok_iff hfind hspan

end Cluster

namespace Traffic

/-- In every state that a cluster can reach, the keys of its tables are listed in order, and those
that are listed work. -/
theorem lists_keys (requiresSecurity secured : Bool) (origin : Int64)
    (latencies : List (Pattern × Nat)) (events : List Event) {name : String} {shelf : Shelf}
    (hfind : ((start requiresSecurity secured origin latencies).run events).cluster.tables.find?
      name = some shelf) :
    ((start requiresSecurity secured origin latencies).run events).cluster.ListsKeys name shelf :=
  have horderly := (isOrderly_start requiresSecurity secured origin latencies).run events
  Cluster.listsKeys hfind (horderly.tables.sound.find hfind)

def loadsStored : List Event :=
  [.arrive ⟨"", .createTable Loads.schema⟩, .answer 0,
    .arrive ⟨"loads", .store [Loads.row 97 200 .null, Loads.row 98 100 .null,
      Loads.row 97 (-5) (.sint64 3)]⟩, .answer 0]

def loadsShelf : Shelf where
  schema := Loads.schema
  rows := [
    ([.bytes [97], .number (-5)], Loads.row 97 (-5) (.sint64 3)),
    ([.bytes [97], .number 200], Loads.row 97 200 .null),
    ([.bytes [98], .number 100], Loads.row 98 100 .null)]

theorem lists_keys_loads :
    ((start false false 0 []).run loadsStored).cluster.tables.find? "loads" = some loadsShelf ∧
      loadsShelf.listing = [[.varchar [97], .timestamp (-5)], [.varchar [97], .timestamp 200],
        [.varchar [98], .timestamp 100]] ∧
      ((start false false 0 []).run loadsStored).cluster.ListsKeys "loads" loadsShelf :=
  have hfind : ((start false false 0 []).run loadsStored).cluster.tables.find? "loads" =
      some loadsShelf := by decide +kernel
  ⟨hfind, by decide +kernel, lists_keys false false 0 [] loadsStored hfind⟩

end Traffic

end Timeslice
