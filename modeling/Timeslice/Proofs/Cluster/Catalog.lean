import Mathlib.Data.Finmap
import Mathlib.Data.List.Find
import Timeslice.Proofs.Cluster.LocalKey
import Timeslice.Proofs.Cluster.Tables

/-!
# A catalog of keyed maps

Tables as maps, without order and without encoded keys: a name stands for a schema and a finite map
from the cells of the local key to rows. Sound tables represent a catalog, and a request makes of
the tables what it makes of the catalog.
-/

namespace Timeslice

/-- A table as a map from the cells of the local key to rows. -/
structure Relation where
  schema : Schema
  rows : Finmap fun _ : List Cell => Row

namespace Relation

def store (t : Relation) (row : Row) : Relation :=
  { t with rows := t.rows.insert (t.schema.keyCells row) row }

def delete (t : Relation) (key : List Cell) : Relation :=
  { t with rows := t.rows.erase key }

theorem schema_storeAll (t : Relation) (rows : List Row) :
    (rows.foldl store t).schema = t.schema := by
  induction rows generalizing t with
  | nil => rfl
  | cons row rest ih => exact ih (t.store row)

theorem lookup_storeAll (t : Relation) (rows : List Row) (key : List Cell) :
    (rows.foldl store t).rows.lookup key =
      (rows.reverse.find? fun row => t.schema.keyCells row = key).or (t.rows.lookup key) := by
  induction rows generalizing t with
  | nil => rfl
  | cons row rest ih =>
    rw [List.foldl_cons, ih, List.reverse_cons, List.find?_append, Option.or_assoc]
    congr 1
    by_cases hkey : t.schema.keyCells row = key
    · subst hkey
      simp [store]
    · rw [store, Finmap.lookup_insert_of_ne _ (Ne.symm hkey)]
      simp [hkey]

end Relation

abbrev Catalog := String → Option Relation

/-- What a request makes of a catalog. A request that is rejected changes nothing. -/
def Catalog.after (catalog : Catalog) (r : Request) : Catalog :=
  match r.payload with
  | .createTable schema =>
    if schema.check = .ok () ∧ catalog schema.name = none then
      Function.update catalog schema.name (some ⟨schema, ∅⟩)
    else catalog
  | .store rows =>
    Function.update catalog r.table <| (catalog r.table).map fun t =>
      if ∀ row ∈ rows, t.schema.checkRow row = .ok () then rows.foldl Relation.store t else t
  | .delete key => Function.update catalog r.table ((catalog r.table).map fun t => t.delete key)
  | _ => catalog

namespace Shelf

def relation (s : Shelf) : Relation where
  schema := s.schema
  rows := (s.rows.map fun e => (⟨s.schema.keyCells e.2, e.2⟩ : Σ _ : List Cell, Row)).toFinmap

variable {s : Shelf} {row : Row} {key : List Cell}

theorem dlookup_map {rows : List (Key × Row)} (f : Row → List Cell) (key : List Cell) :
    (rows.map fun e => (⟨f e.2, e.2⟩ : Σ _ : List Cell, Row)).dlookup key =
      (rows.find? fun e => f e.2 = key).map (·.2) := by
  induction rows with
  | nil => rfl
  | cons e rest ih =>
    rw [List.map_cons, List.find?_cons]
    by_cases hkey : f e.2 = key
    · subst hkey
      simp
    · rw [List.dlookup_cons_ne _ _ (Ne.symm hkey), ih]
      simp [hkey]

theorem IsSound.ofCells_eq_iff (h : s.IsSound) (hrow : s.schema.checkRow row = .ok ())
    (hkey : s.schema.checkKey key = .ok ()) :
    Key.ofCells key = keyOf s.schema row ↔ key = s.schema.keyCells row := by
  rw [Schema.keyOf_eq]
  refine ⟨fun heq => ?_, fun heq => by rw [heq]⟩
  exact Schema.eq_of_ofCells_eq h.checked hkey (Schema.checkKey_keyCells h.checked hrow) heq

/-- The map has the row that the shelf finds under the encoded key, for accepted keys, and no row
under other ones. -/
theorem IsSound.lookup_relation (h : s.IsSound) (key : List Cell) :
    s.relation.rows.lookup key =
      if s.schema.checkKey key = .ok () then s.find? (Key.ofCells key) else none := by
  rw [relation, Finmap.dlookup_list_toFinmap, dlookup_map]
  split_ifs with hkey
  · refine congrArg _ (List.find?_congr fun e he => ?_)
    rw [h.keyed e he, Bool.eq_iff_iff, decide_eq_true_iff, beq_iff_eq, eq_comm (b := key),
      ← h.ofCells_eq_iff (h.fits e he) hkey, eq_comm]
  · rw [Option.map_eq_none_iff, List.find?_eq_none]
    intro e he
    rw [decide_eq_true_iff]
    rintro rfl
    exact hkey (Schema.checkKey_keyCells h.checked (h.fits e he))

theorem find?_insertRow (key key' : Key) (row : Row) (rows : List (Key × Row)) :
    ((insertRow key row rows).find? fun e => e.1 == key').map (·.2) =
      if key' = key then some row else (rows.find? fun e => e.1 == key').map (·.2) := by
  have hhead : ∀ rest : List (Key × Row), (((key, row) :: rest).find? fun e => e.1 == key').map
      (·.2) = if key' = key then some row else (rest.find? fun e => e.1 == key').map (·.2) := by
    intro rest
    split_ifs with heq
    · rw [List.find?_cons_of_pos (by simp [heq])]
      rfl
    · rw [List.find?_cons_of_neg (by simpa using Ne.symm heq)]
  induction rows with
  | nil => exact hhead []
  | cons e rest ih =>
    rw [insertRow]
    split
    · exact hhead _
    · next horder =>
      obtain rfl := Key.eq_of_order horder
      rw [hhead]
      split_ifs with heq
      · rfl
      · rw [List.find?_cons_of_neg (by simpa using Ne.symm heq)]
    · next horder =>
      by_cases he : e.1 = key'
      · subst he
        have hne : e.1 ≠ key := by
          rintro rfl
          rw [Key.order_self] at horder
          cases horder
        rw [List.find?_cons_of_pos (by simp), List.find?_cons_of_pos (by simp), if_neg hne]
      · rw [List.find?_cons_of_neg (by simpa using he), List.find?_cons_of_neg (by simpa using he), ih]

theorem find?_put (s : Shelf) (row : Row) (key : Key) :
    (s.put row).find? key = if key = keyOf s.schema row then some row else s.find? key :=
  find?_insertRow _ _ _ _

theorem find?_erase (s : Shelf) (key key' : Key) :
    (s.erase key).find? key' = if key' = key then none else s.find? key' := by
  rw [erase, find?, find?, List.find?_filter]
  split_ifs with heq
  · rw [Option.map_eq_none_iff, List.find?_eq_none]
    simp [heq]
  · refine congrArg _ (List.find?_congr fun e _ => ?_)
    by_cases he : e.1 = key'
    · simp [he, heq]
    · simp [he]

theorem IsSound.relation_put (h : s.IsSound) (hrow : s.schema.checkRow row = .ok ()) :
    (s.put row).relation = s.relation.store row := by
  refine congrArg (Relation.mk s.schema) (Finmap.ext_lookup fun key => ?_)
  have hown := Schema.checkKey_keyCells h.checked hrow
  have hlookup : (s.put row).relation.rows.lookup key = if s.schema.checkKey key = .ok () then
      (if Key.ofCells key = keyOf s.schema row then some row else s.find? (Key.ofCells key))
      else none := by
    rw [(h.put hrow).lookup_relation, find?_put]
    rfl
  refine hlookup.trans ?_
  by_cases heq : key = s.schema.keyCells row
  · subst heq
    rw [if_pos hown, if_pos (Schema.keyOf_eq _ _).symm]
    exact (Finmap.lookup_insert s.relation.rows).symm
  · refine Eq.trans ?_ (Finmap.lookup_insert_of_ne s.relation.rows heq).symm
    rw [h.lookup_relation]
    split_ifs with hkey hsame
    · exact absurd ((h.ofCells_eq_iff hrow hkey).mp hsame) heq
    · rfl
    · rfl

theorem IsSound.relation_putAll {rows : List Row} (h : s.IsSound)
    (hrows : ∀ row ∈ rows, s.schema.checkRow row = .ok ()) :
    (rows.foldl Shelf.put s).relation = rows.foldl Relation.store s.relation := by
  induction rows generalizing s with
  | nil => rfl
  | cons row rest ih =>
    obtain ⟨hrow, hrest⟩ := List.forall_mem_cons.mp hrows
    rw [List.foldl_cons, List.foldl_cons, ih (h.put hrow) hrest, h.relation_put hrow]

theorem IsSound.relation_erase (h : s.IsSound) (hkey : s.schema.checkKey key = .ok ()) :
    (s.erase (Key.ofCells key)).relation = s.relation.delete key := by
  refine congrArg (Relation.mk s.schema) (Finmap.ext_lookup fun other => ?_)
  have hlookup : (s.erase (Key.ofCells key)).relation.rows.lookup other =
      if s.schema.checkKey other = .ok () then
        (if Key.ofCells other = Key.ofCells key then none else s.find? (Key.ofCells other))
      else none := by
    rw [(h.erase _).lookup_relation, find?_erase]
    rfl
  refine hlookup.trans ?_
  by_cases heq : other = key
  · subst heq
    rw [if_pos hkey, if_pos rfl]
    exact (Finmap.lookup_erase other s.relation.rows).symm
  · refine Eq.trans ?_ (Finmap.lookup_erase_ne (s := s.relation.rows) heq).symm
    rw [h.lookup_relation]
    split_ifs with hother hsame
    · exact absurd (Schema.eq_of_ofCells_eq h.checked hother hkey hsame) heq
    · rfl
    · rfl

theorem IsSound.nodup_keyCells (h : s.IsSound) :
    (s.rows.map fun e => s.schema.keyCells e.2).Nodup := by
  refine List.pairwise_map.mpr (h.sorted.imp_of_mem fun {a b} ha hb hlt heq => ?_)
  rw [h.keyed a ha, h.keyed b hb, Schema.keyOf_eq, Schema.keyOf_eq, heq, Key.order_self] at hlt
  cases hlt

theorem IsSound.card_relation (h : s.IsSound) : s.relation.rows.keys.card = s.rows.length := by
  have hkeys : s.relation.rows.keys = (s.rows.map fun e => s.schema.keyCells e.2).toFinset := by
    ext key
    rw [Finmap.mem_keys, relation, Finmap.mem_list_toFinmap, List.mem_toFinset]
    constructor
    · rintro ⟨row, hrow⟩
      obtain ⟨e, he, heq⟩ := List.mem_map.mp hrow
      cases heq
      exact List.mem_map_of_mem he
    · intro hkey
      obtain ⟨e, he, rfl⟩ := List.mem_map.mp hkey
      exact ⟨e.2, List.mem_map_of_mem he⟩
  rw [hkeys, List.toFinset_card_of_nodup h.nodup_keyCells, List.length_map]

end Shelf

end Timeslice
