import Timeslice.Proofs.Cluster.Catalog
import Timeslice.Proofs.Cluster.Serving

/-!
# A cluster is a catalog

Whatever requests a cluster has applied, its tables represent the catalog that the same requests
make of the empty one, and it answers as that catalog has it.
-/

namespace Timeslice

namespace Tables

def catalog (ts : Tables) : Catalog :=
  fun name => (ts.find? name).map Shelf.relation

structure IsOrderly (ts : Tables) : Prop where
  sound : ts.IsSound
  names : (ts.map fun s => s.schema.name).Nodup

def after (origin : Int64) (ts : Tables) (r : Request) : Tables :=
  match ts.apply origin r with
  | .ok (_, ts') => ts'
  | .error _ => ts

variable {ts ts' : Tables} {shelf shelf' : Shelf} {name : String} {origin : Int64} {r : Request}

theorem name_of_find? (h : ts.find? name = some shelf) : shelf.schema.name = name := by
  simpa using List.find?_some h

theorem IsOrderly.find?_name (h : ts.IsOrderly) (hshelf : shelf ∈ ts) :
    ts.find? shelf.schema.name = some shelf := by
  obtain ⟨found, hfound⟩ : ∃ found, ts.find? shelf.schema.name = some found :=
    Option.isSome_iff_exists.mp (List.find?_isSome.mpr ⟨shelf, hshelf, beq_self_eq_true _⟩)
  rw [hfound, List.inj_on_of_nodup_map h.names (List.mem_of_find?_eq_some hfound) hshelf
    (name_of_find? hfound)]

theorem names_update (ts : Tables) (shelf : Shelf) :
    ((ts.update shelf).map fun s => s.schema.name) = ts.map fun s => s.schema.name := by
  rw [update, List.map_map]
  refine List.map_congr_left fun s _ => ?_
  rw [Function.comp_apply]
  split_ifs with hname
  · exact hname.symm
  · rfl

theorem find?_update (ts : Tables) (shelf : Shelf) (name : String) :
    (ts.update shelf).find? name =
      if name = shelf.schema.name then (ts.find? name).map fun _ => shelf else ts.find? name := by
  induction ts with
  | nil => simp [update, find?]
  | cons s rest ih =>
    unfold update find? at ih ⊢
    rw [List.map_cons]
    by_cases hsame : s.schema.name = shelf.schema.name
    · rw [if_pos hsame]
      by_cases hname : s.schema.name = name
      · rw [List.find?_cons_of_pos (by simpa [hname] using hsame.symm),
          List.find?_cons_of_pos (by simpa using hname), if_pos (hname.symm.trans hsame)]
        rfl
      · rw [List.find?_cons_of_neg (by simpa [← hsame] using hname),
          List.find?_cons_of_neg (by simpa using hname), ih]
    · rw [if_neg hsame]
      by_cases hname : s.schema.name = name
      · rw [List.find?_cons_of_pos (by simpa using hname), if_neg (by rwa [← hname]),
          List.find?_cons_of_pos (by simpa using hname)]
      · rw [List.find?_cons_of_neg (by simpa using hname),
          List.find?_cons_of_neg (by simpa using hname), ih]

theorem catalog_update (hfind : ts.find? name = some shelf)
    (hschema : shelf'.schema = shelf.schema) :
    (ts.update shelf').catalog = Function.update ts.catalog name (some shelf'.relation) := by
  have hname : shelf'.schema.name = name := by rw [hschema, name_of_find? hfind]
  funext other
  rw [catalog, find?_update, hname]
  by_cases hother : other = name
  · subst hother
    rw [if_pos rfl, hfind, Function.update_self]
    rfl
  · rw [if_neg hother, Function.update_of_ne hother]
    rfl

theorem IsOrderly.update (h : ts.IsOrderly) (hshelf : shelf.IsSound) :
    (ts.update shelf).IsOrderly :=
  ⟨h.sound.update hshelf, by rw [names_update]; exact h.names⟩

theorem checkRows_eq_ok_iff {schema : Schema} {rows : List Row} :
    checkRows schema rows = .ok () ↔ ∀ row ∈ rows, schema.checkRow row = .ok () := by
  refine ⟨checkRow_of_checkRows, fun h => ?_⟩
  induction rows with
  | nil => rfl
  | cons row rest ih =>
    obtain ⟨hrow, hrest⟩ := List.forall_mem_cons.mp h
    rw [checkRows, hrow]
    exact ih hrest

theorem find?_create {schema : Schema} (name : String) :
    (ts ++ [Shelf.empty schema] : Tables).find? name =
      (ts.find? name).or (if schema.name = name then some (.empty schema) else none) := by
  unfold find?
  rw [List.find?_append]
  congr 1
  split_ifs with hname
  · exact List.find?_cons_of_pos (by simpa [Shelf.empty] using hname)
  · exact List.find?_cons_of_neg (by simpa [Shelf.empty] using hname)

theorem IsOrderly.create {schema : Schema} (h : ts.IsOrderly) (hcheck : schema.check = .ok ())
    (hnew : ts.find? schema.name = none) : (ts ++ [Shelf.empty schema] : Tables).IsOrderly := by
  constructor
  · intro s hs
    rcases List.mem_append.mp hs with hs | hs
    · exact h.sound s hs
    · rw [List.mem_singleton.mp hs]
      exact Shelf.isSound_empty hcheck
  · rw [List.map_append, List.map_singleton]
    refine List.nodup_append.mpr ⟨h.names, List.nodup_singleton _, ?_⟩
    rintro _ hmem _ hname rfl
    obtain ⟨s, hs, heq⟩ := List.mem_map.mp hmem
    refine absurd (List.find?_eq_none.mp hnew s hs) (not_not.mpr ?_)
    rw [beq_iff_eq, heq, List.mem_singleton.mp hname]
    rfl

theorem catalog_create {schema : Schema} (hnew : ts.find? schema.name = none) :
    (ts ++ [Shelf.empty schema] : Tables).catalog =
      Function.update ts.catalog schema.name (some ⟨schema, ∅⟩) := by
  funext name
  rw [catalog, find?_create]
  by_cases hname : name = schema.name
  · subst hname
    rw [hnew, if_pos rfl, Function.update_self]
    rfl
  · rw [if_neg (Ne.symm hname), Option.or_none, Function.update_of_ne hname]
    rfl

theorem schema_putAll (s : Shelf) (rows : List Row) : (rows.foldl Shelf.put s).schema = s.schema := by
  induction rows generalizing s with
  | nil => rfl
  | cons row rest ih => exact ih (s.put row)

theorem catalog_eq_none (h : ts.find? name = none) : ts.catalog name = none := by
  rw [catalog, h, Option.map_none]

theorem catalog_eq_some (h : ts.find? name = some shelf) :
    ts.catalog name = some shelf.relation := by
  rw [catalog, h, Option.map_some]

/-- The tables are orderly after the request, and represent what it makes of their catalog. -/
def Follows (origin : Int64) (ts : Tables) (r : Request) : Prop :=
  (ts.after origin r).IsOrderly ∧ (ts.after origin r).catalog = ts.catalog.after r

theorem IsOrderly.follows_same (h : ts.IsOrderly) (hafter : ts.after origin r = ts)
    (hcatalog : ts.catalog.after r = ts.catalog) : ts.Follows origin r := by
  rw [Follows, hafter, hcatalog]
  exact ⟨h, rfl⟩

theorem IsOrderly.follows_createTable (h : ts.IsOrderly) (origin : Int64) (table : String)
    (schema : Schema) : ts.Follows origin ⟨table, .createTable schema⟩ := by
  cases hcheck : schema.check with
  | error fault =>
    refine h.follows_same ?_ (if_neg fun hok => by rw [hcheck] at hok; cases hok.1)
    simp only [after, apply, Tables.create, hcheck, Except.map]
  | ok _ =>
    cases hfind : ts.find? schema.name with
    | some shelf =>
      refine h.follows_same ?_ (if_neg fun hok => by rw [catalog_eq_some hfind] at hok; cases hok.2)
      simp only [after, apply, Tables.create, hcheck, hfind, Option.isSome_some, if_true, Except.map]
    | none =>
      have hafter : ts.after origin ⟨table, .createTable schema⟩ = ts ++ [.empty schema] := by
        simp [after, apply, Tables.create, hcheck, hfind, Except.map]
      rw [Follows, hafter, catalog_create hfind]
      exact ⟨h.create hcheck hfind, (if_pos ⟨hcheck, catalog_eq_none hfind⟩).symm⟩

theorem IsOrderly.follows_store (h : ts.IsOrderly) (origin : Int64) (table : String)
    (rows : List Row) : ts.Follows origin ⟨table, .store rows⟩ := by
  cases hfind : ts.find? table with
  | none =>
    refine h.follows_same (by simp only [after, apply, hfind]) ?_
    simp [Catalog.after, catalog_eq_none hfind]
  | some shelf =>
    have hsound := h.sound.find hfind
    have hcatalog : ts.catalog.after ⟨table, .store rows⟩ = Function.update ts.catalog table
        (some (if ∀ row ∈ rows, shelf.schema.checkRow row = .ok () then
          rows.foldl Relation.store shelf.relation else shelf.relation)) := by
      simp only [Catalog.after, catalog_eq_some hfind, Option.map_some]
      rfl
    cases hcheck : checkRows shelf.schema rows with
    | error rejection =>
      have hunfit : ¬∀ row ∈ rows, shelf.schema.checkRow row = .ok () := by
        rw [← checkRows_eq_ok_iff, hcheck]
        rintro ⟨⟩
      refine h.follows_same ?_ ?_
      · simp only [after, apply, hfind, store, hcheck, Except.map]
      · rw [hcatalog, if_neg hunfit, ← catalog_eq_some hfind, Function.update_eq_self]
    | ok _ =>
      have hfit := checkRows_eq_ok_iff.mp hcheck
      have hafter : ts.after origin ⟨table, .store rows⟩ =
          ts.update (rows.foldl Shelf.put shelf) := by
        simp only [after, apply, hfind, store, hcheck, Except.map]
      rw [Follows, hafter, hcatalog, if_pos hfit, catalog_update hfind (schema_putAll _ _),
        hsound.relation_putAll hfit]
      exact ⟨h.update (hsound.putAll hfit), rfl⟩

theorem delete_of_lookup_eq_none {t : Relation} {key : List Cell} (h : t.rows.lookup key = none) :
    t.delete key = t := by
  refine congrArg (Relation.mk t.schema) (Finmap.ext_lookup fun other => ?_)
  by_cases heq : other = key
  · rw [heq, Finmap.lookup_erase, h]
  · rw [Finmap.lookup_erase_ne heq]

theorem IsOrderly.follows_delete (h : ts.IsOrderly) (origin : Int64) (table : String)
    (key : List Cell) : ts.Follows origin ⟨table, .delete key⟩ := by
  cases hfind : ts.find? table with
  | none =>
    refine h.follows_same (by simp only [after, apply, hfind]) ?_
    simp [Catalog.after, catalog_eq_none hfind]
  | some shelf =>
    have hsound := h.sound.find hfind
    have hcatalog : ts.catalog.after ⟨table, .delete key⟩ =
        Function.update ts.catalog table (some (shelf.relation.delete key)) := by
      simp only [Catalog.after, catalog_eq_some hfind, Option.map_some]
    have habsent (hlookup : shelf.relation.rows.lookup key = none) :
        ts.catalog.after ⟨table, .delete key⟩ = ts.catalog := by
      rw [hcatalog, delete_of_lookup_eq_none hlookup, ← catalog_eq_some hfind,
        Function.update_eq_self]
    cases hcheck : shelf.schema.checkKey key with
    | error fault =>
      refine h.follows_same ?_ (habsent ?_)
      · simp only [after, apply, hfind, delete, hcheck, Except.map]
      · rw [hsound.lookup_relation, if_neg (by rw [hcheck]; rintro ⟨⟩)]
    | ok _ =>
      have hlookup := hsound.lookup_relation key
      rw [if_pos hcheck] at hlookup
      cases hrow : shelf.find? (Key.ofCells key) with
      | none =>
        refine h.follows_same ?_ (habsent (hlookup.trans hrow))
        simp [after, apply, hfind, delete, hcheck, hrow, Except.map]
      | some row =>
        have hafter : ts.after origin ⟨table, .delete key⟩ =
            ts.update (shelf.erase (Key.ofCells key)) := by
          simp [after, apply, hfind, delete, hcheck, hrow, Except.map]
        rw [Follows, hafter, hcatalog, catalog_update hfind
          (show (shelf.erase (Key.ofCells key)).schema = shelf.schema from rfl),
          hsound.relation_erase hcheck]
        exact ⟨h.update (hsound.erase _), rfl⟩

/-- A request makes of orderly tables what it makes of their catalog. -/
theorem IsOrderly.follows (h : ts.IsOrderly) (origin : Int64) (r : Request) :
    ts.Follows origin r := by
  obtain ⟨table, payload⟩ := r
  cases payload with
  | createTable schema => exact h.follows_createTable origin table schema
  | store rows => exact h.follows_store origin table rows
  | delete key => exact h.follows_delete origin table key
  | fetch key | listKeys | query piece | describeTable =>
    refine h.follows_same ?_ rfl
    rw [after]
    split
    · next happly => exact eq_of_reads happly rfl
    · rfl

end Tables

namespace Cluster

def applied (c : Cluster) (rs : List Request) : Cluster :=
  rs.foldl (fun c r => (c.apply r).1) c

/-- The cluster represents the catalog: its tables are the catalog's, no part of a key is lost and no
two keys run together, and requests are answered as the catalog has it. -/
structure Refines (c : Cluster) (catalog : Catalog) : Prop where
  catalog_eq : c.tables.catalog = catalog
  filed : ∀ shelf ∈ c.tables, shelf.schema.check = .ok () ∧
    c.tables.find? shelf.schema.name = some shelf
  /-- A row that is stored fits, and stands under the key of its own cells. -/
  keyed : ∀ shelf ∈ c.tables, ∀ e ∈ shelf.rows, shelf.schema.checkRow e.2 = .ok () ∧
    shelf.schema.checkKey (shelf.schema.keyCells e.2) = .ok () ∧
      e.1 = Key.ofCells (shelf.schema.keyCells e.2)
  undropped : ∀ shelf ∈ c.tables, ∀ key, shelf.schema.checkKey key = .ok () →
    (Key.ofCells key).length = key.length
  injective : ∀ shelf ∈ c.tables, ∀ key key', shelf.schema.checkKey key = .ok () →
    shelf.schema.checkKey key' = .ok () → Key.ofCells key = Key.ofCells key' → key = key'
  /-- Rows are stored if all of them fit. Then of those with one key the last one is there, and under
  other keys what was there before. -/
  store : ∀ name t, catalog name = some t → ∀ rows,
    ((c.apply ⟨name, .store rows⟩).2 = .ok .empty ↔
        ∀ row ∈ rows, t.schema.checkRow row = .ok ()) ∧
      ((c.apply ⟨name, .store rows⟩).2 = .ok .empty → ∃ t',
        (c.apply ⟨name, .store rows⟩).1.tables.catalog = Function.update catalog name (some t') ∧
          t'.schema = t.schema ∧ ∀ key, t'.rows.lookup key =
            (rows.reverse.find? fun row => t.schema.keyCells row = key).or (t.rows.lookup key))
  fetch : ∀ name t, catalog name = some t → ∀ key, t.schema.checkKey key = .ok () →
    (c.apply ⟨name, .fetch key⟩).2 =
      .ok (.rows (.ofRows t.schema.plainColumns (t.rows.lookup key).toList))
  delete : ∀ name t, catalog name = some t → ∀ key,
    ((c.apply ⟨name, .delete key⟩).2 = .ok .empty ↔ (t.rows.lookup key).isSome = true) ∧
      (c.apply ⟨name, .delete key⟩).1.tables.catalog =
        Function.update catalog name (some (t.delete key))
  rowCount : ∀ name, c.tables.rowCount name = (catalog name).map fun t => t.rows.keys.card

theorem tables_apply (c : Cluster) (r : Request) :
    (c.apply r).1.tables = c.tables.after c.origin r := by
  unfold Cluster.apply Tables.after
  cases c.tables.apply c.origin r <;> rfl

theorem origin_apply (c : Cluster) (r : Request) : (c.apply r).1.origin = c.origin := by
  unfold Cluster.apply
  split <;> rfl

theorem apply_rejected {c : Cluster} {r : Request} (rejection : Rejection)
    (h : c.tables.apply c.origin r = .error rejection) : (c.apply r).2 ≠ .ok .empty := by
  simp only [Cluster.apply, h]
  rintro ⟨⟩

section Requests

variable {c : Cluster} {name : String} {shelf : Shelf}

theorem store_eq_ok_iff (hfind : c.tables.find? name = some shelf) (rows : List Row) :
    (c.apply ⟨name, .store rows⟩).2 = .ok .empty ↔
      ∀ row ∈ rows, shelf.schema.checkRow row = .ok () := by
  rw [← Tables.checkRows_eq_ok_iff]
  cases hcheck : Tables.checkRows shelf.schema rows with
  | error rejection =>
    exact iff_of_false (apply_rejected rejection (by
      simp only [Tables.apply, hfind, Tables.store, hcheck, Except.map])) (by rintro ⟨⟩)
  | ok _ => simp [Cluster.apply, Tables.apply, hfind, Tables.store, hcheck, Except.map]

theorem delete_eq_ok_iff (hfind : c.tables.find? name = some shelf) (hshelf : shelf.IsSound)
    (key : List Cell) :
    (c.apply ⟨name, .delete key⟩).2 = .ok .empty ↔
      (shelf.relation.rows.lookup key).isSome = true := by
  rw [hshelf.lookup_relation key]
  cases hcheck : shelf.schema.checkKey key with
  | error fault =>
    rw [if_neg (by rintro ⟨⟩)]
    exact iff_of_false (apply_rejected (Tables.mismatch fault) (by
      simp only [Tables.apply, hfind, Tables.delete, hcheck, Except.map])) (by rintro ⟨⟩)
  | ok _ =>
    rw [if_pos rfl]
    cases hrow : shelf.find? (Key.ofCells key) with
    | none => simp [Cluster.apply, Tables.apply, hfind, Tables.delete, hcheck, hrow, Except.map]
    | some row => simp [Cluster.apply, Tables.apply, hfind, Tables.delete, hcheck, hrow, Except.map]

theorem fetch_eq (hfind : c.tables.find? name = some shelf) (hshelf : shelf.IsSound)
    {key : List Cell} (hkey : shelf.schema.checkKey key = .ok ()) :
    (c.apply ⟨name, .fetch key⟩).2 =
      .ok (.rows (.ofRows shelf.schema.plainColumns (shelf.relation.rows.lookup key).toList)) := by
  rw [hshelf.lookup_relation key, if_pos hkey]
  simp only [Cluster.apply, Tables.apply, hfind, Tables.fetch, hkey, Except.map]
  rfl

end Requests

theorem refines_catalog {c : Cluster} (h : c.tables.IsOrderly) : c.Refines c.tables.catalog := by
  have hsound := h.sound
  have hfound {name : String} {t : Relation} (ht : c.tables.catalog name = some t) :
      ∃ shelf, c.tables.find? name = some shelf ∧ shelf.relation = t :=
    Option.map_eq_some_iff.mp ht
  refine ⟨rfl, fun shelf hshelf => ⟨(hsound shelf hshelf).checked, h.find?_name hshelf⟩,
    fun shelf hshelf e he => ?_, fun shelf hshelf key => ?_, fun shelf hshelf key key' => ?_,
    fun name t ht rows => ?_, fun name t ht key hkey => ?_, fun name t ht key => ?_,
    fun name => ?_⟩
  · have hs := hsound shelf hshelf
    exact ⟨hs.fits e he, Schema.checkKey_keyCells hs.checked (hs.fits e he), hs.keyed e he⟩
  · exact Schema.length_ofCells_of_checkKey (hsound shelf hshelf).checked
  · exact Schema.eq_of_ofCells_eq (hsound shelf hshelf).checked
  · obtain ⟨shelf, hfind, rfl⟩ := hfound ht
    have hiff := store_eq_ok_iff hfind rows
    refine ⟨hiff, fun hok => ⟨rows.foldl Relation.store shelf.relation, ?_, ?_, ?_⟩⟩
    · rw [tables_apply, (h.follows c.origin _).2]
      simp only [Catalog.after, ht, Option.map_some]
      rw [if_pos (show ∀ row ∈ rows, shelf.relation.schema.checkRow row = .ok () from hiff.mp hok)]
    · exact Relation.schema_storeAll _ _
    · exact Relation.lookup_storeAll _ _
  · obtain ⟨shelf, hfind, rfl⟩ := hfound ht
    exact fetch_eq hfind (hsound.find hfind) hkey
  · obtain ⟨shelf, hfind, rfl⟩ := hfound ht
    refine ⟨delete_eq_ok_iff hfind (hsound.find hfind) key, ?_⟩
    rw [tables_apply, (h.follows c.origin _).2]
    simp only [Catalog.after, ht, Option.map_some]
  · rw [Tables.rowCount, Tables.catalog]
    cases hfind : c.tables.find? name with
    | none => rfl
    | some shelf =>
      rw [Option.map_some, Option.map_some, Option.map_some, (hsound.find hfind).card_relation]

/-- Orderly tables stay so, and represent what the requests make of their catalog. -/
theorem orderly_applied {c : Cluster} (h : c.tables.IsOrderly) (rs : List Request) :
    (c.applied rs).tables.IsOrderly ∧
      (c.applied rs).tables.catalog = rs.foldl Catalog.after c.tables.catalog := by
  induction rs generalizing c with
  | nil => exact ⟨h, rfl⟩
  | cons r rest ih =>
    obtain ⟨horderly, hcatalog⟩ := h.follows c.origin r
    rw [← tables_apply] at horderly hcatalog
    rw [List.foldl_cons, ← hcatalog]
    exact ih horderly

/-- A cluster that starts without tables represents the catalog that its requests have made. -/
theorem refines_keyed_map (requiresSecurity secured : Bool) (origin : Int64)
    (latencies : List (Pattern × Nat)) (rs : List Request) :
    ((start requiresSecurity secured origin latencies).applied rs).Refines
      (rs.foldl Catalog.after fun _ => none) := by
  have hstart : (start requiresSecurity secured origin latencies).tables.IsOrderly :=
    ⟨by rintro shelf ⟨⟩, .nil⟩
  obtain ⟨horderly, hcatalog⟩ := orderly_applied hstart rs
  have hrefines := refines_catalog horderly
  rw [hcatalog] at hrefines
  exact hrefines

end Cluster

end Timeslice
