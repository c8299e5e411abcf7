import Timeslice.Cluster.Tables
import Timeslice.Proofs.Cluster.Key
import Timeslice.Proofs.Results

/-!
# Sound tables

The tables of a cluster have checked schemas, and their rows fit the schema and stand in strict order
of their local keys. No request can change that.
-/

namespace Timeslice

open Std

namespace Shelf

/-- The rows of a shelf fit its schema, under their own keys and in strict order of them. -/
structure IsSound (s : Shelf) : Prop where
  checked : s.schema.check = .ok ()
  sorted : s.rows.Pairwise fun a b => Key.order a.1 b.1 = .lt
  keyed : ∀ e ∈ s.rows, e.1 = keyOf s.schema e.2
  fits : ∀ e ∈ s.rows, s.schema.checkRow e.2 = .ok ()

theorem isSound_empty {schema : Schema} (h : schema.check = .ok ()) : (empty schema).IsSound :=
  ⟨h, .nil, by rintro e ⟨⟩, by rintro e ⟨⟩⟩

theorem mem_insertRow {key : Key} {row : Row} {rows : List (Key × Row)} {e : Key × Row}
    (h : e ∈ insertRow key row rows) : e = (key, row) ∨ e ∈ rows := by
  induction rows with
  | nil => simpa [insertRow] using h
  | cons f rest ih =>
    rw [insertRow] at h
    split at h
    · simpa using h
    · rcases List.mem_cons.mp h with h | h
      · exact .inl h
      · exact .inr (List.mem_cons_of_mem _ h)
    · rcases List.mem_cons.mp h with rfl | h
      · exact .inr List.mem_cons_self
      · rcases ih h with h | h
        · exact .inl h
        · exact .inr (List.mem_cons_of_mem _ h)

theorem sorted_insertRow {key : Key} {row : Row} {rows : List (Key × Row)}
    (h : rows.Pairwise fun a b => Key.order a.1 b.1 = .lt) :
    (insertRow key row rows).Pairwise fun a b => Key.order a.1 b.1 = .lt := by
  induction rows with
  | nil => simp [insertRow]
  | cons f rest ih =>
    obtain ⟨hfirst, hrest⟩ := List.pairwise_cons.mp h
    rw [insertRow]
    split
    · next hlt =>
      refine List.pairwise_cons.mpr ⟨List.forall_mem_cons.mpr ⟨hlt, fun e he => ?_⟩, h⟩
      exact TransCmp.lt_trans hlt (hfirst e he)
    · next heq =>
      obtain rfl := LawfulEqCmp.eq_of_compare heq
      exact List.pairwise_cons.mpr ⟨hfirst, hrest⟩
    · next hgt =>
      refine List.pairwise_cons.mpr ⟨fun e he => ?_, ih hrest⟩
      rcases mem_insertRow he with rfl | he
      · exact OrientedCmp.lt_of_gt hgt
      · exact hfirst e he

variable {s s' : Shelf}

theorem IsSound.put (h : s.IsSound) {row : Row} (hrow : s.schema.checkRow row = .ok ()) :
    (s.put row).IsSound := by
  refine ⟨h.checked, sorted_insertRow h.sorted, fun e he => ?_, fun e he => ?_⟩
  · rcases mem_insertRow he with rfl | he
    · rfl
    · exact h.keyed e he
  · rcases mem_insertRow he with rfl | he
    · exact hrow
    · exact h.fits e he

theorem IsSound.erase (h : s.IsSound) (key : Key) : (s.erase key).IsSound :=
  ⟨h.checked, h.sorted.filter _, fun e he => h.keyed e (List.mem_filter.mp he).1,
    fun e he => h.fits e (List.mem_filter.mp he).1⟩

theorem IsSound.putAll {rows : List Row} (h : s.IsSound)
    (hrows : ∀ row ∈ rows, s.schema.checkRow row = .ok ()) : (rows.foldl Shelf.put s).IsSound := by
  induction rows generalizing s with
  | nil => exact h
  | cons row rest ih =>
    rw [List.forall_mem_cons] at hrows
    exact ih (h.put hrows.1) hrows.2

theorem IsSound.contents_sorted (h : s.IsSound) :
    s.contents.Pairwise fun a b => Key.order (keyOf s.schema a) (keyOf s.schema b) = .lt := by
  rw [contents, List.pairwise_map]
  refine h.sorted.imp_of_mem fun {a b} ha hb hlt => ?_
  rwa [← h.keyed a ha, ← h.keyed b hb]

theorem IsSound.contents_fit (h : s.IsSound) {row : Row} (hrow : row ∈ s.contents) :
    s.schema.checkRow row = .ok () := by
  obtain ⟨e, he, rfl⟩ := List.mem_map.mp hrow
  exact h.fits e he

end Shelf

namespace Tables

def IsSound (ts : Tables) : Prop :=
  ∀ s ∈ ts, s.IsSound

variable {ts ts' : Tables} {shelf : Shelf}

theorem IsSound.find (h : ts.IsSound) {name : String} (hfind : ts.find? name = some shelf) :
    shelf.IsSound :=
  h shelf (List.mem_of_find?_eq_some hfind)

theorem IsSound.update (h : ts.IsSound) (hshelf : shelf.IsSound) : (ts.update shelf).IsSound := by
  intro s hs
  obtain ⟨old, hold, rfl⟩ := List.mem_map.mp hs
  split_ifs
  · exact hshelf
  · exact h old hold

theorem IsSound.create (h : ts.IsSound) {schema : Schema} (hcreate : ts.create schema = .ok ts') :
    ts'.IsSound := by
  unfold Tables.create at hcreate
  split at hcreate
  · cases hcreate
  · next hcheck =>
    split_ifs at hcreate
    cases hcreate
    intro s hs
    rcases List.mem_append.mp hs with hs | hs
    · exact h s hs
    · obtain rfl := List.mem_singleton.mp hs
      exact Shelf.isSound_empty hcheck

theorem checkRow_of_checkRows {schema : Schema} {rows : List Row}
    (h : checkRows schema rows = .ok ()) : ∀ row ∈ rows, schema.checkRow row = .ok () := by
  induction rows with
  | nil => rintro row ⟨⟩
  | cons row rest ih =>
    rw [checkRows] at h
    split at h
    · cases h
    · next hrow => exact List.forall_mem_cons.mpr ⟨hrow, ih h⟩

theorem isSound_store {rows : List Row} {stored : Shelf} (h : shelf.IsSound)
    (hstore : store shelf rows = .ok stored) : stored.IsSound := by
  obtain ⟨⟨⟩, hcheck, rfl⟩ := Except.exists_of_map hstore
  exact h.putAll (checkRow_of_checkRows hcheck)

theorem isSound_delete {key : List Cell} {left : Shelf} (h : shelf.IsSound)
    (hdelete : delete shelf key = .ok left) : left.IsSound := by
  unfold delete at hdelete
  split at hdelete
  · cases hdelete
  · dsimp only at hdelete
    split_ifs at hdelete
    cases hdelete
    exact h.erase _

theorem IsSound.apply (h : ts.IsSound) {origin : Int64} {r : Request} {response : Response}
    (happly : ts.apply origin r = .ok (response, ts')) : ts'.IsSound := by
  unfold Tables.apply at happly
  split at happly
  · obtain ⟨created, hcreate, heq⟩ := Except.exists_of_map happly
    cases heq
    exact h.create hcreate
  · split at happly
    · cases happly
    · next shelf hfind =>
      have hshelf := h.find hfind
      split at happly
      · obtain ⟨stored, hstore, heq⟩ := Except.exists_of_map happly
        cases heq
        exact h.update (isSound_store hshelf hstore)
      · obtain ⟨left, hdelete, heq⟩ := Except.exists_of_map happly
        cases heq
        exact h.update (isSound_delete hshelf hdelete)
      · obtain ⟨result, -, heq⟩ := Except.exists_of_map happly
        cases heq
        exact h
      · cases happly
        exact h
      · obtain ⟨result, -, heq⟩ := Except.exists_of_map happly
        cases heq
        exact h
      · cases happly
        exact h
      · cases happly
        exact h

end Tables

end Timeslice
