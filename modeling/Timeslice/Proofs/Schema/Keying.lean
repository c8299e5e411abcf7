import Mathlib.Data.List.Range
import Mathlib.Data.Option.Basic
import Timeslice.Proofs.Data.Rows

/-!
# Which schemas are accepted

A schema is accepted exactly if its names can be used, the ordinals of its two keys count their
columns, the partition key begins the local key, the columns of keys can hold keys, and one quantum
sits on a timestamp of the partition key. In an accepted schema the column at a place of a key is
the one with the ordinal of that place.
-/

namespace Timeslice.Schema

variable {ordinal : TableColumn → Option UInt32} {columns : List TableColumn} {n : Nat}

def ordinals (ordinal : TableColumn → Option UInt32) (columns : List TableColumn) : List Nat :=
  columns.filterMap fun c => (ordinal c).map UInt32.toNat

/-- The ordinals of the key are 1 to `n`, each of them once. -/
def CountsTo (ordinal : TableColumn → Option UInt32) (columns : List TableColumn) (n : Nat) :
    Prop :=
  (ordinals ordinal columns).Perm (List.range' 1 n)

def entries (ordinal : TableColumn → Option UInt32) (columns : List TableColumn) :
    List (UInt32 × TableColumn) :=
  columns.filterMap fun c => (ordinal c).map fun n => (n, c)

theorem ordinal_of_mem_entries {e : UInt32 × TableColumn} (h : e ∈ entries ordinal columns) :
    ordinal e.2 = some e.1 := by
  obtain ⟨c, -, hc⟩ := List.mem_filterMap.mp h
  obtain ⟨n, hn, rfl⟩ := Option.map_eq_some_iff.mp hc
  exact hn

theorem sorted_place {entry : UInt32 × TableColumn} {es : List (UInt32 × TableColumn)}
    (h : es.Pairwise fun a b => a.1 ≤ b.1) :
    (place entry es).Pairwise fun a b => a.1 ≤ b.1 := by
  induction es with
  | nil => exact List.pairwise_singleton _ _
  | cons e rest ih =>
    obtain ⟨hfirst, hrest⟩ := List.pairwise_cons.mp h
    rw [place]
    split_ifs with hle
    · refine List.pairwise_cons.mpr ⟨List.forall_mem_cons.mpr ⟨hle, fun f hf => ?_⟩, h⟩
      exact UInt32.le_trans hle (hfirst f hf)
    · refine List.pairwise_cons.mpr ⟨fun f hf => ?_, ih hrest⟩
      rcases List.mem_cons.mp ((perm_place entry rest).mem_iff.mp hf) with rfl | hf
      · exact (UInt32.le_total e.1 f.1).resolve_right hle
      · exact hfirst f hf

theorem sorted_foldr_place (es : List (UInt32 × TableColumn)) :
    (es.foldr place []).Pairwise fun a b => a.1 ≤ b.1 := by
  induction es with
  | nil => exact List.Pairwise.nil
  | cons e rest ih => exact sorted_place ih

theorem ordinals_keyed (ordinal : TableColumn → Option UInt32) (columns : List TableColumn) :
    ordinals ordinal (keyed ordinal columns) =
      ((entries ordinal columns).foldr place []).map (·.1.toNat) := by
  rw [ordinals, keyed, List.filterMap_map]
  refine Eq.trans (List.filterMap_congr fun e he => ?_) (congrFun List.filterMap_eq_map _)
  have hordinal := ordinal_of_mem_entries ((perm_foldr_place _).mem_iff.mp he)
  rw [Function.comp_apply, hordinal]
  rfl

theorem perm_ordinals_keyed (ordinal : TableColumn → Option UInt32) (columns : List TableColumn) :
    (ordinals ordinal (keyed ordinal columns)).Perm (ordinals ordinal columns) := by
  have hentries : ordinals ordinal columns = (entries ordinal columns).map (·.1.toNat) := by
    rw [entries, List.map_filterMap, ordinals]
    refine List.filterMap_congr fun c _ => ?_
    rw [Option.map_map]
    rfl
  rw [ordinals_keyed, hentries]
  exact (perm_foldr_place _).map _

theorem sorted_ordinals_keyed (ordinal : TableColumn → Option UInt32)
    (columns : List TableColumn) :
    (ordinals ordinal (keyed ordinal columns)).Pairwise (· ≤ ·) := by
  rw [ordinals_keyed, List.pairwise_map]
  exact (sorted_foldr_place _).imp UInt32.le_iff_toNat_le.mp

theorem map_keyed (ordinal : TableColumn → Option UInt32) (columns : List TableColumn) :
    (keyed ordinal columns).map (fun c => (ordinal c).map UInt32.toNat) =
      (ordinals ordinal (keyed ordinal columns)).map some := by
  rw [ordinals, List.map_filterMap]
  refine (congrFun List.filterMap_eq_map _).symm.trans (List.filterMap_congr fun c hc => ?_)
  obtain ⟨n, hn⟩ := Option.isSome_iff_exists.mp (mem_keyed.mp hc).2
  rw [Function.comp_apply, hn]
  rfl

/-- The check of a key's ordinals in the key's order says that they count, in any order. -/
theorem countsTo_iff : CountsTo ordinal columns n ↔
    (keyed ordinal columns).length = n ∧ ordinalsRun ordinal (keyed ordinal columns) = true := by
  have hlength : (ordinals ordinal (keyed ordinal columns)).length =
      (keyed ordinal columns).length := by
    rw [← List.length_map some, ← map_keyed, List.length_map]
  have hrun : ordinalsRun ordinal (keyed ordinal columns) = true ↔
      ordinals ordinal (keyed ordinal columns) =
        List.range' 1 (keyed ordinal columns).length := by
    have hrange : ((List.range (keyed ordinal columns).length).map fun i => some (i + 1)) =
        (List.range' 1 (keyed ordinal columns).length).map some := by
      rw [List.range'_eq_map_range, List.map_map]
      exact List.map_congr_left fun i _ => congrArg some (Nat.add_comm i 1)
    rw [ordinalsRun, beq_iff_eq, map_keyed, hrange]
    exact (List.map_injective_iff.mpr (Option.some_injective Nat)).eq_iff
  rw [hrun]
  constructor
  · intro h
    have hperm := (perm_ordinals_keyed ordinal columns).trans h
    have hn : (keyed ordinal columns).length = n := by
      rw [← hlength, hperm.length_eq, List.length_range']
    rw [hn]
    refine ⟨rfl, hperm.eq_of_pairwise (fun a b _ _ => Nat.le_antisymm)
      (sorted_ordinals_keyed ordinal columns) ?_⟩
    exact (List.pairwise_lt_range' 1).imp Nat.le_of_lt
  · rintro ⟨rfl, h⟩
    rw [CountsTo, ← h]
    exact (perm_ordinals_keyed ordinal columns).symm

theorem CountsTo.getElem?_keyed_iff (h : CountsTo ordinal columns n) {i : Nat} {c : TableColumn} :
    (keyed ordinal columns)[i]? = some c ↔
      c ∈ columns ∧ (ordinal c).map UInt32.toNat = some (i + 1) := by
  have hplace : ∀ (j : Nat) d, (keyed ordinal columns)[j]? = some d →
      (ordinal d).map UInt32.toNat = some (j + 1) := by
    intro j d hd
    have hrun := beq_iff_eq.mp (countsTo_iff.mp h).2
    have hj := (List.getElem?_eq_some_iff.mp hd).1
    have hat := congrArg (·[j]?) hrun
    simpa [hd, List.getElem?_range hj] using hat
  constructor
  · intro hc
    exact ⟨(mem_keyed.mp (List.mem_of_getElem? hc)).1, hplace i c hc⟩
  · rintro ⟨hc, hordinal⟩
    have hsome : (ordinal c).isSome = true := by
      rw [← Option.isSome_map (f := UInt32.toNat), hordinal]
      rfl
    obtain ⟨j, hj⟩ := List.mem_iff_getElem?.mp (mem_keyed.mpr ⟨hc, hsome⟩)
    have hsame := (hplace j c hj).symm.trans hordinal
    obtain rfl : j = i := by simpa using hsame
    exact hj

/-- The rules for a schema with `n` columns in the local key and `m` in the partition key. -/
structure IsWellKeyed (s : Schema) (n m : Nat) : Prop where
  name : s.name ≠ ""
  columns : s.columns ≠ []
  columnNames : ∀ c ∈ s.columns, c.name ≠ ""
  distinct : s.columnNames.Nodup
  localOrdinals : CountsTo TableColumn.localOrdinal? s.columns n
  partitionOrdinals : CountsTo TableColumn.partitionOrdinal? s.columns m
  nonempty : 1 ≤ m
  le : m ≤ n
  leads : ∀ c ∈ s.columns, c.inPartitionKey = true → c.localOrdinal? = c.partitionOrdinal?
  keyColumns : ∀ c ∈ s.columns, c.inLocalKey = true ∨ c.inPartitionKey = true →
    c.nullable = false ∧ c.type.isKeyable = true
  quantum : ∃ c ∈ s.columns, ∃ q, c.quantum? = some q ∧ c.inPartitionKey = true ∧
    c.type = .timestamp ∧ 0 < q.interval ∧ ∀ d ∈ s.columns, d.quantum?.isSome = true → d = c

structure Addresses (s : Schema) (n : Nat) : Prop where
  length_eq : s.localKeyIndices.length = n
  nodup : s.localKeyIndices.Nodup
  inRange : ∀ i ∈ s.localKeyIndices, i < s.columns.length
  ordered : ∀ k < n, ∃ (i : Nat) (c : TableColumn), s.localKeyIndices[k]? = some i ∧
    s.columns[i]? = some c ∧ c.localOrdinal?.map UInt32.toNat = some (k + 1)
  quantum : ∃ (i : Nat) (c : TableColumn) (q : Quantum), i ∈ s.localKeyIndices ∧
    s.columns[i]? = some c ∧ s.quantumColumn? = some c ∧ c.quantum? = some q ∧
      s.quantumWidth = .ok q.width ∧ 0 < q.width.toInt ∧
        q.width.toInt = (q.interval.toNat * q.unit.millis : Nat)

section Rules

variable {s : Schema} {m : Nat}

theorem nameFlaw?_eq_none_iff : s.nameFlaw? = none ↔ s.name ≠ "" ∧ s.columns ≠ [] := by
  rw [nameFlaw?]
  split_ifs with hname hcolumns <;> simp_all

theorem ordinalFlaw?_eq_none_iff : s.ordinalFlaw? = none ↔
    ∃ n m, CountsTo TableColumn.localOrdinal? s.columns n ∧
      CountsTo TableColumn.partitionOrdinal? s.columns m ∧ 1 ≤ n ∧ 1 ≤ m := by
  have hflaw : s.ordinalFlaw? = none ↔ (s.localKey ≠ [] ∧ s.partitionKey ≠ []) ∧
      ordinalsRun TableColumn.localOrdinal? s.localKey = true ∧
        ordinalsRun TableColumn.partitionOrdinal? s.partitionKey = true := by
    rw [ordinalFlaw?]
    split_ifs <;> simp_all
  rw [hflaw]
  simp only [countsTo_iff, ← List.length_pos_iff]
  constructor
  · rintro ⟨⟨hlocal, hpartition⟩, hlocalRun, hpartitionRun⟩
    exact ⟨_, _, ⟨rfl, hlocalRun⟩, ⟨rfl, hpartitionRun⟩, hlocal, hpartition⟩
  · rintro ⟨n, m, ⟨rfl, hlocalRun⟩, ⟨rfl, hpartitionRun⟩, hn, hm⟩
    exact ⟨⟨hn, hm⟩, hlocalRun, hpartitionRun⟩

theorem leadFlaw?_keys_eq_none_iff (hnames : s.columnNames.Nodup)
    (hlocal : CountsTo TableColumn.localOrdinal? s.columns n)
    (hpartition : CountsTo TableColumn.partitionOrdinal? s.columns m) :
    leadFlaw? 1 s.partitionKey s.localKey = none ↔
      ∀ c ∈ s.columns, c.inPartitionKey = true → c.localOrdinal? = c.partitionOrdinal? := by
  rw [leadFlaw?_eq_none_iff]
  constructor
  · intro h c hc hin
    obtain ⟨i, hi⟩ := List.mem_iff_getElem?.mp (mem_keyed.mpr ⟨hc, hin⟩)
    obtain ⟨l, hl, hname⟩ := h i c hi
    obtain ⟨hmem, hordinal⟩ := hlocal.getElem?_keyed_iff.mp hl
    obtain rfl := List.inj_on_of_nodup_map hnames hmem hc hname
    have hsame := hordinal.trans (hpartition.getElem?_keyed_iff.mp hi).2.symm
    exact Option.map_injective (fun a b => UInt32.toNat_inj.mp) hsame
  · intro h i c hi
    obtain ⟨hc, hordinal⟩ := hpartition.getElem?_keyed_iff.mp hi
    have hin := (mem_keyed.mp (List.mem_of_getElem? hi)).2
    refine ⟨c, hlocal.getElem?_keyed_iff.mpr ⟨hc, ?_⟩, rfl⟩
    rw [h c hc hin]
    exact hordinal

theorem keyColumns_iff : (s.localKey ++ s.partitionKey).findSome? keyColumnFlaw? = none ↔
    ∀ c ∈ s.columns, c.inLocalKey = true ∨ c.inPartitionKey = true →
      c.nullable = false ∧ c.type.isKeyable = true := by
  rw [List.findSome?_eq_none_iff]
  simp only [keyColumnFlaw?_eq_none_iff, List.mem_append, localKey, partitionKey, mem_keyed,
    TableColumn.inLocalKey, TableColumn.inPartitionKey]
  constructor
  · intro h c hc hin
    exact h c (hin.imp (⟨hc, ·⟩) (⟨hc, ·⟩))
  · intro h c hc
    rcases hc with ⟨hc, hin⟩ | ⟨hc, hin⟩
    · exact h c hc (.inl hin)
    · exact h c hc (.inr hin)

theorem quantum_iff (hnames : s.columnNames.Nodup) : s.quantumFlaw? = none ↔
    ∃ c ∈ s.columns, ∃ q, c.quantum? = some q ∧ c.inPartitionKey = true ∧ c.type = .timestamp ∧
      0 < q.interval ∧ ∀ d ∈ s.columns, d.quantum?.isSome = true → d = c := by
  rw [quantumFlaw?_eq_none_iff]
  constructor
  · rintro ⟨c, q, hone, hq, hrest⟩
    have hmem : ∀ d, d ∈ s.columns ∧ d.quantum?.isSome = true ↔ d = c := by
      intro d
      have hd : d ∈ s.columns.filter (fun c => c.quantum?.isSome) ↔
          d ∈ s.columns ∧ d.quantum?.isSome = true := List.mem_filter
      rw [← hd, hone, List.mem_singleton]
    exact ⟨c, ((hmem c).mpr rfl).1, q, hq, hrest.1, hrest.2.1, hrest.2.2, fun d hd hsome =>
      (hmem d).mp ⟨hd, hsome⟩⟩
  · rintro ⟨c, hc, q, hq, hin, htype, hpositive, honly⟩
    refine ⟨c, q, ?_, hq, hin, htype, hpositive⟩
    have hnodup : (s.columns.filter fun d => d.quantum?.isSome).Nodup :=
      (List.Nodup.of_map _ hnames).filter _
    refine List.perm_singleton.mp ((List.perm_ext_iff_of_nodup hnodup
      (List.nodup_singleton c)).mpr fun d => ?_)
    rw [List.mem_filter, List.mem_singleton]
    constructor
    · rintro ⟨hd, hsome⟩
      exact honly d hd hsome
    · rintro rfl
      exact ⟨hc, by rw [hq]; rfl⟩

/-- A schema is accepted exactly if it keeps the rules. -/
theorem check_iff_isWellKeyed : s.check = .ok () ↔ ∃ n m, s.IsWellKeyed n m := by
  rw [check_iff_noFlaws, nameFlaw?_eq_none_iff, columnNameFlaw?_eq_none_iff,
    ordinalFlaw?_eq_none_iff, keyColumns_iff]
  constructor
  · rintro ⟨⟨hname, hcolumns⟩, ⟨hnames, hnodup, -⟩, ⟨n, m, hlocal, hpartition, -, hm⟩, hlead, hkeys,
      hquantum⟩
    have hle : m ≤ n := by
      -- The last column of the partition key has its place in the local key as well.
      have hlast : m - 1 < s.partitionKey.length := by
        rw [show s.partitionKey.length = m from (countsTo_iff.mp hpartition).1]
        omega
      obtain ⟨l, hl, -⟩ := leadFlaw?_eq_none_iff.mp hlead (m - 1) _ (List.getElem?_eq_getElem hlast)
      have hin := (List.getElem?_eq_some_iff.mp hl).1
      rw [show s.localKey.length = n from (countsTo_iff.mp hlocal).1] at hin
      omega
    exact ⟨n, m, hname, hcolumns, hnames, hnodup, hlocal, hpartition, hm, hle,
      (leadFlaw?_keys_eq_none_iff hnodup hlocal hpartition).mp hlead, hkeys,
      (quantum_iff hnodup).mp hquantum⟩
  · rintro ⟨n, m, h⟩
    exact ⟨⟨h.name, h.columns⟩, ⟨h.columnNames, h.distinct, fun _ _ => List.not_mem_nil⟩,
      ⟨n, m, h.localOrdinals, h.partitionOrdinals, h.nonempty.trans h.le, h.nonempty⟩,
      (leadFlaw?_keys_eq_none_iff h.distinct h.localOrdinals h.partitionOrdinals).mpr h.leads,
      h.keyColumns, (quantum_iff h.distinct).mpr h.quantum⟩

theorem forall₂_indices (h : s.check = .ok ()) {columns : List TableColumn}
    (hcolumns : ∀ c ∈ columns, c ∈ s.columns) :
    List.Forall₂ (fun c i => s.columns[i]? = some c) columns
      (columns.filterMap fun c => s.indexOf? c.name) := by
  induction columns with
  | nil => exact .nil
  | cons c columns ih =>
    obtain ⟨hc, hrest⟩ := List.forall_mem_cons.mp hcolumns
    obtain ⟨i, hi, hat⟩ := exists_indexOf_of_mem h hc
    rw [List.filterMap_cons_some (f := fun c : TableColumn => s.indexOf? c.name) hi]
    exact .cons hat (ih hrest)

namespace IsWellKeyed

theorem forall₂_localKeyIndices (h : s.IsWellKeyed n m) :
    List.Forall₂ (fun c i => s.columns[i]? = some c) s.localKey s.localKeyIndices :=
  forall₂_indices (check_iff_isWellKeyed.mpr ⟨n, m, h⟩) fun _ hc => (mem_keyed.mp hc).1

theorem length_localKeyIndices (h : s.IsWellKeyed n m) : s.localKeyIndices.length = n :=
  h.forall₂_localKeyIndices.length_eq.symm.trans (countsTo_iff.mp h.localOrdinals).1

theorem exists_place (h : s.IsWellKeyed n m) {k : Nat} (hk : k < n) :
    ∃ (i : Nat) (c : TableColumn), s.localKeyIndices[k]? = some i ∧ s.columns[i]? = some c ∧
      c.localOrdinal?.map UInt32.toNat = some (k + 1) := by
  have hk' : k < s.localKeyIndices.length := by rwa [h.length_localKeyIndices]
  have hkey : k < s.localKey.length := by rwa [h.forall₂_localKeyIndices.length_eq]
  refine ⟨_, _, List.getElem?_eq_getElem hk', h.forall₂_localKeyIndices.get hkey hk', ?_⟩
  exact (h.localOrdinals.getElem?_keyed_iff.mp (List.getElem?_eq_getElem hkey)).2

/-- A position that stood at two places would have two ordinals. -/
theorem nodup_localKeyIndices (h : s.IsWellKeyed n m) : s.localKeyIndices.Nodup := by
  rw [List.nodup_iff_injective_get]
  intro a b hab
  obtain ⟨i, c, hi, hc, hordinal⟩ := h.exists_place (a.isLt.trans_eq h.length_localKeyIndices)
  obtain ⟨j, d, hj, hd, hordinal'⟩ := h.exists_place (b.isLt.trans_eq h.length_localKeyIndices)
  have hsame : i = j := by
    rw [List.getElem?_eq_getElem a.isLt, Option.some.injEq] at hi
    rw [List.getElem?_eq_getElem b.isLt, Option.some.injEq] at hj
    exact hi.symm.trans (hab.trans hj)
  subst hsame
  cases hc.symm.trans hd
  have hplace := hordinal.symm.trans hordinal'
  exact Fin.ext (by simpa using hplace)

theorem lt_of_mem_localKeyIndices (h : s.IsWellKeyed n m) {i : Nat} (hi : i ∈ s.localKeyIndices) :
    i < s.columns.length := by
  obtain ⟨k, hk⟩ := List.mem_iff_getElem?.mp hi
  obtain ⟨j, c, hj, hc, -⟩ :=
    h.exists_place (h.length_localKeyIndices ▸ (List.getElem?_eq_some_iff.mp hk).1)
  cases hk.symm.trans hj
  exact (List.getElem?_eq_some_iff.mp hc).1

theorem addresses (h : s.IsWellKeyed n m) : s.Addresses n := by
  refine ⟨h.length_localKeyIndices, h.nodup_localKeyIndices,
    fun i => h.lt_of_mem_localKeyIndices, fun k => h.exists_place, ?_⟩
  obtain ⟨c, q, htimed⟩ := exists_timedBy (check_iff_isWellKeyed.mpr ⟨n, m, h⟩)
  obtain ⟨k, hk⟩ := List.mem_iff_getElem?.mp
    (mem_keyed.mpr ⟨htimed.mem, htimed.inLocalKey⟩ : c ∈ s.localKey)
  obtain ⟨hkey, hc⟩ := List.getElem?_eq_some_iff.mp hk
  have hk' : k < s.localKeyIndices.length := by rwa [← h.forall₂_localKeyIndices.length_eq]
  have hat : s.columns[s.localKeyIndices[k]]? = some c := by
    rw [← hc]
    exact h.forall₂_localKeyIndices.get hkey hk'
  exact ⟨_, c, q, List.getElem_mem hk', hat, htimed.find, htimed.quantum,
    htimed.quantumWidth_eq, htimed.positive, q.toInt_width⟩

end IsWellKeyed

end Rules

/-- What a schema has to be to be accepted, and what it is then. -/
structure Validation (s : Schema) : Prop where
  accepts_iff : s.check = .ok () ↔ ∃ n m, s.IsWellKeyed n m
  addresses : ∀ n m, s.IsWellKeyed n m → s.Addresses n

theorem validation (s : Schema) : s.Validation where
  accepts_iff := check_iff_isWellKeyed
  addresses _ _ h := h.addresses

end Timeslice.Schema
