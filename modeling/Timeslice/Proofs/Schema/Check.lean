import Mathlib.Data.List.Nodup
import Timeslice.Data.Fit
import Timeslice.Query.Plan
import Timeslice.Proofs.Results

/-!
# What a checked schema guarantees

The names of the columns are distinct, and the time column is a column of timestamps that are never
null, with a quantum of positive width.
-/

namespace Timeslice.Schema

theorem perm_place (entry : UInt32 × TableColumn) (entries : List (UInt32 × TableColumn)) :
    (place entry entries).Perm (entry :: entries) := by
  induction entries with
  | nil => exact List.Perm.refl _
  | cons f rest ih =>
    rw [place]
    split_ifs
    · exact List.Perm.refl _
    · exact (ih.cons f).trans (List.Perm.swap entry f rest)

theorem perm_foldr_place (entries : List (UInt32 × TableColumn)) :
    (entries.foldr place []).Perm entries := by
  induction entries with
  | nil => exact List.Perm.refl _
  | cons f rest ih => exact (perm_place f _).trans (ih.cons f)

theorem perm_keyed (ordinal : TableColumn → Option UInt32) (columns : List TableColumn) :
    (keyed ordinal columns).Perm (columns.filter fun c => (ordinal c).isSome) := by
  have hcolumns : (columns.filterMap fun c => (ordinal c).map fun n => (n, c)).map (·.2) =
      columns.filter fun c => (ordinal c).isSome := by
    rw [List.map_filterMap, ← List.filterMap_eq_filter]
    refine List.filterMap_congr fun c _ => ?_
    cases hordinal : ordinal c <;> simp [Option.guard, hordinal]
  rw [← hcolumns]
  exact (perm_foldr_place _).map _

theorem mem_keyed {ordinal : TableColumn → Option UInt32} {columns : List TableColumn}
    {c : TableColumn} : c ∈ keyed ordinal columns ↔ c ∈ columns ∧ (ordinal c).isSome = true := by
  rw [(perm_keyed ordinal columns).mem_iff, List.mem_filter]

theorem columnNameFlaw?_eq_none_iff {columns : List TableColumn} {position : Nat}
    {seen : List String} :
    columnNameFlaw? position seen columns = none ↔
      (∀ c ∈ columns, c.name ≠ "") ∧ (columns.map (·.name)).Nodup ∧
        ∀ c ∈ columns, c.name ∉ seen := by
  induction columns generalizing position seen with
  | nil => simp [columnNameFlaw?]
  | cons c rest ih =>
    rw [columnNameFlaw?]
    split_ifs with hempty hseen
    · exact iff_of_false nofun fun h => h.1 c List.mem_cons_self hempty
    · exact iff_of_false nofun fun h => h.2.2 c List.mem_cons_self hseen
    · rw [ih, List.forall_mem_cons, List.forall_mem_cons, List.map_cons, List.nodup_cons]
      simp only [List.mem_cons, not_or, List.mem_map, not_exists, not_and]
      constructor
      · rintro ⟨hnames, hnodup, hnew⟩
        exact ⟨⟨hempty, hnames⟩, ⟨fun d hd hname => (hnew d hd).1 hname, hnodup⟩, hseen,
          fun d hd => (hnew d hd).2⟩
      · rintro ⟨⟨-, hnames⟩, ⟨hfirst, hnodup⟩, -, hnew⟩
        exact ⟨hnames, hnodup, fun d hd => ⟨hfirst d hd, hnew d hd⟩⟩

variable {s : Schema}

theorem check_iff_noFlaws : s.check = .ok () ↔
    s.nameFlaw? = none ∧ columnNameFlaw? 0 [] s.columns = none ∧ s.ordinalFlaw? = none ∧
      leadFlaw? 1 s.partitionKey s.localKey = none ∧
      (s.localKey ++ s.partitionKey).findSome? keyColumnFlaw? = none ∧ s.quantumFlaw? = none := by
  have hnone {α : Type} {a b : Option α} : (a <|> b) = none ↔ a = none ∧ b = none := by
    cases a <;> simp
  simp only [check_eq_ok_iff, flaw?, hnone]

theorem nodup_columnNames (h : s.check = .ok ()) : s.columnNames.Nodup :=
  (columnNameFlaw?_eq_none_iff.mp (check_iff_noFlaws.mp h).2.1).2.1

theorem keyColumnFlaw?_eq_none_iff {c : TableColumn} :
    keyColumnFlaw? c = none ↔ c.nullable = false ∧ c.type.isKeyable = true := by
  unfold keyColumnFlaw?
  split_ifs with hnullable hkeyable <;> simp_all

theorem keyColumn_spec (h : s.check = .ok ()) {c : TableColumn}
    (hc : c ∈ s.localKey ∨ c ∈ s.partitionKey) : c.nullable = false ∧ c.type.isKeyable = true :=
  keyColumnFlaw?_eq_none_iff.mp (List.findSome?_eq_none_iff.mp
    (check_iff_noFlaws.mp h).2.2.2.2.1 c (List.mem_append.mpr hc))

structure TimedBy (s : Schema) (c : TableColumn) (q : Quantum) : Prop where
  find : s.quantumColumn? = some c
  mem : c ∈ s.columns
  quantum : c.quantum? = some q
  positive : 0 < q.width.toInt
  type : c.type = .timestamp
  nonNull : c.nullable = false
  inLocalKey : c.inLocalKey = true

theorem TimedBy.quantum_eq {s : Schema} {c : TableColumn} {q : Quantum} (h : s.TimedBy c q) :
    s.quantum = .ok q := by
  rw [Schema.quantum, quantum?, h.find, Option.bind_some, h.quantum]

theorem TimedBy.quantumWidth_eq {s : Schema} {c : TableColumn} {q : Quantum} (h : s.TimedBy c q) :
    s.quantumWidth = .ok q.width := by
  rw [quantumWidth, h.quantum_eq]
  rfl

theorem leadFlaw?_eq_none_iff {position : Nat} {ps ls : List TableColumn} :
    leadFlaw? position ps ls = none ↔
      ∀ (i : Nat) p, ps[i]? = some p → ∃ l, ls[i]? = some l ∧ l.name = p.name := by
  induction ps generalizing position ls with
  | nil => simp [leadFlaw?]
  | cons p ps ih =>
    cases ls with
    | nil => exact iff_of_false nofun fun h => by simpa using h 0 p rfl
    | cons l ls =>
      rw [leadFlaw?]
      split_ifs with hname
      · rw [ih]
        constructor
        · rintro h (_ | i) q hq
          · cases hq
            exact ⟨l, rfl, hname⟩
          · exact h i q hq
        · exact fun h i q hq => h (i + 1) q hq
      · refine iff_of_false nofun fun h => hname ?_
        obtain ⟨_, ⟨⟩, hl⟩ := h 0 p rfl
        exact hl

theorem quantumFlaw?_eq_none_iff : s.quantumFlaw? = none ↔
    ∃ c q, (s.columns.filter fun c => c.quantum?.isSome) = [c] ∧ c.quantum? = some q ∧
      c.inPartitionKey = true ∧ c.type = .timestamp ∧ 0 < q.interval := by
  rw [quantumFlaw?]
  split
  · next hnone => exact iff_of_false nofun (by rintro ⟨c, q, hone, -⟩; rw [hnone] at hone; cases hone)
  · next c hone =>
    have hc : c ∈ s.columns.filter fun c => c.quantum?.isSome := by
      rw [hone]
      exact List.mem_singleton_self c
    obtain ⟨q, hq⟩ := Option.isSome_iff_exists.mp (List.mem_filter.mp hc).2
    have honly : (∃ d r, [c] = [d] ∧ d.quantum? = some r ∧ d.inPartitionKey = true ∧
        d.type = .timestamp ∧ 0 < r.interval) ↔
          c.inPartitionKey = true ∧ c.type = .timestamp ∧ 0 < q.interval := by
      simp [hq]
    rw [hone, honly, hq, Option.any_some]
    split_ifs with hplace hzero
    · refine iff_of_false nofun ?_
      rintro ⟨hpartition, htype, -⟩
      simp [hpartition, htype] at hplace
    · refine iff_of_false nofun ?_
      rintro ⟨-, -, hpositive⟩
      rw [decide_eq_true hpositive] at hzero
      cases hzero
    · simp only [Bool.not_eq_true, Bool.not_eq_false', Bool.and_eq_true, beq_iff_eq,
        decide_eq_true_eq] at hplace hzero
      exact iff_of_true rfl ⟨hplace.1, hplace.2, hzero⟩
  · next hmany =>
    refine iff_of_false nofun ?_
    rintro ⟨c, q, hone, -⟩
    exact hmany c hone

theorem eq_of_name_eq (h : s.check = .ok ()) {c d : TableColumn} (hc : c ∈ s.columns)
    (hd : d ∈ s.columns) (hname : c.name = d.name) : c = d :=
  List.inj_on_of_nodup_map (nodup_columnNames h) hc hd hname

theorem exists_timedBy (h : s.check = .ok ()) : ∃ c q, s.TimedBy c q := by
  obtain ⟨-, -, -, hlead, -, hquantum⟩ := check_iff_noFlaws.mp h
  obtain ⟨c, q, hfilter, hq, hinPartition, htype, hpositive⟩ := quantumFlaw?_eq_none_iff.mp hquantum
  have hmem : c ∈ s.columns.filter fun c => c.quantum?.isSome := by
    rw [hfilter]
    exact List.mem_singleton_self c
  have hc := (List.mem_filter.mp hmem).1
  have hpartition : c ∈ s.partitionKey := mem_keyed.mpr ⟨hc, hinPartition⟩
  obtain ⟨i, hi⟩ := List.mem_iff_getElem?.mp hpartition
  obtain ⟨l, hl, hname⟩ := leadFlaw?_eq_none_iff.mp hlead i c hi
  obtain ⟨hmem, hlocal⟩ := mem_keyed.mp (List.mem_of_getElem? hl)
  obtain rfl := eq_of_name_eq h hmem hc hname
  refine ⟨l, q, ?_, hc, hq, ?_, htype, (keyColumn_spec h (.inr hpartition)).1, hlocal⟩
  · rw [quantumColumn?, ← List.head?_filter, hfilter]
    rfl
  · rw [Quantum.toInt_width]
    have hinterval : 0 < q.interval.toNat := by simpa [UInt32.lt_iff_toNat_lt] using hpositive
    have hunit : 0 < q.unit.millis := by cases q.unit <;> decide
    exact Int.natCast_pos.mpr (Nat.mul_pos hinterval hunit)

end Timeslice.Schema
