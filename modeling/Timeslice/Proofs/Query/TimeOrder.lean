import Mathlib.Data.List.TakeWhile
import Timeslice.Proofs.Cluster.LocalKey
import Timeslice.Proofs.Query.Resolving

/-!
# How far rows are in order of time

The rows of a series, which are those that agree in the local key up to the time, come in order of
time. So do rows of different quanta. Rows of different series in one quantum do not: there the
series come one after the other.
-/

namespace Timeslice

namespace Key

theorem order_append {as bs : Key} (h : as.length = bs.length) (as' bs' : Key) :
    order (as ++ as') (bs ++ bs') = (order as bs).then (order as' bs') := by
  induction as generalizing bs with
  | nil =>
    obtain rfl := List.eq_nil_of_length_eq_zero h.symm
    rfl
  | cons a as ih =>
    cases bs with
    | nil => cases h
    | cons b bs =>
      rw [List.cons_append, List.cons_append, order, order, ih (Nat.succ.inj h), Ordering.then_assoc]

end Key

namespace Schema

variable {s : Schema} {row a b : Row}

def seriesColumns (s : Schema) : List TableColumn :=
  s.localKey.takeWhile fun c => c.name != s.timeColumn

/-- The series of a row: its local key up to the time. -/
def series (s : Schema) (row : Row) : Key :=
  Key.ofCells (s.cellsOf s.seriesColumns row)

theorem exists_takeWhile_append {α : Type} {p : α → Bool} {l : List α} {a : α} (ha : a ∈ l)
    (hp : p a = false) : ∃ b rest, l = l.takeWhile p ++ b :: rest ∧ p b = false := by
  have hsplit : l.takeWhile p ++ l.dropWhile p = l := List.takeWhile_append_dropWhile
  have hhead := List.head?_dropWhile_not p l
  cases hdrop : l.dropWhile p with
  | nil =>
    have hall := List.dropWhile_eq_nil_iff.mp hdrop a ha
    rw [hp] at hall
    cases hall
  | cons b rest =>
    rw [hdrop] at hsplit hhead
    exact ⟨b, rest, hsplit.symm, by simpa using hhead⟩

theorem exists_cell_of_time {t : Int64} (h : s.time? row = some t) :
    ∃ i, s.indexOf? s.timeColumn = some i ∧ row[i]? = some (.timestamp t) := by
  unfold time? at h
  split at h
  · next t' hcell =>
    obtain ⟨i, hi, hrow⟩ := Option.bind_eq_some_iff.mp hcell
    cases h
    exact ⟨i, hi, hrow⟩
  · cases h

/-- The local key of a row is its series, its time and what comes behind. -/
theorem exists_keyOf_eq (h : s.check = .ok ()) {t : Int64} (ht : s.time? row = some t) :
    ∃ rest, Shelf.keyOf s row = s.series row ++ .number t :: rest := by
  obtain ⟨c, q, htimed⟩ := exists_timedBy h
  have hc : c ∈ s.localKey := mem_keyed.mpr ⟨htimed.mem, htimed.inLocalKey⟩
  obtain ⟨d, behind, hkey, hd⟩ := exists_takeWhile_append (p := fun c => c.name != s.timeColumn) hc
    (by simp [htimed.timeColumn_eq])
  obtain ⟨i, hi, hcell⟩ := exists_cell_of_time ht
  have hname : d.name = s.timeColumn := by simpa using hd
  rw [← hname] at hi
  refine ⟨Key.ofCells (s.cellsOf behind row), ?_⟩
  rw [keyOf_eq, keyCells, hkey, cellsOf_append, cellsOf_cons hi hcell, Key.ofCells,
    List.filterMap_append]
  rfl

theorem length_series (h : s.check = .ok ()) (hrow : s.checkRow row = .ok ()) :
    (s.series row).length = s.seriesColumns.length := by
  have hsub : ∀ c ∈ s.seriesColumns, c ∈ s.localKey := fun c hc => List.takeWhile_subset _ hc
  have hfit := fit_cellsOf h hrow fun c hc => (mem_keyed.mp (hsub c hc)).1
  have hkeyable : ∀ column ∈ s.seriesColumns.map (·.toColumn), column.IsKeyable := by
    intro column hcolumn
    obtain ⟨c, hc, rfl⟩ := List.mem_map.mp hcolumn
    exact keyColumn_spec h (.inl (hsub c hc))
  rw [series, Key.length_ofCells hkeyable hfit, ← hfit.length_eq, List.length_map]

/-- Rows in the order of their keys are in the order of their series, and those of one series in the
order of time. -/
theorem series_order_of_keyOf (h : s.check = .ok ()) (ha : s.checkRow a = .ok ())
    (hb : s.checkRow b = .ok ()) (hlt : Key.order (Shelf.keyOf s a) (Shelf.keyOf s b) = .lt)
    {ta tb : Int64} (hta : s.time? a = some ta) (htb : s.time? b = some tb) :
    Key.order (s.series a) (s.series b) = .lt ∨ s.series a = s.series b ∧ ta ≤ tb := by
  obtain ⟨ra, hkeya⟩ := exists_keyOf_eq h hta
  obtain ⟨rb, hkeyb⟩ := exists_keyOf_eq h htb
  rw [hkeya, hkeyb, Key.order_append (by rw [length_series h ha, length_series h hb])] at hlt
  cases hseries : Key.order (s.series a) (s.series b) with
  | lt => exact .inl rfl
  | gt =>
    rw [hseries] at hlt
    cases hlt
  | eq =>
    refine .inr ⟨Std.LawfulEqCmp.eq_of_compare hseries, ?_⟩
    rw [hseries] at hlt
    by_contra hgt
    have htimes : KeyPart.order (.number ta) (.number tb) = .gt := by
      rw [KeyPart.order, Cell.wordOrder, compare_gt_iff_gt]
      exact Int64.lt_iff_toInt_lt.mp (Int64.not_le.mp hgt)
    rw [Key.order, htimes] at hlt
    cases hlt

end Schema

namespace Answerable

variable {shelf : Shelf} {settings : Settings} {select : Select} {plan : Plan}

theorem time_le_of_quantum_lt (h : Answerable shelf settings select plan) {a b : Row}
    {ta tb : Int64} (hta : shelf.schema.time? a = some ta) (htb : shelf.schema.time? b = some tb)
    (hlt : shelf.schema.quantumAt settings.origin a < shelf.schema.quantumAt settings.origin b) :
    ta ≤ tb := by
  obtain ⟨c, q, htimed⟩ := Schema.exists_timedBy h.sound.checked
  rw [Schema.quantumAt_eq htimed hta, Schema.quantumAt_eq htimed htb] at hlt
  by_contra hgt
  have hle := Int64.le_iff_toInt_le.mp (Int64.le_of_lt (Int64.not_le.mp hgt))
  refine absurd hlt (Int.not_lt.mpr ?_)
  exact Int.ediv_le_ediv htimed.positive (Int.sub_le_sub_right hle _)

/-- In the merged answer to a SELECT with time bounds a row comes before an earlier one only if both
are of one quantum, and of two series in that order. -/
theorem merged_in_time_order_by_series (h : Answerable shelf settings select plan)
    (hbounds : shelf.schema.isTimed select = true) {parts : List ResultSet}
    (hparts : List.Forall₂ (fun piece part => shelf.scan settings.origin piece = .ok part)
      plan.pieces parts) :
    ∃ rows : List Row, rows ⊆ shelf.contents ∧
      (plan.merge parts).rows = rows.map (fun row => shelf.schema.view row select.projection) ∧
      rows.Pairwise fun a b => ∀ ta tb, shelf.schema.time? a = some ta →
        shelf.schema.time? b = some tb → ta ≤ tb ∨
          shelf.schema.quantumAt settings.origin a = shelf.schema.quantumAt settings.origin b ∧
            Key.order (shelf.schema.series a) (shelf.schema.series b) = .lt := by
  obtain ⟨hperm, hsorted⟩ := h.answer_spec
  have hstored : shelf.answer select plan ⊆ shelf.contents := fun row hrow =>
    (List.mem_filter.mp (hperm.subset hrow)).1
  refine ⟨_, hstored, by rw [h.merge_eq hparts, ResultSet.rows_ofRows], ?_⟩
  refine hsorted.imp_of_mem fun {a b} ha hb hprecedes ta tb hta htb => ?_
  rcases hprecedes with ⟨-, hquantum⟩ | ⟨hquantum, hkey⟩
  · exact .inl (h.time_le_of_quantum_lt hta htb hquantum)
  · have hfita := h.sound.contents_fit (hstored ha)
    have hfitb := h.sound.contents_fit (hstored hb)
    rcases Schema.series_order_of_keyOf h.sound.checked hfita hfitb hkey hta htb with hlt | ⟨-, hle⟩
    · exact .inr ⟨hquantum hbounds, hlt⟩
    · exact .inl hle

end Answerable

namespace Loads

theorem answerable : Answerable shelf .standard select plan where
  sound := ⟨by decide +kernel, by decide +kernel, by decide +kernel, by decide +kernel⟩
  planned := plan_select 8
  projected := nofun
  readable := (Statement.read_select read_text).2
  finite := isFinite_select
  decides := decides_select

def parts : List ResultSet :=
  [⟨plan.columns, [[.timestamp 200, .null], [.timestamp 100, .null]]⟩,
    ⟨plan.columns, [[.timestamp 1500, .sint64 3]]⟩]

end Loads

/-- The order that the answer to the SELECT of loads has. -/
theorem loads_in_time_order_by_series :
    ∃ rows : List Row, rows ⊆ Loads.shelf.contents ∧
      (Loads.plan.merge Loads.parts).rows =
        rows.map (fun row => Loads.schema.view row (.columns ["time", "load"])) ∧
      rows.Pairwise fun a b => ∀ ta tb, Loads.schema.time? a = some ta →
        Loads.schema.time? b = some tb → ta ≤ tb ∨
          Loads.schema.quantumAt 0 a = Loads.schema.quantumAt 0 b ∧
            Key.order (Loads.schema.series a) (Loads.schema.series b) = .lt :=
  Answerable.merged_in_time_order_by_series Loads.answerable (by decide +kernel)
    (.cons (by decide +kernel) (.cons (by decide +kernel) .nil))

/-- The order of time does not hold across the series of a quantum: the SELECT of loads resolves with
a row of the time 200 in front of one of the time 100. -/
theorem loads_resolve_out_of_time_order :
    Loads.schema.check = .ok () ∧
      ((Loads.session.submit (.query Loads.text (.select Loads.select)) true).1.settle
          Cluster.transport).world.report? 0 =
        some (.ok (.rows ⟨Loads.plan.columns, [[.timestamp 200, .null], [.timestamp 100, .null],
          [.timestamp 1500, .sint64 3]]⟩)) := by
  decide +kernel

end Timeslice
