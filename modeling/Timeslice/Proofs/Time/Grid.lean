import Mathlib.Tactic.Common
import Timeslice.Cluster.Scan
import Timeslice.Time.Grid

/-!
# Cutting a span at the quantum grid

The pieces of a span are its quanta: each instant of the span lies in exactly the piece of its own
quantum, and no piece reaches across a boundary.
-/

namespace Timeslice.Grid

variable {g : Grid} {s : Span} {k : Int}

theorem boundary_le_iff (hwidth : 0 < g.width.toInt) (t : Int64) :
    g.boundary k ≤ t.toInt ↔ k ≤ g.index t := by
  unfold boundary index
  rw [Int.le_ediv_iff_mul_le hwidth]
  omega

theorem lt_boundary_iff (hwidth : 0 < g.width.toInt) (t : Int64) :
    t.toInt < g.boundary k ↔ g.index t < k := by
  rw [← Int.not_le, boundary_le_iff hwidth, Int.not_le]

theorem boundary_lt (hwidth : 0 < g.width.toInt) {i j : Int} (h : i < j) :
    g.boundary i < g.boundary j := by
  unfold boundary
  exact Int.add_lt_add_left (Int.mul_lt_mul_of_pos_right h hwidth) _

theorem boundary_le (hwidth : 0 < g.width.toInt) {i j : Int} (h : i ≤ j) :
    g.boundary i ≤ g.boundary j := by
  rcases Int.lt_or_eq_of_le h with hlt | rfl
  · exact Int.le_of_lt (boundary_lt hwidth hlt)
  · exact Int.le_refl _

theorem boundary_index_le (hwidth : 0 < g.width.toInt) (t : Int64) :
    g.boundary (g.index t) ≤ t.toInt :=
  (boundary_le_iff hwidth t).mpr (Int.le_refl _)

theorem lt_boundary_succ (hwidth : 0 < g.width.toInt) (t : Int64) :
    t.toInt < g.boundary (g.index t + 1) :=
  (lt_boundary_iff hwidth t).mpr (Int.lt_succ _)

theorem index_le_index (hwidth : 0 < g.width.toInt) {a b : Int64} (h : a.toInt ≤ b.toInt) :
    g.index a ≤ g.index b :=
  Int.ediv_le_ediv hwidth (Int.sub_le_sub_right h _)

theorem toInt_last (h : s.isEmpty = false) : (s.stop - 1).toInt = s.stop.toInt - 1 := by
  have hlt := Span.isEmpty_eq_false_iff.mp h
  have hmin := s.start.le_toInt
  have hmax := s.stop.toInt_lt
  rw [Int64.toInt_sub, Int64.toInt_one]
  refine Int.bmod_eq_of_le ?_ ?_ <;> omega

theorem toInt_ofInt_between {a b : Int64} {i : Int} (hlow : a.toInt ≤ i) (hhigh : i ≤ b.toInt) :
    (Int64.ofInt i).toInt = i := by
  have hmin := a.le_toInt
  have hmax := b.toInt_lt
  exact Int64.toInt_ofInt_of_le (by omega) (by omega)

theorem index_le_last (hwidth : 0 < g.width.toInt) (hs : s.isEmpty = false) :
    g.index s.start ≤ g.index (s.stop - 1) := by
  have hlast := toInt_last hs
  have hlt := Span.isEmpty_eq_false_iff.mp hs
  exact index_le_index hwidth (by omega)

theorem natCast_count (hwidth : 0 < g.width.toInt) (hs : s.isEmpty = false) :
    (g.count s : Int) = g.index (s.stop - 1) - g.index s.start + 1 := by
  have hle := index_le_last hwidth hs
  unfold count
  omega

theorem piece_ends (hwidth : 0 < g.width.toInt) (hs : s.isEmpty = false)
    (hlow : g.index s.start ≤ k) (hhigh : k ≤ g.index (s.stop - 1)) :
    (g.piece s k).start.toInt = max s.start.toInt (g.boundary k) ∧
      (g.piece s k).stop.toInt = min s.stop.toInt (g.boundary (k + 1)) := by
  have hlast := toInt_last hs
  have hboundary := (boundary_le_iff hwidth (s.stop - 1)).mpr hhigh
  have hnext := (lt_boundary_iff (k := k + 1) hwidth s.start).mpr (by omega)
  have hlt := Span.isEmpty_eq_false_iff.mp hs
  constructor
  · exact toInt_ofInt_between (a := s.start) (b := s.stop) (by omega) (by omega)
  · exact toInt_ofInt_between (a := s.start) (b := s.stop) (by omega) (by omega)

theorem contains_piece (hwidth : 0 < g.width.toInt) (hs : s.isEmpty = false)
    (hlow : g.index s.start ≤ k) (hhigh : k ≤ g.index (s.stop - 1)) (t : Int64) :
    (g.piece s k).contains t = true ↔ s.contains t = true ∧ g.index t = k := by
  obtain ⟨hstart, hstop⟩ := piece_ends hwidth hs hlow hhigh
  have hle := boundary_le_iff (k := k) hwidth t
  have hlt := lt_boundary_iff (k := k + 1) hwidth t
  rw [Span.contains_iff, Span.contains_iff, hstart, hstop]
  omega

theorem isEmpty_piece (hwidth : 0 < g.width.toInt) (hs : s.isEmpty = false)
    (hlow : g.index s.start ≤ k) (hhigh : k ≤ g.index (s.stop - 1)) :
    (g.piece s k).isEmpty = false := by
  obtain ⟨hstart, hstop⟩ := piece_ends hwidth hs hlow hhigh
  have hlast := toInt_last hs
  have hboundary := (boundary_le_iff hwidth (s.stop - 1)).mpr hhigh
  have hnext := (lt_boundary_iff (k := k + 1) hwidth s.start).mpr (by omega)
  have hstep := boundary_lt (g := g) hwidth (Int.lt_succ k)
  have hlt := Span.isEmpty_eq_false_iff.mp hs
  rw [Span.isEmpty_eq_false_iff, hstart, hstop]
  omega

theorem insideQuantum_piece (hwidth : 0 < g.width.toInt) (hs : s.isEmpty = false)
    (hlow : g.index s.start ≤ k) (hhigh : k ≤ g.index (s.stop - 1)) :
    Shelf.insideQuantum g (g.piece s k) = true := by
  have hempty := isEmpty_piece hwidth hs hlow hhigh
  have hlast := toInt_last hempty
  have hlt := Span.isEmpty_eq_false_iff.mp hempty
  have hfirst : g.index (g.piece s k).start = k :=
    ((contains_piece hwidth hs hlow hhigh _).mp (Span.contains_iff.mpr (by omega))).2
  have hfinal : g.index ((g.piece s k).stop - 1) = k :=
    ((contains_piece hwidth hs hlow hhigh _).mp (Span.contains_iff.mpr (by omega))).2
  rw [Shelf.insideQuantum, start, start, hfirst, hfinal, beq_self_eq_true]

theorem toInt_start (hwidth : 0 < g.width.toInt) (t : Int64) :
    (g.start t).toInt = max Int64.minValue.toInt (g.boundary (g.index t)) := by
  have hle := boundary_index_le hwidth t
  have hmax := t.toInt_le
  by_cases hmin : Int64.minValue.toInt ≤ g.boundary (g.index t)
  · rw [start, Int64.toInt_ofIntClamp hmin (Int.le_trans hle hmax), Int.max_eq_right hmin]
  · rw [start, Int64.ofIntClamp, dif_neg hmin, Int.max_eq_left (Int.le_of_lt (Int.not_le.mp hmin))]

/-- Only the first quantum of the 64-bit range can start before the range, so no two quanta have the
same start. -/
theorem start_ne_of_index_lt (hwidth : 0 < g.width.toInt) {a b : Int64}
    (h : g.index a < g.index b) : g.start a ≠ g.start b := by
  intro heq
  have hmax := congrArg Int64.toInt heq
  rw [toInt_start hwidth, toInt_start hwidth] at hmax
  have hlt := boundary_lt hwidth h
  have hfirst : g.boundary (g.index b) ≤ a.toInt := by
    have hmin := a.minValue_le_toInt
    omega
  exact absurd ((boundary_le_iff hwidth a).mp hfirst) (by omega)

/-- Some boundary lies strictly inside the span. -/
def Straddles (g : Grid) (s : Span) : Prop :=
  ∃ k, s.start.toInt < g.boundary k ∧ g.boundary k < s.stop.toInt

theorem straddles_iff (hwidth : 0 < g.width.toInt) (hs : s.isEmpty = false) :
    g.Straddles s ↔ g.index s.start < g.index (s.stop - 1) := by
  have hlast := toInt_last hs
  constructor
  · rintro ⟨k, hstart, hstop⟩
    have hhigh : k ≤ g.index (s.stop - 1) := (boundary_le_iff hwidth _).mp (by omega)
    exact Int.lt_of_lt_of_le ((lt_boundary_iff hwidth _).mp hstart) hhigh
  · intro h
    have hhigh := boundary_index_le hwidth (s.stop - 1)
    exact ⟨g.index (s.stop - 1), (lt_boundary_iff hwidth _).mpr h, by omega⟩

/-- A span lies inside one quantum exactly if no boundary lies strictly inside it. -/
theorem insideQuantum_iff (hwidth : 0 < g.width.toInt) (hs : s.isEmpty = false) :
    Shelf.insideQuantum g s = true ↔ ¬g.Straddles s := by
  have hle := index_le_last hwidth hs
  rw [straddles_iff hwidth hs, Shelf.insideQuantum, beq_iff_eq]
  constructor
  · exact fun heq hindex => start_ne_of_index_lt hwidth hindex heq
  · intro h
    rw [start, start, show g.index s.start = g.index (s.stop - 1) by omega]

/-- The first quantum of the 64-bit range is cut off by the range, and still is one quantum. -/
example : Shelf.insideQuantum ⟨1000, 0⟩ ⟨Int64.minValue, -9223372036854775000⟩ = true ∧
    Shelf.insideQuantum ⟨1000, 0⟩ ⟨Int64.minValue, -9223372036854774999⟩ = false := by
  decide +kernel

/-- A list of pieces, one for each of the quanta from `first` on, that share out a span. -/
structure Shares (g : Grid) (s : Span) (first : Int) (pieces : List Span) : Prop where
  contains : ∀ i (h : i < pieces.length) t,
    pieces[i].contains t = true ↔ s.contains t = true ∧ g.index t = first + i
  covers : ∀ t, s.contains t = true → first ≤ g.index t ∧ g.index t < first + pieces.length
  inside : ∀ q ∈ pieces, q.isEmpty = false ∧ Shelf.insideQuantum g q = true

theorem exists_shares_of_cut {limit : UInt64} {pieces : List Span}
    (h : g.cut s limit = some (.ok pieces)) : ∃ first, g.Shares s first pieces := by
  unfold cut at h
  split_ifs at h with hwidth hempty hlimit hroom
  · cases h
  · cases h
    have hnone := Span.isEmpty_iff.mp hempty
    exact ⟨0, by simp, by simp [hnone], by simp⟩
  · cases h
  · cases h
    rw [width_le_zero_iff, Int.not_le] at hwidth
    have hempty : s.isEmpty = false := by simpa using hempty
    have hlast := toInt_last hempty
    have hcount := natCast_count hwidth hempty
    refine ⟨g.index s.start, ?_, ?_, ?_⟩
    · intro i hi t
      rw [List.length_map, List.length_range] at hi
      rw [List.getElem_map, List.getElem_range]
      exact contains_piece hwidth hempty (by omega) (by omega) t
    · intro t ht
      rw [Span.contains_iff] at ht
      have hlow := index_le_index hwidth ht.1
      have hhigh : g.index t ≤ g.index (s.stop - 1) := index_le_index hwidth (by omega)
      rw [List.length_map, List.length_range]
      omega
    · intro q hq
      obtain ⟨i, hi, rfl⟩ := List.mem_map.mp hq
      rw [List.mem_range] at hi
      exact ⟨isEmpty_piece hwidth hempty (by omega) (by omega),
        insideQuantum_piece hwidth hempty (by omega) (by omega)⟩

end Timeslice.Grid
