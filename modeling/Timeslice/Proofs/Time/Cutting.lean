import Mathlib.Data.Int.Interval
import Mathlib.Data.List.Chain
import Mathlib.Data.Set.Card
import Timeslice.Proofs.Time.Grid

/-!
# Cutting a span from boundary to boundary

The pieces of a span are also found one after the other: each goes up to the next boundary or to the
end of the span, and the rest of the span is cut in the same way. This ends, after one piece for
each quantum that the span meets, and it comes to the same pieces, unless these are so many that
room for them cannot be asked for.
-/

namespace Timeslice.Grid

variable {g : Grid} {s : Span}

def firstStop (g : Grid) (s : Span) : Int64 :=
  if g.boundary (g.index s.start + 1) < s.stop.toInt then
    Int64.ofInt (g.boundary (g.index s.start + 1))
  else s.stop

def rest (g : Grid) (s : Span) : Span :=
  ⟨g.firstStop s, s.stop⟩

@[simp]
theorem rest_start : (g.rest s).start = g.firstStop s := rfl

@[simp]
theorem rest_stop : (g.rest s).stop = s.stop := rfl

theorem toInt_firstStop (hwidth : 0 < g.width.toInt) :
    (g.firstStop s).toInt = min s.stop.toInt (g.boundary (g.index s.start + 1)) := by
  have hnext := lt_boundary_succ hwidth s.start
  unfold firstStop
  split_ifs with hbefore
  · rw [toInt_ofInt_between hnext.le hbefore.le, min_eq_right hbefore.le]
  · rw [min_eq_left (not_lt.mp hbefore)]

theorem firstStop_spec (hwidth : 0 < g.width.toInt) (hs : s.isEmpty = false) :
    s.start.toInt < (g.firstStop s).toInt ∧ (g.firstStop s).toInt ≤ s.stop.toInt := by
  have hlt := Span.isEmpty_eq_false_iff.mp hs
  have hnext := lt_boundary_succ hwidth s.start
  rw [toInt_firstStop hwidth]
  omega

/-- The pieces of a span one after the other, each up to the next boundary. -/
def walk (g : Grid) (hwidth : 0 < g.width.toInt) (s : Span) : List Span :=
  if _h : s.isEmpty = true then []
  else ⟨s.start, g.firstStop s⟩ :: walk g hwidth (g.rest s)
termination_by (s.stop.toInt - s.start.toInt).toNat
decreasing_by
  have hs : s.isEmpty = false := by simpa using _h
  have hstep := firstStop_spec hwidth hs
  have hlt := Span.isEmpty_eq_false_iff.mp hs
  simp only [rest]
  omega

theorem walk_of_isEmpty (hwidth : 0 < g.width.toInt) (hs : s.isEmpty = true) :
    g.walk hwidth s = [] := by
  rw [walk, dif_pos hs]

theorem walk_of_not_isEmpty (hwidth : 0 < g.width.toInt) (hs : s.isEmpty = false) :
    g.walk hwidth s = ⟨s.start, g.firstStop s⟩ :: g.walk hwidth (g.rest s) := by
  rw [walk, dif_neg (by simp [hs])]

theorem index_rest (hwidth : 0 < g.width.toInt) (hrest : (g.rest s).isEmpty = false) :
    (g.rest s).start.toInt = g.boundary (g.index s.start + 1) ∧
      g.index (g.rest s).start = g.index s.start + 1 := by
  have hlt : (g.rest s).start.toInt < s.stop.toInt := Span.isEmpty_eq_false_iff.mp hrest
  have hstop : (g.rest s).start.toInt = min s.stop.toInt (g.boundary (g.index s.start + 1)) :=
    toInt_firstStop hwidth
  have hstart : (g.rest s).start.toInt = g.boundary (g.index s.start + 1) := by omega
  have hnext := boundary_lt (g := g) hwidth (Int.lt_succ (g.index s.start + 1))
  have hlow := (boundary_le_iff hwidth (g.rest s).start).mp (Int.le_of_eq hstart.symm)
  have hhigh := (lt_boundary_iff hwidth (g.rest s).start).mp (Int.lt_of_le_of_lt hstart.le hnext)
  exact ⟨hstart, by omega⟩

theorem count_of_isEmpty_rest (hwidth : 0 < g.width.toInt) (hs : s.isEmpty = false)
    (hrest : (g.rest s).isEmpty = true) : g.count s = 1 := by
  have hlast := toInt_last hs
  have hlt := Span.isEmpty_eq_false_iff.mp hs
  have hstop : (g.rest s).start.toInt = min s.stop.toInt (g.boundary (g.index s.start + 1)) :=
    toInt_firstStop hwidth
  have hle : s.stop.toInt ≤ (g.rest s).start.toInt := Span.isEmpty_iff_le.mp hrest
  have hhigh := (lt_boundary_iff (k := g.index s.start + 1) hwidth (s.stop - 1)).mp (by omega)
  have hlow := index_le_last hwidth hs
  have hcount := natCast_count hwidth hs
  omega

theorem count_of_rest (hwidth : 0 < g.width.toInt) (hrest : (g.rest s).isEmpty = false) :
    g.count s = g.count (g.rest s) + 1 := by
  have hindex := (index_rest hwidth hrest).2
  have hlow := index_le_last hwidth hrest
  unfold count
  rw [rest_stop] at hlow ⊢
  omega

theorem piece_rest {k : Int} (hwidth : 0 < g.width.toInt) (hrest : (g.rest s).isEmpty = false)
    (hk : g.index s.start < k) : g.piece s k = g.piece (g.rest s) k := by
  have hstart := (index_rest hwidth hrest).1
  have hbefore := (lt_boundary_iff hwidth s.start).mpr hk
  have hle := boundary_le hwidth (Int.add_one_le_iff.mpr hk)
  unfold piece
  rw [hstart, max_eq_right hbefore.le, max_eq_right hle]
  rfl

theorem piece_first (hwidth : 0 < g.width.toInt) :
    g.piece s (g.index s.start) = ⟨s.start, g.firstStop s⟩ := by
  unfold piece
  rw [max_eq_left (boundary_index_le hwidth s.start), ← toInt_firstStop hwidth,
    Int64.ofInt_toInt, Int64.ofInt_toInt]

/-- From boundary to boundary a span is cut into its pieces in the quanta that it meets. -/
theorem walk_eq (hwidth : 0 < g.width.toInt) (hs : s.isEmpty = false) :
    g.walk hwidth s =
      (List.range (g.count s)).map fun (i : Nat) => g.piece s (g.index s.start + i) := by
  induction s using walk.induct g hwidth with
  | case1 s h => simp [hs] at h
  | case2 s _ ih =>
    rw [walk_of_not_isEmpty hwidth hs]
    cases hrest : (g.rest s).isEmpty with
    | true =>
      rw [walk_of_isEmpty hwidth hrest, count_of_isEmpty_rest hwidth hs hrest]
      simp [piece_first hwidth]
    | false =>
      rw [ih hrest, count_of_rest hwidth hrest, List.range_succ_eq_map, List.map_cons,
        List.map_map, Nat.cast_zero, Int.add_zero, piece_first hwidth]
      congr 1
      refine List.map_congr_left fun i _ => ?_
      rw [(index_rest hwidth hrest).2, Function.comp_apply,
        piece_rest hwidth hrest (by omega)]
      congr 1
      push_cast
      omega

theorem cut_eq_walk (hwidth : 0 < g.width.toInt) (hs : s.isEmpty = false) (limit : UInt64) :
    g.cut s limit =
      if limit.toNat < g.count s then some (.error (.tooManyQuanta (g.count s) limit))
      else if capacity < g.count s then none
      else some (.ok (g.walk hwidth s)) := by
  have hpositive : ¬g.width ≤ 0 := mt width_le_zero_iff.mp (Int.not_le.mpr hwidth)
  rw [cut, if_neg hpositive, if_neg (by simp [hs]), walk_eq hwidth hs]

/-- The span lies in quantum `k`. -/
def Inside (g : Grid) (k : Int) (s : Span) : Prop :=
  g.boundary k ≤ s.start.toInt ∧ s.stop.toInt ≤ g.boundary (k + 1)

/-- Pieces that partition a span at the boundaries. -/
structure Partitions (g : Grid) (s : Span) (pieces : List Span) : Prop where
  nonempty : ∀ p ∈ pieces, p.isEmpty = false
  start : pieces.head?.map Span.start = some s.start
  stop : pieces.getLast?.map Span.stop = some s.stop
  joined : pieces.IsChain fun p q => p.stop = q.start
  inside : ∀ p ∈ pieces, ∃ k, g.Inside k p
  apart : pieces.Pairwise fun p q => ∀ k, ¬(g.Inside k p ∧ g.Inside k q)
  once : ∀ t, pieces.countP (·.contains t) = if s.contains t = true then 1 else 0

theorem inside_first (hwidth : 0 < g.width.toInt) :
    g.Inside (g.index s.start) ⟨s.start, g.firstStop s⟩ :=
  ⟨boundary_index_le hwidth s.start,
    (toInt_firstStop hwidth).trans_le (min_le_right _ _)⟩

theorem contains_eq (hwidth : 0 < g.width.toInt) (hs : s.isEmpty = false) (t : Int64) :
    (if s.contains t = true then 1 else 0) =
      (if (g.rest s).contains t = true then 1 else 0) +
        if Span.contains ⟨s.start, g.firstStop s⟩ t = true then 1 else 0 := by
  obtain ⟨hlow, hhigh⟩ := firstStop_spec hwidth hs
  simp only [Span.contains_iff, rest]
  split_ifs <;> omega

theorem partitions_singleton (hwidth : 0 < g.width.toInt) (hs : s.isEmpty = false)
    (hrest : (g.rest s).isEmpty = true) : g.Partitions s [⟨s.start, g.firstStop s⟩] where
  nonempty := by
    simpa [Span.isEmpty_eq_false_iff] using (firstStop_spec hwidth hs).1
  start := rfl
  stop := by
    have hle := Span.isEmpty_iff_le.mp hrest
    rw [rest_start, rest_stop] at hle
    have hstop : g.firstStop s = s.stop :=
      Int64.toInt_inj.mp (Int.le_antisymm (firstStop_spec hwidth hs).2 hle)
    simp [hstop]
  joined := .singleton _
  inside := by simpa using ⟨_, inside_first hwidth⟩
  apart := List.pairwise_singleton _ _
  once t := by
    have hnone := Span.isEmpty_iff.mp hrest t
    rw [contains_eq hwidth hs t, hnone]
    simp [List.countP_singleton]

theorem Partitions.cons (hwidth : 0 < g.width.toInt) (hs : s.isEmpty = false)
    (hrest : (g.rest s).isEmpty = false) {pieces : List Span}
    (h : g.Partitions (g.rest s) pieces) :
    g.Partitions s (⟨s.start, g.firstStop s⟩ :: pieces) where
  nonempty := List.forall_mem_cons.mpr
    ⟨Span.isEmpty_eq_false_iff.mpr (firstStop_spec hwidth hs).1, h.nonempty⟩
  start := rfl
  stop := by
    have hne : pieces ≠ [] := by
      rintro rfl
      cases h.start
    rw [List.getLast?_cons_of_ne_nil hne]
    exact h.stop
  joined := by
    refine h.joined.cons fun q hq => ?_
    have hstart := h.start
    rw [show pieces.head? = some q from hq] at hstart
    exact (Option.some.inj hstart).symm
  inside := List.forall_mem_cons.mpr ⟨⟨_, inside_first hwidth⟩, h.inside⟩
  apart := by
    refine List.pairwise_cons.mpr ⟨fun q hq k hboth => ?_, h.apart⟩
    have hlt := Span.isEmpty_eq_false_iff.mp (h.nonempty q hq)
    have hcontains : (g.rest s).contains q.start = true := by
      have hcount : 0 < pieces.countP (·.contains q.start) :=
        List.countP_pos_iff.mpr ⟨q, hq, Span.contains_iff.mpr ⟨Int.le_refl _, hlt⟩⟩
      by_contra hout
      rw [h.once, if_neg hout] at hcount
      exact absurd hcount (Nat.lt_irrefl 0)
    have hbehind := (Span.contains_iff.mp hcontains).1
    rw [(index_rest hwidth hrest).1] at hbehind
    have hindex := (boundary_le_iff hwidth s.start).mp hboth.1.1
    have hnext := boundary_le hwidth (Int.add_le_add_right hindex 1)
    have hstop := hboth.2.2
    omega
  once t := by rw [List.countP_cons, h.once t, contains_eq hwidth hs t]

theorem partitions_walk (hwidth : 0 < g.width.toInt) (hs : s.isEmpty = false) :
    g.Partitions s (g.walk hwidth s) := by
  induction s using walk.induct g hwidth with
  | case1 s h => simp [hs] at h
  | case2 s _ ih =>
    rw [walk_of_not_isEmpty hwidth hs]
    cases hrest : (g.rest s).isEmpty with
    | true =>
      rw [walk_of_isEmpty hwidth hrest]
      exact partitions_singleton hwidth hs hrest
    | false => exact (ih hrest).cons hwidth hs hrest

/-- The quanta that have an instant in common with the span, in exact integers. -/
def met (g : Grid) (s : Span) : Set Int :=
  {k | ∃ t : Int, s.start.toInt ≤ t ∧ t < s.stop.toInt ∧ g.boundary k ≤ t ∧ t < g.boundary (k + 1)}

theorem mem_met (hwidth : 0 < g.width.toInt) (hs : s.isEmpty = false) {k : Int} :
    k ∈ g.met s ↔ g.index s.start ≤ k ∧ k ≤ g.index (s.stop - 1) := by
  have hlast := toInt_last hs
  have hlt := Span.isEmpty_eq_false_iff.mp hs
  have hlow := lt_boundary_iff (k := k + 1) hwidth s.start
  have hhigh := boundary_le_iff (k := k) hwidth (s.stop - 1)
  have hstep := boundary_lt (g := g) hwidth (Int.lt_succ k)
  constructor
  · rintro ⟨t, hstart, hstop, hbelow, habove⟩
    exact ⟨Int.lt_add_one_iff.mp (hlow.mp (by omega)), hhigh.mp (by omega)⟩
  · rintro ⟨hfirst, hfinal⟩
    have hbefore := hlow.mpr (Int.lt_add_one_iff.mpr hfirst)
    have hbehind := hhigh.mpr hfinal
    exact ⟨max s.start.toInt (g.boundary k), le_max_left _ _, max_lt hlt (by omega),
      le_max_right _ _, max_lt hbefore hstep⟩

theorem finite_met (hwidth : 0 < g.width.toInt) (hs : s.isEmpty = false) : (g.met s).Finite :=
  (Set.finite_Icc _ _).subset fun _ hk => (mem_met hwidth hs).mp hk

/-- The count that is taken in advance is the number of quanta that the span meets. -/
theorem ncard_met (hwidth : 0 < g.width.toInt) (hs : s.isEmpty = false) :
    (g.met s).ncard = g.count s := by
  have hmet : g.met s = Finset.Icc (g.index s.start) (g.index (s.stop - 1)) := by
    ext k
    rw [mem_met hwidth hs, Finset.coe_Icc, Set.mem_Icc]
  rw [hmet, Set.ncard_coe_finset, Int.card_Icc, count]
  congr 1
  omega

theorem sub_le_boundary_sub (hwidth : 0 < g.width.toInt) {i j : Int} (h : i ≤ j) :
    j - i ≤ g.boundary j - g.boundary i := by
  rw [boundary, boundary, Int.add_sub_add_left, ← Int.sub_mul]
  simpa using Int.mul_le_mul_of_nonneg_left (Int.add_one_le_iff.mpr hwidth) (Int.sub_nonneg_of_le h)

theorem count_le (hwidth : 0 < g.width.toInt) (hs : s.isEmpty = false) :
    (g.count s : Int) ≤ s.stop.toInt - s.start.toInt := by
  have hlast := toInt_last hs
  have hlt := Span.isEmpty_eq_false_iff.mp hs
  have hfirst := lt_boundary_succ hwidth s.start
  have hfinal := boundary_index_le hwidth (s.stop - 1)
  rw [natCast_count hwidth hs]
  by_cases hmore : g.index s.start + 1 ≤ g.index (s.stop - 1)
  · have hspread := sub_le_boundary_sub hwidth hmore
    omega
  · omega

/-- What a span is cut into, in all cases. There is no result after a panic. -/
structure Cuts (g : Grid) (s : Span) (limit : UInt64)
    (result : Option (Except CutFault (List Span))) : Prop where
  nonPositive : g.width.toInt ≤ 0 → result = some (.error (.nonPositiveWidth g.width))
  empty : 0 < g.width.toInt → s.isEmpty = true → result = some (.ok [])
  fits : 0 < g.width.toInt → s.isEmpty = false →
    (g.met s).Finite ∧ 0 < (g.met s).ncard ∧ (g.met s).ncard < 2 ^ 64
  tooMany : 0 < g.width.toInt → s.isEmpty = false → limit.toNat < (g.met s).ncard →
    result = some (.error (.tooManyQuanta (g.met s).ncard limit))
  pieces : ∀ hwidth : 0 < g.width.toInt, s.isEmpty = false → (g.met s).ncard ≤ limit.toNat →
    (g.met s).ncard < 2 ^ 59 →
    ∃ pieces, result = some (.ok pieces) ∧ pieces = g.walk hwidth s ∧
      pieces.length = (g.met s).ncard ∧ g.Partitions s pieces
  /-- The limit does not keep the room that is asked for within bounds. -/
  panics : 0 < g.width.toInt → s.isEmpty = false → (g.met s).ncard ≤ limit.toNat →
    2 ^ 59 ≤ (g.met s).ncard → result = none

/-- A span is cut into one piece for each quantum that it meets, if these are not too many. -/
theorem cuts_cut (g : Grid) (s : Span) (limit : UInt64) : g.Cuts s limit (g.cut s limit) := by
  refine ⟨fun hwidth => ?_, fun hwidth hs => ?_, fun hwidth hs => ?_, fun hwidth hs hlimit => ?_,
    fun hwidth hs hlimit hroom => ?_, fun hwidth hs hlimit hroom => ?_⟩
  · rw [cut, if_pos (width_le_zero_iff.mpr hwidth)]
  · rw [cut, if_neg (mt width_le_zero_iff.mp (Int.not_le.mpr hwidth)), if_pos hs]
  · have hstart := s.start.le_toInt
    have hstop := s.stop.toInt_lt
    have hmost := count_le hwidth hs
    have hcount := natCast_count hwidth hs
    have hlow := index_le_last hwidth hs
    rw [ncard_met hwidth hs]
    exact ⟨finite_met hwidth hs, by omega, by omega⟩
  · rw [ncard_met hwidth hs] at hlimit ⊢
    rw [cut_eq_walk hwidth hs, if_pos hlimit]
  · rw [ncard_met hwidth hs] at hlimit hroom ⊢
    have hfits : g.count s ≤ capacity := Nat.le_of_lt_succ hroom
    refine ⟨g.walk hwidth s, ?_, rfl, ?_, partitions_walk hwidth hs⟩
    · rw [cut_eq_walk hwidth hs, if_neg (not_lt.mpr hlimit), if_neg (not_lt.mpr hfits)]
    · rw [walk_eq hwidth hs, List.length_map, List.length_range]
  · rw [ncard_met hwidth hs] at hlimit hroom
    have hover : capacity < g.count s := Nat.lt_of_succ_le hroom
    rw [cut_eq_walk hwidth hs, if_neg (not_lt.mpr hlimit), if_pos hover]

/-- With quanta of a millisecond, the span of all instants but the last one meets as many quanta as
it has instants, and a limit that allows all of them leaves no result. -/
theorem cut_all_panics :
    (Grid.met ⟨1, 0⟩ ⟨Int64.minValue, Int64.maxValue⟩).ncard = 18446744073709551615 ∧
      Grid.cut ⟨1, 0⟩ ⟨Int64.minValue, Int64.maxValue⟩ 18446744073709551615 = none ∧
      Grid.cut ⟨1, 0⟩ ⟨Int64.minValue, Int64.maxValue⟩ 18446744073709551614 =
        some (.error (.tooManyQuanta 18446744073709551615 18446744073709551614)) := by
  refine ⟨?_, by decide +kernel, by decide +kernel⟩
  rw [ncard_met (by decide) (by decide)]
  decide +kernel

end Timeslice.Grid
