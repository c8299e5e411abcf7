import Timeslice.Time.Quantum
import Timeslice.Time.Span

/-!
# The quantum grid

Quanta are the intervals between neighbouring boundaries `origin + k * width`. A span is cut at
every boundary inside it, which gives one piece for each quantum that it meets. All of it is exact
integer arithmetic, so spans at the ends of the 64-bit range are cut like any other.

Room for the pieces is taken in advance, and asking for more room than there are addresses is a
panic. The quanta of a table are too wide for that: no span meets so many of them.
-/

namespace Timeslice

structure Grid where
  width : Int64
  origin : Int64
  deriving DecidableEq

inductive CutFault where
  | nonPositiveWidth (width : Int64)
  | tooManyQuanta (count : Nat) (limit : UInt64)
  deriving DecidableEq

namespace Grid

/-- The number of the quantum that holds `t`; quantum zero starts at the origin. -/
def index (g : Grid) (t : Int64) : Int :=
  (t.toInt - g.origin.toInt) / g.width.toInt

def boundary (g : Grid) (k : Int) : Int :=
  g.origin.toInt + k * g.width.toInt

/-- The start of the quantum that holds `t`, or the least timestamp if the quantum starts before
it. -/
def start (g : Grid) (t : Int64) : Int64 :=
  Int64.ofIntClamp (g.boundary (g.index t))

/-- How many quanta a span that is not empty meets. -/
def count (g : Grid) (s : Span) : Nat :=
  (g.index (s.stop - 1) - g.index s.start + 1).toNat

def piece (g : Grid) (s : Span) (k : Int) : Span where
  start := Int64.ofInt (max s.start.toInt (g.boundary k))
  stop := Int64.ofInt (min s.stop.toInt (g.boundary (k + 1)))

/-- The most pieces that room can be asked for: each takes 16 bytes of less than `2 ^ 63`. -/
def capacity : Nat :=
  9223372036854775807 / 16

/-- The pieces of a span, earliest first. There is no result if the cut panics. -/
def cut (g : Grid) (s : Span) (limit : UInt64) : Option (Except CutFault (List Span)) :=
  if g.width ≤ 0 then some (.error (.nonPositiveWidth g.width))
  else if s.isEmpty then some (.ok [])
  else if limit.toNat < g.count s then some (.error (.tooManyQuanta (g.count s) limit))
  else if capacity < g.count s then none
  else some (.ok ((List.range (g.count s)).map fun (i : Nat) => g.piece s (g.index s.start + i)))

/-- A grid whose quanta last a second or longer, if they are quanta at all. -/
def IsCoarse (g : Grid) : Prop :=
  0 < g.width.toInt → 1000 ≤ g.width.toInt

theorem width_le_zero_iff {g : Grid} : g.width ≤ 0 ↔ g.width.toInt ≤ 0 := by
  rw [Int64.le_iff_toInt_le, Int64.toInt_zero]

theorem mul_index_sub_lt {g : Grid} (hwidth : 0 < g.width.toInt) (a b : Int64) :
    g.width.toInt * (g.index b - g.index a - 1) < 18446744073709551616 := by
  have hlow := Int.mul_ediv_self_le (x := b.toInt - g.origin.toInt) (Int.ne_of_gt hwidth)
  have hhigh := Int.lt_mul_ediv_self_add (x := a.toInt - g.origin.toInt) hwidth
  have hmin := a.le_toInt
  have hmax := b.toInt_lt
  rw [Int.mul_sub, Int.mul_sub, Int.mul_one, index, index]
  omega

theorem IsCoarse.count_le_capacity {g : Grid} (h : g.IsCoarse) (hwidth : 0 < g.width.toInt)
    (s : Span) : g.count s ≤ capacity := by
  have hspread := mul_index_sub_lt hwidth s.start (s.stop - 1)
  unfold count capacity
  by_cases hmore : 0 ≤ g.index (s.stop - 1) - g.index s.start - 1
  · have hle := Int.mul_le_mul_of_nonneg_right (h hwidth) hmore
    omega
  · omega

theorem IsCoarse.isSome_cut {g : Grid} (h : g.IsCoarse) (s : Span) (limit : UInt64) :
    (g.cut s limit).isSome = true := by
  unfold cut
  split
  · rfl
  · next hwidth =>
    rw [width_le_zero_iff, Int.not_le] at hwidth
    rw [if_neg (Nat.not_lt.mpr (h.count_le_capacity hwidth s))]
    split
    · rfl
    · split <;> rfl

end Grid

namespace Quantum

def grid (q : Quantum) (origin : Int64) : Grid :=
  ⟨q.width, origin⟩

theorem isCoarse_grid (q : Quantum) (origin : Int64) : (q.grid origin).IsCoarse := by
  intro hwidth
  rw [grid, q.toInt_width] at hwidth ⊢
  have hunit : 1000 ≤ q.unit.millis := by cases q.unit <;> decide
  have hinterval : 0 < q.interval.toNat :=
    Nat.pos_of_mul_pos_right (Int.natCast_pos.mp hwidth)
  have hle := Nat.mul_le_mul hinterval hunit
  omega

/-- The pieces of a span of the table, which a cut always comes to. -/
def cut (q : Quantum) (origin : Int64) (s : Span) (limit : UInt64) :
    Except CutFault (List Span) :=
  ((q.grid origin).cut s limit).get ((q.isCoarse_grid origin).isSome_cut s limit)

theorem grid_cut (q : Quantum) (origin : Int64) (s : Span) (limit : UInt64) :
    (q.grid origin).cut s limit = some (q.cut origin s limit) :=
  (Option.some_get _).symm

end Quantum

end Timeslice
