import Timeslice.Number.Word

/-!
# Time spans

Half-open intervals `[start, stop)` of milliseconds since the Unix epoch.
-/

namespace Timeslice

structure Span where
  start : Int64
  stop : Int64
  deriving DecidableEq

namespace Span

/-- No instant lies in the span. -/
def isEmpty (s : Span) : Bool :=
  s.stop ≤ s.start

def contains (s : Span) (t : Int64) : Bool :=
  s.start ≤ t && t < s.stop

def text (s : Span) : String :=
  "[" ++ Word.text s.start ++ ", " ++ Word.text s.stop ++ ")"

theorem contains_iff {s : Span} {t : Int64} :
    s.contains t = true ↔ s.start.toInt ≤ t.toInt ∧ t.toInt < s.stop.toInt := by
  simp [contains, Int64.le_iff_toInt_le, Int64.lt_iff_toInt_lt]

theorem isEmpty_iff_le {s : Span} : s.isEmpty = true ↔ s.stop.toInt ≤ s.start.toInt := by
  simp [isEmpty, Int64.le_iff_toInt_le]

theorem isEmpty_eq_false_iff {s : Span} : s.isEmpty = false ↔ s.start.toInt < s.stop.toInt := by
  rw [Bool.eq_false_iff, Ne, isEmpty_iff_le, Int.not_le]

theorem isEmpty_iff {s : Span} : s.isEmpty = true ↔ ∀ t, s.contains t = false := by
  rw [isEmpty_iff_le]
  constructor
  · intro h t
    rw [Bool.eq_false_iff, Ne, contains_iff]
    omega
  · intro h
    have hstart := h s.start
    rw [Bool.eq_false_iff, Ne, contains_iff] at hstart
    omega

end Span

end Timeslice
