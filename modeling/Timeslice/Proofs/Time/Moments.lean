import Mathlib.Data.List.Induction
import Mathlib.Data.List.TakeWhile
import Mathlib.Tactic.Ring
import Timeslice.Time.Text

/-!
# The instants of date texts

A date text denotes an instant to the nanosecond, and its timestamp is the whole milliseconds of
that, rounded toward the past. The calendar of date texts ends long before the timestamps do, so
each of them has its timestamp, and that is not the last one.
-/

namespace Timeslice

namespace Numeral

theorem digitValue_lt {c : Char} (h : isDigit c = true) : digitValue c < 10 := by
  have hbounds : 48 ≤ c.toNat ∧ c.toNat ≤ 57 := by
    simpa [isDigit, Char.isDigit, UInt32.le_iff_toNat_le] using h
  unfold digitValue
  omega

theorem value_lt {cs : List Char} (h : ∀ c ∈ cs, isDigit c = true) :
    value cs < 10 ^ cs.length := by
  induction cs using List.reverseRecOn with
  | nil => decide
  | append_singleton cs c ih =>
    have hrest := ih fun d hd => h d (List.mem_append_left _ hd)
    have hlast := digitValue_lt (h c (List.mem_append_right _ List.mem_cons_self))
    rw [value_append_singleton, List.length_append, List.length_singleton, Nat.pow_succ]
    omega

end Numeral

namespace Date

theorem daysInMonth_le (year : Int) (month : Nat) : daysInMonth year month ≤ 31 := by
  unfold daysInMonth
  split
  · split <;> decide
  all_goals decide

theorem daysBefore_le (year : Int) (month : Nat) : daysBefore year month ≤ 31 * (month - 1) := by
  unfold daysBefore
  generalize month - 1 = n
  induction n with
  | zero => exact Nat.le_refl 0
  | succ n ih =>
    have hmonth := daysInMonth_le year (n + 1)
    rw [List.range_succ, List.foldl_append, List.foldl_cons, List.foldl_nil]
    omega

theorem toDays_bounds {d : Date} (hvalid : d.isValid = true) (hfirst : firstYear ≤ d.year)
    (hlast : d.year ≤ lastYear) : -100000000 ≤ d.toDays ∧ d.toDays ≤ 100000000 := by
  simp only [isValid, Bool.and_eq_true, decide_eq_true_eq] at hvalid
  obtain ⟨⟨⟨hmonth, hmonth'⟩, hday⟩, hday'⟩ := hvalid
  have hbefore := daysBefore_le d.year d.month
  have hlength := daysInMonth_le d.year d.month
  unfold firstYear at hfirst
  unfold lastYear at hlast
  unfold toDays daysToYear
  dsimp only
  omega

end Date

namespace Moment

def nanosSinceEpoch (m : Moment) : Int :=
  m.seconds * 1000000000 + m.nanos

theorem millis_eq (m : Moment) : m.millis = m.nanosSinceEpoch / 1000000 := by
  unfold millis nanosSinceEpoch
  omega

structure IsNear (m : Moment) : Prop where
  least : -10000000000000 ≤ m.seconds
  greatest : m.seconds ≤ 10000000000000
  nanos : m.nanos < 2000000000

theorem IsNear.toInt_millis {m : Moment} (h : m.IsNear) :
    (Int64.ofInt m.millis).toInt = m.millis := by
  obtain ⟨hleast, hgreatest, hnanos⟩ := h
  have hmin : Int64.minValue.toInt = -9223372036854775808 := by decide
  unfold millis
  refine Int64.toInt_ofInt_of_le ?_ ?_ <;> omega

theorem IsNear.millis_le {m : Moment} (h : m.IsNear) : m.millis ≤ 10000000000001999 := by
  obtain ⟨-, hgreatest, hnanos⟩ := h
  unfold millis
  omega

theorem bounds_of_ofCivil {d : Date} {hour minute second nanos : Nat} {m : Moment}
    (h : ofCivil? d hour minute second nanos = some m) (hnanos : nanos < 1000000000) :
    -9000000000000 ≤ m.seconds ∧ m.seconds ≤ 9000000000000 ∧ m.nanos < 2000000000 := by
  unfold ofCivil? at h
  split_ifs at h with hfits hleap
  all_goals
    simp only [Bool.and_eq_true, decide_eq_true_eq] at hfits
    obtain ⟨⟨⟨⟨⟨hvalid, hfirst⟩, hlast⟩, hhour⟩, hminute⟩, hsecond⟩ := hfits
    obtain ⟨hlow, hhigh⟩ := Date.toDays_bounds hvalid hfirst hlast
    cases h
    dsimp only
    omega

end Moment

namespace DateText

variable {cs rest : List Char}

theorem fraction_lt {nanos : Nat} (h : fraction cs = some (nanos, rest)) : nanos < 1000000000 := by
  unfold fraction at h
  split at h
  · next cs =>
    dsimp only at h
    split_ifs at h with hempty
    cases h
    generalize hkept : (cs.takeWhile Numeral.isDigit).take 9 = kept
    have hdigits : ∀ c ∈ kept, Numeral.isDigit c = true := by
      rw [← hkept]
      exact fun c hc => List.mem_takeWhile_imp (List.mem_of_mem_take hc)
    have hlength : kept.length ≤ 9 := by
      rw [← hkept]
      exact List.length_take_le _ _
    calc Numeral.value kept * Nat.pow 10 (9 - kept.length)
        < 10 ^ kept.length * 10 ^ (9 - kept.length) :=
          Nat.mul_lt_mul_of_pos_right (Numeral.value_lt hdigits) (Nat.pow_pos (by decide))
      _ = 10 ^ 9 := by rw [← Nat.pow_add, Nat.add_sub_cancel' hlength]
  · cases h
    decide

theorem zone_bounds {east : Int} (h : zone cs = some (east, rest)) :
    -1440 < east ∧ east < 1440 := by
  unfold zone at h
  split at h
  · cases h
    decide
  · cases h
    decide
  · split_ifs at h with hplus hminus
    case neg => cases h
    all_goals
      obtain ⟨negative, -, h⟩ := Option.bind_eq_some_iff.mp h
      obtain ⟨⟨hours, _⟩, -, h⟩ := Option.bind_eq_some_iff.mp h
      obtain ⟨⟨_, _⟩, -, h⟩ := Option.bind_eq_some_iff.mp h
      obtain ⟨⟨minutes, _⟩, -, h⟩ := Option.bind_eq_some_iff.mp h
      dsimp only at h
      split_ifs at h with hfits
      all_goals
        cases h
        omega
  · cases h

theorem isNear_of_zoned {m : Moment} (h : zoned cs = some m) : m.IsNear := by
  iterate 11 obtain ⟨⟨_, _⟩, -, h⟩ := Option.bind_eq_some_iff.mp h
  obtain ⟨⟨nanos, _⟩, hfraction, h⟩ := Option.bind_eq_some_iff.mp h
  obtain ⟨⟨east, _⟩, hzone, h⟩ := Option.bind_eq_some_iff.mp h
  obtain ⟨wall, hwall, h⟩ := Option.bind_eq_some_iff.mp h
  split_ifs at h
  cases h
  obtain ⟨hlow, hhigh, hnanos⟩ := Moment.bounds_of_ofCivil hwall (fraction_lt hfraction)
  obtain ⟨hwest, heast⟩ := zone_bounds hzone
  constructor <;> dsimp only <;> omega

theorem isNear_of_loose {between : Reader Unit} {m : Moment} (h : loose between cs = some m) :
    m.IsNear := by
  iterate 11 obtain ⟨⟨_, _⟩, -, h⟩ := Option.bind_eq_some_iff.mp h
  obtain ⟨⟨nanos, _⟩, hfraction, h⟩ := Option.bind_eq_some_iff.mp h
  obtain ⟨moment, hmoment, h⟩ := Option.bind_eq_some_iff.mp h
  split_ifs at h
  cases h
  obtain ⟨hlow, hhigh, hnanos⟩ := Moment.bounds_of_ofCivil hmoment (fraction_lt hfraction)
  constructor <;> omega

theorem isNear_of_read {s : String} {m : Moment} (h : read s = some m) : m.IsNear := by
  unfold read at h
  rcases Option.or_eq_some_iff.mp h with h | ⟨-, h⟩
  · exact isNear_of_zoned h
  · rcases Option.or_eq_some_iff.mp h with h | ⟨-, h⟩
    · exact isNear_of_loose h
    · exact isNear_of_loose h

end DateText

end Timeslice
