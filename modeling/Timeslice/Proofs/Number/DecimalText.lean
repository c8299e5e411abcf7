import Mathlib.Data.List.Induction
import Timeslice.Proofs.Number.Rounding

/-!
# The text of a double reads back

A finite double is written as a literal with digits on both sides of a point. The main statement is
that the double nearest to what is written there is the double itself.
-/

namespace Timeslice.Numeral

theorem value_append (as bs : List Char) :
    value (as ++ bs) = value as * 10 ^ bs.length + value bs := by
  induction bs using List.reverseRecOn with
  | nil => simp [value]
  | append_singleton bs c ih =>
    rw [← List.append_assoc, value_append_singleton, ih, value_append_singleton,
      List.length_append, Nat.pow_add]
    simp only [List.length_singleton]
    ring

theorem value_replicate_zero (n : Nat) : value (List.replicate n '0') = 0 := by
  induction n with
  | zero => rfl
  | succ n ih =>
    rw [List.replicate_succ', value_append_singleton, ih]
    rfl

theorem value_zeros_append (n : Nat) (cs : List Char) :
    value (List.replicate n '0' ++ cs) = value cs := by
  rw [value_append, value_replicate_zero, Nat.zero_mul, Nat.zero_add]

end Timeslice.Numeral

namespace Timeslice.Double

theorem ofMagnitude_magnitude (d : Double) : ofMagnitude d.isNegative d.magnitude = d := by
  have hlt := d.bits.toNat_lt
  have hbits : (if d.isNegative then 2 ^ 63 + d.magnitude else d.magnitude) = d.bits.toNat := by
    unfold isNegative magnitude
    simp only [Nat.pow_eq]
    split_ifs with h <;> simp only [decide_eq_true_eq] at h <;> omega
  unfold ofMagnitude
  rw [Nat.pow_eq, hbits, UInt64.ofNat_toNat]

theorem holds_value (magnitude : Nat) {den : Nat} (hden : 0 < den) :
    (basin magnitude).holds ((basin magnitude).value * den) den = true := by
  have hpos := Nat.two_pow_pos (scale magnitude)
  have hhigh : (basin magnitude).value < (basin magnitude).high := by
    simp only [basin, Nat.pow_eq]
    omega
  unfold Basin.holds
  split_ifs with hclosed
  · have hlow : (basin magnitude).low ≤ (basin magnitude).value := by
      simp only [basin]
      exact Nat.sub_le _ _
    simp only [Bool.and_eq_true, decide_eq_true_eq]
    exact ⟨Nat.mul_le_mul_right den hlow, Nat.mul_le_mul_right den hhigh.le⟩
  · have hlow : (basin magnitude).low < (basin magnitude).value := by
      have hodd : significand magnitude ≠ 0 := by
        intro h0
        simp [basin, h0] at hclosed
      have hvalue : 0 < significand magnitude * 2 ^ scale magnitude :=
        Nat.mul_pos (Nat.pos_of_ne_zero hodd) hpos
      simp only [basin, unitsOf, Nat.pow_eq]
      split_ifs <;> omega
    simp only [Bool.and_eq_true, decide_eq_true_eq]
    exact ⟨Nat.mul_lt_mul_of_pos_right hlow hden, Nat.mul_lt_mul_of_pos_right hhigh hden⟩

namespace Basin

def Admits (b : Basin) (d : Decimal) : Prop :=
  b.holds (d.digits * (step d.exponent).1) (step d.exponent).2 = true

theorem admits_of_onGrid {b : Basin} {exponent : Int} {digits : Nat}
    (h : b.onGrid exponent = some digits) : b.Admits ⟨digits, exponent⟩ := by
  unfold onGrid at h
  simp only at h
  unfold Admits
  split_ifs at h with hboth hnear hunder hover
  all_goals cases h
  · exact (Bool.and_eq_true _ _ ▸ hboth).1
  · exact (Bool.and_eq_true _ _ ▸ hboth).2
  · exact hunder
  · exact hover

end Basin

theorem quarters_eq (n : Nat) : n * 2 ^ 1076 = 4 * (n * 2 ^ 1074) := by
  rw [show (1076 : Nat) = 1074 + 2 from rfl, Nat.pow_add, Nat.mul_comm (2 ^ 1074),
    Nat.mul_left_comm]

theorem Basin.admits_mk (b : Basin) (digits : Nat) (exponent : Int) :
    b.Admits ⟨digits, exponent⟩ ↔
      b.holds (4 * (digits * 10 ^ exponent.toNat * 2 ^ 1074)) (10 ^ (-exponent).toNat) = true := by
  unfold Admits step
  simp only [Nat.pow_eq]
  rw [← Nat.mul_assoc, quarters_eq]

theorem holds_finest (magnitude k : Nat) :
    (basin magnitude).holds (4 * (unitsOf magnitude * 5 ^ k * 2 ^ k)) (10 ^ k) = true := by
  have hvalue : 4 * (unitsOf magnitude * 5 ^ k * 2 ^ k) = (basin magnitude).value * 10 ^ k := by
    rw [Nat.mul_assoc, ← Nat.mul_pow, ← Nat.mul_assoc]
    rfl
  rw [hvalue]
  exact holds_value magnitude (Nat.pow_pos (by decide))

theorem coarsest_zero (magnitude : Nat) :
    (basin magnitude).coarsest 0 = ⟨unitsOf magnitude * 5 ^ 1074, -1074⟩ := by
  have hunits : (basin magnitude).value / 4 = unitsOf magnitude :=
    Nat.mul_div_cancel_left (unitsOf magnitude) (by decide)
  rw [Basin.coarsest, hunits, Nat.pow_eq]

theorem admits_coarsest_zero (magnitude : Nat) :
    (basin magnitude).Admits ((basin magnitude).coarsest 0) := by
  have hfinest := holds_finest magnitude 1074
  have hone : unitsOf magnitude * 5 ^ 1074 * 1 = unitsOf magnitude * 5 ^ 1074 := Nat.mul_one _
  rw [coarsest_zero, Basin.admits_mk, show (-1074 : Int).toNat = 0 from rfl,
    show (- -1074 : Int).toNat = 1074 from rfl, Nat.pow_zero, hone]
  exact hfinest

theorem Basin.coarsest_succ (b : Basin) (n : Nat) :
    b.coarsest (n + 1) = match b.onGrid (n + 1 - 1074) with
      | some digits => ⟨digits, n + 1 - 1074⟩
      | none => b.coarsest n := rfl

theorem admits_coarsest (magnitude n : Nat) :
    (basin magnitude).Admits ((basin magnitude).coarsest n) := by
  induction n with
  | zero => exact admits_coarsest_zero magnitude
  | succ n ih =>
    rw [Basin.coarsest_succ]
    split
    · next digits h => exact Basin.admits_of_onGrid h
    · exact ih

/-- A decimal in the basin with its point inside the digits rounds to the magnitude. -/
theorem nearest_of_admits {magnitude : Nat} {d : Decimal} (hfin : magnitude < infinite)
    (hneg : d.exponent < 0) (h : (basin magnitude).Admits d) :
    nearest d.digits (10 ^ (-d.exponent).toNat) = magnitude := by
  obtain ⟨digits, exponent⟩ := d
  apply nearest_eq_of_holds hfin (Nat.pow_pos (by decide))
  rwa [Basin.admits_mk, Int.toNat_of_nonpos (show exponent ≤ 0 from hneg.le), Nat.pow_zero,
    Nat.mul_one digits] at h

/-- A whole number of steps in the basin of a magnitude with a finer grid is its value. -/
theorem unitsOf_eq_of_admits {magnitude : Nat} {d : Decimal} (hpos : 0 ≤ d.exponent)
    (hscale : scale magnitude < 1074) (h : (basin magnitude).Admits d) :
    unitsOf magnitude = d.digits * 10 ^ d.exponent.toNat * 2 ^ 1074 := by
  obtain ⟨digits, exponent⟩ := d
  have hden : (-exponent).toNat = 0 := Int.toNat_of_nonpos (by simpa using hpos)
  rw [Basin.admits_mk, hden, Nat.pow_zero] at h
  simp only
  have hnear := near_of_holds h
  obtain ⟨r, hr⟩ : ∃ r, 1074 = scale magnitude + (r + 1) := ⟨1073 - scale magnitude, by omega⟩
  have hlow := hnear.low
  have hhigh := hnear.high
  unfold unitsOf
  rw [Nat.pow_eq]
  rw [hr, Nat.pow_add, Nat.pow_succ, Nat.one_mul] at hlow hhigh
  rw [hr, Nat.pow_add, Nat.pow_succ]
  generalize digits * 10 ^ exponent.toNat = n at *
  generalize significand magnitude = m at *
  have hpow := Nat.two_pow_pos (scale magnitude)
  generalize 2 ^ scale magnitude = p at *
  generalize 2 ^ r = q at *
  have hprod : n * (p * (q * 2)) = n * q * 2 * p := by ring
  rw [hprod] at hlow hhigh ⊢
  have hm : m = n * q * 2 := by
    apply Nat.le_antisymm
    · by_contra hlt
      have : (n * q * 2 + 1) * p ≤ m * p := Nat.mul_le_mul_right p (by omega)
      rw [Nat.add_mul] at this
      omega
    · by_contra hlt
      have : (m + 1) * p ≤ n * q * 2 * p := Nat.mul_le_mul_right p (by omega)
      rw [Nat.add_mul] at this
      omega
  rw [hm]

theorem isWhole_iff {d : Double} (hfin : d.isFinite = true) :
    d.isWhole = true ↔ 2 ^ 1074 ∣ d.units := by
  rw [isWhole, hfin, Bool.true_and, beq_iff_eq, Nat.pow_eq, Nat.dvd_iff_mod_eq_zero]

theorem exponent_shortest_neg {d : Double} (hfin : d.isFinite = true) (hwhole : ¬ d.isWhole = true) :
    (shortest d.magnitude).exponent < 0 := by
  rw [isWhole_iff hfin] at hwhole
  have hscale : scale d.magnitude < 1074 := by
    by_contra hle
    apply hwhole
    unfold units unitsOf
    rw [Nat.pow_eq]
    exact (Nat.pow_dvd_pow 2 (Nat.le_of_not_lt hle)).trans (Nat.dvd_mul_left _ _)
  by_contra hnonneg
  apply hwhole
  unfold units
  rw [unitsOf_eq_of_admits (Int.not_lt.mp hnonneg) hscale (admits_coarsest d.magnitude _)]
  exact Nat.dvd_mul_left _ _

/-- Digits on both sides of a point, which stand for `digits / 10 ^ places`. -/
inductive PointForm : List Char → Nat → Nat → Prop where
  | mk (whole places : List Char) (hne : whole ≠ []) (hwhole : ∀ c ∈ whole, Numeral.isDigit c = true)
      (hplaces : ∀ c ∈ places, Numeral.isDigit c = true) :
      PointForm (whole ++ '.' :: places) (Numeral.value (whole ++ places)) places.length

theorem pointForm_whole (n : Nat) : PointForm (Numeral.digits n ++ ['.', '0']) (10 * n) 1 := by
  have h := PointForm.mk (Numeral.digits n) ['0'] (Numeral.digits_ne_nil n)
    (fun c hc => Numeral.isDigit_of_mem_digits hc) (List.forall_mem_singleton.mpr rfl)
  rwa [Numeral.value_append_singleton, Numeral.value_digits] at h

theorem pointForm_positional {d : Decimal} (hneg : d.exponent < 0) :
    PointForm d.positional d.digits (-d.exponent).toNat := by
  obtain ⟨digits, exponent⟩ := d
  have hdigits : ∀ c ∈ Numeral.digits digits, Numeral.isDigit c = true :=
    fun c hc => Numeral.isDigit_of_mem_digits hc
  have hvalue := Numeral.value_digits digits
  unfold Decimal.positional
  simp only [if_neg (Int.not_le.mpr hneg)]
  generalize (-exponent).toNat = places
  generalize Numeral.digits digits = ds at *
  split_ifs with hlt
  · have h := PointForm.mk (ds.take (ds.length - places)) (ds.drop (ds.length - places))
      (by
        have hlength := List.length_take_of_le (Nat.sub_le ds.length places)
        intro hnil
        rw [hnil, List.length_nil] at hlength
        omega)
      (fun c hc => hdigits c (List.mem_of_mem_take hc))
      (fun c hc => hdigits c (List.mem_of_mem_drop hc))
    rwa [List.take_append_drop, hvalue, List.length_drop, Nat.sub_sub_self hlt.le] at h
  · have h := PointForm.mk ['0'] (List.replicate (places - ds.length) '0' ++ ds) (by simp)
      (List.forall_mem_singleton.mpr rfl) (fun c hc => by
        rcases List.mem_append.mp hc with hc | hc
        · rw [List.eq_of_mem_replicate hc]
          rfl
        · exact hdigits c hc)
    have hzeros : Numeral.value (['0'] ++ (List.replicate (places - ds.length) '0' ++ ds)) =
        digits := by
      rw [show ['0'] = List.replicate 1 '0' from rfl, Numeral.value_zeros_append,
        Numeral.value_zeros_append, hvalue]
    have hlength : (List.replicate (places - ds.length) '0' ++ ds).length = places := by
      rw [List.length_append, List.length_replicate]
      omega
    rwa [hzeros, hlength] at h

theorem ofDecimal_of_nearest {d : Double} {digits places : Nat}
    (h : nearest digits (10 ^ places) = d.magnitude) : ofDecimal d.isNegative digits places = d := by
  unfold ofDecimal ofRatio
  rw [Nat.pow_eq, h, ofMagnitude_magnitude]

theorem ofDecimal_whole {d : Double} (hfin : d.isFinite = true) (hwhole : d.isWhole = true) :
    ofDecimal d.isNegative (10 * (d.units / 2 ^ 1074)) 1 = d := by
  have hlt : d.magnitude < infinite := by simpa [isFinite] using hfin
  have hunits := Nat.div_mul_cancel ((isWhole_iff hfin).mp hwhole)
  generalize d.units / 2 ^ 1074 = n at hunits ⊢
  have hvalue : 4 * (10 * n * 2 ^ 1074) = (basin d.magnitude).value * 10 ^ 1 := by
    change _ = 4 * d.units * 10 ^ 1
    rw [Nat.mul_assoc 10, hunits, Nat.mul_left_comm, Nat.mul_comm 10, Nat.pow_one]
  apply ofDecimal_of_nearest
  apply nearest_eq_of_holds hlt (Nat.pow_pos (by decide))
  rw [hvalue]
  exact holds_value d.magnitude (Nat.pow_pos (by decide))

theorem ofDecimal_shortest {d : Double} (hfin : d.isFinite = true) (hwhole : ¬ d.isWhole = true) :
    ofDecimal d.isNegative (shortest d.magnitude).digits
      (-(shortest d.magnitude).exponent).toNat = d := by
  have hlt : d.magnitude < infinite := by simpa [isFinite] using hfin
  exact ofDecimal_of_nearest (nearest_of_admits hlt (exponent_shortest_neg hfin hwhole)
    (admits_coarsest d.magnitude _))

theorem chars_of_not_whole {d : Double} (hfin : d.isFinite = true) (hwhole : ¬ d.isWhole = true) :
    d.chars = d.signed (shortest d.magnitude).positional := by
  have hlt : d.magnitude < infinite := by simpa [isFinite] using hfin
  have hnan : d.isNaN = false := by
    simp only [isNaN, decide_eq_false_iff_not, Nat.not_lt]
    exact hlt.le
  have hzero : d.magnitude ≠ 0 := by
    intro h0
    have hunits : d.units = 0 := by
      rw [units, h0]
      rfl
    rw [isWhole_iff hfin, hunits] at hwhole
    exact hwhole (Nat.dvd_zero _)
  rw [chars, hnan, hfin]
  simp only [Bool.false_eq_true, if_false, Bool.not_true, if_neg hzero]

/-- A finite literal is a sign and digits around a point, and reads back as itself. -/
theorem literalChars_pointForm {d : Double} (hfin : d.isFinite = true) :
    ∃ cs digits places, d.literalChars = d.signed cs ∧ PointForm cs digits places ∧
      ofDecimal d.isNegative digits places = d := by
  by_cases hwhole : d.isWhole = true
  · refine ⟨_, _, _, ?_, pointForm_whole (d.units / 2 ^ 1074), ofDecimal_whole hfin hwhole⟩
    rw [literalChars, if_pos hwhole, Nat.pow_eq]
  · refine ⟨_, _, _, ?_, pointForm_positional (exponent_shortest_neg hfin hwhole),
      ofDecimal_shortest hfin hwhole⟩
    rw [literalChars, if_neg hwhole, chars_of_not_whole hfin hwhole]

end Timeslice.Double
