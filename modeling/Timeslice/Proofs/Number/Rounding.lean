import Mathlib.Tactic.Linarith
import Mathlib.Tactic.Ring
import Timeslice.Number.Shortest

/-!
# Rounding inside a basin

The basin of a magnitude holds exactly the ratios that a correct rounding must send to it. The main
statement is that `nearest` does so, at the ends of a binade and among the subnormals as well.
-/

namespace Timeslice.Double

theorem roundHalfEven_eq {num den m : Nat} (hden : 0 < den)
    (hlow : 2 * (m * den) ≤ 2 * num + den) (hhigh : 2 * num ≤ 2 * (m * den) + den)
    (hodd : m % 2 = 1 → 2 * (m * den) < 2 * num + den ∧ 2 * num < 2 * (m * den) + den) :
    roundHalfEven num den = m := by
  have hdiv : den * (num / den) + num % den = num := Nat.div_add_mod num den
  have hmod : num % den < den := Nat.mod_lt num hden
  unfold roundHalfEven
  generalize num / den = q at hdiv ⊢
  generalize num % den = r at hdiv hmod ⊢
  have hle : m ≤ q + 1 := by
    by_contra hlt
    have : (q + 2) * den ≤ m * den := Nat.mul_le_mul_right den (by omega)
    nlinarith
  have hge : q ≤ m := by
    by_contra hlt
    have : (m + 1) * den ≤ q * den := Nat.mul_le_mul_right den (by omega)
    nlinarith
  obtain rfl | rfl : m = q ∨ m = q + 1 := by omega
  · have hr : 2 * r ≤ den := by nlinarith
    have htie : m % 2 = 1 → 2 * r < den := fun h => by
      have := (hodd h).2
      nlinarith
    simp only
    split_ifs <;> omega
  · have hr : den ≤ 2 * r := by nlinarith
    have htie : (q + 1) % 2 = 1 → den < 2 * r := fun h => by
      have := (hodd h).1
      nlinarith
    simp only
    split_ifs <;> omega

theorem significand_add_scale (magnitude : Nat) :
    scale magnitude * 2 ^ 52 + significand magnitude = magnitude := by
  unfold significand scale
  have : magnitude / Nat.pow 2 52 * Nat.pow 2 52 ≤ magnitude := Nat.div_mul_le_self _ _
  simp only [Nat.pow_eq] at this ⊢
  omega

theorem significand_lt (magnitude : Nat) : significand magnitude < 2 ^ 53 := by
  unfold significand scale
  simp only [Nat.pow_eq]
  omega

theorem le_significand {magnitude : Nat} (h : 0 < scale magnitude) :
    2 ^ 52 ≤ significand magnitude := by
  unfold significand scale at *
  simp only [Nat.pow_eq] at *
  omega

/-- What the basin of `m * 2 ^ s` says of a ratio in whole units. -/
structure Near (m s num den : Nat) : Prop where
  low : 2 * (m * (den * 2 ^ s)) ≤ 2 * num + den * 2 ^ s
  high : 2 * num ≤ 2 * (m * (den * 2 ^ s)) + den * 2 ^ s
  odd : m % 2 = 1 → 2 * (m * (den * 2 ^ s)) < 2 * num + den * 2 ^ s ∧
    2 * num < 2 * (m * (den * 2 ^ s)) + den * 2 ^ s
  /-- Below the least significand of a binade the grid is twice as fine. -/
  least : m = 2 ^ 52 → 0 < s → 4 * (m * (den * 2 ^ s)) ≤ 4 * num + den * 2 ^ s

theorem near_of_holds {magnitude num den : Nat}
    (h : (basin magnitude).holds (4 * num) den = true) :
    Near (significand magnitude) (scale magnitude) num den := by
  unfold basin unitsOf Basin.holds at h
  generalize significand magnitude = m at h ⊢
  generalize scale magnitude = s at h ⊢
  simp only [Nat.pow_eq, beq_iff_eq, Nat.sub_mul, Nat.add_mul] at h
  have hvalue : 4 * (m * 2 ^ s) * den = 4 * (m * (den * 2 ^ s)) := by ring
  have hstep : 2 * 2 ^ s * den = 2 * (den * 2 ^ s) := by ring
  by_cases hleast : m = 2 ^ 52 ∧ 0 < s
  · have hhalf : 2 ^ s * den = den * 2 ^ s := by ring
    have heven : m % 2 = 0 := by omega
    simp only [if_pos hleast, if_pos heven, hvalue, hstep, hhalf, Bool.and_eq_true,
      decide_eq_true_eq] at h
    constructor <;> omega
  · simp only [if_neg hleast, hvalue, hstep] at h
    have hfine : m = 2 ^ 52 → ¬ 0 < s := fun hm hs => hleast ⟨hm, hs⟩
    split_ifs at h with heven
    · simp only [Bool.and_eq_true, decide_eq_true_eq] at h
      constructor <;> omega
    · simp only [Bool.and_eq_true, decide_eq_true_eq] at h
      constructor <;> omega

theorem log2_div_eq {num den k : Nat} (hden : 0 < den) (hlow : 2 ^ k * den ≤ num)
    (hhigh : num < 2 ^ (k + 1) * den) : (num / den).log2 = k := by
  have hle : 2 ^ k ≤ num / den := (Nat.le_div_iff_mul_le hden).mpr hlow
  have hlt : num / den < 2 ^ (k + 1) := (Nat.div_lt_iff_lt_mul hden).mpr hhigh
  have hne : num / den ≠ 0 := by
    have := Nat.two_pow_pos k
    omega
  exact Nat.le_antisymm (Nat.lt_succ_iff.mp ((Nat.log2_lt hne).mpr hlt))
    ((Nat.le_log2 hne).mpr hle)

theorem round_of_near {m s num den : Nat} (hden : 0 < den) (h : Near m s num den) :
    roundHalfEven num (den * 2 ^ s) = m :=
  roundHalfEven_eq (Nat.mul_pos hden (Nat.two_pow_pos s)) h.low h.high h.odd

section Shift

variable {m s num den : Nat}

theorem Near.lt (hden : 0 < den) (h : Near m s num den) (hm : m < 2 ^ 53) :
    num < 2 ^ (52 + s + 1) * den := by
  have hpos : 0 < den * 2 ^ s := Nat.mul_pos hden (Nat.two_pow_pos s)
  have hhigh := h.high
  have hbinade : 2 ^ (52 + s + 1) * den = 2 ^ 53 * (den * 2 ^ s) := by
    rw [Nat.pow_add, Nat.pow_add]
    ring
  rw [hbinade]
  have hnext : (m + 1) * (den * 2 ^ s) ≤ 2 ^ 53 * (den * 2 ^ s) := Nat.mul_le_mul_right _ hm
  rw [Nat.add_mul] at hnext
  omega

theorem log2_le_of_lt (hden : 0 < den) (hlt : num < 2 ^ 52 * den) : (num / den).log2 ≤ 52 := by
  by_contra hlog
  have hne : num / den ≠ 0 := by
    intro h0
    rw [h0] at hlog
    exact hlog (by decide)
  have hle := (Nat.le_div_iff_mul_le hden).mp ((Nat.le_log2 hne).mp (Nat.le_of_not_le hlog))
  omega

/-- Only the least significand of a binade has a ratio of the binade below in its basin. The quotient
then calls for one shift less, at which the ratio rounds to the top of that binade. -/
theorem Near.below (hden : 0 < den) {r : Nat} (h : Near m (r + 1) num den) (hm : 2 ^ 52 ≤ m)
    (hlow : num < 2 ^ (52 + (r + 1)) * den) :
    m = 2 ^ 52 ∧ (num / den).log2 = 52 + r ∧ roundHalfEven num (den * 2 ^ r) = 2 ^ 53 := by
  have hstep : den * 2 ^ (r + 1) = 2 * (den * 2 ^ r) := by ring
  have hgap : 2 ^ (52 + (r + 1)) * den = 2 ^ 52 * (2 * (den * 2 ^ r)) := by
    rw [← hstep]
    ring
  have hpos : 0 < den * 2 ^ r := Nat.mul_pos hden (Nat.two_pow_pos r)
  have hleast := h.least
  have hlow' := h.low
  rw [hstep] at hleast hlow'
  rw [hgap] at hlow
  have hm52 : m = 2 ^ 52 := by
    by_contra hne
    have hnext : (2 ^ 52 + 1) * (2 * (den * 2 ^ r)) ≤ m * (2 * (den * 2 ^ r)) :=
      Nat.mul_le_mul_right _ (by omega)
    omega
  subst hm52
  have hleast := hleast rfl r.succ_pos
  refine ⟨rfl, ?_, ?_⟩
  · apply log2_div_eq hden
    · rw [show 2 ^ (52 + r) * den = 2 ^ 52 * (den * 2 ^ r) by ring]
      omega
    · rw [show 2 ^ (52 + r + 1) * den = 2 ^ 52 * (2 * (den * 2 ^ r)) by ring]
      omega
  · apply roundHalfEven_eq hpos
    · omega
    · omega
    · intro h53
      omega

theorem shift_of_near (hden : 0 < den) (hm : m < 2 ^ 53) (hs : 0 < s → 2 ^ 52 ≤ m)
    (h : Near m s num den) :
    ((num / den).log2 - 52) * 2 ^ 52 +
      roundHalfEven num (den * 2 ^ ((num / den).log2 - 52)) = s * 2 ^ 52 + m := by
  have hround := round_of_near hden h
  by_cases hlow : 2 ^ (52 + s) * den ≤ num
  · rw [log2_div_eq hden hlow (h.lt hden hm), Nat.add_sub_cancel_left, hround]
  · cases s with
    | zero => rw [Nat.sub_eq_zero_of_le (log2_le_of_lt hden (Nat.lt_of_not_le hlow)), hround]
    | succ r =>
      obtain ⟨rfl, hlog, htop⟩ := h.below hden (hs r.succ_pos) (Nat.lt_of_not_le hlow)
      rw [hlog, Nat.add_sub_cancel_left, htop]
      ring

end Shift

theorem nearest_eq_of_holds {magnitude num den : Nat} (hfin : magnitude < infinite)
    (hden : 0 < den) (h : (basin magnitude).holds (4 * (num * 2 ^ 1074)) den = true) :
    nearest num den = magnitude := by
  have hshift := shift_of_near hden (significand_lt magnitude) le_significand (near_of_holds h)
  rw [significand_add_scale] at hshift
  unfold nearest
  simp only [Nat.pow_eq, hshift]
  exact Nat.min_eq_right hfin.le

end Timeslice.Double
