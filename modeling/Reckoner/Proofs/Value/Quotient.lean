import Mathlib.Data.Rat.Floor
import Reckoner.Proofs.Checked.Arithmetic
import Reckoner.Proofs.Value.Wrapping

/-! The quotient and the remainder of integers. The quotient is the exact one without its
fraction, but for the one quotient that does not fit. The two give the dividend back all the
same: they do so before wrapping, and the dividend is of the range. -/
namespace Reckoner

/-! ## The exact quotient -/

/-- The integer part: the fraction is cut off, toward zero. -/
def truncated (x : ℚ) : ℤ :=
  if 0 ≤ x then ⌊x⌋ else ⌈x⌉

theorem truncated_neg (x : ℚ) : truncated (-x) = -truncated x := by
  unfold truncated
  rcases lt_trichotomy x 0 with hneg | rfl | hpos
  · rw [if_pos (by linarith), if_neg (by linarith), Int.floor_neg]
  · simp
  · rw [if_neg (by linarith), if_pos hpos.le, Int.ceil_neg]

theorem truncated_div_nat (m n : Nat) :
    truncated (((m : Int) : ℚ) / ((n : Int) : ℚ)) = (m : Int).tdiv n := by
  have hnonneg : (0 : ℚ) ≤ (m : ℚ) / n := by positivity
  rw [Int.cast_natCast, Int.cast_natCast, truncated, if_pos hnonneg,
    Rat.floor_natCast_div_natCast, Int.tdiv_eq_ediv_of_nonneg (Int.natCast_nonneg m)]

/-- Division that truncates toward zero is the exact one without its fraction. -/
theorem truncated_div (a b : Int) : truncated ((a : ℚ) / b) = a.tdiv b := by
  obtain ⟨m, rfl | rfl⟩ := Int.eq_nat_or_neg a <;> obtain ⟨n, rfl | rfl⟩ := Int.eq_nat_or_neg b
  · exact truncated_div_nat m n
  · rw [Int.cast_neg, div_neg, truncated_neg, truncated_div_nat, Int.tdiv_neg]
  · rw [Int.cast_neg, neg_div, truncated_neg, truncated_div_nat, Int.neg_tdiv]
  · rw [Int.cast_neg, Int.cast_neg, neg_div_neg_eq, truncated_div_nat, Int.neg_tdiv_neg]

namespace Value

variable {a b : Int}

/-! ## Within the range -/

/-- Only the quotient of the smallest integer and minus one is too large. -/
theorem tdiv_inRange (ha : (int a).InRange) (h : ¬ (a = -(2 ^ 63) ∧ b = -1)) :
    (int (a.tdiv b)).InRange := by
  have hle : (a.tdiv b).natAbs ≤ a.natAbs := Int.natAbs_tdiv_le_natAbs a b
  rw [inRange_int] at ha ⊢
  rcases le_or_gt a 0 with hnonpos | hpos
  · rcases le_or_gt 0 b with hb | hb
    · have hquotient : 0 ≤ (-a).tdiv b := Int.tdiv_nonneg (by omega) hb
      rw [Int.neg_tdiv] at hquotient
      omega
    · -- A divisor of at least two in magnitude makes the quotient smaller than 2^63.
      by_cases hunit : b = -1
      · have hquotient : a.tdiv b = -a := by rw [hunit, Int.tdiv_neg, Int.tdiv_one]
        omega
      · have hmagnitude : (a.tdiv b).natAbs = a.natAbs / b.natAbs := Int.natAbs_tdiv a b
        have hhalf : a.natAbs / b.natAbs ≤ a.natAbs / 2 :=
          Nat.div_le_div_left (by omega) (by decide)
        omega
  · omega

/-- The quotient that does not fit wraps to its dividend. -/
theorem wrap_tdiv (ha : (int a).InRange) :
    wrap (a.tdiv b) =
      if a = -(2 ^ 63) ∧ b = -1 then -(2 ^ 63) else truncated ((a : ℚ) / b) := by
  split
  · next h =>
    rw [h.1, h.2]
    decide
  · next h => rw [wrap_of_inRange (tdiv_inRange ha h), truncated_div]

theorem divide_int (hb : b ≠ 0) :
    (int a).divide (.int b) = .ok (.int (wrap (a.tdiv b))) := by
  simp [divide, isZero, hb, combine]

theorem modulo_int (hb : b ≠ 0) : (int a).modulo (.int b) = .ok (.int (a.tmod b)) := by
  simp [modulo, isZero, hb]

theorem sign_tmod_of_ne_zero (h : a.tmod b ≠ 0) : (a.tmod b).sign = a.sign := by
  rw [Int.sign_tmod, if_neg (mt Int.tmod_eq_zero_of_dvd h)]

theorem abs_tmod_lt (hb : b ≠ 0) : |a.tmod b| < |b| := by
  rw [Int.abs_eq_natAbs, Int.abs_eq_natAbs, Int.natAbs_tmod]
  exact_mod_cast Nat.mod_lt _ (Int.natAbs_pos.mpr hb)

/-- The product of a wrapped quotient and the divisor, with the remainder added: all three
operations wrap, and so does their result as a whole. -/
theorem quotient_remainder_wrap (ha : (int a).InRange) (hb : (int b).InRange)
    (hremainder : (int (a.tmod b)).InRange) :
    ((int (wrap (a.tdiv b))).multiply (.int b)).add (.int (a.tmod b)) = .int a :=
  calc ((int (wrap (a.tdiv b))).multiply (.int b)).add (.int (a.tmod b))
      = ((int (wrap (a.tdiv b))).multiply (.int (wrap b))).add (.int (wrap (a.tmod b))) := by
        rw [wrap_of_inRange hb, wrap_of_inRange hremainder]
    _ = .int (wrap (a.tdiv b * b + a.tmod b)) := by rw [multiply_wrap, add_wrap]
    _ = .int a := by rw [Int.tdiv_mul_add_tmod, wrap_of_inRange ha]

/-- Two integers of the range, the second not zero, have a quotient and a remainder of the
range. The remainder is zero or has the sign of the dividend, and is less than the divisor
in magnitude. The quotient is the exact one truncated, but for -2^63 divided by -1, which
is -2^63. The quotient times the divisor plus the remainder is the dividend, always. Both
come from the magnitudes, with the signs put back. -/
theorem divide_modulo_law (ha : (int a).InRange) (hb : (int b).InRange) (hzero : b ≠ 0) :
    ∃ quotient remainder,
      (int a).divide (.int b) = .ok (.int quotient) ∧
      (int a).modulo (.int b) = .ok (.int remainder) ∧
      (int quotient).InRange ∧ (int remainder).InRange ∧
      (remainder = 0 ∨ remainder.sign = a.sign) ∧ |remainder| < |b| ∧
      quotient =
        (if a = -(2 ^ 63) ∧ b = -1 then -(2 ^ 63) else truncated ((a : ℚ) / b)) ∧
      ((int quotient).multiply (.int b)).add (.int remainder) = .int a ∧
      Checked.signedQuotient? a b = some quotient ∧
      Checked.signedRemainder? a b = some remainder := by
  have hremainder : (int (a.tmod b)).InRange := modulo_inRange ha (modulo_int hzero)
  have hsign : a.tmod b = 0 ∨ (a.tmod b).sign = a.sign :=
    or_iff_not_imp_left.mpr sign_tmod_of_ne_zero
  exact ⟨wrap (a.tdiv b), a.tmod b, divide_int hzero, modulo_int hzero, wrap_inRange _,
    hremainder, hsign, abs_tmod_lt hzero, wrap_tdiv ha,
    quotient_remainder_wrap ha hb hremainder, Checked.signedQuotient?_eq hzero,
    Checked.signedRemainder?_eq hzero⟩

/-- The one quotient that wraps: the remainder is zero and the law holds. -/
theorem divide_modulo_law_smallest :
    (int (-9223372036854775808)).divide (.int (-1)) = .ok (.int (-9223372036854775808)) ∧
      (int (-9223372036854775808)).modulo (.int (-1)) = .ok (.int 0) ∧
      ((int (-9223372036854775808)).multiply (.int (-1))).add (.int 0) =
        .int (-9223372036854775808) := by
  obtain ⟨quotient, remainder, hquotient, hremainder, -, -, -, hlt, hwrapped, hlaw, -⟩ :=
    divide_modulo_law (a := -9223372036854775808) (b := -1) (inRange_int.mpr (by decide))
      (inRange_int.mpr (by decide)) (by decide)
  have hzero : remainder = 0 := Int.abs_lt_one_iff.mp hlt
  rw [if_pos (by decide)] at hwrapped
  subst hzero hwrapped
  exact ⟨hquotient, hremainder, hlaw⟩

end Value

end Reckoner
