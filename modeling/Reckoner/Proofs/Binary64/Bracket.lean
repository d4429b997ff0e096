import Mathlib.Algebra.Order.Field.Power
import Mathlib.Data.Nat.Sqrt
import Mathlib.Data.Real.Basic
import Mathlib.Tactic.Positivity
import Mathlib.Tactic.Ring
import Reckoner.Binary64.Bracket

/-! Brackets hold the numbers that they stand for. An operation on ends is rounded away from
the number, so brackets of the operands give one of the result, through all the roots and
products that a power takes. The lower end stays above zero, so that there is an inverse. -/
namespace Reckoner.Binary64

/-- The digits are those of the square root, rounded down. -/
theorem integerSqrt_eq (n : Nat) : integerSqrt n = Nat.sqrt n := by
  induction n using Nat.strong_induction_on with
  | _ n ih =>
    rw [integerSqrt]
    by_cases hzero : n = 0
    · rw [if_pos hzero, hzero, Nat.sqrt_zero]
    have hlow := Nat.sqrt_le (n / 4)
    have hhigh := Nat.lt_succ_sqrt (n / 4)
    rw [if_neg hzero, ih (n / 4) (by omega)]
    generalize Nat.sqrt (n / 4) = root at hlow hhigh ⊢
    dsimp only
    rw [Nat.eq_sqrt]
    -- Four times the quarter is at most three below the number.
    have hsquare : 2 * root * (2 * root) = 4 * (root * root) := by ring
    have hnext : (2 * root + 1 + 1) * (2 * root + 1 + 1) = 4 * (root.succ * root.succ) := by
      rw [Nat.succ_eq_add_one]
      ring
    split
    · next hle => exact ⟨hle, by omega⟩
    · next hlt => exact ⟨by omega, by omega⟩

/-! ## Ends -/

namespace Endpoint

/-- The number that the fraction is. -/
noncomputable def toReal (x : Endpoint) : ℝ :=
  x.coefficient * 2 ^ x.exponent

variable {precision : Nat} {x : Endpoint} {p : ℝ}

theorem toReal_nonneg (x : Endpoint) : 0 ≤ x.toReal :=
  mul_nonneg (Nat.cast_nonneg _) (zpow_nonneg zero_le_two _)

theorem toReal_pos (h : 0 < x.coefficient) : 0 < x.toReal :=
  mul_pos (Nat.cast_pos.mpr h) (zpow_pos two_pos _)

theorem toReal_one : one.toReal = 1 := by
  rw [one, toReal, Nat.cast_one, zpow_zero, mul_one]

theorem toReal_multiply (x y : Endpoint) : (x.multiply y).toReal = x.toReal * y.toReal := by
  rw [multiply, toReal, Nat.cast_mul, zpow_add₀ two_ne_zero, toReal, toReal]
  ring

theorem toReal_mono {m n : Nat} (exponent : Int) (h : m ≤ n) :
    toReal ⟨m, exponent⟩ ≤ toReal ⟨n, exponent⟩ :=
  mul_le_mul_of_nonneg_right (Nat.cast_le.mpr h) (zpow_nonneg zero_le_two _)

/-- Powers of two go from the exponent to the coefficient. -/
theorem toReal_shift (coefficient k : Nat) (exponent : Int) :
    toReal ⟨coefficient, exponent + k⟩ = toReal ⟨coefficient * 2 ^ k, exponent⟩ := by
  rw [toReal, toReal, zpow_add₀ two_ne_zero, zpow_natCast, Nat.cast_mul, Nat.cast_pow,
    Nat.cast_ofNat]
  ring

theorem toReal_two_pow (k : Nat) : toReal ⟨2 ^ k, -k⟩ = 1 := by
  rw [← Nat.one_mul (2 ^ k), ← toReal_shift, Int.add_left_neg]
  exact toReal_one

/-- The square has twice the exponent. -/
theorem toReal_sq (root : Nat) {exponent : Int} (heven : exponent % 2 = 0) :
    toReal ⟨root, exponent / 2⟩ ^ 2 = toReal ⟨root * root, exponent⟩ := by
  have hhalf : exponent / 2 + exponent / 2 = exponent := by omega
  rw [sq, ← toReal_multiply, multiply, hhalf]

/-! ### Rounding to the precision -/

theorem roundDown_le (precision : Nat) (x : Endpoint) :
    (x.roundDown precision).toReal ≤ x.toReal := by
  rw [roundDown, toReal_shift, Nat.shiftRight_eq_div_pow]
  exact toReal_mono _ (Nat.div_mul_le_self ..)

theorem le_roundUp (precision : Nat) (x : Endpoint) :
    x.toReal ≤ (x.roundUp precision).toReal := by
  have hpos := Nat.two_pow_pos (x.excess precision)
  rw [roundUp, toReal_shift, Nat.shiftRight_eq_div_pow, Nat.one_shiftLeft]
  refine toReal_mono _ ?_
  have hlt := Nat.lt_div_mul_add (a := x.coefficient + (2 ^ x.excess precision - 1)) hpos
  omega

/-- The leading digit is kept. -/
theorem roundDown_pos (hprecision : 0 < precision) (h : 0 < x.coefficient) :
    0 < (x.roundDown precision).coefficient := by
  have hlead := Nat.log2_self_le h.ne'
  have hexcess : x.excess precision ≤ x.coefficient.log2 := by
    rw [excess]
    omega
  rw [roundDown, Nat.shiftRight_eq_div_pow]
  exact Nat.div_pos ((Nat.pow_le_pow_right two_pos hexcess).trans hlead) (Nat.two_pow_pos _)

/-! ### Square roots -/

/-- The spread fraction has the same value, and half of its exponent is an integer. -/
theorem spread_spec (precision : Nat) (x : Endpoint) :
    (x.spread precision).toReal = x.toReal ∧ (x.spread precision).exponent % 2 = 0 := by
  rw [spread]
  constructor
  · rw [Nat.shiftLeft_eq, ← toReal_shift, Int.sub_add_cancel]
  · show (x.exponent - (_ + _ : Nat)) % 2 = 0
    omega

theorem sqrtDown_le (hp : 0 ≤ p) (h : x.toReal ≤ p ^ 2) : (x.sqrtDown precision).toReal ≤ p := by
  obtain ⟨hvalue, heven⟩ := x.spread_spec precision
  rw [sqrtDown, integerSqrt_eq]
  refine (roundDown_le ..).trans (le_of_sq_le_sq ?_ hp)
  rw [toReal_sq _ heven]
  exact (toReal_mono _ (Nat.sqrt_le _)).trans (hvalue.trans_le h)

theorem le_sqrtUp (h : p ^ 2 ≤ x.toReal) : p ≤ (x.sqrtUp precision).toReal := by
  obtain ⟨hvalue, heven⟩ := x.spread_spec precision
  rw [sqrtUp, integerSqrt_eq]
  refine le_trans (le_of_sq_le_sq ?_ (toReal_nonneg _)) (le_roundUp ..)
  rw [toReal_sq _ heven]
  refine (h.trans_eq hvalue.symm).trans (toReal_mono _ ?_)
  split
  · next hexact => exact hexact.ge
  · exact (Nat.lt_succ_sqrt _).le

theorem sqrtDown_pos (hprecision : 0 < precision) (h : 0 < x.coefficient) :
    0 < (x.sqrtDown precision).coefficient := by
  rw [sqrtDown, integerSqrt_eq]
  refine roundDown_pos hprecision (Nat.sqrt_pos.mpr ?_)
  rw [spread, Nat.shiftLeft_eq]
  exact Nat.mul_pos h (Nat.two_pow_pos _)

/-! ### Inverses -/

/-- A quotient of the power of two by the coefficient, times the fraction. -/
theorem quotient_mul (precision quotient : Nat) (x : Endpoint) :
    toReal ⟨quotient, -(2 * precision : Int) - x.exponent⟩ * x.toReal =
      toReal ⟨quotient * x.coefficient, -(2 * precision : Nat)⟩ := by
  rw [← toReal_multiply, multiply, Int.sub_add_cancel, Nat.cast_mul, Nat.cast_ofNat]

theorem inverseDown_le (h : 0 < x.coefficient) :
    (x.inverseDown precision).toReal ≤ x.toReal⁻¹ := by
  rw [← one_div, le_div_iff₀ (toReal_pos h), inverseDown, quotient_mul, Nat.one_shiftLeft,
    ← toReal_two_pow (2 * precision)]
  exact toReal_mono _ (Nat.div_mul_le_self ..)

theorem le_inverseUp (h : 0 < x.coefficient) :
    x.toReal⁻¹ ≤ (x.inverseUp precision).toReal := by
  rw [← one_div, div_le_iff₀ (toReal_pos h), inverseUp, quotient_mul, Nat.one_shiftLeft,
    ← toReal_two_pow (2 * precision)]
  have hlt := Nat.lt_div_mul_add (a := 2 ^ (2 * precision) + (x.coefficient - 1)) h
  exact toReal_mono _ (by omega)

end Endpoint

/-! ## Brackets -/

namespace Bracket

/-- The number is between the ends, which are above zero. -/
structure Encloses (x : Bracket) (p : ℝ) : Prop where
  positive : 0 < x.lower.coefficient
  lower : x.lower.toReal ≤ p
  upper : p ≤ x.upper.toReal

namespace Encloses

variable {precision : Nat} {x y : Bracket} {p q : ℝ}

theorem pos (h : x.Encloses p) : 0 < p :=
  (Endpoint.toReal_pos h.positive).trans_le h.lower

protected theorem one : one.Encloses 1 :=
  ⟨Nat.one_pos, Endpoint.toReal_one.le, Endpoint.toReal_one.ge⟩

protected theorem point {e : Endpoint} (h : 0 < e.coefficient) : (point e).Encloses e.toReal :=
  ⟨h, le_rfl, le_rfl⟩

protected theorem multiply (hprecision : 0 < precision) (hx : x.Encloses p) (hy : y.Encloses q) :
    (x.multiply precision y).Encloses (p * q) where
  positive := Endpoint.roundDown_pos hprecision (Nat.mul_pos hx.positive hy.positive)
  lower := by
    refine (Endpoint.roundDown_le ..).trans ?_
    rw [Endpoint.toReal_multiply]
    exact mul_le_mul hx.lower hy.lower (Endpoint.toReal_nonneg _) hx.pos.le
  upper := by
    refine le_trans ?_ (Endpoint.le_roundUp ..)
    rw [Endpoint.toReal_multiply]
    exact mul_le_mul hx.upper hy.upper hy.pos.le (Endpoint.toReal_nonneg _)

protected theorem sqrt (hprecision : 0 < precision) (hp : 0 ≤ p) (h : x.Encloses (p ^ 2)) :
    (x.sqrt precision).Encloses p :=
  ⟨Endpoint.sqrtDown_pos hprecision h.positive, Endpoint.sqrtDown_le hp h.lower,
    Endpoint.le_sqrtUp h.upper⟩

protected theorem repeatedSqrt (hprecision : 0 < precision) (hp : 0 ≤ p) {times : Nat}
    (h : x.Encloses (p ^ 2 ^ times)) : (x.repeatedSqrt precision times).Encloses p := by
  induction times generalizing x with
  | zero => rwa [pow_zero, pow_one] at h
  | succ times ih =>
    rw [pow_succ, pow_mul] at h
    exact ih (h.sqrt hprecision (pow_nonneg hp _))

protected theorem power (hprecision : 0 < precision) (h : x.Encloses p) (n : Nat) :
    (x.power precision n).Encloses (p ^ n) := by
  induction n using Nat.strong_induction_on with
  | _ n ih =>
    rw [Bracket.power]
    by_cases hzero : n = 0
    · rw [if_pos hzero, hzero, pow_zero]
      exact .one
    rw [if_neg hzero]
    have hsquare := (ih (n / 2) (by omega)).multiply hprecision (ih (n / 2) (by omega))
    rw [← pow_add, ← two_mul] at hsquare
    dsimp only
    split
    · next hodd =>
      have hn : 2 * (n / 2) + 1 = n := by omega
      have hproduct := hsquare.multiply hprecision h
      rwa [← pow_succ, hn] at hproduct
    · next heven =>
      have hn : 2 * (n / 2) = n := by omega
      rwa [hn] at hsquare

/-- The inverse of the number is between the inverted ends. -/
theorem inverse (h : x.Encloses p) :
    (x.inverse precision).lower.toReal ≤ p⁻¹ ∧ p⁻¹ ≤ (x.inverse precision).upper.toReal := by
  have hupper : 0 < x.upper.coefficient := by
    have hpos := h.pos.trans_le h.upper
    by_contra hzero
    rw [Endpoint.toReal, Nat.eq_zero_of_not_pos hzero, Nat.cast_zero, zero_mul] at hpos
    exact hpos.false
  exact ⟨(Endpoint.inverseDown_le hupper).trans (inv_anti₀ h.pos h.upper),
    (inv_anti₀ (Endpoint.toReal_pos h.positive) h.lower).trans (Endpoint.le_inverseUp h.positive)⟩

end Encloses

end Bracket

end Reckoner.Binary64
