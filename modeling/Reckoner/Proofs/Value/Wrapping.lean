import Mathlib.Data.Int.ModEq
import Reckoner.Proofs.Value.Range

/-! Wrapped arithmetic as arithmetic modulo 2^64. Wrapping picks one integer of each
class of congruent ones, so an operation that respects the classes may be given its
operands before or after they are wrapped. -/
namespace Reckoner

theorem wrap_modEq (n : Int) : wrap n ≡ n [ZMOD wrapModulus] :=
  Int.bmod_emod

/-- Congruent integers wrap to the same one. -/
theorem wrap_congr {m n : Int} (h : m ≡ n [ZMOD wrapModulus]) : wrap m = wrap n := by
  rw [wrap, wrap, ← Int.emod_bmod, h.eq, Int.emod_bmod]

namespace Value

/-! ## Powers by squaring -/

theorem powerMod_zero (base : Nat) : powerMod base 0 = 1 := by
  rw [powerMod, if_pos rfl]

theorem powerMod_of_pos (base : Nat) {exponent : Nat} (h : 0 < exponent) :
    powerMod base exponent =
      if exponent % 2 = 1 then
        powerMod base (exponent / 2) * powerMod base (exponent / 2) % wrapModulus * base %
          wrapModulus
      else powerMod base (exponent / 2) * powerMod base (exponent / 2) % wrapModulus := by
  rw [powerMod, if_neg (by omega)]

theorem powerMod_modEq (base exponent : Nat) :
    powerMod base exponent ≡ base ^ exponent [MOD wrapModulus] := by
  induction exponent using Nat.strong_induction_on with
  | h exponent ih =>
    rcases Nat.eq_zero_or_pos exponent with rfl | hpos
    · rw [powerMod_zero, Nat.pow_zero]
    · have hhalf := ih (exponent / 2) (by omega)
      have hsquare :
          powerMod base (exponent / 2) * powerMod base (exponent / 2) % wrapModulus ≡
            base ^ (2 * (exponent / 2)) [MOD wrapModulus] := by
        rw [two_mul, Nat.pow_add]
        exact (Nat.mod_modEq _ _).trans (hhalf.mul hhalf)
      rw [powerMod_of_pos base hpos]
      split
      · next hodd =>
        have hexponent : exponent = 2 * (exponent / 2) + 1 := by omega
        conv_rhs => rw [hexponent, Nat.pow_succ]
        exact (Nat.mod_modEq _ _).trans (hsquare.mul_right base)
      · next heven =>
        have hexponent : exponent = 2 * (exponent / 2) := by omega
        conv_rhs => rw [hexponent]
        exact hsquare

/-- The base may be taken modulo 2^64 first, which also makes it a natural number. -/
theorem intPower_eq_wrap (base : Int) (exponent : Nat) :
    intPower base exponent = wrap (base ^ exponent) := by
  have hbase : ((base % wrapModulus).toNat : Int) = base % wrapModulus :=
    Int.toNat_of_nonneg (Int.emod_nonneg _ (by decide))
  have hpower : (powerMod (base % wrapModulus).toNat exponent : Int) ≡
      (base % wrapModulus) ^ exponent [ZMOD wrapModulus] := by
    have hnat := Int.natCast_modEq_iff.mpr (powerMod_modEq (base % wrapModulus).toNat exponent)
    rwa [Int.natCast_pow, hbase] at hnat
  exact wrap_congr (hpower.trans ((Int.mod_modEq base _).pow exponent))

/-! ## Operations on wrapped integers -/

/-- An operation that respects the classes may be given wrapped operands. -/
theorem combine_wrap {onInts : Int → Int → Int} (onFloats : Binary64 → Binary64 → Binary64)
    {m n : Int} (h : onInts (wrap m) (wrap n) ≡ onInts m n [ZMOD wrapModulus]) :
    combine onInts onFloats (.int (wrap m)) (.int (wrap n)) = .int (wrap (onInts m n)) :=
  congrArg Value.int (wrap_congr h)

theorem add_wrap (m n : Int) :
    (int (wrap m)).add (.int (wrap n)) = .int (wrap (m + n)) :=
  combine_wrap _ ((wrap_modEq m).add (wrap_modEq n))

theorem subtract_wrap (m n : Int) :
    (int (wrap m)).subtract (.int (wrap n)) = .int (wrap (m - n)) :=
  combine_wrap _ ((wrap_modEq m).sub (wrap_modEq n))

theorem multiply_wrap (m n : Int) :
    (int (wrap m)).multiply (.int (wrap n)) = .int (wrap (m * n)) :=
  combine_wrap _ ((wrap_modEq m).mul (wrap_modEq n))

theorem negate_wrap (n : Int) : (int (wrap n)).negate = .int (wrap (-n)) :=
  congrArg Value.int (wrap_congr (wrap_modEq n).neg)

theorem power_wrap (m : Int) {exponent : Int} (h : 0 ≤ exponent) :
    (int (wrap m)).power (.int exponent) = .ok (.int (wrap (m ^ exponent.toNat))) := by
  rw [power, if_pos h, intPower_eq_wrap, wrap_congr ((wrap_modEq m).pow exponent.toNat)]

end Value

end Reckoner
