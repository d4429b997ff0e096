import Reckoner.Proofs.Value.Wrapping

/-! Integer powers as repeated products. Squaring works on residues without a sign, while
repeated products wrap to the signed range after each factor. Both give the exact power,
wrapped once, whatever the base and the exponent. -/
namespace Reckoner

/-- Wrapping moves the range up to start at zero, takes the remainder there and moves it
back. -/
theorem wrap_eq_shifted (n : Int) : wrap n = (n + 2 ^ 63) % 2 ^ 64 - 2 ^ 63 := by
  have hmodulus : (wrapModulus : Int) = 18446744073709551616 := by decide
  rw [wrap, Int.bmod_def, hmodulus]
  split <;> omega

namespace Value

/-- One, multiplied by the base as often as the count says. -/
def repeatedProduct (base : Value) : (count : Nat) → Value
  | 0 => .int 1
  | count + 1 => (repeatedProduct base count).multiply base

/-- The product of a wrapped integer and one of any size. -/
theorem wrap_multiply (m n : Int) : (int (wrap m)).multiply (.int n) = .int (wrap (m * n)) :=
  congrArg Value.int (wrap_congr ((wrap_modEq m).mul_right n))

theorem repeatedProduct_int (base : Int) (count : Nat) :
    repeatedProduct (.int base) count = .int (wrap (base ^ count)) := by
  induction count with
  | zero =>
    have hone : wrap 1 = 1 := by decide
    rw [pow_zero, hone, repeatedProduct]
  | succ count ih => rw [repeatedProduct, ih, wrap_multiply, pow_succ]

theorem power_natCast (base : Int) (exponent : Nat) :
    (int base).power (.int exponent) = .ok (.int (wrap (base ^ exponent))) := by
  rw [power, if_pos (Int.natCast_nonneg exponent), Int.toNat_natCast, intPower_eq_wrap]

/-- The power of an integer with a natural exponent is the repeated product, which is the
exact power, wrapped. The exponents of two powers add up in their product. -/
theorem power_eq_repeatedProduct (base : Int) (n : Nat) :
    (int base).power (.int n) = .ok (repeatedProduct (.int base) n) ∧
      repeatedProduct (.int base) n = .int ((base ^ n + 2 ^ 63) % 2 ^ 64 - 2 ^ 63) ∧
      ∀ m : Nat, ∃ x y, (int base).power (.int m) = .ok x ∧ (int base).power (.int n) = .ok y ∧
        (int base).power (.int (m + n)) = .ok (x.multiply y) := by
  refine ⟨?_, ?_, fun m => ⟨_, _, power_natCast base m, power_natCast base n, ?_⟩⟩
  · rw [power_natCast, repeatedProduct_int]
  · rw [repeatedProduct_int, wrap_eq_shifted]
  · rw [multiply_wrap, ← pow_add, ← power_natCast, Int.natCast_add]

/-- Zero to the power zero is one. -/
example : (int 0).power (.int 0) = .ok (.int 1) := by decide +kernel

end Value

end Reckoner
