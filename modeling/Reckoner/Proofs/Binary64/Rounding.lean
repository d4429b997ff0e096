import Mathlib.Algebra.Ring.Nat
import Reckoner.Binary64.Rounding

/-! Rounding to the nearest, and the ranks of magnitudes. A rounded quotient is one of its
two neighbours, and a magnitude is the nearest to itself. -/
namespace Reckoner

/-! ## Rounding of quotients -/

theorem roundHalfEven_exact (n : Nat) {den : Nat} (hden : 0 < den) :
    roundHalfEven (n * den) den = n := by
  simp [roundHalfEven, hden]

/-- Rounding goes to one of the two neighbours. -/
theorem roundHalfEven_eq_or (num den : Nat) :
    roundHalfEven num den = num / den ∨ roundHalfEven num den = num / den + 1 := by
  unfold roundHalfEven
  dsimp only
  split
  · exact .inl rfl
  · split
    · exact .inr rfl
    · rcases Nat.mod_two_eq_zero_or_one (num / den) with h | h <;> rw [h] <;> simp

theorem le_roundHalfEven (num den : Nat) : num / den ≤ roundHalfEven num den := by
  rcases roundHalfEven_eq_or num den with h | h <;> omega

theorem roundHalfEven_le (num den : Nat) : roundHalfEven num den ≤ num / den + 1 := by
  rcases roundHalfEven_eq_or num den with h | h <;> omega

namespace Binary64

/-! ## Ranks -/

theorem nearestRank_zero (den : Nat) : nearestRank 0 den = 0 := by
  rw [nearestRank, Nat.zero_div, Nat.log2_zero, Nat.zero_sub, Nat.zero_shiftLeft, Nat.zero_add,
    Nat.shiftLeft_zero]
  rcases Nat.eq_zero_or_pos den with rfl | hden
  · rfl
  · simpa using roundHalfEven_exact 0 hden

theorem significand_eq (rank : Nat) : significand rank = rank - scale rank * 2 ^ 52 :=
  congrArg (rank - ·) (Nat.shiftLeft_eq ..)

/-- The significand has 53 bits, or the scale is zero. -/
theorem significand_bounds (rank : Nat) :
    scale rank * 2 ^ 52 + significand rank = rank ∧ significand rank < 2 ^ 53 ∧
      (scale rank ≠ 0 → 2 ^ 52 ≤ significand rank) := by
  have hscale : scale rank = rank / 2 ^ 52 - 1 := by
    rw [scale, Nat.shiftRight_eq_div_pow]
  rw [significand_eq, hscale]
  have hdiv := Nat.div_add_mod rank (2 ^ 52)
  have hmod := Nat.mod_lt rank (Nat.two_pow_pos 52)
  generalize rank / 2 ^ 52 = quotient at hdiv ⊢
  omega

theorem log2_units (rank : Nat) : (units rank).log2 - 52 = scale rank := by
  obtain ⟨-, hlt, hle⟩ := significand_bounds rank
  rw [units, Nat.shiftLeft_eq]
  by_cases hscale : scale rank = 0
  · rw [hscale, Nat.pow_zero, Nat.mul_one]
    by_cases hzero : significand rank = 0
    · simp [hzero]
    · have := (Nat.log2_lt hzero).mpr hlt
      omega
  · have hsignificand := hle hscale
    have hunits : significand rank * 2 ^ scale rank ≠ 0 :=
      Nat.mul_ne_zero (by omega) (Nat.ne_of_gt (Nat.two_pow_pos _))
    have hlower : 52 + scale rank ≤ (significand rank * 2 ^ scale rank).log2 := by
      rw [Nat.le_log2 hunits, Nat.pow_add]
      exact Nat.mul_le_mul_right _ hsignificand
    have hupper : (significand rank * 2 ^ scale rank).log2 < 53 + scale rank := by
      rw [Nat.log2_lt hunits, Nat.pow_add]
      exact Nat.mul_lt_mul_of_pos_right hlt (Nat.two_pow_pos _)
    omega

/-- A magnitude is the nearest to itself. -/
theorem nearestRank_units (rank : Nat) {den : Nat} (hden : 0 < den) :
    nearestRank (units rank * den) den = rank := by
  have hexact : units rank * den = significand rank * (den * 2 ^ scale rank) := by
    rw [units, Nat.shiftLeft_eq, Nat.mul_assoc, Nat.mul_comm den]
  have hpos : 0 < den * 2 ^ scale rank := Nat.mul_pos hden (Nat.two_pow_pos _)
  simp only [nearestRank, Nat.mul_div_cancel _ hden, log2_units, Nat.shiftLeft_eq]
  rw [hexact, roundHalfEven_exact _ hpos]
  exact (significand_bounds rank).1

/-- One is 2^1074 units. The exponent is a variable of its own, so that the power is
never computed. -/
theorem unitsPerOne_eq : ∃ k, k = 1074 ∧ unitsPerOne = 2 ^ k :=
  have hpow (k : Nat) : 1 <<< k = 2 ^ k := Nat.one_shiftLeft k
  ⟨1074, rfl, hpow 1074⟩

theorem rankLimit_eq : rankLimit = 2047 * 2 ^ 52 := by decide

theorem scale_le {rank : Nat} (h : rank < rankLimit) : scale rank ≤ 2045 := by
  have hrank := significand_bounds rank
  rw [rankLimit_eq] at h
  omega

end Binary64

end Reckoner
