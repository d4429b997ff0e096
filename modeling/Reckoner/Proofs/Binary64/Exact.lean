import Reckoner.Binary64.Arithmetic
import Reckoner.Proofs.Binary64.Format

/-! Finite numbers as exact values. A result that is a number of the format is not rounded.
The remainder always is one: it has the smaller of the two scales, and its significand is no
larger than that of the operand with this scale. -/
namespace Reckoner.Binary64

/-- The exact value of a finite number. -/
def toRat : Binary64 → ℚ
  | .finite negative rank => if negative then -magnitude rank else magnitude rank
  | .infinite _ | .nan => 0

/-- That many units, below zero for a negative number. -/
def signedUnits (negative : Bool) (n : Nat) : ℤ :=
  if negative then -n else n

variable {negative : Bool} {a b : Nat}

theorem toRat_finite (negative : Bool) (rank : Fin rankLimit) :
    toRat (.finite negative rank) = signedUnits negative (units rank) / unitsPerOne := by
  cases negative with
  | false => rfl
  | true =>
    show -magnitude rank = _
    rw [signedUnits, if_pos rfl, Int.cast_neg, neg_div]
    rfl

theorem abs_toRat (negative : Bool) (rank : Fin rankLimit) :
    |toRat (.finite negative rank)| = magnitude rank := by
  have hmagnitude := abs_of_nonneg (magnitude_nonneg rank)
  cases negative with
  | false => exact hmagnitude
  | true => exact (abs_neg _).trans hmagnitude

/-! ## Results that are not rounded -/

/-- A number of units that a finite rank has is rounded to this rank. -/
theorem round_units (negative : Bool) (rank : Fin rankLimit) :
    round negative (units rank) 1 = .finite negative rank := by
  have hrank : nearestRank (units rank) 1 = rank := by
    simpa using nearestRank_units rank Nat.one_pos
  rw [round, hrank, ofRank, dif_pos rank.isLt]

/-- What is left of a magnitude when another one has been taken away as often as fits is a
magnitude. -/
theorem exists_units_mod (ha : a < rankLimit) (hb : b < rankLimit) (hpos : b ≠ 0) :
    ∃ c < rankLimit, units c = units a % units b := by
  obtain ⟨-, halt, -⟩ := significand_bounds a
  obtain ⟨hrank, hblt, hnormal⟩ := significand_bounds b
  have hdivisor : 0 < significand b := by omega
  rw [units, units, Nat.shiftLeft_eq, Nat.shiftLeft_eq]
  rcases Nat.le_total (scale b) (scale a) with hle | hle
  · obtain ⟨k, hk⟩ := Nat.exists_eq_add_of_le hle
    have hmod : significand a * 2 ^ scale a % (significand b * 2 ^ scale b) =
        (significand a * 2 ^ k) % significand b * 2 ^ scale b := by
      rw [hk, Nat.add_comm, Nat.pow_add, ← Nat.mul_assoc, Nat.mul_mod_mul_right]
    rw [hmod]
    exact exists_units ((Nat.mod_lt _ hdivisor).trans hblt) (scale_le hb)
  · obtain ⟨k, hk⟩ := Nat.exists_eq_add_of_le hle
    have hmod : significand a * 2 ^ scale a % (significand b * 2 ^ scale b) =
        significand a % (significand b * 2 ^ k) * 2 ^ scale a := by
      rw [hk, Nat.add_comm, Nat.pow_add, ← Nat.mul_assoc, Nat.mul_mod_mul_right]
    rw [hmod]
    exact exists_units ((Nat.mod_le _ _).trans_lt halt) (scale_le ha)

/-- The remainder has the sign of the dividend and, in units, the remainder of the
magnitudes. -/
theorem exists_remainder (s t : Bool) (a b : Fin rankLimit) (hpos : b.val ≠ 0) :
    ∃ c : Fin rankLimit, remainder (.finite s a) (.finite t b) = .finite s c ∧
      units c = units a % units b := by
  obtain ⟨c, hc, hunits⟩ := exists_units_mod a.isLt b.isLt hpos
  refine ⟨⟨c, hc⟩, ?_, hunits⟩
  rw [remainder, if_neg hpos, ← hunits]
  exact round_units s ⟨c, hc⟩

end Reckoner.Binary64
