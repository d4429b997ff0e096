import Reckoner.Proofs.Binary64.Format
import Reckoner.Proofs.Decimal.Digits

/-! Decimals as binary64 numbers. A decimal of any length is converted with one rounding of
its exact value: to the nearest number of the format, and to infinity from the midpoint
above the largest one on. -/
namespace Reckoner.Decimal

open Binary64 (IsNearest RoundsTo rankLimit unitsPerOne)

/-- The exact value. -/
def toRat (d : Decimal) : ℚ :=
  d.coefficient * 10 ^ d.exponent

theorem toRat_nonneg (d : Decimal) : 0 ≤ d.toRat :=
  mul_nonneg (Nat.cast_nonneg _) (zpow_nonneg (by norm_num) _)

/-- The exact value is what is rounded. -/
theorem rank_roundsTo (d : Decimal) : RoundsTo d.toRat d.rank := by
  refine Binary64.nearestRank_roundsTo (Nat.pow_pos (by decide)) ?_
  have hexponent : (d.exponent.toNat : ℤ) = d.exponent + (-d.exponent).toNat := by omega
  have hpow : (10 : ℚ) ^ d.exponent.toNat = 10 ^ d.exponent * 10 ^ (-d.exponent).toNat := by
    rw [← zpow_natCast, hexponent, zpow_add₀ (by norm_num), zpow_natCast]
  rw [toRat, Nat.pow_eq, Nat.pow_eq]
  push_cast
  rw [hpow]
  ring

/-- The number is finite below the midpoint above the largest one. -/
theorem isFinite_toBinary64_iff (d : Decimal) :
    d.toBinary64.isFinite = true ↔ d.toRat < 2 ^ 1024 - 2 ^ 970 := by
  rw [← d.rank_roundsTo.lt_rankLimit_iff, toBinary64, Binary64.ofRank]
  split
  · next hrank => exact iff_of_true rfl hrank
  · next hrank => exact iff_of_false nofun hrank

/-- There it is the nearest number of the format, the only one that is, and zero only for
half of the smallest number and less. -/
theorem exists_toBinary64 {d : Decimal} (h : d.toRat < 2 ^ 1024 - 2 ^ 970) :
    ∃ rank : Fin rankLimit, d.toBinary64 = .finite false rank ∧
      (∀ other : Fin rankLimit, IsNearest d.toRat other ↔ other = rank) ∧
      (rank.val = 0 ↔ d.toRat ≤ 2 ^ (-1075 : ℤ)) := by
  have hrounds := d.rank_roundsTo
  have hrank := hrounds.lt_rankLimit_iff.mpr h
  refine ⟨⟨d.rank, hrank⟩, dif_pos hrank, fun other => ?_, hrounds.eq_zero_iff⟩
  rw [Binary64.isNearest_iff hrounds d.toRat_nonneg hrank other.isLt, Fin.ext_iff]

/-- The value of digits around a point. -/
theorem toRat_point (whole fraction : List Nat) :
    toRat ⟨ofDigits (whole ++ fraction), -fraction.length⟩ =
      ofDigits whole + ofDigits fraction / 10 ^ fraction.length := by
  rw [toRat, ofDigits_append, zpow_neg, zpow_natCast]
  push_cast
  field_simp

end Reckoner.Decimal
