import Reckoner.Proofs.Binary64.Bracket
import Reckoner.Proofs.Binary64.Format

/-! Ranks of real numbers. Rounding is monotone, so a bracket whose ends have one rank in
common gives the rank of every number in it. All numbers from the midpoint above the largest
finite one on count alike: they have the rank behind the last. -/
namespace Reckoner.Binary64

/-- Halfway between the magnitude of this rank and the next one. -/
def midpoint (rank : Nat) : ℚ :=
  (magnitude rank + magnitude (rank + 1)) / 2

/-- The number is rounded to this rank or a lower one: it is below the midpoint with the next
rank, or there and this rank is even. -/
def RoundsAtMost (p : ℝ) (rank : Nat) : Prop :=
  p < midpoint rank ∨ p = midpoint rank ∧ rank % 2 = 0

/-- The rank that the number is rounded to. That of an overflow is the first one beyond the
finite ranks. -/
structure HasRank (p : ℝ) (n : Nat) : Prop where
  le_rankLimit : n ≤ rankLimit
  le_iff : ∀ rank < rankLimit, (n ≤ rank ↔ RoundsAtMost p rank)

variable {p p' : ℝ} {n rank : Nat}

/-! ## Midpoints -/

theorem unitsPerOne_real_pos : (0 : ℝ) < unitsPerOne :=
  Nat.cast_pos.mpr (Nat.cast_pos.mp unitsPerOne_pos)

/-- A midpoint in half units. -/
theorem midpoint_eq (rank : Nat) :
    (midpoint rank : ℝ) = (units rank + units (rank + 1) : ℕ) / (2 * unitsPerOne) := by
  rw [midpoint, magnitude, magnitude, ← add_div, div_div, mul_comm]
  push_cast
  rfl

theorem midpoint_strictMono : StrictMono midpoint := fun _ _ hless =>
  div_lt_div_of_pos_right (add_lt_add (magnitude_strictMono hless)
    (magnitude_strictMono (Nat.succ_lt_succ hless))) two_pos

theorem midpoint_zero : midpoint 0 = 2 ^ (-1075 : ℤ) := by
  rw [midpoint, zero_add, magnitude_zero, zero_add, magnitude_one,
    mul_div_cancel_left₀ _ two_ne_zero]

theorem midpoint_last : midpoint (rankLimit - 1) = 2 ^ 1024 - 2 ^ 970 := by
  have hsucc : rankLimit - 1 + 1 = rankLimit := by decide
  rw [midpoint, hsucc, magnitude_last, mul_div_cancel_left₀ _ two_ne_zero]

/-! ## Rounding is monotone -/

theorem RoundsAtMost.of_le (h : RoundsAtMost p rank) (hle : p' ≤ p) : RoundsAtMost p' rank := by
  rcases hle.lt_or_eq with hless | rfl
  · rcases h with hlow | ⟨heq, -⟩
    · exact .inl (hless.trans hlow)
    · exact .inl (hless.trans_eq heq)
  · exact h

theorem RoundsAtMost.mono {other : Nat} (h : RoundsAtMost p rank) (hle : rank ≤ other) :
    RoundsAtMost p other := by
  rcases hle.lt_or_eq with hless | rfl
  · have hmid : (midpoint rank : ℝ) < midpoint other := Rat.cast_lt.mpr (midpoint_strictMono hless)
    rcases h with hlow | ⟨heq, -⟩
    · exact .inl (hlow.trans hmid)
    · exact .inl (heq.trans_lt hmid)
  · exact h

/-- A number between two of one rank has this rank. -/
theorem HasRank.between {low high : ℝ} (hlow : HasRank low n) (hhigh : HasRank high n)
    (hlower : low ≤ p) (hupper : p ≤ high) : HasRank p n where
  le_rankLimit := hlow.le_rankLimit
  le_iff rank hrank :=
    ⟨fun hle => ((hhigh.le_iff rank hrank).mp hle).of_le hupper,
      fun hmost => (hlow.le_iff rank hrank).mpr (hmost.of_le hlower)⟩

/-! ## The ends of the range -/

theorem roundsAtMost_last : RoundsAtMost p (rankLimit - 1) ↔ p < (2 ^ 1024 - 2 ^ 970 : ℚ) := by
  have hodd : ¬ (rankLimit - 1) % 2 = 0 := by decide
  rw [RoundsAtMost, midpoint_last, or_iff_left fun heq => hodd heq.2]

/-- A number has a finite rank exactly below the midpoint above the last one. -/
theorem HasRank.lt_rankLimit_iff (h : HasRank p n) :
    n < rankLimit ↔ p < (2 ^ 1024 - 2 ^ 970 : ℚ) := by
  have hpos : 0 < rankLimit := by decide
  rw [← roundsAtMost_last, ← h.le_iff _ (by decide), Nat.le_sub_one_iff_lt hpos]

theorem hasRank_limit (h : (2 ^ 1024 - 2 ^ 970 : ℚ) ≤ p) : HasRank p rankLimit where
  le_rankLimit := le_rfl
  le_iff rank hrank := by
    refine iff_of_false (not_le.mpr hrank) fun hmost => ?_
    have hlast := hmost.mono (Nat.le_sub_one_of_lt hrank)
    exact h.not_gt (roundsAtMost_last.mp hlast)

theorem hasRank_zero (h : p < 2 ^ (-1075 : ℤ)) : HasRank p 0 where
  le_rankLimit := Nat.zero_le _
  le_iff rank _ := by
    have hzero : RoundsAtMost p 0 := by
      rw [RoundsAtMost, midpoint_zero, Rat.cast_zpow, Rat.cast_ofNat]
      exact .inl h
    exact iff_of_true (Nat.zero_le _) (hzero.mono (Nat.zero_le _))

/-- Rational numbers have the ranks that they are rounded to. -/
theorem RoundsTo.hasRank {q : ℚ} (h : RoundsTo q n) : HasRank q (min rankLimit n) where
  le_rankLimit := min_le_left ..
  le_iff rank hrank := by
    have hdouble : 2 * midpoint rank = magnitude rank + magnitude (rank + 1) :=
      mul_div_cancel₀ _ two_ne_zero
    rw [min_le_iff, or_iff_right (not_le.mpr hrank), h rank, RoundsAtMost, Rat.cast_lt,
      Rat.cast_inj, ← hdouble, mul_lt_mul_iff_right₀ two_pos, mul_right_inj' two_ne_zero]

/-! ## Ends of brackets -/

namespace Endpoint

variable {x : Endpoint}

/-- The leading digit of the coefficient tells the powers of two around the fraction. -/
theorem toReal_bounds (h : x.coefficient ≠ 0) :
    2 ^ (x.coefficient.log2 + x.exponent) ≤ x.toReal ∧
      x.toReal < 2 ^ (x.coefficient.log2 + x.exponent + 1) := by
  have hpow (k : Nat) : (2 : ℝ) ^ (k + x.exponent) = (2 ^ k : ℕ) * 2 ^ x.exponent := by
    rw [zpow_add₀ two_ne_zero, zpow_natCast, Nat.cast_pow, Nat.cast_ofNat]
  have hnext : (x.coefficient.log2 : ℤ) + x.exponent + 1 =
      (x.coefficient.log2 + 1 : ℕ) + x.exponent := by omega
  have hscale : (0 : ℝ) < 2 ^ x.exponent := zpow_pos two_pos _
  rw [hnext, hpow, hpow]
  exact ⟨mul_le_mul_of_nonneg_right (Nat.cast_le.mpr (Nat.log2_self_le h)) hscale.le,
    mul_lt_mul_of_pos_right (Nat.cast_lt.mpr Nat.lt_log2_self) hscale⟩

theorem toReal_units (n : Nat) : toReal ⟨n, -1074⟩ = n / unitsPerOne := by
  obtain ⟨k, hk, hone⟩ := unitsPerOne_eq
  have hexponent : (-1074 : ℤ) = -(k : ℤ) := by omega
  rw [toReal, hone, hexponent, zpow_neg, zpow_natCast, div_eq_mul_inv, Nat.cast_pow,
    Nat.cast_ofNat]

/-- A fraction in the range of the format, in units. -/
theorem nearestRank_roundsTo (x : Endpoint) :
    RoundsTo (x.coefficient * 2 ^ x.exponent)
      (nearestRank (x.coefficient <<< (x.exponent + 1074).toNat)
        (1 <<< (-(x.exponent + 1074)).toNat)) := by
  rw [Nat.shiftLeft_eq, Nat.one_shiftLeft]
  refine Binary64.nearestRank_roundsTo (Nat.two_pow_pos _) ?_
  obtain ⟨k, hk, hone⟩ := unitsPerOne_eq
  have hexponent : ((x.exponent + 1074).toNat : ℤ) =
      x.exponent + k + (-(x.exponent + 1074)).toNat := by omega
  rw [hone]
  push_cast
  rw [mul_assoc, mul_assoc, ← zpow_natCast, ← zpow_natCast, ← zpow_natCast, hexponent,
    zpow_add₀ two_ne_zero, zpow_add₀ two_ne_zero]
  ring

theorem rank_hasRank (x : Endpoint) : HasRank x.toReal x.rank := by
  rw [rank]
  dsimp only
  -- Zero, beyond the range, below it, and within.
  split_ifs with hzero hhigh hlow
  · rw [toReal, hzero, Nat.cast_zero, zero_mul]
    exact hasRank_zero (zpow_pos two_pos _)
  · have hle : (2 : ℝ) ^ 1024 ≤ x.toReal := by
      refine le_trans ?_ (toReal_bounds hzero).1
      rw [← zpow_natCast]
      exact zpow_le_zpow_right₀ one_le_two (by exact_mod_cast hhigh)
    refine hasRank_limit (le_trans ?_ hle)
    rw [Rat.cast_sub, Rat.cast_pow, Rat.cast_pow, Rat.cast_ofNat]
    exact sub_le_self _ (pow_nonneg zero_le_two _)
  · exact hasRank_zero ((toReal_bounds hzero).2.trans_le
      (zpow_le_zpow_right₀ one_le_two (by omega)))
  · have hrank := x.nearestRank_roundsTo.hasRank
    rw [Rat.cast_mul, Rat.cast_natCast, Rat.cast_zpow, Rat.cast_ofNat] at hrank
    exact hrank

end Endpoint

/-- The rank of a bracket is that of the number in it. -/
theorem Bracket.rank?_hasRank {x : Bracket} (h : x.rank? = some n) (hlower : x.lower.toReal ≤ p)
    (hupper : p ≤ x.upper.toReal) : HasRank p n := by
  rw [Bracket.rank?] at h
  split at h
  · next heq =>
    cases h
    exact x.lower.rank_hasRank.between (heq ▸ x.upper.rank_hasRank) hlower hupper
  · cases h

end Reckoner.Binary64
