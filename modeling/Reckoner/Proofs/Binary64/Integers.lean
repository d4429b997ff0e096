import Reckoner.Proofs.Binary64.Format

/-! Integers of 64 bits as binary64 numbers. They are far below the largest
finite number and far above the subnormal ones, so each has a finite nearest
number, which is zero only for zero. -/
namespace Reckoner.Binary64

/-- The rank of an integer is the one that its magnitude is rounded to. -/
theorem natAbs_roundsTo (n : Int) :
    RoundsTo (n.natAbs : ℚ) (nearestRank (n.natAbs * unitsPerOne) 1) := by
  refine nearestRank_roundsTo Nat.one_pos ?_
  rw [Nat.cast_mul, Nat.cast_one, mul_one]

theorem nearestRank_natAbs_eq_zero_iff (n : Int) :
    nearestRank (n.natAbs * unitsPerOne) 1 = 0 ↔ n = 0 := by
  rw [(natAbs_roundsTo n).eq_zero_iff]
  constructor
  · intro hsmall
    have hone : (2 : ℚ) ^ (-1075 : ℤ) < 1 := zpow_lt_one_of_neg₀ one_lt_two (by decide)
    exact Int.natAbs_eq_zero.mp (Nat.cast_lt_one.mp (hsmall.trans_lt hone))
  · rintro rfl
    rw [Int.natAbs_zero, Nat.cast_zero]
    exact (zpow_pos two_pos _).le

/-- The number nearest to an integer of 64 bits is finite. -/
theorem ofInt_isFinite {n : Int} (h : n.natAbs ≤ 2 ^ 63) : (ofInt n).isFinite = true := by
  have hbelow : (n.natAbs : ℚ) < 2 ^ 1024 - 2 ^ 970 :=
    calc (n.natAbs : ℚ) ≤ 2 ^ 63 := by exact_mod_cast h
      _ < 2 ^ 1023 := pow_lt_pow_right₀ one_lt_two (by decide)
      _ ≤ 2 ^ 1024 - 2 ^ 970 := by
        rw [le_sub_iff_add_le, pow_succ 2 1023, mul_two]
        exact add_le_add_right (pow_le_pow_right₀ one_le_two (by decide)) _
  have hrank := (natAbs_roundsTo n).lt_rankLimit_iff.mpr hbelow
  rw [ofInt, round, ofRank, dif_pos hrank]
  rfl

/-- It is zero only for zero. -/
theorem ofInt_isZero (n : Int) : (ofInt n).isZero = (n == 0) := by
  have hzero := nearestRank_natAbs_eq_zero_iff n
  rw [Bool.eq_iff_iff, beq_iff_eq, ← hzero, ofInt, round, ofRank]
  split
  · exact beq_iff_eq
  · next hrank =>
    have hpos : 0 < rankLimit := by decide
    exact iff_of_false nofun (by omega)

/-- It is below zero only for those below zero. -/
theorem ofInt_isNegative (n : Int) : (ofInt n).isNegative = decide (n < 0) := by
  have hzero := nearestRank_natAbs_eq_zero_iff n
  rw [Bool.eq_iff_iff, ofInt, round, ofRank]
  split
  · rw [isNegative, Bool.and_eq_true, bne_iff_ne, and_iff_left_iff_imp, decide_eq_true_iff]
    exact fun hneg => mt hzero.mp hneg.ne
  · rfl

end Reckoner.Binary64
