import Mathlib.Order.Monotone.Basic
import Mathlib.Tactic.Ring
import Reckoner.Proofs.Binary64.Rounding

/-! Rounding, seen from the midpoints between neighbours. A quotient is rounded to a rank
or one below it exactly if it is below the midpoint that the rank has with the next one, or
at the midpoint and the rank is even. -/
namespace Reckoner

/-! ## Integers -/

/-- A quotient is rounded to at most `r` if it is below `r` and a half, or equal to that and
`r` is even. -/
theorem roundHalfEven_le_iff (num r : Nat) {den : Nat} (hden : 0 < den) :
    roundHalfEven num den ≤ r ↔
      2 * num < (2 * r + 1) * den ∨ 2 * num = (2 * r + 1) * den ∧ r % 2 = 0 := by
  have hnum : den * (num / den) + num % den = num := Nat.div_add_mod num den
  have hrest : num % den < den := Nat.mod_lt num hden
  have hmid : (2 * r + 1) * den = 2 * (den * r) + den := by ring
  unfold roundHalfEven
  dsimp only
  generalize num / den = quotient at hnum ⊢
  generalize num % den = rest at hnum hrest ⊢
  rw [hmid, ← hnum]
  rcases Nat.lt_trichotomy quotient r with hless | rfl | hmore
  · have hstep : den * quotient + den ≤ den * r := Nat.mul_le_mul_left den hless
    refine iff_of_true ?_ (.inl (by omega))
    split_ifs <;> omega
  · split_ifs <;> omega
  · have hstep : den * r + den ≤ den * quotient := Nat.mul_le_mul_left den hmore
    refine iff_of_false ?_ (by omega)
    split_ifs <;> omega

/-- A rounded quotient is no more than half away from the quotient. -/
theorem roundHalfEven_bounds (num : Nat) {den : Nat} (hden : 0 < den) :
    2 * num ≤ (2 * roundHalfEven num den + 1) * den ∧
      2 * roundHalfEven num den * den ≤ 2 * num + den := by
  have hle := (roundHalfEven_le_iff num (roundHalfEven num den) hden).mp le_rfl
  refine ⟨by omega, ?_⟩
  generalize hround : roundHalfEven num den = r
  cases r with
  | zero => simp
  | succ r =>
    have hnot := mt (roundHalfEven_le_iff num r hden).mpr (by omega)
    have hlow : (2 * r + 1) * den ≤ 2 * num := by omega
    calc 2 * (r + 1) * den = (2 * r + 1) * den + den := by ring
      _ ≤ 2 * num + den := Nat.add_le_add_right hlow den

namespace Binary64

/-! ## Magnitudes in ascending order -/

/-- The units of the rank that is this far into a binade; its end is the next one. -/
theorem units_binade {shift m : Nat} (hm : m ≤ 2 ^ 53) (hlow : shift = 0 ∨ 2 ^ 52 ≤ m) :
    units (shift * 2 ^ 52 + m) = m * 2 ^ shift := by
  obtain ⟨hrank, hlt, hle⟩ := significand_bounds (shift * 2 ^ 52 + m)
  rw [units, Nat.shiftLeft_eq]
  generalize scale (shift * 2 ^ 52 + m) = shift' at hrank hle ⊢
  generalize significand (shift * 2 ^ 52 + m) = m' at hrank hlt hle ⊢
  by_cases hend : m = 2 ^ 53
  · obtain ⟨rfl, rfl⟩ : shift' = shift + 1 ∧ m' = 2 ^ 52 := by omega
    rw [hend, Nat.pow_succ]
    ring
  · obtain ⟨rfl, rfl⟩ : shift' = shift ∧ m' = m := by omega
    rfl

theorem units_succ (rank : Nat) : units (rank + 1) = units rank + 2 ^ scale rank := by
  obtain ⟨hrank, hlt, hle⟩ := significand_bounds rank
  have hnext : units (scale rank * 2 ^ 52 + (significand rank + 1)) =
      (significand rank + 1) * 2 ^ scale rank :=
    units_binade hlt (by omega)
  rw [← Nat.add_assoc, hrank] at hnext
  rw [hnext, Nat.succ_mul, units, Nat.shiftLeft_eq]

theorem units_strictMono : StrictMono units :=
  strictMono_nat_of_lt_succ fun rank => by
    rw [units_succ]
    exact Nat.lt_add_of_pos_right (Nat.two_pow_pos _)

theorem units_pos {rank : Nat} (h : rank ≠ 0) : 0 < units rank :=
  Nat.zero_lt_of_lt (units_strictMono (Nat.pos_of_ne_zero h))

/-- A rank is even exactly if its significand is. -/
theorem significand_mod_two (rank : Nat) : significand rank % 2 = rank % 2 := by
  have hrank := (significand_bounds rank).1
  omega

/-! ## Ranks of quotients -/

/-- The quotient is within the binade of this spacing, or below it if it is the first. -/
structure InBinade (num den shift : Nat) : Prop where
  high : num < 2 ^ 53 * (den * 2 ^ shift)
  low : shift = 0 ∨ 2 ^ 52 * (den * 2 ^ shift) ≤ num

variable {num den shift rank : Nat}

theorem inBinade_log2 (num : Nat) (hden : 0 < den) :
    InBinade num den ((num / den).log2 - 52) where
  high := by
    have hlog : num / den < 2 ^ (53 + ((num / den).log2 - 52)) :=
      Nat.lt_of_lt_of_le Nat.lt_log2_self (Nat.pow_le_pow_right (by decide) (by omega))
    rw [Nat.div_lt_iff_lt_mul hden, Nat.pow_add] at hlog
    rwa [Nat.mul_comm den, ← Nat.mul_assoc]
  low := by
    by_cases hshift : (num / den).log2 - 52 = 0
    · exact .inl hshift
    · have hpos : num / den ≠ 0 := by
        intro hzero
        rw [hzero] at hshift
        exact hshift (by decide)
      have hlog : 2 ^ (52 + ((num / den).log2 - 52)) ≤ num / den :=
        (Nat.le_log2 hpos).mp (by omega)
      rw [Nat.le_div_iff_mul_le hden, Nat.pow_add] at hlog
      rw [Nat.mul_comm den, ← Nat.mul_assoc]
      exact .inr hlog

/-- A rank below the binade has its midpoint below the quotient. -/
theorem InBinade.mid_lt (h : InBinade num den shift) (hden : 0 < den) (hshift : shift ≠ 0)
    (hrank : rank < shift * 2 ^ 52 + 2 ^ 52) :
    (units rank + units (rank + 1)) * den < 2 * num := by
  have hstart : units (shift * 2 ^ 52 + 2 ^ 52) = 2 ^ 52 * 2 ^ shift :=
    units_binade (by decide) (.inr le_rfl)
  have hless : units rank < units (rank + 1) := units_strictMono (Nat.lt_succ_self rank)
  have hnext : units (rank + 1) ≤ 2 ^ 52 * 2 ^ shift := hstart ▸ units_strictMono.monotone hrank
  calc (units rank + units (rank + 1)) * den < 2 * (2 ^ 52 * 2 ^ shift) * den :=
        Nat.mul_lt_mul_of_pos_right (by omega) hden
    _ = 2 * (2 ^ 52 * (den * 2 ^ shift)) := by ring
    _ ≤ 2 * num := Nat.mul_le_mul_left 2 (h.low.resolve_left hshift)

/-- A rank from the end of the binade on has its midpoint above the quotient. -/
theorem InBinade.lt_mid (h : InBinade num den shift) (hrank : shift * 2 ^ 52 + 2 ^ 53 ≤ rank) :
    2 * num < (units rank + units (rank + 1)) * den := by
  have hend : units (shift * 2 ^ 52 + 2 ^ 53) = 2 ^ 53 * 2 ^ shift :=
    units_binade le_rfl (.inr (by decide))
  have hless : units rank < units (rank + 1) := units_strictMono (Nat.lt_succ_self rank)
  have hunits : 2 ^ 53 * 2 ^ shift ≤ units rank := hend ▸ units_strictMono.monotone hrank
  calc 2 * num < 2 * (2 ^ 53 * (den * 2 ^ shift)) := Nat.mul_lt_mul_of_pos_left h.high (by decide)
    _ = 2 * (2 ^ 53 * 2 ^ shift) * den := by ring
    _ ≤ (units rank + units (rank + 1)) * den := Nat.mul_le_mul_right den (by omega)

/-- Within the binade the magnitudes are one spacing apart, so there the rank is that of a
rounded integer. -/
theorem mid_binade (den : Nat) {m : Nat} (hm : m < 2 ^ 53) (hlow : shift = 0 ∨ 2 ^ 52 ≤ m) :
    (units (shift * 2 ^ 52 + m) + units (shift * 2 ^ 52 + m + 1)) * den =
      (2 * m + 1) * (den * 2 ^ shift) := by
  have hnext : units (shift * 2 ^ 52 + (m + 1)) = (m + 1) * 2 ^ shift :=
    units_binade hm (by omega)
  rw [← Nat.add_assoc] at hnext
  rw [units_binade (Nat.le_of_lt hm) hlow, hnext]
  ring

/-- The rank of a quotient is at most this one if the quotient is below the midpoint of this
magnitude and the next, or at the midpoint and this rank is even. -/
theorem nearestRank_le_iff (num rank : Nat) (hden : 0 < den) :
    nearestRank num den ≤ rank ↔
      2 * num < (units rank + units (rank + 1)) * den ∨
        2 * num = (units rank + units (rank + 1)) * den ∧ rank % 2 = 0 := by
  have hbinade := inBinade_log2 num hden
  simp only [nearestRank, Nat.shiftLeft_eq]
  generalize (num / den).log2 - 52 = shift at hbinade ⊢
  have hspacing : 0 < den * 2 ^ shift := Nat.mul_pos hden (Nat.two_pow_pos _)
  by_cases hbelow : shift ≠ 0 ∧ rank < shift * 2 ^ 52 + 2 ^ 52
  · obtain ⟨hshift, hrank⟩ := hbelow
    have hmid := hbinade.mid_lt hden hshift hrank
    have hround : 2 ^ 52 ≤ roundHalfEven num (den * 2 ^ shift) :=
      ((Nat.le_div_iff_mul_le hspacing).mpr (hbinade.low.resolve_left hshift)).trans
        (le_roundHalfEven ..)
    exact iff_of_false (by omega) (by omega)
  by_cases habove : shift * 2 ^ 52 + 2 ^ 53 ≤ rank
  · have hround : roundHalfEven num (den * 2 ^ shift) ≤ 2 ^ 53 :=
      (roundHalfEven_le ..).trans ((Nat.div_lt_iff_lt_mul hspacing).mpr hbinade.high)
    exact iff_of_true (by omega) (.inl (hbinade.lt_mid habove))
  obtain ⟨m, rfl⟩ : ∃ m, rank = shift * 2 ^ 52 + m := ⟨rank - shift * 2 ^ 52, by omega⟩
  have hparity : (shift * 2 ^ 52 + m) % 2 = m % 2 := by omega
  rw [mid_binade den (by omega) (by omega), hparity, ← roundHalfEven_le_iff num m hspacing]
  omega

end Binary64

end Reckoner
