import Reckoner.Decimal.Shortest
import Reckoner.Proofs.Decimal.Rounding

/-! The grid of the multiples of a power of ten, seen from a magnitude. Of the multiples that
read back as the magnitude the nearest is one of its two neighbours, and no decimal with as
few digits as the grid has is between these. Seventeen digits always hold a decimal that reads
back. -/
namespace Reckoner.Decimal

open Binary64 (magnitude magnitude_roundsTo nearer_iff scale units unitsPerOne)

variable {rank : Nat} {exponent : Int} {d d' : Decimal}

/-! ## Decimals in order -/

theorem rank_mono (h : d.toRat ≤ d'.toRat) : d.rank ≤ d'.rank :=
  d.rank_roundsTo.mono d'.rank_roundsTo h

theorem rank_congr (h : d.toRat = d'.toRat) : d.rank = d'.rank :=
  (rank_mono h.le).antisymm (rank_mono h.ge)

theorem rank_le (h : d.toRat ≤ magnitude rank) : d.rank ≤ rank :=
  d.rank_roundsTo.mono (magnitude_roundsTo rank) h

theorem le_rank (h : magnitude rank ≤ d.toRat) : rank ≤ d.rank :=
  (magnitude_roundsTo rank).mono d.rank_roundsTo h

theorem coefficient_ne_zero {d : Decimal} (h : d.rank ≠ 0) : d.coefficient ≠ 0 := by
  intro hzero
  refine h ?_
  rw [rank, hzero, Nat.zero_mul, Nat.zero_mul]
  exact Binary64.nearestRank_zero _

/-- Zeros at the end of the coefficient make no difference to the value. -/
theorem toRat_mul_pow (coefficient : Nat) (exponent : Int) (k : Nat) :
    toRat ⟨coefficient * 10 ^ k, exponent - k⟩ = toRat ⟨coefficient, exponent⟩ := by
  rw [toRat, toRat, zpow_sub₀ (by norm_num), zpow_natCast]
  push_cast
  field_simp

theorem toRat_strip (d : Decimal) : d.strip.toRat = d.toRat := by
  fun_induction strip d with
  | case1 d h ih =>
    have hten : d.coefficient = d.coefficient / 10 * 10 ^ 1 := by omega
    have hshift := toRat_mul_pow (d.coefficient / 10) (d.exponent + 1) 1
    rw [← hten] at hshift
    rw [ih, ← hshift]
    congr 2
    omega
  | case2 => rfl

/-! ## The neighbours of a magnitude -/

/-- The number of steps of the grid up to the magnitude. -/
def steps (rank : Nat) (exponent : Int) : Nat :=
  (quotient rank exponent).1 / (quotient rank exponent).2

/-- The neighbour at the magnitude or below it. -/
def below (rank : Nat) (exponent : Int) : Decimal :=
  ⟨steps rank exponent, exponent⟩

/-- The neighbour above the magnitude. -/
def above (rank : Nat) (exponent : Int) : Decimal :=
  ⟨steps rank exponent + 1, exponent⟩

/-- The neighbour that is nearer. -/
def nearest (rank : Nat) (exponent : Int) : Decimal :=
  ⟨roundHalfEven (quotient rank exponent).1 (quotient rank exponent).2, exponent⟩

theorem quotient_pos (rank : Nat) (exponent : Int) : 0 < (quotient rank exponent).2 := by
  obtain ⟨_, -, hone⟩ := Binary64.unitsPerOne_eq
  refine Nat.mul_pos ?_ (Nat.pow_pos (by decide))
  rw [hone]
  exact Nat.two_pow_pos _

/-- The quotient is that of the magnitude and the step. -/
theorem quotient_eq (rank : Nat) (exponent : Int) :
    ((quotient rank exponent).1 : ℚ) * 10 ^ exponent =
      magnitude rank * (quotient rank exponent).2 := by
  have hexponent : (exponent.toNat : ℤ) = exponent + (-exponent).toNat := by omega
  have hpow : (10 : ℚ) ^ exponent.toNat = 10 ^ exponent * 10 ^ (-exponent).toNat := by
    rw [← zpow_natCast, hexponent, zpow_add₀ (by norm_num), zpow_natCast]
  have hone := Binary64.unitsPerOne_pos
  rw [quotient, Nat.pow_eq, Nat.pow_eq, magnitude]
  push_cast
  rw [hpow]
  field_simp

theorem toRat_le_magnitude_iff (k : Nat) :
    toRat ⟨k, exponent⟩ ≤ magnitude rank ↔ k ≤ steps rank exponent := by
  have hpos := quotient_pos rank exponent
  have hden : (0 : ℚ) < (quotient rank exponent).2 := Nat.cast_pos.mpr hpos
  have hstep : (0 : ℚ) < 10 ^ exponent := zpow_pos (by norm_num) _
  rw [steps, Nat.le_div_iff_mul_le hpos, ← Nat.cast_le (α := ℚ), ← mul_le_mul_iff_left₀ hden,
    ← quotient_eq, toRat, mul_right_comm, mul_le_mul_iff_left₀ hstep, Nat.cast_mul]

theorem below_le (rank : Nat) (exponent : Int) : (below rank exponent).toRat ≤ magnitude rank :=
  (toRat_le_magnitude_iff _).mpr le_rfl

theorem lt_above (rank : Nat) (exponent : Int) : magnitude rank < (above rank exponent).toRat :=
  not_le.mp fun h => Nat.not_succ_le_self _ ((toRat_le_magnitude_iff _).mp h)

/-- The step from one neighbour to the other. -/
theorem toRat_above (rank : Nat) (exponent : Int) :
    (above rank exponent).toRat = (below rank exponent).toRat + 10 ^ exponent := by
  rw [above, below, toRat, toRat, Nat.cast_succ, add_one_mul]

theorem nearest_eq_or (rank : Nat) (exponent : Int) :
    nearest rank exponent = below rank exponent ∨ nearest rank exponent = above rank exponent := by
  unfold nearest below above steps
  rcases roundHalfEven_eq_or (quotient rank exponent).1 (quotient rank exponent).2 with h | h <;>
    rw [h] <;> simp

/-- The nearer neighbour is no more than half a step away. -/
theorem abs_nearest_sub_le (rank : Nat) (exponent : Int) :
    2 * |(nearest rank exponent).toRat - magnitude rank| ≤ 10 ^ exponent := by
  have hquotient := quotient_eq rank exponent
  have hden : (0 : ℚ) < (quotient rank exponent).2 := Nat.cast_pos.mpr (quotient_pos ..)
  have hstep : (0 : ℚ) < 10 ^ exponent := zpow_pos (by norm_num) _
  have hbounds := roundHalfEven_bounds (quotient rank exponent).1 (quotient_pos rank exponent)
  rw [nearest, toRat]
  generalize (quotient rank exponent).1 = num at *
  generalize (quotient rank exponent).2 = den at *
  generalize roundHalfEven num den = n at *
  generalize (10 : ℚ) ^ exponent = step at *
  have hlow : (2 * num : ℚ) ≤ (2 * n + 1) * den := by exact_mod_cast hbounds.1
  have hhigh : (2 * n * den : ℚ) ≤ 2 * num + den := by exact_mod_cast hbounds.2
  rw [← abs_two, ← abs_mul, abs_le]
  constructor
  · refine le_of_mul_le_mul_right ?_ hden
    have := mul_le_mul_of_nonneg_right hlow hstep.le
    linarith
  · refine le_of_mul_le_mul_right ?_ hden
    have := mul_le_mul_of_nonneg_right hhigh hstep.le
    linarith

/-- It is no farther away than either of them. -/
theorem nearest_le (rank : Nat) (exponent : Int) :
    |(nearest rank exponent).toRat - magnitude rank| ≤
        |(below rank exponent).toRat - magnitude rank| ∧
      |(nearest rank exponent).toRat - magnitude rank| ≤
        |(above rank exponent).toRat - magnitude rank| := by
  have hhalf := abs_nearest_sub_le rank exponent
  have hbelow := abs_of_nonpos (sub_nonpos.mpr (below_le rank exponent))
  have habove := abs_of_pos (sub_pos.mpr (lt_above rank exponent))
  have hgap := toRat_above rank exponent
  rcases nearest_eq_or rank exponent with h | h <;> rw [h] at hhalf ⊢ <;>
    constructor <;> linarith

/-! ## Decimals that are not between the neighbours -/

/-- The decimal is no nearer than the neighbour on its side. -/
def IsBeyond (rank : Nat) (exponent : Int) (d : Decimal) : Prop :=
  d.toRat ≤ (below rank exponent).toRat ∨ (above rank exponent).toRat ≤ d.toRat

theorem readsBack?_eq (rank : Nat) (exponent : Int) :
    readsBack? rank exponent =
      if (below rank exponent).rank = rank then
        some (if (above rank exponent).rank = rank then nearest rank exponent
          else below rank exponent)
      else if (above rank exponent).rank = rank then some (above rank exponent)
      else none :=
  rfl

/-- If a decimal beyond the neighbours reads back, so does the neighbour on its side. -/
theorem IsBeyond.neighbour (h : IsBeyond rank exponent d) (hd : d.rank = rank) :
    d.toRat ≤ (below rank exponent).toRat ∧ (below rank exponent).rank = rank ∨
      (above rank exponent).toRat ≤ d.toRat ∧ (above rank exponent).rank = rank := by
  rcases h with hle | hle
  · have hmono := rank_mono hle
    rw [hd] at hmono
    exact .inl ⟨hle, (rank_le (below_le rank exponent)).antisymm hmono⟩
  · have hmono := rank_mono hle
    rw [hd] at hmono
    exact .inr ⟨hle, hmono.antisymm (le_rank (lt_above rank exponent).le)⟩

/-- If there is no answer, nothing beyond the neighbours reads back. -/
theorem IsBeyond.rank_ne (h : IsBeyond rank exponent d) (hnone : readsBack? rank exponent = none) :
    d.rank ≠ rank := by
  intro hd
  rw [readsBack?_eq] at hnone
  rcases h.neighbour hd with ⟨-, hneighbour⟩ | ⟨-, hneighbour⟩
  · rw [if_pos hneighbour] at hnone
    cases hnone
  · rw [if_pos hneighbour, if_pos hneighbour] at hnone
    split at hnone <;> cases hnone

/-- An answer is one of the neighbours, and it reads back. -/
theorem readsBack?_eq_some (h : readsBack? rank exponent = some d) :
    (d = below rank exponent ∨ d = above rank exponent) ∧ d.rank = rank := by
  rw [readsBack?_eq] at h
  split at h
  · next hbelow =>
    obtain rfl := Option.some.inj h
    split
    · next habove =>
      rcases nearest_eq_or rank exponent with hnearest | hnearest <;> rw [hnearest]
      · exact ⟨.inl rfl, hbelow⟩
      · exact ⟨.inr rfl, habove⟩
    · exact ⟨.inl rfl, hbelow⟩
  · split at h
    · next habove =>
      obtain rfl := Option.some.inj h
      exact ⟨.inr rfl, habove⟩
    · cases h

/-- The answer is the nearest of all that read back and are not between the neighbours. -/
theorem IsBeyond.no_nearer (h' : IsBeyond rank exponent d') (hd' : d'.rank = rank)
    (h : readsBack? rank exponent = some d) :
    |d.toRat - magnitude rank| ≤ |d'.toRat - magnitude rank| := by
  have hbelow := below_le rank exponent
  have habove := lt_above rank exponent
  obtain ⟨hnearestBelow, hnearestAbove⟩ := nearest_le rank exponent
  have hless := abs_of_nonpos (sub_nonpos.mpr hbelow)
  have hmore := abs_of_pos (sub_pos.mpr habove)
  have hlow := neg_le_abs (d'.toRat - magnitude rank)
  have hhigh := le_abs_self (d'.toRat - magnitude rank)
  rw [readsBack?_eq] at h
  rcases h'.neighbour hd' with ⟨hle, hneighbour⟩ | ⟨hle, hneighbour⟩
  · rw [if_pos hneighbour] at h
    obtain rfl := Option.some.inj h
    split <;> linarith
  · rw [if_pos hneighbour, if_pos hneighbour] at h
    split at h <;> obtain rfl := Option.some.inj h <;> linarith

/-! ## Decimals with few digits -/

theorem toRat_le_toRat {m n : Nat} (h : m ≤ n) : toRat ⟨m, exponent⟩ ≤ toRat ⟨n, exponent⟩ :=
  mul_le_mul_of_nonneg_right (Nat.cast_le.mpr h) (zpow_pos (by norm_num) _).le

theorem toRat_pow (k : Nat) (exponent : Int) :
    toRat ⟨10 ^ k, exponent - k⟩ = 10 ^ exponent := by
  have hone := toRat_mul_pow 1 exponent k
  rw [Nat.one_mul] at hone
  rw [hone, toRat, Nat.cast_one, one_mul]

/-- A multiple of the step is not between the neighbours. -/
theorem isBeyond_multiple (rank n : Nat) (exponent : Int) : IsBeyond rank exponent ⟨n, exponent⟩ := by
  rcases Nat.lt_or_ge (steps rank exponent) n with hlt | hle
  · exact .inr (toRat_le_toRat hlt)
  · exact .inl (toRat_le_toRat hle)

/-- On the grid that has `k + 1` digits for the magnitude, no decimal with as few digits is
between the neighbours: it is a multiple of the step, or below all that have the digits. -/
theorem isBeyond_of_lt_pow {leading : Int} (hleading : 10 ^ leading ≤ magnitude rank) {k : Nat}
    (hd : d.coefficient < 10 ^ (k + 1)) : IsBeyond rank (leading - k) d := by
  by_cases hexponent : leading - k ≤ d.exponent
  · obtain ⟨j, hj⟩ : ∃ j : Nat, d.exponent - j = leading - k :=
      ⟨(d.exponent - (leading - k)).toNat, by omega⟩
    have hmultiple := isBeyond_multiple rank (d.coefficient * 10 ^ j) (d.exponent - j)
    rw [IsBeyond, toRat_mul_pow, hj] at hmultiple
    exact hmultiple
  · left
    have hpow : toRat ⟨10 ^ k, leading - k⟩ ≤ magnitude rank := (toRat_pow k leading).trans_le hleading
    calc d.toRat ≤ 10 ^ (k + 1) * 10 ^ d.exponent :=
          mul_le_mul_of_nonneg_right (by exact_mod_cast hd.le) (zpow_pos (by norm_num) _).le
      _ = 10 ^ ((k + 1 : ℕ) + d.exponent) := by rw [zpow_add₀ (by norm_num), zpow_natCast]
      _ ≤ 10 ^ leading := zpow_le_zpow_right₀ (by norm_num) (by omega)
      _ = toRat ⟨10 ^ k, leading - k⟩ := (toRat_pow k leading).symm
      _ ≤ (below rank (leading - k)).toRat :=
        toRat_le_toRat ((toRat_le_magnitude_iff _).mp hpow)

/-- The grid of seventeen digits is finer than the gaps between numbers, so the nearer
neighbour reads back. -/
theorem rank_nearest (hrank : rank ≠ 0) (hgrid : 10 ^ 16 * 10 ^ exponent ≤ magnitude rank) :
    (nearest rank exponent).rank = rank := by
  obtain ⟨previous, rfl⟩ := Nat.exists_eq_succ_of_ne_zero hrank
  have hhalf := abs_nearest_sub_le (previous + 1) exponent
  have hgap := Binary64.magnitude_succ_le previous
  have hgaps := Binary64.gap_le_gap previous
  have hstep : (0 : ℚ) < 10 ^ exponent := zpow_pos (by norm_num) _
  have hfine : (10 : ℚ) ^ exponent < magnitude (previous + 1) - magnitude previous := by linarith
  have hlow := neg_le_abs ((nearest (previous + 1) exponent).toRat - magnitude (previous + 1))
  have hhigh := le_abs_self ((nearest (previous + 1) exponent).toRat - magnitude (previous + 1))
  exact (rank_roundsTo _).eq_of_between (by linarith) (by linarith)

end Reckoner.Decimal
