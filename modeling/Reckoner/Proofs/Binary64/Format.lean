import Mathlib.Algebra.Order.Field.Basic
import Mathlib.Algebra.Order.Group.Unbundled.Abs
import Mathlib.Data.Rat.Cast.Order
import Mathlib.Tactic.FieldSimp
import Mathlib.Tactic.Linarith
import Reckoner.Proofs.Binary64.Nearest

/-! The numbers of the format, and the nearest of them. The format is described apart from
ranks: an integer of 53 bits times a power of two, within the range of exponents. The rank
of a quotient is that of the number nearest to it, with an even significand if two are
equally near, and it is beyond the last rank from the midpoint above the largest number on. -/
namespace Reckoner.Binary64

/-! ## The format -/

/-- The magnitude of this rank. -/
def magnitude (rank : Nat) : ℚ :=
  units rank / unitsPerOne

/-- A finite number of the format, of either sign. -/
def InFormat (x : ℚ) : Prop :=
  ∃ (m : ℕ) (e : ℤ), m < 2 ^ 53 ∧ -1074 ≤ e ∧ e ≤ 971 ∧ |x| = m * 2 ^ e

/-- The magnitude of this rank is the nearest to the number, and its significand is even if
another number of the format is equally near. -/
structure IsNearest (q : ℚ) (rank : Nat) : Prop where
  nearest : ∀ x, InFormat x → |q - magnitude rank| ≤ |q - x|
  even : ∀ x, InFormat x → x ≠ magnitude rank → |q - x| = |q - magnitude rank| →
    significand rank % 2 = 0

variable {q x : ℚ} {rank other num den : Nat}

theorem unitsPerOne_pos : (0 : ℚ) < unitsPerOne := by
  obtain ⟨k, -, hone⟩ := unitsPerOne_eq
  rw [hone]
  exact_mod_cast Nat.two_pow_pos k

theorem magnitude_strictMono : StrictMono magnitude := fun _ _ hless =>
  div_lt_div_of_pos_right (Nat.cast_lt.mpr (units_strictMono hless)) unitsPerOne_pos

/-- That many units, as an integer times a power of two. -/
theorem units_div_unitsPerOne (m shift : Nat) :
    ((m * 2 ^ shift : Nat) : ℚ) / unitsPerOne = m * 2 ^ ((shift : ℤ) - 1074) := by
  obtain ⟨k, hk, hone⟩ := unitsPerOne_eq
  have hcast : (1074 : ℤ) = k := by omega
  rw [hone, hcast, zpow_sub₀ two_ne_zero, zpow_natCast, zpow_natCast, mul_div_assoc']
  push_cast
  rfl

theorem magnitude_eq (rank : Nat) :
    magnitude rank = significand rank * 2 ^ ((scale rank : ℤ) - 1074) := by
  rw [magnitude, units, Nat.shiftLeft_eq, units_div_unitsPerOne]

/-- Every integer of 53 bits with such a scale is the significand of a finite number, after
shifting it up as far as that takes. -/
theorem exists_units {m shift : Nat} (hm : m < 2 ^ 53) (hshift : shift ≤ 2045) :
    ∃ rank < rankLimit, units rank = m * 2 ^ shift := by
  rw [rankLimit_eq]
  induction shift generalizing m with
  | zero =>
    refine ⟨m, by omega, ?_⟩
    simpa using units_binade (Nat.le_of_lt hm) (.inl rfl)
  | succ shift ih =>
    by_cases hlow : 2 ^ 52 ≤ m
    · exact ⟨(shift + 1) * 2 ^ 52 + m, by omega, units_binade (Nat.le_of_lt hm) (.inr hlow)⟩
    · obtain ⟨rank, hrank, hunits⟩ := ih (m := 2 * m) (by omega) (by omega)
      refine ⟨rank, hrank, hunits.trans ?_⟩
      rw [Nat.pow_succ]
      ring

/-- The magnitudes of the format are those of the finite ranks. -/
theorem inFormat_iff : InFormat x ↔ ∃ rank < rankLimit, |x| = magnitude rank := by
  constructor
  · rintro ⟨m, e, hm, hlow, hhigh, hx⟩
    obtain ⟨shift, rfl⟩ : ∃ shift : ℕ, e = (shift : ℤ) - 1074 := ⟨(e + 1074).toNat, by omega⟩
    obtain ⟨rank, hrank, hunits⟩ : ∃ rank < rankLimit, units rank = m * 2 ^ shift :=
      exists_units hm (by omega)
    exact ⟨rank, hrank, by rw [hx, magnitude, hunits, units_div_unitsPerOne]⟩
  · rintro ⟨rank, hrank, hx⟩
    have hscale := scale_le hrank
    exact ⟨significand rank, (scale rank : ℤ) - 1074, (significand_bounds rank).2.1, by omega,
      by omega, hx.trans (magnitude_eq rank)⟩

theorem magnitude_nonneg (rank : Nat) : 0 ≤ magnitude rank :=
  div_nonneg (Nat.cast_nonneg _) unitsPerOne_pos.le

theorem magnitude_zero : magnitude 0 = 0 := by
  have hunits : units 0 = 0 := by decide
  rw [magnitude, hunits, Nat.cast_zero, zero_div]

theorem magnitude_pos (h : rank ≠ 0) : 0 < magnitude rank :=
  div_pos (Nat.cast_pos.mpr (units_pos h)) unitsPerOne_pos

theorem inFormat_magnitude (h : rank < rankLimit) : InFormat (magnitude rank) :=
  inFormat_iff.mpr ⟨rank, h, abs_of_nonneg (magnitude_nonneg rank)⟩

/-! ## The gaps between neighbours -/

theorem magnitude_succ_sub (rank : Nat) :
    magnitude (rank + 1) - magnitude rank = (2 ^ scale rank : ℕ) / unitsPerOne := by
  rw [magnitude, magnitude, units_succ, Nat.cast_add, add_div, add_sub_cancel_left]

/-- A gap is at least one part in 2^53 of the magnitude above it. -/
theorem magnitude_succ_le (rank : Nat) :
    magnitude (rank + 1) ≤ 2 ^ 53 * (magnitude (rank + 1) - magnitude rank) := by
  have hlt := (significand_bounds rank).2.1
  have hunits : units (rank + 1) ≤ 2 ^ 53 * 2 ^ scale rank := by
    rw [units_succ, units, Nat.shiftLeft_eq, ← Nat.succ_mul]
    exact Nat.mul_le_mul_right _ hlt
  rw [magnitude_succ_sub, magnitude, ← mul_div_assoc]
  exact div_le_div_of_nonneg_right (by exact_mod_cast hunits) unitsPerOne_pos.le

/-- The gaps do not shrink. -/
theorem gap_le_gap (rank : Nat) :
    magnitude (rank + 1) - magnitude rank ≤ magnitude (rank + 1 + 1) - magnitude (rank + 1) := by
  have hscale : scale rank ≤ scale (rank + 1) := by
    have hrank := significand_bounds rank
    have hnext := significand_bounds (rank + 1)
    omega
  rw [magnitude_succ_sub, magnitude_succ_sub]
  exact div_le_div_of_nonneg_right (Nat.cast_le.mpr (Nat.pow_le_pow_right two_pos hscale))
    unitsPerOne_pos.le

/-! ## The nearest number -/

/-- Of two numbers the lower one is at least as near up to their midpoint, and the higher
one from there on. -/
theorem nearer_iff {a b : ℚ} (h : a < b) :
    (|q - a| ≤ |q - b| ↔ 2 * q ≤ a + b) ∧ (|q - b| ≤ |q - a| ↔ a + b ≤ 2 * q) := by
  rcases abs_cases (q - a) with ⟨ha, _⟩ | ⟨ha, _⟩ <;>
    rcases abs_cases (q - b) with ⟨hb, _⟩ | ⟨hb, _⟩ <;>
    rw [ha, hb] <;> refine ⟨⟨?_, ?_⟩, ⟨?_, ?_⟩⟩ <;> intro <;> linarith

/-- The number is rounded to this rank, as the midpoints tell. -/
def RoundsTo (q : ℚ) (n : Nat) : Prop :=
  ∀ rank, n ≤ rank ↔ 2 * q < magnitude rank + magnitude (rank + 1) ∨
    2 * q = magnitude rank + magnitude (rank + 1) ∧ rank % 2 = 0

/-- The rank of a quotient is the one that its value is rounded to. -/
theorem nearestRank_roundsTo (hden : 0 < den) (hq : (num : ℚ) = q * unitsPerOne * den) :
    RoundsTo q (nearestRank num den) := by
  intro rank
  have hone := unitsPerOne_pos
  have hscaled : (0 : ℚ) < unitsPerOne * den := mul_pos hone (Nat.cast_pos.mpr hden)
  have hnum : ((2 * num : ℕ) : ℚ) = 2 * q * (unitsPerOne * den) := by
    push_cast
    rw [hq]
    ring
  have hmid : (((units rank + units (rank + 1)) * den : ℕ) : ℚ) =
      (magnitude rank + magnitude (rank + 1)) * (unitsPerOne * den) := by
    rw [magnitude, magnitude]
    push_cast
    field_simp
  rw [nearestRank_le_iff num rank hden, ← Nat.cast_lt (α := ℚ), ← Nat.cast_inj (R := ℚ), hnum, hmid,
    mul_lt_mul_iff_left₀ hscaled, mul_left_inj' hscaled.ne']

/-- A magnitude is rounded to its own rank. -/
theorem magnitude_roundsTo (rank : Nat) : RoundsTo (magnitude rank) rank := by
  have hexact : nearestRank (units rank * 1) 1 = rank := nearestRank_units rank Nat.one_pos
  have hrounds : RoundsTo (magnitude rank) (nearestRank (units rank * 1) 1) := by
    refine nearestRank_roundsTo Nat.one_pos ?_
    rw [magnitude, Nat.mul_one, Nat.cast_one, mul_one, div_mul_cancel₀ _ unitsPerOne_pos.ne']
  rwa [hexact] at hrounds

namespace RoundsTo

variable {n : Nat}

/-- The number is not above the midpoints with higher ranks, and at one only if its rank is
even. -/
theorem le_mid (h : RoundsTo q n) (hother : n < other) :
    2 * q ≤ magnitude n + magnitude other ∧
      (2 * q = magnitude n + magnitude other → n % 2 = 0) := by
  have hnext : magnitude (n + 1) ≤ magnitude other := magnitude_strictMono.monotone hother
  rcases (h n).mp le_rfl with hless | ⟨heq, heven⟩
  · exact ⟨by linarith, fun _ => by linarith⟩
  · exact ⟨by linarith, fun _ => heven⟩

/-- The number is not below the midpoints with lower ranks, and at one only if its rank is
even. -/
theorem mid_le (h : RoundsTo q n) (hother : other < n) :
    magnitude other + magnitude n ≤ 2 * q ∧
      (2 * q = magnitude other + magnitude n → n % 2 = 0) := by
  obtain ⟨k, rfl⟩ : ∃ k, n = k + 1 := ⟨n - 1, by omega⟩
  have hprevious : magnitude other ≤ magnitude k :=
    magnitude_strictMono.monotone (Nat.le_of_lt_succ hother)
  have hnot := mt (h k).mpr (Nat.not_succ_le_self k)
  rw [not_or, not_and, not_lt] at hnot
  obtain ⟨hge, hodd⟩ := hnot
  refine ⟨by linarith, fun heq => ?_⟩
  have := hodd (by linarith)
  omega

/-- Higher numbers have no lower ranks. -/
theorem mono (h : RoundsTo q n) {q' : ℚ} {n' : Nat} (h' : RoundsTo q' n') (hle : q ≤ q') :
    n ≤ n' := by
  rw [h n']
  rcases (h' n').mp le_rfl with hless | ⟨heq, heven⟩
  · exact .inl (by linarith)
  · rcases hle.lt_or_eq with hless | rfl
    · exact .inl (by linarith)
    · exact .inr ⟨heq, heven⟩

/-- Between the midpoints on both sides of a magnitude its rank is the one. -/
theorem eq_of_between (h : RoundsTo q n) (hlow : magnitude rank + magnitude (rank + 1) < 2 * q)
    (hhigh : 2 * q < magnitude (rank + 1) + magnitude (rank + 1 + 1)) : n = rank + 1 := by
  have hle : n ≤ rank + 1 := (h (rank + 1)).mpr (.inl hhigh)
  have hnot : ¬ n ≤ rank := by
    rw [h rank]
    rintro (hless | ⟨heq, -⟩) <;> linarith
  omega

theorem nearest_rank (h : RoundsTo q n) (other : Nat) :
    |q - magnitude n| ≤ |q - magnitude other| := by
  rcases Nat.lt_trichotomy other n with hless | rfl | hmore
  · exact (nearer_iff (magnitude_strictMono hless)).2.mpr (h.mid_le hless).1
  · exact le_rfl
  · exact (nearer_iff (magnitude_strictMono hmore)).1.mpr (h.le_mid hmore).1

theorem even_of_tie (h : RoundsTo q n) (hne : other ≠ n)
    (htie : |q - magnitude other| ≤ |q - magnitude n|) : n % 2 = 0 := by
  rcases Nat.lt_or_gt_of_ne hne with hless | hmore
  · have hmid := (nearer_iff (magnitude_strictMono hless)).1.mp htie
    exact (h.mid_le hless).2 (hmid.antisymm (h.mid_le hless).1)
  · have hmid := (nearer_iff (magnitude_strictMono hmore)).2.mp htie
    exact (h.le_mid hmore).2 ((h.le_mid hmore).1.antisymm hmid)

/-- The rank is that of the nearest number. -/
theorem isNearest (h : RoundsTo q n) (hq : 0 ≤ q) : IsNearest q n := by
  -- A number below zero is farther away than zero.
  have hnegative (x : ℚ) (hx : x < 0) : |q - magnitude n| < |q - x| := by
    have hzero := h.nearest_rank 0
    rw [magnitude_zero, sub_zero, abs_of_nonneg hq] at hzero
    linarith [le_abs_self (q - x)]
  constructor
  · intro x hx
    rcases lt_or_ge x 0 with hneg | hpos
    · exact (hnegative x hneg).le
    · obtain ⟨other, -, hother⟩ := inFormat_iff.mp hx
      rw [abs_of_nonneg hpos] at hother
      subst hother
      exact h.nearest_rank other
  · intro x hx hne htie
    have hpos : 0 ≤ x := not_lt.mp fun hneg => (hnegative x hneg).ne' htie
    obtain ⟨other, -, hother⟩ := inFormat_iff.mp hx
    rw [abs_of_nonneg hpos] at hother
    subst hother
    rw [significand_mod_two]
    exact h.even_of_tie (fun heq => hne (congrArg magnitude heq)) htie.le

end RoundsTo

/-- Of two ranks that are nearest the second is not higher: halfway between neighbours only
one of them is even. -/
theorem IsNearest.le (h : IsNearest q rank) (hrank : rank < rankLimit) (h' : IsNearest q other)
    (hother : other < rankLimit) : other ≤ rank := by
  by_contra hless
  rw [not_le] at hless
  have hmagnitude := magnitude_strictMono hless
  have hle := h.nearest _ (inFormat_magnitude hother)
  have hge := h'.nearest _ (inFormat_magnitude hrank)
  have heven := h.even _ (inFormat_magnitude hother) hmagnitude.ne' (hge.antisymm hle)
  have heven' := h'.even _ (inFormat_magnitude hrank) hmagnitude.ne (hle.antisymm hge)
  rw [significand_mod_two] at heven heven'
  -- Both are even, so there is a number between them, and it is nearer.
  have hbetween : rank + 1 < other := by omega
  have hnext := h.nearest _ (inFormat_magnitude (hbetween.trans hother))
  rw [(nearer_iff hmagnitude).2] at hge
  rw [(nearer_iff (magnitude_strictMono (Nat.lt_succ_self rank))).1] at hnext
  linarith [magnitude_strictMono hbetween]

theorem isNearest_iff {n : Nat} (h : RoundsTo q n) (hq : 0 ≤ q) (hn : n < rankLimit)
    (hother : other < rankLimit) : IsNearest q other ↔ other = n := by
  constructor
  · intro h'
    exact ((h.isNearest hq).le hn h' hother).antisymm (h'.le hother (h.isNearest hq) hn)
  · rintro rfl
    exact h.isNearest hq

/-! ## The ends of the format -/

/-- A magnitude by its place in a binade. -/
theorem magnitude_binade {shift m : Nat} (hm : m ≤ 2 ^ 53) (hlow : shift = 0 ∨ 2 ^ 52 ≤ m) :
    magnitude (shift * 2 ^ 52 + m) = m * 2 ^ ((shift : ℤ) - 1074) := by
  rw [magnitude, units_binade hm hlow, units_div_unitsPerOne]

/-- The midpoint above the largest finite number. -/
theorem magnitude_last : magnitude (rankLimit - 1) + magnitude rankLimit =
    2 * (2 ^ 1024 - 2 ^ 970) := by
  have hlast : rankLimit - 1 = 2045 * 2 ^ 52 + (2 ^ 53 - 1) := by decide
  have hlimit : rankLimit = 2045 * 2 ^ 52 + 2 ^ 53 := by decide
  have hexponent : ((2045 : ℕ) : ℤ) - 1074 = (970 : ℕ) + 1 := by decide
  have hscale : (2 : ℚ) ^ (((2045 : ℕ) : ℤ) - 1074) = 2 ^ 970 * 2 := by
    rw [hexponent, zpow_add_one₀ two_ne_zero, zpow_natCast]
  have htop : (2 : ℚ) ^ 1024 = 2 ^ 54 * 2 ^ 970 := pow_add 2 54 970
  rw [hlast, magnitude_binade (by decide) (.inr (by decide)), hlimit,
    magnitude_binade le_rfl (.inr (by decide)), hscale, htop]
  generalize (2 : ℚ) ^ 970 = unit
  norm_num
  ring

/-- The rank is a finite one below that midpoint. -/
theorem RoundsTo.lt_rankLimit_iff {n : Nat} (h : RoundsTo q n) :
    n < rankLimit ↔ q < 2 ^ 1024 - 2 ^ 970 := by
  have hpos : 0 < rankLimit := by decide
  have hsucc : rankLimit - 1 + 1 = rankLimit := by decide
  have hodd : ¬ (rankLimit - 1) % 2 = 0 := by decide
  rw [← Nat.le_sub_one_iff_lt hpos, h (rankLimit - 1), hsucc, magnitude_last,
    or_iff_left fun heq => hodd heq.2]
  exact mul_lt_mul_iff_right₀ two_pos

/-- A finite rank is the one exactly below that midpoint and if no other is nearer. -/
theorem RoundsTo.eq_iff {n : Nat} (h : RoundsTo q n) (hq : 0 ≤ q) (hrank : rank < rankLimit) :
    n = rank ↔ q < 2 ^ 1024 - 2 ^ 970 ∧ IsNearest q rank := by
  rw [← h.lt_rankLimit_iff]
  constructor
  · rintro rfl
    exact ⟨hrank, h.isNearest hq⟩
  · rintro ⟨hn, hnearest⟩
    exact ((isNearest_iff h hq hn hrank).mp hnearest).symm

/-- The smallest number above zero. -/
theorem magnitude_one : magnitude 1 = 2 * 2 ^ (-1075 : ℤ) := by
  have hbinade : magnitude (0 * 2 ^ 52 + 1) = (1 : ℕ) * 2 ^ (((0 : ℕ) : ℤ) - 1074) :=
    magnitude_binade (by decide) (.inl rfl)
  have hexponent : ((0 : ℕ) : ℤ) - 1074 = 1 + -1075 := by decide
  rwa [Nat.zero_mul, Nat.zero_add, Nat.cast_one, one_mul, hexponent, zpow_one_add₀ two_ne_zero]
    at hbinade

/-- Half of it and less is rounded to zero. -/
theorem RoundsTo.eq_zero_iff {n : Nat} (h : RoundsTo q n) : n = 0 ↔ q ≤ 2 ^ (-1075 : ℤ) := by
  rw [← Nat.le_zero, h 0, magnitude_zero, zero_add, zero_add, magnitude_one]
  simp only [Nat.zero_mod, and_true, ← le_iff_lt_or_eq]
  exact mul_le_mul_iff_right₀ two_pos

end Reckoner.Binary64
