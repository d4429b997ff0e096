import Reckoner.Proofs.Binary64.Exact
import Reckoner.Proofs.Decimal.Grid

/-! The fewest digits that read back. The search starts on the grid of one digit and adds a
digit at a time, so the first answer has as few digits as any decimal that is rounded to the
number. It is the nearest of those with as many, and it comes with the seventeenth digit at
the latest. -/
namespace Reckoner

open Binary64 (IsNearest magnitude rankLimit units unitsPerOne)

/-- A decimal of this sign and magnitude is rounded to the number: to the nearest one of the
format, of two equally near ones to that with the even significand. The sign is kept, that of
a zero too. -/
def Binary64.IsRounded (negative : Bool) (q : ℚ) (x : Binary64) : Prop :=
  ∃ rank : Fin rankLimit, x = .finite negative rank ∧ q < 2 ^ 1024 - 2 ^ 970 ∧ IsNearest q rank

namespace Decimal

open Binary64 (IsRounded)

/-- The number is a decimal with no more significant digits than this. -/
def HasDigits (count : Nat) (q : ℚ) : Prop :=
  ∃ d : Decimal, d.coefficient < 10 ^ count ∧ d.toRat = q

/-- The decimal of this sign and magnitude is rounded to the number. None that is has fewer
digits, and none with as many is nearer to it. -/
structure IsShortest (x : Binary64) (negative : Bool) (q : ℚ) (count : Nat) : Prop where
  rounded : IsRounded negative q x
  digits : HasDigits count q
  fewest : ∀ other p k, HasDigits k p → IsRounded other p x → count ≤ k
  closest : ∀ other p, HasDigits count p → IsRounded other p x →
    |q - abs x.toRat| ≤ |p - abs x.toRat|

theorem isRounded_iff {s negative : Bool} {rank : Fin rankLimit} {d : Decimal} :
    IsRounded s d.toRat (.finite negative rank) ↔ s = negative ∧ d.rank = rank := by
  have hrounds (rank : Fin rankLimit) :=
    d.rank_roundsTo.eq_iff d.toRat_nonneg rank.isLt
  constructor
  · rintro ⟨rank, hfinite, hnearest⟩
    cases hfinite
    exact ⟨rfl, (hrounds rank).mpr hnearest⟩
  · rintro ⟨rfl, hrank⟩
    exact ⟨rank, rfl, (hrounds rank).mp hrank⟩

/-! ## The search -/

/-- The search ends on the first grid with an answer. -/
theorem firstAnswer_spec {answer? : Int → Option Decimal} {grids k : Nat} {exponent : Int}
    (hk : k < grids) (h : answer? (exponent - k) ≠ none) :
    ∃ i ≤ k, answer? (exponent - i) = some (firstAnswer answer? grids exponent) ∧
      ∀ j < i, answer? (exponent - j) = none := by
  induction grids generalizing k exponent with
  | zero => omega
  | succ grids ih =>
    rw [firstAnswer]
    cases hfirst : answer? exponent with
    | some d => exact ⟨0, by omega, by simpa using hfirst, by omega⟩
    | none =>
      cases k with
      | zero => simp [hfirst] at h
      | succ k =>
        have hshift (i : Nat) : exponent - (i + 1 : Nat) = exponent - 1 - i := by omega
        rw [hshift] at h
        obtain ⟨i, hi, hanswer, hnone⟩ := ih (by omega) h
        refine ⟨i + 1, by omega, by rwa [hshift], fun j hj => ?_⟩
        cases j with
        | zero => simpa using hfirst
        | succ j =>
          rw [hshift]
          exact hnone j (by omega)

/-- A number that is not zero has as many digits as it has. -/
theorem pow_le_of_length_toDigits {n : Nat} (hn : n ≠ 0) :
    10 ^ ((Nat.toDigits 10 n).length - 1) ≤ n ∧ n < 10 ^ (Nat.toDigits 10 n).length := by
  have hpos : 0 < (Nat.toDigits 10 n).length := List.length_pos_iff.mpr Nat.toDigits_ne_nil
  refine ⟨?_, (Nat.length_toDigits_le_iff (by decide) hpos).mp le_rfl⟩
  rcases Nat.eq_zero_or_pos ((Nat.toDigits 10 n).length - 1) with hzero | hmore
  · rw [hzero, pow_zero]
    exact Nat.pos_of_ne_zero hn
  · exact not_lt.mp fun h => by
      have := (Nat.length_toDigits_le_iff (by decide) hmore).mpr h
      omega

variable {rank : Nat}

/-- The digits of a scaled magnitude tell the powers of ten around it. -/
theorem magnitude_bounds (k : Nat) (hscaled : units rank * 10 ^ k / unitsPerOne ≠ 0) :
    let length := (Nat.toDigits 10 (units rank * 10 ^ k / unitsPerOne)).length
    10 ^ ((length : ℤ) - (k + 1)) ≤ magnitude rank ∧ magnitude rank < 10 ^ ((length : ℤ) - k) := by
  obtain ⟨hlow, hhigh⟩ := pow_le_of_length_toDigits hscaled
  have hlength : 0 < (Nat.toDigits 10 (units rank * 10 ^ k / unitsPerOne)).length :=
    List.length_pos_iff.mpr Nat.toDigits_ne_nil
  have hone := Binary64.unitsPerOne_pos
  have hscale : (0 : ℚ) < 10 ^ k := by positivity
  have hpos : 0 < unitsPerOne := Nat.cast_pos.mp hone
  rw [Nat.le_div_iff_mul_le hpos, ← Nat.cast_le (α := ℚ)] at hlow
  rw [Nat.div_lt_iff_lt_mul hpos, ← Nat.cast_lt (α := ℚ)] at hhigh
  dsimp only
  generalize (Nat.toDigits 10 (units rank * 10 ^ k / unitsPerOne)).length = length at *
  have hexponent : (length : ℤ) - (k + 1) = ((length - 1 : ℕ) : ℤ) - k := by omega
  push_cast at hlow hhigh
  rw [hexponent, zpow_sub₀ (by norm_num), zpow_sub₀ (by norm_num), zpow_natCast, zpow_natCast,
    zpow_natCast, magnitude]
  exact ⟨(div_le_div_iff₀ hscale hone).mpr hlow, (div_lt_div_iff₀ hone hscale).mpr hhigh⟩

/-- The leading exponent is that of the first significant digit. -/
theorem leadingExponent_spec (hrank : rank ≠ 0) :
    10 ^ leadingExponent rank ≤ magnitude rank ∧
      magnitude rank < 10 ^ (leadingExponent rank + 1) := by
  have hunits : 0 < units rank := Binary64.units_pos hrank
  have hpos : 0 < unitsPerOne := Nat.cast_pos.mp Binary64.unitsPerOne_pos
  have hscale : unitsPerOne ≤ Nat.pow 10 400 := by decide +kernel
  unfold leadingExponent
  -- The exponent of the scale becomes a variable, so that the power is never computed.
  generalize hk : 400 = k at hscale ⊢
  rw [Nat.pow_eq] at hscale ⊢
  have hscaled : units rank * 10 ^ k / unitsPerOne ≠ 0 :=
    (Nat.div_pos (hscale.trans (Nat.le_mul_of_pos_left _ hunits)) hpos).ne'
  have hbounds := magnitude_bounds k hscaled
  dsimp only at hbounds ⊢
  generalize (Nat.toDigits 10 (units rank * 10 ^ k / unitsPerOne)).length = length at *
  have hlow : (length : ℤ) - 401 = length - (k + 1) := by omega
  have hhigh : (length : ℤ) - 401 + 1 = length - k := by omega
  rw [hhigh, hlow]
  exact hbounds

/-! ## The first answer -/

/-- The answer is at most the upper neighbour, and if this has one digit more it is a power of
ten. -/
theorem hasDigits_of_readsBack? {leading : Int} (hleading : magnitude rank < 10 ^ (leading + 1))
    {k : Nat} {d : Decimal} (h : readsBack? rank (leading - k) = some d) :
    HasDigits (k + 1) d.toRat := by
  have hpow : toRat ⟨10 ^ (k + 1), leading - k⟩ = 10 ^ (leading + 1) := by
    have hshift : leading - k = leading + 1 - (k + 1 : Nat) := by omega
    rw [hshift, toRat_pow]
  have hsteps : steps rank (leading - k) < 10 ^ (k + 1) := by
    rw [← not_le, ← toRat_le_magnitude_iff, hpow, not_le]
    exact hleading
  rcases (readsBack?_eq_some h).1 with rfl | rfl
  · exact ⟨_, hsteps, rfl⟩
  · rcases Nat.lt_or_eq_of_le (Nat.succ_le_of_lt hsteps) with hlt | heq
    · exact ⟨_, hlt, rfl⟩
    · refine ⟨⟨1, leading + 1⟩, Nat.one_lt_pow (by omega) (by decide), ?_⟩
      rw [above, ← Nat.succ_eq_add_one, heq, hpow, toRat, Nat.cast_one, one_mul]

/-- The shortest decimal of a magnitude, with the number of its digits. -/
theorem shortest_isShortest (negative : Bool) {rank : Fin rankLimit} (hrank : rank.val ≠ 0) :
    ∃ count ≤ 17, IsShortest (.finite negative rank) negative (shortest rank).toRat count := by
  obtain ⟨hlow, hhigh⟩ := leadingExponent_spec hrank
  have hseventeen : readsBack? rank (leadingExponent rank - (16 : Nat)) ≠ none := by
    intro hnone
    refine (isBeyond_multiple rank _ _).rank_ne hnone (rank_nearest hrank ?_)
    rw [zpow_sub₀ (by norm_num), zpow_natCast, mul_div_cancel₀ _ (by norm_num)]
    exact hlow
  have hgrids : 16 < 1400 := by decide
  obtain ⟨i, hi, hanswer, hnone⟩ := firstAnswer_spec hgrids hseventeen
  have hvalue : (shortest rank).toRat =
      (firstAnswer (readsBack? rank) 1400 (leadingExponent rank)).toRat := toRat_strip _
  rw [hvalue]
  generalize firstAnswer (readsBack? rank) 1400 (leadingExponent rank) = d at *
  refine ⟨i + 1, by omega, ?_, ?_, ?_, ?_⟩
  · exact isRounded_iff.mpr ⟨rfl, (readsBack?_eq_some hanswer).2⟩
  · exact hasDigits_of_readsBack? hhigh hanswer
  · rintro other _ k ⟨d', hdigits, rfl⟩ hrounded
    obtain ⟨-, hd'⟩ := isRounded_iff.mp hrounded
    cases k with
    | zero => exact absurd (Nat.lt_one_iff.mp hdigits) (coefficient_ne_zero (by rwa [hd']))
    | succ k =>
      by_contra hfewer
      exact (isBeyond_of_lt_pow hlow hdigits).rank_ne (hnone k (by omega)) hd'
  · rintro other _ ⟨d', hdigits, rfl⟩ hrounded
    obtain ⟨-, hd'⟩ := isRounded_iff.mp hrounded
    rw [Binary64.abs_toRat]
    exact (isBeyond_of_lt_pow hlow hdigits).no_nearer hd' hanswer

/-- The decimal that a magnitude is written as. -/
def written (rank : Nat) : Decimal :=
  if rank = 0 then ⟨0, -1⟩ else shortest rank

/-- Zero is the decimal without a digit. -/
theorem zero_isShortest (negative : Bool) :
    IsShortest (Binary64.zero negative) negative (toRat ⟨0, -1⟩) 0 := by
  have hzero : toRat ⟨0, -1⟩ = 0 := by rw [toRat, Nat.cast_zero, zero_mul]
  have hrank : Decimal.rank ⟨0, -1⟩ = 0 := by
    rw [rank, Nat.zero_mul, Nat.zero_mul]
    exact Binary64.nearestRank_zero _
  refine ⟨isRounded_iff.mpr ⟨rfl, hrank⟩, ⟨⟨0, -1⟩, by decide, rfl⟩, fun _ _ k _ _ => k.zero_le,
    fun _ p _ _ => ?_⟩
  rw [hzero, Binary64.zero, Binary64.abs_toRat, Binary64.magnitude_zero, sub_zero, abs_zero]
  exact abs_nonneg _

/-- No magnitude needs more than seventeen digits. -/
theorem written_isShortest (negative : Bool) (rank : Fin rankLimit) :
    ∃ count ≤ 17, IsShortest (.finite negative rank) negative (written rank).toRat count := by
  rw [written]
  by_cases hrank : rank.val = 0
  · have hzero : .finite negative rank = Binary64.zero negative :=
      congrArg (Binary64.finite negative) (Fin.ext hrank)
    rw [if_pos hrank, hzero]
    exact ⟨0, by decide, zero_isShortest negative⟩
  · rw [if_neg hrank]
    exact shortest_isShortest negative hrank

theorem rank_written (rank : Fin rankLimit) : (written rank).rank = rank := by
  obtain ⟨_, -, hshortest⟩ := written_isShortest false rank
  exact (isRounded_iff.mp hshortest.rounded).2

end Decimal

end Reckoner
