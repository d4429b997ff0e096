import Mathlib.Analysis.SpecialFunctions.Pow.Real
import Reckoner.Binary64.Power
import Reckoner.Proofs.Binary64.Exact
import Reckoner.Proofs.Binary64.Reals

/-! Powers with the rank of the exact power. Raised to the power that removes the roots, the
exact power and the midpoints are quotients of integers, so their comparison is exact. A
binary search for the first midpoint that is not below the power gives its rank, and a bracket
that decides gives the same. -/
namespace Reckoner.Binary64

/-! ## Exponents -/

namespace DyadicFraction

/-- The fraction as a number. -/
def toRat (q : DyadicFraction) : ℚ :=
  q.numerator / 2 ^ q.roots

/-- Halving both keeps the quotient, and ends with an odd numerator or no root. -/
theorem reduce_spec (numerator roots : Nat) :
    (reduce numerator roots).numerator * 2 ^ roots =
        numerator * 2 ^ (reduce numerator roots).roots ∧
      ((reduce numerator roots).roots = 0 ∨ (reduce numerator roots).numerator % 2 = 1) := by
  induction roots generalizing numerator with
  | zero => exact ⟨rfl, .inl rfl⟩
  | succ roots ih =>
    rw [reduce]
    split
    · next heven =>
      obtain ⟨hvalue, hend⟩ := ih (numerator / 2)
      refine ⟨?_, hend⟩
      have hhalf : numerator / 2 * 2 = numerator := by omega
      rw [pow_succ, ← mul_assoc, hvalue, mul_right_comm, hhalf]
    · next hodd => exact ⟨rfl, .inr (Nat.mod_two_ne_zero.mp hodd)⟩

theorem toRat_ofRank (rank : Nat) : (ofRank rank).toRat = magnitude rank := by
  obtain ⟨k, hk, hone⟩ := unitsPerOne_eq
  have hvalue := (reduce_spec (units rank) k).1
  rw [ofRank, ← hk, toRat, magnitude, hone, div_eq_div_iff (by positivity) (by positivity)]
  exact_mod_cast hvalue

/-- An exponent without roots is an integer. -/
theorem roots_eq_zero_iff (rank : Nat) :
    (ofRank rank).roots = 0 ↔ ∃ n : ℤ, magnitude rank = n := by
  have hend : (ofRank rank).roots = 0 ∨ (ofRank rank).numerator % 2 = 1 :=
    (reduce_spec (units rank) 1074).2
  rw [← toRat_ofRank, toRat]
  constructor
  · intro hroots
    exact ⟨(ofRank rank).numerator, by rw [hroots, pow_zero, div_one, Int.cast_natCast]⟩
  · rintro ⟨n, hn⟩
    by_contra hroots
    -- An odd numerator is no multiple of two.
    have hodd := hend.resolve_left hroots
    rw [div_eq_iff (by positivity)] at hn
    have hnumerator : ((ofRank rank).numerator : ℤ) = n * 2 ^ (ofRank rank).roots := by
      exact_mod_cast hn
    obtain ⟨k, hk⟩ := Nat.exists_eq_succ_of_ne_zero hroots
    rw [hk, pow_succ, ← mul_assoc] at hnumerator
    omega

end DyadicFraction

/-! ## The exact power -/

namespace PowerProblem

variable {problem : PowerProblem}

/-- The exact power. -/
noncomputable def value (problem : PowerProblem) : ℝ :=
  let exponent : ℝ := problem.exponent.toRat
  (problem.baseUnits / unitsPerOne : ℝ) ^ (if problem.inverted then -exponent else exponent)

/-- The exact power as an integer power of the root of the base. -/
theorem exists_root (h : 0 < problem.baseUnits) :
    ∃ root : ℝ, 0 < root ∧
      root ^ 2 ^ problem.exponent.roots = problem.baseUnits / unitsPerOne ∧
      problem.value =
        if problem.inverted then (root ^ problem.exponent.numerator)⁻¹
        else root ^ problem.exponent.numerator := by
  rw [value]
  generalize hbase : (problem.baseUnits / unitsPerOne : ℝ) = base
  have hpos : 0 < base := hbase ▸ div_pos (Nat.cast_pos.mpr h) unitsPerOne_real_pos
  have hpower : (base ^ ((2 ^ problem.exponent.roots : ℕ) : ℝ)⁻¹) ^ problem.exponent.numerator =
      base ^ (problem.exponent.toRat : ℝ) := by
    rw [← Real.rpow_natCast, ← Real.rpow_mul hpos.le, inv_mul_eq_div, DyadicFraction.toRat]
    push_cast
    rfl
  refine ⟨base ^ ((2 ^ problem.exponent.roots : ℕ) : ℝ)⁻¹, Real.rpow_pos_of_pos hpos _,
    Real.rpow_inv_natCast_pow hpos.le (Nat.two_pow_pos _).ne', ?_⟩
  rw [hpower]
  split
  · exact Real.rpow_neg hpos.le _
  · rfl

/-! ## Brackets -/

/-- The exact power is in the bracket. -/
theorem bracket_encloses {precision : Nat} (hprecision : 0 < precision)
    (h : 0 < problem.baseUnits) :
    (problem.bracket precision).lower.toReal ≤ problem.value ∧
      problem.value ≤ (problem.bracket precision).upper.toReal := by
  obtain ⟨root, hroot, hbase, hvalue⟩ := exists_root h
  have hpoint : (Bracket.point ⟨problem.baseUnits, -1074⟩).Encloses
      (root ^ 2 ^ problem.exponent.roots) := by
    rw [hbase, ← Endpoint.toReal_units]
    exact .point h
  have hpower := (hpoint.repeatedSqrt hprecision hroot.le).power hprecision
    problem.exponent.numerator
  rw [bracket, hvalue]
  by_cases hinverted : problem.inverted = true
  · simp only [if_pos hinverted]
    exact hpower.inverse
  · simp only [if_neg hinverted]
    exact ⟨hpower.lower, hpower.upper⟩

/-! ## Exact comparison -/

/-- Numbers compare like the integers that their powers are on a common scale. -/
theorem scaled_iff {a b scale : ℝ} {m n k : ℕ} (ha : 0 ≤ a) (hb : 0 ≤ b) (hk : k ≠ 0)
    (hscale : 0 < scale) (hm : (m : ℝ) = a ^ k * scale) (hn : (n : ℝ) = b ^ k * scale) :
    (a < b ↔ m < n) ∧ (a = b ↔ m = n) := by
  rw [← Nat.cast_lt (α := ℝ), ← Nat.cast_inj (R := ℝ), hm, hn, mul_lt_mul_iff_left₀ hscale,
    mul_left_inj' hscale.ne', pow_lt_pow_iff_left₀ ha hb hk, pow_left_inj₀ ha hb hk]
  exact ⟨Iff.rfl, Iff.rfl⟩

/-- The integers that are compared compare like the exact power and the midpoint. -/
theorem compareMidpoint_spec (h : 0 < problem.baseUnits) (rank : Nat) :
    ∃ m n : ℕ, problem.compareMidpoint rank = compare m n ∧
      (problem.value < midpoint rank ↔ m < n) ∧ (problem.value = midpoint rank ↔ m = n) := by
  obtain ⟨root, hroot, hbase, hvalue⟩ := exists_root h
  have hone := unitsPerOne_real_pos
  have hunits : (0 : ℝ) < problem.baseUnits := Nat.cast_pos.mpr h
  have hk : 2 ^ problem.exponent.roots ≠ 0 := (Nat.two_pow_pos _).ne'
  have hpower : (root ^ problem.exponent.numerator) ^ 2 ^ problem.exponent.roots =
      (problem.baseUnits / unitsPerOne : ℝ) ^ problem.exponent.numerator := by
    rw [← hbase, ← pow_mul, ← pow_mul, mul_comm]
  rw [compareMidpoint, midpoint_eq, hvalue]
  simp only [Nat.pow_eq, Nat.one_shiftLeft]
  -- All that could be computed becomes a variable.
  generalize 2 ^ problem.exponent.roots = k at *
  generalize problem.exponent.numerator = n at *
  generalize units rank + units (rank + 1) = middle
  generalize unitsPerOne = one at *
  have hmiddle : (0 : ℝ) ≤ middle / (2 * one) := by positivity
  by_cases hinverted : problem.inverted = true
  · rw [if_pos hinverted, if_pos hinverted]
    refine ⟨_, _, rfl, scaled_iff (by positivity) hmiddle hk
      (mul_pos (pow_pos hunits n) (pow_pos (mul_pos two_pos hone) k)) ?_ ?_⟩
    · rw [inv_pow, hpower, div_pow]
      push_cast
      field_simp
    · rw [div_pow]
      push_cast
      field_simp
  · rw [if_neg hinverted, if_neg hinverted]
    refine ⟨_, _, rfl, scaled_iff (by positivity) hmiddle hk
      (mul_pos (pow_pos hone n) (pow_pos (mul_pos two_pos hone) k)) ?_ ?_⟩
    · rw [hpower, div_pow]
      push_cast
      field_simp
    · rw [div_pow]
      push_cast
      field_simp

theorem roundsAtMost_iff (h : 0 < problem.baseUnits) (rank : Nat) :
    problem.roundsAtMost rank = true ↔ RoundsAtMost problem.value rank := by
  obtain ⟨m, n, hcompare, hless, heq⟩ := compareMidpoint_spec h rank
  rw [roundsAtMost, hcompare, RoundsAtMost, hless, heq]
  cases horder : compare m n with
  | lt => simp [Nat.compare_eq_lt.mp horder]
  | eq => simp [Nat.compare_eq_eq.mp horder]
  | gt =>
    have hgreater := Nat.compare_eq_gt.mp horder
    simp only [Bool.false_eq_true, false_iff]
    omega

/-- The search finds the first number that meets the condition. -/
theorem least_spec {condition : Nat → Bool} {bits base : Nat}
    (hmono : ∀ m n, m ≤ n → condition m = true → condition n = true)
    (hlast : condition (base + 2 ^ bits - 1) = true) :
    base ≤ least condition bits base ∧
      ∀ n, base ≤ n → (least condition bits base ≤ n ↔ condition n = true) := by
  induction bits generalizing base with
  | zero =>
    refine ⟨le_rfl, fun n hn => iff_of_true hn (hmono _ n ?_ hlast)⟩
    omega
  | succ bits ih =>
    have hpos := Nat.two_pow_pos bits
    rw [least, Nat.one_shiftLeft]
    rw [pow_succ] at hlast
    split
    · next hmid => exact ih hmid
    · next hmid =>
      -- No number of the lower half meets the condition, as its last one does not.
      have hend : base + 2 ^ bits + 2 ^ bits - 1 = base + 2 ^ bits * 2 - 1 := by omega
      obtain ⟨hle, hleast⟩ := ih (hend ▸ hlast)
      refine ⟨by omega, fun n hn => ?_⟩
      by_cases hupper : base + 2 ^ bits ≤ n
      · exact hleast n hupper
      · exact iff_of_false (by omega) fun hn => hmid (hmono n _ (by omega) hn)

theorem exactRank_hasRank (h : 0 < problem.baseUnits) :
    HasRank problem.value problem.exactRank := by
  have hcondition (n : Nat) : (decide (rankLimit ≤ n) || problem.roundsAtMost n) = true ↔
      rankLimit ≤ n ∨ RoundsAtMost problem.value n := by
    rw [Bool.or_eq_true, decide_eq_true_iff, roundsAtMost_iff h]
  have hlast : rankLimit ≤ 0 + 2 ^ 63 - 1 := by decide
  obtain ⟨-, hleast⟩ := least_spec
    (fun m n hle hm => (hcondition n).mpr
      (((hcondition m).mp hm).imp (·.trans hle) (·.mono hle)))
    ((hcondition _).mpr (.inl hlast))
  constructor
  · exact (hleast rankLimit (Nat.zero_le _)).mpr ((hcondition _).mpr (.inl le_rfl))
  · intro rank hrank
    rw [exactRank, hleast rank (Nat.zero_le _), hcondition, or_iff_right (not_le.mpr hrank)]

/-- The rank is that of the exact power. -/
theorem rank_hasRank (h : 0 < problem.baseUnits) : HasRank problem.value problem.rank := by
  rw [rank]
  split
  · next rank hfound =>
    obtain ⟨precision, hmem, hrank⟩ := List.exists_of_findSome?_eq_some hfound
    have hprecision : ∀ n ∈ [128, 256, 512, 1024, 2048, 4096], 0 < n := by decide
    obtain ⟨hlower, hupper⟩ := bracket_encloses (hprecision precision hmem) h
    exact Bracket.rank?_hasRank hrank hlower hupper
  · exact exactRank_hasRank h

end PowerProblem

/-! ## The power of finite numbers -/

/-- The power has no finite value: the base is below zero and the exponent is no integer, or
the exact power is rounded to infinity, as it is from the midpoint above the largest finite
number on. -/
def IsUndefinedPower (x y : Binary64) : Prop :=
  (x.toRat < 0 ∧ ¬ ∃ n : ℤ, y.toRat = n) ∨
    (2 ^ 1024 - 2 ^ 970 : ℚ) ≤ |(x.toRat : ℝ)| ^ (y.toRat : ℝ)

/-- A finite number with the rank of the exact power, unless this is undefined. -/
def IsPower (x y : Binary64) : Option Binary64 → Prop
  | none => IsUndefinedPower x y
  | some z => ¬ IsUndefinedPower x y ∧
      ∃ negative rank, z = .finite negative rank ∧ HasRank (|(x.toRat : ℝ)| ^ (y.toRat : ℝ)) rank

variable {x y : Binary64} {n : Nat}

/-- Where the base is not below zero or the exponent is an integer, the rank of the exact power
decides. -/
theorem isPower_of_hasRank (hdefined : x.toRat < 0 → ∃ n : ℤ, y.toRat = n) (negative : Bool)
    (h : HasRank (|(x.toRat : ℝ)| ^ (y.toRat : ℝ)) n) :
    IsPower x y (if h : n < rankLimit then some (.finite negative ⟨n, h⟩) else none) := by
  have hundefined : IsUndefinedPower x y ↔ ¬ n < rankLimit := by
    rw [IsUndefinedPower, or_iff_right fun hboth => hboth.2 (hdefined hboth.1),
      h.lt_rankLimit_iff, not_lt]
  split
  · next hn => exact ⟨fun hnot => hundefined.mp hnot hn, negative, ⟨n, hn⟩, rfl, h⟩
  · next hn => exact hundefined.mpr hn

theorem isPower_some (hdefined : x.toRat < 0 → ∃ n : ℤ, y.toRat = n) (negative : Bool)
    {rank : Fin rankLimit} (h : HasRank (|(x.toRat : ℝ)| ^ (y.toRat : ℝ)) rank) :
    IsPower x y (some (.finite negative rank)) := by
  have hpower := isPower_of_hasRank hdefined negative h
  rwa [dif_pos rank.isLt] at hpower

theorem hasRank_one : HasRank 1 rankOfOne := by
  have hplace : 1022 * 2 ^ 52 + 2 ^ 52 = rankOfOne := by decide
  have hscale : ((2 ^ 52 : ℕ) : ℚ) * 2 ^ (((1022 : ℕ) : ℤ) - 1074) = 1 := by
    norm_num
  have hone : magnitude (1022 * 2 ^ 52 + 2 ^ 52) = 1 :=
    (magnitude_binade (by decide) (.inr le_rfl)).trans hscale
  have hrank := (magnitude_roundsTo (1022 * 2 ^ 52 + 2 ^ 52)).hasRank
  rw [hone, Rat.cast_one, hplace] at hrank
  exact hrank

theorem toRat_zero_rank (s : Bool) {rank : Fin rankLimit} (h : rank.val = 0) :
    toRat (.finite s rank) = 0 := by
  rw [← abs_eq_zero, abs_toRat, h, magnitude_zero]

/-- A number is an integer exactly if its fraction has no roots. -/
theorem isInteger_iff (t : Bool) (rank : Fin rankLimit) :
    (∃ n : ℤ, toRat (.finite t rank) = n) ↔ (DyadicFraction.ofRank rank).roots = 0 := by
  rw [DyadicFraction.roots_eq_zero_iff]
  cases t with
  | false => rfl
  | true =>
    constructor <;> rintro ⟨n, hn⟩ <;> refine ⟨-n, ?_⟩
    · rw [Int.cast_neg, ← hn, toRat, if_pos rfl, neg_neg]
    · rw [Int.cast_neg, ← hn, toRat, if_pos rfl]

/-- The exact power of the magnitude of the base, signed exponent included. -/
theorem value_finite (s t : Bool) (i j : Fin rankLimit) :
    PowerProblem.value ⟨units i, t, DyadicFraction.ofRank j⟩ =
      |(toRat (.finite s i) : ℝ)| ^ (toRat (.finite t j) : ℝ) := by
  have hbase : |(toRat (.finite s i) : ℝ)| = units i / unitsPerOne := by
    rw [← Rat.cast_abs, abs_toRat, magnitude, Rat.cast_div, Rat.cast_natCast, Rat.cast_natCast]
  rw [PowerProblem.value, hbase, DyadicFraction.toRat_ofRank, toRat, apply_ite Rat.cast,
    Rat.cast_neg]

/-- The power of finite numbers has the rank of the exact one, but for the inverse of zero. -/
theorem power?_isPower {s t : Bool} {i j : Fin rankLimit}
    (hinverse : ¬ (i.val = 0 ∧ t = true ∧ j.val ≠ 0)) :
    IsPower (.finite s i) (.finite t j) (power? (.finite s i) (.finite t j)) := by
  rw [power?]
  by_cases hone : j.val = 0
  · rw [if_pos hone]
    have hexponent := toRat_zero_rank t hone
    refine isPower_some (fun _ => ⟨0, hexponent.trans Int.cast_zero.symm⟩) false ?_
    rw [hexponent, Rat.cast_zero, Real.rpow_zero]
    exact hasRank_one
  rw [if_neg hone]
  by_cases hzero : i.val = 0
  · have hsign : ¬ t = true := fun ht => hinverse ⟨hzero, ht, hone⟩
    have hbase := toRat_zero_rank s hzero
    have hexponent : (toRat (.finite t j) : ℝ) ≠ 0 := by
      rw [toRat, if_neg hsign, Rat.cast_ne_zero]
      exact (magnitude_pos hone).ne'
    rw [if_pos hzero, if_neg hsign]
    refine isPower_some (fun hneg => absurd hneg hbase.not_lt) _ ?_
    rw [hbase, Rat.cast_zero, abs_zero, Real.zero_rpow hexponent]
    exact hasRank_zero (zpow_pos two_pos _)
  rw [if_neg hzero]
  have hinteger := isInteger_iff t j
  split
  · next hroots =>
    rw [Bool.and_eq_true, bne_iff_ne] at hroots
    refine .inl ⟨?_, mt hinteger.mp hroots.2⟩
    rw [toRat, if_pos hroots.1]
    exact neg_neg_of_pos (magnitude_pos hzero)
  · next hroots =>
    refine isPower_of_hasRank (fun hneg => hinteger.mpr ?_) _ ?_
    · have hsign : s = true := by
        by_contra hs
        rw [toRat, if_neg hs] at hneg
        exact hneg.not_ge (magnitude_nonneg i)
      rwa [hsign, Bool.true_and, bne_iff_ne, not_not] at hroots
    · rw [← value_finite]
      exact PowerProblem.rank_hasRank (units_pos hzero)

end Reckoner.Binary64
