import Reckoner.Proofs.Decimal.Figures
import Reckoner.Proofs.Decimal.Shortest

/-! The text of a finite number spells it: positional or with an exponent, the figures
have the value of the shortest decimal, which has the rank of the number. The exponent is
that of the first digit, and tells which of the two it is. -/
namespace Reckoner

namespace Binary64

/-- The text, behind the sign, spells the decimal with this power of ten. It has a point if
it has none. -/
def Writes (negative : Bool) (d : Decimal) (power : Option Int) (cs : List Char) : Prop :=
  ∃ n : Figures, n.Spells (signChars negative ++ cs) ∧ n.negative = negative ∧
    n.exponent = power ∧ (n.fraction = none → power ≠ none) ∧ n.decimal.toRat = d.toRat

section

variable (negative : Bool) {coefficient : Nat} {exponent : Int}

/-- Parts that are not a whole number alone write the rank of their decimal. -/
theorem writes_of_parts {whole fs es : List Char} {fraction : Option (List Char)}
    {power : Option Int} (hwhole : Figures.IsWhole whole)
    (hfraction : Figures.FractionText fraction fs) (hpower : Figures.ExponentText power es)
    (hpoint : fraction = none → power ≠ none)
    (hcoefficient : Nat.ofDigitChars 10 (whole ++ fraction.getD []) 0 = coefficient)
    (hexponent : power.getD 0 - (fraction.getD []).length = exponent) :
    Writes negative ⟨coefficient, exponent⟩ power (whole ++ (fs ++ es)) := by
  refine ⟨⟨negative, whole, fraction, power⟩, .parts hwhole hfraction hpower, rfl, rfl, hpoint, ?_⟩
  rw [← hcoefficient, ← hexponent]
  rfl

/-! ## Positional text -/

theorem writes_of_point {whole fraction : List Char} (hwhole : Figures.IsWhole whole)
    (hfraction : Figures.IsDigits fraction)
    (hcoefficient : Nat.ofDigitChars 10 (whole ++ fraction) 0 = coefficient)
    (hexponent : exponent = -fraction.length) :
    Writes negative ⟨coefficient, exponent⟩ none (whole ++ '.' :: fraction) := by
  have hwrites := writes_of_parts negative hwhole (.present hfraction) .absent (by simp)
    hcoefficient rfl
  rw [List.append_nil, Option.getD_none, Option.getD_some, Int.zero_sub, ← hexponent] at hwrites
  exact hwrites

/-- Below one, zeros stand between the point and the digits. -/
theorem writes_below_one (k : Nat)
    (hexponent : exponent = -(k + (Nat.toDigits 10 coefficient).length : Nat)) :
    Writes negative ⟨coefficient, exponent⟩ none
      ('0' :: '.' :: (List.replicate k '0' ++ Nat.toDigits 10 coefficient)) := by
  have hzero : Figures.IsWhole ['0'] := Figures.isWhole_digit (by decide)
  refine writes_of_point negative hzero ((Figures.isDigits_toDigits coefficient).zeros k) ?_
    (by simpa using hexponent)
  exact Figures.ofDigitChars_zeros (k + 1) coefficient

/-- A whole number is filled with zeros up to the point, and one stands behind it. -/
theorem writes_filled (hne : coefficient ≠ 0) (k : Nat) :
    Writes negative ⟨coefficient, k⟩ none
      (Nat.toDigits 10 coefficient ++ List.replicate k '0' ++ ['.', '0']) := by
  have hdigits := Figures.isDigits_toDigits coefficient
  have hwhole : Figures.IsWhole (Nat.toDigits 10 coefficient ++ List.replicate k '0') := by
    obtain ⟨c, hc, -⟩ := hdigits.head?
    refine ⟨⟨by simp [hdigits.1], List.forall_mem_append.mpr
      ⟨hdigits.2, Figures.isDigit_replicate_zero k⟩⟩, fun h => ?_⟩
    rw [List.head?_append, hc] at h
    exact absurd (hc.trans h) (Figures.head?_toDigits_ne hne)
  have hzero : Figures.IsDigits ['0'] := (Figures.isWhole_digit (by decide)).1
  rw [Writes, ← Decimal.toRat_mul_pow coefficient k (k + 1)]
  refine writes_of_point negative hwhole hzero ?_ (by simp only [List.length_singleton]; omega)
  rw [List.append_assoc, ← List.replicate_succ', Nat.ofDigitChars_append,
    Nat.ofDigitChars_ten_toDigits, Nat.ofDigitChars_replicate_zero, Nat.mul_comm]

/-- Digits on both sides of the point. -/
theorem writes_divided (hne : coefficient ≠ 0) {whole : Nat} (hpos : 0 < whole)
    (hlt : whole < (Nat.toDigits 10 coefficient).length)
    (hexponent : exponent = whole - (Nat.toDigits 10 coefficient).length) :
    Writes negative ⟨coefficient, exponent⟩ none
      ((Nat.toDigits 10 coefficient).take whole ++
        '.' :: (Nat.toDigits 10 coefficient).drop whole) := by
  obtain ⟨-, hmem⟩ := Figures.isDigits_toDigits coefficient
  refine writes_of_point negative ⟨⟨?_, fun c hc => hmem c (List.mem_of_mem_take hc)⟩, fun h => ?_⟩
    ⟨?_, fun c hc => hmem c (List.mem_of_mem_drop hc)⟩ ?_ ?_
  · rw [← List.length_pos_iff, List.length_take]
    omega
  · rw [List.head?_take, if_neg (by omega)] at h
    exact absurd h (Figures.head?_toDigits_ne hne)
  · rw [← List.length_pos_iff, List.length_drop]
    omega
  · rw [List.take_append_drop, Nat.ofDigitChars_ten_toDigits]
  · rw [List.length_drop]
    omega

theorem writes_positional (hne : coefficient ≠ 0) (exponent : Int) :
    Writes negative ⟨coefficient, exponent⟩ none
      (positional (Nat.toDigits 10 coefficient)
        (exponent + (Nat.toDigits 10 coefficient).length - 1)) := by
  generalize hleading : exponent + (Nat.toDigits 10 coefficient).length - 1 = leading
  unfold positional
  split
  · exact writes_below_one negative _ (by omega)
  · dsimp only
    generalize hwhole : leading.toNat + 1 = whole
    by_cases hlength : (Nat.toDigits 10 coefficient).length ≤ whole
    · obtain ⟨k, rfl⟩ : ∃ k : Nat, exponent = k := ⟨exponent.toNat, by omega⟩
      have hzeros : whole - (Nat.toDigits 10 coefficient).length = k := by omega
      have hfilled : (Nat.toDigits 10 coefficient ++ List.replicate k '0').length ≤ whole := by
        rw [List.length_append, List.length_replicate]
        omega
      rw [hzeros, List.take_of_length_le hfilled, List.drop_eq_nil_of_le hfilled, if_pos rfl]
      exact writes_filled negative hne k
    · have hzeros : whole - (Nat.toDigits 10 coefficient).length = 0 := by omega
      have hdrop : (Nat.toDigits 10 coefficient).drop whole ≠ [] := by
        rw [← List.length_pos_iff, List.length_drop]
        omega
      rw [hzeros, List.replicate_zero, List.append_nil, if_neg hdrop]
      exact writes_divided negative hne (by omega) (by omega) (by omega)

/-! ## Text with an exponent -/

theorem exponentPart_text (exponent : Int) :
    Figures.ExponentText (some exponent) ('e' :: exponentPart exponent) := by
  have hdigits := (Figures.isDigits_toDigits exponent.natAbs).zeros
    (2 - (Nat.toDigits 10 exponent.natAbs).length)
  have hvalue := Figures.ofDigitChars_zeros (2 - (Nat.toDigits 10 exponent.natAbs).length)
    exponent.natAbs
  have hsign : Figures.SignText (exponent < 0) [if exponent < 0 then '-' else '+'] := by
    by_cases hneg : exponent < 0
    · rw [decide_eq_true hneg, if_pos hneg]
      exact .minus
    · rw [decide_eq_false hneg, if_neg hneg]
      exact .plus
  have htext := Figures.ExponentText.present (.inl rfl) hsign hdigits
  rw [hvalue, Figures.signed_natAbs] at htext
  exact htext

theorem writes_scientific (coefficient : Nat) (exponent : Int) :
    Writes negative ⟨coefficient, exponent⟩
      (some (exponent + (Nat.toDigits 10 coefficient).length - 1))
      (scientific (Nat.toDigits 10 coefficient)
        (exponent + (Nat.toDigits 10 coefficient).length - 1)) := by
  obtain ⟨hdigits, hmem⟩ := Figures.isDigits_toDigits coefficient
  have hvalue := Nat.ofDigitChars_ten_toDigits (n := coefficient)
  have hpower := exponentPart_text (exponent + (Nat.toDigits 10 coefficient).length - 1)
  unfold scientific
  generalize Nat.toDigits 10 coefficient = digits at *
  obtain ⟨d, ds, rfl⟩ := List.exists_cons_of_ne_nil hdigits
  have hwhole : Figures.IsWhole [d] := Figures.isWhole_digit (hmem d (by simp))
  cases ds with
  | nil => exact writes_of_parts negative hwhole .absent hpower (by simp) hvalue (by simp)
  | cons e ds =>
    have hfraction : Figures.IsDigits (e :: ds) :=
      ⟨by simp, fun c hc => hmem c (List.mem_cons_of_mem d hc)⟩
    have hexponent : exponent + (d :: e :: ds).length - 1 - (e :: ds).length = exponent := by
      simp only [List.length_cons]
      omega
    have hwrites := writes_of_parts negative hwhole (.present hfraction) hpower (by simp) hvalue
      hexponent
    simpa using hwrites

end

/-! ## All numbers -/

/-- The power of ten of the first digit. -/
def leadingPower (d : Decimal) : Int :=
  d.exponent + (Nat.toDigits 10 d.coefficient).length - 1

/-- It is written behind the digits, if they are not positional. -/
def writtenPower (d : Decimal) : Option Int :=
  if isPositional (leadingPower d) then none else some (leadingPower d)

/-- The text of a decimal that is not zero. -/
theorem writes_decimal (negative : Bool) {d : Decimal} (hne : d.coefficient ≠ 0) :
    Writes negative d (writtenPower d)
      (if isPositional (leadingPower d) then positional (Nat.toDigits 10 d.coefficient) (leadingPower d)
        else scientific (Nat.toDigits 10 d.coefficient) (leadingPower d)) := by
  rw [writtenPower]
  by_cases hpositional : isPositional (leadingPower d) = true
  · rw [if_pos hpositional, if_pos hpositional]
    exact writes_positional negative hne d.exponent
  · rw [if_neg hpositional, if_neg hpositional]
    exact writes_scientific negative d.coefficient d.exponent

theorem magnitudeChars_decimal {rank : Nat} (hrank : rank ≠ 0) :
    magnitudeChars rank =
      if isPositional (leadingPower (.shortest rank)) then
        positional (Nat.toDigits 10 (Decimal.shortest rank).coefficient)
          (leadingPower (.shortest rank))
      else
        scientific (Nat.toDigits 10 (Decimal.shortest rank).coefficient)
          (leadingPower (.shortest rank)) :=
  if_neg hrank

theorem writes_magnitude (negative : Bool) (rank : Fin rankLimit) :
    Writes negative (Decimal.written rank) (writtenPower (Decimal.written rank))
      (magnitudeChars rank) := by
  have hrank := Decimal.rank_written rank
  by_cases hzero : rank.val = 0
  · rw [hzero]
    have hwhole : Figures.IsWhole ['0'] := Figures.isWhole_digit (by decide)
    exact writes_of_point negative hwhole hwhole.1 (by decide) rfl
  · rw [Decimal.written, if_neg hzero] at hrank ⊢
    rw [magnitudeChars_decimal hzero]
    exact writes_decimal negative (Decimal.coefficient_ne_zero (by rwa [hrank]))

/-- Figures with a point or a power of ten are a float, that of the rank they are written
from. -/
theorem value_written {n : Figures} {rank : Fin rankLimit}
    (hpoint : n.fraction = none → n.exponent ≠ none)
    (hvalue : n.decimal.toRat = (Decimal.written rank).toRat) :
    n.value = .float (.finite n.negative rank) := by
  rw [Figures.value, if_neg fun hwhole => hpoint hwhole.1 hwhole.2, Decimal.rank_congr hvalue,
    Decimal.rank_written, ofRank, dif_pos rank.isLt]

/-- The text of a finite number spells it. -/
theorem finite_spelled (negative : Bool) (rank : Fin rankLimit) :
    ∃ n : Figures, n.Spells (chars (.finite negative rank)) ∧
      n.value = .float (.finite negative rank) := by
  obtain ⟨n, hspells, rfl, hexponent, hpoint, hvalue⟩ := writes_magnitude negative rank
  exact ⟨n, hspells, value_written (hexponent ▸ hpoint) hvalue⟩

end Binary64

end Reckoner
