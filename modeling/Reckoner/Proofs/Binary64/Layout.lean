import Mathlib.Data.Int.Log
import Mathlib.Data.Rat.Floor
import Reckoner.Proofs.Binary64.Text

/-! The layout of a finite number. Its text is the shortest decimal that is rounded to the
number, around a point if the power of ten of the first digit is at least -4 and below 16, and
else with this power behind it. -/
namespace Reckoner

namespace Figures

/-- A sign if there is one, and digits on both sides of a point. -/
def IsPositional (cs : List Char) : Prop :=
  ∃ negative whole fraction, IsDigits whole ∧ IsDigits fraction ∧
    cs = Binary64.signChars negative ++ (whole ++ '.' :: fraction)

/-- A sign if there is one, a digit, more of them behind a point if there are more, and the
power of ten, with a sign and at least two digits. -/
def IsScientific (power : Int) (cs : List Char) : Prop :=
  ∃ negative first fraction fs below ds, first.isDigit = true ∧ FractionText fraction fs ∧
    IsDigits ds ∧ 2 ≤ ds.length ∧ signed below (Nat.ofDigitChars 10 ds 0) = power ∧
    cs = Binary64.signChars negative ++
      (first :: (fs ++ 'e' :: (if below then '-' else '+') :: ds))

variable {cs : List Char} {power : Int}

theorem IsPositional.not_mem (h : IsPositional cs) : 'e' ∉ cs := by
  obtain ⟨negative, whole, fraction, hwhole, hfraction, rfl⟩ := h
  have hdigits {ds : List Char} (hds : IsDigits ds) : 'e' ∉ ds := fun hmem =>
    absurd (hds.2 'e' hmem) (by decide)
  have hsign : 'e' ∉ Binary64.signChars negative := by cases negative <;> decide
  simp [hsign, hdigits hwhole, hdigits hfraction]

theorem IsScientific.mem (h : IsScientific power cs) : 'e' ∈ cs := by
  obtain ⟨negative, first, fraction, fs, below, ds, -, -, -, -, -, rfl⟩ := h
  simp

theorem Spells.isPositional {n : Figures} (h : n.Spells cs) (hpower : n.exponent = none)
    (hpoint : n.fraction ≠ none) : IsPositional cs := by
  obtain @⟨negative, whole, fraction, exponent, fs, es, hwhole, hfraction, hexponent⟩ := h
  cases hexponent with
  | present => cases hpower
  | absent =>
    cases hfraction with
    | absent => exact absurd rfl hpoint
    | present hds =>
      rw [List.append_nil]
      exact ⟨negative, whole, _, hwhole.1, hds, rfl⟩

end Figures

namespace Binary64

open Figures (IsPositional IsScientific)

theorem scientific_isScientific (negative : Bool) {digits : List Char}
    (hdigits : Figures.IsDigits digits) (exponent : Int) :
    IsScientific exponent (signChars negative ++ scientific digits exponent) := by
  obtain ⟨hne, hmem⟩ := hdigits
  obtain ⟨first, rest, rfl⟩ := List.exists_cons_of_ne_nil hne
  obtain ⟨hfirst, hrest⟩ := List.forall_mem_cons.mp hmem
  have hvalue := Figures.ofDigitChars_zeros (2 - (Nat.toDigits 10 exponent.natAbs).length)
    exponent.natAbs
  refine ⟨negative, first, if rest = [] then none else some rest,
    if rest = [] then [] else '.' :: rest, exponent < 0,
    List.replicate (2 - (Nat.toDigits 10 exponent.natAbs).length) '0' ++
      Nat.toDigits 10 exponent.natAbs, hfirst, ?_,
    (Figures.isDigits_toDigits exponent.natAbs).zeros _, ?_, ?_, ?_⟩
  · split
    · exact .absent
    · next hmore => exact .present ⟨hmore, hrest⟩
  · rw [List.length_append, List.length_replicate]
    omega
  · rw [hvalue, Figures.signed_natAbs]
  · simp [scientific, exponentPart]

/-! ## The power of ten of the first digit -/

theorem log_toRat {d : Decimal} (hne : d.coefficient ≠ 0) : Int.log 10 d.toRat = leadingPower d := by
  obtain ⟨hlow, hhigh⟩ := Decimal.pow_le_of_length_toDigits hne
  have hlength : 0 < (Nat.toDigits 10 d.coefficient).length :=
    List.length_pos_iff.mpr Nat.toDigits_ne_nil
  have hstep : (0 : ℚ) < 10 ^ d.exponent := zpow_pos (by norm_num) _
  have hpos : 0 < d.toRat := mul_pos (Nat.cast_pos.mpr (Nat.pos_of_ne_zero hne)) hstep
  have hpow (k : Nat) : (10 : ℚ) ^ k * 10 ^ d.exponent = (10 : ℕ) ^ (d.exponent + k) := by
    rw [Nat.cast_ofNat, zpow_add₀ (by norm_num), zpow_natCast, mul_comm]
  apply le_antisymm
  · have hlt : d.toRat < (10 : ℕ) ^ (d.exponent + (Nat.toDigits 10 d.coefficient).length) := by
      rw [← hpow, Decimal.toRat, mul_lt_mul_iff_left₀ hstep]
      exact_mod_cast hhigh
    have := (Int.lt_zpow_iff_log_lt (by decide) hpos).mp hlt
    rw [leadingPower]
    omega
  · rw [← Int.zpow_le_iff_le_log (by decide) hpos]
    have hpower : leadingPower d =
        d.exponent + ((Nat.toDigits 10 d.coefficient).length - 1 : ℕ) := by
      rw [leadingPower]
      omega
    rw [hpower, ← hpow, Decimal.toRat, mul_le_mul_iff_left₀ hstep]
    exact_mod_cast hlow

/-- The layout of a magnitude follows the power of ten of its decimal. That of zero counts
as zero. -/
theorem magnitude_layout (negative : Bool) (rank : Fin rankLimit) :
    let power := Int.log 10 (Decimal.written rank).toRat
    let text := signChars negative ++ magnitudeChars rank
    (-4 ≤ power ∧ power < 16 → IsPositional text) ∧
      (¬ (-4 ≤ power ∧ power < 16) → IsScientific power text) := by
  intro power text
  obtain ⟨n, hspells, -, hexponent, hpoint, -⟩ := writes_magnitude negative rank
  have hpositional (hpower : writtenPower (Decimal.written rank) = none) : IsPositional text :=
    hspells.isPositional (hexponent.trans hpower) fun hfraction => hpoint hfraction hpower
  by_cases hzero : rank.val = 0
  · have hvalue : (Decimal.written rank).toRat = 0 := by
      rw [Decimal.written, if_pos hzero, Decimal.toRat, Nat.cast_zero, zero_mul]
    have hrange : -4 ≤ power ∧ power < 16 := by
      have hpower : power = 0 := by rw [← Int.log_zero_right 10 (R := ℚ), ← hvalue]
      omega
    refine ⟨fun _ => hpositional ?_, fun hnot => absurd hrange hnot⟩
    rw [Decimal.written, if_pos hzero]
    decide
  · have hrank := Decimal.rank_written rank
    have hne : (Decimal.written rank).coefficient ≠ 0 :=
      Decimal.coefficient_ne_zero (by rwa [hrank])
    have hpower : power = leadingPower (Decimal.written rank) := log_toRat hne
    have hiff : isPositional (leadingPower (Decimal.written rank)) = true ↔
        -4 ≤ power ∧ power < 16 := by
      simp [isPositional, hpower]
    refine ⟨fun hrange => hpositional (if_pos (hiff.mpr hrange)), fun hnot => ?_⟩
    have hscientific := mt hiff.mp hnot
    rw [hpower]
    rw [Decimal.written, if_neg hzero] at hscientific ⊢
    have htext : text = signChars negative ++
        scientific (Nat.toDigits 10 (Decimal.shortest rank).coefficient)
          (leadingPower (Decimal.shortest rank)) :=
      congrArg _ ((magnitudeChars_decimal hzero).trans (if_neg hscientific))
    rw [htext]
    exact scientific_isScientific negative (Figures.isDigits_toDigits _) _

/-- The text of a finite number is a decimal that is rounded to it, sign included. It has as
few digits as any that is, at most seventeen, and is the nearest of those with as many. It is
written around a point if the power of ten of its first digit is in the range for this, which
zero counts to, and else with this power behind it. -/
theorem text_isShortest (negative : Bool) (rank : Fin rankLimit) :
    let x := finite negative rank
    let text := (Value.float x).text.toList
    ∃ (n : Figures) (count : Nat), n.Spells text ∧ n.value = .float x ∧ count ≤ 17 ∧
      Decimal.IsShortest x n.negative n.decimal.toRat count ∧
      (IsPositional text ↔
        -4 ≤ Int.log 10 n.decimal.toRat ∧ Int.log 10 n.decimal.toRat < 16) ∧
      (¬ (-4 ≤ Int.log 10 n.decimal.toRat ∧ Int.log 10 n.decimal.toRat < 16) →
        IsScientific (Int.log 10 n.decimal.toRat) text) := by
  intro x text
  have htext : text = signChars negative ++ magnitudeChars rank := String.toList_ofList
  obtain ⟨count, hcount, hshortest⟩ := Decimal.written_isShortest negative rank
  obtain ⟨hpositional, hscientific⟩ := magnitude_layout negative rank
  obtain ⟨n, hspells, hnegative, hexponent, hpoint, hvalue⟩ := writes_magnitude negative rank
  rw [htext]
  refine ⟨n, count, hspells, ?_, hcount, ?_, ?_, ?_⟩
  · rw [value_written (hexponent ▸ hpoint) hvalue, hnegative]
  · rwa [hnegative, hvalue]
  · rw [hvalue]
    refine ⟨fun h => not_not.mp fun hnot => ?_, hpositional⟩
    exact h.not_mem (hscientific hnot).mem
  · rwa [hvalue]

end Binary64

end Reckoner
