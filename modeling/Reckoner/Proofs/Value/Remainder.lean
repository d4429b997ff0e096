import Reckoner.Proofs.Binary64.Exact
import Reckoner.Proofs.Value.Quotient

/-! The remainder of floats. It is exact, however large the quotient: what the truncated
quotient leaves is again a number of the format, with the sign of the dividend. An infinite
divisor leaves the dividend as it is, and all else is undefined. -/
namespace Reckoner

namespace Binary64

/-- The remainder of a float and a divisor other than zero. -/
inductive IsRemainder : Binary64 → Binary64 → Binary64 → Prop
  /-- What the truncated quotient leaves, with the sign of the dividend also where it is
  zero. -/
  | finite {s t : Bool} {a b c : Fin rankLimit}
      (law : toRat (.finite s a) =
        truncated (toRat (.finite s a) / toRat (.finite t b)) * toRat (.finite t b) +
          toRat (.finite s c))
      (less : |toRat (.finite s c)| < |toRat (.finite t b)|) :
      IsRemainder (.finite s a) (.finite t b) (.finite s c)
  | infiniteDivisor (s : Bool) (a : Fin rankLimit) (t : Bool) :
      IsRemainder (.finite s a) (.infinite t) (.finite s a)
  | undefined {x y : Binary64} (h : x.isFinite = false ∨ y = .nan) : IsRemainder x y .nan

theorem signedUnits_mod (s t : Bool) (m n : Nat) :
    signedUnits s (m % n) = (signedUnits s m).tmod (signedUnits t n) := by
  have hnat : ((m % n : Nat) : ℤ) = (m : ℤ).tmod n := Int.ofNat_tmod m n
  cases s <;> cases t <;> simp [signedUnits, hnat]

theorem remainder_isRemainder (x : Binary64) {y : Binary64} (h : y.isZero = false) :
    IsRemainder x y (x.remainder y) := by
  cases x with
  | nan => exact .undefined (.inl rfl)
  | infinite s =>
    cases y <;> exact .undefined (.inl rfl)
  | finite s a =>
    cases y with
    | nan => exact .undefined (.inr rfl)
    | infinite t => exact .infiniteDivisor s a t
    | finite t b =>
      have hpos : b.val ≠ 0 := by simpa [isZero] using h
      obtain ⟨c, hremainder, hunits⟩ := exists_remainder s t a b hpos
      rw [hremainder]
      have hone := unitsPerOne_pos
      constructor
      · have hquotient : toRat (.finite s a) / toRat (.finite t b) =
            (signedUnits s (units a) : ℚ) / signedUnits t (units b) := by
          rw [toRat_finite, toRat_finite, div_div_div_cancel_right₀ hone.ne']
        have hlaw := Int.tdiv_mul_add_tmod (signedUnits s (units a)) (signedUnits t (units b))
        rw [← signedUnits_mod, ← hunits] at hlaw
        rw [hquotient, truncated_div, toRat_finite, toRat_finite, toRat_finite, ← mul_div_assoc,
          ← add_div]
        exact_mod_cast congrArg (fun n : ℤ => (n : ℚ) / unitsPerOne) hlaw.symm
      · rw [abs_toRat, abs_toRat]
        refine magnitude_strictMono (units_strictMono.lt_iff_lt.mp ?_)
        rw [hunits]
        exact Nat.mod_lt _ (units_pos hpos)

end Binary64

namespace Value

open Binary64 (IsRemainder rankLimit)

theorem modulo_floats {a b : Value} (hfloat : a.isFloat = true ∨ b.isFloat = true)
    (hzero : b.isZero = false) :
    a.modulo b = .ok (.float (a.toBinary64.remainder b.toBinary64)) := by
  unfold modulo
  rw [hzero, if_neg (by decide)]
  cases a with
  | float x => rfl
  | int m =>
    cases b with
    | float y => rfl
    | int n => simp [isFloat] at hfloat

/-- If one of two values is a float and the divisor is not zero, there is a remainder, and it
is that of the two floats. It is found behind checks that set apart the operands for which a
remainder of floats has no answer. -/
theorem modulo_isRemainder {a b : Value} (hfloat : a.isFloat = true ∨ b.isFloat = true)
    (hzero : b.isZero = false) :
    ∃ m : Binary64, a.modulo b = .ok (.float m) ∧ IsRemainder a.toBinary64 b.toBinary64 m ∧
      Checked.guardedRemainder? a.toBinary64 b.toBinary64 = some m := by
  have hdivisor : b.toBinary64.isZero = false := (Checked.isZero_toBinary64 b).trans hzero
  exact ⟨_, modulo_floats hfloat hzero, Binary64.remainder_isRemainder a.toBinary64 hdivisor,
    Checked.guardedRemainder?_eq hdivisor⟩

/-- The largest number of the format is (2^53 - 1) * 2^971. Divided by three it leaves two,
and so does its negative, below zero. -/
theorem modulo_isRemainder_largest :
    let largest : Binary64 := .finite true ⟨rankLimit - 1, by decide⟩
    let two : Binary64 := .finite true ⟨1024 <<< 52, by decide⟩
    (float largest).isFloat = true ∧ (int 3).isZero = false ∧
      (float largest).modulo (.int 3) = .ok (.float two) ∧
      IsRemainder largest (int 3).toBinary64 two := by
  intro largest two
  have hvalue : (float largest).modulo (.int 3) = .ok (.float two) := by decide +kernel
  obtain ⟨m, hm, hremainder, -⟩ :=
    modulo_isRemainder (a := .float largest) (b := .int 3) (.inl rfl) rfl
  rw [hvalue] at hm
  cases hm
  exact ⟨rfl, rfl, hvalue, hremainder⟩

end Value

end Reckoner
