import Reckoner.Diagnostic
import Reckoner.Proofs.Binary64.Integers
import Reckoner.Proofs.Value.Range

/-! Arithmetic out of partial operations. An operation that has no answer for
some operands is written with its domain here, and gives nothing outside it.
The checks that come before each use keep it inside: on values of the range the
operations of the calculator have an answer, which is that of `BinaryOp.apply`. -/
namespace Reckoner

/-- Positive or negative infinity. -/
def Binary64.isInfinite : Binary64 → Bool
  | .infinite _ => true
  | _ => false

/-- The value of what is undefined. -/
def Binary64.isNan : Binary64 → Bool
  | .nan => true
  | _ => false

/-- A computation that ends in a result or a diagnostic, or in neither if it
uses an operation outside its domain. -/
abbrev Checked := ExceptT Diagnostic Option

namespace Checked

/-- The result or the diagnosed fault: never nothing. -/
def answer {ε α : Type} (diagnose : ε → Diagnostic) (result : Except ε α) : Checked α :=
  some (result.mapError diagnose)

@[simp] theorem liftM_some {α : Type} (a : α) : (liftM (some a) : Checked α) = pure a := rfl

/-! ## Operations with a domain -/

/-- The float nearest to an integer. There is none beyond the largest float. -/
def float? (n : Int) : Option Binary64 :=
  if (Binary64.ofInt n).isFinite then some (Binary64.ofInt n) else none

/-- The quotient of natural numbers, rounded down. -/
def quotient? (a b : Nat) : Option Nat :=
  if b = 0 then none else some (a / b)

/-- The remainder of natural numbers. -/
def remainder? (a b : Nat) : Option Nat :=
  if b = 0 then none else some (a % b)

/-- The power modulo 2^64, of any base and a natural exponent. -/
def powerMod? (base exponent : Int) : Option Int :=
  if exponent < 0 then none
  else some (Value.powerMod (base % wrapModulus).toNat exponent.toNat)

/-- The quotient of floats. -/
def floatQuotient? (x y : Binary64) : Option Binary64 :=
  if y.isZero then none else some (x.divide y)

/-- The remainder of floats, of a dividend that is not infinite. -/
def floatRemainder? (x y : Binary64) : Option Binary64 :=
  if x.isInfinite || y.isZero then none else some (x.remainder y)

/-! ## Operations of the calculator -/

/-- The value as a float. -/
def toFloat? : Value → Option Binary64
  | .int n => float? n
  | .float x => some x

/-- An operation on two integers, or on floats if one of the values is a float. -/
def combine (onInts : Int → Int → Option Int)
    (onFloats : Binary64 → Binary64 → Option Binary64) : Value → Value → Checked Value
  | .int a, .int b => return .int (← onInts a b)
  | a, b => return .float (← onFloats (← toFloat? a) (← toFloat? b))

/-- The quotient of the magnitudes, with the sign put back. -/
def signedQuotient? (a b : Int) : Option Int := do
  let quotient ← quotient? a.natAbs b.natAbs
  return wrap (if decide (a < 0) != decide (b < 0) then -(quotient : Int) else quotient)

/-- The remainder of the magnitudes, with the sign of the dividend. -/
def signedRemainder? (a b : Int) : Option Int := do
  let remainder ← remainder? a.natAbs b.natAbs
  return if a < 0 then -(remainder : Int) else remainder

/-- The remainder of floats. An infinite dividend and an undefined operand are set
apart before it is taken. -/
def guardedRemainder? (x y : Binary64) : Option Binary64 :=
  if x.isInfinite || x.isNan || y.isNan then some .nan else floatRemainder? x y

/-- An operation that needs a divisor other than zero. -/
def divided (operation : Value → Value → Checked Value) (a b : Value) : Checked Value :=
  if b.isZero then throw { phase := .evaluating, code := .divisionByZero }
  else operation a b

/-- The power of floats. A conversion without a result is as good as a power
without one. -/
def floatPower (a b : Value) : Checked Value :=
  if a.isZero && b.isNegative then throw { phase := .evaluating, code := .divisionByZero }
  else
    match (toFloat? a).bind fun x => (toFloat? b).bind fun y => x.power? y with
    | some x => return .float x
    | none =>
      throw { phase := .evaluating, code := .undefinedPower,
              params := [("base", a.text), ("exponent", b.text)] }

/-- The power: an integer for integers with a natural exponent, else a float. -/
def power (a b : Value) : Checked Value :=
  match a, b with
  | .int base, .int exponent =>
    if 0 ≤ exponent then return .int (wrap (← powerMod? base exponent))
    else floatPower a b
  | _, _ => floatPower a b

/-- The operator applied to two values. -/
def apply : BinaryOp → Value → Value → Checked Value
  | .add => combine (fun a b => some (wrap (a + b))) fun x y => some (x.add y)
  | .subtract => combine (fun a b => some (wrap (a - b))) fun x y => some (x.subtract y)
  | .multiply => combine (fun a b => some (wrap (a * b))) fun x y => some (x.multiply y)
  | .divide => divided (combine signedQuotient? floatQuotient?)
  | .modulo => divided (combine signedRemainder? guardedRemainder?)
  | .power => power

/-! ## Within the domains -/

theorem natAbs_le_of_inRange {n : Int} (h : (Value.int n).InRange) : n.natAbs ≤ 2 ^ 63 := by
  rw [Value.inRange_int] at h
  omega

theorem neg_or_nat (n : Int) :
    (n < 0 ∧ n = -(n.natAbs : Int)) ∨ (¬ n < 0 ∧ n = n.natAbs) := by
  omega

/-- The quotient of the magnitudes, with its sign, is truncated toward zero. -/
theorem signed_quotient (a b : Int) :
    (if decide (a < 0) != decide (b < 0) then -((a.natAbs / b.natAbs : Nat) : Int)
      else (a.natAbs / b.natAbs : Nat)) = a.tdiv b := by
  rw [Int.ofNat_tdiv]
  rcases neg_or_nat a with ⟨hneg, ha⟩ | ⟨hneg, ha⟩ <;>
    rcases neg_or_nat b with ⟨hneg', hb⟩ | ⟨hneg', hb⟩
  · rw [if_neg (by simp [hneg, hneg']), ← Int.neg_tdiv_neg, ← ha, ← hb]
  · rw [if_pos (by simp [hneg, hneg']), ← Int.neg_tdiv, ← ha, ← hb]
  · rw [if_pos (by simp [hneg, hneg']), ← Int.tdiv_neg, ← ha, ← hb]
  · rw [if_neg (by simp [hneg, hneg']), ← ha, ← hb]

/-- The remainder of the magnitudes, with the sign of the dividend, is what a
quotient truncated toward zero leaves. -/
theorem signed_remainder (a b : Int) :
    (if a < 0 then -((a.natAbs % b.natAbs : Nat) : Int) else (a.natAbs % b.natAbs : Nat)) =
      a.tmod b := by
  have hdivisor : (a.natAbs : Int).tmod b.natAbs = (a.natAbs : Int).tmod b := by
    rcases neg_or_nat b with ⟨-, hb⟩ | ⟨-, hb⟩
    · rw [← Int.tmod_neg, ← hb]
    · rw [← hb]
  rw [Int.ofNat_tmod, hdivisor]
  rcases neg_or_nat a with ⟨hneg, ha⟩ | ⟨hneg, ha⟩
  · rw [if_pos hneg, ← Int.neg_tmod, ← ha]
  · rw [if_neg hneg, ← ha]

variable {a b : Value}

/-- A value of the range has a float. -/
theorem toFloat?_eq (ha : a.InRange) : toFloat? a = some a.toBinary64 := by
  cases a with
  | float x => rfl
  | int n => exact if_pos (Binary64.ofInt_isFinite (natAbs_le_of_inRange ha))

/-- The float is zero only if the value is. -/
theorem isZero_toBinary64 (a : Value) : a.toBinary64.isZero = a.isZero := by
  cases a with
  | float x => rfl
  | int n => exact Binary64.ofInt_isZero n

theorem combine_ints {onInts : Int → Int → Option Int}
    (onFloats : Binary64 → Binary64 → Option Binary64) {m n k : Int}
    (h : onInts m n = some k) :
    combine onInts onFloats (.int m) (.int n) = some (.ok (.int k)) := by
  rw [combine, h]
  rfl

theorem combine_floats (onInts : Int → Int → Option Int)
    {onFloats : Binary64 → Binary64 → Option Binary64} (ha : a.InRange) (hb : b.InRange)
    (hkinds : a.isFloat = true ∨ b.isFloat = true) {x : Binary64}
    (h : onFloats a.toBinary64 b.toBinary64 = some x) :
    combine onInts onFloats a b = some (.ok (.float x)) := by
  have hcombine : combine onInts onFloats a b =
      (do return .float (← onFloats (← toFloat? a) (← toFloat? b))) := by
    cases a <;> cases b <;> first | rfl | simp [Value.isFloat] at hkinds
  rw [hcombine, toFloat?_eq ha, toFloat?_eq hb]
  show (do return .float (← onFloats a.toBinary64 b.toBinary64) : Checked Value) = _
  rw [h]
  rfl

/-- An operation that is there for these operands is the wrapped one. -/
theorem combine_eq {onInts : Int → Int → Option Int}
    {onFloats : Binary64 → Binary64 → Option Binary64} {f : Int → Int → Int}
    {g : Binary64 → Binary64 → Binary64} (ha : a.InRange) (hb : b.InRange)
    (hints : ∀ m n, a = .int m → b = .int n → onInts m n = some (wrap (f m n)))
    (hfloats : onFloats a.toBinary64 b.toBinary64 = some (g a.toBinary64 b.toBinary64)) :
    combine onInts onFloats a b = some (.ok (Value.combine f g a b)) := by
  cases a with
  | float x => exact combine_floats onInts ha hb (.inl rfl) hfloats
  | int m =>
    cases b with
    | float y => exact combine_floats onInts ha hb (.inr rfl) hfloats
    | int n => exact combine_ints onFloats (hints m n rfl rfl)

theorem signedQuotient?_eq {m n : Int} (hn : n ≠ 0) :
    signedQuotient? m n = some (wrap (m.tdiv n)) := by
  rw [signedQuotient?, quotient?, if_neg (Int.natAbs_ne_zero.mpr hn), ← signed_quotient m n]
  rfl

theorem signedRemainder?_eq {m n : Int} (hn : n ≠ 0) :
    signedRemainder? m n = some (m.tmod n) := by
  rw [signedRemainder?, remainder?, if_neg (Int.natAbs_ne_zero.mpr hn), ← signed_remainder m n]
  rfl

theorem floatQuotient?_eq {x y : Binary64} (hy : y.isZero = false) :
    floatQuotient? x y = some (x.divide y) := by
  rw [floatQuotient?, hy]
  rfl

/-- What is set apart has an undefined remainder all the same. -/
theorem guardedRemainder?_eq {x y : Binary64} (hy : y.isZero = false) :
    guardedRemainder? x y = some (x.remainder y) := by
  unfold guardedRemainder? floatRemainder?
  rw [hy]
  cases x <;> cases y <;> rfl

/-- A zero divisor is a fault, and for any other one the operation has an answer. -/
theorem divided_eq {operation : Value → Value → Checked Value} {v : Value}
    (h : b.isZero = false → operation a b = some (.ok v)) :
    divided operation a b =
      answer EvalFault.diagnostic (if b.isZero then .error .divisionByZero else .ok v) := by
  unfold divided
  cases hzero : b.isZero with
  | true => rfl
  | false => exact h hzero

theorem int_ne_zero {n : Int} (h : (Value.int n).isZero = false) : n ≠ 0 := by
  simpa [Value.isZero] using h

theorem divide_eq (ha : a.InRange) (hb : b.InRange) :
    apply .divide a b = answer EvalFault.diagnostic (a.divide b) := by
  refine divided_eq fun hzero => combine_eq ha hb ?_ ?_
  · rintro m n rfl rfl
    exact signedQuotient?_eq (int_ne_zero hzero)
  · exact floatQuotient?_eq ((isZero_toBinary64 b).trans hzero)

theorem modulo_eq (ha : a.InRange) (hb : b.InRange) :
    apply .modulo a b = answer EvalFault.diagnostic (a.modulo b) := by
  have hfloat (hzero : b.isZero = false) :
      guardedRemainder? a.toBinary64 b.toBinary64 =
        some (a.toBinary64.remainder b.toBinary64) :=
    guardedRemainder?_eq ((isZero_toBinary64 b).trans hzero)
  cases a with
  | float x => exact divided_eq fun hzero => combine_floats _ ha hb (.inl rfl) (hfloat hzero)
  | int m =>
    cases b with
    | float y => exact divided_eq fun hzero => combine_floats _ ha hb (.inr rfl) (hfloat hzero)
    | int n =>
      exact divided_eq fun hzero => combine_ints _ (signedRemainder?_eq (int_ne_zero hzero))

theorem powerMod?_eq {base exponent : Int} (h : 0 ≤ exponent) :
    powerMod? base exponent =
      some (Value.powerMod (base % wrapModulus).toNat exponent.toNat : Int) := by
  rw [powerMod?, if_neg (by omega)]

theorem floatPower_eq (ha : a.InRange) (hb : b.InRange) :
    floatPower a b = answer EvalFault.diagnostic (a.floatPower b) := by
  unfold floatPower Value.floatPower
  rw [toFloat?_eq ha, toFloat?_eq hb]
  by_cases hzero : (a.isZero && b.isNegative) = true
  · rw [if_pos hzero, if_pos hzero]
    rfl
  · rw [if_neg hzero, if_neg hzero, Option.bind_some, Option.bind_some]
    cases a.toBinary64.power? b.toBinary64 <;> rfl

theorem power_eq (ha : a.InRange) (hb : b.InRange) :
    power a b = answer EvalFault.diagnostic (a.power b) := by
  have hfloat := floatPower_eq ha hb
  cases a with
  | float x => exact hfloat
  | int m =>
    cases b with
    | float y => exact hfloat
    | int n =>
      unfold power Value.power
      dsimp only
      by_cases hn : 0 ≤ n
      · rw [if_pos hn, if_pos hn, powerMod?_eq hn]
        rfl
      · rw [if_neg hn, if_neg hn]
        exact hfloat

/-- On values of the range every operator has an answer, the same as ever. -/
theorem apply_eq (op : BinaryOp) (ha : a.InRange) (hb : b.InRange) :
    apply op a b = answer EvalFault.diagnostic (op.apply a b) := by
  cases op with
  | add | subtract | multiply => exact combine_eq ha hb (fun _ _ _ _ => rfl) rfl
  | divide => exact divide_eq ha hb
  | modulo => exact modulo_eq ha hb
  | power => exact power_eq ha hb

end Checked

end Reckoner
