import Reckoner.Binary64.Arithmetic
import Reckoner.Binary64.Power
import Reckoner.Fault

/-!
Arithmetic on values. Two integers give an integer, wrapped to the signed 64-bit
range; a float operand turns the other one into a float. Integer division and
remainder truncate toward zero. Three operations can fail: division and
remainder by zero, and a power that is no finite real number.
-/
namespace Reckoner

/-- How many integers the signed 64-bit range has. -/
def wrapModulus : Nat := 1 <<< 64

/-- The integer of the signed 64-bit range that is congruent to `n` modulo 2^64. -/
def wrap (n : Int) : Int :=
  n.bmod wrapModulus

namespace Value

/-- An operation of integers, wrapped, extended to floats. -/
def combine (onInts : Int → Int → Int) (onFloats : Binary64 → Binary64 → Binary64) :
    Value → Value → Value
  | .int a, .int b => .int (wrap (onInts a b))
  | a, b => .float (onFloats a.toBinary64 b.toBinary64)

/-- The sum. -/
def add : Value → Value → Value :=
  combine (· + ·) Binary64.add

/-- The difference. -/
def subtract : Value → Value → Value :=
  combine (· - ·) Binary64.subtract

/-- The product. -/
def multiply : Value → Value → Value :=
  combine (· * ·) Binary64.multiply

/-- The value with its sign reversed. The smallest integer is its own negative. -/
def negate : Value → Value
  | .int n => .int (wrap (-n))
  | .float x => .float x.negate

/-- The quotient, of integers truncated toward zero. -/
def divide (a b : Value) : Except EvalFault Value :=
  if b.isZero then .error .divisionByZero
  else .ok (combine Int.tdiv Binary64.divide a b)

/-- The remainder, with the sign of the dividend. It is no larger than the
dividend and needs no wrapping. -/
def modulo (a b : Value) : Except EvalFault Value :=
  if b.isZero then .error .divisionByZero
  else
    match a, b with
    | .int a, .int b => .ok (.int (a.tmod b))
    | a, b => .ok (.float (a.toBinary64.remainder b.toBinary64))

/-- A power modulo 2^64, by squaring. -/
def powerMod (base exponent : Nat) : Nat :=
  if exponent = 0 then 1
  else
    let half := powerMod base (exponent / 2)
    let square := half * half % wrapModulus
    if exponent % 2 = 1 then square * base % wrapModulus else square
termination_by exponent

/-- An integer power with a natural exponent, wrapped. -/
def intPower (base : Int) (exponent : Nat) : Int :=
  wrap (powerMod (base % wrapModulus).toNat exponent)

/-- The power of floats. An undefined one reports the operands as they were
given. -/
def floatPower (a b : Value) : Except EvalFault Value :=
  if a.isZero && b.isNegative then .error .divisionByZero
  else
    match a.toBinary64.power? b.toBinary64 with
    | some x => .ok (.float x)
    | none => .error (.undefinedPower a b)

/-- The power: an integer for integers with a natural exponent, else a float. -/
def power (a b : Value) : Except EvalFault Value :=
  match a, b with
  | .int base, .int exponent =>
    if 0 ≤ exponent then .ok (.int (intPower base exponent.toNat))
    else floatPower a b
  | _, _ => floatPower a b

end Value

end Reckoner
