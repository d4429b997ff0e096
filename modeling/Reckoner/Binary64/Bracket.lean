import Reckoner.Binary64.Rounding

/-!
Brackets: a positive real number held between two binary fractions. Each
operation rounds the lower end down and the upper end up to a working precision,
so the exact result of the operation stays inside; an end that needs no rounding
is kept exactly. Brackets decide how an irrational or very long result rounds.
-/
namespace Reckoner.Binary64

/-- The integer part of a square root, one binary digit for each two of `n`. -/
def integerSqrt (n : Nat) : Nat :=
  if n = 0 then 0
  else
    let root := 2 * integerSqrt (n / 4)
    if (root + 1) * (root + 1) ≤ n then root + 1 else root
termination_by n

/-- A binary fraction: `coefficient * 2 ^ exponent`. -/
structure Endpoint where
  coefficient : Nat
  exponent : Int
deriving DecidableEq

namespace Endpoint

/-- The number one. -/
def one : Endpoint := ⟨1, 0⟩

/-- The exact product. -/
def multiply (x y : Endpoint) : Endpoint :=
  ⟨x.coefficient * y.coefficient, x.exponent + y.exponent⟩

/-- How many binary digits of the coefficient are beyond the precision. -/
def excess (precision : Nat) (x : Endpoint) : Nat :=
  x.coefficient.log2 + 1 - precision

/-- The largest fraction of the precision that is not above `x`. -/
def roundDown (precision : Nat) (x : Endpoint) : Endpoint :=
  let dropped := x.excess precision
  ⟨x.coefficient >>> dropped, x.exponent + dropped⟩

/-- The smallest fraction of the precision that is not below `x`. -/
def roundUp (precision : Nat) (x : Endpoint) : Endpoint :=
  let dropped := x.excess precision
  ⟨(x.coefficient + ((1 <<< dropped) - 1)) >>> dropped, x.exponent + dropped⟩

/-- The same number with an even exponent and at least twice the precision in
its coefficient, ready for a square root. -/
def spread (precision : Nat) (x : Endpoint) : Endpoint :=
  let missing := 2 * precision - (x.coefficient.log2 + 1)
  let added := missing + ((x.exponent - missing) % 2).toNat
  ⟨x.coefficient <<< added, x.exponent - added⟩

/-- A square root, rounded down. -/
def sqrtDown (precision : Nat) (x : Endpoint) : Endpoint :=
  let wide := x.spread precision
  roundDown precision ⟨integerSqrt wide.coefficient, wide.exponent / 2⟩

/-- A square root, rounded up. -/
def sqrtUp (precision : Nat) (x : Endpoint) : Endpoint :=
  let wide := x.spread precision
  let root := integerSqrt wide.coefficient
  let root := if root * root = wide.coefficient then root else root + 1
  roundUp precision ⟨root, wide.exponent / 2⟩

/-- The inverse of a positive fraction, rounded down. -/
def inverseDown (precision : Nat) (x : Endpoint) : Endpoint :=
  ⟨(1 <<< (2 * precision)) / x.coefficient, -(2 * precision : Int) - x.exponent⟩

/-- The inverse of a positive fraction, rounded up. -/
def inverseUp (precision : Nat) (x : Endpoint) : Endpoint :=
  ⟨((1 <<< (2 * precision)) + (x.coefficient - 1)) / x.coefficient,
    -(2 * precision : Int) - x.exponent⟩

/-- The rank of the binary64 magnitude nearest to the fraction, no higher than
`rankLimit`. Fractions of 2^1024 or more, and those below 2^-1075, are settled
by their leading binary digit alone. -/
def rank (x : Endpoint) : Nat :=
  let leading := x.coefficient.log2 + x.exponent
  if x.coefficient = 0 then 0
  else if 1024 ≤ leading then rankLimit
  else if leading < -1075 then 0
  else
    let shift := x.exponent + 1074
    min rankLimit
      (nearestRank (x.coefficient <<< shift.toNat) (1 <<< (-shift).toNat))

end Endpoint

/-- A lower and an upper end. -/
structure Bracket where
  lower : Endpoint
  upper : Endpoint

namespace Bracket

/-- The number one alone. -/
def one : Bracket := ⟨.one, .one⟩

/-- The bracket that holds the fraction alone. -/
def point (x : Endpoint) : Bracket := ⟨x, x⟩

/-- The product of two bracketed numbers. -/
def multiply (precision : Nat) (x y : Bracket) : Bracket :=
  ⟨(x.lower.multiply y.lower).roundDown precision,
    (x.upper.multiply y.upper).roundUp precision⟩

/-- The inverse of a bracketed positive number. -/
def inverse (precision : Nat) (x : Bracket) : Bracket :=
  ⟨x.upper.inverseDown precision, x.lower.inverseUp precision⟩

/-- The square root of a bracketed number. -/
def sqrt (precision : Nat) (x : Bracket) : Bracket :=
  ⟨x.lower.sqrtDown precision, x.upper.sqrtUp precision⟩

/-- The square root taken a number of times. -/
def repeatedSqrt (precision : Nat) (x : Bracket) : Nat → Bracket
  | 0 => x
  | times + 1 => (x.sqrt precision).repeatedSqrt precision times

/-- An integer power, by squaring. -/
def power (precision : Nat) (x : Bracket) (n : Nat) : Bracket :=
  if n = 0 then one
  else
    let half := x.power precision (n / 2)
    let square := half.multiply precision half
    if n % 2 = 1 then square.multiply precision x else square
termination_by n

/-- The common rank of both ends, where they round alike. -/
def rank? (x : Bracket) : Option Nat :=
  if x.lower.rank = x.upper.rank then some x.lower.rank else none

end Bracket

end Reckoner.Binary64
