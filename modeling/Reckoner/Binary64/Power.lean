import Reckoner.Binary64.Bracket

/-!
Powers of binary64 numbers, rounded correctly.

A finite exponent is a signed fraction `numerator / 2 ^ roots` in lowest terms.
The magnitude of the power is bracketed at growing precisions until both ends
round alike. An exact comparison of integers with the midpoint between
neighbouring numbers settles whatever the brackets leave open, so the rank is
that of the exact power in every case.
-/
namespace Reckoner.Binary64

/-! ## The exponent as a fraction -/

/-- The magnitude of an exponent: `numerator / 2 ^ roots`. -/
structure DyadicFraction where
  numerator : Nat
  roots : Nat
deriving DecidableEq

/-- Halves the numerator as long as both it and the denominator are even. -/
def DyadicFraction.reduce (numerator : Nat) : Nat → DyadicFraction
  | 0 => ⟨numerator, 0⟩
  | roots + 1 =>
    if numerator % 2 = 0 then reduce (numerator / 2) roots else ⟨numerator, roots + 1⟩

/-- The magnitude of this rank as a fraction in lowest terms. -/
def DyadicFraction.ofRank (rank : Nat) : DyadicFraction :=
  reduce (units rank) 1074

/-- An odd integer. -/
def DyadicFraction.isOddInteger (q : DyadicFraction) : Bool :=
  q.roots == 0 && q.numerator % 2 == 1

/-! ## The rank of a power -/

/-- A positive base, in units, raised to a signed fraction. -/
structure PowerProblem where
  baseUnits : Nat
  inverted : Bool
  exponent : DyadicFraction

namespace PowerProblem

/-- The power held between two fractions: roots, then the integer power, then
the inverse. -/
def bracket (problem : PowerProblem) (precision : Nat) : Bracket :=
  let base := Bracket.point ⟨problem.baseUnits, -1074⟩
  let root := base.repeatedSqrt precision problem.exponent.roots
  let power := root.power precision problem.exponent.numerator
  if problem.inverted then power.inverse precision else power

/-- How the power compares with the midpoint between a rank and the next one,
after both are raised to the power that removes the roots. -/
def compareMidpoint (problem : PowerProblem) (rank : Nat) : Ordering :=
  let n := problem.exponent.numerator
  let k := 1 <<< problem.exponent.roots
  let base := Nat.pow problem.baseUnits n
  let one := Nat.pow unitsPerOne n
  let middle := Nat.pow (units rank + units (rank + 1)) k
  let middleOne := Nat.pow (2 * unitsPerOne) k
  if problem.inverted then compare (one * middleOne) (middle * base)
  else compare (base * middleOne) (middle * one)

/-- The power rounds to this rank or a lower one: it is below the midpoint
above the rank, or at that midpoint with the rank the even neighbour. -/
def roundsAtMost (problem : PowerProblem) (rank : Nat) : Bool :=
  match problem.compareMidpoint rank with
  | .lt => true
  | .eq => rank % 2 == 0
  | .gt => false

/-- The least number from `base` on that meets a condition which, once met,
stays met; the last of `2 ^ bits` candidates if none before it does. -/
def least (condition : Nat → Bool) : (bits base : Nat) → Nat
  | 0, base => base
  | bits + 1, base =>
    if condition (base + (1 <<< bits) - 1) then least condition bits base
    else least condition bits (base + (1 <<< bits))

/-- The rank of the power by exact comparison, no higher than `rankLimit`. -/
def exactRank (problem : PowerProblem) : Nat :=
  least (fun rank => rankLimit ≤ rank || problem.roundsAtMost rank) 63 0

/-- The rank of the power: from the first bracket that decides it, in order of
precision, else by exact comparison. -/
def rank (problem : PowerProblem) : Nat :=
  match [128, 256, 512, 1024, 2048, 4096].findSome? fun precision =>
      (problem.bracket precision).rank? with
  | some rank => rank
  | none => problem.exactRank

end PowerProblem

/-! ## Powers with an infinite or undefined operand -/

/-- Above the number one in magnitude. -/
def exceedsOne : Binary64 → Bool
  | .nan => false
  | .infinite _ => true
  | .finite _ rank => rankOfOne < rank.val

/-- Equal to the number one in magnitude. -/
def isUnit : Binary64 → Bool
  | .finite _ rank => rank.val == rankOfOne
  | _ => false

/-- The power of an infinity: an odd exponent keeps the sign of the base. -/
def infinitePower (negative : Bool) (exponentNegative odd : Bool) : Binary64 :=
  if exponentNegative then zero (negative && odd) else .infinite (negative && odd)

/-! ## The power -/

/-- `x` to the power `y`. There is none where finite operands have no finite real
power: a negative base with a fractional exponent, zero with a negative exponent, or
an overflow. One is the value of anything to the power zero and of one to any
power. -/
def power? : Binary64 → Binary64 → Option Binary64
  | .nan, y => some (if y.isZero then one else .nan)
  | x, .nan => some (if x = one then one else .nan)
  | .infinite s, .infinite t => some (infinitePower s t false)
  | .infinite s, .finite t rank =>
    let exponent := DyadicFraction.ofRank rank
    some (if rank.val = 0 then one else infinitePower s t exponent.isOddInteger)
  | x, .infinite t =>
    some (if x.isUnit then one else if x.exceedsOne = !t then .infinite false else zero false)
  | .finite s a, .finite t b =>
    let exponent := DyadicFraction.ofRank b
    let odd := exponent.isOddInteger
    if b.val = 0 then some one
    else if a.val = 0 then if t then none else some (zero (s && odd))
    else if s && exponent.roots != 0 then none
    else
      let rank := PowerProblem.rank ⟨units a, t, exponent⟩
      if h : rank < rankLimit then some (.finite (s && odd) ⟨rank, h⟩) else none

end Reckoner.Binary64
