import Reckoner.Binary64

/-!
Rounding to binary64: to the nearest number, a tie to the even significand,
subnormal numbers included. The rank of the nearest magnitude is computed
first; a rank that no finite number has is an overflow to infinity.
-/
namespace Reckoner

/-- The integer nearest to `num / den`, the even one of two equally near. -/
def roundHalfEven (num den : Nat) : Nat :=
  let quotient := num / den
  let twice := 2 * (num % den)
  if twice < den then quotient
  else if den < twice then quotient + 1
  else quotient + quotient % 2

namespace Binary64

/-- The rank of the magnitude nearest to `num / den` units. The quotient is
measured in the spacing of its own binade: 2^shift units. Rounding up to the
next power of two carries into the next binade by itself. -/
def nearestRank (num den : Nat) : Nat :=
  let shift := (num / den).log2 - 52
  (shift <<< 52) + roundHalfEven num (den <<< shift)

/-- The number of this sign and rank; infinite past the last finite rank. -/
def ofRank (negative : Bool) (rank : Nat) : Binary64 :=
  if h : rank < rankLimit then .finite negative ⟨rank, h⟩ else .infinite negative

/-- The number nearest to `num / den` units, with the given sign. -/
def round (negative : Bool) (num den : Nat) : Binary64 :=
  ofRank negative (nearestRank num den)

/-- The number nearest to an integer. -/
def ofInt (n : Int) : Binary64 :=
  round (n < 0) (n.natAbs * unitsPerOne) 1

end Binary64

end Reckoner
