/-!
Floating-point numbers in the binary64 format, as exact data.

The finite magnitudes are numbered in ascending order from zero, so a finite
number is a sign and a rank. Every finite magnitude is a whole number of units
of 2^-1074; `units` computes it from the rank. A rank is also the low 63 bits of
the usual encoding, and it is even exactly when the significand is.
-/
namespace Reckoner

/-- How many finite magnitudes there are: 2047 exponents, 2^52 fractions each. -/
def Binary64.rankLimit : Nat := 2047 <<< 52

/-- A binary64 number. All undefined results are the one value `nan`. -/
inductive Binary64 where
  | nan
  | infinite (negative : Bool)
  | finite (negative : Bool) (rank : Fin Binary64.rankLimit)
deriving DecidableEq

namespace Binary64

/-! ## Magnitudes -/

/-- The power of two, in units, that the significand of this rank counts. -/
def scale (rank : Nat) : Nat :=
  (rank >>> 52) - 1

/-- The significand: below 2^53, and at least 2^52 where the scale is positive. -/
def significand (rank : Nat) : Nat :=
  rank - (scale rank <<< 52)

/-- The magnitude of this rank in units of 2^-1074. -/
def units (rank : Nat) : Nat :=
  significand rank <<< scale rank

/-- The number of units in the number one. -/
def unitsPerOne : Nat := 1 <<< 1074

/-! ## Particular numbers -/

/-- A zero of the given sign. -/
def zero (negative : Bool) : Binary64 :=
  .finite negative ⟨0, by decide⟩

/-- The rank of the number one. -/
def rankOfOne : Nat := 1023 <<< 52

/-- The number one. -/
def one : Binary64 :=
  .finite false ⟨rankOfOne, by decide⟩

instance : Inhabited Binary64 := ⟨zero false⟩

/-- The number with the given 64-bit encoding. -/
def ofBits (bits : Nat) : Binary64 :=
  let negative := (bits >>> 63) % 2 == 1
  let rank := bits % (1 <<< 63)
  if h : rank < rankLimit then .finite negative ⟨rank, h⟩
  else if rank = rankLimit then .infinite negative
  else .nan

/-! ## Tests -/

/-- Positive or negative zero. -/
def isZero : Binary64 → Bool
  | .finite _ rank => rank.val == 0
  | _ => false

/-- Below zero: neither zero counts, and neither does an undefined value. -/
def isNegative : Binary64 → Bool
  | .nan => false
  | .infinite negative => negative
  | .finite negative rank => negative && rank.val != 0

/-- Neither infinite nor undefined. -/
def isFinite : Binary64 → Bool
  | .finite _ _ => true
  | _ => false

end Binary64

end Reckoner
