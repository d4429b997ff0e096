import Reckoner.Decimal

/-!
The shortest decimal that reads back as a given binary64 magnitude.

On the grid of decimals with a given number of digits only the two neighbours of
the magnitude can be the nearest that reads back. The first grid on which one of
them does gives the answer; of two, the nearer, and of two equally near the
even one.
-/
namespace Reckoner.Decimal

/-- The power of ten of the leading digit of a positive magnitude: the largest
`e` with `10 ^ e` at most the magnitude. The magnitude is first scaled by
10^400, which makes it larger than one. -/
def leadingExponent (rank : Nat) : Int :=
  let scaled := Binary64.units rank * Nat.pow 10 400 / Binary64.unitsPerOne
  (Nat.toDigits 10 scaled).length - 401

/-- A magnitude divided by `10 ^ exponent`, as a numerator and a denominator. -/
def quotient (rank : Nat) (exponent : Int) : Nat × Nat :=
  (Binary64.units rank * Nat.pow 10 (-exponent).toNat,
    Binary64.unitsPerOne * Nat.pow 10 exponent.toNat)

/-- The neighbour of the magnitude among the multiples of `10 ^ exponent` that
reads back as it, the nearer one where both do. -/
def readsBack? (rank : Nat) (exponent : Int) : Option Decimal :=
  let (num, den) := quotient rank exponent
  let below : Decimal := ⟨num / den, exponent⟩
  let above : Decimal := ⟨num / den + 1, exponent⟩
  let nearest : Decimal := ⟨roundHalfEven num den, exponent⟩
  if below.rank = rank then some (if above.rank = rank then nearest else below)
  else if above.rank = rank then some above
  else none

/-- The first decimal that a test gives, on this grid or one of the finer grids
after it. -/
def firstAnswer (answer? : Int → Option Decimal) : (grids : Nat) → (exponent : Int) → Decimal
  | 0, exponent => ⟨0, exponent⟩
  | grids + 1, exponent =>
    match answer? exponent with
    | some d => d
    | none => firstAnswer answer? grids (exponent - 1)

/-- The shortest decimal that reads back as the positive magnitude of this rank.
The grid of 10^-1074 holds every magnitude exactly. -/
def shortest (rank : Nat) : Decimal :=
  (firstAnswer (readsBack? rank) 1400 (leadingExponent rank)).strip

end Reckoner.Decimal
