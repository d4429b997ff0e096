import Reckoner.Binary64.Rounding

/-!
Decimal numbers, read and written by people: a whole coefficient times a power
of ten. Reading one into binary64 is a single rounding of its exact value.
-/
namespace Reckoner

/-- The number `coefficient * 10 ^ exponent`. -/
structure Decimal where
  coefficient : Nat
  exponent : Int
deriving DecidableEq

namespace Decimal

/-- The whole number that a list of digits denotes, first digit highest. -/
def ofDigits (digits : List Nat) : Nat :=
  digits.foldl (fun n digit => 10 * n + digit) 0

/-- The rank of the binary64 magnitude nearest to the decimal. -/
def rank (d : Decimal) : Nat :=
  Binary64.nearestRank
    (d.coefficient * Nat.pow 10 d.exponent.toNat * Binary64.unitsPerOne)
    (Nat.pow 10 (-d.exponent).toNat)

/-- The binary64 number nearest to the decimal; infinite beyond the largest. -/
def toBinary64 (d : Decimal) : Binary64 :=
  Binary64.ofRank false d.rank

/-- The same number without zeros at the end of its coefficient. -/
def strip (d : Decimal) : Decimal :=
  if h : d.coefficient ≠ 0 ∧ d.coefficient % 10 = 0 then
    strip ⟨d.coefficient / 10, d.exponent + 1⟩
  else d
termination_by d.coefficient
decreasing_by exact Nat.div_lt_self (Nat.pos_of_ne_zero h.1) (by decide)

end Decimal

end Reckoner
