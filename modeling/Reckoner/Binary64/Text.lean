import Reckoner.Decimal.Shortest

/-!
The text of a binary64 number: its shortest decimal, positional for magnitudes
from 10^-4 to below 10^16 and with an exponent outside that range. Positional
text always has a point, so it never looks like an integer.
-/
namespace Reckoner.Binary64

/-- The decimal exponents that are written without an exponent part. -/
def isPositional (exponent : Int) : Bool :=
  -4 ≤ exponent && exponent < 16

/-- Digits with the point after the digit of `10 ^ 0`; `exponent` is the power
of ten of the first digit. -/
def positional (digits : List Char) (exponent : Int) : List Char :=
  if exponent < 0 then
    '0' :: '.' :: (List.replicate (-exponent - 1).toNat '0' ++ digits)
  else
    let whole := exponent.toNat + 1
    let filled := digits ++ List.replicate (whole - digits.length) '0'
    let fraction := filled.drop whole
    filled.take whole ++ '.' :: (if fraction = [] then ['0'] else fraction)

/-- An exponent with its sign and at least two digits. -/
def exponentPart (exponent : Int) : List Char :=
  let digits := Nat.toDigits 10 exponent.natAbs
  (if exponent < 0 then '-' else '+') ::
    (List.replicate (2 - digits.length) '0' ++ digits)

/-- One digit, a point before the others if there are any, and the exponent. -/
def scientific (digits : List Char) (exponent : Int) : List Char :=
  let fraction := digits.drop 1
  digits.take 1 ++ (if fraction = [] then [] else '.' :: fraction) ++
    'e' :: exponentPart exponent

/-- The text of the magnitude of this rank. -/
def magnitudeChars (rank : Nat) : List Char :=
  if rank = 0 then ['0', '.', '0']
  else
    let decimal := Decimal.shortest rank
    let digits := Nat.toDigits 10 decimal.coefficient
    let exponent := decimal.exponent + digits.length - 1
    if isPositional exponent then positional digits exponent
    else scientific digits exponent

/-- A minus sign for a negative number. -/
def signChars (negative : Bool) : List Char :=
  if negative then ['-'] else []

/-- The text of a number. -/
def chars : Binary64 → List Char
  | .nan => ['n', 'a', 'n']
  | .infinite negative => signChars negative ++ ['i', 'n', 'f']
  | .finite negative rank => signChars negative ++ magnitudeChars rank

end Reckoner.Binary64
