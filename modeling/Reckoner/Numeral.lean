import Reckoner.Character.Blank
import Reckoner.Character.Digit
import Reckoner.Value

/-!
Numbers as they are written: digits of any scripts, with at most one point. A
number without a point denotes an integer of any size, one with a point the
binary64 number nearest to it. More can be read than a line holds in one token:
blanks around the number, a sign, underscores between digits, a point without
digits on one of its sides, and behind a point an exponent.
-/
namespace Reckoner

/-- The sign, the digit values before the point and, if there is a point, after it,
and the power of ten behind them. -/
structure Numeral where
  negative : Bool
  whole : List Nat
  fraction : Option (List Nat)
  exponent : Int
deriving DecidableEq

namespace Numeral

/-! ## Reading -/

/-- The text without the blanks around it. -/
def withoutPadding (cs : List Char) : List Char :=
  ((cs.dropWhile Character.isPadding).reverse.dropWhile Character.isPadding).reverse

/-- Whether there is a minus sign in front, and the text behind the sign. -/
def splitSign : List Char → Bool × List Char
  | '-' :: cs => (true, cs)
  | '+' :: cs => (false, cs)
  | cs => (false, cs)

/-- The underscores of a text only set apart what stands between them. `apart` tells
that there is something in front. -/
def separated (apart : Bool) : List Char → Bool
  | [] => apart
  | c :: cs => if c = '_' then apart && separated false cs else separated true cs

/-- The values of digits, which may be set apart by underscores. -/
def digits? (cs : List Char) : Option (List Nat) :=
  if separated false cs then (cs.filter (· != '_')).mapM Character.digit? else none

/-- The values of digits, or of none at all. -/
def optionalDigits? (cs : List Char) : Option (List Nat) :=
  if cs = [] then some [] else digits? cs

/-- The number with its sign. -/
def withSign (negative : Bool) (n : Nat) : Int :=
  if negative then -n else n

/-- A letter in front of an exponent. -/
def isExponentMark (c : Char) : Bool :=
  c == 'e' || c == 'E'

/-- The exponent that a text writes, the letter in front included. Without a text it
is zero. -/
def exponent? : List Char → Option Int
  | [] => some 0
  | _ :: cs =>
    let (negative, cs) := splitSign cs
    (digits? cs).map fun ds => withSign negative (Decimal.ofDigits ds)

/-- The number that a text writes. There is a digit on one side of the point at
least. -/
def read? (text : List Char) : Option Numeral :=
  let (negative, cs) := splitSign (withoutPadding text)
  let front := cs.takeWhile (· != '.')
  match cs.dropWhile (· != '.') with
  | [] => do return ⟨negative, ← digits? front, none, 0⟩
  | _ :: behind =>
    let back := behind.takeWhile (!isExponentMark ·)
    if front = [] && back = [] then none
    else do
      return ⟨negative, ← optionalDigits? front, some (← optionalDigits? back),
        ← exponent? (behind.dropWhile (!isExponentMark ·))⟩

/-! ## Values -/

/-- The integer that the digits before the point denote. -/
def toInt (numeral : Numeral) : Int :=
  withSign numeral.negative (Decimal.ofDigits numeral.whole)

/-- The exact decimal number that the numeral denotes, without its sign. -/
def toDecimal (numeral : Numeral) : Decimal :=
  let fraction := numeral.fraction.getD []
  ⟨Decimal.ofDigits (numeral.whole ++ fraction), numeral.exponent - fraction.length⟩

/-- The binary64 number nearest to the one that the numeral denotes. -/
def toBinary64 (numeral : Numeral) : Binary64 :=
  .ofRank numeral.negative numeral.toDecimal.rank

/-- The value of the numeral: the point alone decides the kind. -/
def value (numeral : Numeral) : Value :=
  match numeral.fraction with
  | none => .int numeral.toInt
  | some _ => .float numeral.toBinary64

end Numeral

end Reckoner
