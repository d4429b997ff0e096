import Reckoner.Binary64.Text

/-!
The values of the calculator: integers and binary64 numbers, and how they are
written.
-/
namespace Reckoner

/-- A number of one of two kinds. The operations keep integers in the signed
64-bit range; the type itself does not bound them. -/
inductive Value where
  | int (n : Int)
  | float (x : Binary64)
deriving DecidableEq

namespace Value

instance : Inhabited Value := ⟨.int 0⟩

/-- The kind is floating. -/
def isFloat : Value → Bool
  | .int _ => false
  | .float _ => true

/-- The value as a binary64 number, an integer rounded to the nearest. -/
def toBinary64 : Value → Binary64
  | .int n => .ofInt n
  | .float x => x

/-- Zero of either kind and sign. -/
def isZero : Value → Bool
  | .int n => n == 0
  | .float x => x.isZero

/-- Below zero. -/
def isNegative : Value → Bool
  | .int n => n < 0
  | .float x => x.isNegative

/-- The decimal text of an integer. -/
def intChars (n : Int) : List Char :=
  (if n < 0 then ['-'] else []) ++ Nat.toDigits 10 n.natAbs

/-- The text of a value. Only the text of a float holds a point, an exponent or
a letter. -/
def chars : Value → List Char
  | .int n => intChars n
  | .float x => x.chars

/-- The text of a value. -/
def text (v : Value) : String :=
  String.ofList v.chars

end Value

end Reckoner
