import Reckoner.Binary64.Rounding

/-!
The four operations and the remainder on binary64 numbers. Sum, product and
quotient are the exact results rounded once; the remainder is exact. A zero sum
of numbers of different sign is positive; a zero product or quotient has the
product of the signs.
-/
namespace Reckoner.Binary64

/-- The number with its sign reversed, zeros and infinities included. -/
def negate : Binary64 → Binary64
  | .nan => .nan
  | .infinite negative => .infinite (!negative)
  | .finite negative rank => .finite (!negative) rank

/-- The sum of two magnitudes of opposite sign: the difference with the sign of
the larger one. -/
def roundDifference (negative : Bool) (larger smaller : Nat) : Binary64 :=
  if larger = smaller then zero false
  else if smaller < larger then round negative (larger - smaller) 1
  else round (!negative) (smaller - larger) 1

/-- The sum. -/
def add : Binary64 → Binary64 → Binary64
  | .nan, _ => .nan
  | _, .nan => .nan
  | .infinite s, .infinite t => if s = t then .infinite s else .nan
  | .infinite s, .finite _ _ => .infinite s
  | .finite _ _, .infinite t => .infinite t
  | .finite s a, .finite t b =>
    if s = t then round s (units a + units b) 1
    else roundDifference s (units a) (units b)

/-- The difference. -/
def subtract (x y : Binary64) : Binary64 :=
  add x (negate y)

/-- The product. -/
def multiply : Binary64 → Binary64 → Binary64
  | .nan, _ => .nan
  | _, .nan => .nan
  | .infinite s, .infinite t => .infinite (s != t)
  | .infinite s, .finite t b => if b.val = 0 then .nan else .infinite (s != t)
  | .finite s a, .infinite t => if a.val = 0 then .nan else .infinite (s != t)
  | .finite s a, .finite t b => round (s != t) (units a * units b) unitsPerOne

/-- The quotient. A finite dividend over zero is infinite; zero over zero is
undefined. -/
def divide : Binary64 → Binary64 → Binary64
  | .nan, _ => .nan
  | _, .nan => .nan
  | .infinite _, .infinite _ => .nan
  | .infinite s, .finite t _ => .infinite (s != t)
  | .finite s _, .infinite t => zero (s != t)
  | .finite s a, .finite t b =>
    if b.val = 0 then if a.val = 0 then .nan else .infinite (s != t)
    else round (s != t) (units a * unitsPerOne) (units b)

/-- What is left of the dividend when the divisor has been taken away as often
as fits, with the sign of the dividend. -/
def remainder : Binary64 → Binary64 → Binary64
  | .nan, _ => .nan
  | _, .nan => .nan
  | .infinite _, _ => .nan
  | .finite s a, .infinite _ => .finite s a
  | .finite s a, .finite _ b =>
    if b.val = 0 then .nan else round s (units a % units b) 1

end Reckoner.Binary64
