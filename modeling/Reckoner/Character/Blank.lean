/-!
Blank characters and line breaks. Four questions are asked of a character:
does a line made of such characters count as blank, does the scanner pass over
it between tokens, may it stand around a number, and does it end a line.
-/
namespace Reckoner.Character

/-- White space. A line made only of these characters is blank. -/
def isBlank (c : Char) : Bool :=
  let n := c.toNat
  (0x0009 ≤ n && n ≤ 0x000D) || (0x001C ≤ n && n ≤ 0x0020) || n == 0x0085 || n == 0x00A0 ||
    n == 0x1680 || (0x2000 ≤ n && n ≤ 0x200A) || n == 0x2028 || n == 0x2029 ||
    n == 0x202F || n == 0x205F || n == 0x3000

/-- White space at which a line must not be broken. -/
def isNoBreak (c : Char) : Bool :=
  let n := c.toNat
  n == 0x00A0 || n == 0x2007 || n == 0x202F

/-- White space that separates tokens: all of it but the no-break spaces. -/
def isGap (c : Char) : Bool :=
  isBlank c && !isNoBreak c

/-- White space that may stand around a number: all of it but the separators of
information. -/
def isPadding (c : Char) : Bool :=
  isBlank c && !(0x001C ≤ c.toNat && c.toNat ≤ 0x001F)

/-- A character that ends a line by itself. -/
def isLineBreak (c : Char) : Bool :=
  let n := c.toNat
  (0x000A ≤ n && n ≤ 0x000D) || (0x001C ≤ n && n ≤ 0x001E) || n == 0x0085 ||
    n == 0x2028 || n == 0x2029

end Reckoner.Character
