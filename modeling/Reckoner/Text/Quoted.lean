import Reckoner.Character.Printable

/-!
Quoted text: a string in quotes that shows every character. Single quotes are
used unless the text has a single quote and no double one. The quote in use and
the backslash are escaped; a character without a printed form is shown by name
or by its code point in two, four or eight hexadecimal digits.
-/
namespace Reckoner.Text

/-- The character of single quotes. -/
def singleQuote : Char := Char.ofNat 0x27

/-- The character of double quotes. -/
def doubleQuote : Char := Char.ofNat 0x22

/-- The character that starts an escape. -/
def backslash : Char := Char.ofNat 0x5C

/-- A number in lower-case hexadecimal with at least `width` digits. -/
def hex (width n : Nat) : List Char :=
  let digits := Nat.toDigits 16 n
  List.replicate (width - digits.length) '0' ++ digits

/-- The quote that goes around a text. -/
def quoteFor (cs : List Char) : Char :=
  if singleQuote ∈ cs ∧ doubleQuote ∉ cs then doubleQuote else singleQuote

/-- A character as it stands inside the quotes. -/
def quotedChar (quote c : Char) : List Char :=
  if c = quote || c = backslash then [backslash, c]
  else if c = '\t' then [backslash, 't']
  else if c = '\n' then [backslash, 'n']
  else if c = '\r' then [backslash, 'r']
  else if Character.isPrintable c then [c]
  else if c.toNat < 0x100 then backslash :: 'x' :: hex 2 c.toNat
  else if c.toNat < 0x10000 then backslash :: 'u' :: hex 4 c.toNat
  else backslash :: 'U' :: hex 8 c.toNat

/-- The text in quotes. -/
def quoted (text : String) : String :=
  let cs := text.toList
  let quote := quoteFor cs
  String.ofList (quote :: cs.flatMap (quotedChar quote) ++ [quote])

end Reckoner.Text
