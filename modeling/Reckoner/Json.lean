import Reckoner.Text.Quoted
import Reckoner.Value

/-!
JSON documents and their text: two spaces for each level, one item or field a
line, ASCII only. The numbers that JSON lacks are written as the words NaN,
Infinity and -Infinity.
-/
namespace Reckoner

/-- A document. Integers and floats are different numbers, and the fields of an
object keep their order. -/
inductive Json where
  | null
  | int (n : Int)
  | float (x : Binary64)
  | string (text : String)
  | array (items : List Json)
  | object (fields : List (String × Json))

namespace Json

/-- One unit of UTF-16 as an escape. -/
def unitEscape (unit : Nat) : List Char :=
  Text.backslash :: 'u' :: Text.hex 4 unit

/-- A character as it stands in a string. Beyond the first 2^16 code points it is
written as two units, the first with the high ten bits. -/
def escape (c : Char) : List Char :=
  if c = Text.doubleQuote || c = Text.backslash then [Text.backslash, c]
  else if c = '\n' then [Text.backslash, 'n']
  else if c = '\r' then [Text.backslash, 'r']
  else if c = '\t' then [Text.backslash, 't']
  else if c.toNat = 0x08 then [Text.backslash, 'b']
  else if c.toNat = 0x0C then [Text.backslash, 'f']
  else if 0x20 ≤ c.toNat && c.toNat ≤ 0x7E then [c]
  else if c.toNat < 0x10000 then unitEscape c.toNat
  else
    let offset := c.toNat - 0x10000
    unitEscape (0xD800 + offset / 0x400) ++ unitEscape (0xDC00 + offset % 0x400)

/-- A string in double quotes. -/
def stringChars (text : String) : List Char :=
  Text.doubleQuote :: text.toList.flatMap escape ++ [Text.doubleQuote]

/-- A float as a number or one of the three words. -/
def floatChars : Binary64 → List Char
  | .nan => "NaN".toList
  | .infinite negative => Binary64.signChars negative ++ "Infinity".toList
  | x => x.chars

/-- The start of a line at the given depth. -/
def lineStart (depth : Nat) : List Char :=
  '\n' :: List.replicate (2 * depth) ' '

mutual

/-- The text of a document whose first line stands at the given depth. -/
def chars (depth : Nat) : Json → List Char
  | .null => "null".toList
  | .int n => Value.intChars n
  | .float x => floatChars x
  | .string text => stringChars text
  | .array items =>
    '[' :: itemsChars (depth + 1) items ++
      (if items.isEmpty then [] else lineStart depth) ++ [']']
  | .object fields =>
    '\x7b' :: fieldsChars (depth + 1) fields ++
      (if fields.isEmpty then [] else lineStart depth) ++ ['\x7d']

/-- Items, each on its line, with commas between them. -/
def itemsChars (depth : Nat) : List Json → List Char
  | [] => []
  | item :: rest =>
    lineStart depth ++ item.chars depth ++
      (if rest.isEmpty then [] else ',' :: itemsChars depth rest)

/-- Fields, each on its line, with commas between them. -/
def fieldsChars (depth : Nat) : List (String × Json) → List Char
  | [] => []
  | (key, value) :: rest =>
    lineStart depth ++ stringChars key ++ ':' :: ' ' :: value.chars depth ++
      (if rest.isEmpty then [] else ',' :: fieldsChars depth rest)

end

/-- The text of a document. -/
def text (document : Json) : String :=
  String.ofList (document.chars 0)

end Json

end Reckoner
