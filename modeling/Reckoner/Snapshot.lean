import Reckoner.Bindings
import Reckoner.Text.Quoted
import Reckoner.Token

/-!
What is shown of tokens and bindings: the snapshot of the variables, which is the
result of a run, and the listings that name every part.
-/
namespace Reckoner

/-- Names with their values, as `(a=1,b=2.5)`. -/
def snapshot (pairs : List (String × Value)) : String :=
  "(" ++ ",".intercalate (pairs.map fun pair => pair.1 ++ "=" ++ pair.2.text) ++ ")"

/-- The bindings in order, oldest name first. -/
def Bindings.snapshot (bindings : Bindings) : String :=
  Reckoner.snapshot bindings.entries

/-- The bindings with their names in quotes. -/
def Bindings.listing (bindings : Bindings) : String :=
  "Environment(\x7b" ++
    ", ".intercalate
      (bindings.entries.map fun pair => Text.quoted pair.1 ++ ": " ++ pair.2.text) ++
    "\x7d)"

/-- A token with its kind, its quoted lexeme and its place. -/
def Token.listing (token : Token) : String :=
  "Token(" ++ token.kind.label ++ ", " ++ Text.quoted token.lexeme ++ ", position=" ++
    toString token.position ++ ")"

end Reckoner
