import Reckoner.Character.Blank
import Reckoner.Character.Word
import Reckoner.Fault
import Reckoner.Numeral
import Reckoner.Token

/-!
From the characters of a line to its tokens. Gaps are passed over; every other
place must start a token, and the longest one that starts there is taken. A
number is checked as soon as it is met, so the first fault from the left is the
one reported.
-/
namespace Reckoner.Token

/-- The largest integer literal. -/
def largestInteger : Nat := (1 <<< 63) - 1

/-- The number of characters in the longest number at the start of the text: digits,
and after them a point if a digit follows it, with all digits behind it. -/
def numberLength (cs : List Char) : Nat :=
  let whole := cs.takeWhile Character.isDigit
  match cs.dropWhile Character.isDigit with
  | '.' :: back =>
    let fraction := back.takeWhile Character.isDigit
    if fraction = [] then whole.length else whole.length + 1 + fraction.length
  | _ => whole.length

/-- The kind and the length of the longest token at the start of a text. -/
def longest? (cs : List Char) : Option (Kind × Nat) :=
  match spellings.find? fun spelling => spelling.1.isPrefixOf cs with
  | some (spelling, kind) => some (kind, spelling.length)
  | none =>
    match cs with
    | [] => none
    | c :: _ =>
      if Character.isDigit c then some (.number, numberLength cs)
      else if Character.isWord c then some (.identifier, (cs.takeWhile Character.isWord).length)
      else none

/-- An integer literal is too large if its value is, or if more than nineteen
characters are left of it without the zeros `0` at its start. -/
def integerTooLarge (lexeme : List Char) (value : Int) : Bool :=
  19 < (lexeme.dropWhile (· == '0')).length || largestInteger < value

/-- The fault of a number literal, if it has one. `rest` is the text behind it and
`stop` the place where that text starts. -/
def numberFault? (lexeme rest : List Char) (stop : Int) : Option LexFault :=
  match (Numeral.read? lexeme).map Numeral.value with
  | some (.float x) =>
    if x.isFinite then none else some (.literalTooLarge .floating (String.ofList lexeme))
  | some (.int n) =>
    if rest.head? = some '.' then some (.danglingPoint stop)
    else if integerTooLarge lexeme n then
      some (.literalTooLarge .integer (String.ofList lexeme))
    else none
  | none => none

/-- The tokens of a text whose first character stands at `position`. -/
def scanFrom (position : Nat) (cs : List Char) : Except LexFault (List Token) :=
  match cs with
  | [] => .ok [⟨.endOfLine, "", position⟩]
  | c :: rest =>
    if Character.isGap c then scanFrom (position + 1) rest
    else
      match longest? cs with
      | none => .error (.unexpectedCharacter c position)
      | some (kind, length) =>
        let lexeme := cs.take length
        let after := rest.drop (length - 1)
        let fault? :=
          if kind = .number then numberFault? lexeme after (position + length) else none
        match fault? with
        | some fault => .error fault
        | none => do
          let tokens ← scanFrom (position + length) after
          return ⟨kind, String.ofList lexeme, position⟩ :: tokens
termination_by cs.length
decreasing_by
  · simp
  · have := List.length_drop (i := length - 1) (l := rest)
    simp only [List.length_cons]
    omega

/-- The tokens of a line, the last of them its end. -/
def scan (line : String) : Except LexFault (List Token) :=
  scanFrom 0 line.toList

end Reckoner.Token
