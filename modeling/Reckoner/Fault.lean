import Reckoner.Value

/-!
What can be wrong with a line, by cause. A fault carries what its message needs
and nothing else; wording, codes and hints are the business of diagnostics.
Positions count characters from the start of the line.
-/
namespace Reckoner

/-- The two kinds of number literal. -/
inductive LiteralKind where
  | integer
  | floating
deriving DecidableEq

/-- Why a line has no tokens. -/
inductive LexFault where
  /-- No token starts with this character. -/
  | unexpectedCharacter (character : Char) (position : Int)
  /-- A point after an integer literal without a digit behind it. -/
  | danglingPoint (position : Int)
  /-- A literal beyond the range of its kind. -/
  | literalTooLarge (kind : LiteralKind) (literal : String)
deriving DecidableEq

/-- What the grammar wanted instead of the token it met. -/
inductive Expectation where
  /-- A name at the start of the statement. -/
  | name
  /-- An assignment operator after the name. -/
  | assignment
  /-- The end of the line after a complete expression. -/
  | endOfLine
  /-- A number that denotes a value. -/
  | number
  /-- The parenthesis that closes an open one. -/
  | closing
  /-- An operand. -/
  | expression
deriving DecidableEq

/-- Why tokens are no statement: a failed expectation and the place of the token
that failed it. -/
structure ParseFault where
  expected : Expectation
  position : Int
deriving DecidableEq

/-- Why a tree has no value. -/
inductive EvalFault where
  /-- The tree is no assignment. -/
  | unsupportedStatement
  /-- The tree is no expression. -/
  | unsupportedExpression
  /-- An increment or decrement of something other than a variable. -/
  | notAssignable
  | divisionByZero
  /-- The power is no finite real number. -/
  | undefinedPower (base exponent : Value)
  | undefinedVariable (name : String)
deriving DecidableEq

/-- What is wrong with a line, by the phase that finds it. -/
inductive Fault where
  | lex (fault : LexFault)
  | parse (fault : ParseFault)
  | eval (fault : EvalFault)
deriving DecidableEq

end Reckoner
