import Reckoner.Fault

/-!
Diagnostics: the stable codes of all faults, with their wording. A code fixes a
template, whose slots are filled from named parameters, and a hint. Two codes of
the catalogue belong to faults that the grammar and the operators rule out.
-/
namespace Reckoner

/-! ## The catalogue -/

/-- The code of a diagnostic, in the order of the catalogue. -/
inductive Code where
  | unexpectedCharacter
  | danglingPoint
  | literalTooLarge
  | expectedName
  | expectedAssignment
  | unexpectedToken
  | invalidMultiplicativeOperator
  | invalidNumber
  | expectedClosing
  | expectedExpression
  | unsupportedStatement
  | unsupportedExpression
  | notAssignable
  | divisionByZero
  | unexpectedAssignment
  | undefinedPower
  | undefinedVariable
deriving DecidableEq, Inhabited

/-- A piece of a template: fixed text, or the place of a parameter. -/
inductive Segment where
  | words (text : String)
  | slot (name : String)
deriving DecidableEq

/-- The template as it is listed, with the names of its slots in braces. -/
def Segment.listing : Segment → String
  | .words text => text
  | .slot name => "\x7b" ++ name ++ "\x7d"

/-- The piece with the parameters filled in, each as it is. -/
def Segment.fill (params : List (String × String)) : Segment → String
  | .words text => text
  | .slot name => (params.lookup name).getD ""

namespace Code

/-- All codes in order. -/
def all : List Code :=
  [.unexpectedCharacter, .danglingPoint, .literalTooLarge, .expectedName,
    .expectedAssignment, .unexpectedToken, .invalidMultiplicativeOperator, .invalidNumber,
    .expectedClosing, .expectedExpression, .unsupportedStatement, .unsupportedExpression,
    .notAssignable, .divisionByZero, .unexpectedAssignment, .undefinedPower,
    .undefinedVariable]

/-- The code as it is shown. -/
def label : Code → String
  | .unexpectedCharacter => "LEXER_001"
  | .danglingPoint => "LEXER_002"
  | .literalTooLarge => "LEXER_003"
  | .expectedName => "PARSE_001"
  | .expectedAssignment => "PARSE_002"
  | .unexpectedToken => "PARSE_003"
  | .invalidMultiplicativeOperator => "PARSE_004"
  | .invalidNumber => "PARSE_005"
  | .expectedClosing => "PARSE_006"
  | .expectedExpression => "PARSE_007"
  | .unsupportedStatement => "EVAL_001"
  | .unsupportedExpression => "EVAL_002"
  | .notAssignable => "EVAL_003"
  | .divisionByZero => "EVAL_004"
  | .unexpectedAssignment => "EVAL_005"
  | .undefinedPower => "EVAL_006"
  | .undefinedVariable => "ENV_001"

/-- The wording, with its slots. -/
def template : Code → List Segment
  | .unexpectedCharacter => [.words "Unexpected character: ", .slot "char"]
  | .danglingPoint => [.words "Invalid number literal"]
  | .literalTooLarge => [.slot "kind", .words " overflow literal: ", .slot "literal"]
  | .expectedName => [.words "Expected identifier at statement start"]
  | .expectedAssignment => [.words "Expected assignment operator"]
  | .unexpectedToken => [.words "Unexpected token after expression"]
  | .invalidMultiplicativeOperator => [.words "Invalid multiplicative operator"]
  | .invalidNumber => [.words "Invalid number literal"]
  | .expectedClosing => [.words "Expected ')' after expression"]
  | .expectedExpression => [.words "Expected expression"]
  | .unsupportedStatement => [.words "Unsupported statement type"]
  | .unsupportedExpression => [.words "Unsupported expression type"]
  | .notAssignable => [.words "Operand is not assignable for ++/--"]
  | .divisionByZero => [.words "Division by zero"]
  | .unexpectedAssignment => [.words "Unexpected assignment operator: ", .slot "op"]
  | .undefinedPower =>
    [.words "Power result is not a finite real number: ", .slot "base", .words " ^ ",
      .slot "exponent"]
  | .undefinedVariable =>
    [.words "Undefined variable: ", .slot "name", .words ". Assign it before use."]

/-- What to do about it. -/
def hint : Code → String
  | .unexpectedCharacter =>
    "Remove the character; only identifiers, numbers, operators and parentheses are allowed"
  | .danglingPoint => "A '.' in a number must be followed by at least one digit (e.g. '1.5')"
  | .literalTooLarge => "Use a smaller number"
  | .expectedName => "Start with a variable name (e.g., 'x', 'result')"
  | .expectedAssignment => "Use an assignment operator: =, +=, -=, *=, /=, %=, or ^="
  | .unexpectedToken => "Check for extra tokens after your expression"
  | .invalidMultiplicativeOperator => "Use valid operators: +, -, *, /, %, or ^"
  | .invalidNumber => "Check your number format - ensure it's a valid integer or decimal"
  | .expectedClosing => "Make sure every opening '(' has a matching closing ')'"
  | .expectedExpression =>
    "Expected a value, variable, or expression (like '5', 'x', or '(2+3)')"
  | .unsupportedStatement =>
    "Check your statement structure - expected an assignment statement"
  | .unsupportedExpression => "Ensure the expression type is supported by the evaluator"
  | .notAssignable => "Only a bare variable can be incremented or decremented (e.g. 'i++')"
  | .divisionByZero => "Cannot divide by zero - use a non-zero divisor"
  | .unexpectedAssignment => "Use an assignment operator: =, +=, -=, *=, /=, %=, or ^="
  | .undefinedPower =>
    "Avoid fractional powers of negative numbers and results beyond floating-point range"
  | .undefinedVariable => "Make sure the variable is defined before using it"

end Code

/-! ## Diagnostics -/

/-- Which phase speaks. The general kind is for diagnostics of no phase. -/
inductive Phase where
  | general
  | lexing
  | parsing
  | evaluating
deriving DecidableEq, Inhabited

/-- The word that opens a message of this phase. -/
def Phase.label : Phase → String
  | .general => "CalcError"
  | .lexing => "LexerError"
  | .parsing => "ParseError"
  | .evaluating => "EvalError"

/-- A coded message about a line, with its place in the line and the line itself
where they are known. -/
structure Diagnostic where
  phase : Phase
  code : Code
  position : Option Int := none
  context : Option String := none
  params : List (String × String) := []
deriving DecidableEq

namespace Diagnostic

/-- The code and its filled template. -/
def detail (d : Diagnostic) : String :=
  d.code.label ++ ": " ++ String.join (d.code.template.map (Segment.fill d.params))

/-- The place in the line, as it follows the detail. -/
def positionText (d : Diagnostic) : String :=
  match d.position with
  | none => ""
  | some n => " at position " ++ toString n

/-- The context in parentheses; an empty one is left out. -/
def contextText (d : Diagnostic) : String :=
  match d.context with
  | none => ""
  | some context => if context = "" then "" else " (" ++ context ++ ")"

/-- The whole message. -/
def message (d : Diagnostic) : String :=
  "[" ++ d.phase.label ++ "] " ++ d.detail ++ d.positionText ++ d.contextText

/-- What to do about it. -/
def hint (d : Diagnostic) : String :=
  d.code.hint

/-- The diagnostic with a numbered line for its context. -/
def inLine (d : Diagnostic) (number : Int) (line : String) : Diagnostic :=
  { d with context := some ("line " ++ toString number ++ ": " ++ line) }

end Diagnostic

/-! ## The diagnostic of a fault -/

/-- The kind of literal as a message names it. -/
def LiteralKind.label : LiteralKind → String
  | .integer => "Integer"
  | .floating => "Floating-point"

/-- The diagnostic of a fault in the characters. A literal that is too large is
reported without its place. -/
def LexFault.diagnostic : LexFault → Diagnostic
  | .unexpectedCharacter character position =>
    { phase := .lexing, code := .unexpectedCharacter, position := some position,
      params := [("char", String.singleton character)] }
  | .danglingPoint position =>
    { phase := .lexing, code := .danglingPoint, position := some position }
  | .literalTooLarge kind literal =>
    { phase := .lexing, code := .literalTooLarge,
      params := [("kind", kind.label), ("literal", literal)] }

/-- The code for a failed expectation. -/
def Expectation.code : Expectation → Code
  | .name => .expectedName
  | .assignment => .expectedAssignment
  | .endOfLine => .unexpectedToken
  | .number => .invalidNumber
  | .closing => .expectedClosing
  | .expression => .expectedExpression

/-- The diagnostic of a fault in the tokens. -/
def ParseFault.diagnostic (fault : ParseFault) : Diagnostic :=
  { phase := .parsing, code := fault.expected.code, position := some fault.position }

/-- The diagnostic of a fault in the evaluation. It has no place in the line. -/
def EvalFault.diagnostic : EvalFault → Diagnostic
  | .unsupportedStatement => { phase := .evaluating, code := .unsupportedStatement }
  | .unsupportedExpression => { phase := .evaluating, code := .unsupportedExpression }
  | .notAssignable => { phase := .evaluating, code := .notAssignable }
  | .divisionByZero => { phase := .evaluating, code := .divisionByZero }
  | .undefinedPower base exponent =>
    { phase := .evaluating, code := .undefinedPower,
      params := [("base", base.text), ("exponent", exponent.text)] }
  | .undefinedVariable name =>
    { phase := .evaluating, code := .undefinedVariable, params := [("name", name)] }

/-- The diagnostic of a fault. -/
def Fault.diagnostic : Fault → Diagnostic
  | .lex fault => fault.diagnostic
  | .parse fault => fault.diagnostic
  | .eval fault => fault.diagnostic

end Reckoner
