import Reckoner.Proofs.Checked.Scan
import Reckoner.Proofs.Grammar.Readers

/-! Reading by a cursor in the tokens. A token is looked up by its place, an
operator in the table of its level, and a number is converted; nothing says that
the place is among the tokens or that the table has the operator. The readings
call one another, to a depth that is given: one that would go deeper has no
result either. -/
namespace Reckoner.Checked.Cursor

/-- A computation that looks at tokens through a cursor. -/
abbrev Reading := StateT Nat Checked

/-! ## The tokens -/

/-- No result: the calls go too deep. -/
def tooDeep {α : Type} : Reading α := fun _ => none

/-- The token at a place. -/
def tokenAt? (tokens : List Token) (place : Nat) : Option Token :=
  tokens[place]?

/-- A diagnostic at a token. -/
def raise {α : Type} (code : Code) (token : Token) : Reading α :=
  throw { phase := .parsing, code := code, position := some token.position }

variable (tokens : List Token)

/-- The token at the cursor. -/
def peek : Reading Token := do
  tokenAt? tokens (← get)

/-- The token at the cursor, which goes past it unless it ends the line. -/
def advance : Reading Token := do
  let token ← peek tokens
  modify fun cursor => if token.kind = .endOfLine then cursor else cursor + 1
  return token

/-- The token at the cursor, which has to be of the kind. -/
def expect (kind : Token.Kind) (code : Code) : Reading Token := do
  let token ← peek tokens
  if token.kind = kind then advance tokens else raise code token

/-! ## The levels -/

/-- The value of a number token, by the conversion for its kind of number. -/
def valueOf? (text : List Char) : Option Value :=
  if '.' ∈ text then (floatOf? text).map .float else (integerOf? text).map .int

/-- The literal of a number token. -/
def number (token : Token) : Reading Node :=
  match valueOf? token.lexeme.toList with
  | some value => return .literal token.position value
  | none => raise .invalidNumber token

/-- The operator of a product. -/
def productOp (operator : Token) : Reading BinaryOp :=
  if operator.kind = .star then return .multiply
  else if operator.kind = .slash then return .divide
  else if operator.kind = .percent then return .modulo
  else raise .invalidMultiplicativeOperator operator

/-- The operand, taken with the step behind it if there is one. -/
def stepBehind (operand : Node) : Reading Node := do
  let token ← peek tokens
  if (Grammar.step? token.kind).isSome then
    let _ ← advance tokens
    let step ← Grammar.step? token.kind
    return .stepAfter token.position step operand
  else return operand

/-- The tree in parentheses, once the closing one has been met. -/
def closing (inner : Node) : Reading Node := do
  let _ ← expect tokens .rightParen .expectedClosing
  return inner

mutual

/-- Products joined by plus and minus. -/
def additive : Nat → Reading Node
  | 0 => tooDeep
  | depth + 1 => do
    let left ← multiplicative depth
    additiveLoop depth left

/-- The rest of a sum whose left part has been read. -/
def additiveLoop : Nat → Node → Reading Node
  | 0, _ => tooDeep
  | depth + 1, left => do
    let token ← peek tokens
    if token.kind = .plus ∨ token.kind = .minus then
      let operator ← advance tokens
      let right ← multiplicative depth
      let op := if operator.kind = .plus then BinaryOp.add else .subtract
      additiveLoop depth (.binary operator.position left op right)
    else return left

/-- Operands joined by times, divided by and modulo. -/
def multiplicative : Nat → Reading Node
  | 0 => tooDeep
  | depth + 1 => do
    let left ← unary depth
    multiplicativeLoop depth left

/-- The rest of a product whose left part has been read. -/
def multiplicativeLoop : Nat → Node → Reading Node
  | 0, _ => tooDeep
  | depth + 1, left => do
    let token ← peek tokens
    if token.kind = .star ∨ token.kind = .slash ∨ token.kind = .percent then
      let operator ← advance tokens
      let right ← unary depth
      let op ← productOp operator
      multiplicativeLoop depth (.binary operator.position left op right)
    else return left

/-- A sign or step with the operand behind it, or a stepped primary with its power. -/
def unary : Nat → Reading Node
  | 0 => tooDeep
  | depth + 1 => do
    let token ← peek tokens
    if (Grammar.unaryOp? token.kind).isSome then
      let _ ← advance tokens
      let operand ← unary depth
      let op ← Grammar.unaryOp? token.kind
      return .unary token.position op operand
    else
      let base ← stepped depth
      raised depth base

/-- The base, raised to the power behind it if there is one. -/
def raised : Nat → Node → Reading Node
  | 0, _ => tooDeep
  | depth + 1, base => do
    let token ← peek tokens
    if token.kind = .caret then
      let caret ← advance tokens
      let exponent ← unary depth
      return .binary caret.position base .power exponent
    else return base

/-- A primary with at most one step behind it. -/
def stepped : Nat → Reading Node
  | 0 => tooDeep
  | depth + 1 => do
    let operand ← primary depth
    stepBehind tokens operand

/-- A number, a name, or an expression in parentheses. -/
def primary : Nat → Reading Node
  | 0 => tooDeep
  | depth + 1 => do
    let token ← peek tokens
    if token.kind = .number then
      let _ ← advance tokens
      number token
    else if token.kind = .identifier then
      let _ ← advance tokens
      return .reference token.position token.lexeme
    else if token.kind = .leftParen then
      let _ ← advance tokens
      let inner ← additive depth
      closing tokens inner
    else raise .expectedExpression token

end

/-- The statement that the tokens up to the end form. -/
def statement (depth : Nat) : Reading Node := do
  let target ← expect tokens .identifier .expectedName
  let operator ← peek tokens
  if (Grammar.assignOp? operator.kind).isSome then
    let _ ← advance tokens
    let expression ← additive tokens depth
    let _ ← expect tokens .endOfLine .unexpectedToken
    let op ← Grammar.assignOp? operator.kind
    return .assign target.position target.lexeme op expression
  else raise .expectedAssignment operator

/-- The tree of the statement, read from the first token on. Six levels lie between
two tokens, so the calls need not go deeper than six to a token. -/
def parse : Checked Node :=
  (statement tokens (6 * tokens.length) 0).map Prod.fst

end Reckoner.Checked.Cursor
