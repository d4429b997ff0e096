import Reckoner.Fault
import Reckoner.Node
import Reckoner.Numeral
import Reckoner.Token

/-!
The grammar of a line, from the loosest level to the tightest:

    statement      = name assignment expression end
    expression     = additive
    additive       = multiplicative { ("+" | "-") multiplicative }
    multiplicative = unary { ("*" | "/" | "%") unary }
    unary          = ("++" | "--" | "+" | "-") unary | stepped [ "^" unary ]
    stepped        = primary [ "++" | "--" ]
    primary        = number | name | "(" expression ")"

Operators of one level join from the left, powers from the right. A sign or step
before an operand takes the whole power behind it. There is a reader for each
level; it gives the tree and the tokens after it, which are fewer than before.
-/
namespace Reckoner.Grammar

/-! ## The role of a token -/

/-- The operator of a sum that a token stands for. -/
def additiveOp? : Token.Kind → Option BinaryOp
  | .plus => some .add
  | .minus => some .subtract
  | _ => none

/-- The operator of a product that a token stands for. -/
def multiplicativeOp? : Token.Kind → Option BinaryOp
  | .star => some .multiply
  | .slash => some .divide
  | .percent => some .modulo
  | _ => none

/-- The step that a token stands for behind an operand. -/
def step? : Token.Kind → Option Step
  | .plusPlus => some .increment
  | .minusMinus => some .decrement
  | _ => none

/-- The operator that a token stands for before an operand. -/
def unaryOp? : Token.Kind → Option UnaryOp
  | .plusPlus => some (.step .increment)
  | .minusMinus => some (.step .decrement)
  | .plus => some .plus
  | .minus => some .minus
  | _ => none

/-- The assignment that a token stands for. -/
def assignOp? : Token.Kind → Option AssignOp
  | .equal => some .plain
  | .plusEqual => some (.compound .add)
  | .minusEqual => some (.compound .subtract)
  | .starEqual => some (.compound .multiply)
  | .slashEqual => some (.compound .divide)
  | .percentEqual => some (.compound .modulo)
  | .caretEqual => some (.compound .power)
  | _ => none

/-! ## Results -/

/-- A tree and the tokens after it, fewer than `bound`. -/
structure Parsed (bound : Nat) where
  node : Node
  rest : List Token
  shorter : rest.length < bound

/-- The same result under a larger bound. -/
def Parsed.widen {m n : Nat} (parsed : Parsed m) (h : m ≤ n) : Parsed n :=
  ⟨parsed.node, parsed.rest, Nat.lt_of_lt_of_le parsed.shorter h⟩

/-- The same tokens after another tree. -/
def Parsed.withNode {n : Nat} (parsed : Parsed n) (node : Node) : Parsed n :=
  ⟨node, parsed.rest, parsed.shorter⟩

/-- The kind of the next token. Tokens that have run out count as the end. -/
def nextKind : List Token → Token.Kind
  | [] => .endOfLine
  | token :: _ => token.kind

/-- The fault at the next token. -/
def failAt {α : Type} (expected : Expectation) (tokens : List Token) : Except ParseFault α :=
  .error ⟨expected, (tokens.head?.map Token.position).getD 0⟩

/-- The value of a number token. -/
def numberOf (token : Token) : Except ParseFault Value :=
  match Numeral.read? token.lexeme.toList with
  | some numeral => .ok numeral.value
  | none => .error ⟨.number, token.position⟩

/-- The operand, taken with the step behind it if there is one. -/
def stepTail (operand : Node) (tokens : List Token) : Parsed (tokens.length + 1) :=
  match tokens with
  | [] => ⟨operand, [], by simp⟩
  | token :: rest =>
    match step? token.kind with
    | none => ⟨operand, token :: rest, by simp⟩
    | some step =>
      ⟨.stepAfter token.position step operand, rest, by simp only [List.length_cons]; omega⟩

/-- The tree in parentheses, once the closing one has been met. -/
def closed (inner : Node) (tokens : List Token) : Except ParseFault (Parsed tokens.length) :=
  match tokens with
  | [] => failAt .closing []
  | token :: rest =>
    if token.kind = .rightParen then .ok ⟨inner, rest, by simp⟩
    else failAt .closing (token :: rest)

/-! ## The levels -/

mutual

/-- Products joined by plus and minus. -/
def additive (tokens : List Token) : Except ParseFault (Parsed tokens.length) := do
  let first ← multiplicative tokens
  have := first.shorter
  let all ← additiveTail first.node first.rest
  return all.widen (by omega)
termination_by 6 * tokens.length + 5

/-- The rest of a sum whose left part has been read. -/
def additiveTail (left : Node) (tokens : List Token) :
    Except ParseFault (Parsed (tokens.length + 1)) :=
  match tokens with
  | [] => .ok ⟨left, [], by simp⟩
  | token :: rest =>
    match additiveOp? token.kind with
    | none => .ok ⟨left, token :: rest, by simp⟩
    | some op => do
      let right ← multiplicative rest
      have := right.shorter
      let all ← additiveTail (.binary token.position left op right.node) right.rest
      return all.widen (by simp only [List.length_cons]; omega)
termination_by 6 * tokens.length + 5

/-- Operands joined by times, divided by and modulo. -/
def multiplicative (tokens : List Token) : Except ParseFault (Parsed tokens.length) := do
  let first ← unary tokens
  have := first.shorter
  let all ← multiplicativeTail first.node first.rest
  return all.widen (by omega)
termination_by 6 * tokens.length + 4

/-- The rest of a product whose left part has been read. -/
def multiplicativeTail (left : Node) (tokens : List Token) :
    Except ParseFault (Parsed (tokens.length + 1)) :=
  match tokens with
  | [] => .ok ⟨left, [], by simp⟩
  | token :: rest =>
    match multiplicativeOp? token.kind with
    | none => .ok ⟨left, token :: rest, by simp⟩
    | some op => do
      let right ← unary rest
      have := right.shorter
      let all ← multiplicativeTail (.binary token.position left op right.node) right.rest
      return all.widen (by simp only [List.length_cons]; omega)
termination_by 6 * tokens.length + 4

/-- A sign or step with the operand behind it, or a stepped primary with its
power. -/
def unary (tokens : List Token) : Except ParseFault (Parsed tokens.length) :=
  match tokens with
  | [] => failAt .expression []
  | token :: rest =>
    match unaryOp? token.kind with
    | some op => do
      let operand ← unary rest
      let node := Node.unary token.position op operand.node
      return (operand.withNode node).widen (by simp)
    | none => do
      let base ← stepped (token :: rest)
      have : base.rest.length < rest.length + 1 := base.shorter
      let all ← powerTail base.node base.rest
      return all.widen (by simp only [List.length_cons]; omega)
termination_by 6 * tokens.length + 3

/-- The base, raised to the power behind it if there is one. -/
def powerTail (base : Node) (tokens : List Token) :
    Except ParseFault (Parsed (tokens.length + 1)) :=
  match tokens with
  | [] => .ok ⟨base, [], by simp⟩
  | token :: rest =>
    if token.kind = .caret then do
      let exponent ← unary rest
      let power := Node.binary token.position base .power exponent.node
      return (exponent.withNode power).widen (by simp only [List.length_cons]; omega)
    else .ok ⟨base, token :: rest, by simp⟩
termination_by 6 * tokens.length + 3

/-- A primary with at most one step behind it. -/
def stepped (tokens : List Token) : Except ParseFault (Parsed tokens.length) := do
  let operand ← primary tokens
  have := operand.shorter
  return (stepTail operand.node operand.rest).widen (by omega)
termination_by 6 * tokens.length + 2

/-- A number, a name, or an expression in parentheses. -/
def primary (tokens : List Token) : Except ParseFault (Parsed tokens.length) :=
  match tokens with
  | [] => failAt .expression []
  | token :: rest =>
    match token.kind with
    | .number => do
      let value ← numberOf token
      return ⟨.literal token.position value, rest, by simp⟩
    | .identifier => .ok ⟨.reference token.position token.lexeme, rest, by simp⟩
    | .leftParen => do
      let inner ← additive rest
      have := inner.shorter
      let all ← closed inner.node inner.rest
      return all.widen (by simp only [List.length_cons]; omega)
    | _ => failAt .expression (token :: rest)
termination_by 6 * tokens.length + 1

end

/-- An expression: the loosest level. -/
def expression (tokens : List Token) : Except ParseFault (Parsed tokens.length) :=
  additive tokens

/-- The statement that the tokens up to the end form. -/
def statement (tokens : List Token) : Except ParseFault Assignment :=
  match tokens with
  | [] => failAt .name []
  | target :: afterName =>
    if target.kind = .identifier then
      match afterName with
      | [] => failAt .assignment []
      | operator :: afterOperator =>
        match assignOp? operator.kind with
        | none => failAt .assignment afterName
        | some op => do
          let parsed ← expression afterOperator
          if nextKind parsed.rest = .endOfLine then
            return ⟨target.position, target.lexeme, op, parsed.node⟩
          else failAt .endOfLine parsed.rest
    else failAt .name tokens

end Reckoner.Grammar
