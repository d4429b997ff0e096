import Reckoner.Value

/-!
The trees of the calculator. A line becomes an `Assignment`; its right side is a
`Node`. Nodes also cover what no line produces but evaluation and printing must
answer for: a missing child, a node that only has a place, and an assignment in
the place of an expression.
-/
namespace Reckoner

/-! ## Operators -/

/-- The operators with two operands. -/
inductive BinaryOp where
  | add
  | subtract
  | multiply
  | divide
  | modulo
  | power
deriving DecidableEq, Inhabited

/-- A change of a variable by one. -/
inductive Step where
  | increment
  | decrement
deriving DecidableEq, Inhabited

/-- The operators before an operand: the signs, and the steps that give the
changed value. -/
inductive UnaryOp where
  | plus
  | minus
  | step (s : Step)
deriving DecidableEq, Inhabited

/-- The operators of an assignment: plain, or combined with a binary operator. -/
inductive AssignOp where
  | plain
  | compound (op : BinaryOp)
deriving DecidableEq, Inhabited

/-- The spelling of a binary operator. -/
def BinaryOp.symbol : BinaryOp → String
  | .add => "+"
  | .subtract => "-"
  | .multiply => "*"
  | .divide => "/"
  | .modulo => "%"
  | .power => "^"

/-- The spelling of a step. -/
def Step.symbol : Step → String
  | .increment => "++"
  | .decrement => "--"

/-- The spelling of an operator before an operand. -/
def UnaryOp.symbol : UnaryOp → String
  | .plus => "+"
  | .minus => "-"
  | .step s => s.symbol

/-- The spelling of an assignment: a compound one has its operator before the
equals sign. -/
def AssignOp.symbol : AssignOp → String
  | .plain => "="
  | .compound op => op.symbol ++ "="

/-! ## Trees -/

/-- The nodes that have nothing but a place. -/
inductive BareKind where
  | node
  | expression
  | statement
deriving DecidableEq, Inhabited

/-- A tree, each node with the place of its own token. -/
inductive Node where
  /-- Nothing, where a node could stand. -/
  | missing
  | bare (kind : BareKind) (position : Int)
  | literal (position : Int) (value : Value)
  | reference (position : Int) (name : String)
  | unary (position : Int) (op : UnaryOp) (operand : Node)
  /-- A variable followed by a step: gives the value from before the change. -/
  | stepAfter (position : Int) (step : Step) (operand : Node)
  | binary (position : Int) (left : Node) (op : BinaryOp) (right : Node)
  | assign (position : Int) (name : String) (op : AssignOp) (expression : Node)
deriving DecidableEq, Inhabited

/-- A statement: a name, how it is assigned, and the expression. -/
structure Assignment where
  position : Int
  name : String
  op : AssignOp
  expression : Node
deriving DecidableEq, Inhabited

/-- The statement as a tree. -/
def Assignment.toNode (a : Assignment) : Node :=
  .assign a.position a.name a.op a.expression

end Reckoner
