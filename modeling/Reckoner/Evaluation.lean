import Reckoner.Bindings
import Reckoner.Node
import Reckoner.Value.Arithmetic

/-!
The meaning of trees. An evaluation reads and changes bindings and ends in a
value or a fault; it goes from left to right, and the changes made before a fault
stay. A compound assignment reads its target before the right side runs, and
only an assignment that succeeds binds its target.
-/
namespace Reckoner

/-- A computation over bindings that can end in a fault. The bindings are those
left behind in either case. -/
abbrev Evaluation := EStateM EvalFault Bindings

namespace Evaluation

/-- The value of a variable. -/
def read (name : String) : Evaluation Value := fun bindings =>
  match bindings.get? name with
  | some value => .ok value bindings
  | none => .error (.undefinedVariable name) bindings

/-- Binds a variable. -/
def write (name : String) (value : Value) : Evaluation Unit := fun bindings =>
  .ok () (bindings.set name value)

/-- The outcome of an operation that leaves the bindings alone. -/
def ofExcept {α : Type} : Except EvalFault α → Evaluation α
  | .ok a => pure a
  | .error fault => throw fault

end Evaluation

/-- The operator applied to two values. -/
def BinaryOp.apply : BinaryOp → Value → Value → Except EvalFault Value
  | .add, a, b => .ok (a.add b)
  | .subtract, a, b => .ok (a.subtract b)
  | .multiply, a, b => .ok (a.multiply b)
  | .divide, a, b => a.divide b
  | .modulo, a, b => a.modulo b
  | .power, a, b => a.power b

/-- The value one step further. -/
def Step.apply : Step → Value → Value
  | .increment, v => v.add (.int 1)
  | .decrement, v => v.subtract (.int 1)

namespace Node

/-- Changes a variable by a step; gives the values before and after. Anything but
a bare variable is refused, without being evaluated. -/
def takeStep (step : Step) : Node → Evaluation (Value × Value)
  | .reference _ name => do
    let before ← Evaluation.read name
    let after := step.apply before
    Evaluation.write name after
    return (before, after)
  | _ => throw .notAssignable

/-- The value of an expression. -/
def evaluate : Node → Evaluation Value
  | .literal _ value => return value
  | .reference _ name => Evaluation.read name
  | .unary _ .plus operand => operand.evaluate
  | .unary _ .minus operand => return (← operand.evaluate).negate
  | .unary _ (.step step) operand => return (← takeStep step operand).2
  | .stepAfter _ step operand => return (← takeStep step operand).1
  | .binary _ left op right => do
    let a ← left.evaluate
    let b ← right.evaluate
    Evaluation.ofExcept (op.apply a b)
  | _ => throw .unsupportedExpression

end Node

/-- Runs a statement; gives the value bound. -/
def Assignment.execute (a : Assignment) : Evaluation Value :=
  match a.op with
  | .plain => do
    let value ← a.expression.evaluate
    Evaluation.write a.name value
    return value
  | .compound op => do
    let current ← Evaluation.read a.name
    let operand ← a.expression.evaluate
    let value ← Evaluation.ofExcept (op.apply current operand)
    Evaluation.write a.name value
    return value

/-- Runs a tree that has to be an assignment. -/
def Node.execute : Node → Evaluation Value
  | .assign position name op expression => Assignment.execute ⟨position, name, op, expression⟩
  | _ => throw .unsupportedStatement

end Reckoner
