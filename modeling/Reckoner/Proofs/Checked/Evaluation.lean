import Reckoner.Proofs.Checked.Arithmetic
import Reckoner.Proofs.Evaluation.Range

/-! Evaluation out of partial operations. It raises a diagnostic of its own for
every tree and every operator that it has no case for. On trees and variables
of the range it always has an outcome, the one of `Node.evaluate` with the
fault diagnosed. -/
namespace Reckoner.Checked

/-- A checked computation over bindings, which stay changed after a diagnostic. -/
abbrev Running := ExceptT Diagnostic (StateT Bindings Option)

namespace Running

/-- A computation that leaves the bindings alone. -/
def lift {α : Type} (x : Checked α) : Running α := fun bindings =>
  x.run.map fun result => (result, bindings)

/-- The value of a variable. -/
def read (name : String) : Running Value := do
  match (← get).get? name with
  | some value => return value
  | none =>
    throw { phase := .evaluating, code := .undefinedVariable, params := [("name", name)] }

/-- Binds a variable. -/
def write (name : String) (value : Value) : Running Unit :=
  modify fun bindings => bindings.set name value

end Running

/-! ## Trees -/

/-- The name that a step changes. -/
def assignable : Node → Running String
  | .reference _ name => return name
  | _ => throw { phase := .evaluating, code := .notAssignable }

/-- The operator of a step; its other operand is the number one. -/
def stepOp : Step → BinaryOp
  | .increment => .add
  | .decrement => .subtract

/-- Changes a variable by a step; gives the values before and after. -/
def takeStep (step : Step) (operand : Node) : Running (Value × Value) := do
  let name ← assignable operand
  let before ← Running.read name
  let after ← Running.lift (apply (stepOp step) before (.int 1))
  Running.write name after
  return (before, after)

/-- The value of an expression. -/
def evaluate : Node → Running Value
  | .literal _ value => return value
  | .reference _ name => Running.read name
  | .unary _ .plus operand => evaluate operand
  | .unary _ .minus operand => return (← evaluate operand).negate
  | .unary _ (.step step) operand => return (← takeStep step operand).2
  | .stepAfter _ step operand => return (← takeStep step operand).1
  | .binary _ left op right => do
    let a ← evaluate left
    let b ← evaluate right
    Running.lift (apply op a b)
  | _ => throw { phase := .evaluating, code := .unsupportedExpression }

/-- The operator that a compound assignment applies. -/
def compoundOp? : AssignOp → Option BinaryOp
  | .plain => none
  | .compound op => some op

/-- Runs a tree that has to be an assignment. -/
def execute : Node → Running Value
  | .assign _ name op expression =>
    if op = .plain then do
      let value ← evaluate expression
      Running.write name value
      return value
    else
      match compoundOp? op with
      | none =>
        throw { phase := .evaluating, code := .unexpectedAssignment,
                params := [("op", op.symbol)] }
      | some binary => do
        let current ← Running.read name
        let operand ← evaluate expression
        let value ← Running.lift (apply binary current operand)
        Running.write name value
        return value
  | _ => throw { phase := .evaluating, code := .unsupportedStatement }

/-! ## The same outcome -/

/-- The outcome of an evaluation, with its fault diagnosed. -/
def settled {α : Type} :
    EStateM.Result EvalFault Bindings α → Option (Except Diagnostic α × Bindings)
  | .ok a after => some (.ok a, after)
  | .error fault after => some (.error fault.diagnostic, after)

theorem bind_apply {α β : Type} (x : Running α) (f : α → Running β) (bindings : Bindings) :
    (x >>= f) bindings =
      match x bindings with
      | none => none
      | some (.error diagnostic, after) => some (.error diagnostic, after)
      | some (.ok a, after) => f a after := by
  show (x bindings).bind _ = _
  rcases x bindings with _ | ⟨_ | _, _⟩ <;> rfl

/-- Computations with the same outcome go on to the same outcome. -/
theorem settled_bind {α β : Type} {x : Running α} {y : Evaluation α} {f : α → Running β}
    {g : α → Evaluation β} {bindings : Bindings} (hx : x bindings = settled (y bindings))
    (hf : ∀ a after, y bindings = .ok a after → f a after = settled (g a after)) :
    (x >>= f) bindings = settled ((y >>= g) bindings) := by
  rw [bind_apply, Evaluation.bind_apply, hx]
  cases hy : y bindings with
  | error fault after => rfl
  | ok a after => exact hf a after hy

theorem lift_answer {α : Type} (result : Except EvalFault α) (bindings : Bindings) :
    Running.lift (answer EvalFault.diagnostic result) bindings =
      settled (Evaluation.ofExcept result bindings) := by
  cases result <;> rfl

theorem read_eq (name : String) (bindings : Bindings) :
    Running.read name bindings = settled (Evaluation.read name bindings) := by
  unfold Running.read
  rw [bind_apply]
  show (match bindings.get? name with
    | some value => (pure value : Running Value)
    | none => throw _) bindings = _
  unfold Evaluation.read
  cases bindings.get? name <;> rfl

theorem read_eq_ok {name : String} {value : Value} {bindings after : Bindings}
    (h : Evaluation.read name bindings = .ok value after) :
    bindings.get? name = some value ∧ after = bindings := by
  unfold Evaluation.read at h
  split at h
  · next hget =>
    cases h
    exact ⟨hget, rfl⟩
  · cases h

theorem stepOp_eq (step : Step) {value : Value} (h : value.InRange) :
    apply (stepOp step) value (.int 1) = some (.ok (step.apply value)) := by
  rw [apply_eq (stepOp step) h (Value.inRange_int.mpr (by decide))]
  cases step <;> rfl

theorem takeStep_eq (step : Step) (operand : Node) {bindings : Bindings}
    (hb : bindings.InRange) :
    takeStep step operand bindings = settled (Node.takeStep step operand bindings) := by
  cases operand with
  | reference position name =>
    refine settled_bind (read_eq name bindings) fun before middle hread => ?_
    obtain ⟨hget, rfl⟩ := read_eq_ok hread
    rw [stepOp_eq step (hb.get? hget)]
    rfl
  | _ => rfl

/-- On a tree and variables of the range an evaluation has an outcome, the same as ever. -/
theorem evaluate_eq {node : Node} (hn : node.LiteralsInRange) {bindings : Bindings}
    (hb : bindings.InRange) : evaluate node bindings = settled (node.evaluate bindings) := by
  -- The operands keep the range, so the operator is applied to values of the range.
  induction node generalizing bindings with
  | missing | bare | assign | literal => rfl
  | reference position name => exact read_eq name bindings
  | unary position op operand ih =>
    cases op with
    | plus => exact ih hn hb
    | minus => exact settled_bind (ih hn hb) fun _ _ _ => rfl
    | step step => exact settled_bind (takeStep_eq step operand hb) fun _ _ _ => rfl
  | stepAfter position step operand _ =>
    exact settled_bind (takeStep_eq step operand hb) fun _ _ _ => rfl
  | binary position left op right ihl ihr =>
    refine settled_bind (ihl hn.1 hb) fun a middle hleft => ?_
    have hmiddle : middle.InRange := by
      have := left.after_inRange hb
      rwa [hleft] at this
    refine settled_bind (ihr hn.2 hmiddle) fun b after hright => ?_
    rw [apply_eq op (Node.evaluate_inRange hn.1 hb hleft)
      (Node.evaluate_inRange hn.2 hmiddle hright)]
    exact lift_answer (op.apply a b) after

/-- A statement has an outcome as well. -/
theorem execute_eq {a : Assignment} (ha : a.expression.LiteralsInRange) {bindings : Bindings}
    (hb : bindings.InRange) : execute a.toNode bindings = settled (a.execute bindings) := by
  obtain ⟨position, name, op, expression⟩ := a
  cases op with
  | plain =>
    exact settled_bind (evaluate_eq ha hb) fun value after _ => rfl
  | compound op =>
    refine settled_bind (read_eq name bindings) fun current middle hread => ?_
    obtain ⟨hget, rfl⟩ := read_eq_ok hread
    refine settled_bind (evaluate_eq ha hb) fun operand after hoperand => ?_
    rw [apply_eq op (hb.get? hget) (Node.evaluate_inRange ha hb hoperand)]
    exact settled_bind (lift_answer _ after) fun _ _ _ => rfl

end Reckoner.Checked
