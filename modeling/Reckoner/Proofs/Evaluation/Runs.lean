import Reckoner.Evaluation

/-! What an evaluation does from given bindings: one equation for each kind of
node, with no monad left in it. Later proofs rewrite with these and never open
`Node.evaluate`. -/
namespace Reckoner

/-! ## Results -/

/-- The bindings left behind, after a fault as well. -/
def Evaluation.after {α : Type} : EStateM.Result EvalFault Bindings α → Bindings
  | .ok _ bindings => bindings
  | .error _ bindings => bindings

@[simp] theorem Evaluation.after_ok {α : Type} (a : α) (bindings : Bindings) :
    Evaluation.after (.ok a bindings) = bindings := rfl

@[simp] theorem Evaluation.after_error {α : Type} (fault : EvalFault) (bindings : Bindings) :
    Evaluation.after (.error fault bindings : EStateM.Result EvalFault Bindings α) =
      bindings := rfl

/-- One computation after the other, on any state. -/
theorem Evaluation.bind_apply {ε σ α β : Type} (x : EStateM ε σ α) (f : α → EStateM ε σ β)
    (state : σ) :
    (x >>= f) state =
      match x state with
      | .ok a after => f a after
      | .error fault after => .error fault after := by
  show EStateM.bind x f state = _
  unfold EStateM.bind
  cases x state <;> rfl

/-- The name of a bare variable: what a step can change. -/
def Node.variable? : Node → Option String
  | .reference _ name => some name
  | _ => none

/-! ## Nodes -/

namespace Node

variable {position : Int} {left right operand : Node} {bindings : Bindings}

theorem evaluate_literal (value : Value) :
    (literal position value).evaluate bindings = .ok value bindings := rfl

theorem evaluate_reference (name : String) :
    (reference position name).evaluate bindings =
      match bindings.get? name with
      | some value => .ok value bindings
      | none => .error (.undefinedVariable name) bindings := rfl

theorem evaluate_plus :
    (unary position .plus operand).evaluate bindings = operand.evaluate bindings := rfl

theorem evaluate_minus :
    (unary position .minus operand).evaluate bindings =
      match operand.evaluate bindings with
      | .ok value after => .ok value.negate after
      | .error fault after => .error fault after := by
  show (operand.evaluate >>= fun value => pure value.negate) bindings = _
  rw [Evaluation.bind_apply]
  cases operand.evaluate bindings <;> rfl

theorem takeStep_variable {step : Step} {name : String} (h : operand.variable? = some name) :
    takeStep step operand bindings =
      match bindings.get? name with
      | some value => .ok (value, step.apply value) (bindings.set name (step.apply value))
      | none => .error (.undefinedVariable name) bindings := by
  cases operand <;> cases h
  show (Evaluation.read name >>= _) bindings = _
  rw [Evaluation.bind_apply, Evaluation.read]
  cases bindings.get? name <;> rfl

theorem takeStep_refused (step : Step) (h : operand.variable? = none) :
    takeStep step operand bindings = .error .notAssignable bindings := by
  cases operand <;> first | rfl | cases h

theorem evaluate_stepBefore (step : Step) :
    (unary position (.step step) operand).evaluate bindings =
      match takeStep step operand bindings with
      | .ok values after => .ok values.2 after
      | .error fault after => .error fault after := by
  show (takeStep step operand >>= fun values => pure values.2) bindings = _
  rw [Evaluation.bind_apply]
  cases takeStep step operand bindings <;> rfl

theorem evaluate_stepAfter (step : Step) :
    (stepAfter position step operand).evaluate bindings =
      match takeStep step operand bindings with
      | .ok values after => .ok values.1 after
      | .error fault after => .error fault after := by
  show (takeStep step operand >>= fun values => pure values.1) bindings = _
  rw [Evaluation.bind_apply]
  cases takeStep step operand bindings <;> rfl

theorem evaluate_binary (op : BinaryOp) :
    (binary position left op right).evaluate bindings =
      match left.evaluate bindings with
      | .error fault middle => .error fault middle
      | .ok a middle =>
        match right.evaluate middle with
        | .error fault after => .error fault after
        | .ok b after =>
          match op.apply a b with
          | .error fault => .error fault after
          | .ok value => .ok value after := by
  show (left.evaluate >>= fun a => right.evaluate >>= fun b =>
    Evaluation.ofExcept (op.apply a b)) bindings = _
  rw [Evaluation.bind_apply]
  cases left.evaluate bindings with
  | error fault after => rfl
  | ok a middle =>
    dsimp only
    rw [Evaluation.bind_apply]
    cases right.evaluate middle with
    | error fault after => rfl
    | ok b after =>
      dsimp only
      cases op.apply a b <;> rfl

end Node

/-! ## Statements -/

namespace Assignment

variable {a : Assignment} {bindings : Bindings}

theorem execute_plain (h : a.op = .plain) :
    a.execute bindings =
      match a.expression.evaluate bindings with
      | .error fault after => .error fault after
      | .ok value after => .ok value (after.set a.name value) := by
  rw [execute, h]
  show (a.expression.evaluate >>= _) bindings = _
  rw [Evaluation.bind_apply]
  cases a.expression.evaluate bindings <;> rfl

theorem execute_compound {op : BinaryOp} (h : a.op = .compound op) :
    a.execute bindings =
      match bindings.get? a.name with
      | none => .error (.undefinedVariable a.name) bindings
      | some current =>
        match a.expression.evaluate bindings with
        | .error fault after => .error fault after
        | .ok operand after =>
          match op.apply current operand with
          | .error fault => .error fault after
          | .ok value => .ok value (after.set a.name value) := by
  rw [execute, h]
  show (Evaluation.read a.name >>= _) bindings = _
  rw [Evaluation.bind_apply, Evaluation.read]
  cases bindings.get? a.name with
  | none => rfl
  | some current =>
    dsimp only
    rw [Evaluation.bind_apply]
    cases a.expression.evaluate bindings with
    | error fault after => rfl
    | ok operand after =>
      dsimp only
      rw [Evaluation.bind_apply]
      cases op.apply current operand <;> rfl

end Assignment

end Reckoner
