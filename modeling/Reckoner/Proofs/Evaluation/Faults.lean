import Reckoner.Proofs.Evaluation.Runs

/-! What can go wrong in an evaluation. A tree that is an expression all the way
down fails for what its variables and operands are, and never for being
unsupported. -/
namespace Reckoner

/-- The fault is that of the tree itself, whatever the variables are. -/
def EvalFault.isUnsupported : EvalFault → Bool
  | .unsupportedStatement | .unsupportedExpression => true
  | _ => false

/-- The tree is made of the five kinds of expression, and no child is missing. -/
def Node.IsExpression : Node → Prop
  | .literal _ _ | .reference _ _ => True
  | .unary _ _ operand | .stepAfter _ _ operand => operand.IsExpression
  | .binary _ left _ right => left.IsExpression ∧ right.IsExpression
  | _ => False

variable {bindings after : Bindings} {fault : EvalFault}

theorem Value.floatPower_fault {a b : Value} (h : a.floatPower b = .error fault) :
    fault.isUnsupported = false := by
  unfold floatPower at h
  split at h
  · cases h
    rfl
  · split at h
    · cases h
    · cases h
      rfl

theorem BinaryOp.apply_fault {op : BinaryOp} {a b : Value} (h : op.apply a b = .error fault) :
    fault.isUnsupported = false := by
  cases op with
  | add | subtract | multiply => cases h
  | divide =>
    rw [apply, Value.divide] at h
    split at h
    · cases h
      rfl
    · cases h
  | modulo =>
    rw [apply] at h
    unfold Value.modulo at h
    split at h
    · cases h
      rfl
    · split at h <;> cases h
  | power =>
    rw [apply] at h
    unfold Value.power at h
    split at h
    · split at h
      · cases h
      · exact Value.floatPower_fault h
    · exact Value.floatPower_fault h

namespace Node

theorem takeStep_fault {step : Step} {operand : Node}
    (h : takeStep step operand bindings = .error fault after) :
    fault.isUnsupported = false := by
  cases hname : operand.variable? with
  | none =>
    rw [takeStep_refused step hname] at h
    cases h
    rfl
  | some name =>
    rw [takeStep_variable hname] at h
    split at h
    · cases h
    · cases h
      rfl

/-- An expression is never unsupported. -/
theorem evaluate_fault {node : Node} (hn : node.IsExpression)
    (h : node.evaluate bindings = .error fault after) : fault.isUnsupported = false := by
  -- Every fault is that of an operand, of a step or of the operator itself.
  induction node generalizing bindings fault after with
  | missing | bare | assign => cases hn
  | literal =>
    rw [evaluate_literal] at h
    cases h
  | reference position name =>
    rw [evaluate_reference] at h
    split at h
    · cases h
    · cases h
      rfl
  | unary position op operand ih =>
    cases op with
    | plus =>
      rw [evaluate_plus] at h
      exact ih hn h
    | minus =>
      rw [evaluate_minus] at h
      split at h
      · cases h
      · next hoperand =>
        cases h
        exact ih hn hoperand
    | step step =>
      rw [evaluate_stepBefore] at h
      split at h
      · cases h
      · next hstep =>
        cases h
        exact takeStep_fault hstep
  | stepAfter position step operand _ =>
    rw [evaluate_stepAfter] at h
    split at h
    · cases h
    · next hstep =>
      cases h
      exact takeStep_fault hstep
  | binary position left op right ihl ihr =>
    rw [evaluate_binary] at h
    split at h
    · next hleft =>
      cases h
      exact ihl hn.1 hleft
    · split at h
      · next hright =>
        cases h
        exact ihr hn.2 hright
      · split at h
        · next happly =>
          cases h
          exact BinaryOp.apply_fault happly
        · cases h

end Node

/-- Neither is an assignment of one. -/
theorem Assignment.execute_fault {a : Assignment} (ha : a.expression.IsExpression)
    (h : a.execute bindings = .error fault after) : fault.isUnsupported = false := by
  cases hop : a.op with
  | plain =>
    rw [execute_plain hop] at h
    split at h
    · next hvalue =>
      cases h
      exact Node.evaluate_fault ha hvalue
    · cases h
  | compound op =>
    rw [execute_compound hop] at h
    split at h
    · cases h
      rfl
    · split at h
      · next hoperand =>
        cases h
        exact Node.evaluate_fault ha hoperand
      · split at h
        · next happly =>
          cases h
          exact BinaryOp.apply_fault happly
        · cases h

end Reckoner
