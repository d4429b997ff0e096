import Reckoner.Proofs.Evaluation.Runs
import Reckoner.Proofs.Value.Range

/-! The range of integers along an evaluation. Bindings change by steps alone,
so what every step keeps every evaluation keeps; and from literals and
variables of the range no evaluation leaves it, neither in its own value nor in
that of a sub-expression it comes to. -/
namespace Reckoner

/-! ## What steps keep, evaluations keep -/

/-- Changing a bound variable by a step keeps the property. -/
def StepClosed (P : Bindings → Prop) : Prop :=
  ∀ {bindings : Bindings} {name : String} {value : Value}, P bindings →
    bindings.get? name = some value → ∀ step : Step, P (bindings.set name (step.apply value))

namespace Node

theorem takeStep_preserves {P : Bindings → Prop} (hP : StepClosed P) (step : Step)
    (operand : Node) {bindings : Bindings} (h : P bindings) :
    P (Evaluation.after (takeStep step operand bindings)) := by
  cases hname : operand.variable? with
  | none =>
    rw [takeStep_refused step hname]
    exact h
  | some name =>
    rw [takeStep_variable hname]
    cases hv : bindings.get? name with
    | none => exact h
    | some value => exact hP h hv step

/-- What every step keeps is kept by an evaluation, also by one that fails. -/
theorem evaluate_preserves {P : Bindings → Prop} (hP : StepClosed P) (node : Node)
    {bindings : Bindings} (h : P bindings) :
    P (Evaluation.after (node.evaluate bindings)) := by
  induction node generalizing bindings with
  | missing | bare | assign | literal => exact h
  | reference position name =>
    rw [evaluate_reference]
    cases bindings.get? name <;> exact h
  | unary position op operand ih =>
    cases op with
    | plus => exact ih h
    | minus =>
      rw [evaluate_minus]
      have hoperand := ih h
      cases hv : operand.evaluate bindings <;> rwa [hv] at hoperand
    | step step =>
      rw [evaluate_stepBefore]
      have hstep := takeStep_preserves hP step operand h
      cases hv : takeStep step operand bindings <;> rwa [hv] at hstep
  | stepAfter position step operand _ =>
    rw [evaluate_stepAfter]
    have hstep := takeStep_preserves hP step operand h
    cases hv : takeStep step operand bindings <;> rwa [hv] at hstep
  | binary position left op right ihl ihr =>
    rw [evaluate_binary]
    have hleft := ihl h
    cases hl : left.evaluate bindings with
    | error fault middle => rwa [hl] at hleft
    | ok a middle =>
      -- The right operand starts from what the left one leaves.
      rw [hl] at hleft
      have hright := ihr hleft
      dsimp only [Evaluation.after_ok] at hright ⊢
      cases hr : right.evaluate middle with
      | error fault after => rwa [hr] at hright
      | ok b after =>
        rw [hr] at hright
        dsimp only
        cases op.apply a b <;> exact hright

/-! ## Sub-expressions -/

/-- Evaluating the first node from the first bindings comes to evaluating the
second from the second. The operand of a step is changed, not evaluated. -/
inductive Reaches : Node → Bindings → Node → Bindings → Prop
  | here {node bindings} : Reaches node bindings node bindings
  | plus {position operand bindings sub before} (h : Reaches operand bindings sub before) :
      Reaches (.unary position .plus operand) bindings sub before
  | minus {position operand bindings sub before} (h : Reaches operand bindings sub before) :
      Reaches (.unary position .minus operand) bindings sub before
  | left {position left op right bindings sub before} (h : Reaches left bindings sub before) :
      Reaches (.binary position left op right) bindings sub before
  | right {position left op right bindings value middle sub before}
      (hl : left.evaluate bindings = .ok value middle) (h : Reaches right middle sub before) :
      Reaches (.binary position left op right) bindings sub before

/-- The values of the literals in the tree, from left to right. -/
def literals : Node → List Value
  | .literal _ value => [value]
  | .unary _ _ operand | .stepAfter _ _ operand => operand.literals
  | .binary _ left _ right => left.literals ++ right.literals
  | .assign _ _ _ expression => expression.literals
  | .missing | .bare _ _ | .reference _ _ => []

/-- Every literal of the tree is of the range. -/
def LiteralsInRange : Node → Prop
  | .literal _ value => value.InRange
  | .unary _ _ operand | .stepAfter _ _ operand => operand.LiteralsInRange
  | .binary _ left _ right => left.LiteralsInRange ∧ right.LiteralsInRange
  | _ => True

theorem literalsInRange_of_forall (node : Node) (h : ∀ value ∈ node.literals, value.InRange) :
    node.LiteralsInRange := by
  induction node with
  | missing | bare | assign | reference => trivial
  | literal position value => exact h value (List.mem_singleton_self value)
  | unary _ _ _ ih | stepAfter _ _ _ ih => exact ih h
  | binary _ _ _ _ ihl ihr =>
    obtain ⟨hleft, hright⟩ := List.forall_mem_append.mp h
    exact ⟨ihl hleft, ihr hright⟩

theorem stepClosed_inRange : StepClosed Bindings.InRange :=
  fun h _ step => h.set _ (step.apply_inRange _)

/-- The bindings after an evaluation are of the range if those before are. -/
theorem after_inRange (node : Node) {bindings : Bindings} (h : bindings.InRange) :
    (Evaluation.after (node.evaluate bindings)).InRange :=
  node.evaluate_preserves stepClosed_inRange h

theorem takeStep_inRange {step : Step} {operand : Node} {bindings after : Bindings}
    {values : Value × Value} (hb : bindings.InRange)
    (h : takeStep step operand bindings = .ok values after) :
    values.1.InRange ∧ values.2.InRange := by
  cases hname : operand.variable? with
  | none =>
    rw [takeStep_refused step hname] at h
    cases h
  | some name =>
    rw [takeStep_variable hname] at h
    cases hv : bindings.get? name with
    | none =>
      rw [hv] at h
      cases h
    | some value =>
      rw [hv] at h
      cases h
      exact ⟨hb.get? hv, step.apply_inRange value⟩

/-- The value of a tree with literals of the range is of the range. -/
theorem evaluate_inRange {node : Node} {bindings after : Bindings} {value : Value}
    (hn : node.LiteralsInRange) (hb : bindings.InRange)
    (h : node.evaluate bindings = .ok value after) : value.InRange := by
  induction node generalizing bindings value after with
  | missing | bare | assign => cases h
  | literal =>
    cases h
    exact hn
  | reference position name =>
    rw [evaluate_reference] at h
    split at h
    · next hv =>
      cases h
      exact hb.get? hv
    · cases h
  | unary position op operand ih =>
    cases op with
    | plus => exact ih hn hb h
    | minus =>
      rw [evaluate_minus] at h
      split at h
      · cases h
        exact Value.negate_inRange _
      · cases h
    | step step =>
      rw [evaluate_stepBefore] at h
      split at h
      · next hstep =>
        cases h
        exact (takeStep_inRange hb hstep).2
      · cases h
  | stepAfter position step operand _ =>
    rw [evaluate_stepAfter] at h
    split at h
    · next hstep =>
      cases h
      exact (takeStep_inRange hb hstep).1
    · cases h
  | binary position left op right ihl ihr =>
    rw [evaluate_binary] at h
    split at h
    · cases h
    · next hl =>
      split at h
      · cases h
      · split at h
        · cases h
        · next happly =>
          cases h
          exact BinaryOp.apply_inRange (ihl hn.1 hb hl) happly

/-- The range holds wherever an evaluation comes to. -/
theorem Reaches.inRange {node sub : Node} {bindings before : Bindings}
    (h : Reaches node bindings sub before) (hn : node.LiteralsInRange)
    (hb : bindings.InRange) : sub.LiteralsInRange ∧ before.InRange := by
  induction h with
  | here => exact ⟨hn, hb⟩
  | plus _ ih | minus _ ih => exact ih hn hb
  | left _ ih => exact ih hn.1 hb
  | @right _ left _ _ bindings _ _ _ _ hl _ ih =>
    -- The left operand, already evaluated, has kept the range.
    refine ih hn.2 ?_
    have hleft := left.after_inRange hb
    rwa [hl] at hleft

end Node

/-! ## Statements -/

namespace Assignment

/-- Running the statement comes to evaluating the node from the bindings: its
expression is evaluated if it needs no target, or has one. -/
def Reaches (a : Assignment) (bindings : Bindings) (sub : Node) (before : Bindings) : Prop :=
  (a.op = .plain ∨ (bindings.get? a.name).isSome) ∧
    Node.Reaches a.expression bindings sub before

theorem execute_inRange {a : Assignment} (ha : a.expression.LiteralsInRange)
    {bindings : Bindings} (hb : bindings.InRange) :
    (Evaluation.after (a.execute bindings)).InRange ∧
      ∀ value after, a.execute bindings = .ok value after → value.InRange := by
  have hafter := a.expression.after_inRange hb
  cases hop : a.op with
  | plain =>
    rw [execute_plain hop]
    cases hv : a.expression.evaluate bindings with
    | error fault after =>
      rw [hv] at hafter
      exact ⟨hafter, by rintro _ _ ⟨⟩⟩
    | ok value after =>
      rw [hv] at hafter
      have hvalue := Node.evaluate_inRange ha hb hv
      exact ⟨hafter.set a.name hvalue, by rintro _ _ ⟨⟩; exact hvalue⟩
  | compound op =>
    rw [execute_compound hop]
    cases hcurrent : bindings.get? a.name with
    | none => exact ⟨hb, by rintro _ _ ⟨⟩⟩
    | some current =>
      cases hv : a.expression.evaluate bindings with
      | error fault after =>
        rw [hv] at hafter
        exact ⟨hafter, by rintro _ _ ⟨⟩⟩
      | ok operand after =>
        rw [hv] at hafter
        dsimp only
        cases happly : op.apply current operand with
        | error fault => exact ⟨hafter, by rintro _ _ ⟨⟩⟩
        | ok value =>
          have hvalue := BinaryOp.apply_inRange (hb.get? hcurrent) happly
          exact ⟨hafter.set a.name hvalue, by rintro _ _ ⟨⟩; exact hvalue⟩

end Assignment

end Reckoner
