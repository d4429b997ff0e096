import Reckoner.Proofs.Evaluation.Locality
import Reckoner.Proofs.Evaluation.Range

/-! The kinds of values. A sum, a product or a step is a float exactly if an operand is one,
and so is every other operation but the power. So the kind of an expression can be read off
its literals and its variables as they are before it is evaluated; the steps in it change
their values and leave their kinds alone. -/
namespace Reckoner

/-! ## One operation -/

namespace Value

variable {a b v : Value}

/-- A float operand makes the result a float. -/
theorem isFloat_combine (onInts : Int → Int → Int) (onFloats : Binary64 → Binary64 → Binary64)
    (a b : Value) : (combine onInts onFloats a b).isFloat = (a.isFloat || b.isFloat) := by
  cases a <;> cases b <;> rfl

theorem isFloat_negate (a : Value) : a.negate.isFloat = a.isFloat := by
  cases a <;> rfl

theorem isFloat_divide (h : a.divide b = .ok v) : v.isFloat = (a.isFloat || b.isFloat) := by
  unfold divide at h
  split at h
  · cases h
  · cases h
    exact isFloat_combine _ _ a b

theorem isFloat_modulo (h : a.modulo b = .ok v) : v.isFloat = (a.isFloat || b.isFloat) := by
  unfold modulo at h
  split at h
  · cases h
  · cases a <;> cases b <;> cases h <;> rfl

end Value

/-- Only a power can be a float with integers for operands, since its exponent may be
negative. -/
theorem BinaryOp.isFloat_apply {op : BinaryOp} {a b v : Value} (hop : op ≠ .power)
    (h : op.apply a b = .ok v) : v.isFloat = (a.isFloat || b.isFloat) := by
  cases op with
  | add | subtract | multiply =>
    cases h
    exact Value.isFloat_combine _ _ a b
  | divide => exact Value.isFloat_divide h
  | modulo => exact Value.isFloat_modulo h
  | power => exact absurd rfl hop

theorem Step.isFloat_apply (step : Step) (v : Value) : (step.apply v).isFloat = v.isFloat := by
  cases step <;> cases v <;> rfl

/-! ## The kinds of variables -/

namespace Bindings

/-- Whether the variable is a float; nothing if it is not bound. -/
def isFloat? (bindings : Bindings) (name : String) : Option Bool :=
  (bindings.get? name).map Value.isFloat

/-- Each variable has the same kind in both, or is bound in neither. -/
def SameKinds (first second : Bindings) : Prop :=
  ∀ name, first.isFloat? name = second.isFloat? name

theorem stepClosed_sameKinds (bindings : Bindings) : StepClosed (SameKinds bindings) := by
  intro after name value h hvalue step needle
  rw [h needle, isFloat?, isFloat?, get?_set]
  split
  · next hname =>
    rw [← hname, hvalue, Option.map_some, Option.map_some, Step.isFloat_apply]
  · rfl

end Bindings

namespace Node

variable {bindings middle after : Bindings}

/-- No evaluation changes the kind of a variable, not even one that fails. -/
theorem sameKinds_after (node : Node) (bindings : Bindings) :
    bindings.SameKinds (Evaluation.after (node.evaluate bindings)) :=
  node.evaluate_preserves (Bindings.stepClosed_sameKinds bindings) fun _ => rfl

theorem sameKinds_of_ok {node : Node} {value : Value} (h : node.evaluate bindings = .ok value after) :
    bindings.SameKinds after := by
  have hkinds := node.sameKinds_after bindings
  rwa [h] at hkinds

/-! ## Expressions -/

/-- The binary operators in the tree, from left to right. -/
def operators : Node → List BinaryOp
  | .unary _ _ operand | .stepAfter _ _ operand => operand.operators
  | .binary _ left op right => left.operators ++ op :: right.operators
  | .assign _ _ _ expression => expression.operators
  | .missing | .bare _ _ | .literal _ _ | .reference _ _ => []

/-- A literal of the tree is a float, or a variable in it is bound to one. -/
def MentionsFloat (node : Node) (bindings : Bindings) : Prop :=
  (∃ value ∈ node.literals, value.isFloat = true) ∨
    ∃ name ∈ node.names, bindings.isFloat? name = some true

theorem MentionsFloat.congr (node : Node) (h : bindings.SameKinds after) :
    node.MentionsFloat bindings ↔ node.MentionsFloat after := by
  simp only [MentionsFloat, h _]

theorem mentionsFloat_literal {position : Int} {value : Value} :
    (literal position value).MentionsFloat bindings ↔ value.isFloat = true := by
  simp [MentionsFloat, literals, names]

theorem mentionsFloat_reference {position : Int} {name : String} :
    (reference position name).MentionsFloat bindings ↔ bindings.isFloat? name = some true := by
  simp [MentionsFloat, literals, names]

theorem mentionsFloat_binary {position : Int} {op : BinaryOp} {left right : Node} :
    (binary position left op right).MentionsFloat bindings ↔
      left.MentionsFloat bindings ∨ right.MentionsFloat bindings := by
  simp only [MentionsFloat, literals, names, List.mem_append, or_and_right, exists_or]
  exact or_or_or_comm

/-- A step gives values of the kind of the variable that it is on. -/
theorem isFloat_takeStep {step : Step} {operand : Node} {values : Value × Value}
    (h : takeStep step operand bindings = .ok values after) :
    (values.1.isFloat = true ↔ operand.MentionsFloat bindings) ∧
      (values.2.isFloat = true ↔ operand.MentionsFloat bindings) := by
  cases hname : operand.variable? with
  | none =>
    rw [takeStep_refused step hname] at h
    cases h
  | some name =>
    rw [takeStep_variable hname] at h
    split at h
    · next value hvalue =>
      cases h
      cases operand <;> cases hname
      rw [mentionsFloat_reference, Bindings.isFloat?, hvalue, Option.map_some, Option.some.injEq]
      exact ⟨Iff.rfl, by rw [Step.isFloat_apply]⟩
    · cases h

/-- The kind of an expression without powers is that of what it mentions. -/
theorem isFloat_evaluate {node : Node} {value : Value} (hpower : .power ∉ node.operators)
    (h : node.evaluate bindings = .ok value after) :
    value.isFloat = true ↔ node.MentionsFloat bindings := by
  induction node generalizing bindings value after with
  | missing | bare | assign => cases h
  | literal =>
    cases h
    exact mentionsFloat_literal.symm
  | reference position name =>
    rw [evaluate_reference] at h
    split at h
    · next hvalue =>
      cases h
      rw [mentionsFloat_reference, Bindings.isFloat?, hvalue, Option.map_some, Option.some.injEq]
    · cases h
  | unary position op operand ih =>
    cases op with
    | plus => exact ih hpower h
    | minus =>
      rw [evaluate_minus] at h
      split at h
      · next hoperand =>
        cases h
        rw [Value.isFloat_negate]
        exact ih hpower hoperand
      · cases h
    | step step =>
      rw [evaluate_stepBefore] at h
      split at h
      · next hstep =>
        cases h
        exact (isFloat_takeStep hstep).2
      · cases h
  | stepAfter position step operand _ =>
    rw [evaluate_stepAfter] at h
    split at h
    · next hstep =>
      cases h
      exact (isFloat_takeStep hstep).1
    · cases h
  | binary position left op right ihl ihr =>
    rw [operators, List.mem_append, List.mem_cons, not_or, not_or] at hpower
    obtain ⟨hleft, hop, hright⟩ := hpower
    rw [evaluate_binary] at h
    split at h
    · cases h
    · next hl =>
      split at h
      · cases h
      · next hr =>
        split at h
        · cases h
        · next happly =>
          cases h
          -- The right operand meets variables of the same kinds as the left one did.
          rw [BinaryOp.isFloat_apply (Ne.symm hop) happly, Bool.or_eq_true, ihl hleft hl,
            ihr hright hr, mentionsFloat_binary, MentionsFloat.congr right (sameKinds_of_ok hl)]

/-- What an expression without powers gives is a float exactly if one of its literals is, or
one of its variables before the evaluation. No expression, with powers or without and
whether it has a value or fails, changes the kind of a variable. -/
theorem evaluate_kinds (node : Node) (bindings : Bindings) :
    (.power ∉ node.operators → ∀ value after, node.evaluate bindings = .ok value after →
      (value.isFloat = true ↔
        (∃ literal ∈ node.literals, literal.isFloat = true) ∨
          ∃ name ∈ node.names, bindings.isFloat? name = some true)) ∧
    ∀ name, (Evaluation.after (node.evaluate bindings)).isFloat? name = bindings.isFloat? name :=
  ⟨fun hpower _ _ h => isFloat_evaluate hpower h,
    fun name => (node.sameKinds_after bindings name).symm⟩

/-- In `(x++ - n) % y` the float `x` and the infinite `y` make a float, and `x` stays one. -/
theorem evaluate_kinds_remainder :
    let node : Node :=
      .binary 10 (.binary 5 (.stepAfter 2 .increment (.reference 1 "x")) .subtract
        (.reference 7 "n")) .modulo (.reference 12 "y")
    let bindings := Bindings.ofList
      [("x", .float .one), ("n", .int 1), ("y", .float (.infinite true))]
    ∃ value after, .power ∉ node.operators ∧ node.evaluate bindings = .ok value after ∧
      value.isFloat = true ∧ after.isFloat? "x" = some true ∧ after.isFloat? "n" = some false := by
  intro node bindings
  have hpower : .power ∉ node.operators := by decide
  obtain ⟨value, after, hvalue⟩ : ∃ value after, node.evaluate bindings = .ok value after :=
    ⟨_, _, rfl⟩
  obtain ⟨hkind, hafter⟩ := evaluate_kinds node bindings
  rw [hvalue] at hafter
  refine ⟨value, after, hpower, hvalue, (hkind hpower value after hvalue).mpr ?_, ?_, ?_⟩
  · exact .inr ⟨"x", by decide, rfl⟩
  · exact hafter "x"
  · exact hafter "n"

end Node

end Reckoner
