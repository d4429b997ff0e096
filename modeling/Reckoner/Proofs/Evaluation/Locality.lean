import Reckoner.Proofs.Evaluation.Changes

/-! What a statement depends on. Two runs of it go the same way if they start from
bindings that agree on the names in it: they end in the same value or fault, and the
bindings that they leave agree on these names again. No run changes any other name. -/
namespace Reckoner

/-! ## Agreement -/

/-- Each of the names has the same value in both, or is bound in neither. -/
def Bindings.AgreeOn (names : List String) (first second : Bindings) : Prop :=
  ∀ name ∈ names, first.get? name = second.get? name

theorem Bindings.AgreeOn.set {names : List String} {first second : Bindings}
    (h : first.AgreeOn names second) (name : String) (value : Value) :
    (first.set name value).AgreeOn names (second.set name value) := by
  intro needle hneedle
  rw [get?_set, get?_set, h needle hneedle]

/-- The value or fault of a run, without the bindings left behind. -/
def Evaluation.answer {α : Type} : EStateM.Result EvalFault Bindings α → Except EvalFault α
  | .ok a _ => .ok a
  | .error fault _ => .error fault

/-- Two runs have ended alike: with the same value or fault, and with bindings that
agree on the names. -/
inductive Alike {α : Type} (names : List String) :
    EStateM.Result EvalFault Bindings α → EStateM.Result EvalFault Bindings α → Prop
  | ok {first second} (a : α) (h : first.AgreeOn names second) :
      Alike names (.ok a first) (.ok a second)
  | error {first second} (fault : EvalFault) (h : first.AgreeOn names second) :
      Alike names (.error fault first) (.error fault second)

theorem Alike.answer_eq {α : Type} {names : List String}
    {first second : EStateM.Result EvalFault Bindings α} (h : Alike names first second) :
    Evaluation.answer first = Evaluation.answer second := by
  cases h <;> rfl

theorem Alike.after {α : Type} {names : List String}
    {first second : EStateM.Result EvalFault Bindings α} (h : Alike names first second) :
    (Evaluation.after first).AgreeOn names (Evaluation.after second) := by
  cases h <;> assumption

/-! ## Computations that depend on some names only -/

/-- Runs from bindings that agree on the names end alike. -/
def Local {α : Type} (names : List String) (x : Evaluation α) : Prop :=
  ∀ first second : Bindings, first.AgreeOn names second → Alike names (x first) (x second)

namespace Local

variable {α β : Type} {names : List String}

theorem pure (a : α) : Local names (Pure.pure a : Evaluation α) :=
  fun _ _ h => .ok a h

theorem throw (fault : EvalFault) :
    Local names (MonadExcept.throw fault : Evaluation α) :=
  fun _ _ h => .error fault h

theorem bind {x : Evaluation α} {f : α → Evaluation β} (hx : Local names x)
    (hf : ∀ a, Local names (f a)) : Local names (x >>= f) := by
  intro first second h
  have hfirst := hx first second h
  rw [Evaluation.bind_apply, Evaluation.bind_apply]
  generalize x first = one at hfirst ⊢
  generalize x second = other at hfirst ⊢
  cases hfirst with
  | ok a h => exact hf a _ _ h
  | error fault h => exact .error fault h

theorem read {name : String} (hname : name ∈ names) : Local names (Evaluation.read name) := by
  intro first second h
  rw [Evaluation.read, Evaluation.read, h name hname]
  cases second.get? name with
  | none => exact .error _ h
  | some value => exact .ok value h

theorem write (name : String) (value : Value) : Local names (Evaluation.write name value) :=
  fun _ _ h => .ok () (h.set name value)

theorem ofExcept (result : Except EvalFault α) : Local names (Evaluation.ofExcept result) := by
  cases result with
  | error fault => exact throw fault
  | ok a => exact pure a

end Local

/-! ## Trees -/

namespace Node

/-- The names in the tree, from left to right. -/
def names : Node → List String
  | .missing | .bare _ _ | .literal _ _ => []
  | .reference _ name => [name]
  | .unary _ _ operand | .stepAfter _ _ operand => operand.names
  | .binary _ left _ right => left.names ++ right.names
  | .assign _ name _ expression => name :: expression.names

theorem takeStep_local {names : List String} (step : Step) (operand : Node)
    (h : operand.names ⊆ names) : Local names (takeStep step operand) := by
  cases operand with
  | reference position name =>
    exact (Local.read (h List.mem_cons_self)).bind fun before =>
      (Local.write name (step.apply before)).bind fun _ => Local.pure _
  | missing | bare | literal | unary | stepAfter | binary | assign =>
    exact Local.throw .notAssignable

/-- An evaluation depends on the names in the tree. It may be asked about more names
than these, so that the operands of an operator share one list. -/
theorem evaluate_local {names : List String} {node : Node} (h : node.names ⊆ names) :
    Local names node.evaluate := by
  induction node with
  | missing | bare | assign => exact Local.throw .unsupportedExpression
  | literal position value => exact Local.pure value
  | reference position name => exact Local.read (h List.mem_cons_self)
  | unary position op operand ih =>
    cases op with
    | plus => exact ih h
    | minus => exact (ih h).bind fun value => Local.pure value.negate
    | step step => exact (takeStep_local step operand h).bind fun values => Local.pure values.2
  | stepAfter position step operand _ =>
    exact (takeStep_local step operand h).bind fun values => Local.pure values.1
  | binary position left op right ihl ihr =>
    obtain ⟨hleft, hright⟩ := List.append_subset.mp h
    exact (ihl hleft).bind fun a => (ihr hright).bind fun b => Local.ofExcept (op.apply a b)

/-- Only names in the tree are stepped. -/
theorem mem_names_of_steps {node : Node} {name : String}
    (h : name ∈ node.steps.map Prod.fst) : name ∈ node.names := by
  have hown (step : Step) (operand : Node)
      (hmem : name ∈ (operand.ownStep step).map Prod.fst) : name ∈ operand.names := by
    cases operand with
    | reference position other => exact hmem
    | missing | bare | literal | unary | stepAfter | binary | assign =>
      exact absurd hmem List.not_mem_nil
  induction node with
  | missing | bare | literal | reference => cases h
  | unary position op operand ih =>
    cases op with
    | plus | minus => exact ih h
    | step step =>
      rw [steps, List.map_append, List.mem_append] at h
      exact h.elim ih (hown step operand)
  | stepAfter position step operand ih =>
    rw [steps, List.map_append, List.mem_append] at h
    exact h.elim ih (hown step operand)
  | binary position left op right ihl ihr =>
    rw [steps, List.map_append, List.mem_append] at h
    exact List.mem_append.mpr (h.imp ihl ihr)
  | assign position target op expression ih => exact List.mem_cons_of_mem target (ih h)

end Node

theorem Bindings.get?_advanceAll_of_notMem (bindings : Bindings) {steps : List VariableStep}
    {name : String} (h : name ∉ steps.map Prod.fst) :
    (bindings.advanceAll steps).get? name = bindings.get? name := by
  rw [get?_advanceAll, stepsOn_eq_nil h]
  exact Option.map_id'

/-! ## Statements -/

namespace Assignment

/-- The names in a statement, its target first. -/
def names (a : Assignment) : List String :=
  a.name :: a.expression.names

theorem execute_local (a : Assignment) : Local a.names a.execute := by
  have hexpression : Local a.names a.expression.evaluate :=
    Node.evaluate_local (List.subset_cons_self a.name _)
  unfold execute
  cases a.op with
  | plain =>
    exact hexpression.bind fun value =>
      (Local.write a.name value).bind fun _ => Local.pure value
  | compound op =>
    exact (Local.read List.mem_cons_self).bind fun current =>
      hexpression.bind fun operand =>
        (Local.ofExcept (op.apply current operand)).bind fun value =>
          (Local.write a.name value).bind fun _ => Local.pure value

/-- The names that a run can change: the target, and the variables of the steps in the
expression. -/
def writes (a : Assignment) : List String :=
  a.name :: a.expression.steps.map Prod.fst

theorem writes_subset_names (a : Assignment) : a.writes ⊆ a.names :=
  List.cons_subset_cons a.name fun _ hname => Node.mem_names_of_steps hname

/-- A run leaves a name alone that the statement does not write. -/
theorem get?_after_of_notMem_writes (a : Assignment) (bindings : Bindings) {name : String}
    (h : name ∉ a.writes) :
    (Evaluation.after (a.execute bindings)).get? name = bindings.get? name := by
  obtain ⟨htarget, hsteps⟩ := not_or.mp (mt List.mem_cons.mpr h)
  have htakes := a.execute_takes bindings
  cases hrun : a.execute bindings with
  | ok value after =>
    rw [hrun] at htakes
    obtain rfl : after = _ := htakes
    rw [Evaluation.after_ok, Bindings.get?_set, if_neg (Ne.symm htarget)]
    exact bindings.get?_advanceAll_of_notMem hsteps
  | error fault after =>
    rw [hrun] at htakes
    obtain ⟨taken, hstarts, rfl⟩ := htakes
    refine bindings.get?_advanceAll_of_notMem fun hmem => hsteps ?_
    exact (List.map_subset Prod.fst hstarts.subset) hmem

/-- So it does with a name that is not in the statement. -/
theorem get?_after_execute (a : Assignment) (bindings : Bindings) {name : String}
    (h : name ∉ a.names) :
    (Evaluation.after (a.execute bindings)).get? name = bindings.get? name :=
  a.get?_after_of_notMem_writes bindings fun hmem => h (a.writes_subset_names hmem)

/-- Runs of a statement from bindings that agree on the names in it end in the same
value or fault, and the bindings that they leave agree on these names again. Any other
name is bound in each of them as it was before. -/
theorem execute_eq_of_agree {a : Assignment} {first second : Bindings}
    (h : first.AgreeOn a.names second) :
    Evaluation.answer (a.execute first) = Evaluation.answer (a.execute second) ∧
      (Evaluation.after (a.execute first)).AgreeOn a.names
        (Evaluation.after (a.execute second)) ∧
      ∀ name, name ∉ a.names →
        (Evaluation.after (a.execute first)).get? name = first.get? name ∧
          (Evaluation.after (a.execute second)).get? name = second.get? name := by
  have halike := a.execute_local first second h
  exact ⟨halike.answer_eq, halike.after, fun name hname =>
    ⟨a.get?_after_execute first hname, a.get?_after_execute second hname⟩⟩

/-- In `y += x++ + y / z` the quotient fails behind the step, as `z` is zero in both;
that `w` is bound in the first only makes no difference. -/
theorem execute_eq_of_agree_quotient :
    let a : Assignment :=
      ⟨0, "y", .compound .add,
        .binary 9 (.stepAfter 6 .increment (.reference 5 "x")) .add
          (.binary 13 (.reference 11 "y") .divide (.reference 15 "z"))⟩
    let first := Bindings.ofList [("w", .int 7), ("x", .int 1), ("y", .int 5), ("z", .int 0)]
    let second := Bindings.ofList [("z", .int 0), ("y", .int 5), ("x", .int 1)]
    first.AgreeOn a.names second ∧
      Evaluation.answer (a.execute first) = .error .divisionByZero ∧
      Evaluation.answer (a.execute second) = .error .divisionByZero ∧
      (Evaluation.after (a.execute first)).AgreeOn a.names
        (Evaluation.after (a.execute second)) ∧
      (Evaluation.after (a.execute first)).get? "w" = first.get? "w" := by
  intro a first second
  have hagree : first.AgreeOn a.names second := by
    unfold Bindings.AgreeOn
    decide
  obtain ⟨hanswer, hafter, hothers⟩ := execute_eq_of_agree hagree
  have hfirst : Evaluation.answer (a.execute first) = .error .divisionByZero := rfl
  exact ⟨hagree, hfirst, hanswer.symm.trans hfirst, hafter, (hothers "w" (by decide)).1⟩

end Assignment

end Reckoner
