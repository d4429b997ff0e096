import Reckoner.Proofs.Evaluation.Runs

/-! What an evaluation changes. The steps of a tree are listed from left to right;
an evaluation takes them in this order and changes the bindings in no other way.
One that gives a value has taken all of them, and one that fails the first few. -/
namespace Reckoner

/-! ## Bound names -/

namespace Bindings

theorem find?_isSome_iff {name : String} {entries : List (String × Value)} :
    (find? name entries).isSome = true ↔ name ∈ entries.map Prod.fst := by
  induction entries with
  | nil => simp [find?]
  | cons entry rest ih =>
    rw [find?, List.map_cons, List.mem_cons, ← ih]
    split
    · next hname => simp [hname]
    · next hname => simp [Ne.symm hname]

theorem get?_isSome_iff {bindings : Bindings} {name : String} :
    (bindings.get? name).isSome = true ↔ name ∈ bindings.names :=
  find?_isSome_iff

/-- Binding a bound name again leaves the names as they are. -/
theorem names_set_of_get? {bindings : Bindings} {name : String} {old : Value}
    (h : bindings.get? name = some old) (value : Value) :
    (bindings.set name value).names = bindings.names := by
  rw [names_set, if_pos (get?_isSome_iff.mp (by rw [h]; rfl))]

end Bindings

/-! ## Steps on bindings -/

/-- A variable with the step that changes it. -/
abbrev VariableStep := String × Step

/-- The steps on one variable among those on several. -/
def stepsOn (name : String) (steps : List VariableStep) : List Step :=
  (steps.filter (·.1 = name)).map Prod.snd

/-- The value after steps, taken one after the other. -/
def Value.advance (value : Value) (steps : List Step) : Value :=
  steps.foldl (fun value step => step.apply value) value

namespace Bindings

/-- Changes a bound variable by a step. -/
def advance (bindings : Bindings) (change : VariableStep) : Bindings :=
  match bindings.get? change.1 with
  | some value => bindings.set change.1 (change.2.apply value)
  | none => bindings

/-- Changes variables by steps, taken one after the other. -/
def advanceAll (bindings : Bindings) (steps : List VariableStep) : Bindings :=
  steps.foldl advance bindings

@[simp] theorem advanceAll_nil (bindings : Bindings) : bindings.advanceAll [] = bindings := rfl

theorem advanceAll_append (bindings : Bindings) (first second : List VariableStep) :
    bindings.advanceAll (first ++ second) = (bindings.advanceAll first).advanceAll second :=
  List.foldl_append

theorem advanceAll_singleton {bindings : Bindings} {name : String} {value : Value}
    (h : bindings.get? name = some value) (step : Step) :
    bindings.advanceAll [(name, step)] = bindings.set name (step.apply value) := by
  show bindings.advance (name, step) = _
  simp only [advance, h]

theorem names_advance (bindings : Bindings) (change : VariableStep) :
    (bindings.advance change).names = bindings.names := by
  unfold advance
  split
  · next h => exact names_set_of_get? h _
  · rfl

theorem get?_advance (bindings : Bindings) (change : VariableStep) (name : String) :
    (bindings.advance change).get? name =
      if change.1 = name then (bindings.get? name).map change.2.apply
      else bindings.get? name := by
  unfold advance
  split
  · next h =>
    rw [get?_set]
    split
    · next hname => rw [← hname, h, Option.map_some]
    · rfl
  · next h =>
    split
    · next hname => rw [← hname, h, Option.map_none]
    · rfl

/-- Steps bind no name and free none. -/
theorem names_advanceAll (bindings : Bindings) (steps : List VariableStep) :
    (bindings.advanceAll steps).names = bindings.names := by
  induction steps generalizing bindings with
  | nil => rfl
  | cons change steps ih =>
    exact (ih (bindings.advance change)).trans (names_advance bindings change)

/-- A variable changes by the steps on it. -/
theorem get?_advanceAll (bindings : Bindings) (steps : List VariableStep) (name : String) :
    (bindings.advanceAll steps).get? name =
      (bindings.get? name).map (·.advance (stepsOn name steps)) := by
  induction steps generalizing bindings with
  | nil => simp [stepsOn, Value.advance]
  | cons change steps ih =>
    have hfirst := ih (bindings.advance change)
    rw [get?_advance] at hfirst
    refine Eq.trans hfirst ?_
    by_cases hname : change.1 = name
    · simp [stepsOn, hname, Value.advance, Function.comp_def]
    · simp [stepsOn, hname]

end Bindings

/-! ## The steps of a tree -/

namespace Node

/-- The step on an operand, if it is a variable. -/
def ownStep (step : Step) (operand : Node) : List VariableStep :=
  operand.variable?.toList.map (·, step)

/-- All steps on variables in the tree, from left to right, whether an evaluation
comes to them or not. -/
def steps : Node → List VariableStep
  | .unary _ (.step step) operand => operand.steps ++ operand.ownStep step
  | .unary _ _ operand => operand.steps
  | .stepAfter _ step operand => operand.steps ++ operand.ownStep step
  | .binary _ left _ right => left.steps ++ right.steps
  | .assign _ _ _ expression => expression.steps
  | .missing | .bare _ _ | .literal _ _ | .reference _ _ => []

end Node

/-- The bindings left behind are those before with steps of the list taken in order,
all of them by what gives a value and the first few by what fails. -/
def Takes {α : Type} (bindings : Bindings) (steps : List VariableStep) :
    EStateM.Result EvalFault Bindings α → Prop
  | .ok _ after => after = bindings.advanceAll steps
  | .error _ after => ∃ taken, taken <+: steps ∧ after = bindings.advanceAll taken

/-- What changes nothing is no more than a beginning. -/
theorem Takes.error {α : Type} {bindings : Bindings} (fault : EvalFault)
    (steps : List VariableStep) :
    Takes bindings steps (.error fault bindings : EStateM.Result EvalFault Bindings α) :=
  ⟨[], List.nil_prefix, rfl⟩

namespace Node

theorem takeStep_takes (step : Step) (operand : Node) (bindings : Bindings) :
    Takes bindings (operand.steps ++ operand.ownStep step) (takeStep step operand bindings) := by
  cases hname : operand.variable? with
  | none =>
    rw [takeStep_refused step hname]
    exact .error .notAssignable _
  | some name =>
    rw [takeStep_variable hname]
    cases hv : bindings.get? name with
    | none => exact .error (.undefinedVariable name) _
    | some value =>
      have hsteps : operand.steps ++ operand.ownStep step = [(name, step)] := by
        cases operand <;> cases hname
        rfl
      rw [hsteps]
      exact (Bindings.advanceAll_singleton hv step).symm

/-- An evaluation takes the steps of the tree. -/
theorem evaluate_takes (node : Node) (bindings : Bindings) :
    Takes bindings node.steps (node.evaluate bindings) := by
  induction node generalizing bindings with
  | missing | bare | assign => exact .error .unsupportedExpression _
  | literal => rfl
  | reference position name =>
    rw [evaluate_reference]
    cases bindings.get? name with
    | none => exact .error (.undefinedVariable name) _
    | some value => rfl
  | unary position op operand ih =>
    cases op with
    | plus => exact ih bindings
    | minus =>
      rw [evaluate_minus]
      have hoperand := ih bindings
      cases hv : operand.evaluate bindings <;> rwa [hv] at hoperand
    | step step =>
      rw [evaluate_stepBefore]
      have hstep := takeStep_takes step operand bindings
      cases hv : takeStep step operand bindings <;> rwa [hv] at hstep
  | stepAfter position step operand _ =>
    rw [evaluate_stepAfter]
    have hstep := takeStep_takes step operand bindings
    cases hv : takeStep step operand bindings <;> rwa [hv] at hstep
  | binary position left op right ihl ihr =>
    rw [evaluate_binary]
    have hleft := ihl bindings
    cases hl : left.evaluate bindings with
    | error fault middle =>
      rw [hl] at hleft
      obtain ⟨taken, hstarts, rfl⟩ := hleft
      exact ⟨taken, hstarts.trans (List.prefix_append _ _), rfl⟩
    | ok a middle =>
      -- All steps of the left operand come before the first of the right one.
      rw [hl] at hleft
      obtain rfl : middle = bindings.advanceAll left.steps := hleft
      have hright := ihr (bindings.advanceAll left.steps)
      dsimp only
      cases hr : right.evaluate (bindings.advanceAll left.steps) with
      | error fault after =>
        rw [hr] at hright
        obtain ⟨taken, hstarts, rfl⟩ := hright
        exact ⟨left.steps ++ taken, (List.prefix_append_right_inj _).mpr hstarts,
          (Bindings.advanceAll_append ..).symm⟩
      | ok b after =>
        rw [hr] at hright
        have hboth : after = bindings.advanceAll (left.steps ++ right.steps) :=
          hright.trans (Bindings.advanceAll_append ..).symm
        dsimp only
        cases op.apply a b with
        | error fault => exact ⟨_, List.prefix_rfl, hboth⟩
        | ok value => exact hboth

end Node

/-! ## Statements -/

theorem stepsOn_eq_nil {name : String} {steps : List VariableStep}
    (h : name ∉ steps.map Prod.fst) : stepsOn name steps = [] := by
  rw [stepsOn, List.map_eq_nil_iff, List.filter_eq_nil_iff]
  intro change hmem hname
  exact h (List.mem_map.mpr ⟨change, hmem, by simpa using hname⟩)

namespace Assignment

variable {a : Assignment} {bindings after : Bindings} {fault : EvalFault}

/-- Only a statement that succeeds binds its target, and that comes last: behind all
steps of its expression. One that fails has taken the first of these steps and done
nothing else. -/
theorem execute_takes (a : Assignment) (bindings : Bindings) :
    match a.execute bindings with
    | .ok value after => after = (bindings.advanceAll a.expression.steps).set a.name value
    | .error _ after =>
      ∃ taken, taken <+: a.expression.steps ∧ after = bindings.advanceAll taken := by
  have htakes := a.expression.evaluate_takes bindings
  cases hop : a.op with
  | plain =>
    rw [execute_plain hop]
    cases hv : a.expression.evaluate bindings with
    | error fault after =>
      rw [hv] at htakes
      exact htakes
    | ok value after =>
      rw [hv] at htakes
      obtain rfl : after = bindings.advanceAll a.expression.steps := htakes
      rfl
  | compound op =>
    rw [execute_compound hop]
    cases bindings.get? a.name with
    | none => exact ⟨[], List.nil_prefix, rfl⟩
    | some current =>
      cases hv : a.expression.evaluate bindings with
      | error fault after =>
        rw [hv] at htakes
        exact htakes
      | ok operand after =>
        rw [hv] at htakes
        obtain rfl : after = bindings.advanceAll a.expression.steps := htakes
        dsimp only
        cases op.apply current operand with
        | error fault => exact ⟨_, List.prefix_rfl, rfl⟩
        | ok value => rfl

theorem execute_ok_takes {value : Value} (h : a.execute bindings = .ok value after) :
    after = (bindings.advanceAll a.expression.steps).set a.name value := by
  have htakes := a.execute_takes bindings
  rwa [h] at htakes

theorem execute_error_takes (h : a.execute bindings = .error fault after) :
    ∃ taken, taken <+: a.expression.steps ∧ after = bindings.advanceAll taken := by
  have htakes := a.execute_takes bindings
  rwa [h] at htakes

/-- A statement that fails binds no name and frees none. It leaves every variable,
the target among them, as it was, unless a step of the expression is on it; such a
variable has advanced by the first few of the steps on it. Without steps in the
expression nothing has changed. -/
theorem execute_error_keeps (h : a.execute bindings = .error fault after) :
    after.names = bindings.names ∧
      (∀ name, name ∉ a.expression.steps.map Prod.fst →
        after.get? name = bindings.get? name) ∧
      (∀ name, ∃ taken, taken <+: stepsOn name a.expression.steps ∧
        after.get? name = (bindings.get? name).map (·.advance taken)) ∧
      (a.expression.steps = [] → after = bindings) := by
  obtain ⟨taken, hstarts, rfl⟩ := execute_error_takes h
  have hvalue (name : String) := bindings.get?_advanceAll taken name
  have hon (name : String) : stepsOn name taken <+: stepsOn name a.expression.steps :=
    (hstarts.filter _).map _
  refine ⟨bindings.names_advanceAll taken, fun name hname => ?_, fun name => ?_, fun hnone => ?_⟩
  · have hnil : stepsOn name taken = [] := by
      have := hon name
      rwa [stepsOn_eq_nil hname, List.prefix_nil] at this
    rw [hvalue, hnil]
    exact Option.map_id'
  · exact ⟨stepsOn name taken, hon name, hvalue name⟩
  · rw [hnone, List.prefix_nil] at hstarts
    rw [hstarts, Bindings.advanceAll_nil]

/-- In `y = x++ + x++ % 0 + --x` the remainder fails behind two of the three steps. -/
theorem execute_error_keeps_remainder :
    let x : Node := .reference 4 "x"
    let a : Assignment :=
      ⟨0, "y", .plain,
        .binary 16
          (.binary 8 (.stepAfter 5 .increment x) .add
            (.binary 14 (.stepAfter 11 .increment x) .modulo (.literal 16 (.int 0))))
          .add (.unary 20 (.step .decrement) x)⟩
    let bindings := Bindings.ofList [("x", .int 1), ("y", .int 5)]
    let after := Bindings.ofList [("x", .int 3), ("y", .int 5)]
    a.execute bindings = .error .divisionByZero after ∧
      after.names = bindings.names ∧ after.get? "y" = bindings.get? "y" ∧
      ∃ taken, taken <+: [Step.increment, .increment, .decrement] ∧
        after.get? "x" = (bindings.get? "x").map (·.advance taken) := by
  intro x a bindings after
  have hfail : a.execute bindings = .error .divisionByZero after := rfl
  obtain ⟨hnames, hothers, hsteps, -⟩ := execute_error_keeps hfail
  exact ⟨hfail, hnames, hothers "y" (by decide), hsteps "x"⟩

end Assignment

end Reckoner
