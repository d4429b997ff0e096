import Reckoner.Proofs.Evaluation.Runs

/-! A stack machine for expressions. A tree is flattened to the instructions of
its postorder, which are run strictly from left to right up to the first that
fails. Evaluating a tree and running its instructions are the same thing: the
same value or fault, and the same bindings left behind. -/
namespace Reckoner.Machine

/-! ## The machine -/

inductive Instruction where
  | push (value : Value)
  | load (name : String)
  | apply (op : BinaryOp)
  | negate
  /-- Changes a variable and pushes the new value. -/
  | stepBefore (step : Step) (name : String)
  /-- Changes a variable and pushes the old value. -/
  | stepAfter (step : Step) (name : String)
  | fail (fault : EvalFault)

/-- The operands, last one first, and the variables. -/
structure State where
  stack : List Value
  bindings : Bindings

/-- The value one further in the direction of the step. -/
def changed : Step → Value → Value
  | .increment, value => value.add (.int 1)
  | .decrement, value => value.subtract (.int 1)

/-- What an instruction does: a new state or a fault, and nothing at all where
operands are missing from the stack. -/
def Instruction.perform : Instruction → State → Option (Except EvalFault State)
  | .push value, ⟨stack, bindings⟩ => some (.ok ⟨value :: stack, bindings⟩)
  | .load name, ⟨stack, bindings⟩ =>
    match bindings.get? name with
    | none => some (.error (.undefinedVariable name))
    | some value => some (.ok ⟨value :: stack, bindings⟩)
  | .apply op, ⟨right :: left :: stack, bindings⟩ =>
    match op.apply left right with
    | .error fault => some (.error fault)
    | .ok value => some (.ok ⟨value :: stack, bindings⟩)
  | .negate, ⟨value :: stack, bindings⟩ => some (.ok ⟨value.negate :: stack, bindings⟩)
  | .stepBefore step name, ⟨stack, bindings⟩ =>
    match bindings.get? name with
    | none => some (.error (.undefinedVariable name))
    | some value =>
      some (.ok ⟨changed step value :: stack, bindings.set name (changed step value)⟩)
  | .stepAfter step name, ⟨stack, bindings⟩ =>
    match bindings.get? name with
    | none => some (.error (.undefinedVariable name))
    | some value => some (.ok ⟨value :: stack, bindings.set name (changed step value)⟩)
  | .fail fault, _ => some (.error fault)
  | _, _ => none

/-- How a run ends. A failed one keeps the bindings it had reached. -/
inductive Halt where
  | finished (state : State)
  | failed (fault : EvalFault) (bindings : Bindings)
  | stuck

/-- Runs instructions from left to right up to the first that fails. -/
def run : List Instruction → State → Halt
  | [], state => .finished state
  | instruction :: rest, state =>
    match instruction.perform state with
    | none => .stuck
    | some (.error fault) => .failed fault state.bindings
    | some (.ok next) => run rest next

/-! ## The instructions of a tree -/

/-- The postorder of a tree. A plus sign is no instruction, and the operand of a
step is none either: it is a variable, or the step fails. -/
def code : Node → List Instruction
  | .literal _ value => [.push value]
  | .reference _ name => [.load name]
  | .unary _ .plus operand => code operand
  | .unary _ .minus operand => code operand ++ [.negate]
  | .unary _ (.step step) (.reference _ name) => [.stepBefore step name]
  | .unary _ (.step _) _ => [.fail .notAssignable]
  | .stepAfter _ step (.reference _ name) => [.stepAfter step name]
  | .stepAfter _ _ _ => [.fail .notAssignable]
  | .binary _ left op right => code left ++ code right ++ [.apply op]
  | .missing => [.fail .unsupportedExpression]
  | .bare _ _ => [.fail .unsupportedExpression]
  | .assign _ _ _ _ => [.fail .unsupportedExpression]

theorem code_stepBefore {position : Int} {step : Step} {operand : Node} :
    code (.unary position (.step step) operand) =
      match operand.variable? with
      | some name => [.stepBefore step name]
      | none => [.fail .notAssignable] := by
  cases operand <;> rfl

theorem code_stepAfter {position : Int} {step : Step} {operand : Node} :
    code (.stepAfter position step operand) =
      match operand.variable? with
      | some name => [.stepAfter step name]
      | none => [.fail .notAssignable] := by
  cases operand <;> rfl

/-! ## Evaluating and running -/

/-- Running the code of a tree in front of more code: the value goes on the
stack and the rest runs, or the fault ends the run. -/
theorem run_code_append (node : Node) (rest : List Instruction) (stack : List Value)
    (bindings : Bindings) :
    run (code node ++ rest) ⟨stack, bindings⟩ =
      match node.evaluate bindings with
      | .ok value after => run rest ⟨value :: stack, after⟩
      | .error fault after => .failed fault after := by
  -- The rest and the stack are arbitrary, so that the code of an operand can be
  -- followed by that of the other one and by the instruction of the operator.
  induction node generalizing rest stack bindings with
  | missing | bare | assign => rfl
  | literal => rfl
  | reference position name =>
    rw [Node.evaluate_reference]
    simp only [code, List.singleton_append, run, Instruction.perform]
    cases bindings.get? name <;> rfl
  | unary position op operand ih =>
    cases op with
    | plus => exact ih rest stack bindings
    | minus =>
      rw [code, List.append_assoc, ih, Node.evaluate_minus]
      cases operand.evaluate bindings <;> rfl
    | step step =>
      rw [code_stepBefore, Node.evaluate_stepBefore]
      cases hname : operand.variable? with
      | none =>
        rw [Node.takeStep_refused step hname]
        rfl
      | some name =>
        rw [Node.takeStep_variable hname]
        simp only [List.singleton_append, run, Instruction.perform]
        cases bindings.get? name <;> cases step <;> rfl
  -- The operand of a step has no code of its own, so its hypothesis is not needed.
  | stepAfter position step operand _ =>
    rw [code_stepAfter, Node.evaluate_stepAfter]
    cases hname : operand.variable? with
    | none =>
      rw [Node.takeStep_refused step hname]
      rfl
    | some name =>
      rw [Node.takeStep_variable hname]
      simp only [List.singleton_append, run, Instruction.perform]
      cases bindings.get? name <;> cases step <;> rfl
  | binary position left op right ihl ihr =>
    rw [code, List.append_assoc, List.append_assoc, ihl, Node.evaluate_binary]
    cases left.evaluate bindings with
    | error fault after => rfl
    | ok a middle =>
      dsimp only
      rw [ihr]
      cases right.evaluate middle with
      | error fault after => rfl
      | ok b after =>
        simp only [List.singleton_append, run, Instruction.perform]
        cases op.apply a b <;> rfl

/-- A run that fails has finished all instructions before the one that fails,
and ends with the bindings these left. -/
theorem run_eq_failed {instructions : List Instruction} {state : State} {fault : EvalFault}
    {bindings : Bindings} (h : run instructions state = .failed fault bindings) :
    ∃ before failing behind reached, instructions = before ++ failing :: behind ∧
      run before state = .finished reached ∧
      failing.perform reached = some (.error fault) ∧ bindings = reached.bindings := by
  induction instructions generalizing state with
  | nil => cases h
  | cons instruction rest ih =>
    rw [run] at h
    cases hperform : instruction.perform state with
    | none => simp [hperform] at h
    | some result =>
      cases result with
      | error fault' =>
        rw [hperform] at h
        cases h
        exact ⟨[], instruction, rest, state, rfl, rfl, hperform, rfl⟩
      | ok next =>
        rw [hperform] at h
        obtain ⟨before, failing, behind, reached, rfl, hrun, hfail, hb⟩ := ih h
        exact ⟨instruction :: before, failing, behind, reached, rfl,
          by rw [run, hperform]; exact hrun, hfail, hb⟩

/-- Evaluating a tree is running its postorder on an empty stack. The value is
all that is left on the stack; a fault is that of the first instruction that
fails, and leaves the bindings that the instructions before it made. -/
theorem run_code_eq_evaluate (node : Node) (bindings : Bindings) :
    (run (code node) ⟨[], bindings⟩ =
      match node.evaluate bindings with
      | .ok value after => .finished ⟨[value], after⟩
      | .error fault after => .failed fault after) ∧
    ∀ fault after, node.evaluate bindings = .error fault after →
      ∃ before failing behind reached, code node = before ++ failing :: behind ∧
        run before ⟨[], bindings⟩ = .finished reached ∧
        failing.perform reached = some (.error fault) ∧ after = reached.bindings := by
  have hrun := run_code_append node [] [] bindings
  rw [List.append_nil] at hrun
  refine ⟨hrun, fun fault after h => ?_⟩
  rw [h] at hrun
  exact run_eq_failed hrun

end Reckoner.Machine
