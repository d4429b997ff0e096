import Reckoner.Proofs.Evaluation.Locality
import Reckoner.Proofs.Value.Wrapping

/-! Integer expressions without bounds. The same tree is evaluated from left to right with
integers that never wrap, in variables that never wrap either. A run with wrapping keeps
step with it: what the one holds is what the other holds, wrapped. So it makes no difference
whether every operation wraps or only the result does. -/
namespace Reckoner

/-! ## Evaluation without bounds -/

/-- Variables with integers of any size. -/
abbrev Integers := String → Option Int

/-- Gives the name its integer. -/
def Integers.set (store : Integers) (name : String) (n : Int) : Integers :=
  fun other => if name = other then some n else store other

/-- The variables that are bound to integers. -/
def Bindings.integers (bindings : Bindings) : Integers := fun name =>
  match bindings.get? name with
  | some (.int n) => some n
  | _ => none

/-- The integer one step further. -/
def Step.unbounded : Step → Int → Int
  | .increment, n => n + 1
  | .decrement, n => n - 1

/-- The operators that have an integer of any size as their result. -/
def BinaryOp.unbounded? : BinaryOp → Int → Int → Option Int
  | .add, m, n => some (m + n)
  | .subtract, m, n => some (m - n)
  | .multiply, m, n => some (m * n)
  | .power, m, n => if 0 ≤ n then some (m ^ n.toNat) else none
  | .divide, _, _ | .modulo, _, _ => none

/-- The integer of an expression and the variables left behind, from left to right. -/
def Node.unbounded? : Node → Integers → Option (Int × Integers)
  | .literal _ (.int n), store => some (n, store)
  | .reference _ name, store => do
    let n ← store name
    return (n, store)
  | .unary _ .plus operand, store => operand.unbounded? store
  | .unary _ .minus operand, store => do
    let (n, after) ← operand.unbounded? store
    return (-n, after)
  | .unary _ (.step step) (.reference _ name), store => do
    let n ← store name
    return (step.unbounded n, store.set name (step.unbounded n))
  | .stepAfter _ step (.reference _ name), store => do
    let n ← store name
    return (n, store.set name (step.unbounded n))
  | .binary _ left op right, store => do
    let (m, middle) ← left.unbounded? store
    let (n, after) ← right.unbounded? middle
    let result ← op.unbounded? m n
    return (result, after)
  | _, _ => none

/-- Sums, differences and products, which wrapping carries over. -/
def BinaryOp.IsRing (op : BinaryOp) : Prop :=
  op = .add ∨ op = .subtract ∨ op = .multiply

/-- Expressions of integers: literals of the range, variables and steps on them, signs,
sums, differences and products, and powers whose exponent is a natural literal. -/
inductive Node.IsIntegral : Node → Prop
  | literal {position : Int} {n : Int} (hn : (Value.int n).InRange) :
      IsIntegral (.literal position (.int n))
  | reference {position : Int} {name : String} : IsIntegral (.reference position name)
  | plus {position : Int} {operand : Node} (h : operand.IsIntegral) :
      IsIntegral (.unary position .plus operand)
  | minus {position : Int} {operand : Node} (h : operand.IsIntegral) :
      IsIntegral (.unary position .minus operand)
  | stepBefore {position place : Int} {step : Step} {name : String} :
      IsIntegral (.unary position (.step step) (.reference place name))
  | stepAfter {position place : Int} {step : Step} {name : String} :
      IsIntegral (.stepAfter position step (.reference place name))
  | ring {position : Int} {op : BinaryOp} {left right : Node} (hop : op.IsRing)
      (hleft : left.IsIntegral) (hright : right.IsIntegral) :
      IsIntegral (.binary position left op right)
  | power {position place : Int} {base : Node} {exponent : Int} (hbase : base.IsIntegral)
      (hnonneg : 0 ≤ exponent) (hexponent : (Value.int exponent).InRange) :
      IsIntegral (.binary position base .power (.literal place (.int exponent)))

/-! ## Wrapped and unwrapped variables -/

/-- Each of these variables has an integer on the one side, and the same wrapped on the
other. -/
def Wraps (held : String → Prop) (store : Integers) (bindings : Bindings) : Prop :=
  ∀ name, held name → ∃ n, store name = some n ∧ bindings.get? name = some (.int (wrap n))

/-- The variable is bound to an integer of the range. -/
def Bindings.HoldsInteger (bindings : Bindings) (name : String) : Prop :=
  ∃ n, bindings.get? name = some (.int n) ∧ (Value.int n).InRange

theorem Bindings.wraps_integers (bindings : Bindings) :
    Wraps bindings.HoldsInteger bindings.integers bindings := by
  rintro name ⟨n, hn, hrange⟩
  refine ⟨n, ?_, ?_⟩
  · simp only [integers, hn]
  · rw [hn, Value.wrap_of_inRange hrange]

theorem Wraps.set {held : String → Prop} {store : Integers} {bindings : Bindings}
    (h : Wraps held store bindings) (name : String) (n : Int) :
    Wraps held (store.set name n) (bindings.set name (.int (wrap n))) := by
  intro other hother
  rw [Bindings.get?_set, Integers.set]
  by_cases hname : name = other
  · exact ⟨n, if_pos hname, if_pos hname⟩
  · rw [if_neg hname, if_neg hname]
    exact h other hother

/-! ## One operation -/

theorem Step.apply_wrap (step : Step) (n : Int) :
    step.apply (.int (wrap n)) = .int (wrap (step.unbounded n)) := by
  have hone : Value.int 1 = .int (wrap 1) := by decide
  cases step with
  | increment => rw [apply, hone, Value.add_wrap, unbounded]
  | decrement => rw [apply, hone, Value.subtract_wrap, unbounded]

theorem BinaryOp.IsRing.apply_wrap {op : BinaryOp} (h : op.IsRing) (m n : Int) :
    ∃ k, op.unbounded? m n = some k ∧
      op.apply (.int (wrap m)) (.int (wrap n)) = .ok (.int (wrap k)) := by
  rcases h with rfl | rfl | rfl
  · exact ⟨m + n, rfl, congrArg _ (Value.add_wrap m n)⟩
  · exact ⟨m - n, rfl, congrArg _ (Value.subtract_wrap m n)⟩
  · exact ⟨m * n, rfl, congrArg _ (Value.multiply_wrap m n)⟩

namespace Node

variable {held : String → Prop} {store : Integers} {bindings : Bindings}

/-! ## Whole expressions -/

/-- Both evaluations of the tree go through, to a value and variables that are the same but
for the wrapping. -/
def Simulates (held : String → Prop) (node : Node) : Prop :=
  ∀ (store : Integers) (bindings : Bindings), Wraps held store bindings →
    ∃ n final after, node.unbounded? store = some (n, final) ∧
      node.evaluate bindings = .ok (.int (wrap n)) after ∧ Wraps held final after

theorem simulates_step {name : String} (hname : held name) (step : Step) (place : Int)
    (h : Wraps held store bindings) :
    ∃ n after, store name = some n ∧
      takeStep step (.reference place name) bindings =
        .ok (.int (wrap n), .int (wrap (step.unbounded n))) after ∧
      Wraps held (store.set name (step.unbounded n)) after := by
  obtain ⟨n, hstore, hbindings⟩ := h name hname
  refine ⟨n, bindings.set name (.int (wrap (step.unbounded n))), hstore, ?_, h.set name _⟩
  rw [takeStep_variable rfl, hbindings]
  simp only [Step.apply_wrap]

/-- A wrapped result of the operator for wrapped operands carries over to the trees. -/
theorem Simulates.operator {left right : Node} (hleft : left.Simulates held)
    (hright : right.Simulates held) {op : BinaryOp} (hop : op.IsRing) (position : Int) :
    (binary position left op right).Simulates held := by
  intro store bindings h
  obtain ⟨m, middle, between, hm, hleft, hmiddle⟩ := hleft store bindings h
  obtain ⟨n, final, after, hn, hright, hfinal⟩ := hright middle between hmiddle
  obtain ⟨k, hk, happly⟩ := hop.apply_wrap m n
  refine ⟨k, final, after, ?_, ?_, hfinal⟩
  · simp [unbounded?, hm, hn, hk]
  · simp only [evaluate_binary, hleft, hright, happly]

theorem Simulates.raised {base : Node} (hbase : base.Simulates held) {exponent : Int}
    (hexponent : 0 ≤ exponent) (position place : Int) :
    (binary position base .power (literal place (.int exponent))).Simulates held := by
  intro store bindings h
  obtain ⟨m, final, after, hm, hbase, hfinal⟩ := hbase store bindings h
  have happly : BinaryOp.power.apply (.int (wrap m)) (.int exponent) =
      .ok (.int (wrap (m ^ exponent.toNat))) := Value.power_wrap m hexponent
  refine ⟨m ^ exponent.toNat, final, after, ?_, ?_, hfinal⟩
  · simp [unbounded?, hm, BinaryOp.unbounded?, hexponent]
  · simp only [evaluate_binary, hbase, evaluate_literal, happly]

theorem IsIntegral.simulates {node : Node} (h : node.IsIntegral)
    (hnames : ∀ name ∈ node.names, held name) : node.Simulates held := by
  induction h with
  | @literal position n hn =>
    intro store bindings hstore
    refine ⟨n, store, bindings, rfl, ?_, hstore⟩
    rw [evaluate_literal, Value.wrap_of_inRange hn]
  | @reference position name =>
    intro store bindings hstore
    obtain ⟨n, hn, hget⟩ := hstore name (hnames name List.mem_cons_self)
    refine ⟨n, store, bindings, ?_, ?_, hstore⟩
    · simp [unbounded?, hn]
    · rw [evaluate_reference, hget]
  | plus h ih => exact ih hnames
  | minus h ih =>
    intro store bindings hstore
    obtain ⟨n, final, after, hn, hvalue, hfinal⟩ := ih hnames store bindings hstore
    refine ⟨-n, final, after, ?_, ?_, hfinal⟩
    · simp [unbounded?, hn]
    · simp only [evaluate_minus, hvalue, Value.negate_wrap]
  | @stepBefore position place step name =>
    intro store bindings hstore
    obtain ⟨n, after, hn, hstep, hafter⟩ :=
      simulates_step (hnames name List.mem_cons_self) step place hstore
    refine ⟨step.unbounded n, _, after, ?_, ?_, hafter⟩
    · simp [unbounded?, hn]
    · simp only [evaluate_stepBefore, hstep]
  | @stepAfter position place step name =>
    intro store bindings hstore
    obtain ⟨n, after, hn, hstep, hafter⟩ :=
      simulates_step (hnames name List.mem_cons_self) step place hstore
    refine ⟨n, _, after, ?_, ?_, hafter⟩
    · simp [unbounded?, hn]
    · simp only [evaluate_stepAfter, hstep]
  | ring hop _ _ ihl ihr =>
    have hleft := ihl fun name hname => hnames name (List.mem_append_left _ hname)
    have hright := ihr fun name hname => hnames name (List.mem_append_right _ hname)
    exact hleft.operator hright hop _
  | power _ hnonneg _ ih =>
    exact (ih fun name hname => hnames name (List.mem_append_left _ hname)).raised hnonneg _ _

/-- An evaluation leaves a name alone that is not in the tree. -/
theorem get?_after_of_notMem_names {node : Node} {value : Value} {after : Bindings}
    (h : node.evaluate bindings = .ok value after) {name : String}
    (hname : name ∉ node.names) : after.get? name = bindings.get? name := by
  have htakes := node.evaluate_takes bindings
  rw [h] at htakes
  obtain rfl : after = bindings.advanceAll node.steps := htakes
  exact bindings.get?_advanceAll_of_notMem (mt mem_names_of_steps hname)

/-- An integral expression, evaluated with every operation wrapping, gives what the
evaluation without bounds gives, wrapped once. The variables that hold integers end with
the integers they have in the evaluation without bounds, each wrapped once, and any variable
that is not in the expression stays as it is. -/
theorem evaluate_eq_wrap_unbounded {node : Node} (h : node.IsIntegral) {bindings : Bindings}
    (hnames : ∀ name ∈ node.names, bindings.HoldsInteger name) :
    ∃ n final after, node.unbounded? bindings.integers = some (n, final) ∧
      node.evaluate bindings = .ok (.int (wrap n)) after ∧
      (∀ name, bindings.HoldsInteger name →
        ∃ k, final name = some k ∧ after.get? name = some (.int (wrap k))) ∧
      ∀ name ∉ node.names, after.get? name = bindings.get? name := by
  obtain ⟨n, final, after, hunbounded, hvalue, hfinal⟩ :=
    h.simulates hnames bindings.integers bindings bindings.wraps_integers
  exact ⟨n, final, after, hunbounded, hvalue, hfinal, fun name hname =>
    get?_after_of_notMem_names hvalue hname⟩

/-- In `-(y ^ 41) * x++ - x` the power of a negative base and the step leave the range. -/
theorem evaluate_eq_wrap_unbounded_power :
    let node : Node :=
      .binary 16 (.binary 10 (.unary 0 .minus
          (.binary 4 (.reference 2 "y") .power (.literal 6 (.int 41)))) .multiply
        (.stepAfter 13 .increment (.reference 12 "x"))) .subtract (.reference 18 "x")
    let bindings := Bindings.ofList [("x", .int 9223372036854775807), ("y", .int (-3))]
    ∃ after,
      node.evaluate bindings = .ok (.int (wrap
        (-(-3) ^ 41 * 9223372036854775807 - 9223372036854775808))) after ∧
      after.get? "x" = some (.int (wrap 9223372036854775808)) := by
  intro node bindings
  have hintegral : node.IsIntegral :=
    .ring (.inr (.inl rfl))
      (.ring (.inr (.inr rfl))
        (.minus (.power .reference (by decide) (Value.inRange_int.mpr (by decide))))
        .stepAfter)
      .reference
  have hx : bindings.HoldsInteger "x" :=
    ⟨9223372036854775807, rfl, Value.inRange_int.mpr (by decide)⟩
  have hy : bindings.HoldsInteger "y" := ⟨-3, rfl, Value.inRange_int.mpr (by decide)⟩
  have hnames : ∀ name ∈ node.names, bindings.HoldsInteger name := by
    intro name hname
    have hname : name = "y" ∨ name = "x" := by simpa [node, names, or_assoc] using hname
    rcases hname with rfl | rfl
    · exact hy
    · exact hx
  obtain ⟨n, final, after, hunbounded, hvalue, hfinal, -⟩ :=
    evaluate_eq_wrap_unbounded hintegral hnames
  obtain ⟨k, hk, hget⟩ := hfinal "x" hx
  cases hunbounded
  cases hk
  exact ⟨after, hvalue, hget⟩

end Node

end Reckoner
