import Reckoner.Diagnostic
import Reckoner.Proofs.Grammar.Derivation
import Reckoner.Proofs.Grammar.Readers

/-! A flat view of the grammar: an automaton that goes through the tokens once,
from left to right, and keeps nothing but a state and the number of open
parentheses. It decides like the readers, nested as these are, whether tokens are
a statement, and where they are not it stops at the same token with the same
code. -/
namespace Reckoner.Grammar

namespace Automaton

/-! ## The automaton -/

/-- What the automaton has read last, with the number of open parentheses once
the expression has begun. -/
inductive State where
  /-- Nothing: the name comes first. -/
  | start
  /-- The name. -/
  | afterName
  /-- Something that an operand has to follow. -/
  | operand (depth : Nat)
  /-- A number, a name or a closing parenthesis. -/
  | afterPrimary (depth : Nat)
  /-- A step behind an operand. -/
  | afterPostfix (depth : Nat)
deriving DecidableEq

/-- What the automaton does at a token. -/
inductive Move where
  | go (state : State)
  | accept
  | reject (code : Code)
deriving DecidableEq

/-- The assignment operators. -/
def isAssignment (kind : Token.Kind) : Bool :=
  kind ∈ [.equal, .plusEqual, .minusEqual, .starEqual, .slashEqual, .percentEqual, .caretEqual]

/-- The operators before an operand. -/
def isPrefix (kind : Token.Kind) : Bool :=
  kind ∈ [.plusPlus, .minusMinus, .plus, .minus]

/-- The operators behind an operand. -/
def isPostfix (kind : Token.Kind) : Bool :=
  kind ∈ [.plusPlus, .minusMinus]

/-- The operators between operands. -/
def isBinary (kind : Token.Kind) : Bool :=
  kind ∈ [.plus, .minus, .star, .slash, .percent, .caret]

/-- The move behind an operand, where no step can follow any more. Within
parentheses the closing one is missed, outside of them the end. -/
def behindOperand (depth : Nat) (kind : Token.Kind) : Move :=
  if isBinary kind then .go (.operand depth)
  else
    match depth with
    | 0 => if kind = .endOfLine then .accept else .reject .unexpectedToken
    | depth + 1 =>
      if kind = .rightParen then .go (.afterPrimary depth) else .reject .expectedClosing

/-- The move of the automaton at a token of the kind. -/
def move : State → Token.Kind → Move
  | .start, kind => if kind = .identifier then .go .afterName else .reject .expectedName
  | .afterName, kind =>
    if isAssignment kind then .go (.operand 0) else .reject .expectedAssignment
  | .operand depth, kind =>
    if isPrefix kind then .go (.operand depth)
    else if kind = .leftParen then .go (.operand (depth + 1))
    else if kind = .number ∨ kind = .identifier then .go (.afterPrimary depth)
    else .reject .expectedExpression
  | .afterPrimary depth, kind =>
    if isPostfix kind then .go (.afterPostfix depth) else behindOperand depth kind
  | .afterPostfix depth, kind => behindOperand depth kind

/-- What has been decided about tokens. -/
inductive Verdict where
  | accepted
  | rejected (code : Code) (position : Int)
deriving DecidableEq

/-- The verdict of the automaton from a state. There is none if the tokens run
out before it stops. -/
def run : State → List Token → Option Verdict
  | _, [] => none
  | state, token :: rest =>
    match move state token.kind with
    | .go state => run state rest
    | .accept => some .accepted
    | .reject code => some (.rejected code token.position)

theorem run_go {state next : State} {token : Token} (h : move state token.kind = .go next)
    (rest : List Token) : run state (token :: rest) = run next rest := by
  rw [run, h]

theorem run_accept {state : State} {token : Token} (h : move state token.kind = .accept)
    (rest : List Token) : run state (token :: rest) = some .accepted := by
  rw [run, h]

theorem run_reject {state : State} {token : Token} {code : Code}
    (h : move state token.kind = .reject code) (rest : List Token) :
    run state (token :: rest) = some (.rejected code token.position) := by
  rw [run, h]

end Automaton

open Automaton

/-! ## Roles of a token -/

theorem isAssignment_eq (kind : Token.Kind) : isAssignment kind = (assignOp? kind).isSome := by
  cases kind <;> rfl

theorem isPrefix_eq (kind : Token.Kind) : isPrefix kind = (unaryOp? kind).isSome := by
  cases kind <;> rfl

theorem isPostfix_eq (kind : Token.Kind) : isPostfix kind = (step? kind).isSome := by
  cases kind <;> rfl

theorem isBinary_eq (kind : Token.Kind) :
    isBinary kind = ((additiveOp? kind).isSome || (multiplicativeOp? kind).isSome ||
      kind = .caret) := by
  cases kind <;> rfl

/-! ## Moves -/

theorem move_assignment {kind : Token.Kind} {op : AssignOp} (h : assignOp? kind = some op) :
    move .afterName kind = .go (.operand 0) := by
  simp [move, isAssignment_eq, h]

theorem move_not_assignment {kind : Token.Kind} (h : assignOp? kind = none) :
    move .afterName kind = .reject .expectedAssignment := by
  simp [move, isAssignment_eq, h]

theorem move_prefixed {kind : Token.Kind} {op : UnaryOp} (h : unaryOp? kind = some op)
    (depth : Nat) : move (.operand depth) kind = .go (.operand depth) := by
  simp [move, isPrefix_eq, h]

theorem move_not_operand {kind : Token.Kind} (hp : unaryOp? kind = none)
    (hs : startsPrimary kind = false) (depth : Nat) :
    move (.operand depth) kind = .reject .expectedExpression := by
  simp only [startsPrimary, Bool.or_eq_false_iff, decide_eq_false_iff_not] at hs
  simp [move, isPrefix_eq, hp, hs]

theorem move_stepped {kind : Token.Kind} {step : Step} (h : step? kind = some step)
    (depth : Nat) : move (.afterPrimary depth) kind = .go (.afterPostfix depth) := by
  simp [move, isPostfix_eq, h]

theorem move_binary {kind : Token.Kind} (h : isBinary kind = true) (depth : Nat) :
    move (.afterPostfix depth) kind = .go (.operand depth) :=
  if_pos h

/-- Within parentheses nothing but the closing one ends an expression. -/
theorem move_inside {kind : Token.Kind} (hb : isBinary kind = false) (hk : kind ≠ .rightParen)
    (depth : Nat) : move (.afterPostfix (depth + 1)) kind = .reject .expectedClosing := by
  simp [move, behindOperand, hb, hk]

/-- Outside of parentheses nothing but the end of the line does. -/
theorem move_outside {kind : Token.Kind} (hb : isBinary kind = false) (hk : kind ≠ .endOfLine) :
    move (.afterPostfix 0) kind = .reject .unexpectedToken := by
  simp [move, behindOperand, hb, hk]

/-- The automaton goes on in no state behind the end of the line. -/
theorem move_endOfLine (state next : State) : move state .endOfLine ≠ .go next := by
  cases state with
  | start | afterName | operand => simp [move, isAssignment, isPrefix]
  | afterPrimary depth | afterPostfix depth =>
    cases depth <;> simp [move, behindOperand, isPostfix, isBinary]

/-- What follows the end of the line plays no part. -/
theorem run_endOfLine {stop : Token} (hstop : stop.kind = .endOfLine) (state : State)
    (front behind : List Token) :
    run state (front ++ stop :: behind) = run state (front ++ [stop]) := by
  induction front generalizing state with
  | nil =>
    simp only [List.nil_append, run]
    split
    · next next hgo =>
      rw [hstop] at hgo
      exact absurd hgo (move_endOfLine state next)
    · rfl
    · rfl
  | cons token front ih =>
    simp only [List.cons_append, run]
    cases move state token.kind with
    | go next => exact ih next
    | accept | reject => rfl

/-- Where no step follows, it makes no difference whether one could. -/
theorem run_afterPrimary {tokens : List Token} (h : step? (nextKind tokens) = none)
    (depth : Nat) : run (.afterPrimary depth) tokens = run (.afterPostfix depth) tokens := by
  cases tokens with
  | nil => rfl
  | cons token rest =>
    have hk : isPostfix token.kind = false := by
      rw [isPostfix_eq, show step? token.kind = none from h]
      rfl
    have hmove : move (.afterPrimary depth) token.kind = move (.afterPostfix depth) token.kind := by
      simp [move, hk]
    rw [run, run, hmove]

/-! ## Readers and the automaton -/

/-- The end of the line is ahead. -/
def Ended (tokens : List Token) : Prop :=
  ∃ token ∈ tokens, token.kind = .endOfLine

theorem Ended.exists_cons {tokens : List Token} (h : Ended tokens) :
    ∃ token rest, tokens = token :: rest := by
  obtain ⟨token, ht, -⟩ := h
  exact List.exists_cons_of_ne_nil (List.ne_nil_of_mem ht)

theorem not_ended_nil : ¬ Ended [] := by
  intro h
  obtain ⟨token, rest, hcons⟩ := h.exists_cons
  cases hcons

theorem Ended.tail {token : Token} {rest : List Token} (h : Ended (token :: rest))
    (hk : token.kind ≠ .endOfLine) : Ended rest := by
  obtain ⟨stop, hmem, hstop⟩ := h
  rcases List.mem_cons.mp hmem with rfl | hmem
  · exact absurd hstop hk
  · exact ⟨stop, hmem, hstop⟩

/-- The verdict on tokens in which a fault has been found. -/
def rejection (fault : ParseFault) : Verdict :=
  .rejected fault.expected.code fault.position

/-- The automaton goes the way of a reader. From the state `first` it comes, at any
depth, to the state `last` at the tokens that the reader leaves, of which the next
is of a kind that `stops` it. Where the reader finds a fault the automaton stops,
unless the fault is that of a number: it does not look at their digits. -/
def Agrees (first last : Nat → State) (stops : Token.Kind → Prop) (tokens : List Token) :
    Except ParseFault (Node × List Token) → Prop
  | .ok (_, rest) => Ended rest ∧ rest ⊆ tokens ∧ stops (nextKind rest) ∧
      ∀ depth, run (first depth) tokens = run (last depth) rest
  | .error fault => IsNumberFault tokens fault ∨
      ∀ depth, run (first depth) tokens = some (rejection fault)

/-- One way after the other is a way. -/
theorem Agrees.bind {first middle last : Nat → State} {stops behind : Token.Kind → Prop}
    {tokens : List Token} {x : Except ParseFault (Node × List Token)}
    (hx : Agrees first middle stops tokens x)
    {g : Node × List Token → Except ParseFault (Node × List Token)}
    (h : ∀ node rest, x = .ok (node, rest) → Ended rest → stops (nextKind rest) →
      Agrees middle last behind rest (g (node, rest))) :
    Agrees first last behind tokens (x >>= g) := by
  cases x with
  | error fault => exact hx
  | ok result =>
    obtain ⟨node, rest⟩ := result
    obtain ⟨hended, hsub, hstops, hrun⟩ := hx
    have hnext := h node rest rfl hended hstops
    show Agrees first last behind tokens (g (node, rest))
    cases hanswer : g (node, rest) with
    | error fault =>
      rw [hanswer] at hnext
      exact hnext.imp (·.mono hsub) fun hstop depth => (hrun depth).trans (hstop depth)
    | ok answer =>
      rw [hanswer] at hnext
      obtain ⟨hlast, hmore, hbehind, hway⟩ := hnext
      exact ⟨hlast, List.Subset.trans hmore hsub, hbehind, fun depth => (hrun depth).trans (hway depth)⟩

/-- A token that the automaton passes comes before the way behind it. -/
theorem Agrees.cons {first last m : Nat → State} {stops : Token.Kind → Prop}
    {token : Token} {rest : List Token} {x : Except ParseFault (Node × List Token)}
    (hmove : ∀ depth, move (first depth) token.kind = .go (m depth))
    (h : Agrees m last stops rest x) : Agrees first last stops (token :: rest) x := by
  have hrun (depth : Nat) : run (first depth) (token :: rest) = run (m depth) rest :=
    run_go (hmove depth) rest
  have hsub : rest ⊆ token :: rest := List.subset_cons_self token rest
  cases x with
  | error fault => exact h.imp (·.mono hsub) fun hstop depth => (hrun depth).trans (hstop depth)
  | ok answer =>
    obtain ⟨hended, hmore, hstops, hway⟩ := h
    exact ⟨hended, List.Subset.trans hmore hsub, hstops, fun depth => (hrun depth).trans (hway depth)⟩

/-- An operator leads from behind its left operand to in front of the right one. What
`tail` makes of both goes on behind that one. -/
theorem Agrees.operator {stops behind : Token.Kind → Prop} {operator : Token}
    {rest : List Token} {right : Except ParseFault (Node × List Token)}
    (hk : isBinary operator.kind = true)
    (hright : Agrees .operand .afterPostfix stops rest right)
    {left : Node} {op : BinaryOp}
    (tail : Node → List Token → Except ParseFault (Node × List Token))
    (ht : ∀ node rest, right = .ok (node, rest) → Ended rest → stops (nextKind rest) →
      Agrees .afterPostfix .afterPostfix behind rest
        (tail (.binary operator.position left op node) rest)) :
    Agrees .afterPostfix .afterPostfix behind (operator :: rest)
      (right >>= fun r => tail (.binary operator.position left op r.1) r.2) := by
  refine .cons (move_binary hk) (hright.bind (g := fun r =>
    tail (.binary operator.position left op r.1) r.2) ?_)
  exact ht

/-- Nothing is read, and the automaton stays where it is. -/
theorem Agrees.stay {state : Nat → State} {stops : Token.Kind → Prop} {tokens : List Token}
    (node : Node) (he : Ended tokens) (hs : stops (nextKind tokens)) :
    Agrees state state stops tokens (.ok (node, tokens)) :=
  ⟨he, List.Subset.refl tokens, hs, fun _ => rfl⟩

/-- The next token is no power. -/
def NoPower (kind : Token.Kind) : Prop :=
  kind ≠ .caret

/-- The next token goes on in no product. -/
def NoProduct (kind : Token.Kind) : Prop :=
  NoPower kind ∧ multiplicativeOp? kind = none

/-- The next token goes on in no expression. -/
def NoSum (kind : Token.Kind) : Prop :=
  NoProduct kind ∧ additiveOp? kind = none

theorem NoSum.isBinary_eq_false {kind : Token.Kind} (h : NoSum kind) : isBinary kind = false := by
  obtain ⟨⟨hpower, hproduct⟩, hsum⟩ := h
  simp [isBinary_eq, hsum, hproduct, show kind ≠ .caret from hpower]

theorem stepTail_agrees (operand : Node) {tokens : List Token} (he : Ended tokens) :
    Agrees .afterPrimary .afterPostfix (fun _ => True) tokens
      (outcome (.ok (stepTail operand tokens))) := by
  cases hstep : step? (nextKind tokens) with
  | none =>
    rw [stepTail_stop operand tokens hstep]
    exact ⟨he, List.Subset.refl tokens, trivial, run_afterPrimary hstep⟩
  | some step =>
    obtain ⟨token, rest, rfl⟩ := he.exists_cons
    rw [stepTail_cons operand hstep]
    have hk := (step?_eq_some_iff.mp hstep).ne_endOfLine
    exact .cons (move_stepped hstep) (.stay _ (he.tail hk) trivial)

/-- Within parentheses the automaton goes the same way. -/
theorem Agrees.deeper {first last : Nat → State} {stops : Token.Kind → Prop}
    {tokens : List Token} {x : Except ParseFault (Node × List Token)}
    (h : Agrees first last stops tokens x) :
    Agrees (fun depth => first (depth + 1)) (fun depth => last (depth + 1)) stops tokens x := by
  cases x with
  | error fault => exact h.imp_right fun hstop depth => hstop (depth + 1)
  | ok answer => exact ⟨h.1, h.2.1, h.2.2.1, fun depth => h.2.2.2 (depth + 1)⟩

/-- Behind an expression in parentheses, only the closing one is no fault. -/
theorem closed_agrees (inner : Node) {tokens : List Token} (he : Ended tokens)
    (hs : NoSum (nextKind tokens)) :
    Agrees (fun depth => .afterPostfix (depth + 1)) .afterPrimary (fun _ => True) tokens
      (outcome (closed inner tokens)) := by
  obtain ⟨token, rest, rfl⟩ := he.exists_cons
  by_cases hk : token.kind = .rightParen
  · rw [closed_cons inner hk]
    exact .cons (fun depth => by rw [hk]; rfl) (.stay inner (he.tail (by rw [hk]; decide)) trivial)
  · rw [closed_fail inner (token :: rest) hk]
    exact .inr fun depth => run_reject (move_inside hs.isBinary_eq_false hk depth) rest

/-- Each reader goes the way of the automaton. A tail starts behind an operand
that the level below has read to its end. -/
theorem readers_agree :
    (∀ tokens, Ended tokens →
      Agrees .operand .afterPostfix NoSum tokens (outcome (additive tokens))) ∧
    (∀ left tokens, Ended tokens → NoProduct (nextKind tokens) →
      Agrees .afterPostfix .afterPostfix NoSum tokens (outcome (additiveTail left tokens))) ∧
    (∀ tokens, Ended tokens →
      Agrees .operand .afterPostfix NoProduct tokens (outcome (multiplicative tokens))) ∧
    (∀ left tokens, Ended tokens → NoPower (nextKind tokens) →
      Agrees .afterPostfix .afterPostfix NoProduct tokens
        (outcome (multiplicativeTail left tokens))) ∧
    (∀ tokens, Ended tokens →
      Agrees .operand .afterPostfix NoPower tokens (outcome (unary tokens))) ∧
    (∀ base tokens, Ended tokens →
      Agrees .afterPostfix .afterPostfix NoPower tokens (outcome (powerTail base tokens))) ∧
    (∀ tokens, Ended tokens → unaryOp? (nextKind tokens) = none →
      Agrees .operand .afterPostfix (fun _ => True) tokens (outcome (stepped tokens))) ∧
    (∀ tokens, Ended tokens → unaryOp? (nextKind tokens) = none →
      Agrees .operand .afterPrimary (fun _ => True) tokens (outcome (primary tokens))) := by
  -- Induction along the calls. An operator is read in the state behind an operand, and
  -- leads to the state in front of one; what a level leaves is what its caller reads.
  apply additive.mutual_induct
  case case1 => -- additive
    intro tokens ihFirst ihTail he
    rw [outcome_additive]
    refine (ihFirst he).bind (g := fun f => outcome (additiveTail f.1 f.2)) ?_
    intro node rest h hrest hstops
    exact ihTail ⟨node, rest, outcome_eq_ok h⟩ hrest hstops
  case case2 => -- additiveTail, no tokens
    intro left he
    exact absurd he not_ended_nil
  case case3 => -- additiveTail, no operator
    intro left token rest hop he hproduct
    rw [outcome_additiveTail_stop left (token :: rest) hop]
    exact .stay left he ⟨hproduct, hop⟩
  case case4 => -- additiveTail, an operator
    intro left token rest op hop ihRight ihTail he _
    have hrest := he.tail (additiveOp?_eq_some_iff.mp hop).ne_endOfLine
    rw [outcome_additiveTail_cons left hop]
    refine .operator (by simp [isBinary_eq, hop]) (ihRight hrest)
      (fun n r => outcome (additiveTail n r)) ?_
    intro node behind h hbehind hstops
    exact ihTail ⟨node, behind, outcome_eq_ok h⟩ hbehind hstops
  case case5 => -- multiplicative
    intro tokens ihFirst ihTail he
    rw [outcome_multiplicative]
    refine (ihFirst he).bind (g := fun f => outcome (multiplicativeTail f.1 f.2)) ?_
    intro node rest h hrest hstops
    exact ihTail ⟨node, rest, outcome_eq_ok h⟩ hrest hstops
  case case6 => -- multiplicativeTail, no tokens
    intro left he
    exact absurd he not_ended_nil
  case case7 => -- multiplicativeTail, no operator
    intro left token rest hop he hpower
    rw [outcome_multiplicativeTail_stop left (token :: rest) hop]
    exact .stay left he ⟨hpower, hop⟩
  case case8 => -- multiplicativeTail, an operator
    intro left token rest op hop ihRight ihTail he _
    have hrest := he.tail (multiplicativeOp?_eq_some_iff.mp hop).ne_endOfLine
    rw [outcome_multiplicativeTail_cons left hop]
    refine .operator (by simp [isBinary_eq, hop]) (ihRight hrest)
      (fun n r => outcome (multiplicativeTail n r)) ?_
    intro node behind h hbehind hstops
    exact ihTail ⟨node, behind, outcome_eq_ok h⟩ hbehind hstops
  case case9 => -- unary, no tokens
    intro he
    exact absurd he not_ended_nil
  case case10 => -- unary, a prefix
    intro token rest op hop ihOperand he
    have hrest := he.tail (unaryOp?_eq_some_iff.mp hop).ne_endOfLine
    rw [outcome_unary_prefixed hop]
    refine .cons (move_prefixed hop) ((ihOperand hrest).bind (g := fun operand =>
      .ok (.unary token.position op operand.1, operand.2)) ?_)
    intro node behind _ hbehind hstops
    exact .stay _ hbehind hstops
  case case11 => -- unary, a base
    intro token rest hop ihBase ihTail he
    rw [outcome_unary_base (token :: rest) hop]
    refine (ihBase he hop).bind (g := fun b => outcome (powerTail b.1 b.2)) ?_
    intro node behind h hbehind _
    exact ihTail ⟨node, behind, outcome_eq_ok h⟩ hbehind
  case case12 => -- powerTail, no tokens
    intro base he
    exact absurd he not_ended_nil
  case case13 => -- powerTail, an exponent
    intro base token rest hk ihExponent he
    have hrest := he.tail (by rw [hk]; decide)
    rw [outcome_powerTail_cons base hk]
    refine .operator (by rw [hk]; rfl) (ihExponent hrest) (fun n r => .ok (n, r)) ?_
    intro node behind _ hbehind hstops
    exact .stay _ hbehind hstops
  case case14 => -- powerTail, no exponent
    intro base token rest hk he
    rw [outcome_powerTail_stop base (token :: rest) hk]
    exact .stay base he hk
  case case15 => -- stepped
    intro tokens ihOperand he hop
    rw [outcome_stepped]
    refine (ihOperand he hop).bind (g := fun o => outcome (.ok (stepTail o.1 o.2))) ?_
    intro node behind _ hbehind _
    exact stepTail_agrees node hbehind
  case case16 => -- primary, no tokens
    intro he
    exact absurd he not_ended_nil
  case case17 => -- primary, a number
    intro token rest hk he _
    have hrest := he.tail (by rw [show token.kind = .number from hk]; decide)
    rw [outcome_primary_number hk]
    cases hvalue : numberOf token with
    | error fault => exact .inl ⟨token, List.mem_cons_self, hk, hvalue⟩
    | ok value =>
      exact .cons (fun depth => by rw [show token.kind = .number from hk]; rfl)
        (.stay _ hrest trivial)
  case case18 => -- primary, a name
    intro token rest hk he _
    have hrest := he.tail (by rw [show token.kind = .identifier from hk]; decide)
    rw [outcome_primary_name hk]
    exact .cons (fun depth => by rw [show token.kind = .identifier from hk]; rfl)
      (.stay _ hrest trivial)
  case case19 => -- primary, parentheses
    intro token rest hk ihInner he _
    have hrest := he.tail (by rw [show token.kind = .leftParen from hk]; decide)
    rw [outcome_primary_parentheses hk]
    refine .cons (m := fun depth => .operand (depth + 1))
      (fun depth => by rw [show token.kind = .leftParen from hk]; rfl) ?_
    refine ((ihInner hrest).deeper).bind (g := fun inner =>
      outcome (closed inner.1 inner.2)) ?_
    intro node behind _ hbehind hstops
    exact closed_agrees node hbehind hstops
  case case20 => -- primary, anything else
    intro token rest hnumber hname hparen _ hop
    have hstart := startsPrimary_eq_false hnumber hname hparen
    rw [outcome_primary_fail (token :: rest) hstart]
    exact .inr fun depth => run_reject (move_not_operand hop hstart depth) rest

/-! ## Statements -/

/-- The verdict that an answer amounts to. -/
def verdict : Except ParseFault Assignment → Verdict
  | .ok _ => .accepted
  | .error fault => rejection fault

/-- Before the first end the automaton decides as the statement is read, unless a
number denotes no value. -/
theorem run_start_or {tokens : List Token} (he : Ended tokens) :
    (∃ fault, statement tokens = .error fault ∧ IsNumberFault tokens fault) ∨
      run .start tokens = some (verdict (statement tokens)) := by
  obtain ⟨target, afterName, rfl⟩ := he.exists_cons
  by_cases hname : target.kind = .identifier
  · have hafter := he.tail (by rw [hname]; decide)
    obtain ⟨operator, afterOperator, rfl⟩ := hafter.exists_cons
    have hstart : move .start target.kind = .go .afterName := if_pos hname
    rw [run_go hstart]
    cases hop : assignOp? operator.kind with
    | none =>
      have hnext : assignOp? (nextKind (operator :: afterOperator)) = none := hop
      rw [run_reject (move_not_assignment hop), statement_not_assignment hname hnext]
      exact .inr rfl
    | some op =>
      have hbody := readers_agree.1 afterOperator
        (hafter.tail (assignOp?_eq_some_iff.mp hop).ne_endOfLine)
      rw [run_go (move_assignment hop), statement_body hname hop]
      cases hread : outcome (additive afterOperator) with
      | error fault =>
        rw [hread] at hbody
        refine hbody.imp (fun hnumber => ⟨fault, rfl, hnumber.mono ?_⟩) fun hstop => hstop 0
        exact fun token ht => List.mem_cons_of_mem _ (List.mem_cons_of_mem _ ht)
      | ok result =>
        -- The expression has left tokens, and the first of them has to end the line.
        obtain ⟨node, behind⟩ := result
        rw [hread] at hbody
        obtain ⟨hbehind, -, hstops, hrun⟩ := hbody
        obtain ⟨stop, beyond, rfl⟩ := hbehind.exists_cons
        rw [hrun 0, bind_ok]
        by_cases hstop : stop.kind = .endOfLine
        · rw [if_pos (show nextKind (stop :: beyond) = .endOfLine from hstop)]
          exact .inr (run_accept (by rw [hstop]; rfl) beyond)
        · rw [if_neg (show nextKind (stop :: beyond) ≠ .endOfLine from hstop)]
          exact .inr (run_reject (move_outside hstops.isBinary_eq_false hstop) beyond)
  · have hstart : move .start target.kind = .reject .expectedName := if_neg hname
    have hnext : nextKind (target :: afterName) ≠ .identifier := hname
    rw [run_reject hstart, statement_not_name hnext]
    exact .inr rfl

/-- The end of the line is ahead, and the numbers among the tokens denote values. -/
structure Readable (tokens : List Token) : Prop where
  ended : Ended tokens
  numbers : ∀ token ∈ tokens, token.kind = .number → ∃ value, numberOf token = .ok value

theorem run_start {tokens : List Token} (hr : Readable tokens) :
    run .start tokens = some (verdict (statement tokens)) := by
  refine (run_start_or hr.ended).resolve_left ?_
  rintro ⟨fault, -, token, hmem, hk, hfault⟩
  obtain ⟨value, hvalue⟩ := hr.numbers token hmem hk
  cases hvalue.symm.trans hfault

/-- The tokens are accepted as a statement, or rejected with a code at a token,
exactly as the automaton decides in one pass over them that goes no further than
the first end of the line. -/
theorem run_start_eq_verdict {tokens : List Token}
    (hend : ∃ token ∈ tokens, token.kind = .endOfLine)
    (hnumbers : ∀ token ∈ tokens, token.kind = .number → ∃ value, numberOf token = .ok value) :
    run .start tokens = some (verdict (statement tokens)) ∧
      ∀ front stop behind, tokens = front ++ stop :: behind → stop.kind = .endOfLine →
        run .start tokens = run .start (front ++ [stop]) := by
  refine ⟨run_start ⟨hend, hnumbers⟩, ?_⟩
  rintro front stop behind rfl hstop
  exact run_endOfLine hstop .start front behind

/-- The tokens of `x = -(a++ ^ 2 b`: the automaton stops at `b`, where a closing
parenthesis is missing. -/
theorem run_start_eq_verdict_unclosed :
    let tokens : List Token :=
      [⟨.identifier, "x", 0⟩, ⟨.equal, "=", 2⟩, ⟨.minus, "-", 4⟩, ⟨.leftParen, "(", 5⟩,
        ⟨.identifier, "a", 6⟩, ⟨.plusPlus, "++", 7⟩, ⟨.caret, "^", 10⟩, ⟨.number, "2", 12⟩,
        ⟨.identifier, "b", 14⟩, ⟨.endOfLine, "", 15⟩]
    (∃ token ∈ tokens, token.kind = .endOfLine) ∧
      (∀ token ∈ tokens, token.kind = .number → ∃ value, numberOf token = .ok value) ∧
      run .start tokens = some (verdict (statement tokens)) ∧
      verdict (statement tokens) = .rejected .expectedClosing 14 := by
  intro tokens
  have hend : ∃ token ∈ tokens, token.kind = .endOfLine := by decide
  have hnumbers : ∀ token ∈ tokens, token.kind = .number →
      ∃ value, numberOf token = .ok value := by
    intro token ht hk
    obtain rfl : token = ⟨.number, "2", 12⟩ := by
      revert token
      decide
    exact ⟨.int 2, by decide +kernel⟩
  have hmain := (run_start_eq_verdict hend hnumbers).1
  have hrun : run .start tokens = some (.rejected .expectedClosing 14) := by decide
  exact ⟨hend, hnumbers, hmain, Option.some.inj (hmain.symm.trans hrun)⟩

end Reckoner.Grammar
