import Reckoner.Proofs.Grammar.Derivation
import Reckoner.Proofs.Grammar.Readers

/-! The readers recognise the language of the derivations. What a reader takes
is a phrase of its level (`readers_take`), and a phrase is taken whole
wherever the token behind it could not be a part of it (`Derives.taken`).
Together they make the statement of a list of tokens the only one that the
tokens derive. A reader fails for a missing operand or parenthesis alone, and
never for a number, since the numbers of a line denote values. -/
namespace Reckoner.Grammar

/-! ## What is read is a phrase -/

/-- The relation obeys the rules of the grammar, level by level. A number stands for the
value that is read from it, however it is written. -/
structure Rules (phrase : Level → List Token → Node → Prop) : Prop where
  sum {left right l r operator op} (hl : phrase .additive left l)
    (ho : Joins .additive operator.kind op) (hr : phrase .multiplicative right r) :
    phrase .additive (left ++ operator :: right) (.binary operator.position l op r)
  multiplicative {tokens node} (h : phrase .multiplicative tokens node) :
    phrase .additive tokens node
  product {left right l r operator op} (hl : phrase .multiplicative left l)
    (ho : Joins .multiplicative operator.kind op) (hr : phrase .unary right r) :
    phrase .multiplicative (left ++ operator :: right) (.binary operator.position l op r)
  unary {tokens node} (h : phrase .unary tokens node) : phrase .multiplicative tokens node
  prefixed {operand node operator op} (ho : Prefixes operator.kind op)
    (h : phrase .unary operand node) :
    phrase .unary (operator :: operand) (.unary operator.position op node)
  power {base exponent b e operator} (hb : phrase .stepped base b)
    (ho : operator.kind = .caret) (he : phrase .unary exponent e) :
    phrase .unary (base ++ operator :: exponent) (.binary operator.position b .power e)
  stepped {tokens node} (h : phrase .stepped tokens node) : phrase .unary tokens node
  step {operand node operator step} (h : phrase .primary operand node)
    (ho : Steps operator.kind step) :
    phrase .stepped (operand ++ [operator]) (.stepAfter operator.position step node)
  primary {tokens node} (h : phrase .primary tokens node) : phrase .stepped tokens node
  number {token value} (hk : token.kind = .number) (hv : numberOf token = .ok value) :
    phrase .primary [token] (.literal token.position value)
  name {token} (hk : token.kind = .identifier) :
    phrase .primary [token] (.reference token.position token.lexeme)
  parentheses {opening closing inner node} (ho : opening.kind = .leftParen)
    (h : phrase .additive inner node) (hc : closing.kind = .rightParen) :
    phrase .primary (opening :: inner ++ [closing]) node

/-- What a reader answers: a tree for tokens from the front, which are related to
it, or a fault. Only a number among the tokens can be why a number is wanted. -/
def Answers (related : List Token → Node → Prop) (tokens : List Token) :
    Except ParseFault (Node × List Token) → Prop
  | .ok (node, rest) => ∃ used, tokens = used ++ rest ∧ related used node
  | .error fault => fault.expected = .number → IsNumberFault tokens fault

/-- An answer with a tree has extended the tokens before it, which `lower` relates to
`left`, to tokens that `level` relates to the tree. -/
def Extends (lower level : List Token → Node → Prop) (left : Node) (tokens : List Token)
    (answer : Except ParseFault (Node × List Token)) : Prop :=
  ∀ before, lower before left → Answers (fun used => level (before ++ used)) tokens answer

section Answering

variable {related whole lower level operand : List Token → Node → Prop}

theorem Answers.failAt {all : List Token} (tokens : List Token) {expected : Expectation}
    (h : expected ≠ .number) : Answers related all (Grammar.failAt expected tokens) :=
  fun hnumber => absurd hnumber h

/-- What follows an answer with a tree is an answer; a fault remains one. -/
theorem Answers.bind {tokens all : List Token} (hall : tokens ⊆ all)
    {first : Except ParseFault (Node × List Token)} (hf : Answers related tokens first)
    {next : Node × List Token → Except ParseFault (Node × List Token)}
    (h : ∀ used node rest, tokens = used ++ rest → first = .ok (node, rest) →
      related used node → Answers whole all (next (node, rest))) :
    Answers whole all (first >>= next) := by
  cases first with
  | error fault => exact fun hnumber => (hf hnumber).mono hall
  | ok result =>
    obtain ⟨node, rest⟩ := result
    obtain ⟨used, htokens, hused⟩ := hf
    exact h used node rest htokens rfl hused

theorem Answers.mono {tokens : List Token} {answer : Except ParseFault (Node × List Token)}
    (ha : Answers related tokens answer)
    (h : ∀ {used node}, related used node → whole used node) :
    Answers whole tokens answer := by
  cases answer with
  | error fault => exact ha
  | ok result =>
    obtain ⟨used, htokens, hused⟩ := ha
    exact ⟨used, htokens, h hused⟩

/-- An answer for the tokens behind some others is one for all of them. -/
theorem Answers.behind (used : List Token) {rest : List Token}
    {answer : Except ParseFault (Node × List Token)}
    (h : Answers (fun more => related (used ++ more)) rest answer) :
    Answers related (used ++ rest) answer := by
  cases answer with
  | error fault => exact fun hnumber => (h hnumber).mono (List.subset_append_right used rest)
  | ok result =>
    obtain ⟨more, rfl, hmore⟩ := h
    exact ⟨used ++ more, by simp, hmore⟩

/-- Tokens taken from the front and their extension behind them make one answer. -/
theorem Answers.extend {tokens : List Token}
    {first : Except ParseFault (Node × List Token)} (hf : Answers lower tokens first)
    (tail : Node → List Token → Except ParseFault (Node × List Token))
    (ht : ∀ node rest, first = .ok (node, rest) →
      Extends lower level node rest (tail node rest)) :
    Answers level tokens (first >>= fun f => tail f.1 f.2) := by
  refine hf.bind (List.Subset.refl tokens) fun used left rest htokens hfirst hleft => ?_
  rw [htokens]
  exact .behind used (ht left rest hfirst used hleft)

/-- An operator and the operand behind it extend what is before; the tail extends what
they make. -/
theorem Extends.operator {left : Node} {operator : Token} {op : BinaryOp} {rest : List Token}
    {right : Except ParseFault (Node × List Token)} (hr : Answers operand rest right)
    (hjoin : ∀ {before used r}, lower before left → operand used r →
      level (before ++ operator :: used) (.binary operator.position left op r))
    (tail : Node → List Token → Except ParseFault (Node × List Token))
    (ht : ∀ node behind, right = .ok (node, behind) →
      Extends level level (.binary operator.position left op node) behind
        (tail (.binary operator.position left op node) behind)) :
    Extends lower level left (operator :: rest)
      (right >>= fun r => tail (.binary operator.position left op r.1) r.2) := by
  intro before hbefore
  refine hr.bind (List.subset_cons_self operator rest)
    fun used second behind htokens hright hused => ?_
  have hextends := ht second behind hright _ (hjoin hbefore hused)
  rw [htokens, ← List.cons_append]
  exact .behind (operator :: used) (hextends.mono fun h => by simpa using h)

/-- Where nothing is taken, what is before stays as it is. -/
theorem Extends.stop (left : Node) (tokens : List Token)
    (h : ∀ {before node}, lower before node → level before node) :
    Extends lower level left tokens (.ok (left, tokens)) :=
  fun _ hbefore => ⟨[], rfl, by simpa using h hbefore⟩

end Answering

variable {phrase : Level → List Token → Node → Prop}

theorem Rules.stepTail_extends (rules : Rules phrase) (operand : Node) (tokens : List Token) :
    Extends (phrase .primary) (phrase .stepped) operand tokens
      (outcome (.ok (stepTail operand tokens))) := by
  cases hstep : step? (nextKind tokens) with
  | none =>
    rw [stepTail_stop operand tokens hstep]
    exact .stop operand tokens rules.primary
  | some step =>
    cases tokens with
    | nil => cases hstep
    | cons token rest =>
      rw [stepTail_cons operand hstep]
      intro before hbefore
      exact ⟨[token], rfl, rules.step hbefore (step?_eq_some_iff.mp hstep)⟩

/-- Whatever obeys the rules of the grammar holds of what the readers take. -/
theorem readers_take (rules : Rules phrase) :
    (∀ tokens, Answers (phrase .additive) tokens (outcome (additive tokens))) ∧
    (∀ left tokens, Extends (phrase .additive) (phrase .additive) left tokens
      (outcome (additiveTail left tokens))) ∧
    (∀ tokens, Answers (phrase .multiplicative) tokens (outcome (multiplicative tokens))) ∧
    (∀ left tokens, Extends (phrase .multiplicative) (phrase .multiplicative) left tokens
      (outcome (multiplicativeTail left tokens))) ∧
    (∀ tokens, Answers (phrase .unary) tokens (outcome (unary tokens))) ∧
    (∀ base tokens, Extends (phrase .stepped) (phrase .unary) base tokens
      (outcome (powerTail base tokens))) ∧
    (∀ tokens, Answers (phrase .stepped) tokens (outcome (stepped tokens))) ∧
    (∀ tokens, Answers (phrase .primary) tokens (outcome (primary tokens))) := by
  -- Induction along the calls; each case is one rule.
  apply additive.mutual_induct
  case case1 => -- additive
    intro tokens ihFirst ihTail
    rw [outcome_additive]
    refine Answers.extend (ihFirst.mono rules.multiplicative)
      (fun n r => outcome (additiveTail n r)) ?_
    intro node rest h
    exact ihTail ⟨node, rest, outcome_eq_ok h⟩
  case case2 => -- additiveTail, no tokens
    intro left
    rw [outcome_additiveTail_stop left [] rfl]
    exact .stop left [] id
  case case3 => -- additiveTail, no operator
    intro left token rest hop
    rw [outcome_additiveTail_stop left (token :: rest) hop]
    exact .stop left (token :: rest) id
  case case4 => -- additiveTail, an operator
    intro left token rest op hop ihRight ihTail
    rw [outcome_additiveTail_cons left hop]
    refine Extends.operator ihRight
      (fun hl hr => rules.sum hl (additiveOp?_eq_some_iff.mp hop) hr)
      (fun n r => outcome (additiveTail n r)) ?_
    intro node behind h
    exact ihTail ⟨node, behind, outcome_eq_ok h⟩
  case case5 => -- multiplicative
    intro tokens ihFirst ihTail
    rw [outcome_multiplicative]
    refine Answers.extend (ihFirst.mono rules.unary)
      (fun n r => outcome (multiplicativeTail n r)) ?_
    intro node rest h
    exact ihTail ⟨node, rest, outcome_eq_ok h⟩
  case case6 => -- multiplicativeTail, no tokens
    intro left
    rw [outcome_multiplicativeTail_stop left [] rfl]
    exact .stop left [] id
  case case7 => -- multiplicativeTail, no operator
    intro left token rest hop
    rw [outcome_multiplicativeTail_stop left (token :: rest) hop]
    exact .stop left (token :: rest) id
  case case8 => -- multiplicativeTail, an operator
    intro left token rest op hop ihRight ihTail
    rw [outcome_multiplicativeTail_cons left hop]
    refine Extends.operator ihRight
      (fun hl hr => rules.product hl (multiplicativeOp?_eq_some_iff.mp hop) hr)
      (fun n r => outcome (multiplicativeTail n r)) ?_
    intro node behind h
    exact ihTail ⟨node, behind, outcome_eq_ok h⟩
  case case9 => -- unary, no tokens
    rw [outcome_unary_base [] rfl, outcome_stepped, outcome_primary_fail [] rfl]
    exact .failAt [] (by decide)
  case case10 => -- unary, a prefix
    intro token rest op hop ihOperand
    rw [outcome_unary_prefixed hop]
    refine ihOperand.bind (List.subset_cons_self token rest)
      fun used node behind htokens _ hused => ?_
    exact ⟨token :: used, by rw [htokens]; rfl,
      rules.prefixed (unaryOp?_eq_some_iff.mp hop) hused⟩
  case case11 => -- unary, a base
    intro token rest hop ihBase ihTail
    rw [outcome_unary_base (token :: rest) hop]
    refine ihBase.extend (fun n r => outcome (powerTail n r)) ?_
    intro node behind h
    exact ihTail ⟨node, behind, outcome_eq_ok h⟩
  case case12 => -- powerTail, no tokens
    intro base
    rw [outcome_powerTail_stop base [] (by decide)]
    exact .stop base [] rules.stepped
  case case13 => -- powerTail, an exponent
    intro base token rest hop ihExponent
    rw [outcome_powerTail_cons base hop]
    exact Extends.operator ihExponent (fun hb he => rules.power hb hop he)
      (fun n r => .ok (n, r)) fun node behind _ => .stop _ behind id
  case case14 => -- powerTail, no exponent
    intro base token rest hop
    rw [outcome_powerTail_stop base (token :: rest) hop]
    exact .stop base (token :: rest) rules.stepped
  case case15 => -- stepped
    intro tokens ihOperand
    rw [outcome_stepped]
    exact ihOperand.extend (fun n r => outcome (.ok (stepTail n r)))
      fun node rest _ => rules.stepTail_extends node rest
  case case16 => -- primary, no tokens
    rw [outcome_primary_fail [] rfl]
    exact .failAt [] (by decide)
  case case17 => -- primary, a number
    intro token rest hk
    rw [outcome_primary_number hk]
    cases hvalue : numberOf token with
    | error fault => exact fun _ => ⟨token, List.mem_cons_self, hk, hvalue⟩
    | ok value => exact ⟨[token], rfl, rules.number hk hvalue⟩
  case case18 => -- primary, a name
    intro token rest hk
    rw [outcome_primary_name hk]
    exact ⟨[token], rfl, rules.name hk⟩
  case case19 => -- primary, parentheses
    intro token rest hk ihInner
    rw [outcome_primary_parentheses hk]
    refine ihInner.bind (List.subset_cons_self token rest)
      fun used inner behind htokens _ hused => ?_
    by_cases hclosing : nextKind behind = .rightParen
    · cases behind with
      | nil => cases hclosing
      | cons closing after =>
        rw [closed_cons inner hclosing]
        exact ⟨token :: used ++ [closing], by simp [htokens],
          rules.parentheses hk hused hclosing⟩
    · rw [closed_fail inner behind hclosing]
      exact .failAt behind (by decide)
  case case20 => -- primary, anything else
    intro token rest hnumber hname hparen
    rw [outcome_primary_fail (token :: rest) (startsPrimary_eq_false hnumber hname hparen)]
    exact .failAt (token :: rest) (by decide)

/-! ## What is read is derived -/

theorem NumbersWritten.suffix {used rest : List Token} (h : NumbersWritten (used ++ rest)) :
    NumbersWritten rest :=
  fun token ht => h token (List.mem_append_right used ht)

theorem NumbersWritten.front {used rest : List Token} (h : NumbersWritten (used ++ rest)) :
    NumbersWritten used :=
  fun token ht => h token (List.mem_append_left rest ht)

theorem NumbersWritten.tail {token : Token} {rest : List Token}
    (h : NumbersWritten (token :: rest)) : NumbersWritten rest :=
  fun t ht => h t (List.mem_cons_of_mem token ht)

theorem numberOf_denotes {token : Token} {value : Value}
    (h : Numeral.Denotes token.lexeme.toList value) : numberOf token = .ok value :=
  numberOf_eq_ok_iff.mpr h.read?

/-- Where the numbers are written, the derivations obey the rules. -/
theorem derives_rules :
    Rules fun level tokens node => NumbersWritten tokens → Derives level tokens node where
  sum hl ho hr hw := .sum (hl hw.front) ho (hr hw.suffix.tail)
  multiplicative h hw := .multiplicative (h hw)
  product hl ho hr hw := .product (hl hw.front) ho (hr hw.suffix.tail)
  unary h hw := .unary (h hw)
  prefixed ho h hw := .prefixed ho (h hw.tail)
  power hb ho he hw := .power (hb hw.front) ho (he hw.suffix.tail)
  stepped h hw := .stepped (h hw)
  step h ho hw := .step (h hw.front) ho
  primary h hw := .primary (h hw)
  number {token value} hk hv hw := by
    obtain ⟨written, hwritten⟩ := (hw token List.mem_cons_self hk).denotes
    obtain rfl : written = value := Except.ok.inj ((numberOf_denotes hwritten).symm.trans hv)
    exact .number hk hwritten
  name hk _ := .name hk
  parentheses ho h hc hw := .parentheses ho (h hw.front.tail) hc

/-! ## What is derived is read -/

/-- A phrase of the level is read whole from the front of any tokens, as long as
the next token could not go on in it. The reader of sums, or of products, has
then read its left part. -/
def Taken : Level → List Token → Node → Prop
  | .primary, used, node => ∀ rest, outcome (primary (used ++ rest)) = .ok (node, rest)
  | .stepped, used, node => ∀ rest, step? (nextKind rest) = none →
      outcome (stepped (used ++ rest)) = .ok (node, rest)
  | .unary, used, node => ∀ rest, step? (nextKind rest) = none → nextKind rest ≠ .caret →
      outcome (unary (used ++ rest)) = .ok (node, rest)
  | .multiplicative, used, node => ∀ rest, step? (nextKind rest) = none →
      nextKind rest ≠ .caret →
      outcome (multiplicative (used ++ rest)) = outcome (multiplicativeTail node rest)
  | .additive, used, node => ∀ rest, step? (nextKind rest) = none →
      nextKind rest ≠ .caret → multiplicativeOp? (nextKind rest) = none →
      outcome (additive (used ++ rest)) = outcome (additiveTail node rest)

theorem Joins.stops_operand {level : Level} {kind : Token.Kind} {op : BinaryOp}
    (h : Joins level kind op) : step? kind = none ∧ kind ≠ .caret := by
  cases h <;> decide

theorem Joins.stops_product {kind : Token.Kind} {op : BinaryOp} (h : Joins .additive kind op) :
    multiplicativeOp? kind = none := by
  cases h <;> rfl

theorem Derives.nextKind_append {level : Level} {tokens : List Token} {node : Node}
    (h : Derives level tokens node) (hl : level = .stepped ∨ level = .primary)
    (rest : List Token) : unaryOp? (nextKind (tokens ++ rest)) = none := by
  obtain ⟨head, tail, rfl, hhead⟩ := h.head_not_prefix hl
  exact hhead

/-- Every phrase is read whole. -/
theorem Derives.taken {level : Level} {tokens : List Token} {node : Node}
    (h : Derives level tokens node) : Taken level tokens node := by
  -- The operator of a node is what stops the reading of its left operand; what
  -- follows the phrase stops that of the right one.
  induction h with
  | @sum left right l r operator op _ ho _ ihl ihr =>
    intro rest hstep hcaret hmul
    obtain ⟨hop, hpow⟩ := ho.stops_operand
    rw [List.append_assoc, List.cons_append,
      ihl (operator :: (right ++ rest)) hop hpow ho.stops_product,
      outcome_additiveTail_cons l (additiveOp?_eq_some_iff.mpr ho), ihr rest hstep hcaret,
      outcome_multiplicativeTail_stop r rest hmul]
    rfl
  | @multiplicative tokens node _ ih =>
    intro rest hstep hcaret hmul
    rw [outcome_additive, ih rest hstep hcaret, outcome_multiplicativeTail_stop node rest hmul]
    rfl
  | @product left right l r operator op _ ho _ ihl ihr =>
    intro rest hstep hcaret
    obtain ⟨hop, hpow⟩ := ho.stops_operand
    rw [List.append_assoc, List.cons_append, ihl (operator :: (right ++ rest)) hop hpow,
      outcome_multiplicativeTail_cons l (multiplicativeOp?_eq_some_iff.mpr ho),
      ihr rest hstep hcaret]
    rfl
  | unary _ ih =>
    intro rest hstep hcaret
    rw [outcome_multiplicative, ih rest hstep hcaret]
    rfl
  | prefixed ho _ ih =>
    intro rest hstep hcaret
    rw [List.cons_append, outcome_unary_prefixed (unaryOp?_eq_some_iff.mpr ho),
      ih rest hstep hcaret]
    rfl
  | @power base exponent b e operator hb ho _ ihb ihe =>
    intro rest hstep hcaret
    have hop : step? operator.kind = none := by rw [ho]; rfl
    rw [List.append_assoc, List.cons_append,
      outcome_unary_base _ (hb.nextKind_append (.inl rfl) _),
      ihb (operator :: (exponent ++ rest)) hop, bind_ok, outcome_powerTail_cons b ho,
      ihe rest hstep hcaret]
    rfl
  | @stepped tokens node h ih =>
    intro rest hstep hcaret
    rw [outcome_unary_base _ (h.nextKind_append (.inl rfl) rest), ih rest hstep, bind_ok,
      outcome_powerTail_stop node rest hcaret]
  | @step operand node operator step _ ho ih =>
    intro rest _
    rw [List.append_assoc, outcome_stepped, ih, bind_ok]
    exact stepTail_cons node (step?_eq_some_iff.mpr ho) rest
  | @primary tokens node _ ih =>
    intro rest hstep
    rw [outcome_stepped, ih, bind_ok, stepTail_stop node rest hstep]
  | number hk hv =>
    intro rest
    rw [List.singleton_append, outcome_primary_number hk, numberOf_denotes hv]
    rfl
  | name hk =>
    intro rest
    exact outcome_primary_name hk rest
  | @parentheses opening closing inner node ho _ hc ih =>
    intro rest
    -- The closing parenthesis goes on at no level, so the sum within ends there.
    have hclosing : nextKind ([closing] ++ rest) = .rightParen := hc
    have hinner : outcome (additive (inner ++ ([closing] ++ rest))) =
        .ok (node, [closing] ++ rest) := by
      rw [ih _ (by rw [hclosing]; rfl) (by rw [hclosing]; decide) (by rw [hclosing]; rfl)]
      exact outcome_additiveTail_stop node _ (by rw [hclosing]; rfl)
    rw [List.append_assoc, List.cons_append, outcome_primary_parentheses ho, hinner]
    exact closed_cons node hc rest

/-! ## Statements -/

theorem Terminated.suffix {used rest : List Token} (h : Terminated (used ++ rest))
    (hu : ∀ token ∈ used, token.kind ≠ .endOfLine) : Terminated rest := by
  induction used with
  | nil => exact h
  | cons token used ih =>
    obtain ⟨front, stop, htokens, hstop, hfront⟩ := h
    cases front with
    | nil =>
      obtain ⟨rfl, -⟩ := List.cons.inj htokens
      exact absurd hstop (hu token List.mem_cons_self)
    | cons first front =>
      obtain ⟨rfl, hbehind⟩ := List.cons.inj htokens
      exact ih ⟨front, stop, hbehind, hstop, fun t ht => hfront t (by simp [ht])⟩
        fun t ht => hu t (by simp [ht])

/-- The end of the line comes last. -/
theorem Terminated.eq_end {tokens : List Token} (h : Terminated tokens)
    (hnext : nextKind tokens = .endOfLine) :
    ∃ stop, tokens = [stop] ∧ stop.kind = .endOfLine := by
  obtain ⟨front, stop, rfl, hstop, hfront⟩ := h
  cases front with
  | nil => exact ⟨stop, rfl, hstop⟩
  | cons first front => exact absurd hnext (hfront first List.mem_cons_self)

/-- The statement that is read is derived. -/
theorem sentence_of_statement {tokens : List Token} (hend : Terminated tokens)
    (hw : NumbersWritten tokens) {a : Assignment} (h : statement tokens = .ok a) :
    Sentence tokens a := by
  obtain ⟨target, operator, rest, op, node, behind, rfl, hname, hop, hread, hnext, rfl⟩ :=
    statement_eq_ok h
  have hsound := (readers_take derives_rules).1 rest
  rw [hread] at hsound
  obtain ⟨body, rfl, hderives⟩ := hsound
  have hbody := hderives hw.tail.tail.front
  have hassign := assignOp?_eq_some_iff.mp hop
  -- Only the end of the line may follow the expression, and it comes last.
  have hbehind : Terminated behind := by
    refine (show Terminated (target :: operator :: body ++ behind) from hend).suffix ?_
    intro token ht
    rcases List.mem_cons.mp ht with rfl | ht
    · rw [hname]
      decide
    · rcases List.mem_cons.mp ht with rfl | ht
      · exact hassign.ne_endOfLine
      · exact hbody.ne_endOfLine token ht
  obtain ⟨stop, rfl, hstop⟩ := hbehind.eq_end hnext
  exact .intro hname hassign hbody hstop

/-- The statement that is derived is read. -/
theorem Sentence.statement {tokens : List Token} {a : Assignment} (h : Sentence tokens a) :
    Grammar.statement tokens = .ok a := by
  obtain @⟨target, operator, body, stop, op, node, ht, ho, hb, hs⟩ := h
  have hnext : nextKind [stop] = .endOfLine := hs
  have hbody : outcome (additive (body ++ [stop])) = .ok (node, [stop]) := by
    rw [hb.taken [stop] (by rw [hnext]; rfl) (by rw [hnext]; decide) (by rw [hnext]; rfl)]
    exact outcome_additiveTail_stop node [stop] (by rw [hnext]; rfl)
  rw [List.cons_append, List.cons_append, statement_body ht (assignOp?_eq_some_iff.mpr ho),
    hbody, bind_ok, if_pos hnext]

theorem failAt_expected {α : Type} {expected : Expectation} {tokens : List Token}
    {fault : ParseFault} (h : (failAt expected tokens : Except ParseFault α) = .error fault) :
    fault.expected = expected := by
  cases h
  rfl

/-- Where the numbers are written, no statement fails for a number. -/
theorem statement_fault {tokens : List Token} (hw : NumbersWritten tokens) {fault : ParseFault}
    (h : statement tokens = .error fault) : fault.expected ≠ .number := by
  by_cases hname : nextKind tokens = .identifier
  · cases tokens with
    | nil => cases hname
    | cons target rest =>
      cases hop : assignOp? (nextKind rest) with
      | none =>
        rw [statement_not_assignment hname hop] at h
        rw [failAt_expected h]
        decide
      | some op =>
        cases rest with
        | nil => cases hop
        | cons operator rest =>
          rw [statement_body hname hop] at h
          have hsound := (readers_take derives_rules).1 rest
          cases hread : outcome (additive rest) with
          | error wanted =>
            rw [hread] at h hsound
            cases h
            intro hnumber
            obtain ⟨token, htoken, hk, hfault⟩ := hsound hnumber
            obtain ⟨value, hvalue⟩ := (hw.tail.tail token htoken hk).denotes
            cases (numberOf_denotes hvalue).symm.trans hfault
          | ok body =>
            rw [hread, bind_ok] at h
            split at h
            · cases h
            · rw [failAt_expected h]
              decide
  · rw [statement_not_name hname] at h
    rw [failAt_expected h]
    decide

/-- The tokens of a line make a statement exactly if the grammar derives it from
them. The accepted tokens are those of the language, each with a single tree. -/
theorem statement_eq_ok_iff_sentence {tokens : List Token} (hend : Terminated tokens)
    (hw : NumbersWritten tokens) :
    (∀ a, statement tokens = .ok a ↔ Sentence tokens a) ∧
      ((∃ a, statement tokens = .ok a) ↔ ∃! a, Sentence tokens a) := by
  have hiff (a : Assignment) : statement tokens = .ok a ↔ Sentence tokens a :=
    ⟨sentence_of_statement hend hw, Sentence.statement⟩
  refine ⟨hiff, ?_, ?_⟩
  · rintro ⟨a, ha⟩
    refine ⟨a, (hiff a).mp ha, fun b hb => ?_⟩
    exact Except.ok.inj ((hiff b).mpr hb |>.symm.trans ha)
  · rintro ⟨a, ha, -⟩
    exact ⟨a, (hiff a).mpr ha⟩

/-- The tokens of `x = -2 ^ (a++) - 1.5`. -/
def sampleTokens : List Token :=
  [⟨.identifier, "x", 0⟩, ⟨.equal, "=", 2⟩, ⟨.minus, "-", 4⟩, ⟨.number, "2", 5⟩,
    ⟨.caret, "^", 7⟩, ⟨.leftParen, "(", 9⟩, ⟨.identifier, "a", 10⟩, ⟨.plusPlus, "++", 11⟩,
    ⟨.rightParen, ")", 13⟩, ⟨.minus, "-", 15⟩, ⟨.number, "1.5", 17⟩, ⟨.endOfLine, "", 20⟩]

/-- The minus sign takes the power, and the difference takes both. -/
def sampleAssignment : Assignment :=
  ⟨0, "x", .plain,
    .binary 15
      (.unary 4 .minus
        (.binary 7 (.literal 5 (.int 2)) .power (.stepAfter 11 .increment (.reference 10 "a"))))
      .subtract (.literal 17 (.float (Decimal.toBinary64 ⟨15, -1⟩)))⟩

theorem sampleTokens_sentence :
    Terminated sampleTokens ∧ NumbersWritten sampleTokens ∧
      Sentence sampleTokens sampleAssignment ∧ ∃! a, Sentence sampleTokens a := by
  have hend : Terminated sampleTokens :=
    ⟨sampleTokens.dropLast, ⟨.endOfLine, "", 20⟩, rfl, rfl, by decide⟩
  have hdigit (c : Char) (hc : Character.isDigit c = true) : Numeral.IsDigits [c] :=
    ⟨List.cons_ne_nil c [], List.forall_mem_singleton.mpr hc⟩
  have hw : NumbersWritten sampleTokens := by
    intro token ht hk
    simp only [sampleTokens, List.mem_cons, List.not_mem_nil, or_false] at ht
    rcases ht with rfl | rfl | rfl | rfl | rfl | rfl | rfl | rfl | rfl | rfl | rfl | rfl <;>
      cases hk
    · exact .inl (hdigit '2' (by decide))
    · exact .inr ⟨['1'], ['5'], hdigit '1' (by decide), hdigit '5' (by decide), rfl⟩
  have haccepted : statement sampleTokens = .ok sampleAssignment := by
    decide +kernel
  have hmain := statement_eq_ok_iff_sentence hend hw
  exact ⟨hend, hw, (hmain.1 _).mp haccepted, hmain.2.mp ⟨_, haccepted⟩⟩

end Reckoner.Grammar
