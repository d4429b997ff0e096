import Reckoner.Proofs.Checked.Cursor

/-! The cursor goes along with the readers of the grammar. Where a reader is
given the tokens from the cursor on, and the end of the line is among them, the
reading by cursor has a result: the same tree, with the cursor at the tokens that
the reader leaves, or the same fault diagnosed. The depth it takes is linear in
the number of tokens ahead. -/
namespace Reckoner.Checked.Cursor

open Grammar (outcome outcome_eq_ok)

/-- The tokens from the cursor on, with the end of the line among them. -/
structure At (tokens : List Token) (cursor : Nat) (rest : List Token) : Prop where
  drop_eq : tokens.drop cursor = rest
  ahead : ∃ token ∈ rest, token.kind = .endOfLine

/-- What a reading ends in is the answer of a reader. -/
def Follows (tokens : List Token) (result : Option (Except Diagnostic (Node × Nat))) :
    Except ParseFault (Node × List Token) → Prop
  | .error fault => result = some (.error fault.diagnostic)
  | .ok (node, rest) => ∃ after, result = some (.ok (node, after)) ∧ At tokens after rest

/-! ## One token -/

theorem bind_apply {α β : Type} (x : Reading α) (f : α → Reading β) (cursor : Nat) :
    (x >>= f) cursor =
      match x cursor with
      | none => none
      | some (.error diagnostic) => some (.error diagnostic)
      | some (.ok (a, after)) => f a after := by
  show (x cursor).bind _ = _
  rcases x cursor with _ | _ | ⟨_, _⟩ <;> rfl

variable {tokens rest : List Token} {token : Token} {cursor depth : Nat}

theorem At.exists_cons (h : At tokens cursor rest) : ∃ token behind, rest = token :: behind := by
  obtain ⟨stop, hstop, -⟩ := h.ahead
  cases rest with
  | nil => cases hstop
  | cons token behind => exact ⟨token, behind, rfl⟩

/-- Past a token that does not end the line the end is still ahead. -/
theorem At.next (h : At tokens cursor (token :: rest)) (hk : token.kind ≠ .endOfLine) :
    At tokens (cursor + 1) rest where
  drop_eq := by
    rw [← List.drop_drop, h.drop_eq]
    rfl
  ahead := by
    obtain ⟨stop, hmem, hstop⟩ := h.ahead
    rcases List.mem_cons.mp hmem with rfl | hmem
    · exact absurd hstop hk
    · exact ⟨stop, hmem, hstop⟩

theorem peek_apply (h : At tokens cursor (token :: rest)) :
    peek tokens cursor = some (.ok (token, cursor)) := by
  have htoken : tokenAt? tokens cursor = some token := by
    rw [tokenAt?, ← List.head?_drop, h.drop_eq]
    rfl
  show (liftM (tokenAt? tokens cursor) : Reading Token) cursor = _
  rw [htoken]
  rfl

theorem advance_apply (h : At tokens cursor (token :: rest)) (hk : token.kind ≠ .endOfLine) :
    advance tokens cursor = some (.ok (token, cursor + 1)) := by
  rw [advance, bind_apply, peek_apply h]
  show some (Except.ok (token, if token.kind = .endOfLine then cursor else cursor + 1)) = _
  rw [if_neg hk]

/-- Looking at the next token and going on. -/
theorem peek_bind {α : Type} (h : At tokens cursor (token :: rest)) (f : Token → Reading α) :
    (peek tokens >>= f) cursor = f token cursor := by
  rw [bind_apply, peek_apply h]

/-- Going past the next token and on. -/
theorem advance_bind {α : Type} (h : At tokens cursor (token :: rest))
    (hk : token.kind ≠ .endOfLine) (f : Token → Reading α) :
    (advance tokens >>= f) cursor = f token (cursor + 1) := by
  rw [bind_apply, advance_apply h hk]

theorem expect_bind {α : Type} (h : At tokens cursor (token :: rest)) {kind : Token.Kind}
    (code : Code) (hk : token.kind = kind) (hkind : kind ≠ .endOfLine)
    (f : Token → Reading α) :
    (expect tokens kind code >>= f) cursor = f token (cursor + 1) := by
  rw [bind_apply, expect, peek_bind h, if_pos hk, advance_apply h (hk ▸ hkind)]

theorem expect_bind_fail {α : Type} (h : At tokens cursor (token :: rest)) {kind : Token.Kind}
    (code : Code) (hk : token.kind ≠ kind) (f : Token → Reading α) :
    (expect tokens kind code >>= f) cursor = (raise code token : Reading α) cursor := by
  rw [bind_apply, expect, peek_bind h, if_neg hk]
  rfl

/-- The end of the line is not gone past. -/
theorem expect_bind_end {α : Type} (h : At tokens cursor (token :: rest)) (code : Code)
    (hk : token.kind = .endOfLine) (f : Token → Reading α) :
    (expect tokens .endOfLine code >>= f) cursor = f token cursor := by
  rw [bind_apply, expect, peek_bind h, if_pos hk, advance, peek_bind h, bind_apply]
  show f token (if token.kind = .endOfLine then cursor else cursor + 1) = _
  rw [if_pos hk]

/-! ## Answers in sequence -/

/-- Where a reading follows a reader and its continuation the reader's one, the
whole follows the whole. -/
theorem Follows.bind {x : Reading Node} {f : Node → Reading Node}
    {answer : Except ParseFault (Node × List Token)}
    {g : Node × List Token → Except ParseFault (Node × List Token)}
    (hx : Follows tokens (x cursor) answer)
    (hf : ∀ node behind after, answer = .ok (node, behind) → At tokens after behind →
      Follows tokens (f node after) (g (node, behind))) :
    Follows tokens ((x >>= f) cursor) (answer >>= g) := by
  rw [bind_apply]
  cases answer with
  | error fault =>
    rw [show x cursor = _ from hx]
    rfl
  | ok result =>
    obtain ⟨node, behind⟩ := result
    obtain ⟨after, hrun, hat⟩ := hx
    rw [hrun]
    exact hf node behind after rfl hat

theorem Follows.of_eq {result : Option (Except Diagnostic (Node × Nat))} {node : Node}
    (h : At tokens cursor rest) (hresult : result = some (.ok (node, cursor))) :
    Follows tokens result (.ok (node, rest)) :=
  ⟨cursor, hresult, h⟩

/-! ## What each reading does at the next token -/

theorem additiveLoop_stop (h : At tokens cursor (token :: rest))
    (hop : Grammar.additiveOp? token.kind = none) (left : Node) :
    additiveLoop tokens (depth + 1) left cursor = some (.ok (left, cursor)) := by
  rw [additiveLoop, peek_bind h, if_neg]
  · rfl
  · rintro (hk | hk) <;> simp [hk, Grammar.additiveOp?] at hop

theorem additiveLoop_cons {op : BinaryOp} (h : At tokens cursor (token :: rest))
    (hop : Grammar.additiveOp? token.kind = some op) (left : Node) :
    additiveLoop tokens (depth + 1) left cursor =
      (multiplicative tokens depth >>= fun right =>
        additiveLoop tokens depth (.binary token.position left op right)) (cursor + 1) := by
  have hjoins := Grammar.additiveOp?_eq_some_iff.mp hop
  rw [additiveLoop, peek_bind h, if_pos, advance_bind h hjoins.ne_endOfLine]
  · generalize token.kind = kind at hjoins
    cases hjoins <;> rfl
  · generalize token.kind = kind at hjoins
    cases hjoins <;> simp

theorem productOp_bind {α : Type} {op : BinaryOp}
    (hop : Grammar.multiplicativeOp? token.kind = some op) (f : BinaryOp → Reading α) :
    (productOp token >>= f) = f op := by
  unfold productOp
  generalize token.kind = kind at hop
  cases kind <;> cases hop <;> rfl

theorem multiplicativeLoop_stop (h : At tokens cursor (token :: rest))
    (hop : Grammar.multiplicativeOp? token.kind = none) (left : Node) :
    multiplicativeLoop tokens (depth + 1) left cursor = some (.ok (left, cursor)) := by
  rw [multiplicativeLoop, peek_bind h, if_neg]
  · rfl
  · rintro (hk | hk | hk) <;> simp [hk, Grammar.multiplicativeOp?] at hop

theorem multiplicativeLoop_cons {op : BinaryOp} (h : At tokens cursor (token :: rest))
    (hop : Grammar.multiplicativeOp? token.kind = some op) (left : Node) :
    multiplicativeLoop tokens (depth + 1) left cursor =
      (unary tokens depth >>= fun right =>
        multiplicativeLoop tokens depth (.binary token.position left op right)) (cursor + 1) := by
  have hjoins := Grammar.multiplicativeOp?_eq_some_iff.mp hop
  rw [multiplicativeLoop, peek_bind h, if_pos, advance_bind h hjoins.ne_endOfLine]
  · simp only [productOp_bind hop]
  · generalize token.kind = kind at hjoins
    cases hjoins <;> simp

theorem unary_prefixed {op : UnaryOp} (h : At tokens cursor (token :: rest))
    (hop : Grammar.unaryOp? token.kind = some op) :
    unary tokens (depth + 1) cursor =
      (unary tokens depth >>= fun operand => pure (.unary token.position op operand))
        (cursor + 1) := by
  have hk := (Grammar.unaryOp?_eq_some_iff.mp hop).ne_endOfLine
  rw [unary, peek_bind h, hop, Option.isSome_some, if_pos rfl, advance_bind h hk]
  rfl

theorem unary_base (h : At tokens cursor (token :: rest))
    (hop : Grammar.unaryOp? token.kind = none) :
    unary tokens (depth + 1) cursor = (stepped tokens depth >>= raised tokens depth) cursor := by
  rw [unary, peek_bind h, hop]
  rfl

theorem raised_stop (h : At tokens cursor (token :: rest)) (hk : token.kind ≠ .caret)
    (base : Node) : raised tokens (depth + 1) base cursor = some (.ok (base, cursor)) := by
  rw [raised, peek_bind h, if_neg hk]
  rfl

theorem raised_cons (h : At tokens cursor (token :: rest)) (hk : token.kind = .caret)
    (base : Node) :
    raised tokens (depth + 1) base cursor =
      (unary tokens depth >>= fun exponent => pure (.binary token.position base .power exponent))
        (cursor + 1) := by
  rw [raised, peek_bind h, if_pos hk, advance_bind h (by rw [hk]; decide)]

theorem stepBehind_stop (h : At tokens cursor (token :: rest))
    (hstep : Grammar.step? token.kind = none) (operand : Node) :
    stepBehind tokens operand cursor = some (.ok (operand, cursor)) := by
  rw [stepBehind, peek_bind h, hstep]
  rfl

theorem stepBehind_cons {step : Step} (h : At tokens cursor (token :: rest))
    (hstep : Grammar.step? token.kind = some step) (operand : Node) :
    stepBehind tokens operand cursor =
      some (.ok (.stepAfter token.position step operand, cursor + 1)) := by
  have hk := (Grammar.step?_eq_some_iff.mp hstep).ne_endOfLine
  rw [stepBehind, peek_bind h, hstep, Option.isSome_some, if_pos rfl, advance_bind h hk]
  rfl

theorem primary_number (h : At tokens cursor (token :: rest)) (hk : token.kind = .number) :
    primary tokens (depth + 1) cursor = number token (cursor + 1) := by
  rw [primary, peek_bind h, if_pos hk, advance_bind h (by rw [hk]; decide)]

theorem primary_name (h : At tokens cursor (token :: rest)) (hk : token.kind = .identifier) :
    primary tokens (depth + 1) cursor =
      some (.ok (.reference token.position token.lexeme, cursor + 1)) := by
  rw [primary, peek_bind h, if_neg (by rw [hk]; decide), if_pos hk,
    advance_bind h (by rw [hk]; decide)]
  rfl

theorem primary_parentheses (h : At tokens cursor (token :: rest))
    (hk : token.kind = .leftParen) :
    primary tokens (depth + 1) cursor = (additive tokens depth >>= closing tokens) (cursor + 1) := by
  rw [primary, peek_bind h, if_neg (by rw [hk]; decide), if_neg (by rw [hk]; decide),
    if_pos hk, advance_bind h (by rw [hk]; decide)]

theorem primary_fail (h : At tokens cursor (token :: rest))
    (hk : Grammar.startsPrimary token.kind = false) :
    primary tokens (depth + 1) cursor = (raise .expectedExpression token : Reading Node) cursor := by
  simp only [Grammar.startsPrimary, Bool.or_eq_false_iff, decide_eq_false_iff_not] at hk
  rw [primary, peek_bind h, if_neg hk.1.1, if_neg hk.1.2, if_neg hk.2]

/-! ## Numbers -/

/-- The conversion for the kind of number gives the value that is read. -/
theorem valueOf?_eq (text : List Char) :
    valueOf? text = (Numeral.read? text).map Numeral.value := by
  unfold valueOf? floatOf? integerOf?
  cases hread : Numeral.read? text with
  | none => split <;> rfl
  | some numeral =>
    have hfraction := Numeral.read?_fraction hread
    obtain ⟨negative, whole, _ | fraction, exponent⟩ := numeral
    · rw [if_neg (by simpa using hfraction)]
      rfl
    · rw [if_pos (by simpa using hfraction)]
      rfl

theorem number_follows (h : At tokens cursor rest) (token : Token) :
    Follows tokens (number token cursor)
      (Grammar.numberOf token >>= fun value => .ok (.literal token.position value, rest)) := by
  unfold number Grammar.numberOf
  rw [valueOf?_eq]
  cases Numeral.read? token.lexeme.toList with
  | none => rfl
  | some numeral => exact .of_eq h rfl

/-! ## The levels -/

theorem stepBehind_follows (h : At tokens cursor rest) (operand : Node) :
    Follows tokens (stepBehind tokens operand cursor)
      (outcome (.ok (Grammar.stepTail operand rest))) := by
  obtain ⟨token, behind, rfl⟩ := h.exists_cons
  cases hstep : Grammar.step? token.kind with
  | none =>
    rw [Grammar.stepTail_stop operand (token :: behind) hstep]
    exact .of_eq h (stepBehind_stop h hstep operand)
  | some step =>
    have hk := (Grammar.step?_eq_some_iff.mp hstep).ne_endOfLine
    rw [Grammar.stepTail_cons operand hstep]
    exact .of_eq (h.next hk) (stepBehind_cons h hstep operand)

theorem closing_follows (h : At tokens cursor rest) (inner : Node) :
    Follows tokens (closing tokens inner cursor) (outcome (Grammar.closed inner rest)) := by
  obtain ⟨token, behind, rfl⟩ := h.exists_cons
  unfold closing
  by_cases hk : token.kind = .rightParen
  · rw [Grammar.closed_cons inner hk, expect_bind h _ hk (by decide)]
    exact .of_eq (h.next (by rw [hk]; decide)) rfl
  · rw [Grammar.closed_fail inner (token :: behind) hk, expect_bind_fail h _ hk]
    rfl

/-- Every reading follows the reader of its level, if the calls may go as deep as the
tokens ahead can take them. -/
theorem readings_follow (tokens : List Token) :
    (∀ rest cursor depth, At tokens cursor rest → 6 * rest.length + 5 < depth →
      Follows tokens (additive tokens depth cursor) (outcome (Grammar.additive rest))) ∧
    (∀ left rest cursor depth, At tokens cursor rest → 6 * rest.length + 5 < depth →
      Follows tokens (additiveLoop tokens depth left cursor)
        (outcome (Grammar.additiveTail left rest))) ∧
    (∀ rest cursor depth, At tokens cursor rest → 6 * rest.length + 4 < depth →
      Follows tokens (multiplicative tokens depth cursor)
        (outcome (Grammar.multiplicative rest))) ∧
    (∀ left rest cursor depth, At tokens cursor rest → 6 * rest.length + 4 < depth →
      Follows tokens (multiplicativeLoop tokens depth left cursor)
        (outcome (Grammar.multiplicativeTail left rest))) ∧
    (∀ rest cursor depth, At tokens cursor rest → 6 * rest.length + 3 < depth →
      Follows tokens (unary tokens depth cursor) (outcome (Grammar.unary rest))) ∧
    (∀ base rest cursor depth, At tokens cursor rest → 6 * rest.length + 3 < depth →
      Follows tokens (raised tokens depth base cursor)
        (outcome (Grammar.powerTail base rest))) ∧
    (∀ rest cursor depth, At tokens cursor rest → 6 * rest.length + 2 < depth →
      Follows tokens (stepped tokens depth cursor) (outcome (Grammar.stepped rest))) ∧
    (∀ rest cursor depth, At tokens cursor rest → 6 * rest.length + 1 < depth →
      Follows tokens (primary tokens depth cursor) (outcome (Grammar.primary rest))) := by
  -- The end of the line is ahead, so the tokens have not run out.
  have hnil {cursor : Nat} (h : At tokens cursor []) : False := by
    obtain ⟨token, behind, hcons⟩ := h.exists_cons
    cases hcons
  -- A reading that may be called at all may go one call deeper.
  have hdeeper {n depth : Nat} (h : n < depth) : ∃ d, depth = d + 1 ∧ n ≤ d :=
    ⟨depth - 1, by omega, by omega⟩
  apply Grammar.additive.mutual_induct
  case case1 => -- additive
    intro rest ihFirst ihTail cursor depth h hdepth
    obtain ⟨depth, rfl, hdepth⟩ := hdeeper hdepth
    rw [additive, Grammar.outcome_additive]
    refine (ihFirst cursor depth h (by omega)).bind
      (g := fun first => outcome (Grammar.additiveTail first.1 first.2)) ?_
    intro node behind after hfirst hat
    have hshorter := outcome_eq_ok hfirst
    exact ihTail ⟨node, behind, hshorter⟩ after depth hat (by dsimp only; omega)
  case case2 => -- additiveTail, no tokens
    intro left cursor depth h
    exact (hnil h).elim
  case case3 => -- additiveTail, no operator
    intro left token rest hop cursor depth h hdepth
    obtain ⟨depth, rfl, -⟩ := hdeeper hdepth
    rw [Grammar.outcome_additiveTail_stop left (token :: rest) hop]
    exact .of_eq h (additiveLoop_stop h hop left)
  case case4 => -- additiveTail, an operator
    intro left token rest op hop ihRight ihTail cursor depth h hdepth
    obtain ⟨depth, rfl, hdepth⟩ := hdeeper hdepth
    rw [List.length_cons] at hdepth
    have hk := (Grammar.additiveOp?_eq_some_iff.mp hop).ne_endOfLine
    rw [additiveLoop_cons h hop, Grammar.outcome_additiveTail_cons left hop]
    refine (ihRight (cursor + 1) depth (h.next hk) (by omega)).bind (g := fun right =>
      outcome (Grammar.additiveTail (.binary token.position left op right.1) right.2)) ?_
    intro node behind after hright hat
    have hshorter := outcome_eq_ok hright
    exact ihTail ⟨node, behind, hshorter⟩ after depth hat (by dsimp only; omega)
  case case5 => -- multiplicative
    intro rest ihFirst ihTail cursor depth h hdepth
    obtain ⟨depth, rfl, hdepth⟩ := hdeeper hdepth
    rw [multiplicative, Grammar.outcome_multiplicative]
    refine (ihFirst cursor depth h (by omega)).bind
      (g := fun first => outcome (Grammar.multiplicativeTail first.1 first.2)) ?_
    intro node behind after hfirst hat
    have hshorter := outcome_eq_ok hfirst
    exact ihTail ⟨node, behind, hshorter⟩ after depth hat (by dsimp only; omega)
  case case6 => -- multiplicativeTail, no tokens
    intro left cursor depth h
    exact (hnil h).elim
  case case7 => -- multiplicativeTail, no operator
    intro left token rest hop cursor depth h hdepth
    obtain ⟨depth, rfl, -⟩ := hdeeper hdepth
    rw [Grammar.outcome_multiplicativeTail_stop left (token :: rest) hop]
    exact .of_eq h (multiplicativeLoop_stop h hop left)
  case case8 => -- multiplicativeTail, an operator
    intro left token rest op hop ihRight ihTail cursor depth h hdepth
    obtain ⟨depth, rfl, hdepth⟩ := hdeeper hdepth
    rw [List.length_cons] at hdepth
    have hk := (Grammar.multiplicativeOp?_eq_some_iff.mp hop).ne_endOfLine
    rw [multiplicativeLoop_cons h hop, Grammar.outcome_multiplicativeTail_cons left hop]
    refine (ihRight (cursor + 1) depth (h.next hk) (by omega)).bind (g := fun right =>
      outcome (Grammar.multiplicativeTail (.binary token.position left op right.1) right.2)) ?_
    intro node behind after hright hat
    have hshorter := outcome_eq_ok hright
    exact ihTail ⟨node, behind, hshorter⟩ after depth hat (by dsimp only; omega)
  case case9 => -- unary, no tokens
    intro cursor depth h
    exact (hnil h).elim
  case case10 => -- unary, a prefix
    intro token rest op hop ihOperand cursor depth h hdepth
    obtain ⟨depth, rfl, hdepth⟩ := hdeeper hdepth
    rw [List.length_cons] at hdepth
    have hk := (Grammar.unaryOp?_eq_some_iff.mp hop).ne_endOfLine
    rw [unary_prefixed h hop, Grammar.outcome_unary_prefixed hop]
    refine (ihOperand (cursor + 1) depth (h.next hk) (by omega)).bind
      (g := fun operand => .ok (.unary token.position op operand.1, operand.2)) ?_
    intro node behind after _ hat
    exact .of_eq hat rfl
  case case11 => -- unary, a base
    intro token rest hop ihBase ihTail cursor depth h hdepth
    obtain ⟨depth, rfl, hdepth⟩ := hdeeper hdepth
    rw [unary_base h hop, Grammar.outcome_unary_base (token :: rest) hop]
    refine (ihBase cursor depth h (by omega)).bind
      (g := fun base => outcome (Grammar.powerTail base.1 base.2)) ?_
    intro node behind after hbase hat
    have hshorter := outcome_eq_ok hbase
    exact ihTail ⟨node, behind, hshorter⟩ after depth hat (by dsimp only; omega)
  case case12 => -- powerTail, no tokens
    intro base cursor depth h
    exact (hnil h).elim
  case case13 => -- powerTail, an exponent
    intro base token rest hk ihExponent cursor depth h hdepth
    obtain ⟨depth, rfl, hdepth⟩ := hdeeper hdepth
    rw [List.length_cons] at hdepth
    have hat := h.next (by rw [hk]; decide)
    rw [raised_cons h hk, Grammar.outcome_powerTail_cons base hk]
    refine (ihExponent (cursor + 1) depth hat (by omega)).bind (g := fun exponent =>
      .ok (.binary token.position base .power exponent.1, exponent.2)) ?_
    intro node behind after _ hat
    exact .of_eq hat rfl
  case case14 => -- powerTail, no exponent
    intro base token rest hk cursor depth h hdepth
    obtain ⟨depth, rfl, -⟩ := hdeeper hdepth
    rw [Grammar.outcome_powerTail_stop base (token :: rest) hk]
    exact .of_eq h (raised_stop h hk base)
  case case15 => -- stepped
    intro rest ihOperand cursor depth h hdepth
    obtain ⟨depth, rfl, hdepth⟩ := hdeeper hdepth
    rw [stepped, Grammar.outcome_stepped]
    refine (ihOperand cursor depth h (by omega)).bind
      (g := fun operand => outcome (.ok (Grammar.stepTail operand.1 operand.2))) ?_
    intro node behind after _ hat
    exact stepBehind_follows hat node
  case case16 => -- primary, no tokens
    intro cursor depth h
    exact (hnil h).elim
  case case17 => -- primary, a number
    intro token rest hk cursor depth h hdepth
    obtain ⟨depth, rfl, -⟩ := hdeeper hdepth
    rw [primary_number h hk, Grammar.outcome_primary_number hk]
    exact number_follows (h.next (by rw [show token.kind = .number from hk]; decide)) token
  case case18 => -- primary, a name
    intro token rest hk cursor depth h hdepth
    obtain ⟨depth, rfl, -⟩ := hdeeper hdepth
    rw [Grammar.outcome_primary_name hk]
    have hat := h.next (by rw [show token.kind = .identifier from hk]; decide)
    exact .of_eq hat (primary_name h hk)
  case case19 => -- primary, parentheses
    intro token rest hk ihInner cursor depth h hdepth
    obtain ⟨depth, rfl, hdepth⟩ := hdeeper hdepth
    rw [List.length_cons] at hdepth
    have hat := h.next (by rw [show token.kind = .leftParen from hk]; decide)
    rw [primary_parentheses h hk, Grammar.outcome_primary_parentheses hk]
    refine (ihInner (cursor + 1) depth hat (by omega)).bind
      (g := fun inner => outcome (Grammar.closed inner.1 inner.2)) ?_
    intro node behind after _ hbehind
    exact closing_follows hbehind node
  case case20 => -- primary, anything else
    intro token rest hnumber hname hparen cursor depth h hdepth
    obtain ⟨depth, rfl, -⟩ := hdeeper hdepth
    have hstart := Grammar.startsPrimary_eq_false hnumber hname hparen
    rw [primary_fail h hstart, Grammar.outcome_primary_fail (token :: rest) hstart]
    rfl

/-! ## Statements -/

theorem At.start (h : Grammar.Terminated tokens) : At tokens 0 tokens where
  drop_eq := rfl
  ahead := by
    obtain ⟨front, stop, rfl, hstop, -⟩ := h
    exact ⟨stop, by simp, hstop⟩

/-- The statement of a line is read by cursor as ever. -/
theorem parse_eq (h : Grammar.Terminated tokens) :
    parse tokens =
      answer ParseFault.diagnostic ((Grammar.statement tokens).map Assignment.toNode) := by
  have hat := At.start h
  obtain ⟨target, afterName, rfl⟩ := hat.exists_cons
  unfold parse statement
  by_cases hname : target.kind = .identifier
  · have hafter := hat.next (by rw [hname]; decide)
    obtain ⟨operator, afterOperator, rfl⟩ := hafter.exists_cons
    rw [expect_bind hat _ hname (by decide), peek_bind hafter]
    cases hop : Grammar.assignOp? operator.kind with
    | none =>
      have hnext : Grammar.assignOp? (Grammar.nextKind (operator :: afterOperator)) = none := hop
      rw [Grammar.statement_not_assignment hname hnext]
      rfl
    | some op =>
      have hk := (Grammar.assignOp?_eq_some_iff.mp hop).ne_endOfLine
      have hbody := (readings_follow (target :: operator :: afterOperator)).1 afterOperator 2
        (6 * (target :: operator :: afterOperator).length) (hafter.next hk)
        (by simp only [List.length_cons]; omega)
      rw [Option.isSome_some, if_pos rfl, advance_bind hafter hk, bind_apply,
        Grammar.statement_body hname hop]
      cases hread : outcome (Grammar.additive afterOperator) with
      | error fault =>
        rw [hread] at hbody
        rw [show additive _ _ 2 = _ from hbody]
        rfl
      | ok result =>
        obtain ⟨node, behind⟩ := result
        rw [hread] at hbody
        -- The expression has left tokens, and the first of them has to end the line.
        obtain ⟨after, hrun, hbehind⟩ := hbody
        obtain ⟨stop, beyond, rfl⟩ := hbehind.exists_cons
        rw [hrun, Grammar.bind_ok]
        by_cases hstop : stop.kind = .endOfLine
        · have hend : Grammar.nextKind (node, stop :: beyond).2 = .endOfLine := hstop
          rw [if_pos hend]
          dsimp only
          rw [expect_bind_end hbehind _ hstop]
          rfl
        · have hmore : ¬ Grammar.nextKind (node, stop :: beyond).2 = .endOfLine := hstop
          rw [if_neg hmore]
          dsimp only
          rw [expect_bind_fail hbehind _ hstop]
          rfl
  · have hnext : Grammar.nextKind (target :: afterName) ≠ .identifier := hname
    rw [expect_bind_fail hat _ hname, Grammar.statement_not_name hnext]
    rfl

end Reckoner.Checked.Cursor
