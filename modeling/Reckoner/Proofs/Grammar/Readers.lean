import Reckoner.Grammar

/-! What each reader answers, as equations between the readers. An `outcome`
forgets the bound on the rest, which is there for termination only; later
proofs rewrite with these equations and never open a reader. -/
namespace Reckoner.Grammar

/-- The tree and the tokens after it, or the fault. -/
def outcome {n : Nat} (answer : Except ParseFault (Parsed n)) :
    Except ParseFault (Node × List Token) :=
  answer.map fun parsed => (parsed.node, parsed.rest)

@[simp] theorem outcome_ok {n : Nat} (parsed : Parsed n) :
    outcome (.ok parsed) = .ok (parsed.node, parsed.rest) := rfl

@[simp] theorem outcome_error {n : Nat} (fault : ParseFault) :
    outcome (.error fault : Except ParseFault (Parsed n)) = .error fault := rfl

/-- A tree comes with fewer tokens than the reader was given. -/
theorem outcome_eq_ok {n : Nat} {answer : Except ParseFault (Parsed n)} {node : Node}
    {rest : List Token} (h : outcome answer = .ok (node, rest)) : rest.length < n := by
  cases answer with
  | error fault => cases h
  | ok parsed =>
    cases h
    exact parsed.shorter

@[simp] theorem bind_ok {α β : Type} (a : α) (f : α → Except ParseFault β) :
    ((.ok a : Except ParseFault α) >>= f) = f a := rfl

@[simp] theorem bind_error {α β : Type} (fault : ParseFault) (f : α → Except ParseFault β) :
    ((.error fault : Except ParseFault α) >>= f) = .error fault := rfl

theorem bind_eq_ok {α β : Type} {x : Except ParseFault α} {f : α → Except ParseFault β}
    {b : β} (h : (x >>= f) = .ok b) : ∃ a, x = .ok a ∧ f a = .ok b := by
  cases x with
  | error fault => cases h
  | ok a => exact ⟨a, rfl, h⟩

/-! ## Sums and products -/

theorem outcome_additive (tokens : List Token) :
    outcome (additive tokens) =
      outcome (multiplicative tokens) >>= fun first =>
        outcome (additiveTail first.1 first.2) := by
  rw [additive]
  cases multiplicative tokens with
  | error fault => rfl
  | ok first =>
    simp only [bind_ok, outcome_ok]
    cases additiveTail first.node first.rest <;> rfl

theorem outcome_additiveTail_stop (left : Node) (tokens : List Token)
    (h : additiveOp? (nextKind tokens) = none) :
    outcome (additiveTail left tokens) = .ok (left, tokens) := by
  cases tokens with
  | nil => rw [additiveTail]; rfl
  | cons token rest =>
    rw [additiveTail]
    split
    · rfl
    · next op hop => exact absurd (h.symm.trans hop) (by simp)

theorem outcome_additiveTail_cons (left : Node) {token : Token} {op : BinaryOp}
    (h : additiveOp? token.kind = some op) (rest : List Token) :
    outcome (additiveTail left (token :: rest)) =
      outcome (multiplicative rest) >>= fun right =>
        outcome (additiveTail (.binary token.position left op right.1) right.2) := by
  rw [additiveTail]
  split
  · next hop => exact absurd (hop.symm.trans h) (by simp)
  · next op' hop =>
    obtain rfl : op' = op := Option.some.inj (hop.symm.trans h)
    cases multiplicative rest with
    | error fault => rfl
    | ok right =>
      simp only [bind_ok, outcome_ok]
      cases additiveTail (.binary token.position left op' right.node) right.rest <;> rfl

theorem outcome_multiplicative (tokens : List Token) :
    outcome (multiplicative tokens) =
      outcome (unary tokens) >>= fun first =>
        outcome (multiplicativeTail first.1 first.2) := by
  rw [multiplicative]
  cases unary tokens with
  | error fault => rfl
  | ok first =>
    simp only [bind_ok, outcome_ok]
    cases multiplicativeTail first.node first.rest <;> rfl

theorem outcome_multiplicativeTail_stop (left : Node) (tokens : List Token)
    (h : multiplicativeOp? (nextKind tokens) = none) :
    outcome (multiplicativeTail left tokens) = .ok (left, tokens) := by
  cases tokens with
  | nil => rw [multiplicativeTail]; rfl
  | cons token rest =>
    rw [multiplicativeTail]
    split
    · rfl
    · next op hop => exact absurd (h.symm.trans hop) (by simp)

theorem outcome_multiplicativeTail_cons (left : Node) {token : Token} {op : BinaryOp}
    (h : multiplicativeOp? token.kind = some op) (rest : List Token) :
    outcome (multiplicativeTail left (token :: rest)) =
      outcome (unary rest) >>= fun right =>
        outcome (multiplicativeTail (.binary token.position left op right.1) right.2) := by
  rw [multiplicativeTail]
  split
  · next hop => exact absurd (hop.symm.trans h) (by simp)
  · next op' hop =>
    obtain rfl : op' = op := Option.some.inj (hop.symm.trans h)
    cases unary rest with
    | error fault => rfl
    | ok right =>
      simp only [bind_ok, outcome_ok]
      cases multiplicativeTail (.binary token.position left op' right.node) right.rest <;> rfl

/-! ## Operands -/

theorem outcome_unary_prefixed {token : Token} {op : UnaryOp}
    (h : unaryOp? token.kind = some op) (rest : List Token) :
    outcome (unary (token :: rest)) =
      outcome (unary rest) >>= fun operand =>
        .ok (.unary token.position op operand.1, operand.2) := by
  rw [unary]
  split
  · next op' hop =>
    obtain rfl : op' = op := Option.some.inj (hop.symm.trans h)
    cases unary rest <;> rfl
  · next hop => exact absurd (hop.symm.trans h) (by simp)

theorem outcome_unary_base (tokens : List Token)
    (h : unaryOp? (nextKind tokens) = none) :
    outcome (unary tokens) =
      outcome (stepped tokens) >>= fun base => outcome (powerTail base.1 base.2) := by
  cases tokens with
  | nil => rw [unary, stepped, primary]; rfl
  | cons token rest =>
    rw [unary]
    split
    · next op hop => exact absurd (h.symm.trans hop) (by simp)
    · cases stepped (token :: rest) with
      | error fault => rfl
      | ok base =>
        simp only [bind_ok, outcome_ok]
        cases powerTail base.node base.rest <;> rfl

theorem outcome_powerTail_stop (base : Node) (tokens : List Token)
    (h : nextKind tokens ≠ .caret) :
    outcome (powerTail base tokens) = .ok (base, tokens) := by
  cases tokens with
  | nil => rw [powerTail]; rfl
  | cons token rest =>
    rw [powerTail, if_neg (show token.kind ≠ .caret from h)]
    rfl

theorem outcome_powerTail_cons (base : Node) {token : Token}
    (h : token.kind = .caret) (rest : List Token) :
    outcome (powerTail base (token :: rest)) =
      outcome (unary rest) >>= fun exponent =>
        .ok (.binary token.position base .power exponent.1, exponent.2) := by
  rw [powerTail, if_pos h]
  cases unary rest <;> rfl

theorem outcome_stepped (tokens : List Token) :
    outcome (stepped tokens) =
      outcome (primary tokens) >>= fun operand =>
        outcome (.ok (stepTail operand.1 operand.2)) := by
  rw [stepped]
  cases primary tokens <;> rfl

theorem stepTail_stop (operand : Node) (tokens : List Token)
    (h : step? (nextKind tokens) = none) :
    outcome (.ok (stepTail operand tokens)) = .ok (operand, tokens) := by
  cases tokens with
  | nil => rfl
  | cons token rest =>
    rw [stepTail]
    split
    · rfl
    · next step hstep => exact absurd (h.symm.trans hstep) (by simp)

theorem stepTail_cons (operand : Node) {token : Token} {step : Step}
    (h : step? token.kind = some step) (rest : List Token) :
    outcome (.ok (stepTail operand (token :: rest))) =
      .ok (.stepAfter token.position step operand, rest) := by
  rw [stepTail]
  split
  · next hstep => exact absurd (hstep.symm.trans h) (by simp)
  · next step' hstep =>
    obtain rfl : step' = step := Option.some.inj (hstep.symm.trans h)
    rfl

/-! ## Primaries -/

theorem outcome_primary_number {token : Token} (h : token.kind = .number)
    (rest : List Token) :
    outcome (primary (token :: rest)) =
      numberOf token >>= fun value => .ok (.literal token.position value, rest) := by
  rw [primary]
  split
  · cases numberOf token <;> rfl
  all_goals simp_all

theorem outcome_primary_name {token : Token} (h : token.kind = .identifier)
    (rest : List Token) :
    outcome (primary (token :: rest)) =
      .ok (.reference token.position token.lexeme, rest) := by
  rw [primary]
  split
  · simp_all
  · rfl
  all_goals simp_all

theorem outcome_primary_parentheses {token : Token} (h : token.kind = .leftParen)
    (rest : List Token) :
    outcome (primary (token :: rest)) =
      outcome (additive rest) >>= fun inner => outcome (closed inner.1 inner.2) := by
  rw [primary]
  split
  · simp_all
  · simp_all
  · cases additive rest with
    | error fault => rfl
    | ok inner =>
      simp only [bind_ok, outcome_ok]
      cases closed inner.node inner.rest <;> rfl
  · simp_all

/-- The kinds of token that start a primary. -/
def startsPrimary (kind : Token.Kind) : Bool :=
  kind = .number || kind = .identifier || kind = .leftParen

theorem startsPrimary_eq_false {kind : Token.Kind} (hnumber : kind ≠ .number)
    (hname : kind ≠ .identifier) (hparen : kind ≠ .leftParen) : startsPrimary kind = false := by
  simp [startsPrimary, hnumber, hname, hparen]

theorem outcome_primary_fail (tokens : List Token)
    (h : startsPrimary (nextKind tokens) = false) :
    outcome (primary tokens) = failAt .expression tokens := by
  cases tokens with
  | nil => rw [primary]; rfl
  | cons token rest =>
    rw [primary]
    simp only [startsPrimary, nextKind, Bool.or_eq_false_iff] at h
    split
    · simp_all
    · simp_all
    · simp_all
    · rfl

theorem closed_cons (inner : Node) {token : Token} (h : token.kind = .rightParen)
    (rest : List Token) : outcome (closed inner (token :: rest)) = .ok (inner, rest) := by
  rw [closed, if_pos h]
  rfl

theorem closed_fail (inner : Node) (tokens : List Token) (h : nextKind tokens ≠ .rightParen) :
    outcome (closed inner tokens) = failAt .closing tokens := by
  cases tokens with
  | nil => rfl
  | cons token rest =>
    rw [closed, if_neg (show token.kind ≠ .rightParen from h)]
    rfl

/-! ## Numbers -/

theorem numberOf_eq_ok_iff {token : Token} {value : Value} :
    numberOf token = .ok value ↔
      ∃ numeral, Numeral.read? token.lexeme.toList = some numeral ∧ numeral.value = value := by
  unfold numberOf
  cases Numeral.read? token.lexeme.toList <;> simp

/-- The fault is that of a number among the tokens that denotes no value. -/
def IsNumberFault (tokens : List Token) (fault : ParseFault) : Prop :=
  ∃ token ∈ tokens, token.kind = .number ∧ numberOf token = .error fault

theorem IsNumberFault.mono {tokens more : List Token} {fault : ParseFault}
    (h : IsNumberFault tokens fault) (hsub : tokens ⊆ more) : IsNumberFault more fault := by
  obtain ⟨token, hmem, hfault⟩ := h
  exact ⟨token, hsub hmem, hfault⟩

/-! ## Statements -/

theorem statement_not_name {tokens : List Token} (h : nextKind tokens ≠ .identifier) :
    statement tokens = failAt .name tokens := by
  cases tokens with
  | nil => rfl
  | cons target rest => cases rest <;> exact if_neg h

theorem statement_not_assignment {target : Token} (ht : target.kind = .identifier)
    {rest : List Token} (h : assignOp? (nextKind rest) = none) :
    statement (target :: rest) = failAt .assignment rest := by
  cases rest with
  | nil => rw [statement, if_pos ht]
  | cons operator rest =>
    rw [statement, if_pos ht]
    split
    · rfl
    · next op hop => exact absurd (h.symm.trans hop) (by simp)

theorem statement_body {target operator : Token} {op : AssignOp}
    (ht : target.kind = .identifier) (ho : assignOp? operator.kind = some op)
    (rest : List Token) :
    statement (target :: operator :: rest) =
      outcome (additive rest) >>= fun body =>
        if nextKind body.2 = .endOfLine then
          .ok ⟨target.position, target.lexeme, op, body.1⟩
        else failAt .endOfLine body.2 := by
  rw [statement, if_pos ht]
  split
  · next hop => exact absurd (hop.symm.trans ho) (by simp)
  · next op' hop =>
    obtain rfl : op' = op := Option.some.inj (hop.symm.trans ho)
    rw [expression]
    cases additive rest <;> rfl

/-- A statement is a name, an assignment and an expression that ends the line. -/
theorem statement_eq_ok {tokens : List Token} {a : Assignment} (h : statement tokens = .ok a) :
    ∃ target operator rest op node behind, tokens = target :: operator :: rest ∧
      target.kind = .identifier ∧ assignOp? operator.kind = some op ∧
      outcome (additive rest) = .ok (node, behind) ∧ nextKind behind = .endOfLine ∧
      a = ⟨target.position, target.lexeme, op, node⟩ := by
  by_cases hname : nextKind tokens = .identifier
  · cases tokens with
    | nil => cases hname
    | cons target rest =>
      cases hop : assignOp? (nextKind rest) with
      | none =>
        rw [statement_not_assignment hname hop] at h
        cases h
      | some op =>
        cases rest with
        | nil => cases hop
        | cons operator rest =>
          rw [statement_body hname hop] at h
          obtain ⟨⟨node, behind⟩, hbody, h⟩ := bind_eq_ok h
          split at h
          · next hnext =>
            cases h
            exact ⟨target, operator, rest, op, node, behind, rfl, hname, hop, hbody, hnext, rfl⟩
          · cases h
  · rw [statement_not_name hname] at h
    cases h

end Reckoner.Grammar
