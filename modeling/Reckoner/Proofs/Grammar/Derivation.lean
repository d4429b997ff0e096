import Reckoner.Grammar
import Reckoner.Proofs.Numeral

/-! The language of statements, as derivations. `Derives` says which tokens
form a phrase of which level, and which tree the phrase has; it speaks of
whole phrases and never of a reader, of what comes next or of a choice. The
repetitions of the two loosest levels are rules that recur on the left. -/
namespace Reckoner.Grammar

/-! ## Words -/

/-- The levels of an expression, loosest first. -/
inductive Level where
  | additive
  | multiplicative
  | unary
  | stepped
  | primary

/-- The operators that join phrases of a level from the left. -/
inductive Joins : Level → Token.Kind → BinaryOp → Prop
  | plus : Joins .additive .plus .add
  | minus : Joins .additive .minus .subtract
  | star : Joins .multiplicative .star .multiply
  | slash : Joins .multiplicative .slash .divide
  | percent : Joins .multiplicative .percent .modulo

/-- The operators before an operand. -/
inductive Prefixes : Token.Kind → UnaryOp → Prop
  | plusPlus : Prefixes .plusPlus (.step .increment)
  | minusMinus : Prefixes .minusMinus (.step .decrement)
  | plus : Prefixes .plus .plus
  | minus : Prefixes .minus .minus

/-- The steps behind an operand. -/
inductive Steps : Token.Kind → Step → Prop
  | plusPlus : Steps .plusPlus .increment
  | minusMinus : Steps .minusMinus .decrement

/-- The operators between a name and its expression. -/
inductive Assigns : Token.Kind → AssignOp → Prop
  | equal : Assigns .equal .plain
  | plusEqual : Assigns .plusEqual (.compound .add)
  | minusEqual : Assigns .minusEqual (.compound .subtract)
  | starEqual : Assigns .starEqual (.compound .multiply)
  | slashEqual : Assigns .slashEqual (.compound .divide)
  | percentEqual : Assigns .percentEqual (.compound .modulo)
  | caretEqual : Assigns .caretEqual (.compound .power)

theorem additiveOp?_eq_some_iff {kind : Token.Kind} {op : BinaryOp} :
    additiveOp? kind = some op ↔ Joins .additive kind op := by
  constructor
  · intro h
    cases kind <;> cases h <;> constructor
  · rintro (_ | _) <;> rfl

theorem multiplicativeOp?_eq_some_iff {kind : Token.Kind} {op : BinaryOp} :
    multiplicativeOp? kind = some op ↔ Joins .multiplicative kind op := by
  constructor
  · intro h
    cases kind <;> cases h <;> constructor
  · rintro (_ | _) <;> rfl

theorem unaryOp?_eq_some_iff {kind : Token.Kind} {op : UnaryOp} :
    unaryOp? kind = some op ↔ Prefixes kind op := by
  constructor
  · intro h
    cases kind <;> cases h <;> constructor
  · rintro (_ | _) <;> rfl

theorem step?_eq_some_iff {kind : Token.Kind} {step : Step} :
    step? kind = some step ↔ Steps kind step := by
  constructor
  · intro h
    cases kind <;> cases h <;> constructor
  · rintro (_ | _) <;> rfl

theorem assignOp?_eq_some_iff {kind : Token.Kind} {op : AssignOp} :
    assignOp? kind = some op ↔ Assigns kind op := by
  constructor
  · intro h
    cases kind <;> cases h <;> constructor
  · rintro (_ | _) <;> rfl

/-! ## Phrases -/

/-- The tokens are a phrase of the level, and the node is its tree. A node has
the place of its operator, and parentheses leave no trace. -/
inductive Derives : Level → List Token → Node → Prop
  | sum {left right l r operator op} (hl : Derives .additive left l)
      (ho : Joins .additive operator.kind op) (hr : Derives .multiplicative right r) :
      Derives .additive (left ++ operator :: right) (.binary operator.position l op r)
  | multiplicative {tokens node} (h : Derives .multiplicative tokens node) :
      Derives .additive tokens node
  | product {left right l r operator op} (hl : Derives .multiplicative left l)
      (ho : Joins .multiplicative operator.kind op) (hr : Derives .unary right r) :
      Derives .multiplicative (left ++ operator :: right)
        (.binary operator.position l op r)
  | unary {tokens node} (h : Derives .unary tokens node) :
      Derives .multiplicative tokens node
  | prefixed {operand node operator op} (ho : Prefixes operator.kind op)
      (h : Derives .unary operand node) :
      Derives .unary (operator :: operand) (.unary operator.position op node)
  | power {base exponent b e operator} (hb : Derives .stepped base b)
      (ho : operator.kind = .caret) (he : Derives .unary exponent e) :
      Derives .unary (base ++ operator :: exponent)
        (.binary operator.position b .power e)
  | stepped {tokens node} (h : Derives .stepped tokens node) :
      Derives .unary tokens node
  | step {operand node operator step} (h : Derives .primary operand node)
      (ho : Steps operator.kind step) :
      Derives .stepped (operand ++ [operator]) (.stepAfter operator.position step node)
  | primary {tokens node} (h : Derives .primary tokens node) :
      Derives .stepped tokens node
  | number {token value} (hk : token.kind = .number)
      (hv : Numeral.Denotes token.lexeme.toList value) :
      Derives .primary [token] (.literal token.position value)
  | name {token} (hk : token.kind = .identifier) :
      Derives .primary [token] (.reference token.position token.lexeme)
  | parentheses {opening closing inner node} (ho : opening.kind = .leftParen)
      (h : Derives .additive inner node) (hc : closing.kind = .rightParen) :
      Derives .primary (opening :: inner ++ [closing]) node

/-- The tokens are a statement, and this assignment is what it says. -/
inductive Sentence : List Token → Assignment → Prop
  | intro {target operator body stop op node} (ht : target.kind = .identifier)
      (ho : Assigns operator.kind op) (hb : Derives .additive body node)
      (hs : stop.kind = .endOfLine) :
      Sentence (target :: operator :: body ++ [stop])
        ⟨target.position, target.lexeme, op, node⟩

/-- The last token is the end of the line, and no other token is. -/
def Terminated (tokens : List Token) : Prop :=
  ∃ front stop, tokens = front ++ [stop] ∧ stop.kind = .endOfLine ∧
    ∀ token ∈ front, token.kind ≠ .endOfLine

/-- Every number token is written as a line writes numbers. -/
def NumbersWritten (tokens : List Token) : Prop :=
  ∀ token ∈ tokens, token.kind = .number → Numeral.IsLexeme token.lexeme.toList

/-! ## The tokens of a phrase -/

theorem Joins.ne_endOfLine {level : Level} {kind : Token.Kind} {op : BinaryOp}
    (h : Joins level kind op) : kind ≠ .endOfLine := by
  cases h <;> decide

theorem Prefixes.ne_endOfLine {kind : Token.Kind} {op : UnaryOp} (h : Prefixes kind op) :
    kind ≠ .endOfLine := by
  cases h <;> decide

theorem Steps.ne_endOfLine {kind : Token.Kind} {step : Step} (h : Steps kind step) :
    kind ≠ .endOfLine := by
  cases h <;> decide

theorem Assigns.ne_endOfLine {kind : Token.Kind} {op : AssignOp} (h : Assigns kind op) :
    kind ≠ .endOfLine := by
  cases h <;> decide

/-- No phrase holds the end of the line. -/
theorem Derives.ne_endOfLine {level : Level} {tokens : List Token} {node : Node}
    (h : Derives level tokens node) : ∀ token ∈ tokens, token.kind ≠ .endOfLine := by
  induction h with
  | sum _ ho _ ihl ihr | product _ ho _ ihl ihr =>
    intro token ht
    rcases List.mem_append.mp ht with ht | ht
    · exact ihl token ht
    · rcases List.mem_cons.mp ht with rfl | ht
      · exact ho.ne_endOfLine
      · exact ihr token ht
  | power _ ho _ ihb ihe =>
    intro token ht
    rcases List.mem_append.mp ht with ht | ht
    · exact ihb token ht
    · rcases List.mem_cons.mp ht with rfl | ht
      · simp [ho]
      · exact ihe token ht
  | multiplicative _ ih | unary _ ih | stepped _ ih | primary _ ih => exact ih
  | prefixed ho _ ih =>
    intro token ht
    rcases List.mem_cons.mp ht with rfl | ht
    · exact ho.ne_endOfLine
    · exact ih token ht
  | step _ ho ih =>
    intro token ht
    rcases List.mem_append.mp ht with ht | ht
    · exact ih token ht
    · rw [List.mem_singleton.mp ht]
      exact ho.ne_endOfLine
  | number hk | name hk =>
    intro token ht
    simp [List.mem_singleton.mp ht, hk]
  | parentheses ho _ hc ih =>
    intro token ht
    rcases List.mem_append.mp ht with ht | ht
    · rcases List.mem_cons.mp ht with rfl | ht
      · simp [ho]
      · exact ih token ht
    · simp [List.mem_singleton.mp ht, hc]

/-- An operand that a step may follow starts with no operator. -/
theorem Derives.head_not_prefix {level : Level} {tokens : List Token} {node : Node}
    (h : Derives level tokens node) (hl : level = .stepped ∨ level = .primary) :
    ∃ head tail, tokens = head :: tail ∧ unaryOp? head.kind = none := by
  -- Only the two tightest levels are at stake; the rules of the others cannot apply.
  induction h with
  | sum | multiplicative | product | unary | prefixed | power | stepped => simp at hl
  | step _ _ ih =>
    obtain ⟨head, tail, rfl, hhead⟩ := ih (.inr rfl)
    exact ⟨head, tail ++ _, rfl, hhead⟩
  | primary _ ih => exact ih (.inr rfl)
  | number hk | name hk => exact ⟨_, [], rfl, by rw [hk]; rfl⟩
  | parentheses ho => exact ⟨_, _, rfl, by rw [ho]; rfl⟩

end Reckoner.Grammar
