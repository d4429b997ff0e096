import Reckoner.Proofs.Grammar.Words

/-! Expressions and how they are written. A printer puts parentheses around an operand
only if it is looser than its place asks for; what it prints is read as the expression
that was printed. So precedence and the direction in which operators join are those of
the printer's table, whatever is nested in what. -/
namespace Reckoner.Grammar

/-! ## Expressions -/

/-- An expression, with its numbers and names as they are written. -/
inductive Formula where
  | number (lexeme : String) (value : Value) (h : Numeral.Denotes lexeme.toList value)
  | name (lexeme : String)
  | prefixed (op : UnaryOp) (operand : Formula)
  | stepped (operand : Formula) (step : Step)
  | binary (left : Formula) (op : BinaryOp) (right : Formula)

/-- The tree of the expression, with all nodes at the start of the line. -/
def Formula.node : Formula → Node
  | .number _ value _ => .literal 0 value
  | .name lexeme => .reference 0 lexeme
  | .prefixed op operand => .unary 0 op operand.node
  | .stepped operand step => .stepAfter 0 step operand.node
  | .binary left op right => .binary 0 left.node op right.node

/-! ## Words -/

/-- The token that stands for a binary operator. -/
def binaryKind : BinaryOp → Token.Kind
  | .add => .plus
  | .subtract => .minus
  | .multiply => .star
  | .divide => .slash
  | .modulo => .percent
  | .power => .caret

/-- The token that stands for a step. -/
def stepKind : Step → Token.Kind
  | .increment => .plusPlus
  | .decrement => .minusMinus

/-- The token that stands for an operator before its operand. -/
def unaryKind : UnaryOp → Token.Kind
  | .plus => .plus
  | .minus => .minus
  | .step step => stepKind step

/-- The token that stands for an assignment. -/
def assignKind : AssignOp → Token.Kind
  | .plain => .equal
  | .compound .add => .plusEqual
  | .compound .subtract => .minusEqual
  | .compound .multiply => .starEqual
  | .compound .divide => .slashEqual
  | .compound .modulo => .percentEqual
  | .compound .power => .caretEqual

theorem steps_stepKind (step : Step) : Steps (stepKind step) step := by
  cases step <;> constructor

theorem prefixes_unaryKind (op : UnaryOp) : Prefixes (unaryKind op) op := by
  cases op with
  | plus => exact .plus
  | minus => exact .minus
  | step step => cases step <;> constructor

theorem assigns_assignKind (op : AssignOp) : Assigns (assignKind op) op := by
  cases op with
  | plain => exact .equal
  | compound op => cases op <;> constructor

/-! ## Levels -/

/-- How tight a level is. -/
def Level.rank : Level → Nat
  | .additive => 0
  | .multiplicative => 1
  | .unary => 2
  | .stepped => 3
  | .primary => 4

theorem Level.rank_le_primary (level : Level) : level.rank ≤ primary.rank := by
  cases level <;> decide

theorem Level.rank_injective : Function.Injective rank := by
  intro level other h
  cases level <;> cases other <;> first | rfl | cases h

/-- The next looser level; there is none behind sums. -/
def Level.looser : Level → Level
  | .additive | .multiplicative => .additive
  | .unary => .multiplicative
  | .stepped => .unary
  | .primary => .stepped

theorem Level.rank_looser (level : Level) : level.looser.rank = level.rank - 1 := by
  cases level <;> rfl

/-- The level of what a binary operator makes. -/
def levelOf : BinaryOp → Level
  | .add | .subtract => .additive
  | .multiply | .divide | .modulo => .multiplicative
  | .power => .unary

/-- The level that the place left of an operator asks for. -/
def leftPlace : BinaryOp → Level
  | .add | .subtract => .additive
  | .multiply | .divide | .modulo => .multiplicative
  | .power => .stepped

/-- The level that the place right of an operator asks for. -/
def rightPlace : BinaryOp → Level
  | .add | .subtract => .multiplicative
  | .multiply | .divide | .modulo => .unary
  | .power => .unary

/-- The level of an expression without parentheses around it. -/
def Formula.level : Formula → Level
  | .number _ _ _ | .name _ => .primary
  | .prefixed _ _ => .unary
  | .stepped _ _ => .stepped
  | .binary _ op _ => levelOf op

/-- A phrase of a level is one of the next looser level. -/
theorem Derives.looser {level : Level} {tokens : List Token} {node : Node}
    (h : Derives level tokens node) : Derives level.looser tokens node := by
  cases level with
  | additive => exact h
  | multiplicative => exact .multiplicative h
  | unary => exact .unary h
  | stepped => exact .stepped h
  | primary => exact .primary h

/-- So it is one of every looser level. -/
theorem Derives.loosen {level place : Level} {tokens : List Token} {node : Node}
    (h : Derives level tokens node) (hplace : place.rank ≤ level.rank) :
    Derives place tokens node := by
  induction hgap : level.rank - place.rank generalizing level with
  | zero =>
    obtain rfl : level = place := Level.rank_injective (by omega)
    exact h
  | succ gap ih =>
    have hrank := level.rank_looser
    exact ih h.looser (by omega) (by omega)

/-- What stands left and right of an operator, and the operator, make a phrase. -/
theorem derives_binary (op : BinaryOp) {operator : Token} {left right : List Token} {l r : Node}
    (hkind : operator.kind = binaryKind op) (hl : Derives (leftPlace op) left l)
    (hr : Derives (rightPlace op) right r) :
    Derives (levelOf op) (left ++ operator :: right) (.binary operator.position l op r) := by
  cases op with
  | add => exact .sum hl (hkind ▸ .plus) hr
  | subtract => exact .sum hl (hkind ▸ .minus) hr
  | multiply => exact .product hl (hkind ▸ .star) hr
  | divide => exact .product hl (hkind ▸ .slash) hr
  | modulo => exact .product hl (hkind ▸ .percent) hr
  | power => exact .power hl hkind hr

/-! ## Printing -/

/-- The words in parentheses, if their level is looser than the place asks for. -/
def enclosed (place level : Level) (words : List (Token.Kind × String)) :
    List (Token.Kind × String) :=
  if level.rank < place.rank then
    (.leftParen, "(") :: words ++ [(.rightParen, ")")]
  else words

/-- The words of an expression, with no more parentheses than it needs. -/
def Formula.words : Formula → List (Token.Kind × String)
  | .number lexeme _ _ => [(.number, lexeme)]
  | .name lexeme => [(.identifier, lexeme)]
  | .prefixed op operand =>
    (unaryKind op, op.symbol) :: enclosed .unary operand.level operand.words
  | .stepped operand step =>
    enclosed .primary operand.level operand.words ++ [(stepKind step, step.symbol)]
  | .binary left op right =>
    enclosed (leftPlace op) left.level left.words ++
      (binaryKind op, op.symbol) :: enclosed (rightPlace op) right.level right.words

/-- The words of a line that assigns the expression to a name. -/
def Formula.lineWords (name : String) (op : AssignOp) (f : Formula) :
    List (Token.Kind × String) :=
  (.identifier, name) :: (assignKind op, op.symbol) :: f.words ++ [(.endOfLine, "")]

/-- The token that is the word, at the start of the line. -/
def tokenOf (word : Token.Kind × String) : Token :=
  ⟨word.1, word.2, 0⟩

theorem map_word_tokenOf (words : List (Token.Kind × String)) :
    (words.map tokenOf).map Token.word = words := by
  rw [List.map_map]
  exact List.map_id words

/-! ## What is printed is derived -/

/-- Where a phrase is too loose for its place, the parentheses make it a primary. -/
theorem derives_enclosed {level : Level} {words : List (Token.Kind × String)} {node : Node}
    (h : Derives level (words.map tokenOf) node) (place : Level) :
    Derives place ((enclosed place level words).map tokenOf) node := by
  unfold enclosed
  split
  · have hinner : Derives .additive (words.map tokenOf) node := h.loosen (Nat.zero_le _)
    have hprimary : Derives .primary
        (tokenOf (.leftParen, "(") :: words.map tokenOf ++ [tokenOf (.rightParen, ")")]) node :=
      .parentheses rfl hinner rfl
    rw [List.map_append, List.map_cons]
    exact hprimary.loosen place.rank_le_primary
  · next hplace => exact h.loosen (Nat.le_of_not_lt hplace)

/-- The words of an expression are a phrase of its level, with its tree. -/
theorem Formula.derives (f : Formula) : Derives f.level (f.words.map tokenOf) f.node := by
  induction f with
  | number lexeme value h => exact .number rfl h
  | name lexeme => exact .name rfl
  | prefixed op operand ih =>
    exact .prefixed (prefixes_unaryKind op) (derives_enclosed ih .unary)
  | stepped operand step ih =>
    rw [words, List.map_append]
    exact .step (derives_enclosed ih .primary) (steps_stepKind step)
  | binary left op right ihl ihr =>
    rw [words, List.map_append, List.map_cons]
    exact derives_binary op rfl (derives_enclosed ihl (leftPlace op))
      (derives_enclosed ihr (rightPlace op))

/-- A line with a printed expression is the statement that assigns it. -/
theorem Formula.sentence (f : Formula) (name : String) (op : AssignOp) :
    Sentence ((f.lineWords name op).map tokenOf) ⟨0, name, op, f.node⟩ := by
  have hbody : Derives .additive (f.words.map tokenOf) f.node :=
    f.derives.loosen (Nat.zero_le _)
  rw [lineWords, List.map_append, List.map_cons, List.map_cons]
  exact .intro rfl (assigns_assignKind op) hbody rfl

theorem Formula.unplaced_node (f : Formula) : f.node.unplaced = f.node := by
  induction f with
  | number | name => rfl
  | prefixed op operand ih => rw [node, Node.unplaced, ih]
  | stepped operand step ih => rw [node, Node.unplaced, ih]
  | binary left op right ihl ihr => rw [node, Node.unplaced, ihl, ihr]

/-- Reading a printed expression gives it back. Whatever the expression, and wherever
the tokens of the line stand, the line is read as the assignment of that expression
under its name and operator; only the places in the tree are those of the tokens. -/
theorem statement_of_printed {name : String} {op : AssignOp} {f : Formula}
    {tokens : List Token} (h : tokens.map Token.word = f.lineWords name op) :
    ∃ a, statement tokens = .ok a ∧ a.name = name ∧ a.op = op ∧
      a.expression.unplaced = f.node := by
  have hwords : tokens.map Token.word = ((f.lineWords name op).map tokenOf).map Token.word := by
    rw [h, map_word_tokenOf]
  obtain ⟨a, hsentence, hplaces⟩ := (f.sentence name op).of_words hwords
  obtain ⟨-, hname, hop, hnode⟩ := Assignment.mk.inj hplaces
  exact ⟨a, hsentence.statement, hname, hop, hnode.trans f.unplaced_node⟩

theorem denotes_two : Numeral.Denotes "2".toList (.int 2) := by
  have hvalues : Numeral.DigitValues "2".toList [2] := ⟨by decide, by decide⟩
  exact .integer hvalues

/-- The expression `(-a) ^ 2 ^ (b - c)++`. Its sign and its difference need parentheses,
and the power within the power does not. -/
def sampleFormula : Formula :=
  .binary (.prefixed .minus (.name "a")) .power
    (.binary (.number "2" (.int 2) denotes_two) .power
      (.stepped (.binary (.name "b") .subtract (.name "c")) .increment))

theorem statement_of_printed_sample :
    let tokens : List Token :=
      [⟨.identifier, "x", 0⟩, ⟨.starEqual, "*=", 2⟩, ⟨.leftParen, "(", 5⟩, ⟨.minus, "-", 6⟩,
        ⟨.identifier, "a", 7⟩, ⟨.rightParen, ")", 8⟩, ⟨.caret, "^", 10⟩, ⟨.number, "2", 12⟩,
        ⟨.caret, "^", 14⟩, ⟨.leftParen, "(", 16⟩, ⟨.identifier, "b", 17⟩, ⟨.minus, "-", 19⟩,
        ⟨.identifier, "c", 21⟩, ⟨.rightParen, ")", 22⟩, ⟨.plusPlus, "++", 23⟩,
        ⟨.endOfLine, "", 25⟩]
    tokens.map Token.word = sampleFormula.lineWords "x" (.compound .multiply) ∧
      ∃ a, statement tokens = .ok a ∧ a.name = "x" ∧ a.op = .compound .multiply ∧
        a.expression.unplaced = sampleFormula.node := by
  intro tokens
  have hwords : tokens.map Token.word = sampleFormula.lineWords "x" (.compound .multiply) := by
    decide
  exact ⟨hwords, statement_of_printed hwords⟩

end Reckoner.Grammar
