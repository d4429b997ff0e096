import Reckoner.Proofs.Evaluation.Runs
import Reckoner.Proofs.Grammar.Language

/-! Words and their places. The grammar asks for the kinds and lexemes of tokens only;
the places go into the tree and decide nothing, in an evaluation neither. So the same
words at other places are the same statement, up to the places in the tree. -/
namespace Reckoner

/-! ## Without places -/

/-- What a token is, without its place. -/
def Token.word (token : Token) : Token.Kind × String :=
  (token.kind, token.lexeme)

/-- The same tree with all nodes at the start of the line. -/
def Node.unplaced : Node → Node
  | .missing => .missing
  | .bare kind _ => .bare kind 0
  | .literal _ value => .literal 0 value
  | .reference _ name => .reference 0 name
  | .unary _ op operand => .unary 0 op operand.unplaced
  | .stepAfter _ step operand => .stepAfter 0 step operand.unplaced
  | .binary _ left op right => .binary 0 left.unplaced op right.unplaced
  | .assign _ name op expression => .assign 0 name op expression.unplaced

/-- The same statement with everything at the start of the line. -/
def Assignment.unplaced (a : Assignment) : Assignment :=
  ⟨0, a.name, a.op, a.expression.unplaced⟩

namespace Node

theorem takeStep_unplaced (step : Step) (operand : Node) :
    takeStep step operand.unplaced = takeStep step operand := by
  cases operand <;> rfl

/-- An evaluation does not look at places. -/
theorem evaluate_unplaced (node : Node) : node.unplaced.evaluate = node.evaluate := by
  induction node with
  | missing | bare | literal | reference | assign => rfl
  | unary position op operand ih =>
    cases op with
    | plus => exact ih
    | minus => rw [unplaced, evaluate, evaluate, ih]
    | step step => rw [unplaced, evaluate, evaluate, takeStep_unplaced]
  | stepAfter position step operand _ => rw [unplaced, evaluate, evaluate, takeStep_unplaced]
  | binary position left op right ihl ihr => rw [unplaced, evaluate, evaluate, ihl, ihr]

end Node

namespace Grammar

/-- The same words make the same lists, split the same way. -/
theorem words_append {tokens front behind : List Token}
    (h : tokens.map Token.word = (front ++ behind).map Token.word) :
    ∃ left right, tokens = left ++ right ∧ left.map Token.word = front.map Token.word ∧
      right.map Token.word = behind.map Token.word := by
  rw [List.map_append] at h
  exact List.map_eq_append_iff.mp h

theorem words_cons {tokens behind : List Token} {token : Token}
    (h : tokens.map Token.word = (token :: behind).map Token.word) :
    ∃ other rest, tokens = other :: rest ∧ other.kind = token.kind ∧
      other.lexeme = token.lexeme ∧ rest.map Token.word = behind.map Token.word := by
  rw [List.map_cons] at h
  obtain ⟨other, rest, rfl, hword, hrest⟩ := List.map_eq_cons_iff.mp h
  obtain ⟨hkind, hlexeme⟩ := Prod.mk.inj hword
  exact ⟨other, rest, rfl, hkind, hlexeme, hrest⟩

theorem words_singleton {tokens : List Token} {token : Token}
    (h : tokens.map Token.word = [token].map Token.word) :
    ∃ other, tokens = [other] ∧ other.kind = token.kind ∧ other.lexeme = token.lexeme := by
  obtain ⟨other, rest, rfl, hkind, hlexeme, hrest⟩ := words_cons h
  obtain rfl := List.map_eq_nil_iff.mp hrest
  exact ⟨other, rfl, hkind, hlexeme⟩

theorem words_infix {tokens left right : List Token} {operator : Token}
    (h : tokens.map Token.word = (left ++ operator :: right).map Token.word) :
    ∃ before sign behind, tokens = before ++ sign :: behind ∧ sign.kind = operator.kind ∧
      before.map Token.word = left.map Token.word ∧
      behind.map Token.word = right.map Token.word := by
  obtain ⟨before, rest, rfl, hbefore, hrest⟩ := words_append h
  obtain ⟨sign, behind, rfl, hkind, -, hbehind⟩ := words_cons hrest
  exact ⟨before, sign, behind, rfl, hkind, hbefore, hbehind⟩

/-! ## Phrases -/

/-- The same words are a phrase of the same level, with the same tree up to places. -/
theorem Derives.of_words {level : Level} {tokens : List Token} {node : Node}
    (h : Derives level tokens node) {others : List Token}
    (hwords : others.map Token.word = tokens.map Token.word) :
    ∃ other, Derives level others other ∧ other.unplaced = node.unplaced := by
  induction h generalizing others with
  | sum _ ho _ ihl ihr =>
    obtain ⟨left, operator, right, rfl, hkind, hleft, hright⟩ := words_infix hwords
    obtain ⟨l, hl, hlu⟩ := ihl hleft
    obtain ⟨r, hr, hru⟩ := ihr hright
    exact ⟨_, .sum hl (hkind ▸ ho) hr, by rw [Node.unplaced, hlu, hru, Node.unplaced]⟩
  | product _ ho _ ihl ihr =>
    obtain ⟨left, operator, right, rfl, hkind, hleft, hright⟩ := words_infix hwords
    obtain ⟨l, hl, hlu⟩ := ihl hleft
    obtain ⟨r, hr, hru⟩ := ihr hright
    exact ⟨_, .product hl (hkind ▸ ho) hr, by rw [Node.unplaced, hlu, hru, Node.unplaced]⟩
  | power _ ho _ ihb ihe =>
    obtain ⟨base, operator, exponent, rfl, hkind, hbase, hexponent⟩ := words_infix hwords
    obtain ⟨b, hb, hbu⟩ := ihb hbase
    obtain ⟨e, he, heu⟩ := ihe hexponent
    exact ⟨_, .power hb (hkind.trans ho) he, by rw [Node.unplaced, hbu, heu, Node.unplaced]⟩
  | multiplicative _ ih =>
    obtain ⟨other, hother, hu⟩ := ih hwords
    exact ⟨other, .multiplicative hother, hu⟩
  | unary _ ih =>
    obtain ⟨other, hother, hu⟩ := ih hwords
    exact ⟨other, .unary hother, hu⟩
  | stepped _ ih =>
    obtain ⟨other, hother, hu⟩ := ih hwords
    exact ⟨other, .stepped hother, hu⟩
  | primary _ ih =>
    obtain ⟨other, hother, hu⟩ := ih hwords
    exact ⟨other, .primary hother, hu⟩
  | prefixed ho _ ih =>
    obtain ⟨operator, operand, rfl, hkind, -, hoperand⟩ := words_cons hwords
    obtain ⟨other, hother, hu⟩ := ih hoperand
    exact ⟨_, .prefixed (hkind ▸ ho) hother, by rw [Node.unplaced, hu, Node.unplaced]⟩
  | step _ ho ih =>
    obtain ⟨operand, behind, rfl, hoperand, hbehind⟩ := words_append hwords
    obtain ⟨operator, rfl, hkind, -⟩ := words_singleton hbehind
    obtain ⟨other, hother, hu⟩ := ih hoperand
    exact ⟨_, .step hother (hkind ▸ ho), by rw [Node.unplaced, hu, Node.unplaced]⟩
  | number hk hv =>
    obtain ⟨token, rfl, hkind, hlexeme⟩ := words_singleton hwords
    exact ⟨_, .number (hkind.trans hk) (hlexeme ▸ hv), rfl⟩
  | name hk =>
    obtain ⟨token, rfl, hkind, hlexeme⟩ := words_singleton hwords
    exact ⟨_, .name (hkind.trans hk), by rw [Node.unplaced, hlexeme, Node.unplaced]⟩
  | parentheses ho _ hc ih =>
    obtain ⟨front, behind, rfl, hfront, hbehind⟩ := words_append hwords
    obtain ⟨opening, inner, rfl, hopening, -, hinner⟩ := words_cons hfront
    obtain ⟨closing, rfl, hclosing, -⟩ := words_singleton hbehind
    obtain ⟨other, hother, hu⟩ := ih hinner
    exact ⟨other, .parentheses (hopening.trans ho) hother (hclosing.trans hc), hu⟩

/-- The same words are the same statement up to places. -/
theorem Sentence.of_words {tokens : List Token} {a : Assignment} (h : Sentence tokens a)
    {others : List Token} (hwords : others.map Token.word = tokens.map Token.word) :
    ∃ other, Sentence others other ∧ other.unplaced = a.unplaced := by
  cases h with
  | @intro target operator body stop op node ht ho hb hs =>
    obtain ⟨front, behind, rfl, hfront, hbehind⟩ := words_append hwords
    obtain ⟨name, rest, rfl, hname, hlexeme, hrest⟩ := words_cons hfront
    obtain ⟨assign, tail, rfl, hassign, -, htail⟩ := words_cons hrest
    obtain ⟨last, rfl, hlast, -⟩ := words_singleton hbehind
    obtain ⟨other, hother, hu⟩ := hb.of_words htail
    refine ⟨_, .intro (hname.trans ht) (hassign ▸ ho) hother (hlast.trans hs), ?_⟩
    simp only [Assignment.unplaced, hlexeme, hu]

end Grammar

end Reckoner
