import Reckoner.Proofs.Grammar.Printing
import Reckoner.Proofs.Session.Lines
import Reckoner.Proofs.Token.Following

/-! Compound assignments as abbreviations. The line `x += t` does what `x = x + (t)`
does, for each operator and whatever the text `t` is: between the parentheses `t` has
the same tokens and the same tree, and the operator takes `x` on its left at every
level. Both lines read `x` before `t` is evaluated, and bind it last. -/
namespace Reckoner

open Grammar (Derives Sentence assignOp?_eq_some_iff assigns_assignKind derives_binary leftPlace
  rightPlace tokenOf)

/-! ## Statements -/

theorem Assignment.execute_unplaced (a : Assignment) : a.unplaced.execute = a.execute := by
  rw [execute, execute]
  simp only [unplaced, Node.evaluate_unplaced]

/-- The plain assignment that a compound one stands for. -/
def Assignment.expanded (a : Assignment) (op : BinaryOp) : Assignment :=
  ⟨0, a.name, .plain, .binary 0 (.reference 0 a.name) op a.expression⟩

theorem Assignment.execute_expanded {a : Assignment} {op : BinaryOp} (h : a.op = .compound op)
    (bindings : Bindings) : (a.expanded op).execute bindings = a.execute bindings := by
  rw [execute_compound h, execute_plain rfl]
  simp only [expanded, Node.evaluate_binary, Node.evaluate_reference]
  cases bindings.get? a.name with
  | none => rfl
  | some current =>
    dsimp only
    cases a.expression.evaluate bindings with
    | error fault after => rfl
    | ok operand after =>
      dsimp only
      cases op.apply current operand <;> rfl

/-! ## Tokens -/

/-- The tokens of the operation, with those of the text between its parentheses. -/
def operationTokens (name : String) (op : BinaryOp) (body : List Token) : List Token :=
  [tokenOf (.identifier, name)] ++ tokenOf (Grammar.binaryKind op, op.symbol) ::
    (tokenOf (.leftParen, "(") :: body ++ [tokenOf (.rightParen, ")")])

/-- The tokens of the plain assignment. -/
def expandedTokens (name : String) (op : BinaryOp) (body : List Token) : List Token :=
  tokenOf (.identifier, name) :: tokenOf (.equal, "=") :: operationTokens name op body ++
    [tokenOf (.endOfLine, "")]

/-- In parentheses an expression may stand right of every operator, and a name may stand
left of every operator as it is. -/
theorem Grammar.Derives.operation {body : List Token} {node : Node}
    (h : Derives .additive body node) (name : String) (op : BinaryOp) :
    Derives (levelOf op) (operationTokens name op body) (.binary 0 (.reference 0 name) op node) := by
  have hleft : Derives .primary [tokenOf (.identifier, name)] (.reference 0 name) := .name rfl
  have hright : Derives .primary
      (tokenOf (.leftParen, "(") :: body ++ [tokenOf (.rightParen, ")")]) node :=
    .parentheses rfl h rfl
  have hkind : (tokenOf (binaryKind op, op.symbol)).kind = binaryKind op := rfl
  exact derives_binary op hkind (hleft.loosen (leftPlace op).rank_le_primary)
    (hright.loosen (rightPlace op).rank_le_primary)

theorem Grammar.Derives.sentence_expanded {body : List Token} {node : Node}
    (h : Derives .additive body node) (name : String) (op : BinaryOp) :
    Sentence (expandedTokens name op body)
      ⟨0, name, .plain, .binary 0 (.reference 0 name) op node⟩ := by
  have hsum : Derives .additive (operationTokens name op body) _ :=
    (h.operation name op).loosen (Nat.zero_le _)
  unfold expandedTokens
  exact .intro rfl .equal hsum rfl

/-! ## Words with a space behind them -/

namespace Token

theorem lexeme_binaryKind (op : BinaryOp) :
    Lexeme (Grammar.binaryKind op) op.symbol.toList := by
  refine .symbol ?_
  rw [String.ofList_toList]
  cases op <;> rfl

theorem lexeme_assignKind (op : AssignOp) :
    Lexeme (Grammar.assignKind op) op.symbol.toList := by
  refine .symbol ?_
  rw [String.ofList_toList]
  cases op with
  | plain => rfl
  | compound op => cases op <;> rfl

variable {kind : Kind} {lexeme : List Char}

/-- A word with a space behind it is found, and the text behind the space is scanned. -/
theorem Lexeme.scanFrom_spaced (h : Lexeme kind lexeme) (hkind : kind ≠ .number) (place : Nat)
    (rest : List Char) :
    scanFrom place (lexeme ++ ' ' :: rest) =
      (scanFrom (place + lexeme.length + 1) rest).map
        (⟨kind, String.ofList lexeme, place⟩ :: ·) := by
  have hspace : Character.isGap ' ' = true := by decide
  rw [h.scanFrom_append hkind place (endsToken_of_isGap hspace), scanFrom_gap _ hspace]

/-- Words may be put in front of a text that has been scanned somewhere. -/
theorem Lexeme.scanned_spaced (h : Lexeme kind lexeme) (hkind : kind ≠ .number)
    {rest : List Char} {words : List (Kind × String)}
    (hrest : ∀ place, ∃ tokens, scanFrom place rest = .ok tokens ∧ tokens.map word = words)
    (place : Nat) :
    ∃ tokens, scanFrom place (lexeme ++ ' ' :: rest) = .ok tokens ∧
      tokens.map word = (kind, String.ofList lexeme) :: words := by
  obtain ⟨tokens, hscan, hwords⟩ := hrest (place + lexeme.length + 1)
  refine ⟨⟨kind, String.ofList lexeme, place⟩ :: tokens, ?_, ?_⟩
  · rw [h.scanFrom_spaced hkind, hscan]
    rfl
  · rw [List.map_cons, hwords]
    rfl

/-- What stands before the parenthesis that is opened has no part in what it holds. -/
theorem scanFrom_leftParen (place : Nat) (rest : List Char) :
    scanFrom place ('(' :: rest) =
      (scanFrom (place + 1) rest).map (⟨.leftParen, "(", place⟩ :: ·) := by
  have hlongest : longest? (['('] ++ rest) = some (.leftParen, 1) := rfl
  exact scanFrom_front place hlongest (by decide)

/-- A text in parentheses has its own words between them. -/
theorem scanned_parentheses {start : Nat} {text : List Char} {tokens : List Token}
    (h : scanFrom start text = .ok tokens) (place : Nat) :
    ∃ others, scanFrom place ('(' :: (text ++ [')'])) = .ok others ∧
      others.map word = (.leftParen, "(") :: tokens.dropLast.map word ++
        [(.rightParen, ")"), (.endOfLine, "")] := by
  obtain ⟨inner, hinner, hwords⟩ := scanFrom_words h (place + 1)
  have hclosing (n : Nat) : scanFrom n [')'] =
      .ok [⟨.rightParen, ")", n⟩, ⟨.endOfLine, "", (n + 1 : Nat)⟩] := by
    have hlongest : longest? ([')'] ++ []) = some (.rightParen, 1) := rfl
    have hfront := scanFrom_front n hlongest (by decide)
    rw [scanFrom_nil] at hfront
    exact hfront
  have hbehind := scanFrom_append_stop endsToken_rightParen [] (place + 1) text inner hinner
  rw [hclosing] at hbehind
  refine ⟨_, by rw [scanFrom_leftParen, hbehind]; rfl, ?_⟩
  have hdrop : inner.dropLast.map word = tokens.dropLast.map word := by
    rw [List.map_dropLast, hwords, List.map_dropLast]
  simp [hdrop, word]

end Token

/-! ## Lines -/

/-- The line `x o= t`. -/
def compoundLine (name : String) (op : BinaryOp) (text : String) : String :=
  name ++ " " ++ op.symbol ++ "= " ++ text

/-- The line `x = x o (t)`. -/
def plainLine (name : String) (op : BinaryOp) (text : String) : String :=
  name ++ " = " ++ name ++ " " ++ op.symbol ++ " (" ++ text ++ ")"

theorem toList_compoundLine (name : String) (op : BinaryOp) (text : String) :
    (compoundLine name op text).toList =
      name.toList ++ ' ' :: ((AssignOp.compound op).symbol.toList ++ ' ' :: text.toList) := by
  simp [compoundLine, AssignOp.symbol]

theorem toList_plainLine (name : String) (op : BinaryOp) (text : String) :
    (plainLine name op text).toList =
      name.toList ++ ' ' :: (AssignOp.plain.symbol.toList ++ ' ' :: (name.toList ++ ' ' ::
        (op.symbol.toList ++ ' ' :: ('(' :: (text.toList ++ [')']))))) := by
  simp [plainLine, AssignOp.symbol]

/-- A line is parsed if the words of its tokens are those of a statement. -/
theorem parseLine_of_words {line : String} {tokens others : List Token} {a : Assignment}
    (hscan : Token.scan line = .ok tokens) (h : Grammar.Sentence others a)
    (hwords : tokens.map Token.word = others.map Token.word) :
    ∃ b, parseLine line = .ok b ∧ b.unplaced = a.unplaced := by
  obtain ⟨b, hb, hplaces⟩ := h.of_words hwords
  refine ⟨b, ?_, hplaces⟩
  rw [parseLine, hscan]
  dsimp only
  rw [hb.statement]

/-- The tokens of a line with a compound assignment: the name, the operator, and those
of the text behind them. -/
theorem scan_compound {name : String} (hname : Token.Lexeme .identifier name.toList)
    {op : BinaryOp} {text : String} {tokens : List Token}
    (h : Token.scan (compoundLine name op text) = .ok tokens) :
    ∃ target operator behind place, tokens = target :: operator :: behind ∧
      target.lexeme = name ∧ operator.kind = Grammar.assignKind (.compound op) ∧
      Token.scanFrom place text.toList = .ok behind := by
  have hop := Token.lexeme_assignKind (.compound op)
  have hkind : Grammar.assignKind (.compound op) ≠ .number := by cases op <;> decide
  rw [Token.scan, toList_compoundLine, hname.scanFrom_spaced (by decide),
    hop.scanFrom_spaced hkind] at h
  generalize hplace : 0 + name.toList.length + 1 + _ + 1 = place at h
  cases hbehind : Token.scanFrom place text.toList with
  | error fault =>
    rw [hbehind] at h
    cases h
  | ok behind =>
    rw [hbehind] at h
    cases h
    exact ⟨_, _, behind, place, rfl, String.ofList_toList, rfl, hbehind⟩

/-- The words of the tokens of the line with the plain assignment. -/
theorem scan_plain {name : String} (hname : Token.Lexeme .identifier name.toList)
    (op : BinaryOp) {text : String} {place : Nat} {behind : List Token}
    (h : Token.scanFrom place text.toList = .ok behind) :
    ∃ tokens,
      Token.scan (plainLine name op text) = .ok tokens ∧
      tokens.map Token.word =
        [(.identifier, name), (.equal, "="), (.identifier, name),
          (Grammar.binaryKind op, op.symbol), (.leftParen, "(")] ++
          behind.dropLast.map Token.word ++ [(.rightParen, ")"), (.endOfLine, "")] := by
  have hkind : Grammar.binaryKind op ≠ .number := by cases op <;> decide
  have hscanned := hname.scanned_spaced (by decide)
    ((Token.lexeme_assignKind .plain).scanned_spaced (by decide)
      (hname.scanned_spaced (by decide)
        ((Token.lexeme_binaryKind op).scanned_spaced hkind (Token.scanned_parentheses h)))) 0
  rw [← toList_plainLine] at hscanned
  obtain ⟨tokens, hscan, hwords⟩ := hscanned
  refine ⟨tokens, hscan, ?_⟩
  rw [hwords]
  simp [Grammar.assignKind, AssignOp.symbol]

/-- The line with the plain assignment parses if that with the compound one does, and
it is the statement that this one stands for. -/
theorem parseLine_plain {name : String} (hname : Token.Lexeme .identifier name.toList)
    (op : BinaryOp) {text : String} {a : Assignment}
    (h : parseLine (compoundLine name op text) = .ok a) :
    a.op = .compound op ∧ ∃ b,
      parseLine (plainLine name op text) = .ok b ∧
        b.unplaced = (a.expanded op).unplaced := by
  obtain ⟨tokens, hscan, hsentence, -⟩ := parseLine_sentence h
  obtain ⟨target, operator, behind, place, rfl, rfl, hoperator, hbehind⟩ :=
    scan_compound hname hscan
  obtain ⟨others, hothers, hwords⟩ := scan_plain hname op hbehind
  generalize htokens : target :: operator :: behind = tokens at hsentence
  cases hsentence with
  | @intro _ _ body stop assign node ht ho hb hs =>
    simp only [List.cons_append, List.cons.injEq] at htokens
    obtain ⟨rfl, rfl, rfl⟩ := htokens
    obtain rfl : assign = .compound op := by
      rw [hoperator, ← assignOp?_eq_some_iff,
        assignOp?_eq_some_iff.mpr (assigns_assignKind _)] at ho
      exact (Option.some.inj ho).symm
    have hexpanded := hb.sentence_expanded target.lexeme op
    refine ⟨rfl, parseLine_of_words hothers hexpanded ?_⟩
    rw [hwords, List.dropLast_concat]
    simp [expandedTokens, operationTokens, tokenOf, Token.word]

/-- A compound assignment is an abbreviation. Whatever stands behind its operator, if the
line parses, then so does the line that writes the operation out, with the same text in
parentheses; and run from the same bindings, the two lines have the same value or the
same fault, and leave the same bindings. -/
theorem runLine_compound {name : String} (hname : Token.Lexeme .identifier name.toList)
    (op : BinaryOp) {text : String} {a : Assignment}
    (h : parseLine (compoundLine name op text) = .ok a) (bindings : Bindings) :
    (∃ b, parseLine (plainLine name op text) = .ok b) ∧
      (runLine (compoundLine name op text) bindings).outcome =
        (runLine (plainLine name op text) bindings).outcome ∧
      (runLine (compoundLine name op text) bindings).bindings =
        (runLine (plainLine name op text) bindings).bindings := by
  obtain ⟨hop, b, hb, hplaces⟩ := parseLine_plain hname op h
  have hexecute : b.execute bindings = a.execute bindings := by
    rw [← b.execute_unplaced, hplaces, Assignment.execute_unplaced,
      Assignment.execute_expanded hop]
  obtain ⟨houtcome, hbindings⟩ := runLine_parsed h bindings
  obtain ⟨houtcome', hbindings'⟩ := runLine_parsed hb bindings
  refine ⟨⟨b, hb⟩, ?_, ?_⟩
  · rw [houtcome, houtcome', hexecute]
  · rw [hbindings, hbindings', hexecute]

/-- Both lines take the first reading of `i` for the left operand, and what the last one
binds stands in place of the step. -/
theorem runLine_compound_step :
    let bindings := Bindings.empty.set "i" (.int 7)
    let a : Assignment :=
      ⟨0, "i", .compound .subtract,
        .binary 13 (.binary 9 (.stepAfter 6 .increment (.reference 5 "i")) .multiply
          (.literal 11 (.int 2))) .add (.literal 15 (.int 1))⟩
    Token.Lexeme .identifier "i".toList ∧ parseLine "i -= i++ * 2 + 1" = .ok a ∧
      (∃ b, parseLine "i = i - (i++ * 2 + 1)" = .ok b) ∧
      (runLine "i -= i++ * 2 + 1" bindings).outcome =
        (runLine "i = i - (i++ * 2 + 1)" bindings).outcome ∧
      (runLine "i -= i++ * 2 + 1" bindings).bindings =
        (runLine "i = i - (i++ * 2 + 1)" bindings).bindings := by
  intro bindings a
  have hname : Token.Lexeme .identifier "i".toList :=
    .identifier (by decide) (List.forall_mem_singleton.mpr (by decide))
  have hparse : parseLine (compoundLine "i" .subtract "i++ * 2 + 1") = .ok a := by
    decide +kernel
  exact ⟨hname, hparse, runLine_compound hname .subtract hparse bindings⟩

end Reckoner
