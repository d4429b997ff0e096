import Reckoner.Proofs.Grammar.Printing
import Reckoner.Proofs.Token.Division

/-! What a tree keeps of the tokens. Names, numbers and operators of a statement, listed
from left to right with the places of their nodes, are the tokens up to the end without
the parentheses. So no reader drops a token, takes one twice or gives a node the place of
another token, and in a line the listing goes from left to right. -/
namespace Reckoner.Grammar

/-! ## Items -/

/-- What a token stands for in a tree. -/
inductive Item where
  | name (lexeme : String)
  | number (value : Value)
  | operator (kind : Token.Kind)

/-- What the token stands for, at its place. A number without a value stands for
nothing. -/
def item? (token : Token) : Option (Int × Item) :=
  match token.kind with
  | .identifier => some (token.position, .name token.lexeme)
  | .number =>
    match numberOf token with
    | .ok value => some (token.position, .number value)
    | .error _ => none
  | kind => some (token.position, .operator kind)

/-- The token is an opening or a closing parenthesis. -/
def isParenthesis (token : Token) : Bool :=
  token.kind = .leftParen || token.kind = .rightParen

/-- The tokens up to the end of the line, but for the parentheses. -/
def content (tokens : List Token) : List Token :=
  (tokens.takeWhile fun token => token.kind ≠ .endOfLine).filter fun token =>
    !isParenthesis token

end Grammar

open Grammar

/-- The names, numbers and operators of the tree from left to right, each at the place of
its node. -/
def Node.items : Node → List (Int × Item)
  | .literal position value => [(position, .number value)]
  | .reference position name => [(position, .name name)]
  | .unary position op operand => (position, .operator (unaryKind op)) :: operand.items
  | .stepAfter position step operand =>
    operand.items ++ [(position, .operator (stepKind step))]
  | .binary position left op right =>
    left.items ++ (position, .operator (binaryKind op)) :: right.items
  | .missing | .bare _ _ | .assign _ _ _ _ => []

/-- The name, the assignment and the expression. A statement does not keep the place of
its assignment. -/
def Assignment.items (a : Assignment) (place : Int) : List (Int × Item) :=
  (a.position, .name a.name) :: (place, .operator (assignKind a.op)) :: a.expression.items

namespace Grammar

variable {token : Token} {value : Value}

theorem item?_name (h : token.kind = .identifier) :
    item? token = some (token.position, .name token.lexeme) := by
  simp [item?, h]

theorem item?_number (h : token.kind = .number) (hv : numberOf token = .ok value) :
    item? token = some (token.position, .number value) := by
  simp [item?, h, hv]

theorem item?_operator (hname : token.kind ≠ .identifier) (hnumber : token.kind ≠ .number) :
    item? token = some (token.position, .operator token.kind) := by
  unfold item?
  split <;> trivial

theorem item?_position {item : Int × Item} (h : item? token = some item) :
    item.1 = token.position := by
  unfold item? at h
  split at h
  · cases h
    rfl
  · split at h <;> cases h
    rfl
  · cases h
    rfl

/-! ## Operators -/

/-- The kind is that of an operator before, between or behind operands, or of an
assignment. -/
def IsOperator (kind : Token.Kind) : Prop :=
  kind ≠ .identifier ∧ kind ≠ .number ∧ kind ≠ .leftParen ∧ kind ≠ .rightParen ∧
    kind ≠ .endOfLine

theorem Joins.eq_binaryKind {level : Level} {kind : Token.Kind} {op : BinaryOp}
    (h : Joins level kind op) : kind = binaryKind op := by
  cases h <;> rfl

theorem Prefixes.eq_unaryKind {kind : Token.Kind} {op : UnaryOp} (h : Prefixes kind op) :
    kind = unaryKind op := by
  cases h <;> rfl

theorem Steps.eq_stepKind {kind : Token.Kind} {step : Step} (h : Steps kind step) :
    kind = stepKind step := by
  cases h <;> rfl

theorem Assigns.eq_assignKind {kind : Token.Kind} {op : AssignOp} (h : Assigns kind op) :
    kind = assignKind op := by
  cases h <;> rfl

theorem isOperator_stepKind (step : Step) : IsOperator (stepKind step) := by
  cases step <;> simp [IsOperator, stepKind]

theorem isOperator_unaryKind (op : UnaryOp) : IsOperator (unaryKind op) := by
  cases op with
  | plus | minus => simp [IsOperator, unaryKind]
  | step step => exact isOperator_stepKind step

theorem isOperator_binaryKind (op : BinaryOp) : IsOperator (binaryKind op) := by
  cases op <;> simp [IsOperator, binaryKind]

theorem isOperator_assignKind (op : AssignOp) : IsOperator (assignKind op) := by
  cases op with
  | plain => simp [IsOperator, assignKind]
  | compound op => cases op <;> simp [IsOperator, assignKind]

/-! ## Listings -/

/-- The tokens, none of which is the end of the line, stand for these items in turn once
the parentheses are left out. -/
structure Lists (tokens : List Token) (items : List (Int × Item)) : Prop where
  ne_endOfLine : ∀ token ∈ tokens, token.kind ≠ .endOfLine
  eq_items : (tokens.filter fun token => !isParenthesis token).map item? = items.map some

namespace Lists

variable {tokens more : List Token} {items others : List (Int × Item)}

theorem nil : Lists [] [] :=
  ⟨by simp, rfl⟩

theorem append (h : Lists tokens items) (hmore : Lists more others) :
    Lists (tokens ++ more) (items ++ others) := by
  refine ⟨List.forall_mem_append.mpr ⟨h.ne_endOfLine, hmore.ne_endOfLine⟩, ?_⟩
  rw [List.filter_append, List.map_append, h.eq_items, hmore.eq_items, List.map_append]

theorem cons {item : Int × Item} (hparen : isParenthesis token = false)
    (hend : token.kind ≠ .endOfLine) (hitem : item? token = some item)
    (h : Lists tokens items) : Lists (token :: tokens) (item :: items) := by
  refine ⟨List.forall_mem_cons.mpr ⟨hend, h.ne_endOfLine⟩, ?_⟩
  rw [List.filter_cons_of_pos (by simp [hparen]), List.map_cons, hitem, h.eq_items,
    List.map_cons]

theorem parenthesis (hk : token.kind = .leftParen ∨ token.kind = .rightParen) :
    Lists [token] [] := by
  refine ⟨List.forall_mem_singleton.mpr fun hend => ?_, ?_⟩
  · simp [hend] at hk
  · have hparen : isParenthesis token = true := by simpa [isParenthesis] using hk
    simp [hparen]

theorem operator {kind : Token.Kind} (hk : token.kind = kind) (hkind : IsOperator kind)
    (h : Lists tokens items) :
    Lists (token :: tokens) ((token.position, .operator kind) :: items) := by
  subst hk
  obtain ⟨hname, hnumber, hleft, hright, hend⟩ := hkind
  exact h.cons (by simp [isParenthesis, hleft, hright]) hend (item?_operator hname hnumber)

theorem name (hk : token.kind = .identifier) (h : Lists tokens items) :
    Lists (token :: tokens) ((token.position, .name token.lexeme) :: items) :=
  h.cons (by simp [isParenthesis, hk]) (by simp [hk]) (item?_name hk)

theorem number (hk : token.kind = .number) (hv : numberOf token = .ok value)
    (h : Lists tokens items) :
    Lists (token :: tokens) ((token.position, .number value) :: items) :=
  h.cons (by simp [isParenthesis, hk]) (by simp [hk]) (item?_number hk hv)

end Lists

/-- What is read lists the items of its tree. -/
theorem lists_rules : Rules fun _ tokens node => Lists tokens node.items where
  sum hl ho hr := hl.append (hr.operator ho.eq_binaryKind (isOperator_binaryKind _))
  multiplicative h := h
  product hl ho hr := hl.append (hr.operator ho.eq_binaryKind (isOperator_binaryKind _))
  unary h := h
  prefixed ho h := h.operator ho.eq_unaryKind (isOperator_unaryKind _)
  power hb ho he := hb.append (he.operator ho (isOperator_binaryKind .power))
  stepped h := h
  step h ho := h.append (Lists.nil.operator ho.eq_stepKind (isOperator_stepKind _))
  primary h := h
  number hk hv := Lists.nil.number hk hv
  name hk := Lists.nil.name hk
  parentheses ho h hc := by
    have hinner := (Lists.parenthesis (.inl ho)).append h
    simpa using hinner.append (Lists.parenthesis (.inr hc))

theorem content_of_lists {used behind : List Token} {items : List (Int × Item)}
    (h : Lists used items) (hbehind : nextKind behind = .endOfLine) :
    (content (used ++ behind)).map item? = items.map some := by
  have hstop : behind.takeWhile (fun token => token.kind ≠ .endOfLine) = [] := by
    cases behind with
    | nil => rfl
    | cons token rest => exact List.takeWhile_cons_of_neg (by simp [show token.kind = .endOfLine from hbehind])
  have hused : ∀ token ∈ used, decide (token.kind ≠ .endOfLine) = true := by
    simpa using h.ne_endOfLine
  rw [content, List.takeWhile_append_of_pos hused, hstop, List.append_nil, h.eq_items]

/-- The tokens of a statement up to the end, without the parentheses, are its items. -/
theorem content_of_statement {tokens : List Token} {a : Assignment}
    (h : statement tokens = .ok a) :
    ∃ place, (content tokens).map item? = (a.items place).map some := by
  obtain ⟨target, operator, rest, op, node, behind, rfl, hname, hop, hread, hnext, rfl⟩ :=
    statement_eq_ok h
  have hsound := (readers_take lists_rules).1 rest
  rw [hread] at hsound
  obtain ⟨used, rfl, hused⟩ := hsound
  have hassign := (assignOp?_eq_some_iff.mp hop).eq_assignKind
  have hall := (hused.operator hassign (isOperator_assignKind op)).name hname
  exact ⟨operator.position, content_of_lists hall hnext⟩

/-! ## Lines -/

/-- The text is how the item is written. -/
def Item.WrittenAs : Item → List Char → Prop
  | .name lexeme, cs => cs = lexeme.toList
  | .number value, cs => Numeral.Denotes cs value
  | .operator kind, cs => kind.symbol? = some (String.ofList cs)

/-- The item is what the text has at its place: it is written there, and no longer text of
any class of tokens starts there. -/
def StandsIn (text : List Char) (item : Int × Item) : Prop :=
  0 ≤ item.1 ∧ ∃ cs, cs <+: text.drop item.1.toNat ∧ item.2.WrittenAs cs ∧
    ∀ kind other, Token.Lexeme kind other → other <+: text.drop item.1.toNat →
      other.length ≤ cs.length

theorem writtenAs_lexeme {item : Int × Item} (h : item? token = some item)
    (hlexeme : Token.Lexeme token.kind token.lexeme.toList) :
    item.2.WrittenAs token.lexeme.toList := by
  by_cases hname : token.kind = .identifier
  · rw [item?_name hname] at h
    cases h
    rfl
  · by_cases hnumber : token.kind = .number
    · have hwritten : Numeral.IsLexeme token.lexeme.toList := by
        rw [hnumber] at hlexeme
        generalize token.lexeme.toList = cs at hlexeme ⊢
        cases hlexeme with
        | number hwritten => exact hwritten
        | symbol hsymbol => cases hsymbol
      obtain ⟨value, hvalue⟩ := hwritten.denotes
      rw [item?_number hnumber (numberOf_denotes hvalue)] at h
      cases h
      exact hvalue
    · rw [item?_operator hname hnumber] at h
      cases h
      show token.kind.symbol? = some (String.ofList token.lexeme.toList)
      generalize token.kind = kind, token.lexeme.toList = cs at hname hnumber hlexeme ⊢
      cases hlexeme with
      | number => exact absurd rfl hnumber
      | identifier => exact absurd rfl hname
      | symbol hsymbol => exact hsymbol

theorem standsIn_of_munched {text : List Char} {item : Int × Item}
    (hmunched : Token.Munched text token) (h : item? token = some item) :
    StandsIn text item := by
  have hprefix : token.lexeme.toList <+: text.drop token.position.toNat := by
    rw [← hmunched.slice]
    exact List.take_prefix _ _
  rw [StandsIn, item?_position h]
  refine ⟨hmunched.position_nonneg, token.lexeme.toList, hprefix,
    writtenAs_lexeme h hmunched.of_class, fun kind other hother hstarts => ?_⟩
  rw [String.length_toList]
  exact hmunched.longest kind other hother hstarts

theorem content_subset {tokens : List Token} (h : token ∈ content tokens) :
    token ∈ tokens ∧ token.kind ≠ .endOfLine := by
  have htake := (List.mem_filter.mp h).1
  exact ⟨(List.takeWhile_sublist _).subset htake, by simpa using List.mem_takeWhile_imp htake⟩

/-- In the content of a line every token stands in front of the next one. -/
theorem content_of_scan {line : String} {tokens : List Token} (h : Token.scan line = .ok tokens) :
    (∀ token ∈ content tokens, Token.Munched line.toList token) ∧
      (content tokens).Pairwise fun first second => first.position < second.position := by
  have hdivides := Token.scanFrom_divides 0 line.toList tokens h
  obtain ⟨words, hwords, hmunched⟩ := hdivides.words [] rfl
  have hcontent : ∀ token ∈ content tokens, Token.Munched line.toList token := by
    intro token htoken
    obtain ⟨hmem, hend⟩ := content_subset htoken
    rw [hwords] at hmem
    rcases List.mem_append.mp hmem with hword | hstop
    · exact hmunched token hword
    · rw [List.mem_singleton.mp hstop] at hend
      exact absurd rfl hend
  have hsublist : (content tokens).Sublist tokens :=
    List.filter_sublist.trans (List.takeWhile_sublist _)
  refine ⟨hcontent, (hdivides.pairwise.sublist hsublist).imp_of_mem ?_⟩
  intro first second hfirst _ hstop
  have hlength : 0 < first.lexeme.length :=
    Nat.pos_of_ne_zero fun hzero =>
      (hcontent first hfirst).lexeme_ne_empty (String.length_eq_zero_iff.mp hzero)
  rw [Token.stop] at hstop
  omega

theorem exists_token {tokens : List Token} {items : List (Int × Item)} {item : Int × Item}
    (hitems : tokens.map item? = items.map some) (h : item ∈ items) :
    ∃ token ∈ tokens, item? token = some item := by
  have hmem : some item ∈ tokens.map item? := by
    rw [hitems]
    exact List.mem_map_of_mem h
  exact List.mem_map.mp hmem

/-- Items that tokens in order stand for are in order. -/
theorem pairwise_items {tokens : List Token} {items : List (Int × Item)}
    (hitems : tokens.map item? = items.map some)
    (h : tokens.Pairwise fun first second => first.position < second.position) :
    items.Pairwise fun first second => first.1 < second.1 := by
  induction tokens generalizing items with
  | nil =>
    obtain rfl : items = [] := List.map_eq_nil_iff.mp hitems.symm
    exact List.Pairwise.nil
  | cons token tokens ih =>
    cases items with
    | nil => cases hitems
    | cons item items =>
      obtain ⟨hitem, hrest⟩ := List.cons.inj hitems
      obtain ⟨hfirst, hbehind⟩ := List.pairwise_cons.mp h
      refine List.pairwise_cons.mpr ⟨fun other hother => ?_, ih hrest hbehind⟩
      obtain ⟨behind, hmem, hother⟩ := exists_token hrest hother
      rw [item?_position hitem, item?_position hother]
      exact hfirst behind hmem

/-- The tree keeps every token of a statement: its items are the tokens up to the end of
the line, without the parentheses, in the same order and at the same places. In a line
each item is what the text has at its place, and every place is behind the one before. -/
theorem statement_keeps_tokens {tokens : List Token} {a : Assignment}
    (h : statement tokens = .ok a) :
    ∃ place, (content tokens).map item? = (a.items place).map some ∧
      ∀ line, Token.scan line = .ok tokens →
        ((a.items place).Pairwise fun first second => first.1 < second.1) ∧
        ∀ item ∈ a.items place, StandsIn line.toList item := by
  obtain ⟨place, hitems⟩ := content_of_statement h
  refine ⟨place, hitems, fun line hscan => ?_⟩
  obtain ⟨hmunched, hordered⟩ := content_of_scan hscan
  refine ⟨pairwise_items hitems hordered, fun item hitem => ?_⟩
  obtain ⟨token, htoken, hitem⟩ := exists_token hitems hitem
  exact standsIn_of_munched (hmunched token htoken) hitem

/-- In ` x = -2 ^ (a++) - 1.5` the parentheses alone leave no item. -/
theorem statement_keeps_tokens_sample :
    let line := " x = -2 ^ (a++) - 1.5"
    let a : Assignment :=
      ⟨1, "x", .plain,
        .binary 16
          (.unary 5 .minus (.binary 8 (.literal 6 (.int 2)) .power
            (.stepAfter 12 .increment (.reference 11 "a"))))
          .subtract (.literal 18 (.float (Decimal.toBinary64 ⟨15, -1⟩)))⟩
    ∃ tokens, Token.scan line = .ok tokens ∧ statement tokens = .ok a ∧
      (content tokens).map Token.position = [1, 3, 5, 6, 8, 11, 12, 16, 18] ∧
      (content tokens).map item? = (a.items 3).map some ∧
      ∀ item ∈ a.items 3, StandsIn line.toList item := by
  intro line a
  let tokens : List Token :=
    [⟨.identifier, "x", 1⟩, ⟨.equal, "=", 3⟩, ⟨.minus, "-", 5⟩, ⟨.number, "2", 6⟩,
      ⟨.caret, "^", 8⟩, ⟨.leftParen, "(", 10⟩, ⟨.identifier, "a", 11⟩, ⟨.plusPlus, "++", 12⟩,
      ⟨.rightParen, ")", 14⟩, ⟨.minus, "-", 16⟩, ⟨.number, "1.5", 18⟩, ⟨.endOfLine, "", 21⟩]
  have hscan : Token.scan line = .ok tokens := by decide +kernel
  have haccepted : statement tokens = .ok a := by decide +kernel
  obtain ⟨place, hitems, hline⟩ := statement_keeps_tokens haccepted
  obtain rfl : place = 3 := by
    have hsecond := congrArg (fun items => items[1]?.map fun item => item.map Prod.fst) hitems
    exact Option.some.inj (Option.some.inj hsecond.symm)
  exact ⟨tokens, hscan, haccepted, by decide, hitems, (hline line hscan).2⟩

end Grammar

end Reckoner
