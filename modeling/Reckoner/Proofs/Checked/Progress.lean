import Reckoner.Proofs.Checked.Simulation
import Reckoner.Proofs.Grammar.Language

/-! The discipline of the cursor. From every place among the tokens of a line each
reading comes to an end, and on the way it looks at no place outside them. Where the
end is a tree, the cursor has gone forward over tokens none of which ends the line,
so that it is still among the tokens. Which tokens these are can be told from the
reader that the reading follows. -/
namespace Reckoner

/-! ## What the readers take -/

namespace Grammar

/-- An operator and what it joins keep clear of the end of the line. -/
theorem ne_endOfLine_join {left right : List Token} {operator : Token}
    (hl : ∀ token ∈ left, token.kind ≠ .endOfLine) (ho : operator.kind ≠ .endOfLine)
    (hr : ∀ token ∈ right, token.kind ≠ .endOfLine) :
    ∀ token ∈ left ++ operator :: right, token.kind ≠ .endOfLine :=
  List.forall_mem_append.mpr ⟨hl, List.forall_mem_cons.mpr ⟨ho, hr⟩⟩

/-- So do the phrases of all levels, whatever their numbers are. -/
theorem rules_ne_endOfLine : Rules fun _ used _ => ∀ token ∈ used, token.kind ≠ .endOfLine where
  sum hl ho hr := ne_endOfLine_join hl ho.ne_endOfLine hr
  multiplicative h := h
  product hl ho hr := ne_endOfLine_join hl ho.ne_endOfLine hr
  unary h := h
  prefixed ho h := List.forall_mem_cons.mpr ⟨ho.ne_endOfLine, h⟩
  power hb ho he := ne_endOfLine_join hb (by rw [ho]; decide) he
  stepped h := h
  step h ho := ne_endOfLine_join h ho.ne_endOfLine (by simp)
  primary h := h
  number hk _ := List.forall_mem_singleton.mpr (by rw [hk]; decide)
  name hk := List.forall_mem_singleton.mpr (by rw [hk]; decide)
  parentheses ho h hc := by
    have hopening := List.forall_mem_cons.mpr ⟨by rw [ho]; decide, h⟩
    exact ne_endOfLine_join hopening (by rw [hc]; decide) (by simp)

end Grammar

namespace Checked.Cursor

open Grammar (Answers Parsed Terminated outcome outcome_eq_ok)

variable {tokens ahead : List Token} {cursor : Nat}

/-! ## The cursor among the tokens -/

theorem At.length_eq (h : At tokens cursor ahead) : ahead.length = tokens.length - cursor := by
  rw [← h.drop_eq, List.length_drop]

theorem At.lt_length (h : At tokens cursor ahead) : cursor < tokens.length := by
  obtain ⟨token, behind, hcons⟩ := h.exists_cons
  have hlength := h.length_eq
  rw [hcons, List.length_cons] at hlength
  omega

/-- The end of the line comes last, so it is ahead from every place among the tokens. -/
theorem At.of_lt (h : Terminated tokens) (hcursor : cursor < tokens.length) :
    At tokens cursor (tokens.drop cursor) where
  drop_eq := rfl
  ahead := by
    obtain ⟨front, stop, rfl, hstop, -⟩ := h
    rw [List.length_append, List.length_singleton] at hcursor
    refine ⟨stop, ?_, hstop⟩
    rw [List.drop_append_of_le_length (by omega)]
    exact List.mem_append_right _ (List.mem_singleton_self stop)

/-! ## Where a reading ends -/

/-- The end of a reading that follows a reader with this answer: a tree comes with the
cursor at the tokens that the reader leaves. -/
def ending (tokens : List Token) (given : Except ParseFault (Node × List Token)) :
    Except Diagnostic (Node × Nat) :=
  (given.map fun taken => (taken.1, tokens.length - taken.2.length)).mapError
    ParseFault.diagnostic

theorem Follows.eq_ending {result : Option (Except Diagnostic (Node × Nat))}
    {given : Except ParseFault (Node × List Token)} (h : Follows tokens result given) :
    result = some (ending tokens given) := by
  cases given with
  | error fault => exact h
  | ok taken =>
    obtain ⟨after, hresult, hat⟩ := h
    have hafter : after = tokens.length - taken.2.length := by
      have hlength := hat.length_eq
      have hlt := hat.lt_length
      omega
    rw [hresult, hafter]
    rfl

/-- With a tree the cursor has gone forward over the tokens that the reader has taken. -/
theorem Follows.advances {given : Except ParseFault (Parsed ahead.length)} {node : Node}
    {after : Nat} (hat : At tokens cursor ahead)
    (h : Follows tokens (some (.ok (node, after))) (outcome given))
    (htakes : Answers (fun used _ => ∀ token ∈ used, token.kind ≠ .endOfLine) ahead
      (outcome given)) :
    cursor < after ∧ after < tokens.length ∧
      ∀ token ∈ ahead.take (after - cursor), token.kind ≠ .endOfLine := by
  cases hgiven : outcome given with
  | error fault =>
    rw [hgiven] at h
    cases h
  | ok taken =>
    obtain ⟨tree, rest⟩ := taken
    have hshorter := outcome_eq_ok hgiven
    rw [hgiven] at h htakes
    obtain ⟨_, hresult, hafter⟩ := h
    cases hresult
    obtain ⟨used, hused, hkinds⟩ := htakes
    have hahead := hat.length_eq
    have hrest := hafter.length_eq
    have hinside := hafter.lt_length
    have hlength : used.length = after - cursor := by
      rw [hused, List.length_append] at hahead
      omega
    refine ⟨by omega, hinside, ?_⟩
    rw [hused, ← hlength, List.take_left]
    exact hkinds

/-! ## The discipline -/

/-- From every place among the tokens the reading comes to one and the same end, however
deep the calls may go beyond six to each token ahead, and it is that of the reader. If
this is a tree, the cursor has gone forward and is still among the tokens, and no token
that it has gone past ends the line. -/
def Disciplined (tokens : List Token) (reading : Nat → Reading Node)
    (reader : (ahead : List Token) → Except ParseFault (Parsed ahead.length)) : Prop :=
  ∀ cursor < tokens.length, ∃ result : Except Diagnostic (Node × Nat),
    (∀ depth, 6 * (tokens.length - cursor) + 5 < depth →
      reading depth cursor = some result) ∧
    Follows tokens (some result) (outcome (reader (tokens.drop cursor))) ∧
    ∀ node after, result = .ok (node, after) →
      cursor < after ∧ after < tokens.length ∧
        ∀ token ∈ (tokens.drop cursor).take (after - cursor), token.kind ≠ .endOfLine

/-- A reading that follows the reader of some level is disciplined. -/
theorem disciplined_of_follows {reading : Nat → Reading Node}
    {reader : (ahead : List Token) → Except ParseFault (Parsed ahead.length)} {level : Nat}
    (hend : Terminated tokens) (hlevel : level ≤ 5)
    (hfollows : ∀ ahead cursor depth, At tokens cursor ahead →
      6 * ahead.length + level < depth →
      Follows tokens (reading depth cursor) (outcome (reader ahead)))
    (htakes : ∀ ahead, Answers (fun used _ => ∀ token ∈ used, token.kind ≠ .endOfLine) ahead
      (outcome (reader ahead))) :
    Disciplined tokens reading reader := by
  intro cursor hcursor
  have hat := At.of_lt hend hcursor
  have hdeep (depth : Nat) (hdepth : 6 * (tokens.length - cursor) + 5 < depth) :=
    hfollows _ cursor depth hat (by rw [hat.length_eq]; omega)
  -- The reader knows of no depth, so neither does the end.
  have hfollowed : Follows tokens
      (some (ending tokens (outcome (reader (tokens.drop cursor)))))
      (outcome (reader (tokens.drop cursor))) := by
    have hrun := hdeep (6 * (tokens.length - cursor) + 6) (by omega)
    rwa [hrun.eq_ending] at hrun
  refine ⟨_, fun depth hdepth => (hdeep depth hdepth).eq_ending, hfollowed, ?_⟩
  intro node after hresult
  rw [hresult] at hfollowed
  exact hfollowed.advances hat (htakes _)

/-- An expression: the loosest level. -/
def expression (tokens : List Token) : Nat → Reading Node :=
  additive tokens

/-- Where the end of the line comes last, and nowhere else, the readings of all levels
end from every place, look at no place outside the tokens, and take at least one token
for a tree and never the end of the line. -/
theorem readings_disciplined (h : Terminated tokens) :
    Disciplined tokens (expression tokens) Grammar.expression ∧
    Disciplined tokens (additive tokens) Grammar.additive ∧
    Disciplined tokens (multiplicative tokens) Grammar.multiplicative ∧
    Disciplined tokens (unary tokens) Grammar.unary ∧
    Disciplined tokens (stepped tokens) Grammar.stepped ∧
    Disciplined tokens (primary tokens) Grammar.primary := by
  obtain ⟨hadditive, -, hmultiplicative, -, hunary, -, hstepped, hprimary⟩ :=
    readings_follow tokens
  obtain ⟨tadditive, -, tmultiplicative, -, tunary, -, tstepped, tprimary⟩ :=
    Grammar.readers_take Grammar.rules_ne_endOfLine
  have hsum := disciplined_of_follows h (by decide) hadditive tadditive
  exact ⟨hsum, hsum, disciplined_of_follows h (by decide) hmultiplicative tmultiplicative,
    disciplined_of_follows h (by decide) hunary tunary,
    disciplined_of_follows h (by decide) hstepped tstepped,
    disciplined_of_follows h (by decide) hprimary tprimary⟩

/-- The tokens of `x = (a++) ^ 2`. -/
def powerTokens : List Token :=
  [⟨.identifier, "x", 0⟩, ⟨.equal, "=", 2⟩, ⟨.leftParen, "(", 4⟩, ⟨.identifier, "a", 5⟩,
    ⟨.plusPlus, "++", 6⟩, ⟨.rightParen, ")", 8⟩, ⟨.caret, "^", 10⟩, ⟨.number, "2", 12⟩,
    ⟨.endOfLine, "", 13⟩]

/-- The parentheses are entered from the middle of the line; the primary leaves the power
to the expression, which goes on up to the end of the line. -/
theorem readings_disciplined_power :
    let base := Node.stepAfter 6 .increment (.reference 5 "a")
    let power := Node.binary 10 base .power (.literal 12 (.int 2))
    Terminated powerTokens ∧
      primary powerTokens 48 2 = some (.ok (base, 6)) ∧
      (∀ token ∈ (powerTokens.drop 2).take 4, token.kind ≠ .endOfLine) ∧
      expression powerTokens 48 2 = some (.ok (power, 8)) ∧ 8 < powerTokens.length ∧
      ∀ token ∈ (powerTokens.drop 2).take 6, token.kind ≠ .endOfLine := by
  intro base power
  have hend : Terminated powerTokens :=
    ⟨powerTokens.dropLast, ⟨.endOfLine, "", 13⟩, rfl, rfl, by decide⟩
  obtain ⟨hexpression, -, -, -, -, hprimary⟩ := readings_disciplined hend
  have hbase : primary powerTokens 48 2 = some (.ok (base, 6)) := rfl
  have hpower : expression powerTokens 48 2 = some (.ok (power, 8)) := rfl
  obtain ⟨first, hfirst, -, hbefore⟩ := hprimary 2 (by decide)
  obtain ⟨second, hsecond, -, hbeyond⟩ := hexpression 2 (by decide)
  obtain rfl := Option.some.inj ((hfirst 48 (by decide)).symm.trans hbase)
  obtain rfl := Option.some.inj ((hsecond 48 (by decide)).symm.trans hpower)
  exact ⟨hend, hbase, (hbefore base 6 rfl).2.2, hpower, (hbeyond power 8 rfl).2⟩

/-- Where no token ends the line, the reading leaves the tokens. -/
example : additive [⟨.identifier, "x", 0⟩] 48 0 = none := rfl

end Checked.Cursor

end Reckoner
