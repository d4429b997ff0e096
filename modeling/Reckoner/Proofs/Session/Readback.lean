import Reckoner.Proofs.Session.Compound
import Reckoner.Proofs.Token.Faults
import Reckoner.Proofs.Value.Literal

/-! Values that are printed and read again. The text of a value, behind a name and an
equals sign, is a line that binds the name to this value: the kind and the sign are those
of the value, and so is every bit of a float. The one exception is the smallest integer,
whose magnitude is no literal. -/
namespace Reckoner

open Grammar (Derives Sentence)

/-! ## Tokens -/

namespace Token

/-- The token of a minus sign, if there is one. -/
def signTokens (negative : Bool) (place : Nat) : List Token :=
  if negative then [⟨.minus, "-", place⟩] else []

/-- A sign in front of a number is a token of its own. -/
theorem scanFrom_sign {literal : List Char} (h : Numeral.IsLexeme literal) (negative : Bool) (place : Nat) :
    ∃ start, scanFrom place (Binary64.signChars negative ++ literal) =
      (scanFrom start literal).map (signTokens negative place ++ ·) := by
  cases negative with
  | false =>
    refine ⟨place, ?_⟩
    show scanFrom place literal = _
    cases scanFrom place literal <;> rfl
  | true =>
    have hminus : Lexeme .minus ['-'] := .symbol rfl
    refine ⟨place + 1, scanFrom_front place (hminus.longest?_append fun c hc hgoes => ?_) (by decide)⟩
    -- No digit makes a longer operator of a minus.
    obtain ⟨d, ds, rfl, hdigit⟩ := head_of_number h
    obtain rfl := Option.some.inj hc
    have hkind := (hminus.goesOn_digit_iff hdigit).mp hgoes
    revert hkind
    decide

end Token

/-! ## Statements -/

/-- A number, with or without a minus in front of it, is an expression of its value. -/
theorem Grammar.exists_signed {literal : List Char} {w : Value}
    (h : Numeral.Denotes literal w) (negative : Bool) (place start : Nat) :
    ∃ node, Derives .additive
        (Token.signTokens negative place ++ [⟨.number, String.ofList literal, start⟩]) node ∧
      ∀ bindings, node.evaluate bindings = .ok (w.signed negative) bindings := by
  have hnumber : Derives .primary [⟨.number, String.ofList literal, start⟩] (.literal start w) :=
    .number rfl (by rwa [String.toList_ofList])
  have hoperand : Derives .unary _ (.literal start w) := .stepped (.primary hnumber)
  cases negative with
  | false => exact ⟨.literal start w, .multiplicative (.unary hoperand), fun _ => rfl⟩
  | true =>
    have hminus : Grammar.Prefixes (⟨.minus, "-", place⟩ : Token).kind .minus := .minus
    refine ⟨.unary place .minus (.literal start w),
      .multiplicative (.unary (.prefixed hminus hoperand)), fun bindings => ?_⟩
    rw [Node.evaluate_minus, Node.evaluate_literal]
    rfl

/-! ## Lines -/

/-- The line `x = v`, with the text of the value behind the equals sign. -/
def valueLine (name : String) (v : Value) : String :=
  name ++ " = " ++ v.text

theorem toList_valueLine (name : String) (v : Value) :
    (valueLine name v).toList = name.toList ++ ' ' :: (['='] ++ ' ' :: v.chars) := by
  simp [valueLine, Value.text]

variable {name : String} {v : Value}

/-- The tokens of the line: the name, the equals sign, and those of the text. -/
theorem scan_valueLine (hname : Token.Lexeme .identifier name.toList) (v : Value) :
    ∃ (target equal place : Nat), Token.scan (valueLine name v) =
      (Token.scanFrom place v.chars).map
        (⟨.identifier, name, target⟩ :: ⟨.equal, "=", equal⟩ :: ·) := by
  have hequal : Token.Lexeme .equal ['='] := .symbol rfl
  rw [Token.scan, toList_valueLine, hname.scanFrom_spaced (by decide),
    hequal.scanFrom_spaced (by decide), String.ofList_toList]
  generalize 0 + name.toList.length + 1 = equal
  refine ⟨0, equal, equal + ['='].length + 1, ?_⟩
  cases Token.scanFrom (equal + ['='].length + 1) v.chars <;> rfl

/-- What the line does: it binds the value, or its literal is too large. -/
theorem parseLine_valueLine (hname : Token.Lexeme .identifier name.toList) (hv : v.IsWritten) :
    if v = Value.smallest then
      parseLine (valueLine name v) =
        .error (.lex (.literalTooLarge .integer "9223372036854775808"))
    else
      ∃ a, parseLine (valueLine name v) = .ok a ∧ a.name = name ∧ a.op = .plain ∧
        ∀ bindings, a.expression.evaluate bindings = .ok v bindings := by
  obtain ⟨negative, literal, w, htext, hvalue, hsigned, hfault⟩ := Value.exists_literal hv
  obtain ⟨target, equal, place, hscan⟩ := scan_valueLine hname v
  have hlexeme : Numeral.IsLexeme literal := hvalue.isLexeme
  obtain ⟨start, hsign⟩ := Token.scanFrom_sign hlexeme negative place
  rw [htext, hsign, Token.scanFrom_number hlexeme, hfault] at hscan
  split
  · next hsmallest =>
    rw [if_pos hsmallest] at hscan
    rw [parseLine, hscan]
    rfl
  · next hother =>
    rw [if_neg hother] at hscan
    obtain ⟨node, hderives, hevaluate⟩ := Grammar.exists_signed hvalue negative place start
    have hsentence : Sentence (⟨.identifier, name, target⟩ :: ⟨.equal, "=", equal⟩ ::
        (Token.signTokens negative place ++ [⟨.number, String.ofList literal, start⟩]) ++
          [⟨.endOfLine, "", (start + literal.length : Nat)⟩])
        ⟨target, name, .plain, node⟩ :=
      .intro rfl .equal hderives rfl
    refine ⟨⟨target, name, .plain, node⟩, ?_, rfl, rfl, fun bindings => ?_⟩
    · have hstatement := hsentence.statement
      simp only [List.append_assoc, List.cons_append, List.nil_append] at hstatement
      rw [parseLine, hscan]
      dsimp only [Except.map]
      rw [hstatement]
    · rw [hevaluate, hsigned]

/-- A printed value reads back. The line with its text binds the name to the value, of
the same kind and the same float to the bit, and succeeds with it; the other names keep
theirs. For the smallest integer alone the line fails, since its magnitude is too large
for a literal. -/
theorem runLine_valueLine (hname : Token.Lexeme .identifier name.toList) (hv : v.IsWritten)
    (bindings : Bindings) :
    (v ≠ Value.smallest →
      (runLine (valueLine name v) bindings).outcome = .ok v ∧
        (runLine (valueLine name v) bindings).bindings = bindings.set name v ∧
        (runLine (valueLine name v) bindings).bindings.get? name = some v ∧
        ∀ other ≠ name, (runLine (valueLine name v) bindings).bindings.get? other =
          bindings.get? other) ∧
    (v = Value.smallest →
      (runLine (valueLine name v) bindings).outcome =
          .error (.lex (.literalTooLarge .integer "9223372036854775808")) ∧
        (runLine (valueLine name v) bindings).bindings = bindings) := by
  have hparse := parseLine_valueLine hname hv
  constructor
  · intro hother
    rw [if_neg hother] at hparse
    obtain ⟨a, hparse, rfl, hop, hevaluate⟩ := hparse
    have hexecute : a.execute bindings = .ok v (bindings.set a.name v) := by
      rw [Assignment.execute_plain hop, hevaluate]
    obtain ⟨houtcome, hbindings⟩ := runLine_parsed hparse bindings
    rw [hexecute] at houtcome hbindings
    refine ⟨houtcome, hbindings, ?_, fun other hother => ?_⟩
    · rw [hbindings, Evaluation.after_ok, Bindings.get?_set, if_pos rfl]
    · rw [hbindings, Evaluation.after_ok, Bindings.get?_set, if_neg hother.symm]
  · intro hsmallest
    rw [if_pos hsmallest] at hparse
    exact runLine_unparsed hparse bindings

/-- The float nearest to -0.1 is read back from its text, and the smallest integer is
not. -/
theorem runLine_valueLine_tenth :
    let tenth := Value.float (.finite true ⟨0x3FB999999999999A, by decide⟩)
    valueLine "y" tenth = "y = -0.1" ∧
      (runLine "y = -0.1" .empty).outcome = .ok tenth ∧
      (runLine "y = -0.1" .empty).bindings = Bindings.empty.set "y" tenth ∧
      (runLine "y = -0.1" .empty).bindings.get? "y" = some tenth ∧
      valueLine "y" Value.smallest = "y = -9223372036854775808" ∧
      (runLine "y = -9223372036854775808" .empty).outcome =
        .error (.lex (.literalTooLarge .integer "9223372036854775808")) := by
  intro tenth
  have hname : Token.Lexeme .identifier "y".toList :=
    .identifier (by decide) (List.forall_mem_singleton.mpr (by decide))
  have htenth : tenth.IsWritten := ⟨rfl, by decide +kernel⟩
  have hsmallest : Value.smallest.IsWritten := by
    rw [Value.smallest_eq, Value.IsWritten, Value.inRange_int]
    decide
  have hline : valueLine "y" tenth = "y = -0.1" := by decide +kernel
  have hline' : valueLine "y" Value.smallest = "y = -9223372036854775808" := by decide +kernel
  obtain ⟨houtcome, hbindings, hbound, -⟩ := (runLine_valueLine hname htenth .empty).1 (by decide)
  have hfails := ((runLine_valueLine hname hsmallest .empty).2 rfl).1
  rw [hline] at houtcome hbindings hbound
  rw [hline'] at hfails
  exact ⟨hline, houtcome, hbindings, hbound, hline', hfails⟩

end Reckoner
