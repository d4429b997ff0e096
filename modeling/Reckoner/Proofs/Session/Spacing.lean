import Reckoner.Proofs.Grammar.Automaton
import Reckoner.Proofs.Session.Compound
import Reckoner.Proofs.Token.Spacing

/-! White space in a line. Between its tokens a line may have more of it without a change
in what it means: the tokens move, and with them the place of a fault. What a statement
says and what a run of it does depend on no place. -/
namespace Reckoner

/-! ## Moved tokens -/

namespace Grammar

open Automaton

variable {tokens : List Token} {fault : ParseFault}

/-- The verdict with the place of the token that is rejected moved. -/
def Automaton.Verdict.relocate (place : Int → Int) : Verdict → Verdict
  | .accepted => .accepted
  | .rejected code position => .rejected code (place position)

/-- The automaton decides about kinds, and reports a place. -/
theorem run_relocate (place : Int → Int) (state : State) (tokens : List Token) :
    run state (tokens.map (Token.relocate place)) =
      (run state tokens).map (Verdict.relocate place) := by
  induction tokens generalizing state with
  | nil => rfl
  | cons token tokens ih =>
    have hkind : (Token.relocate place token).kind = token.kind := rfl
    rw [List.map_cons, run, run, hkind]
    cases move state token.kind with
    | go next => exact ih next
    | accept | reject => rfl

theorem Readable.relocate (hr : Readable tokens) (place : Int → Int) :
    Readable (tokens.map (Token.relocate place)) := by
  obtain ⟨⟨stop, hmem, hstop⟩, hnumbers⟩ := hr
  refine ⟨⟨_, List.mem_map_of_mem hmem, hstop⟩, ?_⟩
  intro moved hmoved hk
  obtain ⟨token, htoken, rfl⟩ := List.mem_map.mp hmoved
  obtain ⟨value, hvalue⟩ := hnumbers token htoken hk
  -- The lexeme alone decides, and it is the same.
  have hlexeme := numberOf_eq_ok_iff.mp hvalue
  exact ⟨value, numberOf_eq_ok_iff.mpr hlexeme⟩

theorem code_injective : Function.Injective Expectation.code := by
  intro expected other h
  cases expected <;> cases other <;> first | rfl | cases h

/-- Tokens that are no statement are none at other places either, and the fault is found
at the same token. -/
theorem statement_relocate_error (hr : Readable tokens) (h : statement tokens = .error fault)
    (place : Int → Int) :
    statement (tokens.map (Token.relocate place)) =
      .error ⟨fault.expected, place fault.position⟩ := by
  have hrun := run_start hr
  have hmoved := run_start (hr.relocate place)
  rw [run_relocate, hrun, h] at hmoved
  cases hstatement : statement (tokens.map (Token.relocate place)) with
  | ok a =>
    rw [hstatement] at hmoved
    cases hmoved
  | error other =>
    rw [hstatement] at hmoved
    obtain ⟨hcode, hposition⟩ := Verdict.rejected.inj (Option.some.inj hmoved)
    obtain ⟨expected, position⟩ := other
    rw [code_injective hcode, hposition]

theorem readable_of_scan {line : String} (h : Token.scan line = .ok tokens) :
    Readable tokens := by
  have hwritten := numbersWritten_of_scan h
  obtain ⟨⟨front, stop, rfl, hstop, -⟩, -⟩ := Token.scan_ok h
  refine ⟨⟨stop, by simp, hstop⟩, fun token htoken hk => ?_⟩
  obtain ⟨value, hvalue⟩ := (hwritten token htoken hk).denotes
  exact ⟨value, numberOf_denotes hvalue⟩

end Grammar

/-! ## Lines -/

/-- A statement with the same words up to places runs alike. -/
theorem Assignment.execute_eq_of_unplaced {a b : Assignment} (h : b.unplaced = a.unplaced) :
    b.execute = a.execute := by
  rw [← b.execute_unplaced, h, a.execute_unplaced]

variable {line wider : String} {tokens : List Token} {place : Int → Int}

/-- A line with the tokens of another one at other places is the same statement. -/
theorem parseLine_relocated (hscan : Token.scan line = .ok tokens)
    (hwider : Token.scan wider = .ok (tokens.map (Token.relocate place))) {a : Assignment}
    (h : parseLine line = .ok a) :
    ∃ b, parseLine wider = .ok b ∧ b.unplaced = a.unplaced := by
  obtain ⟨others, hothers, hsentence, -⟩ := parseLine_sentence h
  obtain rfl : others = tokens := Except.ok.inj (hothers.symm.trans hscan)
  exact parseLine_of_words hwider hsentence (Token.map_word_relocate place others)

/-- Or it has the same fault, at the place that the token has there. -/
theorem parseLine_relocated_error (hscan : Token.scan line = .ok tokens)
    (hwider : Token.scan wider = .ok (tokens.map (Token.relocate place))) {fault : Fault}
    (h : parseLine line = .error fault) :
    ∃ expected position, fault = .parse ⟨expected, position⟩ ∧
      parseLine wider = .error (.parse ⟨expected, place position⟩) := by
  cases hstatement : Grammar.statement tokens with
  | ok a =>
    simp [parseLine, hscan, hstatement] at h
  | error parseFault =>
    have hmoved := Grammar.statement_relocate_error (Grammar.readable_of_scan hscan) hstatement place
    simp only [parseLine, hscan, hstatement, Except.error.injEq] at h
    refine ⟨parseFault.expected, parseFault.position, h.symm, ?_⟩
    simp only [parseLine, hwider, hmoved]

/-- White space may be put in anywhere between the tokens of a line, in front of them and
behind them. The tokens stay the same; those in front of it stay in their places, and
those behind it move by its length, the end of the line among them. The line is the same
statement up to places, and a run of it from any bindings ends in the same value or fault
and leaves the same bindings; or it has a fault with the same code, which moves with its
token. -/
theorem line_insert_gap {front gap behind : String}
    (hscan : Token.scan (front ++ behind) = .ok tokens)
    (hapart : Token.Apart front.length tokens)
    (hgap : ∀ c ∈ gap.toList, Character.isGap c = true) :
    Token.scan (front ++ gap ++ behind) =
      .ok (tokens.map (Token.relocate (Token.displaced front.length gap.length))) ∧
    (∀ a, parseLine (front ++ behind) = .ok a →
      ∃ b, parseLine (front ++ gap ++ behind) = .ok b ∧ b.unplaced = a.unplaced ∧
        ∀ bindings, b.execute bindings = a.execute bindings) ∧
    (∀ fault, parseLine (front ++ behind) = .error fault →
      ∃ other, parseLine (front ++ gap ++ behind) = .error other ∧
        other.diagnostic.code = fault.diagnostic.code ∧
        other.diagnostic.position =
          fault.diagnostic.position.map (Token.displaced front.length gap.length)) := by
  have hwider := Token.scan_insert hscan hapart hgap
  refine ⟨hwider, fun a ha => ?_, fun fault hfault => ?_⟩
  · obtain ⟨b, hb, hplaces⟩ := parseLine_relocated hscan hwider ha
    exact ⟨b, hb, hplaces, fun bindings => by rw [Assignment.execute_eq_of_unplaced hplaces]⟩
  · obtain ⟨expected, position, rfl, hother⟩ := parseLine_relocated_error hscan hwider hfault
    exact ⟨_, hother, rfl, rfl⟩

/-- In `x=a+++b` nothing is between the step and the plus sign. A tab and a space there
move the sign and what is behind it. -/
theorem line_insert_gap_sample :
    let bindings := Bindings.ofList [("a", .int 5), ("b", .int 7)]
    Token.scan ("x=a++" ++ "\t " ++ "+b") =
      .ok [⟨.identifier, "x", 0⟩, ⟨.equal, "=", 1⟩, ⟨.identifier, "a", 2⟩,
        ⟨.plusPlus, "++", 3⟩, ⟨.plus, "+", 7⟩, ⟨.identifier, "b", 8⟩, ⟨.endOfLine, "", 9⟩] ∧
      ∃ b, parseLine ("x=a++" ++ "\t " ++ "+b") = .ok b ∧
        ∃ after, b.execute bindings = .ok (.int 12) after ∧
          after.get? "a" = some (.int 6) := by
  intro bindings
  let tokens : List Token :=
    [⟨.identifier, "x", 0⟩, ⟨.equal, "=", 1⟩, ⟨.identifier, "a", 2⟩, ⟨.plusPlus, "++", 3⟩,
      ⟨.plus, "+", 5⟩, ⟨.identifier, "b", 6⟩, ⟨.endOfLine, "", 7⟩]
  let a : Assignment :=
    ⟨0, "x", .plain,
      .binary 5 (.stepAfter 3 .increment (.reference 2 "a")) .add (.reference 6 "b")⟩
  have hscan : Token.scan ("x=a++" ++ "+b") = .ok tokens := by decide +kernel
  have hparse : parseLine ("x=a++" ++ "+b") = .ok a := by decide +kernel
  have hapart : Token.Apart "x=a++".length tokens := by
    unfold Token.Apart
    decide
  have hgap : "\t ".toList.all Character.isGap = true := by decide
  obtain ⟨hwider, hsame, -⟩ := line_insert_gap hscan hapart (List.all_eq_true.mp hgap)
  obtain ⟨b, hb, -, hexecute⟩ := hsame a hparse
  refine ⟨hwider, b, hb, ?_⟩
  rw [hexecute bindings]
  exact ⟨_, rfl, rfl⟩

end Reckoner
