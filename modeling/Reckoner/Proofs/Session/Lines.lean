import Mathlib.Data.List.Induction
import Reckoner.Proofs.Evaluation.Runs
import Reckoner.Proofs.Grammar.Language
import Reckoner.Proofs.Token.Scanned
import Reckoner.Sheet

/-! Lines one after the other. A line is parsed and then executed, and one that
does not parse changes nothing. `bindingsAfter` are the variables that a
session has reached; it goes on after lines that fail. -/
namespace Reckoner

/-! ## One line -/

theorem parseLine_eq_ok {line : String} {a : Assignment} (h : parseLine line = .ok a) :
    ∃ tokens, Token.scan line = .ok tokens ∧ Grammar.statement tokens = .ok a := by
  unfold parseLine at h
  split at h
  · cases h
  · next tokens hscan =>
    split at h
    · cases h
    · next hstatement =>
      cases h
      exact ⟨tokens, hscan, hstatement⟩

theorem Grammar.numbersWritten_of_scan {line : String} {tokens : List Token}
    (h : Token.scan line = .ok tokens) : NumbersWritten tokens :=
  fun token ht hk => ((Token.scan_ok h).2 token ht hk).1

/-- A parsed line is a statement of the grammar, and its numbers fit. -/
theorem parseLine_sentence {line : String} {a : Assignment} (h : parseLine line = .ok a) :
    ∃ tokens, Token.scan line = .ok tokens ∧ Grammar.Sentence tokens a ∧
      ∀ token ∈ tokens, Token.NumberFits token := by
  obtain ⟨tokens, hscan, hstatement⟩ := parseLine_eq_ok h
  obtain ⟨hend, hnumbers⟩ := Token.scan_ok hscan
  have hwritten := Grammar.numbersWritten_of_scan hscan
  exact ⟨tokens, hscan, Grammar.sentence_of_statement hend hwritten hstatement, hnumbers⟩

/-- The outcome of executing a statement, as that of its line. -/
def lineOutcome : EStateM.Result EvalFault Bindings Value → Except Fault Value
  | .ok value _ => .ok value
  | .error fault _ => .error (.eval fault)

theorem runLine_parsed {line : String} {a : Assignment} (h : parseLine line = .ok a)
    (bindings : Bindings) :
    (runLine line bindings).outcome = lineOutcome (a.execute bindings) ∧
      (runLine line bindings).bindings = Evaluation.after (a.execute bindings) := by
  obtain ⟨tokens, hscan, hstatement⟩ := parseLine_eq_ok h
  unfold runLine
  simp only [hscan, hstatement]
  cases a.execute bindings <;> exact ⟨rfl, rfl⟩

theorem runLine_unparsed {line : String} {fault : Fault} (h : parseLine line = .error fault)
    (bindings : Bindings) :
    (runLine line bindings).outcome = .error fault ∧
      (runLine line bindings).bindings = bindings := by
  unfold parseLine at h
  unfold runLine
  split at h
  · next hscan =>
    cases h
    exact ⟨rfl, rfl⟩
  · next tokens hscan =>
    split at h
    · next hstatement =>
      cases h
      exact ⟨rfl, rfl⟩
    · cases h

/-! ## A session -/

/-- The bindings that the last line leaves, run after the others from none. -/
def bindingsAfter (lines : List String) : Bindings :=
  ((runLines .empty lines).getLast?.map LineRun.bindings).getD .empty

theorem runLines_append (bindings : Bindings) (earlier : List String) (line : String) :
    runLines bindings (earlier ++ [line]) =
      runLines bindings earlier ++
        [runLine line (((runLines bindings earlier).getLast?.map LineRun.bindings).getD
          bindings)] := by
  induction earlier generalizing bindings with
  | nil => rfl
  | cons first earlier ih =>
    rw [List.cons_append, runLines, ih, runLines]
    cases hruns : runLines (runLine first bindings).bindings earlier with
    | nil => rfl
    | cons run runs =>
      obtain ⟨last, hlast⟩ : ∃ last, (run :: runs).getLast? = some last :=
        ⟨_, List.getLast?_eq_some_getLast (by simp)⟩
      simp [List.getLast?_cons_cons, hlast]

@[simp] theorem bindingsAfter_nil : bindingsAfter [] = .empty := rfl

theorem bindingsAfter_append (earlier : List String) (line : String) :
    bindingsAfter (earlier ++ [line]) = (runLine line (bindingsAfter earlier)).bindings := by
  rw [bindingsAfter, runLines_append]
  simp [bindingsAfter]

/-- What holds of no bindings, and is kept by every line, holds all along a session. -/
theorem bindingsAfter_induction {P : Bindings → Prop} (hempty : P .empty)
    (hline : ∀ line bindings, P bindings → P (runLine line bindings).bindings)
    (lines : List String) : P (bindingsAfter lines) := by
  induction lines using List.reverseRecOn with
  | nil => exact hempty
  | append_singleton earlier line ih =>
    rw [bindingsAfter_append]
    exact hline line _ ih

end Reckoner
