import Reckoner.Proofs.Checked.Evaluation
import Reckoner.Proofs.Checked.Simulation
import Reckoner.Proofs.Evaluation.Faults
import Reckoner.Proofs.Session.Range

/-! Sessions out of partial operations. A line is scanned by positions, read by
a cursor and evaluated with the operations that have a domain. From the
variables that a session can have every line comes to an end and has the
outcome of `runLine`: no token or character is looked up out of place, every
conversion and every division succeeds. Five of the codes are never seen. -/
namespace Reckoner

/-- The tree of a phrase is an expression all the way down. -/
theorem Grammar.Derives.isExpression {level : Level} {tokens : List Token} {node : Node}
    (h : Derives level tokens node) : node.IsExpression := by
  induction h with
  | sum _ _ _ ihl ihr | product _ _ _ ihl ihr | power _ _ _ ihl ihr => exact ⟨ihl, ihr⟩
  | multiplicative _ ih | unary _ ih | stepped _ ih | primary _ ih => exact ih
  | prefixed _ _ ih | parentheses _ _ _ ih => exact ih
  | step _ _ ih => exact ih
  | number | name => trivial

namespace Checked

/-- Scans, reads and executes a line. -/
def runLine (line : String) : Running Value := do
  let tokens ← Running.lift (scan line)
  let tree ← Running.lift (Cursor.parse tokens)
  execute tree

/-- The bindings after lines run one after the other from none. -/
def bindingsAfter (lines : List String) : Option Bindings :=
  lines.foldlM (fun bindings line => (runLine line bindings).map Prod.snd) .empty

/-- What a run of a line has done, with its fault diagnosed. -/
def report (run : LineRun) : Option (Except Diagnostic Value × Bindings) :=
  some (run.outcome.mapError Fault.diagnostic, run.bindings)

/-- A line has an outcome, the same as ever, if the variables are of the range. -/
theorem runLine_eq (line : String) {bindings : Bindings} (hb : bindings.InRange) :
    runLine line bindings = report (Reckoner.runLine line bindings) := by
  unfold runLine Reckoner.runLine
  rw [bind_apply, scan_eq]
  cases hscan : Token.scan line with
  | error fault => rfl
  | ok tokens =>
    dsimp only
    show (Running.lift (Cursor.parse tokens) >>= execute) bindings = _
    rw [bind_apply, Cursor.parse_eq (Token.scan_ok hscan).1]
    cases hstatement : Grammar.statement tokens with
    | error fault => rfl
    | ok a =>
      have hparse : parseLine line = .ok a := by
        rw [parseLine, hscan]
        dsimp only
        rw [hstatement]
      show execute a.toNode bindings = _
      rw [execute_eq (parseLine_literalsInRange hparse) hb]
      dsimp only
      cases a.execute bindings <;> rfl

/-- So has a session. -/
theorem bindingsAfter_eq (lines : List String) :
    bindingsAfter lines = some (Reckoner.bindingsAfter lines) := by
  -- From the front of the session on: each line starts from variables of the range.
  induction lines using List.reverseRecOn with
  | nil => rfl
  | append_singleton earlier line ih =>
    have hb := bindingsAfter_inRange earlier
    rw [bindingsAfter] at ih ⊢
    rw [List.foldlM_append, ih]
    show (runLine line (Reckoner.bindingsAfter earlier)).map Prod.snd >>= pure = _
    rw [runLine_eq line hb, Reckoner.bindingsAfter_append]
    rfl

/-! ## Codes -/

/-- The labels of the codes that a session can show. -/
def shownLabels : List String :=
  ["LEXER_001", "LEXER_002", "LEXER_003", "PARSE_001", "PARSE_002", "PARSE_003", "PARSE_006",
    "PARSE_007", "EVAL_003", "EVAL_004", "EVAL_006", "ENV_001"]

/-- The label that a run of a line shows, if it fails. -/
def label? (run : LineRun) : Option String :=
  match run.outcome with
  | .ok _ => none
  | .error fault => some fault.diagnostic.code.label

theorem lexFault_shown (fault : LexFault) : fault.diagnostic.code.label ∈ shownLabels := by
  cases fault <;> simp [LexFault.diagnostic, Code.label, shownLabels]

theorem parseFault_shown {fault : ParseFault} (h : fault.expected ≠ .number) :
    fault.diagnostic.code.label ∈ shownLabels := by
  rw [ParseFault.diagnostic]
  cases hexpected : fault.expected with
  | number => exact absurd hexpected h
  | name | assignment | endOfLine | closing | expression =>
    simp [Expectation.code, Code.label, shownLabels]

theorem evalFault_shown {fault : EvalFault} (h : fault.isUnsupported = false) :
    fault.diagnostic.code.label ∈ shownLabels := by
  cases fault with
  | unsupportedStatement | unsupportedExpression => cases h
  | notAssignable | divisionByZero | undefinedPower | undefinedVariable =>
    simp [EvalFault.diagnostic, Code.label, shownLabels]

/-- The fault of a line that does not parse has one of the labels. -/
theorem parseLine_shown {line : String} {fault : Fault} (h : parseLine line = .error fault) :
    fault.diagnostic.code.label ∈ shownLabels := by
  unfold parseLine at h
  split at h
  · cases h
    exact lexFault_shown _
  · next tokens hscan =>
    split at h
    · next hstatement =>
      cases h
      have hwritten := Grammar.numbersWritten_of_scan hscan
      exact parseFault_shown (Grammar.statement_fault hwritten hstatement)
    · cases h

/-- So has every fault of a line, whatever the variables are. -/
theorem runLine_shown {line : String} {bindings : Bindings} {fault : Fault}
    (h : (Reckoner.runLine line bindings).outcome = .error fault) :
    fault.diagnostic.code.label ∈ shownLabels := by
  cases hparse : parseLine line with
  | error unparsed =>
    rw [(runLine_unparsed hparse bindings).1] at h
    cases h
    exact parseLine_shown hparse
  | ok a =>
    rw [(runLine_parsed hparse bindings).1] at h
    obtain ⟨tokens, -, hsentence, -⟩ := parseLine_sentence hparse
    have hexpression : a.expression.IsExpression := by
      cases hsentence with
      | intro _ _ hbody _ => exact hbody.isExpression
    cases hrun : a.execute bindings with
    | ok value after =>
      rw [hrun] at h
      cases h
    | error cause after =>
      rw [hrun] at h
      cases h
      exact evalFault_shown (Assignment.execute_fault hexpression hrun)

/-- A line for each label, which shows it in a new session. -/
def failingLines : List (String × String) :=
  [("LEXER_001", "x = $"), ("LEXER_002", "x = 1."), ("LEXER_003", "x = 9223372036854775808"),
    ("PARSE_001", "= 5"), ("PARSE_002", "x 5"), ("PARSE_003", "x = 1 2"),
    ("PARSE_006", "x = (1"), ("PARSE_007", "x ="), ("EVAL_003", "x = 1++"),
    ("EVAL_004", "x = 1 / 0"), ("EVAL_006", "x = (-8.0) ^ 0.5"), ("ENV_001", "x = y")]

theorem label?_failingLines :
    ∀ entry ∈ failingLines, label? (Reckoner.runLine entry.2 .empty) = some entry.1 := by
  decide +kernel

/-- Every label is shown in some session. -/
theorem exists_runLine_shown {label : String} (h : label ∈ shownLabels) :
    ∃ line fault, (Reckoner.runLine line .empty).outcome = .error fault ∧
      fault.diagnostic.code.label = label := by
  rw [show shownLabels = failingLines.map Prod.fst from rfl] at h
  obtain ⟨⟨_, line⟩, hmem, rfl⟩ := List.mem_map.mp h
  have hlabel := label?_failingLines _ hmem
  unfold label? at hlabel
  split at hlabel
  · cases hlabel
  · next fault houtcome => exact ⟨line, fault, houtcome, Option.some.inj hlabel⟩

/-- All along a session no operation is used outside its domain and every line
comes to an end, with the outcome and the bindings of `runLine`. The labels of
its diagnostics are the twelve of `shownLabels`, and each of them can occur. -/
theorem session_total :
    (∀ earlier line, bindingsAfter earlier = some (Reckoner.bindingsAfter earlier) ∧
      runLine line (Reckoner.bindingsAfter earlier) =
        report (Reckoner.runLine line (Reckoner.bindingsAfter earlier))) ∧
    ∀ label, (∃ earlier line bindings diagnostic after, bindingsAfter earlier = some bindings ∧
      runLine line bindings = some (.error diagnostic, after) ∧
        diagnostic.code.label = label) ↔ label ∈ shownLabels := by
  have hrun (earlier : List String) (line : String) :=
    runLine_eq line (bindingsAfter_inRange earlier)
  refine ⟨fun earlier line => ⟨bindingsAfter_eq earlier, hrun earlier line⟩, fun label => ?_⟩
  constructor
  · rintro ⟨earlier, line, bindings, diagnostic, after, hbindings, hline, rfl⟩
    rw [bindingsAfter_eq] at hbindings
    cases hbindings
    rw [hrun, report] at hline
    cases houtcome : (Reckoner.runLine line (Reckoner.bindingsAfter earlier)).outcome with
    | ok value =>
      rw [houtcome] at hline
      cases hline
    | error fault =>
      rw [houtcome] at hline
      cases hline
      exact runLine_shown houtcome
  · intro h
    obtain ⟨line, fault, houtcome, rfl⟩ := exists_runLine_shown h
    refine ⟨[], line, .empty, fault.diagnostic, (Reckoner.runLine line .empty).bindings, rfl, ?_, rfl⟩
    rw [runLine_eq line Bindings.inRange_empty, report, houtcome]
    rfl

end Checked

end Reckoner
