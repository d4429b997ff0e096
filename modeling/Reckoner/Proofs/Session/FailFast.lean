import Reckoner.CommandLine
import Reckoner.Proofs.Session.Passes

/-! A sheet stops at its first fault. The driver passes over the lines with nothing on
them, runs the others one after the other, and tells what happens if it is asked to. The
first line that fails decides the outcome: neither the lines behind it nor the telling
have a part in it, and the lines that are passed over only count. -/
namespace Reckoner

/-! ## The driver -/

/-- What a driver has told, and the variables it runs lines on. -/
structure Desk where
  told : List Event
  bindings : Bindings

namespace Driver

/-- Tells of an event, if it is asked to. -/
def tell {ε : Type} (debug : Bool) (event : Event) : EStateM ε Desk Unit :=
  if debug then modify fun desk => { desk with told := desk.told ++ [event] } else pure ()

/-- Goes on with what was found, or stops with the fault. -/
def take {α : Type} : Except Fault α → EStateM Fault Desk α
  | .ok a => pure a
  | .error fault => throw fault

/-- Executes a statement on the variables. -/
def execute (a : Assignment) : EStateM Fault Desk Value := fun desk =>
  match a.execute desk.bindings with
  | .ok value after => .ok value { desk with bindings := after }
  | .error fault after => .error (.eval fault) { desk with bindings := after }

/-- Scans, parses and executes a line. -/
def processLine (debug : Bool) (line : String) : EStateM Fault Desk Unit := do
  let tokens ← take ((Token.scan line).mapError .lex)
  tell debug (.scanned (tokens.length - 1))
  let a ← take ((Grammar.statement tokens).mapError .parse)
  let value ← execute a
  tell debug (.assigned a.name a.op value)

/-- Runs the lines, the first of which is `number`. A fault is raised again with its
line for the context. -/
def executeFrom (debug : Bool) (number : Nat) :
    List (Option String) → EStateM Diagnostic Desk String
  | [] => do
    tell debug (.finished (← get).bindings.size)
    return (← get).bindings.snapshot
  | none :: rest => executeFrom debug (number + 1) rest
  | some line :: rest =>
    if isBlankLine line then executeFrom debug (number + 1) rest
    else do
      tell debug (.line number line)
      (processLine debug line).adaptExcept fun fault => fault.diagnostic.inLine number line
      executeFrom debug (number + 1) rest

/-- The outcome of the lines of a sheet, run from no bindings, and what was told. -/
def executeLines (debug : Bool) (lines : List (Option String)) :
    Except Diagnostic String × List Event :=
  match executeFrom debug 1 lines ⟨[], .empty⟩ with
  | .ok text desk => (.ok text, desk.told)
  | .error diagnostic desk => (.error diagnostic, desk.told)

/-! ## What the driver does -/

open Evaluation (bind_apply)

variable {ε : Type} {debug : Bool}

/-- The events that are told of. -/
def heard (debug : Bool) (events : List Event) : List Event :=
  if debug then events else []

theorem heard_nil : heard debug [] = [] :=
  ite_self []

theorem heard_append (events others : List Event) :
    heard debug (events ++ others) = heard debug events ++ heard debug others := by
  cases debug <;> rfl

theorem adaptExcept_apply {δ α : Type} (f : ε → δ) (x : EStateM ε Desk α) (desk : Desk) :
    x.adaptExcept f desk =
      match x desk with
      | .ok a after => .ok a after
      | .error fault after => .error (f fault) after := by
  unfold EStateM.adaptExcept
  cases x desk <;> rfl

theorem tell_apply (debug : Bool) (event : Event) (desk : Desk) :
    tell debug event desk =
      (.ok () ⟨desk.told ++ heard debug [event], desk.bindings⟩ : EStateM.Result ε Desk Unit) := by
  cases debug with
  | true => rfl
  | false =>
    show EStateM.Result.ok () desk = _
    rw [heard, if_neg (by decide), List.append_nil]

/-- A line is processed as it is run, and its events are told. -/
theorem processLine_apply (debug : Bool) (line : String) (desk : Desk) :
    processLine debug line desk =
      let run := runLine line desk.bindings
      let after : Desk := ⟨desk.told ++ heard debug run.events, run.bindings⟩
      match run.outcome with
      | .ok _ => .ok () after
      | .error fault => .error fault after := by
  rw [processLine, runLine, bind_apply]
  cases Token.scan line with
  | error fault =>
    dsimp only
    rw [heard_nil, List.append_nil]
    rfl
  | ok tokens =>
    dsimp only [Except.mapError, take]
    show (tell debug _ >>= _) desk = _
    rw [bind_apply, tell_apply]
    dsimp only
    rw [bind_apply]
    cases Grammar.statement tokens with
    | error fault => rfl
    | ok a =>
      dsimp only
      show (execute a >>= _) _ = _
      rw [bind_apply, execute]
      dsimp only
      cases a.execute desk.bindings with
      | error fault after => rfl
      | ok value after =>
        dsimp only
        rw [tell_apply, List.append_assoc, ← heard_append]
        rfl

/-- The driver ends as the run of the numbered lines does, and has told its events. -/
theorem executeFrom_apply (debug : Bool) (number : Nat) (lines : List (Option String))
    (desk : Desk) :
    let run := Sheet.runFrom desk.bindings (Sheet.numbered number lines)
    ∃ after : Desk, after.told = desk.told ++ heard debug run.events ∧
      executeFrom debug number lines desk =
        match run.outcome with
        | .ok final => .ok final.snapshot after
        | .error f => .error f.diagnostic after := by
  induction lines generalizing number desk with
  | nil =>
    refine ⟨⟨desk.told ++ heard debug [.finished desk.bindings.size], desk.bindings⟩, rfl, ?_⟩
    rw [executeFrom]
    show (tell debug (.finished desk.bindings.size) >>= _) desk = _
    rw [bind_apply, tell_apply]
    rfl
  | cons line lines ih =>
    cases line with
    | none => exact ih (number + 1) desk
    | some line =>
      rw [executeFrom, Sheet.numbered]
      split
      · exact ih (number + 1) desk
      · rw [Sheet.runFrom, bind_apply, tell_apply]
        dsimp only
        rw [bind_apply, adaptExcept_apply, processLine_apply]
        dsimp only
        cases (runLine line desk.bindings).outcome with
        | error fault =>
          refine ⟨_, ?_, rfl⟩
          dsimp only
          rw [List.append_assoc, ← heard_append]
          rfl
        | ok value =>
          obtain ⟨after, htold, hrest⟩ := ih (number + 1)
            ⟨desk.told ++ heard debug [.line number line] ++
              heard debug (runLine line desk.bindings).events, (runLine line desk.bindings).bindings⟩
          refine ⟨after, ?_, hrest⟩
          rw [htold]
          dsimp only
          rw [List.append_assoc, List.append_assoc, ← heard_append, ← heard_append]
          rfl

/-- The driver has the outcome of the run of the sheet, told or not. -/
theorem executeLines_eq (debug : Bool) (lines : List (Option String)) :
    executeLines debug lines =
      ((Sheet.run lines).snapshot.mapError LineFault.diagnostic,
        heard debug (Sheet.run lines).events) := by
  obtain ⟨after, htold, hrun⟩ := executeFrom_apply debug 1 lines ⟨[], .empty⟩
  rw [List.nil_append] at htold
  rw [executeLines, hrun, Sheet.Run.snapshot, Sheet.run]
  cases (Sheet.runFrom .empty (Sheet.numbered 1 lines)).outcome with
  | ok final => exact Prod.ext rfl htold
  | error f => exact Prod.ext rfl htold

end Driver

/-- A call that evaluates a source is a run of the driver, and prints what it tells. -/
theorem CommandLine.Request.result_eq_executeLines {request : CommandLine.Request}
    (h : request.emitAst = false) (source : String) :
    let answer := Driver.executeLines request.debug (Sheet.ofSource source)
    (request.result source).1.mapError LineFault.diagnostic = answer.1 ∧
      (request.result source).2 =
        String.join (answer.2.map fun event => "[linecalc] " ++ event.message ++ "\n") := by
  dsimp only
  rw [Driver.executeLines_eq, result, h, if_neg (by decide)]
  refine ⟨rfl, ?_⟩
  cases request.debug <;> rfl

/-! ## The line that fails -/

namespace Sheet

theorem numbered_append (number : Nat) (before behind : List (Option String)) :
    numbered number (before ++ behind) =
      numbered number before ++ numbered (number + before.length) behind := by
  induction before generalizing number with
  | nil => rfl
  | cons line before ih =>
    have hnumber : number + (line :: before).length = number + 1 + before.length := by
      rw [List.length_cons, Nat.add_assoc, Nat.add_comm 1]
    rw [hnumber]
    cases line with
    | none => exact ih (number + 1)
    | some text =>
      rw [List.cons_append, numbered, numbered]
      split
      · exact ih (number + 1)
      · rw [ih, List.cons_append]

/-- A run that fails has run the lines before to their end. -/
theorem runFrom_error {bindings : Bindings} {entries : List (Nat × String)} {f : LineFault}
    (h : (runFrom bindings entries).outcome = .error f) :
    ∃ front behind middle, entries = front ++ (f.number, f.line) :: behind ∧
      (runFrom bindings front).outcome = .ok middle ∧
      (runLine f.line middle).outcome = .error f.fault := by
  induction entries generalizing bindings with
  | nil => cases h
  | cons entry entries ih =>
    obtain ⟨number, line⟩ := entry
    rw [runFrom] at h
    cases hline : (runLine line bindings).outcome with
    | error fault =>
      rw [hline] at h
      cases h
      exact ⟨[], entries, bindings, rfl, rfl, hline⟩
    | ok value =>
      rw [hline] at h
      obtain ⟨front, behind, middle, rfl, hfront, hfault⟩ := ih h
      refine ⟨(number, line) :: front, behind, middle, rfl, ?_, hfault⟩
      rw [runFrom, hline]
      exact hfront

/-- The outcomes of the same lines under other numbers: only the number differs that the
line that fails has. -/
theorem runFrom_renumbered {bindings : Bindings} {entries others : List (Nat × String)}
    (h : entries.map Prod.snd = others.map Prod.snd) :
    (∃ final, (runFrom bindings entries).outcome = .ok final ∧
        (runFrom bindings others).outcome = .ok final) ∨
      ∃ (place number other : Nat) (line : String) (fault : Fault),
        entries[place]? = some (number, line) ∧ others[place]? = some (other, line) ∧
          (runFrom bindings entries).outcome = .error ⟨fault, number, line⟩ ∧
          (runFrom bindings others).outcome = .error ⟨fault, other, line⟩ := by
  induction entries generalizing others bindings with
  | nil =>
    obtain rfl := List.map_eq_nil_iff.mp h.symm
    exact .inl ⟨bindings, rfl, rfl⟩
  | cons entry entries ih =>
    obtain ⟨number, line⟩ := entry
    obtain ⟨⟨other, text⟩, others, rfl, htext, hothers⟩ := List.map_eq_cons_iff.mp h.symm
    obtain rfl : text = line := htext
    simp only [runFrom]
    cases (runLine text bindings).outcome with
    | error fault => exact .inr ⟨0, number, other, text, fault, rfl, rfl, rfl, rfl⟩
    | ok value =>
      obtain hfinal | ⟨place, hrest⟩ := ih hothers.symm
      · exact .inl hfinal
      · exact .inr ⟨place + 1, hrest⟩

/-- No line of the sheet fails. -/
def Succeeds (lines : List (Option String)) : Prop :=
  ∀ run ∈ runLines .empty (written lines), ∃ value, run.outcome = .ok value

theorem run_ok {lines : List (Option String)} {final : Bindings}
    (h : (run lines).outcome = .ok final) :
    Succeeds lines ∧ final = bindingsAfter (written lines) := by
  have hruns := runFrom_ok h
  rw [map_numbered] at hruns
  exact hruns

/-- A line that fails behind lines that do not decides the run, whatever stands behind. -/
theorem run_stops {before : List (Option String)} {middle : Bindings} {line : String}
    {fault : Fault} (hbefore : (run before).outcome = .ok middle)
    (hblank : isBlankLine line = false) (hfault : (runLine line middle).outcome = .error fault)
    (others : List (Option String)) :
    (run (before ++ some line :: others)).outcome = .error ⟨fault, before.length + 1, line⟩ := by
  have hnumbered : numbered (1 + before.length) (some line :: others) =
      (before.length + 1, line) :: numbered (1 + before.length + 1) others := by
    rw [numbered, if_neg (by rw [hblank]; decide), Nat.add_comm 1]
  rw [run, numbered_append, runFrom_append, hnumbered]
  rw [run] at hbefore
  rw [hbefore]
  show (runFrom middle _).outcome = _
  rw [runFrom, hfault]

/-- A run that fails has come to a line that does, with none before it. -/
theorem run_error {lines : List (Option String)} {f : LineFault}
    (h : (run lines).outcome = .error f) :
    ∃ before after, lines = before ++ some f.line :: after ∧ before.length + 1 = f.number ∧
      isBlankLine f.line = false ∧ Succeeds before ∧
      (runLine f.line (bindingsAfter (written before))).outcome = .error f.fault ∧
      ∀ others, (run (before ++ some f.line :: others)).outcome = .error f := by
  obtain ⟨front, behind, middle, hsplit, hfront, hfault⟩ := runFrom_error h
  obtain ⟨before, after, hlines, hnumber, hblank, rfl⟩ := numbered_eq_append hsplit
  have hstops := run_stops hfront hblank hfault
  rw [Nat.add_comm, hnumber] at hstops
  obtain ⟨hbefore, rfl⟩ := run_ok hfront
  exact ⟨before, after, hlines, by rw [← hnumber, Nat.add_comm], hblank, hbefore, hfault, hstops⟩

end Sheet

/-! ## Its diagnostic -/

/-- The diagnostic is the other one, told of a line: of the same class, with the same
code, place, parameters and hint, and with the line behind the message. -/
structure Diagnostic.Decorates (d plain : Diagnostic) (number : Nat) (line : String) : Prop where
  phase : d.phase = plain.phase
  code : d.code = plain.code
  position : d.position = plain.position
  params : d.params = plain.params
  hint : d.hint = plain.hint
  message : d.message = plain.message ++ " (line " ++ toString number ++ ": " ++ line ++ ")"

theorem Fault.diagnostic_context (fault : Fault) : fault.diagnostic.context = none := by
  rcases fault with (_ | _ | _) | _ | (_ | _ | _ | _ | _ | _) <;> rfl

theorem Fault.decorates (fault : Fault) (number : Nat) (line : String) :
    (fault.diagnostic.inLine number line).Decorates fault.diagnostic number line := by
  have hne : "line " ++ toString (number : Int) ++ ": " ++ line ≠ "" := by
    intro h
    simpa using congrArg String.toList h
  have hcontext : (fault.diagnostic.inLine number line).contextText =
      " (" ++ ("line " ++ toString (number : Int) ++ ": " ++ line) ++ ")" := by
    unfold Diagnostic.contextText
    exact if_neg hne
  have hplain : fault.diagnostic.contextText = "" := by
    rw [Diagnostic.contextText, fault.diagnostic_context]
  have hopening : " (line " = " (" ++ "line " := rfl
  refine ⟨rfl, rfl, rfl, rfl, rfl, ?_⟩
  rw [Diagnostic.message, hcontext, Diagnostic.message, hplain, String.append_empty, hopening]
  simp only [String.append_assoc]
  rfl

namespace Driver

/-- The outcomes of two sheets that differ in nothing but the number of the line that
fails, which is the same line in both. -/
inductive Renumbered (lines others : List (Option String)) :
    Except Diagnostic String → Except Diagnostic String → Prop where
  | ok (text : String) : Renumbered lines others (.ok text) (.ok text)
  | error {place number other line} (fault : Fault) (h : Sheet.Stands lines place number line)
      (ho : Sheet.Stands others place other line) :
      Renumbered lines others (.error (fault.diagnostic.inLine number line))
        (.error (fault.diagnostic.inLine other line))

theorem executeLines_renumbered {lines others : List (Option String)}
    (h : Sheet.written others = Sheet.written lines) (debug : Bool) :
    Renumbered lines others (executeLines debug lines).1 (executeLines debug others).1 := by
  have hentries : (Sheet.numbered 1 lines).map Prod.snd = (Sheet.numbered 1 others).map Prod.snd := by
    rw [Sheet.map_numbered, Sheet.map_numbered, h]
  rw [executeLines_eq, executeLines_eq]
  dsimp only
  rw [Sheet.Run.snapshot, Sheet.Run.snapshot, Sheet.run, Sheet.run]
  rcases Sheet.runFrom_renumbered hentries with ⟨final, hlines, hothers⟩ |
    ⟨place, number, other, line, fault, hentry, hother, hlines, hothers⟩
  · rw [hlines, hothers]
    exact .ok final.snapshot
  · rw [hlines, hothers]
    exact .error fault (Sheet.stands_of_numbered hentry) (Sheet.stands_of_numbered hother)

/-- The driver stops at the first line that fails. If none does, its outcome is the
snapshot of the variables. Otherwise it is the diagnostic of the first fault, told of its
line under the number that this has among all lines, and whatever stands behind the line
has no part in it. The outcome is the same whether events are told or not; and where two
sheets have the same lines with something on them, the outcomes are the same up to the
number. -/
theorem executeLines_stops (debug : Bool) (lines : List (Option String)) :
    (Sheet.Succeeds lines ∧
        (executeLines debug lines).1 = .ok (bindingsAfter (Sheet.written lines)).snapshot ∨
      ∃ before line after fault d, lines = before ++ some line :: after ∧
        isBlankLine line = false ∧ Sheet.Succeeds before ∧
        (runLine line (bindingsAfter (Sheet.written before))).outcome = .error fault ∧
        d.Decorates fault.diagnostic (before.length + 1) line ∧
        ∀ others, (executeLines debug (before ++ some line :: others)).1 = .error d) ∧
      (∀ other, (executeLines other lines).1 = (executeLines debug lines).1) ∧
      ∀ others, Sheet.written others = Sheet.written lines →
        Renumbered lines others (executeLines debug lines).1 (executeLines debug others).1 := by
  refine ⟨?_, fun other => ?_, fun others h => executeLines_renumbered h debug⟩
  · cases houtcome : (Sheet.run lines).outcome with
    | ok final =>
      obtain ⟨hsucceeds, rfl⟩ := Sheet.run_ok houtcome
      refine .inl ⟨hsucceeds, ?_⟩
      rw [executeLines_eq, Sheet.Run.snapshot, houtcome]
      rfl
    | error f =>
      obtain ⟨before, after, hlines, hnumber, hblank, hbefore, hfault, hstops⟩ :=
        Sheet.run_error houtcome
      refine .inr ⟨before, f.line, after, f.fault, f.diagnostic, hlines, hblank, hbefore, hfault,
        ?_, fun others => ?_⟩
      · rw [hnumber]
        exact f.fault.decorates f.number f.line
      · rw [executeLines_eq, Sheet.Run.snapshot, hstops]
        rfl
  · rw [executeLines_eq, executeLines_eq]

/-- The quotient fails, and the line behind it is not looked at. In the other sheet the
line with nothing on it stands behind, so the number is less by one. -/
theorem executeLines_stops_quotient :
    let lines := [some "a = 1", none, some "b = a / 0", some "c = = 2"]
    let others := [some "a = 1", some "b = a / 0", some " ", some "c = = 2"]
    Sheet.written others = Sheet.written lines ∧
      (executeLines true lines).1.mapError Diagnostic.message =
        .error "[EvalError] EVAL_004: Division by zero (line 3: b = a / 0)" ∧
      Renumbered lines others (executeLines true lines).1 (executeLines true others).1 := by
  intro lines others
  have hwritten : Sheet.written others = Sheet.written lines := by decide
  exact ⟨hwritten, by decide +kernel, (executeLines_stops true lines).2.2 others hwritten⟩

end Driver

end Reckoner
