import Reckoner.Character.Blank
import Reckoner.Diagnostic
import Reckoner.Evaluation
import Reckoner.Grammar
import Reckoner.Node.Document
import Reckoner.Snapshot
import Reckoner.Token.Scan

/-!
Lines and sheets. A single line can be run by itself, or after others on the same
bindings. A sheet is the lines of a source: it is run or parsed line by line up to
the first fault. Its blank and absent lines are passed over but counted, so a fault
is reported with the number its line has in the source. A run also tells what
happened, as a list of events.
-/
namespace Reckoner

/-! ## One line -/

/-- What happens during a run. -/
inductive Event where
  | line (number : Nat) (text : String)
  | scanned (tokens : Nat)
  | assigned (name : String) (op : AssignOp) (value : Value)
  | finished (bound : Nat)
deriving DecidableEq

/-- The message of an event. What happens within a line is indented. -/
def Event.message : Event → String
  | .line number text => "Line " ++ toString number ++ ": " ++ text
  | .scanned tokens => "  " ++ toString tokens ++ " tokens produced"
  | .assigned name op value => "  " ++ name ++ " " ++ op.symbol ++ " -> " ++ value.text
  | .finished bound => toString bound ++ " variables bound"

/-- The tokens of a line and the statement they form. -/
def parseLine (line : String) : Except Fault Assignment :=
  match Token.scan line with
  | .error fault => .error (.lex fault)
  | .ok tokens =>
    match Grammar.statement tokens with
    | .error fault => .error (.parse fault)
    | .ok assignment => .ok assignment

/-- What running a line did. -/
structure LineRun where
  events : List Event
  outcome : Except Fault Value
  bindings : Bindings

/-- Runs a line. The end of the line is not counted among its tokens. -/
def runLine (line : String) (bindings : Bindings) : LineRun :=
  match Token.scan line with
  | .error fault => ⟨[], .error (.lex fault), bindings⟩
  | .ok tokens =>
    let scanned := Event.scanned (tokens.length - 1)
    match Grammar.statement tokens with
    | .error fault => ⟨[scanned], .error (.parse fault), bindings⟩
    | .ok assignment =>
      match assignment.execute bindings with
      | .error fault bindings => ⟨[scanned], .error (.eval fault), bindings⟩
      | .ok value bindings =>
        ⟨[scanned, .assigned assignment.name assignment.op value], .ok value, bindings⟩

/-- Runs lines one after the other, each from the bindings that the one before it
left, whether that one failed or not. -/
def runLines (bindings : Bindings) : List String → List LineRun
  | [] => []
  | line :: rest =>
    let run := runLine line bindings
    run :: runLines run.bindings rest

/-! ## Lines in order -/

/-- A fault with the line it was found in. -/
structure LineFault where
  fault : Fault
  number : Nat
  line : String
deriving DecidableEq

/-- The diagnostic of a fault, with its line for the context. -/
def LineFault.diagnostic (f : LineFault) : Diagnostic :=
  f.fault.diagnostic.inLine f.number f.line

/-- A line with nothing but white space. -/
def isBlankLine (line : String) : Bool :=
  line.toList.all Character.isBlank

namespace Sheet

/-- The lines with something on them, each with its number, the first of them
`number`. -/
def numbered (number : Nat) : List (Option String) → List (Nat × String)
  | [] => []
  | none :: rest => numbered (number + 1) rest
  | some line :: rest =>
    if isBlankLine line then numbered (number + 1) rest
    else (number, line) :: numbered (number + 1) rest

/-- The statements of numbered lines, or the first fault. -/
def parseFrom : List (Nat × String) → Except LineFault (List Assignment)
  | [] => .ok []
  | (number, line) :: rest =>
    match parseLine line with
    | .error fault => .error ⟨fault, number, line⟩
    | .ok assignment => return assignment :: (← parseFrom rest)

/-- What running a sheet did: the events, and the final bindings or the first
fault. -/
structure Run where
  events : List Event
  outcome : Except LineFault Bindings

/-- Runs numbered lines one after the other. -/
def runFrom (bindings : Bindings) : List (Nat × String) → Run
  | [] => ⟨[.finished bindings.size], .ok bindings⟩
  | (number, line) :: rest =>
    let run := runLine line bindings
    let events := Event.line number line :: run.events
    match run.outcome with
    | .error fault => ⟨events, .error ⟨fault, number, line⟩⟩
    | .ok _ =>
      let others := runFrom run.bindings rest
      ⟨events ++ others.events, others.outcome⟩

/-- The statements of a sheet. -/
def parse (lines : List (Option String)) : Except LineFault (List Assignment) :=
  parseFrom (numbered 1 lines)

/-- Runs a sheet from no bindings. -/
def run (lines : List (Option String)) : Run :=
  runFrom .empty (numbered 1 lines)

/-! ## Results -/

/-- The snapshot of the variables after a run. -/
def Run.snapshot (run : Run) : Except LineFault String :=
  run.outcome.map Bindings.snapshot

/-- The events as lines of a log, each under the name of the program. -/
def Run.log (run : Run) : String :=
  String.join (run.events.map fun event => "[linecalc] " ++ event.message ++ "\n")

/-- The text of the statements of a sheet. -/
def dump (lines : List (Option String)) : Except LineFault String :=
  (parse lines).map fun assignments => Node.dump (assignments.map Assignment.toNode)

/-! ## Source text -/

/-- The lines of a text, without the characters that end them. A carriage return
with a line feed behind it ends one line. -/
def splitChars : List Char → List (List Char)
  | [] => []
  | '\r' :: '\n' :: rest => [] :: splitChars rest
  | c :: rest =>
    if Character.isLineBreak c then [] :: splitChars rest
    else
      match splitChars rest with
      | [] => [[c]]
      | line :: lines => (c :: line) :: lines

/-- The lines of a source text. -/
def ofSource (source : String) : List (Option String) :=
  (splitChars source.toList).map fun cs => some (String.ofList cs)

end Sheet

end Reckoner
