import Reckoner.CommandLine.Arguments
import Reckoner.Sheet

/-!
The command: it reads a source from a file or from standard input, and writes the
result to standard output or to a file. All that a call does is a function of the
arguments, the standard input and the files. A call that does not succeed writes
no result and changes no file.
-/
namespace Reckoner.CommandLine

/-! ## Texts -/

/-- The line that shows how the command is called. -/
def usage : String :=
  "usage: linecalc [-h] [-o OUTPUT] [--debug] [--emit-ast] [input]\n"

/-- The answer to a request for help. -/
def helpText : String :=
  usage ++ "\n" ++ "\n".intercalate [
    "Evaluate one assignment per line and print the final variables",
    "",
    "positional arguments:",
    "  input                 Path to the source file (default: read lines from",
    "                        stdin)",
    "",
    "options:",
    "  -h, --help            show this help message and exit",
    "  -o OUTPUT, --output OUTPUT",
    "                        Write the result to this file instead of stdout",
    "  --debug               Print per-line processing info to stderr",
    "  --emit-ast            Emit the parsed statements as JSON instead of",
    "                        evaluating them",
    ""]

/-- The message for a diagnostic, with its hint. -/
def diagnosticText (d : Diagnostic) : String :=
  d.message ++ "\n  Hint: " ++ d.hint ++ "\n"

/-- The message for an input file that does not exist. -/
def missingText (name : String) : String :=
  "[linecalc] Error: Input file not found: " ++ Text.quoted name ++ "\n"

/-! ## A call -/

/-- What a call answers: its exit code, its two streams, and the file it writes,
with the new content. -/
structure Answer where
  exit : Nat
  stdout : String := ""
  stderr : String := ""
  written : Option (String × String) := none
deriving DecidableEq

/-- The answer to arguments that make no request. -/
def Stop.answer : Stop → Answer
  | .help => { exit := 0, stdout := helpText }
  | .refused message =>
    { exit := 2, stderr := usage ++ "linecalc: error: " ++ message ++ "\n" }

namespace Request

/-- The file to read; an empty name means standard input. -/
def inputFile (request : Request) : Option String :=
  request.input.filter (· ≠ "")

/-- The file to write; an empty name means standard output. -/
def outputFile (request : Request) : Option String :=
  request.output.filter (· ≠ "")

/-- The result of a source and the log of its run. The log is kept only on demand,
and a dump of the statements runs nothing. -/
def result (request : Request) (source : String) : Except LineFault String × String :=
  let lines := Sheet.ofSource source
  if request.emitAst then (Sheet.dump lines, "")
  else
    let run := Sheet.run lines
    (run.snapshot, if request.debug then run.log else "")

/-- The answer to a request with the given source. -/
def answer (request : Request) (source : String) : Answer :=
  let (outcome, log) := request.result source
  match outcome with
  | .error fault => { exit := 1, stderr := log ++ diagnosticText fault.diagnostic }
  | .ok result =>
    match request.outputFile with
    | none => { exit := 0, stdout := result ++ "\n", stderr := log }
    | some name => { exit := 0, stderr := log, written := some (name, result ++ "\n") }

end Request

/-! ## A call among files -/

/-- Files by name. -/
abbrev Files := List (String × String)

/-- The name of a file without the steps that stay in the same folder: `./a`, `.//a`
and `a` name one file. An absolute name is left as it is. -/
def resolve (name : String) : String :=
  if name.toList.head? = some '/' then name
  else
    let parts := name.splitOn "/"
    let folders := parts.dropLast.filter fun part => part ≠ "" && part ≠ "."
    "/".intercalate (folders ++ parts.getLast?.toList)

/-- The content of a file. -/
def Files.read? (files : Files) (name : String) : Option String :=
  files.lookup (resolve name)

/-- The files after one of them has been replaced, or added at the end. -/
def Files.put (name content : String) : Files → Files
  | [] => [(name, content)]
  | (n, c) :: rest =>
    if n = name then (n, content) :: rest else (n, c) :: Files.put name content rest

/-- The files after one has been written. -/
def Files.write (files : Files) (name content : String) : Files :=
  files.put (resolve name) content

/-- The answer to a call, given its standard input and the files it can read. -/
def answer (arguments : List String) (stdin : String) (files : Files) : Answer :=
  match readArguments arguments with
  | .error stop => stop.answer
  | .ok request =>
    match request.inputFile with
    | none => request.answer stdin
    | some name =>
      match files.read? name with
      | some source => request.answer source
      | none => { exit := 1, stderr := missingText name }

/-- The files after an answer. -/
def Answer.filesAfter (a : Answer) (files : Files) : Files :=
  match a.written with
  | none => files
  | some (name, content) => files.write name content

end Reckoner.CommandLine
