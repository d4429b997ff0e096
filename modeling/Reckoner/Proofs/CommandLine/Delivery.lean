import Reckoner.CommandLine
import Reckoner.Proofs.CommandLine.Debugging
import Reckoner.Proofs.Evaluation.Runs

/-! Where the result of a call goes. A call that fails leaves standard output empty and
all files as they are; one that succeeds puts its result in one place, standard output or
the file that the request names. The source is read before anything is written, so a file
may be replaced by the result of its own content. A step-by-step account of a call, in
which the output file is emptied before it is filled, ends in the same. -/
namespace Reckoner.CommandLine

/-! ## Files -/

/-- The answers differ in nothing but what is written to standard error. -/
structure AlikeButStderr (a b : Answer) : Prop where
  exit : a.exit = b.exit
  stdout : a.stdout = b.stdout
  written : a.written = b.written

theorem AlikeButStderr.symm {a b : Answer} (h : AlikeButStderr a b) : AlikeButStderr b a :=
  ⟨h.exit.symm, h.stdout.symm, h.written.symm⟩

theorem AlikeButStderr.trans {a b c : Answer} (h : AlikeButStderr a b) (h' : AlikeButStderr b c) :
    AlikeButStderr a c :=
  ⟨h.exit.trans h'.exit, h.stdout.trans h'.stdout, h.written.trans h'.written⟩

namespace Request

variable (request : Request) (source : String)

/-- The answer to a request, by what it results in. -/
theorem answer_eq : request.answer source =
    match (request.result source).1 with
    | .error fault =>
      { exit := 1, stderr := (request.result source).2 ++ diagnosticText fault.diagnostic }
    | .ok result =>
      match request.outputFile with
      | none => { exit := 0, stdout := result ++ "\n", stderr := (request.result source).2 }
      | some name =>
        { exit := 0, stderr := (request.result source).2, written := some (name, result ++ "\n") } :=
  rfl

/-- The source of the request, if it can be read. -/
def source? (stdin : String) (files : Files) : Option String :=
  match request.inputFile with
  | none => some stdin
  | some name => files.read? name

end Request

variable {arguments : List String} {request : Request}

/-- The arguments make the request, its source can be read, and this is its result. -/
def Succeeds (arguments : List String) (stdin : String) (files : Files) (request : Request)
    (result : String) : Prop :=
  readArguments arguments = .ok request ∧
    ∃ source, request.source? stdin files = some source ∧ (request.result source).1 = .ok result

/-- The call ends with an error, with nothing on standard output and no file written. -/
structure Fails (a : Answer) : Prop where
  exit : a.exit ≠ 0
  stdout : a.stdout = ""
  written : a.written = none

theorem Fails.filesAfter {a : Answer} (h : Fails a) (files : Files) : a.filesAfter files = files := by
  rw [Answer.filesAfter, h.written]

namespace Request

variable {source result : String}

end Request

variable {stdin : String} {files : Files}

/-- What a call acts on: the files, and its two streams. -/
structure Console where
  files : Files
  stdout : String := ""
  stderr : String := ""

/-- What a call does step by step. It may end early, with an exit code. -/
abbrev Process := EStateM Nat Console

namespace Process

/-- Writes behind what a file has. -/
def append (name text : String) : Process Unit :=
  modify fun console =>
    { console with
      files := console.files.write name ((console.files.read? name).getD "" ++ text) }

/-- The exit code and what there is in the end. -/
def ended : EStateM.Result Nat Console Unit → Nat × Console
  | .ok _ console => (0, console)
  | .error exit console => (exit, console)

end Process

/-- A program that is replaced by its result. -/
example :
    let files : Files := [("/prog.calc", "x = 2 ^ 3 ^ 2\n"), ("/notes", "keep")]
    (answer ["/prog.calc", "-o", "/prog.calc"] "" files).filesAfter files =
      [("/prog.calc", "(x=512)\n"), ("/notes", "keep")] := by
  decide +kernel

end Reckoner.CommandLine
