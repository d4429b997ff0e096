import Reckoner.CommandLine

/-!
The command itself: fetches what the answer to its call depends on, and carries
the answer out.
-/
namespace Reckoner.CommandLine

/-- All of standard input. -/
def readStandardInput : IO String := do
  let stream ← IO.getStdin
  let mut text := ""
  repeat
    let line ← stream.getLine
    if line.isEmpty then break
    text := text ++ line
  return text

/-- The file that a request names, with its content, if it exists. -/
def readInputFile (request : Request) : IO Files := do
  match request.inputFile with
  | none => return []
  | some name =>
    try return [(resolve name, ← IO.FS.readFile name)]
    catch
      | .noFileOrDirectory .. => return []
      | error => throw error

/-- What a call depends on beside its arguments: the standard input where it is
read, and the input file where there is one. -/
def readSources (arguments : List String) : IO (String × Files) := do
  match readArguments arguments with
  | .error _ => return ("", [])
  | .ok request =>
    let files ← readInputFile request
    let stdin ← if request.inputFile.isNone then readStandardInput else pure ""
    return (stdin, files)

end Reckoner.CommandLine

open Reckoner.CommandLine in
/-- Answers the call. -/
def main (arguments : List String) : IO UInt32 := do
  let (stdin, files) ← readSources arguments
  let result := answer arguments stdin files
  (← IO.getStderr).putStr result.stderr
  (← IO.getStdout).putStr result.stdout
  if let some (name, content) := result.written then
    IO.FS.writeFile name content
  return result.exit.toUInt32
