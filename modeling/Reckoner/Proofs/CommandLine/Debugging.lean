import Reckoner.CommandLine.Arguments

/-! The option that asks for a log, among the other arguments. It has no part in how they
are read: in front of them it makes the same request with a log, and they are refused for
the same reason. -/
namespace Reckoner.CommandLine

namespace Request

/-- The request with the log of its run. -/
def debugged (request : Request) : Request :=
  { request with debug := true }

end Request

/-- An argument that is no separator is read by itself. -/
theorem readWords_cons {text : String} {word : Word} (hne : text ≠ "--")
    (hword : readWord text = .ok word) (rest : List String) :
    readWords (text :: rest) = (readWords rest).map (word :: ·) := by
  rw [readWords, if_neg hne, hword]
  cases readWords rest <;> rfl

end Reckoner.CommandLine
