import Reckoner.Character.Digit
import Reckoner.Text.Quoted

/-!
The arguments of the command. Options stand anywhere. A long one may be shortened
as long as one option is meant; its value stands behind `=` or is the next
argument. The value of a short one may also follow its letter directly, and short
ones may follow the one for help in a group. After `--` all arguments are plain. At
most one plain argument is wanted.

Every argument is first read by itself, then the sequence from left to right.
What cannot be used is collected and reported at the end; everything else that
is wrong, and a request for help, ends the reading where it is met.
-/
namespace Reckoner.CommandLine

/-! ## Options -/

/-- What an option asks for. -/
inductive Flag where
  | help
  | output
  | debug
  | emitAst
deriving DecidableEq

/-- The spellings of the options. -/
def spellings : List (String × Flag) :=
  [("-h", .help), ("--help", .help), ("-o", .output), ("--output", .output),
    ("--debug", .debug), ("--emit-ast", .emitAst)]

/-- All spellings of an option, as messages name it. -/
def Flag.label : Flag → String
  | .help => "-h/--help"
  | .output => "-o/--output"
  | .debug => "--debug"
  | .emitAst => "--emit-ast"

/-- Why there is no request: help is wanted, or something is wrong. -/
inductive Stop where
  | help
  | refused (message : String)
deriving DecidableEq

/-- The refusal of a value that the option does not take. -/
def ignoredValue (flag : Flag) (value : String) : Stop :=
  .refused ("argument " ++ flag.label ++ ": ignored explicit argument " ++ Text.quoted value)

/-- The refusal of an option without its value. -/
def missingValue (flag : Flag) : Stop :=
  .refused ("argument " ++ flag.label ++ ": expected one argument")

/-! ## One argument -/

/-- An argument by itself. -/
inductive Word where
  | plain (text : String)
  /-- An option, with the value that its own argument gives it. -/
  | flag (flag : Flag) (value : Option String)
  /-- More letters behind the short option for help. -/
  | helpGroup (letters : String)
  | unknown (text : String)
  | separator
deriving DecidableEq

/-- The word of an option that is spelled in full. What stands behind the short
option for help, with an equals sign or without, is a group of short options. -/
def flagWord (spelling : String) (flag : Flag) (value : Option String) : Word :=
  match value with
  | some letters =>
    if spelling = "-h" ∧ letters ≠ "" then .helpGroup letters else .flag flag value
  | none => .flag flag none

/-- The text before the first equals sign and the text behind it, if there is one. -/
def splitEquals (text : String) : String × Option String :=
  let cs := text.toList
  let front := String.ofList (cs.takeWhile (· != '='))
  match cs.dropWhile (· != '=') with
  | [] => (front, none)
  | _ :: back => (front, some (String.ofList back))

/-- A minus sign and a number with digits at its end. A line feed behind the number
does no harm. -/
def isNegativeNumber (text : String) : Bool :=
  let cs := text.toList
  let cs := if cs.getLast? = some '\n' then cs.dropLast else cs
  match cs with
  | '-' :: number =>
    match number.dropWhile Character.isDigit with
    | [] => number != []
    | '.' :: fraction => fraction != [] && fraction.all Character.isDigit
    | _ => false
  | _ => false

/-- An argument that starts with a hyphen and spells no option in full: the start
of a long option, a short option with more behind its letter, or neither. -/
def readAbbreviated (text : String) : Except Stop Word :=
  let (front, value) := splitEquals text
  let candidates := spellings.filter fun spelling =>
    "--".isPrefixOf text && front.isPrefixOf spelling.1
  match candidates with
  | [(_, flag)] => .ok (.flag flag value)
  | _ :: _ :: _ =>
    .error (.refused ("ambiguous option: " ++ text ++ " could match " ++
      ", ".intercalate (candidates.map Prod.fst)))
  | [] =>
    let spelling := String.ofList (text.toList.take 2)
    match spellings.lookup spelling with
    | some flag => .ok (flagWord spelling flag (some (String.ofList (text.toList.drop 2))))
    | none =>
      if isNegativeNumber text || ' ' ∈ text.toList then .ok (.plain text)
      else .ok (.unknown text)

/-- An argument before any separator, read by itself. -/
def readWord (text : String) : Except Stop Word :=
  if text.toList.head? ≠ some '-' || text = "-" then .ok (.plain text)
  else
    match spellings.lookup text with
    | some flag => .ok (flagWord text flag none)
    | none =>
      let (front, value) := splitEquals text
      match spellings.lookup front with
      | some flag => .ok (flagWord front flag value)
      | none => readAbbreviated text

/-- The arguments, each read by itself. -/
def readWords : List String → Except Stop (List Word)
  | [] => .ok []
  | text :: rest =>
    if text = "--" then .ok (.separator :: rest.map Word.plain)
    else do
      let word ← readWord text
      return word :: (← readWords rest)

/-! ## The sequence -/

/-- What the command is to do. -/
structure Request where
  input : Option String := none
  output : Option String := none
  debug : Bool := false
  emitAst : Bool := false
  /-- Arguments without a use. -/
  extra : List String := []
deriving DecidableEq

/-- The request with one more argument that has no use. -/
def Request.addExtra (request : Request) (text : String) : Request :=
  { request with extra := request.extra ++ [text] }

/-- The request with an output from the argument of the option itself. A separator
in that place is no value, and takes back an output that was given before. -/
def Request.setOutput (request : Request) (value : String) : Request :=
  { request with output := if value = "--" then none else some value }

/-- The end of a reading at a group of short options behind the letter for help. The
group is read to its end before help is given: more letters for help, then the
letter for the output, whose value is the rest of the group or the next argument. -/
def stopAtGroup (valueFollows : Bool) : List Char → Stop
  | [] => .help
  | 'h' :: rest => stopAtGroup valueFollows rest
  | ['o'] => if valueFollows then .help else missingValue .output
  | 'o' :: _ => .help
  | letters => ignoredValue .help (String.ofList letters)

/-- The next word is plain. -/
def startsPlain : List Word → Bool
  | .plain _ :: _ => true
  | _ => false

/-- Reads the words from left to right on top of what has been read. The first
plain word is the input, and a separator next to it is passed over. -/
def readSequence (request : Request) : List Word → Except Stop Request
  | [] => .ok request
  | .unknown text :: rest => readSequence (request.addExtra text) rest
  | .helpGroup letters :: rest => .error (stopAtGroup (startsPlain rest) letters.toList)
  | .flag .help none :: _ => .error .help
  | .flag .debug none :: rest => readSequence { request with debug := true } rest
  | .flag .emitAst none :: rest => readSequence { request with emitAst := true } rest
  | .flag .output none :: .plain text :: rest =>
    readSequence { request with output := some text } rest
  | .flag .output none :: _ => .error (missingValue .output)
  | .flag .output (some value) :: rest => readSequence (request.setOutput value) rest
  | .flag flag (some value) :: _ => .error (ignoredValue flag value)
  | .plain text :: .separator :: rest =>
    if request.input.isNone then readSequence { request with input := some text } rest
    else readSequence ((request.addExtra text).addExtra "--") rest
  | .plain text :: rest =>
    if request.input.isNone then readSequence { request with input := some text } rest
    else readSequence (request.addExtra text) rest
  | .separator :: .plain text :: rest =>
    if request.input.isNone then readSequence { request with input := some text } rest
    else readSequence ((request.addExtra "--").addExtra text) rest
  | .separator :: rest =>
    if request.input.isNone then readSequence request rest
    else readSequence (request.addExtra "--") rest

/-- The request that the arguments make. -/
def readArguments (arguments : List String) : Except Stop Request := do
  let words ← readWords arguments
  let request ← readSequence {} words
  if request.extra = [] then return request
  else throw (.refused ("unrecognized arguments: " ++ " ".intercalate request.extra))

end Reckoner.CommandLine
