import Mathlib.Data.List.Infix
import Reckoner.Proofs.CommandLine.Debugging

/-! What the arguments of a call mean. Each choice is written by one argument or by two,
and the choices stand in any order. The request has those that are written and no others:
of several outputs the last one counts, and of several inputs the first one is taken and
the others are refused. Where help is asked for, nothing else matters. -/
namespace Reckoner.CommandLine

/-! ## Choices -/

/-- What a part of the arguments asks for: a log, a dump of the statements, a file for the
result, or a file with the source. -/
inductive Choice where
  | log
  | dump
  | output (name : String)
  | input (name : String)
deriving DecidableEq

namespace Choice

/-- The output that is chosen, if it is one. -/
def output? : Choice → Option String
  | .output name => some name
  | _ => none

/-- The input that is chosen, if it is one. -/
def input? : Choice → Option String
  | .input name => some name
  | _ => none

/-- The request with one more choice. -/
def apply (choice : Choice) (request : Request) : Request :=
  match choice with
  | .log => request.debugged
  | .dump => { request with emitAst := true }
  | .output name => { request with output := some name }
  | .input name =>
    if request.input.isNone then { request with input := some name } else request.addExtra name

end Choice

/-- The outputs among the choices. -/
def outputs (choices : List Choice) : List String :=
  choices.filterMap Choice.output?

/-- The inputs among the choices. -/
def inputs (choices : List Choice) : List String :=
  choices.filterMap Choice.input?

theorem outputs_cons (choice : Choice) (choices : List Choice) :
    outputs (choice :: choices) = choice.output?.toList ++ outputs choices := by
  cases choice <;> rfl

theorem inputs_cons (choice : Choice) (choices : List Choice) :
    inputs (choice :: choices) = choice.input?.toList ++ inputs choices := by
  cases choice <;> rfl

/-- The request that has the choices. -/
def Request.ofChoices (choices : List Choice) : Request where
  input := (inputs choices).head?
  output := (outputs choices).getLast?
  debug := .log ∈ choices
  emitAst := .dump ∈ choices
  extra := (inputs choices).tail

/-- Choices made one by one on top of a request. -/
theorem foldl_apply (choices : List Choice) (request : Request) :
    choices.foldl (fun request choice => choice.apply request) request =
      { input := request.input.or (inputs choices).head?
        output := (outputs choices).getLast?.or request.output
        debug := request.debug || .log ∈ choices
        emitAst := request.emitAst || .dump ∈ choices
        extra := request.extra ++
          if request.input.isNone then (inputs choices).tail else inputs choices } := by
  induction choices generalizing request with
  | nil => simp [inputs, outputs]
  | cons choice choices ih =>
    rw [List.foldl_cons, ih, inputs_cons, outputs_cons]
    cases choice with
    | log | dump => simp [Choice.apply, Request.debugged, Choice.input?, Choice.output?]
    | output name =>
      simp only [Choice.apply, Choice.input?, Choice.output?, Option.toList_some,
        Option.toList_none, List.singleton_append, List.nil_append, List.getLast?_cons]
      cases (outputs choices).getLast? <;> simp
    | input name =>
      cases hinput : request.input with
      | none => simp [Choice.apply, Choice.input?, Choice.output?, hinput]
      | some taken =>
        simp [Choice.apply, Choice.input?, Choice.output?, hinput, Request.addExtra]

/-! ## How they are written -/

/-- A long option in full, or cut short behind its first letter. -/
def shortenings (option : String) : List String :=
  (option.toList.inits.drop 3).map String.ofList

/-- The ways to write an option. -/
def Flag.writings : Flag → List String
  | .help => "-h" :: shortenings "--help"
  | .output => "-o" :: shortenings "--output"
  | .debug => shortenings "--debug"
  | .emitAst => shortenings "--emit-ast"

/-- An argument that is taken for the name of a file: one that does not start like an
option, or a hyphen alone. -/
def IsName (text : String) : Prop :=
  text.toList.head? ≠ some '-' ∨ text = "-"

instance : DecidablePred IsName := fun text =>
  inferInstanceAs (Decidable (text.toList.head? ≠ some '-' ∨ text = "-"))

/-- The arguments write the choice. The name of the output is the next argument, or stands
behind an equals sign, or right behind the letter. -/
inductive Choice.Writes : Choice → List String → Prop
  | log {option} (hoption : option ∈ Flag.debug.writings) : Writes .log [option]
  | dump {option} (hoption : option ∈ Flag.emitAst.writings) : Writes .dump [option]
  | next {option name} (hoption : option ∈ Flag.output.writings) (hname : IsName name) :
      Writes (.output name) [option, name]
  | equals {option name} (hoption : option ∈ Flag.output.writings) (hname : name ≠ "--") :
      Writes (.output name) [option ++ "=" ++ name]
  | behind {name} (hempty : name ≠ "") (hhead : name.toList.head? ≠ some '=')
      (hname : name ≠ "--") : Writes (.output name) ["-o" ++ name]
  | input {name} (hname : IsName name) : Writes (.input name) [name]

/-- The arguments write the choices one behind the other. -/
inductive Writes : List Choice → List String → Prop
  | nil : Writes [] []
  | cons {choice choices front arguments} (hfront : choice.Writes front)
      (harguments : Writes choices arguments) : Writes (choice :: choices) (front ++ arguments)

/-! ## One argument -/

variable {option name : String}

theorem IsName.ne_separator (h : IsName name) : name ≠ "--" := by
  rintro rfl
  exact absurd h (by decide)

theorem IsName.readWord (h : IsName name) : readWord name = .ok (.plain name) :=
  if_pos (by simpa [IsName] using h)

/-- An argument that starts like an option is compared with the options. -/
theorem readWord_hyphen {text : String} (h : text.toList.head? = some '-') (hne : text ≠ "-") :
    readWord text =
      match spellings.lookup text with
      | some flag => .ok (flagWord text flag none)
      | none =>
        match spellings.lookup (splitEquals text).1 with
        | some flag => .ok (flagWord (splitEquals text).1 flag (splitEquals text).2)
        | none => readAbbreviated text :=
  if_neg (by simp [h, hne])

/-- However it is written, an option by itself is that option. -/
theorem readWord_option {flag : Flag} (h : option ∈ flag.writings) :
    option ≠ "--" ∧ readWord option = .ok (.flag flag none) := by
  revert option
  cases flag <;> decide +kernel

theorem not_spelling_of_equals {text : String} (h : '=' ∈ text.toList) :
    spellings.lookup text = none := by
  have hall : ∀ spelling ∈ spellings, '=' ∉ spelling.1.toList := by decide
  refine List.lookup_eq_none_iff.mpr fun spelling hmem => bne_iff_ne.mpr ?_
  rintro rfl
  exact hall spelling hmem h

theorem splitEquals_fst (text : String) :
    (splitEquals text).1 = String.ofList (text.toList.takeWhile (· != '=')) := by
  unfold splitEquals
  dsimp only
  split <;> rfl

theorem splitEquals_append (h : '=' ∉ option.toList) (name : String) :
    splitEquals (option ++ "=" ++ name) = (option, some name) := by
  have hne : ∀ c ∈ option.toList, (c != '=') = true := fun c hc =>
    bne_iff_ne.mpr fun heq => h (heq ▸ hc)
  have htext : (option ++ "=" ++ name).toList = option.toList ++ '=' :: name.toList := by
    simp
  rw [splitEquals, htext, List.takeWhile_append_of_pos hne, List.dropWhile_append_of_pos hne]
  simp

/-- With an equals sign behind it the option is the same, in full or cut short. -/
theorem readWord_equals (h : option ∈ Flag.output.writings) (name : String) :
    option ++ "=" ++ name ≠ "--" ∧
      readWord (option ++ "=" ++ name) = .ok (.flag .output (some name)) := by
  have hoption : '=' ∉ option.toList ∧ option.toList.head? = some '-' ∧ option ≠ "-h" ∧
      (spellings.lookup option = some .output ∨ spellings.lookup option = none ∧
        "--".toList <+: option.toList ∧
        spellings.filter (fun spelling => option.isPrefixOf spelling.1) =
          [("--output", .output)]) := by
    revert option
    decide +kernel
  obtain ⟨hequals, hhead, hhelp, hspelled⟩ := hoption
  have htext : (option ++ "=" ++ name).toList = option.toList ++ '=' :: name.toList := by simp
  have hmem : '=' ∈ (option ++ "=" ++ name).toList := by simp
  have hne (other : String) (hother : '=' ∉ other.toList) : option ++ "=" ++ name ≠ other := by
    rintro rfl
    exact hother hmem
  refine ⟨hne "--" (by decide), ?_⟩
  have hhyphen : (option ++ "=" ++ name).toList.head? = some '-' := by
    rw [htext, List.head?_append, hhead, Option.some_or]
  rw [readWord_hyphen hhyphen (hne "-" (by decide)), not_spelling_of_equals hmem,
    splitEquals_append hequals]
  -- In full the option is found; cut short it is the only one that starts like this.
  rcases hspelled with hfull | ⟨hcut, hlong, honly⟩
  · rw [hfull]
    simp [flagWord, hhelp]
  · have hprefix : "--".isPrefixOf (option ++ "=" ++ name) = true := by
      refine String.startsWith_string_iff.mpr ?_
      rw [htext]
      exact hlong.trans (List.prefix_append _ _)
    rw [hcut]
    simp only [readAbbreviated, splitEquals_append hequals, hprefix, Bool.true_and, honly]

/-- The letter of the output with more behind it is no spelling. -/
theorem not_spelling_of_letter {text : String} {c : Char} {cs : List Char}
    (h : text.toList = '-' :: 'o' :: c :: cs) : spellings.lookup text = none := by
  have hall : ∀ spelling ∈ spellings,
      spelling.1.toList.take 2 = ['-', 'o'] → spelling.1.toList.length = 2 := by
    decide
  refine List.lookup_eq_none_iff.mpr fun spelling hmem => bne_iff_ne.mpr ?_
  rintro rfl
  have hlength := hall spelling hmem
  rw [h] at hlength
  simp at hlength

/-- What stands right behind the letter of the output is the name. -/
theorem readWord_behind (hempty : name ≠ "") (hhead : name.toList.head? ≠ some '=') :
    "-o" ++ name ≠ "--" ∧ readWord ("-o" ++ name) = .ok (.flag .output (some name)) := by
  obtain ⟨c, cs, hname⟩ := List.exists_cons_of_ne_nil (mt String.toList_eq_nil_iff.mp hempty)
  have htext : ("-o" ++ name).toList = '-' :: 'o' :: c :: cs := by simp [hname]
  have hc : c ≠ '=' := by simpa [hname] using hhead
  have hne (other : String) (hother : other.toList.length ≤ 2) : "-o" ++ name ≠ other := by
    rintro rfl
    rw [htext] at hother
    simp at hother
  have hfront : (splitEquals ("-o" ++ name)).1.toList =
      '-' :: 'o' :: c :: cs.takeWhile (· != '=') := by
    rw [splitEquals_fst, String.toList_ofList, htext]
    simp [hc]
  have hprefix : "--".isPrefixOf ("-o" ++ name) = false := by
    refine String.startsWith_string_eq_false_iff.mpr ?_
    rw [htext]
    simp
  have hletter : String.ofList (("-o" ++ name).toList.take 2) = "-o" := by
    rw [htext]
    rfl
  have hrest : String.ofList (("-o" ++ name).toList.drop 2) = name := by
    rw [htext, ← hname]
    simp
  refine ⟨hne "--" (by decide), ?_⟩
  rw [readWord_hyphen (by rw [htext]; rfl) (hne "-" (by decide)), not_spelling_of_letter htext,
    not_spelling_of_letter hfront]
  simp only [readAbbreviated, hprefix, Bool.false_and, List.filter_false, hletter, hrest]
  rfl

/-! ## All arguments -/

theorem readSequence_attached (hname : name ≠ "--") (request : Request) (rest : List Word) :
    readSequence request (.flag .output (some name) :: rest) =
      readSequence ((Choice.output name).apply request) rest := by
  rw [readSequence, Request.setOutput, if_neg hname]
  rfl

theorem readSequence_input (request : Request) {rest : List Word}
    (h : rest.head? ≠ some .separator) :
    readSequence request (.plain name :: rest) =
      readSequence ((Choice.input name).apply request) rest := by
  rw [readSequence, Choice.apply]
  · split <;> rfl
  · rintro behind rfl
    exact h rfl

/-- What the arguments of a choice are read as, and what the words do to a request. -/
theorem Choice.Writes.read {choice : Choice} {texts : List String} (h : choice.Writes texts) :
    ∃ words : List Word, Word.separator ∉ words ∧
      (∀ rest, readWords (texts ++ rest) = (readWords rest).map (words ++ ·)) ∧
      ∀ request rest, rest.head? ≠ some Word.separator →
        readSequence request (words ++ rest) = readSequence (choice.apply request) rest := by
  cases h with
  | log hoption =>
    obtain ⟨hne, hword⟩ := readWord_option hoption
    exact ⟨[.flag .debug none], by simp, readWords_cons hne hword, fun _ _ _ => rfl⟩
  | dump hoption =>
    obtain ⟨hne, hword⟩ := readWord_option hoption
    exact ⟨[.flag .emitAst none], by simp, readWords_cons hne hword, fun _ _ _ => rfl⟩
  | @next option name hoption hname =>
    obtain ⟨hne, hword⟩ := readWord_option hoption
    refine ⟨[.flag .output none, .plain name], by simp, fun rest => ?_, fun _ _ _ => rfl⟩
    have hplain := readWords_cons hname.ne_separator hname.readWord rest
    rw [List.cons_append, readWords_cons hne hword, List.cons_append, List.nil_append, hplain]
    cases readWords rest <;> rfl
  | equals hoption hname =>
    obtain ⟨hne, hword⟩ := readWord_equals hoption _
    exact ⟨[.flag .output (some _)], by simp, readWords_cons hne hword,
      fun request rest _ => readSequence_attached hname request rest⟩
  | behind hempty hhead hname =>
    obtain ⟨hne, hword⟩ := readWord_behind hempty hhead
    exact ⟨[.flag .output (some _)], by simp, readWords_cons hne hword,
      fun request rest _ => readSequence_attached hname request rest⟩
  | input hname =>
    exact ⟨[.plain _], by simp, readWords_cons hname.ne_separator hname.readWord,
      fun request _ hrest => readSequence_input request hrest⟩

/-- What the arguments are read as makes the choices one by one. There is no separator among
the words, which would be passed over next to an input. -/
theorem Writes.read {choices : List Choice} {arguments : List String}
    (h : Writes choices arguments) :
    ∃ words : List Word, Word.separator ∉ words ∧
      (∀ rest, readWords (arguments ++ rest) = (readWords rest).map (words ++ ·)) ∧
      ∀ request rest, rest.head? ≠ some Word.separator →
        readSequence request (words ++ rest) =
          readSequence (choices.foldl (fun request choice => choice.apply request) request)
            rest := by
  induction h with
  | nil =>
    refine ⟨[], by simp, fun rest => ?_, fun _ _ _ => rfl⟩
    rw [List.nil_append]
    cases readWords rest <;> rfl
  | cons hfront _ ih =>
    obtain ⟨front, hseparator, hwords, hreads⟩ := hfront.read
    obtain ⟨behind, hnone, hbehind, hrun⟩ := ih
    refine ⟨front ++ behind, ?_, fun rest => ?_, fun request rest hrest => ?_⟩
    · exact fun hmem => (List.mem_append.mp hmem).elim hseparator hnone
    · rw [List.append_assoc, hwords, hbehind]
      cases readWords rest with
      | error stop => rfl
      | ok words => exact congrArg Except.ok (List.append_assoc front behind words).symm
    · have hnext : (behind ++ rest).head? ≠ some .separator := by
        cases behind with
        | nil => exact hrest
        | cons word behind =>
          rintro ⟨⟩
          exact hnone List.mem_cons_self
      rw [List.append_assoc, hreads request _ hnext, hrun _ rest hrest, List.foldl_cons]

/-- The request is the one that has the choices, unless there is a second input. -/
theorem readArguments_choices {choices : List Choice} {arguments : List String}
    (h : Writes choices arguments) :
    readArguments arguments =
      if (inputs choices).tail = [] then .ok (.ofChoices choices)
      else .error (.refused
        ("unrecognized arguments: " ++ " ".intercalate (inputs choices).tail)) := by
  obtain ⟨words, -, hwords, hreads⟩ := h.read
  have hread := hwords []
  have hrun := hreads {} [] (by simp)
  have hrequest : choices.foldl (fun request choice => choice.apply request) {} =
      Request.ofChoices choices := by
    rw [foldl_apply]
    simp [Request.ofChoices]
  rw [List.append_nil] at hread hrun
  unfold readArguments
  rw [hread]
  show (readSequence {} (words ++ []) >>= _) = _
  rw [List.append_nil, hrun, hrequest]
  rfl

/-- Behind any choices the option for help ends the reading, if what follows can be read at
all. -/
theorem readArguments_help {choices : List Choice} {front behind : List String}
    {words : List Word} (h : Writes choices front) (hoption : option ∈ Flag.help.writings)
    (hbehind : readWords behind = .ok words) :
    readArguments (front ++ option :: behind) = .error .help := by
  obtain ⟨hne, hword⟩ := readWord_option hoption
  obtain ⟨frontWords, -, hwords, hreads⟩ := h.read
  have hrun := hreads {} (.flag .help none :: words) (by simp)
  unfold readArguments
  rw [hwords, readWords_cons hne hword, hbehind]
  show (readSequence {} (frontWords ++ .flag .help none :: words) >>= _) = _
  rw [hrun]
  rfl

/-- The last output counts, and a log is wanted wherever the option stands. -/
example : readArguments ["--out=first", "-osecond", "--debug", "lines.calc"] =
    .ok { input := "lines.calc", output := "second", debug := true } := by
  decide +kernel

end Reckoner.CommandLine
