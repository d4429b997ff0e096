import Reckoner.Proofs.Grammar.Words
import Reckoner.Proofs.Token.Lookahead

/-! What stands behind a text that is scanned. A character that no token goes on with
ends every token in front of it, so the tokens of the text are found as before, and the
scan goes on behind them. Where the text stands in its line moves the tokens and changes
nothing else. -/
namespace Reckoner.Token

/-! ## Characters that end a token -/

/-- No token goes on with this character: it is no part of a number or a name, and no
spelling has it behind its first character. -/
structure EndsToken (c : Char) : Prop where
  not_digit : Character.isDigit c = false
  not_word : Character.isWord c = false
  ne_point : c ≠ '.'
  not_second : ∀ spelling ∈ spellings, c ∉ spelling.1.tail

theorem endsToken_of_isGap {c : Char} (h : Character.isGap c = true) : EndsToken c := by
  obtain ⟨hdigit, hword, hpoint, hspellings⟩ := not_word_of_isGap h
  exact ⟨hdigit, hword, hpoint,
    fun spelling hmem htail => hspellings spelling hmem (List.mem_of_mem_tail htail)⟩

theorem endsToken_rightParen : EndsToken ')' :=
  ⟨by decide, by decide, by decide, by decide⟩

variable {c : Char}

theorem EndsToken.not_goesOn (hc : EndsToken c) {kind : Kind} {lexeme : List Char}
    (h : Lexeme kind lexeme) : ¬ GoesOn lexeme c := by
  intro hgoes
  rcases hgoes.character h with hdigit | hword | ⟨spelling, hmem, htail⟩ | ⟨hpoint, -⟩
  · rw [hc.not_digit] at hdigit
    cases hdigit
  · rw [hc.not_word] at hword
    cases hword
  · exact hc.not_second spelling hmem htail
  · exact hc.ne_point hpoint

/-! ## Scanning -/

/-- The token that stands further behind. -/
def shift (d : Nat) (token : Token) : Token :=
  { token with position := token.position + d }

/-- The fault of a text that stands further behind. -/
def shiftFault (d : Nat) : LexFault → LexFault
  | .unexpectedCharacter character position => .unexpectedCharacter character (position + d)
  | .danglingPoint position => .danglingPoint (position + d)
  | .literalTooLarge kind literal => .literalTooLarge kind literal

theorem fault?_add (kind : Kind) (lexeme rest : List Char) (stop : Int) (d : Nat) :
    fault? kind lexeme rest (stop + d) = (fault? kind lexeme rest stop).map (shiftFault d) := by
  unfold fault? numberFault?
  split
  · split
    · split <;> rfl
    · split
      · rfl
      · split <;> rfl
    · rfl
  · rfl

/-- A text that stands further behind is scanned alike. -/
theorem scanFrom_add (place d : Nat) (cs : List Char) :
    scanFrom (place + d) cs =
      match scanFrom place cs with
      | .ok tokens => .ok (tokens.map (shift d))
      | .error fault => .error (shiftFault d fault) := by
  refine scanFrom_induction (motive := fun place cs answer => scanFrom (place + d) cs =
    match answer with
    | .ok tokens => .ok (tokens.map (shift d))
    | .error fault => .error (shiftFault d fault)) ?nil ?gap ?unexpected ?faulty ?found place cs
  case nil =>
    intro place
    rw [scanFrom_nil]
    rfl
  case gap =>
    intro place c rest hc ih
    rw [scanFrom_gap _ hc, Nat.add_right_comm, ih]
  case unexpected =>
    intro place c rest hc hlongest
    rw [scanFrom_unexpected _ hc hlongest]
    rfl
  case faulty =>
    intro place c rest kind length fault hc hlongest hfault
    have hstop : ((place + d : Nat) : Int) + length = place + length + d := by omega
    rw [scanFrom_token _ hc hlongest, hstop, fault?_add, hfault]
    rfl
  case found =>
    intro place c rest kind length hc hlongest hfault ih
    have hstop : ((place + d : Nat) : Int) + length = place + length + d := by omega
    rw [scanFrom_token _ hc hlongest, hstop, fault?_add, hfault]
    dsimp only [Option.map_none]
    rw [Nat.add_right_comm, ih]
    cases scanFrom (place + length) (rest.drop (length - 1)) <;> rfl

/-- The place of a text has no part in its words. -/
theorem scanFrom_words {place : Nat} {cs : List Char} {tokens : List Token}
    (h : scanFrom place cs = .ok tokens) (other : Nat) :
    ∃ others, scanFrom other cs = .ok others ∧ others.map word = tokens.map word := by
  have hplace := scanFrom_add 0 place cs
  have hother := scanFrom_add 0 other cs
  rw [Nat.zero_add] at hplace hother
  rw [h] at hplace
  cases hstart : scanFrom 0 cs with
  | error fault =>
    rw [hstart] at hplace
    cases hplace
  | ok first =>
    rw [hstart] at hplace hother
    cases hplace
    refine ⟨_, hother, ?_⟩
    rw [List.map_map, List.map_map]
    rfl

/-- The word at the front is found, and the scan goes on behind it. -/
theorem scanFrom_front (place : Nat) {lexeme rest : List Char} {kind : Kind}
    (hlongest : longest? (lexeme ++ rest) = some (kind, lexeme.length)) (hkind : kind ≠ .number) :
    scanFrom place (lexeme ++ rest) =
      (scanFrom (place + lexeme.length) rest).map (⟨kind, String.ofList lexeme, place⟩ :: ·) := by
  rw [scanFrom_word hlongest, fault?, if_neg hkind]

/-- So is a word that something behind it ends. -/
theorem Lexeme.scanFrom_append {kind : Kind} {lexeme : List Char} (h : Lexeme kind lexeme)
    (hkind : kind ≠ .number) (place : Nat) (hc : EndsToken c) (rest : List Char) :
    scanFrom place (lexeme ++ c :: rest) =
      (scanFrom (place + lexeme.length) (c :: rest)).map
        (⟨kind, String.ofList lexeme, place⟩ :: ·) := by
  refine scanFrom_front place (h.longest?_append ?_) hkind
  rintro d ⟨⟩
  exact hc.not_goesOn h

/-- A text is scanned as before if a character that ends a token stands behind it, and
the scan goes on from there. -/
theorem scanFrom_append_stop (hc : EndsToken c) (rest : List Char) (place : Nat)
    (cs : List Char) :
    ∀ tokens, scanFrom place cs = .ok tokens →
      scanFrom place (cs ++ c :: rest) =
        (scanFrom (place + cs.length) (c :: rest)).map (tokens.dropLast ++ ·) := by
  intro tokens h
  have hscanned := scanFrom_eq_ok_iff.mp h
  refine hscanned.append ?_
  rintro token ht hkind - d ⟨⟩
  exact hc.not_goesOn (hscanned.of_class token ht hkind)

end Reckoner.Token
