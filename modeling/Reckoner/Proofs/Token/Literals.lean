import Reckoner.Diagnostic
import Reckoner.Proofs.Token.Classes

/-! The numbers of a line and their faults. The number that starts at a digit is the
longest one there, and only a point that no digit follows is left behind the digits of an
integer. A number has a fault because of such a point, or else because its value is out
of range. -/
namespace Reckoner

theorem Numeral.Denotes.isLexeme {cs : List Char} {value : Value} (h : Denotes cs value) :
    IsLexeme cs := by
  cases h with
  | integer hdigits => exact .inl hdigits.isDigits
  | decimal hwhole hfraction => exact .inr ⟨_, _, hwhole.isDigits, hfraction.isDigits, rfl⟩

namespace Token

variable {lexeme rest : List Char} {stop : Int} {fault : LexFault}

/-! ## The longest number -/

/-- A digit in front starts the longest word whatever is behind it. -/
theorem longest?_of_isDigit {c : Char} (hc : Character.isDigit c = true) (cs : List Char) :
    longest? (c :: cs) = some (.number, numberLength (c :: cs)) := by
  rw [longest?, find?_spelling_eq_none (by simp [headKind?, hc])]
  simp [hc]

/-- A number starts with a digit. -/
theorem head_of_number (h : Numeral.IsLexeme lexeme) :
    ∃ d ds, lexeme = d :: ds ∧ Character.isDigit d = true := by
  obtain ⟨d, ds, rfl, hhead | ⟨-, hmem⟩⟩ := (Lexeme.number h).exists_head
  · exact ⟨d, ds, rfl, isDigit_of_headKind? hhead⟩
  · exact absurd rfl (spellings_kind _ hmem).1

/-- The number is taken if none at this place is longer. -/
theorem longest?_number_iff :
    longest? (lexeme ++ rest) = some (.number, lexeme.length) ↔
      Numeral.IsLexeme lexeme ∧ ∀ other, Numeral.IsLexeme other → other <+: lexeme ++ rest →
        other.length ≤ lexeme.length := by
  constructor
  · intro h
    have hnumber := longest?_number h
    rw [List.take_left] at hnumber
    exact ⟨hnumber, fun other hother hstarts => (Lexeme.number hother).length_le_longest? hstarts h⟩
  · rintro ⟨hnumber, hlongest⟩
    obtain ⟨d, ds, rfl, hdigit⟩ := head_of_number hnumber
    have hpos : (d :: ds ++ rest).takeWhile Character.isDigit ≠ [] := by simp [hdigit]
    have htaken := hlongest _ (isLexeme_take_numberLength hpos) (List.take_prefix _ _)
    rw [List.length_take_of_le (numberLength_bounds hpos).2] at htaken
    have hlength := length_le_numberLength hnumber (List.prefix_append (d :: ds) rest)
    rw [List.cons_append, longest?_of_isDigit hdigit, ← List.cons_append,
      Nat.le_antisymm htaken hlength]

/-- Digits with a point behind them that no digit follows are a number by themselves. -/
theorem longest?_point (h : Numeral.IsDigits lexeme) {more : List Char}
    (hmore : ∀ c, more.head? = some c → Character.isDigit c = false) :
    longest? (lexeme ++ '.' :: more) = some (.number, lexeme.length) := by
  have hfraction : more.takeWhile Character.isDigit = [] := by
    cases more with
    | nil => rfl
    | cons c more => simp [hmore c rfl]
  obtain ⟨d, ds, rfl, hdigit⟩ := head_of_number (.inl h)
  rw [List.cons_append, longest?_of_isDigit hdigit, ← List.cons_append]
  have htake : (d :: ds ++ '.' :: more).takeWhile Character.isDigit = d :: ds := by
    rw [List.takeWhile_append_of_pos h.2, List.takeWhile_cons_of_neg (by
      simp [Numeral.isDigit_point]), List.append_nil]
  have hdrop : (d :: ds ++ '.' :: more).dropWhile Character.isDigit = '.' :: more := by
    rw [List.dropWhile_append_of_pos h.2, List.dropWhile_cons_of_neg (by
      simp [Numeral.isDigit_point])]
  simp only [numberLength, htake, hdrop, if_pos hfraction]

/-! ## The faults of a number -/

/-- The literal is beyond the range of its kind. -/
inductive TooLarge : LiteralKind → List Char → Prop
  | integer {lexeme n} (hvalue : Numeral.Denotes lexeme (.int n)) (h : integerTooLarge lexeme n = true) :
      TooLarge .integer lexeme
  | floating {lexeme x} (hvalue : Numeral.Denotes lexeme (.float x)) (h : x.isFinite = false) :
      TooLarge .floating lexeme

theorem TooLarge.isLexeme {literal : LiteralKind} (h : TooLarge literal lexeme) :
    Numeral.IsLexeme lexeme := by
  cases h with
  | integer hvalue => exact hvalue.isLexeme
  | floating hvalue => exact hvalue.isLexeme

theorem numberFault?_integer {n : Int} (h : Numeral.Denotes lexeme (.int n)) :
    numberFault? lexeme rest stop =
      if rest.head? = some '.' then some (.danglingPoint stop)
      else if integerTooLarge lexeme n then some (.literalTooLarge .integer (String.ofList lexeme))
      else none := by
  obtain ⟨numeral, hread, hvalue⟩ := h.read?
  rw [numberFault?, hread, Option.map_some, hvalue]

theorem numberFault?_floating {x : Binary64} (h : Numeral.Denotes lexeme (.float x)) :
    numberFault? lexeme rest stop =
      if x.isFinite then none else some (.literalTooLarge .floating (String.ofList lexeme)) := by
  obtain ⟨numeral, hread, hvalue⟩ := h.read?
  rw [numberFault?, hread, Option.map_some, hvalue]

/-- A number has a fault because a point dangles behind it, or else because it is too
large. -/
theorem numberFault?_eq_some_iff (h : Numeral.IsLexeme lexeme) :
    numberFault? lexeme rest stop = some fault ↔
      (fault = .danglingPoint stop ∧ Numeral.IsDigits lexeme ∧ rest.head? = some '.') ∨
        ∃ kind, fault = .literalTooLarge kind (String.ofList lexeme) ∧ TooLarge kind lexeme ∧
          (kind = .integer → rest.head? ≠ some '.') := by
  constructor
  · intro hfault
    obtain ⟨value, hvalue⟩ := h.denotes
    cases value with
    | int n =>
      rw [numberFault?_integer hvalue] at hfault
      by_cases hpoint : rest.head? = some '.'
      · rw [if_pos hpoint] at hfault
        cases hfault
        cases hvalue with
        | integer hdigits => exact .inl ⟨rfl, hdigits.isDigits, hpoint⟩
      · rw [if_neg hpoint] at hfault
        split at hfault
        · next hlarge =>
          cases hfault
          exact .inr ⟨.integer, rfl, .integer hvalue hlarge, fun _ => hpoint⟩
        · cases hfault
    | float x =>
      rw [numberFault?_floating hvalue] at hfault
      split at hfault
      · cases hfault
      · next hfinite =>
        cases hfault
        exact .inr ⟨.floating, rfl, .floating hvalue (by simpa using hfinite), nofun⟩
  · rintro (⟨rfl, hdigits, hpoint⟩ | ⟨kind, rfl, hlarge, hpoint⟩)
    · obtain ⟨ds, -, hds⟩ := hdigits.values
      rw [numberFault?_integer (.integer hds), if_pos hpoint]
    · cases hlarge with
      | integer hvalue hlarge => rw [numberFault?_integer hvalue, if_neg (hpoint rfl), if_pos hlarge]
      | floating hvalue hfinite => simp [numberFault?_floating hvalue, hfinite]

end Token

/-- A literal that is too large is shown with its kind and its text, and without a place. -/
theorem LexFault.message_literalTooLarge (kind : LiteralKind) (text : String) :
    (literalTooLarge kind text).diagnostic.message =
      "[LexerError] LEXER_003: " ++ kind.label ++ " overflow literal: " ++ text := by
  have hfill : Code.literalTooLarge.template.map
      (Segment.fill [("kind", kind.label), ("literal", text)]) =
        [kind.label, " overflow literal: ", text] := rfl
  simp [diagnostic, Diagnostic.message, Diagnostic.detail, hfill, Diagnostic.positionText,
    Diagnostic.contextText, Phase.label, Code.label, ← String.append_assoc]

end Reckoner
