import Reckoner.Proofs.Grammar.Derivation
import Reckoner.Proofs.Value.Range
import Reckoner.Token.Scan

/-! The tokens that a scan gives. They end with the end of the line and have it
nowhere else, and a number among them is written as a line writes numbers and
denotes a value of the range. -/
namespace Reckoner.Token

/-! ## Steps of a scan -/

/-- The fault of a token that has been found; only a number can have one. -/
def fault? (kind : Kind) (lexeme rest : List Char) (stop : Int) : Option LexFault :=
  if kind = .number then numberFault? lexeme rest stop else none

theorem scanFrom_nil (position : Nat) :
    scanFrom position [] = .ok [⟨.endOfLine, "", position⟩] := by
  rw [scanFrom.eq_def]

theorem scanFrom_gap (position : Nat) {c : Char} (h : Character.isGap c = true)
    (rest : List Char) : scanFrom position (c :: rest) = scanFrom (position + 1) rest := by
  rw [scanFrom.eq_def]
  exact if_pos h

theorem scanFrom_unexpected (position : Nat) {c : Char} (hc : ¬ Character.isGap c = true)
    {rest : List Char} (h : longest? (c :: rest) = none) :
    scanFrom position (c :: rest) = .error (.unexpectedCharacter c position) := by
  rw [scanFrom.eq_def]
  dsimp only
  rw [if_neg hc, h]

theorem scanFrom_token (position : Nat) {c : Char} (hc : ¬ Character.isGap c = true)
    {rest : List Char} {kind : Kind} {length : Nat}
    (h : longest? (c :: rest) = some (kind, length)) :
    scanFrom position (c :: rest) =
      match fault? kind ((c :: rest).take length) (rest.drop (length - 1))
        (position + length) with
      | some fault => .error fault
      | none =>
        (scanFrom (position + length) (rest.drop (length - 1))).map
          (⟨kind, String.ofList ((c :: rest).take length), position⟩ :: ·) := by
  rw [scanFrom.eq_def]
  dsimp only
  rw [if_neg hc, h]
  dsimp only
  rw [← fault?]
  cases fault? kind ((c :: rest).take length) (rest.drop (length - 1)) (position + length) with
  | some fault => rfl
  | none => cases scanFrom (position + length) (rest.drop (length - 1)) <;> rfl

/-- Induction along a scan: what holds of each of its ends, and is carried over a
gap and over a token from the rest of the text, holds of every scan. -/
theorem scanFrom_induction
    {motive : Nat → List Char → Except LexFault (List Token) → Prop}
    (nil : ∀ position : Nat, motive position [] (.ok [⟨.endOfLine, "", position⟩]))
    (gap : ∀ (position : Nat) c rest, Character.isGap c = true →
      motive (position + 1) rest (scanFrom (position + 1) rest) →
      motive position (c :: rest) (scanFrom (position + 1) rest))
    (unexpected : ∀ (position : Nat) c rest, ¬ Character.isGap c = true →
      longest? (c :: rest) = none →
      motive position (c :: rest) (.error (.unexpectedCharacter c position)))
    (faulty : ∀ (position : Nat) c rest kind length fault, ¬ Character.isGap c = true →
      longest? (c :: rest) = some (kind, length) →
      fault? kind ((c :: rest).take length) (rest.drop (length - 1)) (position + length) =
        some fault →
      motive position (c :: rest) (.error fault))
    (found : ∀ (position : Nat) c rest kind length, ¬ Character.isGap c = true →
      longest? (c :: rest) = some (kind, length) →
      fault? kind ((c :: rest).take length) (rest.drop (length - 1)) (position + length) =
        none →
      motive (position + length) (rest.drop (length - 1))
        (scanFrom (position + length) (rest.drop (length - 1))) →
      motive position (c :: rest)
        ((scanFrom (position + length) (rest.drop (length - 1))).map
          (⟨kind, String.ofList ((c :: rest).take length), position⟩ :: ·)))
    (position : Nat) (cs : List Char) : motive position cs (scanFrom position cs) := by
  -- A token takes at least one character: the rest is dropped from behind the first.
  induction hn : cs.length using Nat.strong_induction_on generalizing position cs with
  | _ n ih =>
    cases cs with
    | nil =>
      rw [scanFrom_nil]
      exact nil position
    | cons c rest =>
      rw [List.length_cons] at hn
      by_cases hc : Character.isGap c = true
      · rw [scanFrom_gap position hc]
        exact gap position c rest hc (ih rest.length (by omega) _ rest rfl)
      · cases hlongest : longest? (c :: rest) with
        | none =>
          rw [scanFrom_unexpected position hc hlongest]
          exact unexpected position c rest hc hlongest
        | some result =>
          obtain ⟨kind, length⟩ := result
          rw [scanFrom_token position hc hlongest]
          split
          · next fault hfault => exact faulty position c rest kind length fault hc hlongest hfault
          · next hfault =>
            have hlength : (rest.drop (length - 1)).length < n := by
              rw [List.length_drop]
              omega
            exact found position c rest kind length hc hlongest hfault
              (ih _ hlength _ _ rfl)

/-! ## The longest token -/

/-- What the longest token can be: an operator or parenthesis, a number that
starts with a digit, or a name. -/
theorem longest?_eq_some {cs : List Char} {kind : Kind} {length : Nat}
    (h : longest? cs = some (kind, length)) :
    (∃ spelling, (spelling, kind) ∈ spellings ∧ spelling.isPrefixOf cs = true ∧
      length = spelling.length) ∨
    (∃ c rest, cs = c :: rest ∧ Character.isDigit c = true ∧ kind = .number ∧
      length = numberLength cs) ∨
    (∃ c rest, cs = c :: rest ∧ Character.isDigit c = false ∧ Character.isWord c = true ∧
      kind = .identifier ∧ length = (cs.takeWhile Character.isWord).length) := by
  unfold longest? at h
  split at h
  · next spelling kind' hfind =>
    cases h
    have hprefix := List.find?_some hfind
    exact .inl ⟨spelling, List.mem_of_find?_eq_some hfind, hprefix, rfl⟩
  · split at h
    · cases h
    · next _ c rest _ =>
      split at h
      · next hdigit =>
        cases h
        exact .inr (.inl ⟨c, rest, rfl, hdigit, rfl, rfl⟩)
      · next hdigit =>
        split at h
        · next hword =>
          cases h
          exact .inr (.inr ⟨c, rest, rfl, by simpa using hdigit, hword, rfl, rfl⟩)
        · cases h

theorem spellings_kind : ∀ spelling ∈ spellings, spelling.2 ≠ .number ∧
    spelling.2 ≠ .identifier ∧ spelling.2 ≠ .endOfLine := by
  decide

/-- A scan finds the end of the line nowhere within it. -/
theorem longest?_ne_endOfLine {cs : List Char} {kind : Kind} {length : Nat}
    (h : longest? cs = some (kind, length)) : kind ≠ .endOfLine := by
  rcases longest?_eq_some h with ⟨_, hmem, _⟩ | ⟨_, _, _, _, rfl, _⟩ | ⟨_, _, _, _, _, rfl, _⟩
  · exact (spellings_kind _ hmem).2.2
  · decide
  · decide

theorem isDigits_takeWhile {cs : List Char} (h : cs.takeWhile Character.isDigit ≠ []) :
    Numeral.IsDigits (cs.takeWhile Character.isDigit) :=
  ⟨h, fun _ hc => List.mem_takeWhile_imp hc⟩

/-- The longest number at the start of a text is written as a line writes them. -/
theorem isLexeme_take_numberLength {cs : List Char}
    (h : cs.takeWhile Character.isDigit ≠ []) :
    Numeral.IsLexeme (cs.take (numberLength cs)) := by
  have hwhole := isDigits_takeWhile h
  have hcs : cs.takeWhile Character.isDigit ++ cs.dropWhile Character.isDigit = cs :=
    List.takeWhile_append_dropWhile
  unfold numberLength
  dsimp only
  generalize cs.takeWhile Character.isDigit = whole at hwhole hcs ⊢
  generalize cs.dropWhile Character.isDigit = back at hcs ⊢
  subst hcs
  split
  · next back =>
    split
    · rw [List.take_left]
      exact .inl hwhole
    · next hfraction =>
      refine .inr ⟨whole, back.takeWhile Character.isDigit, hwhole,
        isDigits_takeWhile hfraction, ?_⟩
      rw [Nat.add_assoc, List.take_length_add_append, Nat.add_comm 1, List.take_succ_cons]
      rw [← List.prefix_iff_eq_take.mp (List.takeWhile_prefix Character.isDigit)]
  · rw [List.take_left]
    exact .inl hwhole

theorem longest?_number {cs : List Char} {length : Nat}
    (h : longest? cs = some (.number, length)) : Numeral.IsLexeme (cs.take length) := by
  rcases longest?_eq_some h with ⟨_, hmem, _⟩ | ⟨c, rest, rfl, hc, _, rfl⟩ | ⟨_, _, _, _, _, hk, _⟩
  · exact absurd rfl (spellings_kind _ hmem).1
  · exact isLexeme_take_numberLength (by simp [hc])
  · cases hk

/-- A number without a fault denotes a value of the range. -/
theorem inRange_of_numberFault?_none {lexeme rest : List Char} {stop : Int}
    (h : numberFault? lexeme rest stop = none) {value : Value}
    (hv : Numeral.Denotes lexeme value) : value.InRange := by
  obtain ⟨numeral, hread, hvalue⟩ := hv.read?
  cases hv with
  | decimal => exact Value.inRange_float _
  | @integer _ ds =>
    rw [numberFault?, hread, Option.map_some, hvalue] at h
    dsimp only at h
    split at h
    · cases h
    · split at h
      · cases h
      · next hlarge =>
        simp only [integerTooLarge, Bool.or_eq_true, decide_eq_true_eq, not_or, not_lt] at hlarge
        have hmax : (largestInteger : Int) = 9223372036854775807 := by decide
        rw [Value.inRange_int]
        omega

theorem numberLength_bounds {cs : List Char} (h : cs.takeWhile Character.isDigit ≠ []) :
    0 < numberLength cs ∧ numberLength cs ≤ cs.length := by
  have hwhole := List.length_pos_iff.mpr h
  have hcs : (cs.takeWhile Character.isDigit).length + (cs.dropWhile Character.isDigit).length =
      cs.length := by
    rw [← List.length_append, List.takeWhile_append_dropWhile]
  unfold numberLength
  dsimp only
  split
  · next back hback =>
    rw [hback, List.length_cons] at hcs
    have hfraction := (List.takeWhile_prefix (l := back) Character.isDigit).length_le
    split <;> omega
  · omega

/-- A token has characters, all of them of the text. -/
theorem longest?_bounds {cs : List Char} {kind : Kind} {length : Nat}
    (h : longest? cs = some (kind, length)) : 0 < length ∧ length ≤ cs.length := by
  have hspellings : ∀ spelling ∈ spellings, spelling.1 ≠ [] := by decide
  rcases longest?_eq_some h with
    ⟨spelling, hmem, hprefix, rfl⟩ | ⟨c, rest, rfl, hc, -, rfl⟩ | ⟨c, rest, rfl, -, hc, -, rfl⟩
  · exact ⟨List.length_pos_iff.mpr (hspellings _ hmem),
      (List.isPrefixOf_iff_prefix.mp hprefix).length_le⟩
  · exact numberLength_bounds (by simp [hc])
  · exact ⟨by simp [hc], (List.takeWhile_prefix Character.isWord).length_le⟩

/-- The text is the token and what is behind it. -/
theorem longest?_split {c : Char} {rest : List Char} {kind : Kind} {length : Nat}
    (h : longest? (c :: rest) = some (kind, length)) :
    ∃ lexeme behind, (c :: rest).take length = lexeme ∧ rest.drop (length - 1) = behind ∧
      c :: rest = lexeme ++ behind ∧ length = lexeme.length := by
  obtain ⟨hpos, hle⟩ := longest?_bounds h
  refine ⟨_, _, rfl, rfl, ?_, (List.length_take_of_le hle).symm⟩
  rw [← List.drop_succ_cons (a := c), Nat.sub_add_cancel hpos, List.take_append_drop]

/-! ## All tokens -/

/-- A number is written as a line writes numbers, and denotes a value of the
range. -/
def NumberFits (token : Token) : Prop :=
  token.kind = .number → Numeral.IsLexeme token.lexeme.toList ∧
    ∀ value, Numeral.Denotes token.lexeme.toList value → value.InRange

theorem numberFits_found {kind : Kind} {cs rest : List Char} {length : Nat} {stop : Int}
    (h : longest? cs = some (kind, length))
    (hfault : fault? kind (cs.take length) rest stop = none) (position : Int) :
    NumberFits ⟨kind, String.ofList (cs.take length), position⟩ := by
  rintro hk
  obtain rfl : kind = .number := hk
  rw [fault?, if_pos rfl] at hfault
  rw [String.toList_ofList]
  exact ⟨longest?_number h, fun value hv => inRange_of_numberFault?_none hfault hv⟩

/-- The tokens of a text end with the end of the line, and their numbers fit. -/
theorem scanFrom_ok (position : Nat) (cs : List Char) :
    ∀ tokens, scanFrom position cs = .ok tokens →
      Grammar.Terminated tokens ∧ ∀ token ∈ tokens, NumberFits token := by
  apply scanFrom_induction (motive := fun _ _ answer => ∀ tokens, answer = .ok tokens →
    Grammar.Terminated tokens ∧ ∀ token ∈ tokens, NumberFits token)
  case nil =>
    rintro position tokens ⟨⟩
    refine ⟨⟨[], _, rfl, rfl, by simp⟩, ?_⟩
    intro token ht
    rw [List.mem_singleton.mp ht]
    rintro ⟨⟩
  case gap => exact fun _ _ _ _ ih => ih
  case unexpected => rintro position c rest _ _ tokens ⟨⟩
  case faulty => rintro position c rest kind length fault _ _ _ tokens ⟨⟩
  case found =>
    intro position c rest kind length _ hlongest hfault ih tokens h
    cases hrest : scanFrom (position + length) (rest.drop (length - 1)) with
    | error fault =>
      rw [hrest] at h
      cases h
    | ok behind =>
      rw [hrest] at h
      cases h
      -- The token found goes in front of tokens that are as they should be.
      obtain ⟨⟨front, stop, rfl, hstop, hfront⟩, hnumbers⟩ := ih behind hrest
      have hk := longest?_ne_endOfLine hlongest
      refine ⟨⟨_ :: front, stop, rfl, hstop, List.forall_mem_cons.mpr ⟨hk, hfront⟩⟩, ?_⟩
      exact List.forall_mem_cons.mpr ⟨numberFits_found hlongest hfault position, hnumbers⟩

theorem scan_ok {line : String} {tokens : List Token} (h : scan line = .ok tokens) :
    Grammar.Terminated tokens ∧ ∀ token ∈ tokens, NumberFits token :=
  scanFrom_ok 0 line.toList tokens h

end Reckoner.Token
