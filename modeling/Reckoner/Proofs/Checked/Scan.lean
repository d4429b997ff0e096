import Reckoner.Proofs.Checked.Arithmetic
import Reckoner.Proofs.Token.Scanned

/-! Scanning by positions in the line. A character is looked up by its place, a
number is converted to check it, and the next token starts where the last one
stopped; nothing says that the place is in the line or that the text converts.
Both hold, and the tokens or the fault are those of `Token.scan`. -/
namespace Reckoner.Checked

/-! ## Conversions -/

/-- The integer that a text without a point writes. -/
def integerOf? (text : List Char) : Option Int :=
  match Numeral.read? text with
  | some numeral => if numeral.fraction.isNone then some numeral.toInt else none
  | none => none

/-- The float nearest to the number that a text writes. -/
def floatOf? (text : List Char) : Option Binary64 :=
  (Numeral.read? text).map Numeral.toBinary64

/-! ## The scan -/

/-- A literal beyond the range of its kind. -/
def tooLarge {α : Type} (kind : LiteralKind) (raw : List Char) : Checked α :=
  throw { phase := .lexing, code := .literalTooLarge,
          params := [("kind", kind.label), ("literal", String.ofList raw)] }

/-- The character at a place of the line. -/
def charAt? (cs : List Char) (place : Nat) : Option Char :=
  cs[place]?

/-- A point stands at this place, which may be past the line. -/
def pointAt (line : List Char) (place : Nat) : Checked Bool :=
  if place < line.length then return (← charAt? line place) == '.' else return false

/-- Refuses a number that ends in a point, or is too large. The integer is looked
at only if it is short. -/
def checkNumber (raw line : List Char) (stop : Nat) : Checked Unit :=
  if '.' ∈ raw then do
    if (← floatOf? raw).isInfinite then tooLarge .floating raw
  else do
    if ← pointAt line stop then
      throw { phase := .lexing, code := .danglingPoint, position := some stop }
    else if 19 < (raw.dropWhile (· == '0')).length then tooLarge .integer raw
    else if Token.largestInteger < (← integerOf? raw) then tooLarge .integer raw

/-- Refuses a token that is a bad number. -/
def checkToken (kind : Token.Kind) (raw line : List Char) (stop : Nat) : Checked Unit :=
  if kind = .number then checkNumber raw line stop else return ()

/-- The tokens of a line from this place on. -/
def scanAt (line : List Char) (position : Nat) : Checked (List Token) :=
  if position < line.length then do
    let c ← charAt? line position
    if Character.isGap c then scanAt line (position + 1)
    else
      match _hlongest : Token.longest? (line.drop position) with
      | none =>
        throw { phase := .lexing, code := .unexpectedCharacter, position := some position,
                params := [("char", String.singleton c)] }
      | some (kind, length) => do
        let raw := (line.drop position).take length
        checkToken kind raw line (position + length)
        let tokens ← scanAt line (position + length)
        return ⟨kind, String.ofList raw, position⟩ :: tokens
  else return [⟨.endOfLine, "", line.length⟩]
termination_by line.length - position
decreasing_by
  · omega
  · have := Token.longest?_bounds _hlongest
    omega

/-- The tokens of a line, the last of them its end. -/
def scan (line : String) : Checked (List Token) :=
  scanAt line.toList 0

/-! ## Numbers -/

theorem pointAt_eq (line : List Char) (place : Nat) :
    pointAt line place = pure (decide ((line.drop place).head? = some '.')) := by
  rw [pointAt, List.head?_drop]
  split
  · next h =>
    rw [charAt?, List.getElem?_eq_getElem h, liftM_some, pure_bind]
    congr 1
    simp [beq_eq_decide]
  · next h =>
    rw [List.getElem?_eq_none (Nat.le_of_not_lt h)]
    rfl

theorem integerOf?_digits {raw : List Char} (h : Numeral.IsDigits raw) :
    ∃ n : Nat, integerOf? raw = some (n : Int) ∧ (Numeral.read? raw).map Numeral.value = some (.int n) := by
  obtain ⟨ds, -, hds⟩ := h.values
  have hread := Numeral.read?_digits hds
  refine ⟨Decimal.ofDigits ds, ?_, ?_⟩
  · rw [integerOf?, hread]
    rfl
  · rw [hread]
    rfl

theorem floatOf?_point {whole fraction : List Char} (hw : Numeral.IsDigits whole)
    (hf : Numeral.IsDigits fraction) :
    ∃ x, floatOf? (whole ++ '.' :: fraction) = some x ∧ x.isInfinite = !x.isFinite ∧
      (Numeral.read? (whole ++ '.' :: fraction)).map Numeral.value = some (.float x) := by
  obtain ⟨ws, -, hws⟩ := hw.values
  obtain ⟨fs, -, hfs⟩ := hf.values
  have hread := Numeral.read?_point hws hfs
  refine ⟨Numeral.toBinary64 ⟨false, ws, some fs, 0⟩, ?_, ?_, ?_⟩
  · rw [floatOf?, hread]
    rfl
  · unfold Numeral.toBinary64 Binary64.ofRank
    split <;> rfl
  · rw [hread]
    rfl

/-- A number converts, and is refused for the fault that it has. -/
theorem checkNumber_eq {raw : List Char} (h : Numeral.IsLexeme raw) (line : List Char)
    (stop : Nat) :
    checkNumber raw line stop =
      answer LexFault.diagnostic
        (match Token.numberFault? raw (line.drop stop) stop with
        | some fault => .error fault
        | none => .ok ()) := by
  unfold checkNumber Token.numberFault?
  obtain h | ⟨whole, fraction, hwhole, hfraction, rfl⟩ := h
  -- Digits alone: a point behind them comes first, then the number of digits, then
  -- the value.
  · obtain ⟨n, hinteger, hvalue⟩ := integerOf?_digits h
    have hpoint : '.' ∉ raw := fun hmem => by simpa using h.ne_point '.' hmem
    rw [if_neg hpoint, hvalue, hinteger, pointAt_eq, pure_bind, liftM_some, pure_bind]
    by_cases hdot : (line.drop stop).head? = some '.'
    · simp only [hdot]
      rfl
    · by_cases hlong : 19 < (raw.dropWhile (· == '0')).length
      · simp only [hdot, hlong, Token.integerTooLarge]
        rfl
      · by_cases hlarge : (Token.largestInteger : Int) < n
        · simp only [hdot, hlong, hlarge, Token.integerTooLarge]
          rfl
        · simp only [hdot, hlong, hlarge, Token.integerTooLarge]
          rfl
  · obtain ⟨x, hfloat, hinfinite, hvalue⟩ := floatOf?_point hwhole hfraction
    rw [if_pos (by simp), hvalue, hfloat, liftM_some, pure_bind, hinfinite]
    cases hfinite : x.isFinite
    · simp only [hfinite]
      rfl
    · simp only [hfinite]
      rfl

/-! ## Tokens -/

theorem checkToken_eq {cs : List Char} {kind : Token.Kind} {length : Nat}
    (h : Token.longest? cs = some (kind, length)) (line : List Char) (stop : Nat) :
    checkToken kind (cs.take length) line stop =
      answer LexFault.diagnostic
        (match Token.fault? kind (cs.take length) (line.drop stop) stop with
        | some fault => .error fault
        | none => .ok ()) := by
  unfold checkToken Token.fault?
  by_cases hnumber : kind = .number
  · subst hnumber
    rw [if_pos rfl, if_pos rfl]
    exact checkNumber_eq (Token.longest?_number h) line stop
  · rw [if_neg hnumber, if_neg hnumber]
    rfl

theorem scanAt_stop (line : List Char) :
    scanAt line line.length = pure [⟨.endOfLine, "", line.length⟩] := by
  rw [scanAt, if_neg (Nat.lt_irrefl _)]

/-- At a place within the line its character is there. -/
theorem scanAt_step {line : List Char} {position : Nat} {c : Char} {rest : List Char}
    (h : line.drop position = c :: rest) :
    scanAt line position =
      if Character.isGap c then scanAt line (position + 1)
      else
        match Token.longest? (c :: rest) with
        | none =>
          throw { phase := .lexing, code := .unexpectedCharacter, position := some position,
                  params := [("char", String.singleton c)] }
        | some (kind, length) => do
          let raw := (c :: rest).take length
          checkToken kind raw line (position + length)
          let tokens ← scanAt line (position + length)
          return ⟨kind, String.ofList raw, position⟩ :: tokens := by
  have hchar : charAt? line position = some c := by
    rw [charAt?, ← List.head?_drop, h]
    rfl
  have hlt : position < line.length := by
    by_contra hge
    rw [List.drop_eq_nil_of_le (Nat.le_of_not_lt hge)] at h
    cases h
  rw [scanAt, if_pos hlt, hchar, liftM_some, pure_bind, h]
  cases Token.longest? (c :: rest) <;> rfl

theorem drop_behind {line rest : List Char} {position length : Nat} {c : Char}
    (h : line.drop position = c :: rest) (hlength : 0 < length) :
    line.drop (position + length) = rest.drop (length - 1) := by
  obtain ⟨n, rfl⟩ : ∃ n, length = n + 1 := ⟨length - 1, by omega⟩
  rw [← List.drop_drop, h]
  rfl

theorem length_of_drop {line rest : List Char} {position : Nat} {c : Char}
    (h : line.drop position = c :: rest) : position + (rest.length + 1) = line.length := by
  have hlength := congrArg List.length h
  rw [List.length_drop, List.length_cons] at hlength
  omega

/-- From every place of a line the scan by positions goes like that of the rest
of the text. -/
theorem scanAt_eq (position : Nat) (cs : List Char) :
    ∀ line : List Char, line.drop position = cs → position ≤ line.length →
      scanAt line position = answer LexFault.diagnostic (Token.scanFrom position cs) := by
  -- Along the scan, the text is always what the line has from the position on.
  apply Token.scanFrom_induction (motive := fun position cs result =>
    ∀ line : List Char, line.drop position = cs → position ≤ line.length →
      scanAt line position = answer LexFault.diagnostic result)
  case nil =>
    intro position line hline hle
    obtain rfl : position = line.length := by
      have := List.drop_eq_nil_iff.mp hline
      omega
    exact scanAt_stop line
  case gap =>
    intro position c rest hgap ih line hline hle
    have hend := length_of_drop hline
    rw [scanAt_step hline, if_pos hgap]
    exact ih line (drop_behind hline Nat.one_pos) (by omega)
  case unexpected =>
    intro position c rest hgap hlongest line hline _
    rw [scanAt_step hline, if_neg hgap, hlongest]
    rfl
  case faulty =>
    intro position c rest kind length fault hgap hlongest hfault line hline _
    obtain ⟨hpos, -⟩ := Token.longest?_bounds hlongest
    rw [scanAt_step hline, if_neg hgap, hlongest]
    dsimp only
    rw [checkToken_eq hlongest, drop_behind hline hpos]
    push_cast
    rw [hfault]
    rfl
  case found =>
    intro position c rest kind length hgap hlongest hfault ih line hline hle
    obtain ⟨hpos, hlength⟩ := Token.longest?_bounds hlongest
    have hend := length_of_drop hline
    have hbehind := drop_behind hline hpos
    rw [List.length_cons] at hlength
    rw [scanAt_step hline, if_neg hgap, hlongest]
    dsimp only
    rw [checkToken_eq hlongest, hbehind, ih line hbehind (by omega)]
    push_cast
    rw [hfault]
    cases Token.scanFrom (position + length) (rest.drop (length - 1)) <;> rfl

/-- A line has the same tokens or the same fault. -/
theorem scan_eq (line : String) :
    scan line = answer LexFault.diagnostic (Token.scan line) :=
  scanAt_eq 0 line.toList line.toList rfl (Nat.zero_le _)

end Reckoner.Checked
