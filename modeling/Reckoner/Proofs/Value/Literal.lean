import Reckoner.Proofs.Token.Literals
import Reckoner.Proofs.Value.Range
import Reckoner.Proofs.Value.Text

/-! The text of a value as a number of a line. Behind the sign stands a literal, unless
the text has an exponent, and the sign turns the value of the literal into the one that
was written. Of all literals that stand there one is too large: the magnitude of the
smallest integer, which is one more than the largest integer. -/
namespace Reckoner

/-! ## ASCII digits -/

theorem Character.digit?_ascii {c : Char} (h : c.isDigit = true) :
    digit? c = some (c.toNat - '0'.toNat) := by
  rw [Char.isDigit, Bool.and_eq_true, decide_eq_true_eq, decide_eq_true_eq] at h
  have hlow : 0x30 ≤ c.toNat := h.1
  have hhigh : c.toNat ≤ 0x39 := h.2
  rw [digit?, digitZeros, List.find?_cons_of_pos (by simp; omega)]
  rfl

namespace Figures

theorem IsDigits.digitValues {cs : List Char} (h : IsDigits cs) :
    Numeral.DigitValues cs (cs.map fun c => c.toNat - '0'.toNat) := by
  refine ⟨h.1, ?_⟩
  rw [List.map_map]
  exact List.map_congr_left fun c hc => Character.digit?_ascii (h.2 c hc)

theorem ofDigits_digitValues (cs : List Char) :
    Decimal.ofDigits (cs.map fun c => c.toNat - '0'.toNat) = Nat.ofDigitChars 10 cs 0 := by
  rw [Decimal.ofDigits, List.foldl_map, Nat.ofDigitChars_eq_foldl]

/-- A number that is spelled without a letter has no power of ten. -/
theorem Spells.exponent_eq_none {f : Figures} {cs : List Char} (h : f.Spells cs) (he : 'e' ∉ cs)
    (hE : 'E' ∉ cs) : f.exponent = none := by
  obtain @⟨_, _, _, exponent, _, _, _, _, hexponent⟩ := h
  cases hexponent with
  | absent => rfl
  | present hmark =>
    rcases hmark with rfl | rfl
    · exact absurd (by simp) he
    · exact absurd (by simp) hE

end Figures

namespace Binary64

/-! ## The letters of a text -/

/-- The marks in the text of a magnitude. -/
def marks : List Char :=
  ['.', 'e', '+', '-']

variable {digits : List Char}

theorem mem_positional (h : ∀ c ∈ digits, c.isDigit = true) (exponent : Int) :
    ∀ c ∈ positional digits exponent, c.isDigit = true ∨ c ∈ marks := by
  have hfilled (k : Nat) : ∀ c ∈ digits ++ List.replicate k '0', c.isDigit = true :=
    List.forall_mem_append.mpr ⟨h, Figures.isDigit_replicate_zero k⟩
  intro c hc
  unfold positional at hc
  dsimp only at hc
  split at hc
  · rcases List.mem_cons.mp hc with rfl | hc
    · exact .inl rfl
    · rcases List.mem_cons.mp hc with rfl | hc
      · exact .inr (by decide)
      · rcases List.mem_append.mp hc with hc | hc
        · exact .inl (Figures.isDigit_replicate_zero _ c hc)
        · exact .inl (h c hc)
  · rcases List.mem_append.mp hc with hc | hc
    · exact .inl (hfilled _ c (List.mem_of_mem_take hc))
    · rcases List.mem_cons.mp hc with rfl | hc
      · exact .inr (by decide)
      · split at hc
        · rw [List.mem_singleton.mp hc]
          exact .inl rfl
        · exact .inl (hfilled _ c (List.mem_of_mem_drop hc))

theorem mem_scientific (h : ∀ c ∈ digits, c.isDigit = true) (exponent : Int) :
    ∀ c ∈ scientific digits exponent, c.isDigit = true ∨ c ∈ marks := by
  intro c hc
  unfold scientific exponentPart at hc
  dsimp only at hc
  rcases List.mem_append.mp hc with hc | hc
  · rcases List.mem_append.mp hc with hc | hc
    · exact .inl (h c (List.mem_of_mem_take hc))
    · split at hc
      · cases hc
      · rcases List.mem_cons.mp hc with rfl | hc
        · exact .inr (by decide)
        · exact .inl (h c (List.mem_of_mem_drop hc))
  · rcases List.mem_cons.mp hc with rfl | hc
    · exact .inr (by decide)
    · rcases List.mem_cons.mp hc with rfl | hc
      · exact .inr (by split <;> decide)
      · exact .inl (((Figures.isDigits_toDigits _).zeros _).2 c hc)

theorem mem_magnitudeChars (rank : Nat) :
    ∀ c ∈ magnitudeChars rank, c.isDigit = true ∨ c ∈ marks := by
  intro c hc
  unfold magnitudeChars at hc
  split at hc
  · simp only [List.mem_cons, List.not_mem_nil, or_false] at hc
    rcases hc with rfl | rfl | rfl
    · exact .inl rfl
    · exact .inr (by decide)
    · exact .inl rfl
  · dsimp only at hc
    have hdigits := (Figures.isDigits_toDigits (Decimal.shortest rank).coefficient).2
    split at hc
    · exact mem_positional hdigits _ c hc
    · exact mem_scientific hdigits _ c hc

/-! ## The literal of a magnitude -/

/-- Without an exponent the text of a magnitude is a literal, and it denotes the number
of this magnitude. -/
theorem magnitude_denotes (rank : Fin rankLimit) (h : 'e' ∉ magnitudeChars rank) :
    Numeral.Denotes (magnitudeChars rank) (.float (.finite false rank)) := by
  obtain ⟨f, hspells, hvalue⟩ := finite_spelled false rank
  have hcapital : 'E' ∉ magnitudeChars rank := fun hmem =>
    absurd (mem_magnitudeChars rank 'E' hmem) (by decide)
  have hexponent : f.exponent = none := hspells.exponent_eq_none h hcapital
  have htext : chars (.finite false rank) = magnitudeChars rank := rfl
  rw [htext] at hspells
  generalize magnitudeChars rank = cs at hspells
  obtain @⟨negative, whole, fraction, _, _, _, hwhole, hfraction, hpower⟩ := hspells
  obtain rfl : _ = none := hexponent
  cases hpower
  cases hfraction with
  | absent => cases hvalue
  | @present ds hds =>
    have hrank : ofRank negative _ = .finite false rank := Value.float.inj hvalue
    obtain rfl : negative = false := by
      unfold ofRank at hrank
      split at hrank <;> cases hrank
      rfl
    have hdenotes := Numeral.Denotes.decimal hwhole.1.digitValues hds.digitValues
    rw [← List.map_append, Figures.ofDigits_digitValues, List.length_map, ← Int.zero_sub] at hdenotes
    rw [← hvalue, List.append_nil]
    exact hdenotes

end Binary64

namespace Value

/-- The value with a sign in front of it. -/
def signed (negative : Bool) (v : Value) : Value :=
  if negative then v.negate else v

/-- A value whose text is a signed number of a line: an integer of the range, or a finite
float that is written without an exponent. -/
def IsWritten : Value → Prop
  | .int n => InRange (.int n)
  | .float x => x.isFinite = true ∧ 'e' ∉ x.chars

/-- The smallest integer. Its magnitude is no integer of the range. -/
def smallest : Value :=
  .int (-(1 <<< 63))

theorem smallest_eq : smallest = .int (-9223372036854775808) := by
  decide

/-- The literal in the text of an integer. -/
theorem integer_denotes (n : Nat) : Numeral.Denotes (Nat.toDigits 10 n) (.int n) := by
  have hdenotes := Numeral.Denotes.integer (Figures.isDigits_toDigits n).digitValues
  rwa [Figures.ofDigits_digitValues, Nat.ofDigitChars_ten_toDigits] at hdenotes

theorem signed_natAbs {n : Int} (h : (int n).InRange) :
    signed (n < 0) (.int n.natAbs) = .int n := by
  by_cases hneg : n < 0
  · rw [signed, decide_eq_true hneg, if_pos rfl, negate, Int.ofNat_natAbs_of_nonpos (by omega),
      Int.neg_neg, wrap_of_inRange h]
  · rw [signed, decide_eq_false hneg, if_neg (by simp), Int.natAbs_of_nonneg (by omega)]

/-- Only the magnitude of the smallest integer is too large. -/
theorem integerTooLarge_natAbs {n : Int} (h : (int n).InRange) :
    Token.integerTooLarge (Nat.toDigits 10 n.natAbs) n.natAbs = true ↔ int n = smallest := by
  rw [inRange_int] at h
  have hlength : (Nat.toDigits 10 n.natAbs).length ≤ 19 :=
    (Nat.length_toDigits_le_iff (by decide) (by decide)).mpr (by omega)
  have hdigits := (List.dropWhile_suffix (· == '0') (l := Nat.toDigits 10 n.natAbs)).length_le
  have hlargest : Token.largestInteger = 9223372036854775807 := by decide
  rw [Token.integerTooLarge, decide_eq_false (by omega), Bool.false_or, decide_eq_true_eq,
    smallest_eq, hlargest, Value.int.injEq]
  omega

/-- The text of a written value is a sign and a literal, which denotes the value but for
the sign. The literal has no fault by itself, unless the value is the smallest integer. -/
theorem exists_literal {v : Value} (h : v.IsWritten) :
    ∃ negative literal w, v.chars = Binary64.signChars negative ++ literal ∧
      Numeral.Denotes literal w ∧ signed negative w = v ∧
      ∀ stop, Token.numberFault? literal [] stop =
        if v = smallest then some (.literalTooLarge .integer "9223372036854775808") else none := by
  cases v with
  | int n =>
    have hvalue := integer_denotes n.natAbs
    refine ⟨n < 0, Nat.toDigits 10 n.natAbs, .int n.natAbs, ?_, hvalue, signed_natAbs h, ?_⟩
    · simp [chars, intChars, Binary64.signChars]
    · intro stop
      rw [Token.numberFault?_integer hvalue, if_neg (by simp)]
      by_cases hn : int n = smallest
      · rw [if_pos ((integerTooLarge_natAbs h).mpr hn), if_pos hn]
        obtain rfl := Value.int.inj (hn.trans smallest_eq)
        decide +kernel
      · rw [if_neg (mt (integerTooLarge_natAbs h).mp hn), if_neg hn]
  | float x =>
    obtain ⟨hfinite, hexponent⟩ := h
    cases x with
    | nan | infinite => cases hfinite
    | finite negative rank =>
      have hletter : 'e' ∉ Binary64.magnitudeChars rank := fun hmem =>
        hexponent (List.mem_append_right _ hmem)
      have hvalue := Binary64.magnitude_denotes rank hletter
      refine ⟨negative, _, _, rfl, hvalue, ?_, fun stop => ?_⟩
      · cases negative <;> rfl
      · rw [Token.numberFault?_floating hvalue]
        simp [Binary64.isFinite, smallest]

end Value

end Reckoner
