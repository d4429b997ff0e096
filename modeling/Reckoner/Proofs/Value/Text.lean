import Reckoner.Proofs.Binary64.Text

/-! The text of a value tells which value it is. An integer is written as a whole
number alone, a finite float with a point or an exponent, and the others as words; so
the text can be read back. -/
namespace Reckoner

namespace Value

/-- The text of an integer spells it. -/
theorem int_spelled (n : Int) :
    ∃ f : Figures, f.Spells (intChars n) ∧ f.value = .int n := by
  refine ⟨⟨n < 0, Nat.toDigits 10 n.natAbs, none, none⟩, ?_, ?_⟩
  · have hspells : Figures.Spells ⟨n < 0, Nat.toDigits 10 n.natAbs, none, none⟩ _ :=
      .parts (Figures.isWhole_toDigits n.natAbs) .absent .absent
    rw [List.append_nil, List.append_nil] at hspells
    by_cases hneg : n < 0
    · simpa [intChars, Binary64.signChars, hneg] using hspells
    · simpa [intChars, Binary64.signChars, hneg] using hspells
  · rw [Figures.value, if_pos ⟨rfl, rfl⟩, Nat.ofDigitChars_ten_toDigits, Figures.signed_natAbs]

/-- The floats that are written as words. -/
def words : List (List Char × Binary64) :=
  [(['n', 'a', 'n'], .nan), (['i', 'n', 'f'], .infinite false),
    (['-', 'i', 'n', 'f'], .infinite true)]

/-- The value that a text writes: a word, or a number and nothing behind it. -/
def ofChars? (cs : List Char) : Option Value :=
  match words.lookup cs with
  | some x => some (.float x)
  | none =>
    match Figures.read? cs with
    | some (f, []) => some f.value
    | _ => none

/-- A number is not taken for a word. -/
theorem ofChars?_spelled {f : Figures} {cs : List Char} (h : f.Spells cs) :
    ofChars? cs = some f.value := by
  have hread : Figures.read? cs = some (f, []) := by
    have := Figures.read?_append h Figures.ends_nil
    rwa [List.append_nil] at this
  have hlookup : words.lookup cs = none := by
    refine List.lookup_eq_none_iff.mpr fun word hword => ?_
    have hletters : ∀ word ∈ words, word.1.all Figures.isFigure = false := by decide
    rw [bne_iff_ne]
    rintro rfl
    have hfalse := hletters word hword
    rw [List.all_eq_true.mpr h.isFigure] at hfalse
    contradiction
  rw [ofChars?, hlookup, hread]

/-- The text of a value is read back. -/
theorem ofChars?_chars (v : Value) : ofChars? v.chars = some v := by
  cases v with
  | int n =>
    obtain ⟨f, hspells, hvalue⟩ := int_spelled n
    rw [chars, ofChars?_spelled hspells, hvalue]
  | float x =>
    cases x with
    | nan => rfl
    | infinite negative => cases negative <;> rfl
    | finite negative rank =>
      obtain ⟨f, hspells, hvalue⟩ := Binary64.finite_spelled negative rank
      rw [chars, ofChars?_spelled hspells, hvalue]

/-- The characters of the text of a value: those of numbers, and the letters of words. -/
theorem mem_chars (v : Value) :
    ∀ c ∈ v.chars, Figures.isFigure c = true ∨ c ∈ ['n', 'a', 'i', 'f'] := by
  cases v with
  | int n =>
    obtain ⟨f, hspells, -⟩ := int_spelled n
    exact fun c hc => .inl (hspells.isFigure c hc)
  | float x =>
    cases x with
    | nan => simp [chars, Binary64.chars]
    | infinite negative =>
      cases negative <;> simp [chars, Binary64.chars, Binary64.signChars, Figures.isFigure]
    | finite negative rank =>
      obtain ⟨f, hspells, -⟩ := Binary64.finite_spelled negative rank
      exact fun c hc => .inl (hspells.isFigure c hc)

end Value

end Reckoner
