import Reckoner.Proofs.Decimal.Digits
import Reckoner.Proofs.Token.Lookahead

/-! Integer literals at the limit. A literal is measured by its value, and also by the
characters that are left of it without the zeros `0` at its start. The zeros of other
scripts are left, so a literal that starts with them can be too long while its value is
small; any other literal is judged by its value alone. -/
namespace Reckoner.Token

open Numeral (DigitValues)

/-- The literal without the zeros `0` at its start. -/
def significant (lexeme : List Char) : List Char :=
  lexeme.dropWhile (· == '0')

/-- The literal is one token if the number is an integer of 64 bits, and else the fault is
that it is too large. -/
def JudgedByValue (lexeme : List Char) (n : Nat) : Prop :=
  scan (String.ofList lexeme) =
    if n ≤ 2 ^ 63 - 1 then
      .ok [⟨.number, String.ofList lexeme, 0⟩, ⟨.endOfLine, "", lexeme.length⟩]
    else .error (.literalTooLarge .integer (String.ofList lexeme))

variable {lexeme : List Char} {ds : List Nat}

/-! ## The length behind the zeros -/

/-- The zeros at the start have no part in the value. -/
theorem exists_significant_values (h : lexeme.map Character.digit? = ds.map some) :
    ∃ es, (significant lexeme).map Character.digit? = es.map some ∧
      Decimal.ofDigits es = Decimal.ofDigits ds := by
  induction lexeme generalizing ds with
  | nil => exact ⟨ds, h, rfl⟩
  | cons c cs ih =>
    by_cases hzero : c = '0'
    · subst hzero
      obtain ⟨d, es, rfl, hd, hes⟩ := List.map_eq_cons_iff.mp h.symm
      have hvalue : Character.digit? '0' = some 0 := by decide
      obtain rfl := Option.some.inj (hd.trans hvalue)
      rw [significant, List.dropWhile_cons_of_pos (by decide), Decimal.ofDigits_zero_cons]
      exact ih hes.symm
    · rw [significant, List.dropWhile_cons_of_neg (by simpa using hzero)]
      exact ⟨ds, h, rfl⟩

/-- Where no zero of another script stands at the start of what is left, an integer of 64
bits has at most nineteen digits there. -/
theorem length_significant_le (h : DigitValues lexeme ds)
    (hhead : ∀ c, (significant lexeme).head? = some c → Character.digit? c ≠ some 0)
    (hfits : Decimal.ofDigits ds ≤ 2 ^ 63 - 1) : (significant lexeme).length ≤ 19 := by
  obtain ⟨es, hes, hvalue⟩ := exists_significant_values h.2
  have hlength : (significant lexeme).length = es.length := by
    simpa using congrArg List.length hes
  cases es with
  | nil => simp [hlength]
  | cons e es =>
    obtain ⟨c, cs, hcs, hc, -⟩ := List.map_eq_cons_iff.mp hes
    have he : e ≠ 0 := by
      rintro rfl
      exact hhead c (by rw [hcs, List.head?_cons]) hc
    have hpow : 10 ^ es.length < 10 ^ 19 :=
      calc 10 ^ es.length ≤ Decimal.ofDigits (e :: es) := Decimal.pow_length_le_ofDigits he es
        _ ≤ 2 ^ 63 - 1 := hvalue ▸ hfits
        _ < 10 ^ 19 := by decide
    rw [hlength, List.length_cons]
    exact (Nat.pow_lt_pow_iff_right (by decide)).mp hpow

/-! ## The literal as a line -/

theorem integerTooLarge_eq_false_iff {n : Nat} :
    integerTooLarge lexeme n = false ↔ n ≤ 2 ^ 63 - 1 ∧ (significant lexeme).length ≤ 19 := by
  have hmax : (largestInteger : Int) = 9223372036854775807 := by decide
  rw [integerTooLarge, ← significant, Bool.or_eq_false_iff, decide_eq_false_iff_not,
    decide_eq_false_iff_not, hmax]
  omega

theorem scan_digits (h : DigitValues lexeme ds) :
    scan (String.ofList lexeme) =
      if Decimal.ofDigits ds ≤ 2 ^ 63 - 1 ∧ (significant lexeme).length ≤ 19 then
        .ok [⟨.number, String.ofList lexeme, 0⟩, ⟨.endOfLine, "", lexeme.length⟩]
      else .error (.literalTooLarge .integer (String.ofList lexeme)) := by
  have hpoint : ([] : List Char).head? ≠ some '.' := nofun
  rw [scan_number (.inl h.isDigits), numberFault?_integer (.integer h), if_neg hpoint]
  by_cases hfits : integerTooLarge lexeme (Decimal.ofDigits ds) = false
  · rw [if_pos (integerTooLarge_eq_false_iff.mp hfits), if_neg (by simp [hfits])]
  · rw [if_neg (fun hboth => hfits (integerTooLarge_eq_false_iff.mpr hboth)),
      if_pos (by simpa using hfits)]

/-- The literal is judged by its value unless the value is small and the literal long. -/
theorem judgedByValue_iff (h : DigitValues lexeme ds) :
    JudgedByValue lexeme (Decimal.ofDigits ds) ↔
      (Decimal.ofDigits ds ≤ 2 ^ 63 - 1 → (significant lexeme).length ≤ 19) := by
  rw [JudgedByValue, scan_digits h]
  by_cases hfits : Decimal.ofDigits ds ≤ 2 ^ 63 - 1
  · by_cases hlength : (significant lexeme).length ≤ 19
    · rw [if_pos ⟨hfits, hlength⟩, if_pos hfits]
      exact iff_of_true rfl fun _ => hlength
    · rw [if_neg fun hboth => hlength hboth.2, if_pos hfits]
      exact iff_of_false nofun fun hshort => hlength (hshort hfits)
  · rw [if_neg fun hboth => hfits hboth.1, if_neg hfits]
    exact iff_of_true rfl fun hfits' => absurd hfits' hfits

/-- A literal of digits is one token if its value fits and no more than nineteen characters
are left without the zeros `0` at its start, and else it is too large. So its value alone
decides, unless it fits and more characters are left; and for that a zero of another script
must stand in front of them. -/
theorem scan_integerLiteral (h : DigitValues lexeme ds) :
    scan (String.ofList lexeme) =
        (if Decimal.ofDigits ds ≤ 2 ^ 63 - 1 ∧ (significant lexeme).length ≤ 19 then
          .ok [⟨.number, String.ofList lexeme, 0⟩, ⟨.endOfLine, "", lexeme.length⟩]
        else .error (.literalTooLarge .integer (String.ofList lexeme))) ∧
      (JudgedByValue lexeme (Decimal.ofDigits ds) ↔
        (Decimal.ofDigits ds ≤ 2 ^ 63 - 1 → (significant lexeme).length ≤ 19)) ∧
      ((∀ c, (significant lexeme).head? = some c → Character.digit? c ≠ some 0) →
        JudgedByValue lexeme (Decimal.ofDigits ds)) ∧
      (LexFault.literalTooLarge .integer (String.ofList lexeme)).diagnostic.message =
        "[LexerError] LEXER_003: Integer overflow literal: " ++ String.ofList lexeme :=
  ⟨scan_digits h, judgedByValue_iff h,
    fun hhead => (judgedByValue_iff h).mpr (length_significant_le h hhead),
    (LexFault.message_literalTooLarge .integer _).trans (congrArg (· ++ _) (by decide))⟩

/-- Zeros of the first script in front of the largest integer in the digits of another. -/
theorem scan_largestInteger :
    let zeros := List.replicate 22 '0'
    let figures := ['٩', '٢', '٢', '٣', '٣', '٧', '٢', '٠', '٣', '٦', '٨', '٥', '٤', '٧', '٧',
      '٥', '٨', '٠', '٧']
    let ds := List.replicate 22 0 ++
      [9, 2, 2, 3, 3, 7, 2, 0, 3, 6, 8, 5, 4, 7, 7, 5, 8, 0, 7]
    DigitValues (zeros ++ figures) ds ∧ Decimal.ofDigits ds = 2 ^ 63 - 1 ∧
      JudgedByValue (zeros ++ figures) (2 ^ 63 - 1) := by
  intro zeros figures ds
  have hvalues : DigitValues (zeros ++ figures) ds := ⟨by decide, by decide +kernel⟩
  have hvalue : Decimal.ofDigits ds = 2 ^ 63 - 1 := by decide +kernel
  have hhead : (significant (zeros ++ figures)).head? = some '٩' := by decide +kernel
  have hjudged := (scan_integerLiteral hvalues).2.2.1 fun c hc => by
    obtain rfl := Option.some.inj (hhead.symm.trans hc)
    decide +kernel
  rw [hvalue] at hjudged
  exact ⟨hvalues, hvalue, hjudged⟩

/-- Nineteen zeros of another script and a one are too large. -/
theorem not_judgedByValue_one :
    let text := List.replicate 19 '٠' ++ ['١']
    DigitValues text (List.replicate 19 0 ++ [1]) ∧
      Decimal.ofDigits (List.replicate 19 0 ++ [1]) = 1 ∧
      scan (String.ofList text) = .error (.literalTooLarge .integer (String.ofList text)) ∧
      ¬ JudgedByValue text 1 := by
  intro text
  have hscan : scan (String.ofList text) =
      .error (.literalTooLarge .integer (String.ofList text)) := by decide +kernel
  refine ⟨⟨by decide, by decide +kernel⟩, by decide, hscan, ?_⟩
  rw [JudgedByValue, hscan, if_pos (by decide)]
  exact nofun

end Reckoner.Token
