import Mathlib.Tactic.Convert
import Reckoner.Proofs.Decimal.Rounding
import Reckoner.Proofs.Session.Range
import Reckoner.Proofs.Token.Lookahead

/-! Decimal literals, from the text to the tree. The scan checks the number that a literal
rounds to, and the parser rounds it again for the tree. Both are the one rounding of the
exact value: the scan rejects a literal from the midpoint above the largest finite number
on, and a tree has the number of the format that is nearest to it. -/
namespace Reckoner

open Binary64 (IsNearest rankLimit)
open Numeral (DigitValues)

/-- The text is digits around a point, and this is the exact number that they denote. -/
inductive Numeral.DenotesExactly : List Char → ℚ → Prop
  | point {whole fraction ws fs} (hw : DigitValues whole ws) (hf : DigitValues fraction fs) :
      DenotesExactly (whole ++ '.' :: fraction)
        (Decimal.ofDigits ws + Decimal.ofDigits fs / 10 ^ fs.length)

variable {text : List Char} {q : ℚ}

open Numeral (DenotesExactly)

/-- The float that the text denotes is the rounded decimal of this exact value. -/
theorem Numeral.DenotesExactly.exists_decimal (h : DenotesExactly text q) :
    ∃ d : Decimal, d.toRat = q ∧ Denotes text (.float d.toBinary64) := by
  cases h with
  | point hw hf => exact ⟨_, Decimal.toRat_point _ _, .decimal hw hf⟩

theorem Numeral.Denotes.exactly {x : Binary64} (h : Denotes text (.float x)) :
    ∃ d : Decimal, DenotesExactly text d.toRat ∧ x = d.toBinary64 := by
  cases h with
  | decimal hw hf =>
    refine ⟨_, ?_, rfl⟩
    rw [Decimal.toRat_point]
    exact .point hw hf

/-! ## The scan -/

namespace Token

/-- The check of the scan, whatever is behind the literal. -/
theorem numberFault?_exactly (h : DenotesExactly text q) (rest : List Char) (stop : Int) :
    numberFault? text rest stop =
      if 2 ^ 1024 - 2 ^ 970 ≤ q then some (.literalTooLarge .floating (String.ofList text))
      else none := by
  obtain ⟨d, rfl, hdenotes⟩ := h.exists_decimal
  rw [numberFault?_floating hdenotes]
  by_cases hfinite : d.toBinary64.isFinite = true
  · rw [if_pos hfinite, if_neg (not_le.mpr (d.isFinite_toBinary64_iff.mp hfinite))]
  · rw [if_neg hfinite, if_pos (not_lt.mp (mt d.isFinite_toBinary64_iff.mpr hfinite))]

theorem scan_exactly (h : DenotesExactly text q) :
    scan (String.ofList text) =
      if 2 ^ 1024 - 2 ^ 970 ≤ q then .error (.literalTooLarge .floating (String.ofList text))
      else .ok [⟨.number, String.ofList text, 0⟩, ⟨.endOfLine, "", text.length⟩] := by
  obtain ⟨d, -, hdenotes⟩ := h.exists_decimal
  rw [scan_number hdenotes.isLexeme, numberFault?_exactly h]
  by_cases hlarge : 2 ^ 1024 - 2 ^ 970 ≤ q
  · rw [if_pos hlarge, if_pos hlarge]
  · rw [if_neg hlarge, if_neg hlarge]

end Token

/-! ## The tree -/

/-- A float in the tree of a line is the finite number nearest to what a literal of the line
denotes. -/
theorem parseLine_float {line : String} {a : Assignment} (h : parseLine line = .ok a)
    {x : Binary64} (hx : .float x ∈ a.expression.literals) :
    ∃ tokens token p, ∃ rank : Fin rankLimit, Token.scan line = .ok tokens ∧ token ∈ tokens ∧
      DenotesExactly token.lexeme.toList p ∧ IsNearest p rank ∧ x = .finite false rank := by
  obtain ⟨tokens, hscan, hsentence, -⟩ := parseLine_sentence h
  obtain ⟨token, ht, hkind, hdenotes⟩ : ∃ token ∈ tokens, token.kind = .number ∧
      Numeral.Denotes token.lexeme.toList (.float x) := by
    cases hsentence with
    | @intro target operator body stop op node _ _ hb _ =>
      obtain ⟨token, ht, hnumber⟩ := hb.exists_number _ hx
      exact ⟨token, by simp [ht], hnumber⟩
  obtain ⟨stop, hfault⟩ := (Token.scanFrom_eq_ok_iff.mp hscan).faultless token ht hkind
  obtain ⟨d, hexact, rfl⟩ := hdenotes.exactly
  rw [Token.numberFault?_exactly hexact] at hfault
  split at hfault
  · cases hfault
  · next hbelow =>
    obtain ⟨rank, hrank, hnearest, -⟩ := Decimal.exists_toBinary64 (not_le.mp hbelow)
    exact ⟨tokens, token, _, rank, hscan, ht, hexact, (hnearest rank).mpr rfl, hrank⟩

/-- What the parser makes of a number with a point. -/
theorem Grammar.primary_exactly (h : DenotesExactly text q) :
    ∃ d : Decimal, d.toRat = q ∧ ∀ (position : Int) (rest : List Token),
      outcome (primary (⟨.number, String.ofList text, position⟩ :: rest)) =
        .ok (.literal position (.float d.toBinary64), rest) := by
  obtain ⟨d, hd, hdenotes⟩ := h.exists_decimal
  refine ⟨d, hd, fun position rest => ?_⟩
  have hnumber : numberOf ⟨.number, String.ofList text, position⟩ = .ok (.float d.toBinary64) :=
    numberOf_denotes (by rwa [String.toList_ofList])
  rw [outcome_primary_number rfl, hnumber]
  rfl

/-- A decimal literal is too large from the midpoint above the largest finite number on, by
itself and wherever it stands in a line. The float that the parser makes of it is infinite just
there. Below, it is the number of the format nearest to the exact value, of two equally near
ones the one with the even significand, and zero for half of the smallest number and less. So
every float in the tree of a line is finite, and nearest to what a literal of the line
denotes. -/
theorem decimalLiteral_nearest (h : DenotesExactly text q) :
    Token.scan (String.ofList text) =
      (if 2 ^ 1024 - 2 ^ 970 ≤ q then .error (.literalTooLarge .floating (String.ofList text))
      else .ok [⟨.number, String.ofList text, 0⟩, ⟨.endOfLine, "", text.length⟩]) ∧
    (∀ rest stop, Token.numberFault? text rest stop =
      if 2 ^ 1024 - 2 ^ 970 ≤ q then some (.literalTooLarge .floating (String.ofList text))
      else none) ∧
    (LexFault.literalTooLarge .floating (String.ofList text)).diagnostic.message =
      "[LexerError] LEXER_003: Floating-point overflow literal: " ++ String.ofList text ∧
    (∃ x : Binary64,
      (∀ (position : Int) (rest : List Token),
        Grammar.outcome (Grammar.primary (⟨.number, String.ofList text, position⟩ :: rest)) =
          .ok (.literal position (.float x), rest)) ∧
      (x.isFinite = true ↔ q < 2 ^ 1024 - 2 ^ 970) ∧
      (q < 2 ^ 1024 - 2 ^ 970 → ∃ rank : Fin rankLimit, x = .finite false rank ∧
        (∀ other : Fin rankLimit, IsNearest q other ↔ other = rank) ∧
        (rank.val = 0 ↔ q ≤ 2 ^ (-1075 : ℤ)))) ∧
    ∀ line a, parseLine line = .ok a → ∀ x, .float x ∈ a.expression.literals →
      x.isFinite = true ∧
      ∃ tokens token p, ∃ rank : Fin rankLimit, Token.scan line = .ok tokens ∧ token ∈ tokens ∧
        DenotesExactly token.lexeme.toList p ∧ IsNearest p rank ∧ x = .finite false rank := by
  refine ⟨Token.scan_exactly h, Token.numberFault?_exactly h, ?_, ?_, fun line a hparse x hx => ?_⟩
  · exact (LexFault.message_literalTooLarge .floating _).trans (congrArg (· ++ _) (by decide))
  · obtain ⟨d, rfl, hprimary⟩ := Grammar.primary_exactly h
    exact ⟨_, hprimary, d.isFinite_toBinary64_iff, Decimal.exists_toBinary64⟩
  · obtain ⟨tokens, token, p, rank, hscan, ht, hexact, hnearest, rfl⟩ := parseLine_float hparse hx
    exact ⟨rfl, tokens, token, p, rank, hscan, ht, hexact, hnearest, rfl⟩

/-- 2^53 + 1, halfway between two neighbours, is read as 2^53, whose significand is even. -/
theorem decimalLiteral_halfway :
    let whole := ['٩', '0', '0', '7', '1', '9', '9', '2', '5', '4', '7', '4', '0', '9', '9', '3']
    DenotesExactly (whole ++ ['.', '0']) (2 ^ 53 + 1) ∧ IsNearest (2 ^ 53 + 1) (1076 * 2 ^ 52) ∧
      Grammar.numberOf ⟨.number, String.ofList (whole ++ ['.', '0']), 0⟩ =
        .ok (.float (.finite false ⟨1076 * 2 ^ 52, by decide⟩)) := by
  intro whole
  have hexact : DenotesExactly (whole ++ ['.', '0']) (2 ^ 53 + 1) := by
    have hwhole : DigitValues whole [9, 0, 0, 7, 1, 9, 9, 2, 5, 4, 7, 4, 0, 9, 9, 3] :=
      ⟨by decide, by decide +kernel⟩
    have hfraction : DigitValues ['0'] [0] := ⟨by decide, by decide⟩
    have hws : Decimal.ofDigits [9, 0, 0, 7, 1, 9, 9, 2, 5, 4, 7, 4, 0, 9, 9, 3] = 2 ^ 53 + 1 := by
      decide +kernel
    have hfs : Decimal.ofDigits [0] = 0 := by decide
    have hpoint := DenotesExactly.point hwhole hfraction
    rw [hws, hfs] at hpoint
    convert hpoint using 1
    push_cast
    ring
  have hnumber : Grammar.numberOf ⟨.number, String.ofList (whole ++ ['.', '0']), 0⟩ =
      .ok (.float (.finite false ⟨1076 * 2 ^ 52, by decide⟩)) := by
    decide +kernel
  obtain ⟨-, -, -, ⟨x, hprimary, hfinite, hnearest⟩, -⟩ := decimalLiteral_nearest hexact
  have hread := hprimary 0 []
  rw [Grammar.outcome_primary_number rfl, hnumber] at hread
  cases hread
  obtain ⟨rank, hrank, hnearest, -⟩ := hnearest (hfinite.mp rfl)
  cases hrank
  exact ⟨hexact, (hnearest _).mpr rfl, hnumber⟩

end Reckoner
