import Reckoner.Proofs.Token.Classes

/-! The tokens of a line as a division of its text. Every character is part of one
token or of the gaps around them, and each token is the longest text of a class
that the rest of the line starts with. -/
namespace Reckoner.Token

/-- The place behind the last character of a token. -/
def stop (token : Token) : Int :=
  token.position + token.lexeme.length

/-- The tokens divide the text, whose first character stands at `place`: gaps are
passed over, a token is the longest one at its place, and the last one is the end
of the line. -/
inductive Divides : Nat → List Char → List Token → Prop
  | last {place gap} (hgap : ∀ c ∈ gap, Character.isGap c = true) :
      Divides place gap [⟨.endOfLine, "", (place + gap.length : Nat)⟩]
  | word {place gap lexeme rest kind tokens} (hgap : ∀ c ∈ gap, Character.isGap c = true)
      (hlongest : longest? (lexeme ++ rest) = some (kind, lexeme.length))
      (h : Divides (place + gap.length + lexeme.length) rest tokens) :
      Divides place (gap ++ (lexeme ++ rest))
        (⟨kind, String.ofList lexeme, (place + gap.length : Nat)⟩ :: tokens)

/-! ## A scan divides the text -/

/-- A gap in front of a divided text belongs to its first gap. -/
theorem Divides.gap_cons {place : Nat} {c : Char} {cs : List Char} {tokens : List Token}
    (hc : Character.isGap c = true) (h : Divides (place + 1) cs tokens) :
    Divides place (c :: cs) tokens := by
  have hplace (gap : List Char) : place + 1 + gap.length = place + (c :: gap).length := by
    rw [List.length_cons]
    omega
  cases h with
  | last hgap =>
    rw [hplace cs]
    exact .last (List.forall_mem_cons.mpr ⟨hc, hgap⟩)
  | @word _ gap lexeme rest kind tokens hgap hlongest h =>
    rw [hplace gap] at h ⊢
    rw [← List.cons_append]
    exact .word (List.forall_mem_cons.mpr ⟨hc, hgap⟩) hlongest h

theorem scanFrom_divides (place : Nat) (cs : List Char) :
    ∀ tokens, scanFrom place cs = .ok tokens → Divides place cs tokens := by
  apply scanFrom_induction (motive := fun place cs answer =>
    ∀ tokens, answer = .ok tokens → Divides place cs tokens)
  case nil =>
    rintro place tokens ⟨⟩
    exact .last fun _ hc => absurd hc List.not_mem_nil
  case gap => exact fun place c rest hc ih tokens h => (ih tokens h).gap_cons hc
  case unexpected => rintro place c rest _ _ tokens ⟨⟩
  case faulty => rintro place c rest kind length fault _ _ _ tokens ⟨⟩
  case found =>
    intro place c rest kind length _ hlongest _ ih tokens h
    cases hrest : scanFrom (place + length) (rest.drop (length - 1)) with
    | error fault =>
      rw [hrest] at h
      cases h
    | ok behind =>
      rw [hrest] at h
      cases h
      have hbehind := ih behind hrest
      obtain ⟨lexeme, text, htake, hdrop, hsplit, rfl⟩ := longest?_split hlongest
      rw [hdrop] at hbehind
      rw [hsplit] at hlongest
      rw [htake, hsplit]
      have hnone : ∀ d ∈ ([] : List Char), Character.isGap d = true := by simp
      exact .word hnone hlongest hbehind

/-! ## The words of a division -/

/-- The token is a word of the text. Its lexeme stands at its place and belongs to
the class that it reports and to no other, and no longer text of any class starts
there. -/
structure Munched (text : List Char) (token : Token) : Prop where
  position_nonneg : 0 ≤ token.position
  lexeme_ne_empty : token.lexeme ≠ ""
  slice : (text.drop token.position.toNat).take token.lexeme.length = token.lexeme.toList
  of_class : Lexeme token.kind token.lexeme.toList
  class_unique : ∀ kind, Lexeme kind token.lexeme.toList → kind = token.kind
  longest : ∀ kind other, Lexeme kind other → other <+: text.drop token.position.toNat →
    other.length ≤ token.lexeme.length

theorem munched_of_longest? {lexeme rest : List Char} {kind : Kind}
    (h : longest? (lexeme ++ rest) = some (kind, lexeme.length)) (before : List Char) :
    Munched (before ++ (lexeme ++ rest))
      ⟨kind, String.ofList lexeme, (before.length : Nat)⟩ := by
  have hclass : Lexeme kind (String.ofList lexeme).toList := by
    have := longest?_lexeme h
    rwa [List.take_left, ← String.toList_ofList (l := lexeme)] at this
  have hdrop : (before ++ (lexeme ++ rest)).drop ((before.length : Nat) : Int).toNat =
      lexeme ++ rest := by
    rw [Int.toNat_natCast, List.drop_left]
  have hlength : (String.ofList lexeme).length = lexeme.length := String.length_ofList
  refine ⟨Int.natCast_nonneg _, ?_, ?_, hclass, fun kind' h' => hclass.unique h', ?_⟩
  · intro hempty
    have hpos := (longest?_bounds h).1
    rw [← hlength, show String.ofList lexeme = "" from hempty] at hpos
    exact Nat.lt_irrefl 0 hpos
  · show List.take (String.ofList lexeme).length _ = (String.ofList lexeme).toList
    rw [hdrop, hlength, List.take_left, String.toList_ofList]
  · intro kind' other hother hstarts
    rw [hdrop] at hstarts
    show other.length ≤ (String.ofList lexeme).length
    rw [hlength]
    exact hother.length_le_longest? hstarts h

/-- All tokens but the last are words of the text, and the last is its end. -/
theorem Divides.words {place : Nat} {cs : List Char} {tokens : List Token}
    (h : Divides place cs tokens) (before : List Char) (hbefore : before.length = place) :
    ∃ words, tokens = words ++ [⟨.endOfLine, "", (place + cs.length : Nat)⟩] ∧
      ∀ word ∈ words, Munched (before ++ cs) word := by
  induction h generalizing before with
  | last => exact ⟨[], rfl, by simp⟩
  | @word place gap lexeme rest kind tokens _ hlongest _ ih =>
    have hlength : (before ++ gap ++ lexeme).length = place + gap.length + lexeme.length := by
      simp [hbefore, Nat.add_assoc]
    have hend : place + (gap ++ (lexeme ++ rest)).length =
        place + gap.length + lexeme.length + rest.length := by
      simp [Nat.add_assoc]
    obtain ⟨words, rfl, hwords⟩ := ih _ hlength
    have hword := munched_of_longest? hlongest (before ++ gap)
    rw [List.length_append, hbefore] at hword
    rw [hend, ← List.append_assoc before]
    refine ⟨⟨kind, String.ofList lexeme, (place + gap.length : Nat)⟩ :: words, rfl, ?_⟩
    rw [List.append_assoc (before ++ gap)] at hwords
    exact List.forall_mem_cons.mpr ⟨hword, hwords⟩

/-! ## Order and gaps -/

theorem Divides.le_position {place : Nat} {cs : List Char} {tokens : List Token}
    (h : Divides place cs tokens) : ∀ token ∈ tokens, (place : Int) ≤ token.position := by
  induction h with
  | last =>
    intro token ht
    rw [List.mem_singleton.mp ht]
    dsimp only
    omega
  | word _ _ _ ih =>
    refine List.forall_mem_cons.mpr ⟨by dsimp only; omega, fun token ht => ?_⟩
    have := ih token ht
    omega

/-- A token ends before the next one starts, or where it does. -/
theorem Divides.pairwise {place : Nat} {cs : List Char} {tokens : List Token}
    (h : Divides place cs tokens) : tokens.Pairwise fun a b => a.stop ≤ b.position := by
  induction h with
  | last => exact List.pairwise_singleton _ _
  | @word place gap lexeme rest kind tokens _ _ h ih =>
    refine List.pairwise_cons.mpr ⟨fun token ht => ?_, ih⟩
    have := h.le_position token ht
    simp only [stop, String.length_ofList]
    omega

/-- A character that is part of no token is part of a gap. -/
theorem Divides.covers {place : Nat} {cs : List Char} {tokens : List Token}
    (h : Divides place cs tokens) {i : Nat} {c : Char} (hc : cs[i]? = some c) :
    (∃ token ∈ tokens, token.position ≤ (place + i : Nat) ∧ (place + i : Nat) < token.stop) ∨
      Character.isGap c = true := by
  induction h generalizing i with
  | last hgap => exact .inr (hgap c (List.mem_of_getElem? hc))
  | @word place gap lexeme rest kind tokens hgap _ _ ih =>
    by_cases hi : i < gap.length
    · rw [List.getElem?_append_left hi] at hc
      exact .inr (hgap c (List.mem_of_getElem? hc))
    · rw [List.getElem?_append_right (by omega)] at hc
      by_cases hlexeme : i - gap.length < lexeme.length
      · refine .inl ⟨_, List.mem_cons_self, ?_, ?_⟩
        · dsimp only
          omega
        · simp only [stop, String.length_ofList]
          omega
      · -- Behind the first word the rest of the division says where the character is.
        rw [List.getElem?_append_right (by omega)] at hc
        have hplace : place + gap.length + lexeme.length + (i - gap.length - lexeme.length) =
            place + i := by omega
        have := ih hc
        rw [hplace] at this
        obtain ⟨token, ht, hposition⟩ | hgap := this
        · exact .inl ⟨token, List.mem_cons_of_mem _ ht, hposition⟩
        · exact .inr hgap

/-- The text is made of gaps and lexemes in turn. -/
theorem Divides.rebuilds {place : Nat} {cs : List Char} {tokens : List Token}
    (h : Divides place cs tokens) :
    ∃ gaps : List (List Char), gaps.length = tokens.length ∧
      (∀ gap ∈ gaps, ∀ c ∈ gap, Character.isGap c = true) ∧
      (List.zipWith (fun gap token => gap ++ token.lexeme.toList) gaps tokens).flatten = cs := by
  induction h with
  | @last place gap hgap => exact ⟨[gap], rfl, by simpa using hgap, by simp⟩
  | @word place gap lexeme rest kind tokens hgap _ _ ih =>
    obtain ⟨gaps, hlength, hgaps, rfl⟩ := ih
    exact ⟨gap :: gaps, by simp [hlength], List.forall_mem_cons.mpr ⟨hgap, hgaps⟩, by simp⟩

/-- The tokens of a line are its division into longest words that loses nothing. The
last token alone is the end of the line, and it stands there. The others are words
of the line in order, without overlap; what is part of none is a gap; and gaps and
lexemes in turn make up the line again. -/
theorem scan_divides {line : String} {tokens : List Token} (h : scan line = .ok tokens) :
    (∃ words, tokens = words ++ [⟨.endOfLine, "", line.length⟩] ∧
      ∀ word ∈ words, word.kind ≠ .endOfLine ∧ Munched line.toList word) ∧
    (tokens.Pairwise fun a b => a.stop ≤ b.position) ∧
    (∀ (i : Nat) c, line.toList[i]? = some c →
      (∃ token ∈ tokens, token.position ≤ i ∧ i < token.stop) ∨ Character.isGap c = true) ∧
    ∃ gaps : List (List Char), gaps.length = tokens.length ∧
      (∀ gap ∈ gaps, ∀ c ∈ gap, Character.isGap c = true) ∧
      (List.zipWith (fun gap token => gap ++ token.lexeme.toList) gaps tokens).flatten =
        line.toList := by
  have hdivides := scanFrom_divides 0 line.toList tokens h
  refine ⟨?_, hdivides.pairwise, fun i c hc => ?_, hdivides.rebuilds⟩
  · obtain ⟨words, rfl, hwords⟩ := hdivides.words [] rfl
    refine ⟨words, ?_, fun word hmem => ?_⟩
    · rw [Nat.zero_add, String.length_toList]
    · exact ⟨(hwords word hmem).of_class.ne_endOfLine, hwords word hmem⟩
  · simpa using hdivides.covers hc

/-- In ` x1+=2.5 -(y--) ` a step, a name with a digit and a decimal are each one word. -/
theorem scan_divides_sample :
    let line := " x1+=2.5 -(y--) "
    let tokens : List Token :=
      [⟨.identifier, "x1", 1⟩, ⟨.plusEqual, "+=", 3⟩, ⟨.number, "2.5", 5⟩, ⟨.minus, "-", 9⟩,
        ⟨.leftParen, "(", 10⟩, ⟨.identifier, "y", 11⟩, ⟨.minusMinus, "--", 12⟩,
        ⟨.rightParen, ")", 14⟩, ⟨.endOfLine, "", 16⟩]
    scan line = .ok tokens ∧ (tokens.Pairwise fun a b => a.stop ≤ b.position) ∧
      ∃ words, tokens = words ++ [⟨.endOfLine, "", line.length⟩] ∧
        ∀ word ∈ words, word.kind ≠ .endOfLine ∧ Munched line.toList word := by
  intro line tokens
  have hscan : scan line = .ok tokens := by decide +kernel
  have hdivides := scan_divides hscan
  exact ⟨hscan, hdivides.2.1, hdivides.1⟩

end Reckoner.Token
