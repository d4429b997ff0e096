import Reckoner.Proofs.Token.Division
import Reckoner.Proofs.Token.Literals

/-! The character behind a word. The classes of words grow by one character at a time,
but for the point behind the whole part of a number, which by itself is a fault. So the
one character behind a word tells whether the word ends there, and nothing further
behind has a part in it. A text is scanned as before with another text behind it, if no
word goes on there; and the text in front of a fault is scanned without one. -/
namespace Reckoner

theorem Numeral.IsDigits.take_cons {front behind : List Char} {c : Char}
    (h : IsDigits (front ++ c :: behind)) : IsDigits (front ++ [c]) := by
  rw [List.append_cons] at h
  exact ⟨by simp, fun d hd => h.2 d (List.mem_append_left behind hd)⟩

namespace Token

/-! ## Words go on by one character -/

/-- The character goes on with the word: the two make a word again, or the whole part of
a number with its point. -/
def GoesOn (lexeme : List Char) (c : Char) : Prop :=
  (∃ kind, Lexeme kind (lexeme ++ [c])) ∨ (c = '.' ∧ Numeral.IsDigits lexeme)

variable {kind other : Kind} {lexeme rest : List Char} {c : Char} {stop : Int}

theorem Lexeme.ne_nil (h : Lexeme kind lexeme) : lexeme ≠ [] := by
  obtain ⟨d, cs, rfl, -⟩ := h.exists_head
  exact List.cons_ne_nil d cs

theorem spellings_length : ∀ spelling ∈ spellings, spelling.1.length ≤ 2 := by
  decide

/-- What makes a word into a longer number goes on with it by its first character. -/
theorem goesOn_of_number {more : List Char} (h : Numeral.IsLexeme (lexeme ++ c :: more)) :
    GoesOn lexeme c := by
  rcases h with hdigits | ⟨whole, fraction, hwhole, hfraction, h⟩
  · exact .inl ⟨.number, .number (.inl hdigits.take_cons)⟩
  · -- The word ends within the whole part, in front of the point, or behind it.
    rcases List.append_eq_append_iff.mp h with ⟨a, rfl, ha⟩ | ⟨a, rfl, ha⟩
    · cases a with
      | nil =>
        rw [List.append_nil] at hwhole
        exact .inr ⟨(List.cons.inj ha).1, hwhole⟩
      | cons d a =>
        obtain ⟨rfl, -⟩ := List.cons.inj ha
        exact .inl ⟨.number, .number (.inl hwhole.take_cons)⟩
    · cases a with
      | nil =>
        rw [List.append_nil]
        exact .inr ⟨(List.cons.inj ha).1.symm, hwhole⟩
      | cons d a =>
        obtain ⟨rfl, rfl⟩ := List.cons.inj ha
        exact .inl ⟨.number, .number (.inr ⟨whole, a ++ [c], hwhole, hfraction.take_cons, by simp⟩)⟩

/-- The first character that makes a word longer goes on with it. -/
theorem Lexeme.goesOn {more : List Char} (h : Lexeme kind lexeme)
    (hlonger : Lexeme other (lexeme ++ c :: more)) : GoesOn lexeme c := by
  generalize htext : lexeme ++ c :: more = text at hlonger
  cases hlonger with
  | number hnumber =>
    rw [← htext] at hnumber
    exact goesOn_of_number hnumber
  | @identifier d cs hd hall =>
    obtain ⟨e, tail, rfl⟩ := List.exists_cons_of_ne_nil h.ne_nil
    have hcons : e :: (tail ++ c :: more) = d :: cs := htext
    obtain ⟨rfl, rfl⟩ := List.cons.inj hcons
    refine .inl ⟨.identifier, .identifier hd fun f hf => hall f ?_⟩
    rw [List.append_cons, ← List.cons_append]
    exact List.mem_append_left more hf
  | symbol hsymbol =>
    -- An operator has two characters at most, so there is no more of it.
    have hlength := spellings_length _ (symbol?_eq_some_iff.mp hsymbol)
    have hpos := List.length_pos_iff.mpr h.ne_nil
    rw [← htext] at hlength hsymbol
    simp only [List.length_append, List.length_cons] at hlength
    obtain rfl : more = [] := List.length_eq_zero_iff.mp (by omega)
    exact .inl ⟨other, .symbol hsymbol⟩

/-- The last character of a number is a digit. -/
theorem isDigit_of_number (h : Numeral.IsLexeme (lexeme ++ [c])) : Character.isDigit c = true := by
  rcases h with hdigits | ⟨whole, fraction, -, hfraction, h⟩
  · exact hdigits.2 c (by simp)
  · obtain ⟨front, d, rfl⟩ := (List.eq_nil_or_concat fraction).resolve_left hfraction.1
    rw [List.concat_eq_append] at h hfraction
    rw [← List.cons_append, ← List.append_assoc] at h
    obtain ⟨-, hlast⟩ := List.append_inj' h rfl
    obtain rfl : c = d := List.singleton_inj.mp hlast
    exact hfraction.2 c (by simp)

/-- A character that goes on with a word is a digit or a word character, the second one
of an operator, or the point behind the whole part of a number. -/
theorem GoesOn.character (h : Lexeme kind lexeme) (hgoes : GoesOn lexeme c) :
    Character.isDigit c = true ∨ Character.isWord c = true ∨
      (∃ spelling ∈ spellings, c ∈ spelling.1.tail) ∨ (c = '.' ∧ Numeral.IsDigits lexeme) := by
  rcases hgoes with ⟨other, hlonger⟩ | hpoint
  · generalize htext : lexeme ++ [c] = text at hlonger
    cases hlonger with
    | number hnumber =>
      rw [← htext] at hnumber
      exact .inl (isDigit_of_number hnumber)
    | identifier hd hall => exact .inr (.inl (hall c (by rw [← htext]; simp)))
    | symbol hsymbol =>
      rw [← htext] at hsymbol
      refine .inr (.inr (.inl ⟨_, symbol?_eq_some_iff.mp hsymbol, ?_⟩))
      rw [List.tail_append_of_ne_nil h.ne_nil]
      simp
  · exact .inr (.inr (.inr hpoint))

/-! ## Words that are found -/

/-- The word is found in front of the text, and it has no fault there. -/
structure Found (kind : Kind) (lexeme rest : List Char) (stop : Int) : Prop where
  longest : longest? (lexeme ++ rest) = some (kind, lexeme.length)
  faultless : fault? kind lexeme rest stop = none

theorem lexeme_of_longest? (h : longest? (lexeme ++ rest) = some (kind, lexeme.length)) :
    Lexeme kind lexeme := by
  have hlexeme := longest?_lexeme h
  rwa [List.take_left] at hlexeme

theorem Lexeme.longest?_append_ne_none (h : Lexeme kind lexeme) (rest : List Char) :
    longest? (lexeme ++ rest) ≠ none := by
  obtain ⟨d, tail, rfl, hhead | ⟨-, hmem⟩⟩ := h.exists_head
  · rw [List.cons_append, longest?, find?_spelling_eq_none (by simp [hhead])]
    unfold headKind? at hhead
    dsimp only
    split at hhead
    · next hdigit => simp [hdigit]
    · next hdigit =>
      split at hhead
      · next hword => simp [hdigit, hword]
      · cases hhead
  · have hfind : spellings.find? (fun s => s.1.isPrefixOf (d :: tail ++ rest)) ≠ none := by
      rw [Ne, List.find?_eq_none]
      intro hnone
      exact hnone _ hmem (List.isPrefixOf_iff_prefix.mpr (List.prefix_append _ rest))
    obtain ⟨spelling, hspelling⟩ := Option.ne_none_iff_exists'.mp hfind
    unfold longest?
    rw [hspelling]
    exact Option.some_ne_none _

/-- A word is the longest one where the character behind it does not go on with it. -/
theorem Lexeme.longest?_append (h : Lexeme kind lexeme)
    (hrest : ∀ c, rest.head? = some c → ¬ GoesOn lexeme c) :
    longest? (lexeme ++ rest) = some (kind, lexeme.length) := by
  obtain ⟨⟨other, length⟩, hlongest⟩ :=
    Option.ne_none_iff_exists'.mp (h.longest?_append_ne_none rest)
  have hge := h.length_le_longest? (List.prefix_append lexeme rest) hlongest
  have hother := longest?_lexeme hlongest
  have hle : length ≤ lexeme.length := by
    by_contra hlonger
    rw [List.take_append, List.take_of_length_le (by omega)] at hother
    have hbound := (longest?_bounds hlongest).2
    rw [List.length_append] at hbound
    obtain ⟨k, hk⟩ : ∃ k, length - lexeme.length = k + 1 := ⟨length - lexeme.length - 1, by omega⟩
    obtain ⟨c, behind, rfl⟩ : ∃ c behind, rest = c :: behind :=
      List.exists_cons_of_length_pos (by omega)
    rw [hk, List.take_succ_cons] at hother
    exact hrest c rfl (h.goesOn hother)
  obtain rfl : length = lexeme.length := by omega
  rw [List.take_left] at hother
  rw [hlongest, h.unique hother]

/-- The fault of a word does not depend on what is behind it where it ends. -/
theorem Lexeme.fault?_eq (h : Lexeme kind lexeme)
    (hrest : ∀ c, rest.head? = some c → ¬ GoesOn lexeme c) :
    fault? kind lexeme rest stop = fault? kind lexeme [] stop := by
  unfold fault?
  split
  · next hkind =>
    subst hkind
    cases h with
    | symbol hsymbol => cases hsymbol
    | number hnumber =>
      obtain ⟨value, hvalue⟩ := hnumber.denotes
      cases value with
      | int n =>
        have hpoint : rest.head? ≠ some '.' := fun hhead => by
          cases hvalue with
          | integer hdigits => exact hrest '.' hhead (.inr ⟨rfl, hdigits.isDigits⟩)
        have hend : ([] : List Char).head? ≠ some '.' := nofun
        rw [numberFault?_integer hvalue, numberFault?_integer hvalue, if_neg hpoint, if_neg hend]
      | float x => rw [numberFault?_floating hvalue, numberFault?_floating hvalue]
  · rfl

/-- A point behind the digits of an integer is a fault. -/
theorem fault?_point (h : Numeral.IsDigits lexeme) (rest : List Char) (stop : Int) :
    fault? .number lexeme ('.' :: rest) stop = some (.danglingPoint stop) := by
  obtain ⟨ds, -, hds⟩ := h.values
  rw [fault?, if_pos rfl, numberFault?_integer (.integer hds)]
  exact if_pos rfl

/-- A word is found if it has no fault of its own and the one character behind it does
not go on with it. -/
theorem found_iff : Found kind lexeme rest stop ↔
    Lexeme kind lexeme ∧ fault? kind lexeme [] stop = none ∧
      ∀ c, rest.head? = some c → ¬ GoesOn lexeme c := by
  constructor
  · rintro ⟨hlongest, hfault⟩
    have hlexeme := lexeme_of_longest? hlongest
    have hends : ∀ c, rest.head? = some c → ¬ GoesOn lexeme c := by
      intro c hc hgoes
      obtain ⟨behind, rfl⟩ := List.head?_eq_some_iff.mp hc
      rcases hgoes with ⟨other, hlonger⟩ | ⟨rfl, hdigits⟩
      · have hprefix : lexeme ++ [c] <+: lexeme ++ c :: behind :=
          ⟨behind, (List.append_cons lexeme c behind).symm⟩
        have hlength := hlonger.length_le_longest? hprefix hlongest
        rw [List.length_append, List.length_singleton] at hlength
        omega
      · obtain rfl := hlexeme.unique (.number (.inl hdigits))
        rw [fault?_point hdigits] at hfault
        cases hfault
    rw [hlexeme.fault?_eq hends] at hfault
    exact ⟨hlexeme, hfault, hends⟩
  · rintro ⟨hlexeme, hfault, hends⟩
    exact ⟨hlexeme.longest?_append hends, (hlexeme.fault?_eq hends).trans hfault⟩

/-! ## Texts that are scanned -/

/-- The code points of the characters of gaps. -/
def gapPoints : List Nat :=
  List.range' 0x09 5 ++ List.range' 0x1C 5 ++ [0x85, 0x1680] ++ List.range' 0x2000 7 ++
    List.range' 0x2008 3 ++ [0x2028, 0x2029, 0x205F, 0x3000]

theorem mem_gapPoints (h : Character.isGap c = true) : c.toNat ∈ gapPoints := by
  simp only [Character.isGap, Character.isBlank, Character.isNoBreak, Bool.and_eq_true,
    Bool.or_eq_true, Bool.not_eq_true', Bool.or_eq_false_iff, decide_eq_true_eq, beq_iff_eq,
    beq_eq_false_iff_ne] at h
  simp only [gapPoints, List.mem_append, List.mem_range'_1, List.mem_cons, List.not_mem_nil,
    or_false]
  omega

/-- A character of a gap is part of no word. -/
theorem not_word_of_isGap (h : Character.isGap c = true) :
    Character.isDigit c = false ∧ Character.isWord c = false ∧ c ≠ '.' ∧
      ∀ spelling ∈ spellings, c ∉ spelling.1 := by
  have hall : ∀ n ∈ gapPoints, Character.isDigit (Char.ofNat n) = false ∧
      Character.isWord (Char.ofNat n) = false ∧ Char.ofNat n ≠ '.' ∧
      ∀ spelling ∈ spellings, Char.ofNat n ∉ spelling.1 := by
    decide +kernel
  have hc := hall c.toNat (mem_gapPoints h)
  rwa [Char.ofNat_toNat] at hc

theorem Lexeme.head_not_gap (h : Lexeme kind lexeme) :
    ∀ c, lexeme.head? = some c → ¬ Character.isGap c = true := by
  obtain ⟨d, cs, rfl, hkind⟩ := h.exists_head
  rintro c ⟨⟩ hgap
  obtain ⟨hdigit, hword, -, hspellings⟩ := not_word_of_isGap hgap
  rcases hkind with hhead | ⟨-, hmem⟩
  · simp [headKind?, hdigit, hword] at hhead
  · exact hspellings _ hmem List.mem_cons_self

/-- The word at the front is looked at, and if it has no fault the scan goes on behind
it. -/
theorem scanFrom_word (hlongest : longest? (lexeme ++ rest) = some (kind, lexeme.length))
    (place : Nat) :
    scanFrom place (lexeme ++ rest) =
      match fault? kind lexeme rest (place + lexeme.length) with
      | some fault => .error fault
      | none =>
        (scanFrom (place + lexeme.length) rest).map (⟨kind, String.ofList lexeme, place⟩ :: ·) := by
  have hlexeme := lexeme_of_longest? hlongest
  obtain ⟨d, cs, rfl⟩ := List.exists_cons_of_ne_nil hlexeme.ne_nil
  rw [List.cons_append] at hlongest ⊢
  rewrite [scanFrom_token place (hlexeme.head_not_gap d rfl) hlongest, ← List.cons_append,
    List.take_left, List.length_cons, Nat.add_sub_cancel, List.drop_left]
  rfl

/-- A number with nothing behind it is one token, unless it has a fault. -/
theorem scanFrom_number (h : Numeral.IsLexeme lexeme) (place : Nat) :
    scanFrom place lexeme =
      match numberFault? lexeme [] (place + lexeme.length) with
      | some fault => .error fault
      | none =>
        .ok [⟨.number, String.ofList lexeme, place⟩,
          ⟨.endOfLine, "", (place + lexeme.length : Nat)⟩] := by
  have hlongest : longest? (lexeme ++ []) = some (.number, lexeme.length) :=
    (Lexeme.number h).longest?_append (by simp)
  have hscan := scanFrom_word hlongest place
  rw [List.append_nil, fault?, if_pos rfl, scanFrom_nil] at hscan
  exact hscan

theorem scan_number (h : Numeral.IsLexeme lexeme) :
    scan (String.ofList lexeme) =
      match numberFault? lexeme [] lexeme.length with
      | some fault => .error fault
      | none =>
        .ok [⟨.number, String.ofList lexeme, 0⟩, ⟨.endOfLine, "", lexeme.length⟩] := by
  have hscan := scanFrom_number h 0
  rw [Nat.zero_add, Int.natCast_zero, Int.zero_add] at hscan
  rw [scan, String.toList_ofList, hscan]

theorem place_cons (place : Nat) (c : Char) (cs : List Char) :
    place + (c :: cs).length = place + 1 + cs.length := by
  rw [List.length_cons, Nat.add_right_comm, Nat.add_assoc]

theorem place_append (place : Nat) (lexeme cs : List Char) :
    place + (lexeme ++ cs).length = place + lexeme.length + cs.length := by
  rw [List.length_append, Nat.add_assoc]

/-- The text, whose first character stands at the place, has these tokens. -/
inductive Scanned : Nat → List Char → List Token → Prop
  | nil (place : Nat) : Scanned place [] [⟨.endOfLine, "", place⟩]
  | gap {place : Nat} {c cs tokens} (hc : Character.isGap c = true) (h : Scanned (place + 1) cs tokens) :
      Scanned place (c :: cs) tokens
  | word {place : Nat} {kind lexeme cs tokens}
      (hfound : Found kind lexeme cs (place + lexeme.length))
      (h : Scanned (place + lexeme.length) cs tokens) :
      Scanned place (lexeme ++ cs) (⟨kind, String.ofList lexeme, place⟩ :: tokens)

/-- The text starts with a fault: with a character that no word starts with, or with a
number that has one. -/
inductive Faulty : Nat → List Char → LexFault → Prop
  | unexpected {place : Nat} {c cs} (hc : ¬ Character.isGap c = true) (h : longest? (c :: cs) = none) :
      Faulty place (c :: cs) (.unexpectedCharacter c place)
  | number {place : Nat} {lexeme cs fault}
      (hlongest : longest? (lexeme ++ cs) = some (.number, lexeme.length))
      (hfault : numberFault? lexeme cs (place + lexeme.length) = some fault) :
      Faulty place (lexeme ++ cs) fault

variable {place : Nat} {cs : List Char} {tokens : List Token} {fault : LexFault}

theorem Scanned.scanFrom (h : Scanned place cs tokens) : scanFrom place cs = .ok tokens := by
  induction h with
  | nil place => exact scanFrom_nil place
  | gap hc _ ih => rw [scanFrom_gap _ hc, ih]
  | word hfound _ ih =>
    rw [scanFrom_word hfound.longest, hfound.faultless, ih]
    rfl

theorem Faulty.scanFrom (h : Faulty place cs fault) : scanFrom place cs = .error fault := by
  cases h with
  | unexpected hc h => exact scanFrom_unexpected place hc h
  | number hlongest hfault =>
    rw [scanFrom_word hlongest, fault?, if_pos rfl, hfault]

theorem Scanned.of_class (h : Scanned place cs tokens) :
    ∀ token ∈ tokens, token.kind ≠ .endOfLine → Lexeme token.kind token.lexeme.toList := by
  induction h with
  | nil => simp
  | gap _ _ ih => exact ih
  | word hfound _ ih =>
    refine List.forall_mem_cons.mpr ⟨fun _ => ?_, ih⟩
    rw [String.toList_ofList]
    exact (found_iff.mp hfound).1

/-- A number that has been scanned has no fault of its own. -/
theorem Scanned.faultless (h : Scanned place cs tokens) :
    ∀ token ∈ tokens, token.kind = .number →
      ∃ stop, numberFault? token.lexeme.toList [] stop = none := by
  induction h with
  | nil => simp
  | gap _ _ ih => exact ih
  | word hfound _ ih =>
    refine List.forall_mem_cons.mpr ⟨?_, ih⟩
    rintro rfl
    rw [String.toList_ofList]
    exact ⟨_, (found_iff.mp hfound).2.1⟩

theorem Scanned.ne_nil (h : Scanned place cs tokens) : tokens ≠ [] := by
  induction h with
  | nil | word => exact List.cons_ne_nil _ _
  | gap _ _ ih => exact ih

/-! ## Texts with another text behind them -/

/-- No word that ends at the place goes on with the text behind it. -/
def EndsBefore (tokens : List Token) (place : Nat) (behind : List Char) : Prop :=
  ∀ token ∈ tokens, token.kind ≠ .endOfLine → token.stop = place →
    ∀ c, behind.head? = some c → ¬ GoesOn token.lexeme.toList c

/-- A text is scanned as before with another one behind it where no word goes on, and
the scan goes on with the other text. -/
theorem Scanned.append (h : Scanned place cs tokens) {behind : List Char}
    (hends : EndsBefore tokens (place + cs.length) behind) :
    Token.scanFrom place (cs ++ behind) =
      (Token.scanFrom (place + cs.length) behind).map (tokens.dropLast ++ ·) := by
  induction h with
  | nil place =>
    rw [List.nil_append, List.length_nil, Nat.add_zero]
    cases Token.scanFrom place behind <;> rfl
  | @gap place c cs tokens hc _ ih =>
    rw [place_cons] at hends ⊢
    rw [List.cons_append, scanFrom_gap place hc, ih hends]
  | @word place kind lexeme cs tokens hfound h ih =>
    rw [place_append] at hends ⊢
    obtain ⟨hlexeme, hfault, hnext⟩ := found_iff.mp hfound
    have hwhole : Found kind lexeme (cs ++ behind) (place + lexeme.length) := by
      refine found_iff.mpr ⟨hlexeme, hfault, fun c hc => ?_⟩
      cases cs with
      | nil =>
        -- The word itself is the last one in front of the other text.
        have hlast := hends _ List.mem_cons_self hlexeme.ne_endOfLine
          (by simp [Token.stop]) c hc
        rwa [String.toList_ofList] at hlast
      | cons d cs => exact hnext c hc
    have hbehind := ih fun token ht => hends token (List.mem_cons_of_mem _ ht)
    rw [List.append_assoc, scanFrom_word hwhole.longest, hwhole.faultless, hbehind]
    cases Token.scanFrom (place + lexeme.length + cs.length) behind with
    | error fault => rfl
    | ok more =>
      dsimp only [Except.map]
      rw [List.dropLast_cons_of_ne_nil h.ne_nil, List.cons_append]

/-- A word is found in front of a text if it is in front of what the text starts with. -/
theorem Found.front {front behind : List Char} (h : Found kind lexeme (front ++ behind) stop) :
    Found kind lexeme front stop := by
  obtain ⟨hlexeme, hfault, hnext⟩ := found_iff.mp h
  refine found_iff.mpr ⟨hlexeme, hfault, fun c hc => hnext c ?_⟩
  rw [List.head?_append, hc, Option.some_or]

/-! ## What is in front of a fault -/

/-- The text has been scanned up to a fault, with these tokens in front of it. -/
structure StopsAt (place : Nat) (front behind : List Char) (tokens : List Token)
    (fault : LexFault) : Prop where
  scanned : Scanned place front tokens
  ends : EndsBefore tokens (place + front.length) behind
  faulty : Faulty (place + front.length) behind fault

theorem StopsAt.nil {behind : List Char} (h : Faulty place behind fault) :
    StopsAt place [] behind [⟨.endOfLine, "", place⟩] fault := by
  refine ⟨.nil place, ?_, h⟩
  intro token ht hkind
  rw [List.mem_singleton.mp ht] at hkind
  exact absurd rfl hkind

theorem StopsAt.gap {front behind : List Char} (hc : Character.isGap c = true)
    (h : StopsAt (place + 1) front behind tokens fault) :
    StopsAt place (c :: front) behind tokens fault := by
  obtain ⟨hscanned, hends, hfaulty⟩ := h
  rw [← place_cons place c] at hends hfaulty
  exact ⟨.gap hc hscanned, hends, hfaulty⟩

theorem StopsAt.word {front behind : List Char}
    (hfound : Found kind lexeme (front ++ behind) (place + lexeme.length))
    (h : StopsAt (place + lexeme.length) front behind tokens fault) :
    StopsAt place (lexeme ++ front) behind (⟨kind, String.ofList lexeme, place⟩ :: tokens)
      fault := by
  obtain ⟨hscanned, hends, hfaulty⟩ := h
  rw [← place_append] at hends hfaulty
  refine ⟨.word hfound.front hscanned, List.forall_mem_cons.mpr ⟨?_, hends⟩, hfaulty⟩
  -- The word ends in front of the fault only if nothing is between them.
  intro _ hstop c hc
  simp only [Token.stop, String.length_ofList, List.length_append] at hstop
  obtain rfl : front = [] := List.length_eq_zero_iff.mp (by omega)
  rw [String.toList_ofList]
  exact (found_iff.mp hfound).2.2 c hc

/-- A text is scanned to its end, or up to a fault. -/
theorem scanned_or_stopsAt (place : Nat) (cs : List Char) :
    match scanFrom place cs with
    | .ok tokens => Scanned place cs tokens
    | .error fault =>
      ∃ front behind tokens, cs = front ++ behind ∧ StopsAt place front behind tokens fault := by
  apply scanFrom_induction (motive := fun place cs answer =>
    match answer with
    | .ok tokens => Scanned place cs tokens
    | .error fault =>
      ∃ front behind tokens, cs = front ++ behind ∧ StopsAt place front behind tokens fault)
  case nil => exact fun place => .nil place
  case gap =>
    intro place c rest hc ih
    cases hrest : scanFrom (place + 1) rest with
    | ok tokens =>
      rw [hrest] at ih
      exact .gap hc ih
    | error fault =>
      rw [hrest] at ih
      obtain ⟨front, behind, tokens, rfl, hstops⟩ := ih
      exact ⟨c :: front, behind, tokens, rfl, hstops.gap hc⟩
  case unexpected =>
    intro place c rest hc hlongest
    exact ⟨[], c :: rest, _, rfl, .nil (.unexpected hc hlongest)⟩
  case faulty =>
    intro place c rest kind length fault _ hlongest hfault
    obtain ⟨lexeme, behind, htake, hdrop, hsplit, rfl⟩ := longest?_split hlongest
    rw [htake, hdrop] at hfault
    rw [hsplit] at hlongest ⊢
    unfold fault? at hfault
    split at hfault
    · next hkind =>
      subst hkind
      exact ⟨[], lexeme ++ behind, _, rfl, .nil (.number hlongest hfault)⟩
    · cases hfault
  case found =>
    intro place c rest kind length _ hlongest hfault ih
    obtain ⟨lexeme, behind, htake, hdrop, hsplit, rfl⟩ := longest?_split hlongest
    rw [htake, hdrop] at hfault
    rw [hdrop] at ih ⊢
    rw [hsplit] at hlongest
    rw [htake, hsplit]
    have hfound : Found kind lexeme behind (place + lexeme.length) := ⟨hlongest, hfault⟩
    cases hbehind : scanFrom (place + lexeme.length) behind with
    | ok tokens =>
      rw [hbehind] at ih
      exact .word hfound ih
    | error fault =>
      rw [hbehind] at ih
      obtain ⟨front, behind, tokens, rfl, hstops⟩ := ih
      exact ⟨lexeme ++ front, behind, _, (List.append_assoc ..).symm, hstops.word hfound⟩

theorem scanFrom_eq_ok_iff : scanFrom place cs = .ok tokens ↔ Scanned place cs tokens := by
  refine ⟨fun h => ?_, Scanned.scanFrom⟩
  have hscanned := scanned_or_stopsAt place cs
  rwa [h] at hscanned

/-- The scan of a text fails with the fault that the text has behind a front that is
scanned by itself and that no word goes on from. -/
theorem scanFrom_eq_error_iff :
    scanFrom place cs = .error fault ↔
      ∃ front behind tokens, cs = front ++ behind ∧ StopsAt place front behind tokens fault := by
  constructor
  · intro h
    have hstops := scanned_or_stopsAt place cs
    rwa [h] at hstops
  · rintro ⟨front, behind, tokens, rfl, hscanned, hends, hfaulty⟩
    rw [hscanned.append hends, hfaulty.scanFrom]
    rfl

end Token

end Reckoner
