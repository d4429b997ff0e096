import Reckoner.Diagnostic
import Reckoner.Proofs.Token.Literals
import Reckoner.Proofs.Token.Lookahead

/-! Where the scan of a line fails, and why. Whatever the fault, the line has been
scanned without one up to the word or character that has it. A character is unexpected
if no word starts with it, and a point dangles behind the digits of an integer that it
gives no fraction, however large the integer is; what is left are numbers out of range. -/
namespace Reckoner

/-- The ten digits of a script other than the first lie in one range of word characters.
The comparisons are those that the kernel is fast at. -/
theorem Character.digits_within : ∀ first ∈ digitZeros, first = 0x30 ∨ 128 ≤ first ∧
    (letterOrNumberRanges.any fun range =>
      Nat.ble (first + 9) range.2 && Nat.ble range.1 first) = true := by
  decide +kernel

theorem Character.isWord_of_isDigit {c : Char} (h : isDigit c = true) : isWord c = true := by
  obtain ⟨d, hd⟩ := Option.isSome_iff_exists.mp h
  obtain ⟨first, hfirst, -⟩ := Option.map_eq_some_iff.mp hd
  have hc := List.find?_some hfirst
  simp only [Bool.and_eq_true, decide_eq_true_eq] at hc
  unfold isWord
  rcases digits_within first (List.mem_of_find?_eq_some hfirst) with
    rfl | ⟨hfar, hwithin⟩
  · have hdigit : c.isDigit = true := by
      rw [Char.isDigit, Bool.and_eq_true, decide_eq_true_eq, decide_eq_true_eq]
      exact ⟨hc.1, Nat.le_of_lt_succ hc.2⟩
    rw [if_pos (by omega), Char.isAlphanum, hdigit, Bool.or_true, Bool.true_or]
  · obtain ⟨range, hrange, hbounds⟩ := List.any_eq_true.mp hwithin
    rw [Bool.and_eq_true, Nat.ble_eq, Nat.ble_eq] at hbounds
    rw [if_neg (by omega), inRanges_eq_true_iff]
    exact ⟨range, hrange, by omega, by omega⟩

theorem Character.isDigit_eq_false {c : Char} (h : isWord c = false) : isDigit c = false := by
  by_contra hdigit
  rw [Bool.not_eq_false] at hdigit
  rw [isWord_of_isDigit hdigit] at h
  cases h

namespace Token

variable {kind : Kind} {lexeme cs : List Char} {c : Char} {place : Nat} {tokens : List Token}

/-! ## Characters that no word starts with -/

/-- The characters of operators and parentheses. -/
def symbolChars : List Char :=
  ['+', '-', '*', '/', '%', '^', '=', '(', ')']

theorem subset_symbolChars : ∀ spelling ∈ spellings, spelling.1 ⊆ symbolChars := by
  decide

theorem not_word_of_mem_symbolChars (h : c ∈ symbolChars) : Character.isWord c = false := by
  have hall : symbolChars.all (fun d => !Character.isWord d) = true := by decide
  simpa using List.all_eq_true.mp hall c h

theorem longest?_eq_none_iff :
    longest? (c :: cs) = none ↔ Character.isWord c = false ∧ c ∉ symbolChars := by
  constructor
  · intro h
    unfold longest? at h
    split at h
    · cases h
    · next hfind =>
      dsimp only at h
      refine ⟨?_, fun hmem => ?_⟩
      · by_contra hword
        rw [Bool.not_eq_false] at hword
        by_cases hdigit : Character.isDigit c = true
        · simp [hdigit] at h
        · simp [hdigit, hword] at h
      · -- Each of the characters is an operator by itself.
        have hspelled : symbolChars.all (fun d => spellings.any (·.1 == [d])) = true := by decide
        obtain ⟨spelling, hspelling, heq⟩ :=
          List.any_eq_true.mp (List.all_eq_true.mp hspelled c hmem)
        refine List.find?_eq_none.mp hfind spelling hspelling ?_
        rw [List.isPrefixOf_iff_prefix, eq_of_beq heq]
        exact ⟨cs, rfl⟩
  · rintro ⟨hword, hsymbol⟩
    have hdigit := Character.isDigit_eq_false hword
    have hfind : spellings.find? (fun spelling => spelling.1.isPrefixOf (c :: cs)) = none := by
      rw [List.find?_eq_none]
      intro spelling hspelling hstarts
      have hne : ∀ s ∈ spellings, s.1 ≠ [] := by decide
      obtain ⟨d, tail, hcons⟩ := List.exists_cons_of_ne_nil (hne spelling hspelling)
      have hmem := subset_symbolChars spelling hspelling (by rw [hcons]; exact List.mem_cons_self)
      rw [List.isPrefixOf_iff_prefix, hcons] at hstarts
      obtain ⟨rfl, -⟩ := List.cons_prefix_cons.mp hstarts
      exact hsymbol hmem
    unfold longest?
    rw [hfind]
    simp [hdigit, hword]

/-! ## Words that a digit goes on with -/

/-- The last character of a number or a name is a word character, and that of an operator
is not. -/
theorem Lexeme.last_word_iff (h : Lexeme kind lexeme) (hc : lexeme.getLast? = some c) :
    Character.isWord c = true ↔ kind = .number ∨ kind = .identifier := by
  cases h with
  | number hnumber =>
    obtain ⟨front, rfl⟩ := List.getLast?_eq_some_iff.mp hc
    simp [Character.isWord_of_isDigit (isDigit_of_number hnumber)]
  | identifier hd hall => simp [hall c (List.mem_of_getLast? hc)]
  | symbol hsymbol =>
    have hmem := symbol?_eq_some_iff.mp hsymbol
    have hkind := spellings_kind _ hmem
    have hword := not_word_of_mem_symbolChars (subset_symbolChars _ hmem (List.mem_of_getLast? hc))
    simp [hword, hkind.1, hkind.2.1]

/-- A digit goes on with a number or a name, and with no operator. -/
theorem Lexeme.goesOn_digit_iff (h : Lexeme kind lexeme) (hc : Character.isDigit c = true) :
    GoesOn lexeme c ↔ kind = .number ∨ kind = .identifier := by
  constructor
  · intro hgoes
    cases h with
    | number | identifier => simp
    | symbol hsymbol =>
      -- An operator goes on to an operator, and no digit is part of one.
      have hmem := symbol?_eq_some_iff.mp hsymbol
      have hword := Character.isWord_of_isDigit hc
      rcases hgoes with ⟨other, hlonger⟩ | ⟨rfl, -⟩
      · obtain ⟨d, tail, hcons⟩ := List.exists_cons_of_ne_nil (Lexeme.symbol hsymbol).ne_nil
        obtain ⟨e, rest, heq, hhead⟩ := hlonger.exists_head
        rw [hcons, List.cons_append] at heq
        obtain ⟨rfl, -⟩ := List.cons.inj heq
        rw [hcons] at hmem
        rcases hhead with hhead | ⟨-, hspelling⟩
        · rw [headKind?_symbol hmem] at hhead
          cases hhead
        · have hsymbolChar := subset_symbolChars _ hspelling
            (List.mem_append_right lexeme List.mem_cons_self)
          rw [not_word_of_mem_symbolChars hsymbolChar] at hword
          cases hword
      · rw [Numeral.isDigit_point] at hc
        cases hc
  · intro hkind
    refine .inl ⟨kind, ?_⟩
    cases h with
    | number hnumber =>
      have happend {cs : List Char} (hdigits : Numeral.IsDigits cs) : Numeral.IsDigits (cs ++ [c]) :=
        ⟨by simp, List.forall_mem_append.mpr ⟨hdigits.2, List.forall_mem_singleton.mpr hc⟩⟩
      rcases hnumber with hdigits | ⟨whole, fraction, hwhole, hfraction, rfl⟩
      · exact .number (.inl (happend hdigits))
      · exact .number (.inr ⟨whole, fraction ++ [c], hwhole, happend hfraction, by simp⟩)
    | @identifier d ds hd hall =>
      refine .identifier hd ?_
      show ∀ e ∈ d :: ds ++ [c], Character.isWord e = true
      exact List.forall_mem_append.mpr
        ⟨hall, List.forall_mem_singleton.mpr (Character.isWord_of_isDigit hc)⟩
    | symbol hsymbol =>
      have hnot := spellings_kind _ (symbol?_eq_some_iff.mp hsymbol)
      exact absurd hkind (not_or.mpr ⟨hnot.1, hnot.2.1⟩)

/-! ## The last word of a text -/

/-- A word that ends with the text is the end of the text. -/
theorem Scanned.suffix (h : Scanned place cs tokens) :
    ∀ token ∈ tokens, token.kind ≠ .endOfLine → token.stop = (place + cs.length : Nat) →
      token.lexeme.toList <:+ cs := by
  induction h with
  | nil place => simp
  | @gap place c cs tokens _ _ ih =>
    rw [place_cons]
    exact fun token ht hkind hstop => (ih token ht hkind hstop).trans (List.suffix_cons c cs)
  | @word place kind lexeme cs tokens _ _ ih =>
    rw [place_append]
    refine List.forall_mem_cons.mpr ⟨fun _ hstop => ?_, fun token ht hkind hstop =>
      (ih token ht hkind hstop).trans (List.suffix_append lexeme cs)⟩
    simp only [Token.stop, String.length_ofList] at hstop
    obtain rfl : cs = [] := List.length_eq_zero_iff.mp (by omega)
    simp

/-- A text that does not end with a gap ends with a word. -/
theorem Scanned.exists_last (h : Scanned place cs tokens) (hc : cs.getLast? = some c)
    (hgap : Character.isGap c = false) :
    ∃ token ∈ tokens, token.kind ≠ .endOfLine ∧ token.stop = (place + cs.length : Nat) := by
  induction h with
  | nil place => cases hc
  | @gap place d cs tokens hd _ ih =>
    rw [place_cons]
    cases hlast : cs.getLast? with
    | none =>
      rw [List.getLast?_cons, hlast] at hc
      cases hc
      rw [Option.getD_none, hd] at hgap
      cases hgap
    | some e =>
      rw [List.getLast?_cons, hlast] at hc
      rw [hlast] at ih
      exact ih hc
  | @word place kind lexeme cs tokens hfound _ ih =>
    rw [place_append]
    cases hlast : cs.getLast? with
    | none =>
      obtain rfl := List.getLast?_eq_none_iff.mp hlast
      exact ⟨_, List.mem_cons_self, (found_iff.mp hfound).1.ne_endOfLine, by simp [Token.stop]⟩
    | some e =>
      rw [List.getLast?_append, hlast, Option.some_or] at hc
      rw [hlast] at ih
      obtain ⟨token, ht, hkind, hstop⟩ := ih hc
      exact ⟨token, List.mem_cons_of_mem _ ht, hkind, hstop⟩

/-! ## The faults of a line -/

/-- The beginning of a line, as a line of its own. -/
def beginning (line : String) (stop : Nat) : String :=
  String.ofList (line.toList.take stop)

/-- The literal of an integer. -/
def IsInteger (token : Token) : Prop :=
  token.kind = .number ∧ '.' ∉ token.lexeme.toList

/-- The line is scanned up to the character, which is part of no word: neither by itself,
nor as the point that an integer literal in front of it goes on with. -/
structure UnexpectedAt (line : String) (c : Char) (k : Nat) : Prop where
  char : line.toList[k]? = some c
  not_gap : Character.isGap c = false
  not_word : Character.isWord c = false
  not_symbol : c ∉ symbolChars
  before : ∃ tokens, scan (beginning line k) = .ok tokens ∧
    ¬ (c = '.' ∧ ∃ token ∈ tokens, token.IsInteger ∧ token.stop = k)

/-- The line is scanned up to the place, and no word character stands in front of it. -/
structure Free (line : String) (s : Nat) : Prop where
  before : ∃ tokens, scan (beginning line s) = .ok tokens
  not_word : s = 0 ∨ ∃ c, line.toList[s - 1]? = some c ∧ Character.isWord c = false

/-- At a place up to which the line is scanned there are digits, and at the other one a
point behind them that no digit follows. -/
structure DanglingAt (line : String) (s k : Nat) : Prop where
  free : Free line s
  lt : s < k
  digits : ∀ c ∈ (line.toList.take k).drop s, Character.isDigit c = true
  point : line.toList[k]? = some '.'
  no_fraction : ∀ c, line.toList[k + 1]? = some c → Character.isDigit c = false

/-- At a place up to which the line is scanned stands the literal, as the longest number
there. It is too large, and if it is an integer, no point is behind it. -/
structure TooLargeAt (line : String) (kind : LiteralKind) (literal : String) (s : Nat) : Prop where
  free : Free line s
  stands : literal.toList <+: line.toList.drop s
  longest : ∀ other, Numeral.IsLexeme other → other <+: line.toList.drop s →
    other.length ≤ literal.length
  tooLarge : TooLarge kind literal.toList
  no_point : kind = .integer → line.toList[s + literal.length]? ≠ some '.'

theorem scan_beginning {front behind : List Char} {line : String}
    (h : line.toList = front ++ behind) (hscanned : Scanned 0 front tokens) :
    scan (beginning line front.length) = .ok tokens := by
  rw [scan, beginning, String.toList_ofList, h, List.take_left]
  exact hscanned.scanFrom

theorem scanned_beginning {line : String} {k : Nat} (h : scan (beginning line k) = .ok tokens) :
    Scanned 0 (line.toList.take k) tokens := by
  rw [scan, beginning, String.toList_ofList] at h
  exact scanFrom_eq_ok_iff.mp h

/-- A list with its element at a place. -/
theorem eq_take_append {cs : List Char} {k : Nat} {c : Char} (h : cs[k]? = some c) :
    cs = cs.take k ++ c :: cs.drop (k + 1) ∧ (cs.take k).length = k := by
  obtain ⟨hlt, rfl⟩ := List.getElem?_eq_some_iff.mp h
  refine ⟨?_, List.length_take_of_le (Nat.le_of_lt hlt)⟩
  rw [← List.drop_eq_getElem_cons hlt, List.take_append_drop]

/-! ## Unexpected characters -/

/-- The literals of integers are those that are digits alone. -/
theorem isInteger_iff {token : Token} (h : Lexeme token.kind token.lexeme.toList) :
    token.IsInteger ↔ Numeral.IsDigits token.lexeme.toList := by
  constructor
  · rintro ⟨hkind, hpoint⟩
    rw [hkind] at h
    cases h with
    | symbol h => cases h
    | number h =>
      rcases h with hdigits | ⟨whole, fraction, -, -, heq⟩
      · exact hdigits
      · exact absurd (by rw [heq]; simp) hpoint
  · intro hdigits
    refine ⟨(Lexeme.number (.inl hdigits)).unique h, fun hmem => ?_⟩
    have hdigit := hdigits.2 '.' hmem
    rw [Numeral.isDigit_point] at hdigit
    cases hdigit

/-- A character that no word starts with goes on with one only as the point of an
integer. -/
theorem Scanned.endsBefore_unexpected_iff (h : Scanned place cs tokens)
    (hword : Character.isWord c = false) (hsymbol : c ∉ symbolChars) (stop : Nat)
    (behind : List Char) :
    EndsBefore tokens stop (c :: behind) ↔
      ¬ (c = '.' ∧ ∃ token ∈ tokens, token.IsInteger ∧ token.stop = stop) := by
  constructor
  · rintro hends ⟨rfl, token, ht, hinteger, hstop⟩
    have hkind : token.kind ≠ .endOfLine := by
      rw [hinteger.1]
      decide
    have hdigits := (isInteger_iff (h.of_class token ht hkind)).mp hinteger
    exact hends token ht hkind hstop '.' rfl (.inr ⟨rfl, hdigits⟩)
  · rintro hpoint token ht hkind hstop d ⟨⟩ hgoes
    have hlexeme := h.of_class token ht hkind
    rcases hgoes.character hlexeme with hdigit | hisWord | ⟨spelling, hmem, htail⟩ | ⟨rfl, hdigits⟩
    · rw [Character.isDigit_eq_false hword] at hdigit
      cases hdigit
    · rw [hisWord] at hword
      cases hword
    · exact hsymbol (subset_symbolChars spelling hmem (List.mem_of_mem_tail htail))
    · exact hpoint ⟨rfl, token, ht, (isInteger_iff hlexeme).mpr hdigits, hstop⟩

theorem scan_unexpected_iff {line : String} {c : Char} {k : Nat} :
    scan line = .error (.unexpectedCharacter c k) ↔ UnexpectedAt line c k := by
  rw [scan, scanFrom_eq_error_iff]
  constructor
  · rintro ⟨front, behind, tokens, hline, hscanned, hends, hfaulty⟩
    generalize hfault : LexFault.unexpectedCharacter c k = fault at hfaulty
    cases hfaulty with
    | number hlongest hnumber =>
      subst hfault
      have hlexeme := (longest?_number_iff.mp hlongest).1
      rcases (numberFault?_eq_some_iff hlexeme).mp hnumber with ⟨heq, -⟩ | ⟨_, heq, -⟩ <;> cases heq
    | @unexpected d cs hgap hlongest =>
      injection hfault with hchar hplace
      subst hchar
      obtain rfl : k = front.length := by omega
      obtain ⟨hword, hsymbol⟩ := longest?_eq_none_iff.mp hlongest
      rw [Nat.zero_add] at hends
      exact ⟨by simp [hline], by simpa using hgap, hword, hsymbol, tokens,
        scan_beginning hline hscanned,
        (hscanned.endsBefore_unexpected_iff hword hsymbol _ cs).mp hends⟩
  · rintro ⟨hchar, hgap, hword, hsymbol, tokens, hbefore, hpoint⟩
    obtain ⟨hline, hlength⟩ := eq_take_append hchar
    have hscanned := scanned_beginning hbefore
    have hplace : 0 + (line.toList.take k).length = k := by rw [hlength, Nat.zero_add]
    have hends := (hscanned.endsBefore_unexpected_iff hword hsymbol k
      (line.toList.drop (k + 1))).mpr hpoint
    have hfaulty : Faulty k (c :: line.toList.drop (k + 1)) (.unexpectedCharacter c k) :=
      .unexpected (by simp [hgap]) (longest?_eq_none_iff.mpr ⟨hword, hsymbol⟩)
    refine ⟨_, _, tokens, hline, hscanned, ?_, ?_⟩
    · rwa [hplace]
    · rwa [hplace]

/-! ## Numbers behind a free place -/

/-- A digit goes on with no word if the text in front of it does not end with a word
character. -/
theorem Scanned.endsBefore_digit_iff (h : Scanned place cs tokens)
    (hc : Character.isDigit c = true) (behind : List Char) :
    EndsBefore tokens (place + cs.length) (c :: behind) ↔
      ∀ d, cs.getLast? = some d → Character.isWord d = false := by
  -- What a word that ends with the text has to do with the last character of the text.
  have hlast (token : Token) (ht : token ∈ tokens) (hkind : token.kind ≠ .endOfLine)
      (hstop : token.stop = (place + cs.length : Nat)) :
      ∃ d, cs.getLast? = some d ∧
        (GoesOn token.lexeme.toList c ↔ Character.isWord d = true) := by
    have hlexeme := h.of_class token ht hkind
    obtain ⟨front, hfront⟩ := h.suffix token ht hkind hstop
    obtain ⟨d, hd⟩ := Option.ne_none_iff_exists'.mp
      (mt List.getLast?_eq_none_iff.mp hlexeme.ne_nil)
    refine ⟨d, ?_, (hlexeme.goesOn_digit_iff hc).trans (hlexeme.last_word_iff hd).symm⟩
    rw [← hfront, List.getLast?_append, hd, Option.some_or]
  constructor
  · intro hends d hd
    by_contra hword
    rw [Bool.not_eq_false] at hword
    have hgap : Character.isGap d = false := by
      by_contra hgap
      rw [Bool.not_eq_false] at hgap
      rw [(not_word_of_isGap hgap).2.1] at hword
      cases hword
    obtain ⟨token, ht, hkind, hstop⟩ := h.exists_last hd hgap
    obtain ⟨e, he, hgoes⟩ := hlast token ht hkind hstop
    obtain rfl := Option.some.inj (hd.symm.trans he)
    exact hends token ht hkind hstop c rfl (hgoes.mpr hword)
  · rintro hfree token ht hkind hstop e ⟨⟩ hgoes
    obtain ⟨d, hd, hiff⟩ := hlast token ht hkind hstop
    rw [hiff, hfree d hd] at hgoes
    cases hgoes

theorem getLast?_take_iff {p : Char → Bool} {s : Nat} (hs : s ≤ cs.length) :
    (∀ d, (cs.take s).getLast? = some d → p d = false) ↔
      s = 0 ∨ ∃ c, cs[s - 1]? = some c ∧ p c = false := by
  cases s with
  | zero => simp
  | succ s =>
    have hsome : cs[s]? = some cs[s] := List.getElem?_eq_getElem hs
    simp [List.getLast?_take, hsome]

/-- The number at the front of the rest of the line, behind a free place. -/
structure NumberAt (line : String) (s : Nat) (lexeme rest : List Char) : Prop where
  free : Free line s
  stands : line.toList.drop s = lexeme ++ rest
  longest : longest? (lexeme ++ rest) = some (.number, lexeme.length)

/-- The fault of a number is that of the line if the number is behind a free place. -/
theorem scan_number_iff {line : String} {fault : LexFault}
    (hfault : ∀ c k, fault ≠ .unexpectedCharacter c k) :
    scan line = .error fault ↔ ∃ s lexeme rest, NumberAt line s lexeme rest ∧
      numberFault? lexeme rest (s + lexeme.length) = some fault := by
  rw [scan, scanFrom_eq_error_iff]
  constructor
  · rintro ⟨front, behind, tokens, hline, hscanned, hends, hfaulty⟩
    cases hfaulty with
    | unexpected => exact absurd rfl (hfault _ _)
    | @number lexeme rest _ hlongest hnumber =>
      obtain ⟨d, ds, rfl, hdigit⟩ := head_of_number (longest?_number_iff.mp hlongest).1
      refine ⟨front.length, d :: ds, rest, ⟨⟨⟨tokens, scan_beginning hline hscanned⟩, ?_⟩, ?_,
        hlongest⟩, by simpa using hnumber⟩
      · have hfree := (hscanned.endsBefore_digit_iff hdigit _).mp hends
        rw [← getLast?_take_iff (by simp [hline]), hline, List.take_left]
        exact hfree
      · rw [hline, List.drop_left]
  · rintro ⟨s, lexeme, rest, ⟨⟨⟨tokens, hbefore⟩, hword⟩, hstands, hlongest⟩, hnumber⟩
    have hscanned := scanned_beginning hbefore
    obtain ⟨d, ds, rfl, hdigit⟩ := head_of_number (longest?_number_iff.mp hlongest).1
    have hs : s ≤ line.toList.length := by
      by_contra hs
      rw [List.drop_eq_nil_of_le (by omega)] at hstands
      cases hstands
    have hlength : (line.toList.take s).length = s := List.length_take_of_le hs
    refine ⟨line.toList.take s, d :: ds ++ rest, tokens, ?_, hscanned, ?_, .number hlongest ?_⟩
    · rw [← hstands, List.take_append_drop]
    · exact (hscanned.endsBefore_digit_iff hdigit _).mpr ((getLast?_take_iff hs).mpr hword)
    · rw [hlength, Nat.zero_add]
      exact hnumber

theorem scan_dangling_iff {line : String} {k : Nat} :
    scan line = .error (.danglingPoint k) ↔ ∃ s, DanglingAt line s k := by
  rw [scan_number_iff (by rintro c j ⟨⟩)]
  constructor
  · rintro ⟨s, lexeme, rest, ⟨hfree, hstands, hlongest⟩, hnumber⟩
    obtain ⟨hlexeme, hother⟩ := longest?_number_iff.mp hlongest
    rcases (numberFault?_eq_some_iff hlexeme).mp hnumber with ⟨heq, hdigits, hpoint⟩ | ⟨_, heq, -⟩
    · have hplace := LexFault.danglingPoint.inj heq
      obtain rfl : k = s + lexeme.length := by omega
      obtain ⟨more, rfl⟩ := List.head?_eq_some_iff.mp hpoint
      refine ⟨s, hfree, ?_, ?_, ?_, fun c hc => ?_⟩
      · have hpos := List.length_pos_iff.mpr hdigits.1
        omega
      · rw [List.drop_take, hstands, Nat.add_sub_cancel_left, List.take_left]
        exact hdigits.2
      · rw [← List.getElem?_drop, hstands, List.getElem?_append_right (Nat.le_refl _)]
        simp
      · -- A digit behind the point makes the number longer.
        by_contra hdigit
        rw [Bool.not_eq_false] at hdigit
        rw [Nat.add_assoc, ← List.getElem?_drop, hstands,
          List.getElem?_append_right (by omega), Nat.add_sub_cancel_left,
          List.getElem?_cons_succ, ← List.head?_eq_getElem?] at hc
        obtain ⟨behind, rfl⟩ := List.head?_eq_some_iff.mp hc
        have hlonger : Numeral.IsLexeme (lexeme ++ ['.', c]) :=
          .inr ⟨lexeme, [c], hdigits, ⟨by simp, by simpa using hdigit⟩, rfl⟩
        have hlength := hother _ hlonger ⟨behind, by simp⟩
        rw [List.length_append, List.length_cons] at hlength
        omega
    · cases heq
  · rintro ⟨s, hfree, hlt, hdigits, hpoint, hfraction⟩
    have hat : (line.toList.drop s)[k - s]? = some '.' := by
      rw [List.getElem?_drop, Nat.add_sub_cancel' (Nat.le_of_lt hlt)]
      exact hpoint
    obtain ⟨hsplit, hlength⟩ := eq_take_append hat
    rw [List.drop_take] at hdigits
    generalize (line.toList.drop s).take (k - s) = lexeme at hsplit hlength hdigits
    have hlexeme : Numeral.IsDigits lexeme :=
      ⟨List.length_pos_iff.mp (by omega), hdigits⟩
    refine ⟨s, lexeme, _, ⟨hfree, hsplit, longest?_point hlexeme fun c hc => hfraction c ?_⟩, ?_⟩
    · rw [List.head?_drop, List.getElem?_drop] at hc
      rw [← hc]
      congr 1
      omega
    · have hk : (s + lexeme.length : Int) = k := by omega
      exact (numberFault?_eq_some_iff (.inl hlexeme)).mpr (.inl ⟨by rw [hk], hlexeme, rfl⟩)

theorem scan_tooLarge_iff {line : String} {kind : LiteralKind} {literal : String} :
    scan line = .error (.literalTooLarge kind literal) ↔ ∃ s, TooLargeAt line kind literal s := by
  rw [scan_number_iff (by rintro c j ⟨⟩)]
  have hbehind {s : Nat} {rest : List Char} (hstands : line.toList.drop s = literal.toList ++ rest) :
      rest.head? = line.toList[s + literal.length]? := by
    rw [← String.length_toList, ← List.getElem?_drop, hstands,
      List.getElem?_append_right (Nat.le_refl _), Nat.sub_self, List.head?_eq_getElem?]
  constructor
  · rintro ⟨s, lexeme, rest, ⟨hfree, hstands, hlongest⟩, hnumber⟩
    obtain ⟨hlexeme, hother⟩ := longest?_number_iff.mp hlongest
    rcases (numberFault?_eq_some_iff hlexeme).mp hnumber with ⟨heq, -⟩ | ⟨_, heq, hlarge, hpoint⟩
    · cases heq
    · obtain ⟨rfl, hliteral⟩ := LexFault.literalTooLarge.inj heq
      obtain rfl : lexeme = literal.toList := by rw [hliteral, String.toList_ofList]
      refine ⟨s, hfree, ⟨rest, hstands.symm⟩, ?_, hlarge, ?_⟩
      · rw [hstands, ← String.length_toList]
        exact hother
      · rw [← hbehind hstands]
        exact hpoint
  · rintro ⟨s, hfree, ⟨rest, hstands⟩, hlongest, hlarge, hpoint⟩
    rw [← hstands, ← String.length_toList] at hlongest
    rw [← hbehind hstands.symm] at hpoint
    refine ⟨s, literal.toList, rest, ⟨hfree, hstands.symm,
      longest?_number_iff.mpr ⟨hlarge.isLexeme, hlongest⟩⟩, ?_⟩
    exact (numberFault?_eq_some_iff hlarge.isLexeme).mpr
      (.inr ⟨kind, by rw [String.ofList_toList], hlarge, hpoint⟩)

/-- The first fault of a line, and why it is there: each of the three faults is reported
just where the line, scanned up to there, has one. There is no other fault. An unexpected
character and a dangling point are shown with their place, a literal out of range
without. -/
theorem scan_first_fault (line : String) :
    (∀ (c : Char) (k : Nat),
      scan line = .error (.unexpectedCharacter c k) ↔ UnexpectedAt line c k) ∧
    (∀ k : Nat, scan line = .error (.danglingPoint k) ↔ ∃ s, DanglingAt line s k) ∧
    (∀ kind literal, scan line = .error (.literalTooLarge kind literal) ↔
      ∃ s, TooLargeAt line kind literal s) ∧
    ∀ fault, scan line = .error fault →
      (∃ (c : Char) (k : Nat), fault = .unexpectedCharacter c k ∧
        fault.diagnostic.code.label = "LEXER_001" ∧ fault.diagnostic.position = some (k : Int)) ∨
      (∃ k : Nat, fault = .danglingPoint k ∧
        fault.diagnostic.code.label = "LEXER_002" ∧ fault.diagnostic.position = some (k : Int)) ∨
      ∃ kind literal, fault = .literalTooLarge kind literal ∧
        fault.diagnostic.code.label = "LEXER_003" ∧ fault.diagnostic.position = none := by
  refine ⟨fun _ _ => scan_unexpected_iff, fun _ => scan_dangling_iff,
    fun _ _ => scan_tooLarge_iff, fun fault h => ?_⟩
  obtain ⟨front, behind, tokens, -, -, -, hfaulty⟩ := scanFrom_eq_error_iff.mp h
  cases hfaulty with
  | unexpected => exact .inl ⟨_, _, rfl, rfl, rfl⟩
  | @number lexeme rest _ hlongest hnumber =>
    have hlexeme := (longest?_number_iff.mp hlongest).1
    rcases (numberFault?_eq_some_iff hlexeme).mp hnumber with ⟨rfl, -⟩ | ⟨kind, rfl, -⟩
    · rw [← Int.natCast_add]
      exact .inr (.inl ⟨_, rfl, rfl, rfl⟩)
    · exact .inr (.inr ⟨kind, _, rfl, rfl, rfl⟩)

/-- The point counts before the size of the integer in front of it does. -/
example : scan "x = 99999999999999999999. + 1" = .error (.danglingPoint 24) := by decide +kernel

/-- A second point is no part of the number. -/
example : scan "x = 1.25.5" = .error (.unexpectedCharacter '.' 8) := by decide +kernel

end Token

end Reckoner
