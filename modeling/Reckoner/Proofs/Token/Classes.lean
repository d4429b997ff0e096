import Reckoner.Proofs.Token.Scanned

/-! The classes of tokens as sets of texts. A text belongs to one class at most,
since its first character already tells operators, numbers and names apart. Of the
texts of any class at the front of a line, the one that the scanner takes is the
longest, whatever the order in which it tries them. -/
namespace Reckoner.Token

/-! ## The classes -/

/-- The only spelling of an operator or parenthesis. -/
def Kind.symbol? : Kind → Option String
  | .plus => some "+"
  | .minus => some "-"
  | .star => some "*"
  | .slash => some "/"
  | .percent => some "%"
  | .caret => some "^"
  | .plusPlus => some "++"
  | .minusMinus => some "--"
  | .equal => some "="
  | .plusEqual => some "+="
  | .minusEqual => some "-="
  | .starEqual => some "*="
  | .slashEqual => some "/="
  | .percentEqual => some "%="
  | .caretEqual => some "^="
  | .leftParen => some "("
  | .rightParen => some ")"
  | .number | .identifier | .endOfLine => none

/-- The text belongs to the class of the kind. -/
inductive Lexeme : Kind → List Char → Prop
  | number {cs} (h : Numeral.IsLexeme cs) : Lexeme .number cs
  | identifier {c cs} (hc : Character.isDigit c = false)
      (h : ∀ d ∈ c :: cs, Character.isWord d = true) : Lexeme .identifier (c :: cs)
  | symbol {kind cs} (h : kind.symbol? = some (String.ofList cs)) : Lexeme kind cs

theorem symbol?_eq_some_iff {kind : Kind} {cs : List Char} :
    kind.symbol? = some (String.ofList cs) ↔ (cs, kind) ∈ spellings := by
  constructor
  · intro h
    have hcs : kind.symbol?.map String.toList = some cs := by
      rw [h, Option.map_some, String.toList_ofList]
    cases kind <;> cases hcs <;> decide
  · have hall : ∀ spelling ∈ spellings,
        spelling.2.symbol? = some (String.ofList spelling.1) := by decide
    exact hall (cs, kind)

/-! ## The first character -/

/-- The class that a first character decides; none for that of an operator. -/
def headKind? (c : Char) : Option Kind :=
  if Character.isDigit c then some .number
  else if Character.isWord c then some .identifier
  else none

theorem isDigit_of_headKind? {c : Char} (h : headKind? c = some .number) :
    Character.isDigit c = true := by
  unfold headKind? at h
  split at h
  · assumption
  · split at h <;> cases h

theorem headKind?_symbol {c : Char} {cs : List Char} {kind : Kind}
    (h : (c :: cs, kind) ∈ spellings) : headKind? c = none := by
  have hall : ∀ spelling ∈ spellings, spelling.1.head?.map headKind? = some none := by decide
  exact Option.some.inj (hall _ h)

/-- The first character of a text of a class decides the class, unless the text is
an operator. -/
theorem Lexeme.exists_head {kind : Kind} {cs : List Char} (h : Lexeme kind cs) :
    ∃ c rest, cs = c :: rest ∧
      (headKind? c = some kind ∨ headKind? c = none ∧ (cs, kind) ∈ spellings) := by
  cases h with
  | number h =>
    have hdigits : ∃ ds rest, Numeral.IsDigits ds ∧ cs = ds ++ rest := by
      obtain h | ⟨whole, fraction, hwhole, -, rfl⟩ := h
      · exact ⟨cs, [], h, (List.append_nil cs).symm⟩
      · exact ⟨whole, _, hwhole, rfl⟩
    obtain ⟨ds, rest, ⟨hne, hall⟩, rfl⟩ := hdigits
    obtain ⟨c, ds, rfl⟩ := List.exists_cons_of_ne_nil hne
    exact ⟨c, ds ++ rest, rfl, .inl (by simp [headKind?, hall c (by simp)])⟩
  | @identifier c cs hc h =>
    exact ⟨c, cs, rfl, .inl (by simp [headKind?, hc, h c (by simp)])⟩
  | symbol h =>
    have hmem := symbol?_eq_some_iff.mp h
    have hne : ∀ spelling ∈ spellings, spelling.1 ≠ [] := by decide
    obtain ⟨c, rest, rfl⟩ := List.exists_cons_of_ne_nil (hne _ hmem)
    exact ⟨c, rest, rfl, .inr ⟨headKind?_symbol hmem, hmem⟩⟩

/-- No text belongs to two classes. -/
theorem Lexeme.unique {kind other : Kind} {cs : List Char} (h : Lexeme kind cs)
    (ho : Lexeme other cs) : other = kind := by
  obtain ⟨c, rest, rfl, hkind⟩ := h.exists_head
  obtain ⟨_, _, hcons, hother⟩ := ho.exists_head
  obtain ⟨rfl, rfl⟩ := List.cons.inj hcons
  rcases hkind with hkind | ⟨hnone, hmem⟩
  · rcases hother with hother | ⟨hnone, -⟩
    · exact Option.some.inj (hother.symm.trans hkind)
    · cases hnone.symm.trans hkind
  · rcases hother with hother | ⟨-, hmem'⟩
    · cases hnone.symm.trans hother
    · have hinj : ∀ a ∈ spellings, ∀ b ∈ spellings, b.1 = a.1 → b.2 = a.2 := by decide
      exact hinj _ hmem _ hmem' rfl

/-- The end of the line is spelled by nothing. -/
theorem Lexeme.ne_endOfLine {kind : Kind} {cs : List Char} (h : Lexeme kind cs) :
    kind ≠ .endOfLine := by
  rintro rfl
  cases h with
  | symbol h => cases h

/-! ## The longest text -/

/-- What the scanner takes belongs to the class that it reports. -/
theorem longest?_lexeme {cs : List Char} {kind : Kind} {length : Nat}
    (h : longest? cs = some (kind, length)) : Lexeme kind (cs.take length) := by
  rcases longest?_eq_some h with
    ⟨spelling, hmem, hstarts, rfl⟩ | ⟨_, _, _, _, rfl, _⟩ | ⟨c, rest, rfl, hd, hw, rfl, rfl⟩
  · rw [← List.prefix_iff_eq_take.mp (List.isPrefixOf_iff_prefix.mp hstarts)]
    exact .symbol (symbol?_eq_some_iff.mpr hmem)
  · exact .number (longest?_number h)
  · have htake : (c :: rest).takeWhile Character.isWord =
        (c :: rest).take ((c :: rest).takeWhile Character.isWord).length :=
      List.prefix_iff_eq_take.mp (List.takeWhile_prefix Character.isWord)
    rw [← htake]
    have hcons : (c :: rest).takeWhile Character.isWord =
        c :: rest.takeWhile Character.isWord := by simp [hw]
    rw [hcons]
    refine .identifier hd fun d hmem => ?_
    rw [← hcons] at hmem
    exact List.mem_takeWhile_imp hmem

/-- A run of characters of a sort at the front is a part of the longest one. -/
theorem length_le_takeWhile {p : Char → Bool} {used cs : List Char}
    (hu : ∀ c ∈ used, p c = true) (h : used <+: cs) :
    used.length ≤ (cs.takeWhile p).length := by
  obtain ⟨rest, rfl⟩ := h
  rw [List.takeWhile_append_of_pos hu, List.length_append]
  exact Nat.le_add_right _ _

theorem takeWhile_le_numberLength (cs : List Char) :
    (cs.takeWhile Character.isDigit).length ≤ numberLength cs := by
  unfold numberLength
  dsimp only
  split
  · split <;> omega
  · exact Nat.le_refl _

/-- No number at the front is longer than the one taken. -/
theorem length_le_numberLength {used cs : List Char} (hu : Numeral.IsLexeme used)
    (h : used <+: cs) : used.length ≤ numberLength cs := by
  obtain hu | ⟨whole, fraction, hwhole, hfraction, rfl⟩ := hu
  · exact (length_le_takeWhile hu.2 h).trans (takeWhile_le_numberLength cs)
  · obtain ⟨rest, rfl⟩ := h
    -- The point ends the whole part, and the digits behind it are taken with it.
    have htake : ((whole ++ '.' :: fraction) ++ rest).takeWhile Character.isDigit = whole := by
      rw [List.append_assoc, List.takeWhile_append_of_pos hwhole.2, List.cons_append,
        List.takeWhile_cons_of_neg (by simp [Numeral.isDigit_point]), List.append_nil]
    have hdrop : ((whole ++ '.' :: fraction) ++ rest).dropWhile Character.isDigit =
        '.' :: (fraction ++ rest) := by
      rw [List.append_assoc, List.dropWhile_append_of_pos hwhole.2, List.cons_append,
        List.dropWhile_cons_of_neg (by simp [Numeral.isDigit_point])]
    have hlength := length_le_takeWhile hfraction.2 (List.prefix_append fraction rest)
    have hpos := List.length_pos_iff.mpr hfraction.1
    have hne : (fraction ++ rest).takeWhile Character.isDigit ≠ [] :=
      List.length_pos_iff.mp (by omega)
    simp only [numberLength, htake, hdrop, if_neg hne, List.length_append, List.length_cons]
    omega

/-- Where a number or a name starts, no operator does. -/
theorem find?_spelling_eq_none {c : Char} (h : headKind? c ≠ none) (rest : List Char) :
    spellings.find? (fun spelling => spelling.1.isPrefixOf (c :: rest)) = none := by
  rw [List.find?_eq_none]
  rintro ⟨spelling, kind⟩ hmem hstarts
  have hne : ∀ s ∈ spellings, s.1 ≠ [] := by decide
  obtain ⟨d, tail, rfl⟩ := List.exists_cons_of_ne_nil (hne _ hmem)
  obtain ⟨rfl, -⟩ := List.cons_prefix_cons.mp (List.isPrefixOf_iff_prefix.mp hstarts)
  exact h (headKind?_symbol hmem)

/-- The operator found is the longest at this place: longer spellings come first. -/
theorem length_le_of_find? {cs : List Char} {spelling other : List Char × Kind}
    (h : spellings.find? (fun s => s.1.isPrefixOf cs) = some spelling)
    (ho : other ∈ spellings) (hstarts : other.1 <+: cs) :
    other.1.length ≤ spelling.1.length := by
  have hsorted : spellings.Pairwise fun a b => b.1.length ≤ a.1.length := by decide
  obtain ⟨-, front, behind, heq, hfront⟩ := List.find?_eq_some_iff_append.mp h
  rw [heq] at ho hsorted
  rcases List.mem_append.mp ho with hmem | hmem
  · have := hfront other hmem
    rw [List.isPrefixOf_iff_prefix.mpr hstarts] at this
    cases this
  · rcases List.mem_cons.mp hmem with rfl | hmem
    · exact Nat.le_refl _
    · exact (List.pairwise_cons.mp (List.pairwise_append.mp hsorted).2.1).1 other hmem

/-- No text of any class at the front is longer than what the scanner takes. -/
theorem Lexeme.length_le_longest? {cs used : List Char} {kind other : Kind} {length : Nat}
    (hu : Lexeme other used) (hstarts : used <+: cs)
    (h : longest? cs = some (kind, length)) : used.length ≤ length := by
  obtain ⟨c, rest, rfl, hhead⟩ := hu.exists_head
  obtain ⟨tail, rfl⟩ := hstarts
  rw [List.cons_append] at h
  unfold longest? at h
  rcases hhead with hhead | ⟨-, hmem⟩
  · -- A number or a name: the first character excludes any other class.
    rw [find?_spelling_eq_none (by simp [hhead])] at h
    dsimp only at h
    cases hu with
    | number hu =>
      rw [if_pos (isDigit_of_headKind? hhead)] at h
      cases h
      exact length_le_numberLength hu (List.prefix_append _ tail)
    | identifier hc hall =>
      rw [if_neg (by simp [hc]), if_pos (hall c (by simp))] at h
      cases h
      exact length_le_takeWhile hall (List.prefix_append _ tail)
    | symbol hu =>
      rw [headKind?_symbol (symbol?_eq_some_iff.mp hu)] at hhead
      cases hhead
  · -- An operator: one has been found, and it is the longest.
    cases hfind : spellings.find? fun s => s.1.isPrefixOf (c :: (rest ++ tail)) with
    | none =>
      have := List.find?_eq_none.mp hfind _ hmem
      exact absurd (List.isPrefixOf_iff_prefix.mpr ⟨tail, rfl⟩) this
    | some spelling =>
      rw [hfind] at h
      cases h
      exact length_le_of_find? hfind hmem ⟨tail, rfl⟩

end Reckoner.Token
