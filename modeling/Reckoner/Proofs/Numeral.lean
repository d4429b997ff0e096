import Mathlib.Data.List.TakeWhile
import Reckoner.Numeral

/-! The two forms of a number in a line, digits alone or digits around a
point, and the value that each denotes. The reader of numerals takes more, and
agrees with them: a text of one of the forms is read without a sign and an
exponent, and its value is the denoted one. -/
namespace Reckoner.Numeral

/-! ## The forms -/

/-- Decimal digits of any scripts, at least one. -/
def IsDigits (cs : List Char) : Prop :=
  cs ≠ [] ∧ ∀ c ∈ cs, Character.isDigit c = true

/-- Digits, or digits with a point between them. -/
def IsLexeme (cs : List Char) : Prop :=
  IsDigits cs ∨
    ∃ whole fraction, IsDigits whole ∧ IsDigits fraction ∧ cs = whole ++ '.' :: fraction

/-- The digits have these values. -/
def DigitValues (cs : List Char) (ds : List Nat) : Prop :=
  cs ≠ [] ∧ cs.map Character.digit? = ds.map some

/-- The number that a lexeme denotes: an integer without a point, and with one
the binary64 number nearest to the decimal. -/
inductive Denotes : List Char → Value → Prop
  | integer {cs ds} (h : DigitValues cs ds) : Denotes cs (.int (Decimal.ofDigits ds))
  | decimal {whole fraction ws fs} (hw : DigitValues whole ws)
      (hf : DigitValues fraction fs) :
      Denotes (whole ++ '.' :: fraction)
        (.float (Decimal.toBinary64 ⟨Decimal.ofDigits (ws ++ fs), -fs.length⟩))

/-! ## Digits and their values -/

theorem isDigit_point : Character.isDigit '.' = false := by decide

theorem IsDigits.ne_point {cs : List Char} (h : IsDigits cs) :
    ∀ c ∈ cs, (c != '.') = true := by
  intro c hc
  rw [bne_iff_ne]
  rintro rfl
  have := h.2 _ hc
  rw [isDigit_point] at this
  contradiction

theorem DigitValues.isDigits {cs : List Char} {ds : List Nat} (h : DigitValues cs ds) :
    IsDigits cs := by
  refine ⟨h.1, fun c hc => ?_⟩
  have hmem : Character.digit? c ∈ ds.map some := by
    rw [← h.2]
    exact List.mem_map_of_mem hc
  obtain ⟨d, -, hd⟩ := List.mem_map.mp hmem
  rw [Character.isDigit, ← hd]
  rfl

/-- All digits have values, and reading them one by one gives these. -/
theorem mapM_digit? (cs : List Char) (h : ∀ c ∈ cs, Character.isDigit c = true) :
    ∃ ds, cs.mapM Character.digit? = some ds ∧ cs.map Character.digit? = ds.map some := by
  induction cs with
  | nil => exact ⟨[], rfl, rfl⟩
  | cons c cs ih =>
    obtain ⟨ds, hmapM, hmap⟩ := ih fun x hx => h x (by simp [hx])
    obtain ⟨d, hd⟩ := Option.isSome_iff_exists.mp (h c (by simp))
    exact ⟨d :: ds, by simp [List.mapM_cons, hd, hmapM], by simp [hd, hmap]⟩

/-- Without underscores only the empty text is refused. -/
theorem separated_of_ne {cs : List Char} (h : ∀ c ∈ cs, c ≠ '_') (apart : Bool) :
    separated apart cs = (apart || cs != []) := by
  induction cs generalizing apart with
  | nil => simp [separated]
  | cons c cs ih =>
    obtain ⟨hc, hcs⟩ := List.forall_mem_cons.mp h
    rw [separated, if_neg hc, ih hcs]
    simp

theorem IsDigits.values {cs : List Char} (h : IsDigits cs) :
    ∃ ds, digits? cs = some ds ∧ DigitValues cs ds := by
  have hne (c : Char) (hc : c ∈ cs) : c ≠ '_' := by
    rintro rfl
    exact absurd (h.2 _ hc) (by decide)
  obtain ⟨ds, hmapM, hmap⟩ := mapM_digit? cs h.2
  refine ⟨ds, ?_, h.1, hmap⟩
  rw [digits?, separated_of_ne hne, List.filter_eq_self.mpr fun c hc => bne_iff_ne.mpr (hne c hc),
    hmapM]
  simp [h.1]

theorem DigitValues.unique {cs : List Char} {ds es : List Nat}
    (hd : DigitValues cs ds) (he : DigitValues cs es) : ds = es :=
  (List.map_inj_right fun _ _ => Option.some.inj).mp (hd.2.symm.trans he.2)

theorem DigitValues.digits? {cs : List Char} {ds : List Nat} (h : DigitValues cs ds) :
    Numeral.digits? cs = some ds := by
  obtain ⟨es, hread, hes⟩ := h.isDigits.values
  rw [hread, h.unique hes]

/-! ## What stands around the digits -/

/-- No blank lies between two digits of a script. -/
theorem digitZeros_apart : ∀ first ∈ Character.digitZeros, 0x0020 < first ∧
    (first + 9 < 0x0085 ∨ 0x00A0 < first) ∧ (first + 9 < 0x1680 ∨ 0x1680 < first) ∧
    (first + 9 < 0x2000 ∨ 0x3000 < first) := by
  decide

theorem not_padding_of_isDigit {c : Char} (h : Character.isDigit c = true) :
    Character.isPadding c = false := by
  obtain ⟨d, hd⟩ := Option.isSome_iff_exists.mp h
  obtain ⟨first, hfirst, -⟩ := Option.map_eq_some_iff.mp hd
  have hc := List.find?_some hfirst
  have hapart := digitZeros_apart first (List.mem_of_find?_eq_some hfirst)
  simp only [Bool.and_eq_true, decide_eq_true_eq] at hc
  have hblank : Character.isBlank c = false := by
    simp only [Character.isBlank, Bool.or_eq_false_iff, Bool.and_eq_false_iff,
      decide_eq_false_iff_not, beq_eq_false_iff_ne]
    omega
  rw [Character.isPadding, hblank, Bool.false_and]

theorem dropWhile_isPadding {cs : List Char} (h : ∀ c ∈ cs, Character.isPadding c = false) :
    cs.dropWhile Character.isPadding = cs := by
  cases cs with
  | nil => rfl
  | cons c cs => exact List.dropWhile_cons_of_neg (by simp [h c])

theorem withoutPadding_eq_self {cs : List Char} (h : ∀ c ∈ cs, Character.isPadding c = false) :
    withoutPadding cs = cs := by
  have hreverse (c : Char) (hc : c ∈ cs.reverse) := h c (List.mem_reverse.mp hc)
  rw [withoutPadding, dropWhile_isPadding h, dropWhile_isPadding hreverse, List.reverse_reverse]

theorem splitSign_eq_self {cs : List Char} (h : ∀ c ∈ cs, c ≠ '-' ∧ c ≠ '+') :
    splitSign cs = (false, cs) := by
  unfold splitSign
  split
  · exact absurd rfl (h '-' List.mem_cons_self).1
  · exact absurd rfl (h '+' List.mem_cons_self).2
  · rfl

/-- Around digits and points there is neither a blank nor a sign to be taken off. -/
theorem splitSign_withoutPadding {cs : List Char}
    (h : ∀ c ∈ cs, Character.isDigit c = true ∨ c = '.') :
    splitSign (withoutPadding cs) = (false, cs) := by
  have hpadding (c : Char) (hc : c ∈ cs) : Character.isPadding c = false := by
    rcases h c hc with hdigit | rfl
    · exact not_padding_of_isDigit hdigit
    · decide
  rw [withoutPadding_eq_self hpadding]
  refine splitSign_eq_self fun c hc => ⟨?_, ?_⟩ <;>
  · rintro rfl
    exact absurd (h _ hc) (by decide)

theorem mem_withoutPadding {cs : List Char} {c : Char} (h : Character.isPadding c = false) :
    c ∈ withoutPadding cs ↔ c ∈ cs := by
  have hdrop (ds : List Char) : c ∈ ds.dropWhile Character.isPadding ↔ c ∈ ds := by
    refine ⟨fun hc => (List.dropWhile_sublist _).subset hc, fun hc => ?_⟩
    rw [← List.takeWhile_append_dropWhile (p := Character.isPadding) (l := ds)] at hc
    refine (List.mem_append.mp hc).resolve_left fun htake => ?_
    rw [List.mem_takeWhile_imp htake] at h
    cases h
  rw [withoutPadding, List.mem_reverse, hdrop, List.mem_reverse, hdrop]

theorem mem_splitSign {cs : List Char} {c : Char} (hminus : c ≠ '-') (hplus : c ≠ '+') :
    c ∈ (splitSign cs).2 ↔ c ∈ cs := by
  unfold splitSign
  split
  · simp [hminus]
  · simp [hplus]
  · rfl

/-! ## Reading -/

theorem read?_digits {cs : List Char} {ds : List Nat} (h : DigitValues cs ds) :
    read? cs = some ⟨false, ds, none, 0⟩ := by
  have hpoint := h.isDigits.ne_point
  have hfront : cs.takeWhile (· != '.') = cs := List.takeWhile_eq_self_iff.mpr hpoint
  have hback : cs.dropWhile (· != '.') = [] := List.dropWhile_eq_nil_iff.mpr hpoint
  rw [read?, splitSign_withoutPadding fun c hc => .inl (h.isDigits.2 c hc)]
  simp [hfront, hback, h.digits?]

theorem read?_point {whole fraction : List Char} {ws fs : List Nat} (hw : DigitValues whole ws)
    (hf : DigitValues fraction fs) :
    read? (whole ++ '.' :: fraction) = some ⟨false, ws, some fs, 0⟩ := by
  have hfront : (whole ++ '.' :: fraction).takeWhile (· != '.') = whole := by
    rw [List.takeWhile_append_of_pos hw.isDigits.ne_point]
    simp
  have hback : (whole ++ '.' :: fraction).dropWhile (· != '.') = '.' :: fraction := by
    rw [List.dropWhile_append_of_pos hw.isDigits.ne_point]
    simp
  -- No digit is the letter in front of an exponent.
  have hmark (c : Char) (hc : c ∈ fraction) : (!isExponentMark c) = true := by
    rw [Bool.not_eq_true', isExponentMark, Bool.or_eq_false_iff, beq_eq_false_iff_ne,
      beq_eq_false_iff_ne]
    constructor <;>
    · rintro rfl
      exact absurd (hf.isDigits.2 _ hc) (by decide)
  have hfraction : fraction.takeWhile (!isExponentMark ·) = fraction :=
    List.takeWhile_eq_self_iff.mpr hmark
  have hexponent : fraction.dropWhile (!isExponentMark ·) = [] :=
    List.dropWhile_eq_nil_iff.mpr hmark
  rw [read?, splitSign_withoutPadding]
  · simp [hfront, hback, hfraction, hexponent, optionalDigits?, exponent?, hw.1, hf.1, hw.digits?,
      hf.digits?]
  · intro c hc
    rcases List.mem_append.mp hc with hc | hc
    · exact .inl (hw.isDigits.2 c hc)
    · rcases List.mem_cons.mp hc with rfl | hc
      · exact .inr rfl
      · exact .inl (hf.isDigits.2 c hc)

theorem mem_point_iff (cs : List Char) : '.' ∈ cs ↔ cs.dropWhile (· != '.') ≠ [] := by
  rw [Ne, List.dropWhile_eq_nil_iff]
  constructor
  · intro hmem hall
    simpa using hall '.' hmem
  · intro hnot
    by_contra hmem
    exact hnot fun c hc => bne_iff_ne.mpr fun heq => hmem (heq ▸ hc)

/-- What is read has a fraction exactly if the text has a point. -/
theorem read?_fraction {text : List Char} {numeral : Numeral}
    (h : read? text = some numeral) : numeral.fraction.isSome = true ↔ '.' ∈ text := by
  rw [← mem_withoutPadding (by decide), ← mem_splitSign (by decide) (by decide), mem_point_iff]
  unfold read? at h
  dsimp only at h
  split at h
  · next hback =>
    obtain ⟨ds, -, hds⟩ := Option.bind_eq_some_iff.mp h
    cases hds
    simp [hback]
  · next hback =>
    split at h
    · cases h
    · obtain ⟨ws, -, hws⟩ := Option.bind_eq_some_iff.mp h
      obtain ⟨fs, -, hfs⟩ := Option.bind_eq_some_iff.mp hws
      obtain ⟨e, -, he⟩ := Option.bind_eq_some_iff.mp hfs
      cases he
      simp [hback]

/-- More can be read than a line holds in one token. -/
example : read? " -1_0.5e+2 ".toList = some ⟨true, [1, 0], some [5], 2⟩ := by
  decide +kernel

/-- Without a sign and an exponent the decimal is the one of the digits alone. -/
theorem toBinary64_unsigned (whole fraction : List Nat) :
    toBinary64 ⟨false, whole, some fraction, 0⟩ =
      Decimal.toBinary64 ⟨Decimal.ofDigits (whole ++ fraction), -fraction.length⟩ := by
  rw [toBinary64, toDecimal, Int.zero_sub]
  rfl

/-- What a text denotes is the value that is read from it. -/
theorem Denotes.read? {cs : List Char} {v : Value} (h : Denotes cs v) :
    ∃ numeral, Numeral.read? cs = some numeral ∧ numeral.value = v := by
  cases h with
  | integer hds => exact ⟨_, read?_digits hds, rfl⟩
  | decimal hws hfs =>
    exact ⟨_, read?_point hws hfs, congrArg Value.float (toBinary64_unsigned _ _)⟩

/-- Every lexeme denotes a value. -/
theorem IsLexeme.denotes {cs : List Char} (h : IsLexeme cs) : ∃ v, Denotes cs v := by
  obtain h | ⟨whole, fraction, hwhole, hfraction, rfl⟩ := h
  · obtain ⟨ds, -, hds⟩ := h.values
    exact ⟨_, .integer hds⟩
  · obtain ⟨ws, -, hws⟩ := hwhole.values
    obtain ⟨fs, -, hfs⟩ := hfraction.values
    exact ⟨_, .decimal hws hfs⟩

end Reckoner.Numeral
