import Reckoner.Json

/-! Strings in documents. The spelling allows every escape that a string may have, and
the reader takes them all; the text of a document uses some of them. -/
namespace Reckoner.Json

/-! ## Units -/

/-- The value of a hexadecimal digit of either case. -/
def hexDigit? (c : Char) : Option Nat :=
  if c.isDigit then some (c.toNat - '0'.toNat)
  else if 'a' ≤ c ∧ c ≤ 'f' then some (c.toNat - 'a'.toNat + 10)
  else if 'A' ≤ c ∧ c ≤ 'F' then some (c.toNat - 'A'.toNat + 10)
  else none

/-- A unit of UTF-16 is four hexadecimal digits. -/
inductive UnitText : Nat → List Char → Prop
  | digits {a b c d w x y z} (ha : hexDigit? a = some w) (hb : hexDigit? b = some x)
      (hc : hexDigit? c = some y) (hd : hexDigit? d = some z) :
      UnitText (((w * 16 + x) * 16 + y) * 16 + z) [a, b, c, d]

/-- A unit at the front of a text, and what is behind it. -/
def unit? : List Char → Option (Nat × List Char)
  | a :: b :: c :: d :: rest => do
    let w ← hexDigit? a
    let x ← hexDigit? b
    let y ← hexDigit? c
    let z ← hexDigit? d
    some (((w * 16 + x) * 16 + y) * 16 + z, rest)
  | _ => none

theorem unit?_append {unit : Nat} {cs : List Char} (h : UnitText unit cs) (rest : List Char) :
    unit? (cs ++ rest) = some (unit, rest) := by
  cases h with
  | digits ha hb hc hd => simp [unit?, ha, hb, hc, hd]

/-- The characters of the texts of documents, but for the ends of lines: the printed
ones of ASCII. -/
def IsPlain (c : Char) : Prop := 0x20 ≤ c.toNat ∧ c.toNat ≤ 0x7E

instance (c : Char) : Decidable (IsPlain c) := inferInstanceAs (Decidable (_ ∧ _))

theorem isPlain_between {a b c : Char} (ha : IsPlain a) (hb : IsPlain b) (hac : a ≤ c)
    (hcb : c ≤ b) : IsPlain c :=
  ⟨Nat.le_trans ha.1 hac, Nat.le_trans hcb hb.2⟩

theorem isPlain_of_isDigit {c : Char} (h : c.isDigit = true) : IsPlain c := by
  have hzero : IsPlain '0' := by decide
  have hnine : IsPlain '9' := by decide
  simp only [Char.isDigit, ge_iff_le, Bool.and_eq_true, decide_eq_true_eq] at h
  exact isPlain_between hzero hnine h.1 h.2

theorem isPlain_of_hexDigit? {c : Char} {n : Nat} (h : hexDigit? c = some n) : IsPlain c := by
  unfold hexDigit? at h
  split at h
  · next hdigit => exact isPlain_of_isDigit hdigit
  split at h
  · next hletter => exact isPlain_between (by decide) (by decide) hletter.1 hletter.2
  split at h
  · next hletter => exact isPlain_between (by decide) (by decide) hletter.1 hletter.2
  · cases h

theorem UnitText.plain {unit : Nat} {cs : List Char} (h : UnitText unit cs) :
    ∀ c ∈ cs, IsPlain c := by
  cases h with
  | digits ha hb hc hd =>
    simp only [List.forall_mem_cons]
    exact ⟨isPlain_of_hexDigit? ha, isPlain_of_hexDigit? hb, isPlain_of_hexDigit? hc,
      isPlain_of_hexDigit? hd, by simp⟩

theorem hexDigit?_digitChar {n : Nat} (h : n < 16) : hexDigit? n.digitChar = some n := by
  have hall : ∀ n < 16, hexDigit? (Nat.digitChar n) = some n := by decide
  exact hall n h

/-- The last digit of a number in hexadecimal stands last; in front of it is the rest in
one place less. -/
theorem hex_succ {width : Nat} (hwidth : 0 < width) (n : Nat) :
    Text.hex (width + 1) n = Text.hex width (n / 16) ++ [(n % 16).digitChar] := by
  unfold Text.hex
  dsimp only
  by_cases hlt : n < 16
  · obtain ⟨k, rfl⟩ := Nat.exists_eq_add_of_lt hwidth
    rw [Nat.toDigits_of_lt_base hlt, Nat.div_eq_of_lt hlt, Nat.mod_eq_of_lt hlt, Nat.toDigits_zero]
    simp [← List.replicate_succ']
  · rw [Nat.toDigits_of_base_le (by decide) (by omega), List.length_append, List.length_singleton,
      Nat.add_sub_add_right, List.append_assoc]

theorem hex_text {n : Nat} (h : n < 0x10000) : UnitText n (Text.hex 4 n) := by
  have hdigits : Text.hex 4 n = [(n / 16 / 16 / 16).digitChar, (n / 16 / 16 % 16).digitChar,
      (n / 16 % 16).digitChar, (n % 16).digitChar] := by
    rw [hex_succ (by decide), hex_succ (by decide), hex_succ (by decide), Text.hex,
      Nat.toDigits_of_lt_base (by omega)]
    rfl
  have htext := UnitText.digits (hexDigit?_digitChar (show n / 16 / 16 / 16 < 16 by omega))
    (hexDigit?_digitChar (Nat.mod_lt (n / 16 / 16) (by decide)))
    (hexDigit?_digitChar (Nat.mod_lt (n / 16) (by decide)))
    (hexDigit?_digitChar (Nat.mod_lt n (by decide)))
  have hvalue : ((n / 16 / 16 / 16 * 16 + n / 16 / 16 % 16) * 16 + n / 16 % 16) * 16 + n % 16 = n :=
    by omega
  rw [hvalue] at htext
  rwa [hdigits]

/-! ## Characters -/

/-- The escapes of one letter, and the characters that they stand for. -/
def shortEscapes : List (Char × Char) :=
  [(Text.doubleQuote, Text.doubleQuote), (Text.backslash, Text.backslash), ('/', '/'),
    ('b', Char.ofNat 0x08), ('f', Char.ofNat 0x0C), ('n', '\n'), ('r', '\r'), ('t', '\t')]

/-- The number is the first unit of a pair. -/
def IsHigh (unit : Nat) : Prop := 0xD800 ≤ unit ∧ unit < 0xDC00

/-- The number is the second unit of a pair. -/
def IsLow (unit : Nat) : Prop := 0xDC00 ≤ unit ∧ unit < 0xE000

instance (unit : Nat) : Decidable (IsHigh unit) := inferInstanceAs (Decidable (_ ∧ _))

instance (unit : Nat) : Decidable (IsLow unit) := inferInstanceAs (Decidable (_ ∧ _))

/-- The code point that a pair of units stands for. -/
def pairValue (high low : Nat) : Nat :=
  0x10000 + (high - 0xD800) * 0x400 + (low - 0xDC00)

/-- The ways to write a character in a string. -/
inductive CharText : Char → List Char → Prop
  | plain {c} (hprinted : 0x20 ≤ c.toNat) (hquote : c ≠ Text.doubleQuote)
      (hbackslash : c ≠ Text.backslash) : CharText c [c]
  | short {letter c} (h : (letter, c) ∈ shortEscapes) : CharText c [Text.backslash, letter]
  | unit {c cs} (h : UnitText c.toNat cs) : CharText c (Text.backslash :: 'u' :: cs)
  | pair {c high low hs ls} (hhigh : UnitText high hs) (hlow : UnitText low ls)
      (hfirst : IsHigh high) (hsecond : IsLow low) (hvalue : c.toNat = pairValue high low) :
      CharText c (Text.backslash :: 'u' :: (hs ++ Text.backslash :: 'u' :: ls))

/-- The character of a code point. -/
def scalar? (n : Nat) : Option Char :=
  if n.isValidChar then some (Char.ofNat n) else none

/-- The second unit of a pair, behind the first one. -/
def pair? (high : Nat) : List Char → Option (Char × List Char)
  | b :: u :: cs =>
    if b = Text.backslash ∧ u = 'u' then do
      let (low, rest) ← unit? cs
      if IsLow low then (scalar? (pairValue high low)).map (·, rest) else none
    else none
  | _ => none

/-- What an escape stands for, behind its backslash. -/
def escape? : List Char → Option (Char × List Char)
  | [] => none
  | letter :: cs =>
    if letter = 'u' then do
      let (unit, rest) ← unit? cs
      if IsHigh unit then pair? unit rest else (scalar? unit).map (·, rest)
    else (shortEscapes.lookup letter).map (·, cs)

/-- A character at the front of a text. -/
def character? : List Char → Option (Char × List Char)
  | [] => none
  | c :: cs =>
    if c = Text.backslash then escape? cs
    else if 0x20 ≤ c.toNat ∧ c ≠ Text.doubleQuote then some (c, cs)
    else none

theorem scalar?_toNat (c : Char) : scalar? c.toNat = some c := by
  have hvalid : c.toNat.isValidChar := c.valid
  rw [scalar?, if_pos hvalid, Char.ofNat_toNat]

theorem not_isHigh (c : Char) : ¬ IsHigh c.toNat := by
  rintro ⟨hlower, hupper⟩
  rcases c.valid with h | ⟨h, -⟩
  · exact absurd (Nat.lt_of_le_of_lt hlower h) (by decide)
  · exact absurd (Nat.lt_trans h hupper) (by decide)

theorem character?_append {c : Char} {cs : List Char} (h : CharText c cs) (rest : List Char) :
    character? (cs ++ rest) = some (c, rest) := by
  cases h with
  | plain hprinted hquote hbackslash => simp [character?, hprinted, hquote, hbackslash]
  | short h =>
    have hletter : ∀ escape ∈ shortEscapes, escape.1 ≠ 'u' ∧
        shortEscapes.lookup escape.1 = some escape.2 := by decide
    obtain ⟨hu, hlookup⟩ := hletter _ h
    simp [character?, escape?, hu, hlookup]
  | unit h => simp [character?, escape?, unit?_append h, not_isHigh, scalar?_toNat]
  | pair hhigh hlow hfirst hsecond hvalue =>
    simp [character?, escape?, unit?_append hhigh, hfirst, pair?, unit?_append hlow, hsecond,
      ← hvalue, scalar?_toNat]

/-! ## Strings -/

/-- Characters one after the other. -/
inductive CharsText : List Char → List Char → Prop
  | nil : CharsText [] []
  | cons {c cs text rest} (h : CharText c text) (hrest : CharsText cs rest) :
      CharsText (c :: cs) (text ++ rest)

/-- A string is characters in double quotes. -/
inductive StringText : String → List Char → Prop
  | quoted {s cs} (h : CharsText s.toList cs) :
      StringText s (Text.doubleQuote :: (cs ++ [Text.doubleQuote]))

/-- The characters up to a double quote, and what is behind it. -/
def characters? : (fuel : Nat) → List Char → Option (List Char × List Char)
  | 0, _ => none
  | fuel + 1, cs =>
    if cs.head? = some Text.doubleQuote then some ([], cs.tail)
    else do
      let (c, cs) ← character? cs
      let (rest, cs) ← characters? fuel cs
      some (c :: rest, cs)

/-- A string at the front of a text. -/
def string? : List Char → Option (String × List Char)
  | [] => none
  | c :: cs =>
    if c = Text.doubleQuote then
      (characters? cs.length cs).map fun (s, rest) => (String.ofList s, rest)
    else none

/-- The text of a character starts with no double quote. -/
theorem CharText.head? {c : Char} {cs : List Char} (h : CharText c cs) :
    ∃ d, cs.head? = some d ∧ d ≠ Text.doubleQuote := by
  cases h with
  | plain hprinted hquote hbackslash => exact ⟨c, rfl, hquote⟩
  | short | unit | pair => exact ⟨Text.backslash, rfl, by decide⟩

theorem characters?_append {s cs : List Char} (h : CharsText s cs) {fuel : Nat}
    (hfuel : cs.length < fuel) (rest : List Char) :
    characters? fuel (cs ++ Text.doubleQuote :: rest) = some (s, rest) := by
  induction h generalizing fuel with
  | nil =>
    obtain ⟨fuel, rfl⟩ := Nat.exists_eq_add_of_lt hfuel
    simp [characters?]
  | @cons c s text cs h hrest ih =>
    obtain ⟨d, hhead, hquote⟩ := h.head?
    obtain ⟨ds, rfl⟩ : ∃ ds, text = d :: ds := List.head?_eq_some_iff.mp hhead
    rw [List.length_append, List.length_cons] at hfuel
    obtain ⟨fuel, rfl⟩ : ∃ n, fuel = n + 1 := ⟨fuel - 1, by omega⟩
    have hcharacter := character?_append h (cs ++ Text.doubleQuote :: rest)
    rw [List.cons_append] at hcharacter
    have hlong : cs.length < fuel := by omega
    simp [characters?, hquote, hcharacter, ih hlong]

theorem string?_append {s : String} {cs : List Char} (h : StringText s cs) (rest : List Char) :
    string? (cs ++ rest) = some (s, rest) := by
  cases h with
  | @quoted body h =>
    have hlong : body.length < (body ++ Text.doubleQuote :: rest).length := by simp
    have hread := characters?_append h hlong rest
    rw [List.cons_append, List.append_assoc, List.singleton_append, string?, if_pos rfl, hread]
    simp

/-! ## The printed string -/

/-- A code point beyond the first 2^16 is that of its pair. -/
theorem pairValue_offset {n : Nat} (hlower : 0x10000 ≤ n) (hupper : n < 0x110000) :
    IsHigh (0xD800 + (n - 0x10000) / 0x400) ∧ IsLow (0xDC00 + (n - 0x10000) % 0x400) ∧
      n = pairValue (0xD800 + (n - 0x10000) / 0x400) (0xDC00 + (n - 0x10000) % 0x400) := by
  unfold IsHigh IsLow pairValue
  omega

theorem toNat_lt (c : Char) : c.toNat < 0x110000 := by
  rcases c.valid with h | ⟨-, h⟩
  · exact Nat.lt_trans h (by decide)
  · exact h

theorem short_text {letter c : Char} (h : (letter, c) ∈ shortEscapes) :
    CharText c [Text.backslash, letter] ∧ ∀ d ∈ [Text.backslash, letter], IsPlain d := by
  have hall : ∀ escape ∈ shortEscapes, IsPlain escape.1 := by decide
  exact ⟨.short h, List.forall_mem_cons.mpr ⟨by decide, List.forall_mem_singleton.mpr (hall _ h)⟩⟩

theorem unitEscape_plain {unit : Nat} (h : unit < 0x10000) : ∀ c ∈ unitEscape unit, IsPlain c := by
  simp only [unitEscape, List.forall_mem_cons]
  exact ⟨by decide, by decide, (hex_text h).plain⟩

theorem pair_text {c : Char} {high low : Nat} (hhigh : IsHigh high) (hlow : IsLow low)
    (hvalue : c.toNat = pairValue high low) :
    CharText c (unitEscape high ++ unitEscape low) ∧
      ∀ d ∈ unitEscape high ++ unitEscape low, IsPlain d := by
  have hfirst := Nat.lt_trans hhigh.2 (show 0xDC00 < 0x10000 by decide)
  have hsecond := Nat.lt_trans hlow.2 (show 0xE000 < 0x10000 by decide)
  exact ⟨.pair (hex_text hfirst) (hex_text hsecond) hhigh hlow hvalue,
    List.forall_mem_append.mpr ⟨unitEscape_plain hfirst, unitEscape_plain hsecond⟩⟩

theorem escape_text (c : Char) : CharText c (escape c) ∧ ∀ d ∈ escape c, IsPlain d := by
  have hcode {n : Nat} (h : c.toNat = n) : c = Char.ofNat n := by
    rw [← h, Char.ofNat_toNat]
  unfold escape
  split
  · next h =>
    rcases Bool.or_eq_true_iff.mp h with h | h <;> obtain rfl := of_decide_eq_true h <;>
      exact short_text (by decide)
  next hquoted =>
  split
  · next h => exact h ▸ short_text (by decide)
  split
  · next h => exact h ▸ short_text (by decide)
  split
  · next h => exact h ▸ short_text (by decide)
  split
  · next h => exact hcode h ▸ short_text (by decide)
  split
  · next h => exact hcode h ▸ short_text (by decide)
  split
  · next h =>
    simp only [Bool.or_eq_true, Bool.and_eq_true, decide_eq_true_eq, not_or] at hquoted h
    exact ⟨.plain h.1 hquoted.1 hquoted.2, List.forall_mem_singleton.mpr h⟩
  split
  · next h => exact ⟨.unit (hex_text h), unitEscape_plain h⟩
  · next h =>
    obtain ⟨hhigh, hlow, hvalue⟩ := pairValue_offset (Nat.not_lt.mp h) (toNat_lt c)
    exact pair_text hhigh hlow hvalue

theorem string_text (s : String) :
    StringText s (stringChars s) ∧ ∀ c ∈ stringChars s, IsPlain c := by
  have hchars (cs : List Char) : CharsText cs (cs.flatMap escape) := by
    induction cs with
    | nil => exact .nil
    | cons c cs ih => exact .cons (escape_text c).1 ih
  refine ⟨.quoted (hchars s.toList), fun d hd => ?_⟩
  rcases List.mem_append.mp hd with hd | hd
  · rcases List.mem_cons.mp hd with rfl | hd
    · decide
    · obtain ⟨c, -, hc⟩ := List.mem_flatMap.mp hd
      exact (escape_text c).2 d hc
  · obtain rfl := List.mem_singleton.mp hd
    decide

end Reckoner.Json
