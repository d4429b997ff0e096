import Mathlib.Data.List.TakeWhile
import Reckoner.Value

/-! Written numbers: a sign, a whole number, and behind it a fraction and a power of
ten where there are any. The spelling says which texts write which number; the reader
takes the longest number at the front of a text, and so gives a spelled number back. -/
namespace Reckoner

/-- A test that holds of all characters of a front, and not of the one behind it, tells
where the front ends. -/
theorem span_append {test : Char → Bool} {front rest : List Char}
    (hfront : ∀ c ∈ front, test c = true) (hrest : ∀ c, rest.head? = some c → test c = false) :
    (front ++ rest).takeWhile test = front ∧ (front ++ rest).dropWhile test = rest := by
  rw [List.takeWhile_append_of_pos hfront, List.dropWhile_append_of_pos hfront]
  cases rest with
  | nil => simp
  | cons c rest => simp [hrest c rfl]

/-- The parts of a written number. The digits are kept, so that their count is. -/
structure Figures where
  negative : Bool
  whole : List Char
  fraction : Option (List Char)
  exponent : Option Int
deriving DecidableEq

namespace Figures

/-! ## Spelling -/

/-- ASCII digits, at least one. -/
def IsDigits (cs : List Char) : Prop :=
  cs ≠ [] ∧ ∀ c ∈ cs, c.isDigit = true

/-- Digits without a needless zero in front. -/
def IsWhole (cs : List Char) : Prop :=
  IsDigits cs ∧ (cs.head? = some '0' → cs = ['0'])

/-- A fraction is a point with digits. -/
inductive FractionText : Option (List Char) → List Char → Prop
  | absent : FractionText none []
  | present {ds} (h : IsDigits ds) : FractionText (some ds) ('.' :: ds)

/-- A sign that may be left out. -/
inductive SignText : Bool → List Char → Prop
  | absent : SignText false []
  | plus : SignText false ['+']
  | minus : SignText true ['-']

/-- The whole number of this sign and magnitude. -/
def signed (negative : Bool) (n : Nat) : Int :=
  if negative then -n else n

theorem signed_natAbs (n : Int) : signed (n < 0) n.natAbs = n := by
  by_cases hneg : n < 0
  · rw [decide_eq_true hneg, signed, if_pos rfl, Int.ofNat_natAbs_of_nonpos (by omega), Int.neg_neg]
  · rw [decide_eq_false hneg, signed, if_neg (by simp), Int.natAbs_of_nonneg (by omega)]

/-- A power of ten is a letter, a sign and digits. -/
inductive ExponentText : Option Int → List Char → Prop
  | absent : ExponentText none []
  | present {mark negative sign ds} (hmark : mark = 'e' ∨ mark = 'E')
      (hsign : SignText negative sign) (hds : IsDigits ds) :
      ExponentText (some (signed negative (Nat.ofDigitChars 10 ds 0))) (mark :: (sign ++ ds))

/-- The text writes these figures. -/
inductive Spells : Figures → List Char → Prop
  | parts {negative whole fraction exponent fs es} (hwhole : IsWhole whole)
      (hfraction : FractionText fraction fs) (hexponent : ExponentText exponent es) :
      Spells ⟨negative, whole, fraction, exponent⟩
        (Binary64.signChars negative ++ (whole ++ (fs ++ es)))

/-! ## The number that is written -/

/-- The magnitude, as a decimal. -/
def decimal (n : Figures) : Decimal :=
  let fraction := n.fraction.getD []
  ⟨Nat.ofDigitChars 10 (n.whole ++ fraction) 0, n.exponent.getD 0 - fraction.length⟩

/-- An integer if nothing is behind the whole number, else the nearest float. -/
def value (n : Figures) : Value :=
  if n.fraction = none ∧ n.exponent = none then
    .int (signed n.negative (Nat.ofDigitChars 10 n.whole 0))
  else .float (Binary64.ofRank n.negative n.decimal.rank)

/-! ## Reading -/

/-- The digits at the front, at least one, and what is behind them. -/
def digits? (cs : List Char) : Option (List Char × List Char) :=
  let ds := cs.takeWhile Char.isDigit
  if ds = [] then none else some (ds, cs.dropWhile Char.isDigit)

/-- A fraction at the front, if there is one. -/
def fraction? : List Char → Option (Option (List Char) × List Char)
  | [] => some (none, [])
  | c :: cs =>
    if c = '.' then (digits? cs).map fun (ds, rest) => (some ds, rest)
    else some (none, c :: cs)

/-- Whether a minus is at the front, and what is behind it. -/
def minus (cs : List Char) : Bool × List Char :=
  if cs.head? = some '-' then (true, cs.tail) else (false, cs)

/-- A sign of either kind at the front, and what is behind it. -/
def sign (cs : List Char) : Bool × List Char :=
  if cs.head? = some '+' then (false, cs.tail) else minus cs

/-- A power of ten at the front, if there is one. -/
def exponent? : List Char → Option (Option Int × List Char)
  | [] => some (none, [])
  | c :: cs =>
    if c = 'e' ∨ c = 'E' then
      (digits? (sign cs).2).map fun (ds, rest) =>
        (some (signed (sign cs).1 (Nat.ofDigitChars 10 ds 0)), rest)
    else some (none, c :: cs)

/-- The longest number at the front of a text, and what is behind it. -/
def read? (cs : List Char) : Option (Figures × List Char) := do
  let (negative, cs) := minus cs
  let (whole, cs) ← digits? cs
  if whole.head? = some '0' ∧ whole ≠ ['0'] then none
  else
    let (fraction, cs) ← fraction? cs
    let (exponent, cs) ← exponent? cs
    some (⟨negative, whole, fraction, exponent⟩, cs)

/-- The characters that could make a number in front of them a longer one. -/
def lengthens (c : Char) : Bool :=
  c.isDigit || c = '.' || c = 'e' || c = 'E'

/-- A number in front of this text ends there. -/
def Ends (rest : List Char) : Prop :=
  ∀ c, rest.head? = some c → lengthens c = false

theorem ends_nil : Ends [] := by
  intro c hc
  cases hc

theorem digits?_append {ds rest : List Char} (hds : IsDigits ds)
    (hrest : ∀ c, rest.head? = some c → c.isDigit = false) :
    digits? (ds ++ rest) = some (ds, rest) := by
  obtain ⟨hfront, hback⟩ := span_append hds.2 hrest
  simp [digits?, hfront, hback, hds.1]

theorem IsDigits.head? {ds : List Char} (h : IsDigits ds) :
    ∃ c, ds.head? = some c ∧ c.isDigit = true := by
  obtain ⟨hne, hdigits⟩ := h
  cases ds with
  | nil => contradiction
  | cons c ds => exact ⟨c, rfl, hdigits c (by simp)⟩

theorem isDigit_replicate_zero (k : Nat) : ∀ c ∈ List.replicate k '0', c.isDigit = true := by
  intro c hc
  rw [List.eq_of_mem_replicate hc]
  decide

theorem IsDigits.zeros {ds : List Char} (h : IsDigits ds) (k : Nat) :
    IsDigits (List.replicate k '0' ++ ds) := by
  exact ⟨by simp [h.1], List.forall_mem_append.mpr ⟨isDigit_replicate_zero k, h.2⟩⟩

theorem IsDigits.head?_ne {ds : List Char} (h : IsDigits ds) {c : Char}
    (hc : c.isDigit = false) (rest : List Char) : (ds ++ rest).head? ≠ some c := by
  obtain ⟨d, hhead, hdigit⟩ := h.head?
  rw [List.head?_append, hhead]
  rintro heq
  cases heq
  rw [hc] at hdigit
  contradiction

theorem minus_append (negative : Bool) {ds : List Char} (hds : IsDigits ds) (rest : List Char) :
    minus (Binary64.signChars negative ++ (ds ++ rest)) = (negative, ds ++ rest) := by
  cases negative with
  | false => exact if_neg (hds.head?_ne (by decide) rest)
  | true => rfl

theorem sign_append {negative : Bool} {sign : List Char} (h : SignText negative sign)
    {ds : List Char} (hds : IsDigits ds) (rest : List Char) :
    Figures.sign (sign ++ (ds ++ rest)) = (negative, ds ++ rest) := by
  cases h with
  | absent =>
    exact (if_neg (hds.head?_ne (by decide) rest)).trans (minus_append false hds rest)
  | plus => rfl
  | minus => rfl

theorem exponent?_append {exponent : Option Int} {es rest : List Char}
    (h : ExponentText exponent es) (hrest : Ends rest) :
    exponent? (es ++ rest) = some (exponent, rest) := by
  have hdigit : ∀ c, rest.head? = some c → c.isDigit = false := fun c hc => by
    have := hrest c hc
    simp_all [lengthens]
  cases h with
  | absent =>
    cases rest with
    | nil => rfl
    | cons c rest =>
      have := hrest c rfl
      simp_all [exponent?, lengthens]
  | present hmark hsign hds =>
    simp [exponent?, hmark, sign_append hsign hds, digits?_append hds hdigit]

/-- The head of a power of ten, or of what comes next. -/
theorem ExponentText.head?_append {exponent : Option Int} {es rest : List Char}
    (h : ExponentText exponent es) (hrest : Ends rest) {c : Char}
    (hc : (es ++ rest).head? = some c) : c.isDigit = false ∧ c ≠ '.' := by
  cases h with
  | absent =>
    have := hrest c hc
    simp_all [lengthens]
  | present hmark =>
    cases hc
    rcases hmark with rfl | rfl <;> decide

theorem fraction?_append {fraction : Option (List Char)} {fs rest : List Char}
    (h : FractionText fraction fs)
    (hrest : ∀ c, rest.head? = some c → c.isDigit = false ∧ c ≠ '.') :
    fraction? (fs ++ rest) = some (fraction, rest) := by
  cases h with
  | absent =>
    cases rest with
    | nil => rfl
    | cons c rest => simp [fraction?, (hrest c rfl).2]
  | present hds => simp [fraction?, digits?_append hds fun c hc => (hrest c hc).1]

/-- A spelled number is read back, up to where it ends. -/
theorem read?_append {n : Figures} {cs rest : List Char} (h : Spells n cs) (hrest : Ends rest) :
    read? (cs ++ rest) = some (n, rest) := by
  obtain @⟨negative, whole, fraction, exponent, fs, es, hwhole, hfraction, hexponent⟩ := h
  have hes : ∀ c, (es ++ rest).head? = some c → c.isDigit = false ∧ c ≠ '.' :=
    fun _ hc => hexponent.head?_append hrest hc
  have hfs : ∀ c, (fs ++ (es ++ rest)).head? = some c → c.isDigit = false := by
    intro c hc
    cases hfraction with
    | absent => exact (hes c hc).1
    | present =>
      cases hc
      decide
  have hzero : ¬ (whole.head? = some '0' ∧ whole ≠ ['0']) := fun h => h.2 (hwhole.2 h.1)
  simp only [List.append_assoc]
  simp [read?, minus_append negative hwhole.1, digits?_append hwhole.1 hfs, hzero,
    fraction?_append hfraction hes, exponent?_append hexponent hrest]

/-! ## The characters of a number -/

/-- The characters that numbers are made of. -/
def isFigure (c : Char) : Bool :=
  c.isDigit || c = '-' || c = '+' || c = '.' || c = 'e' || c = 'E'

theorem IsDigits.isFigure {ds : List Char} (h : IsDigits ds) : ∀ c ∈ ds, isFigure c = true := by
  intro c hc
  simp [Figures.isFigure, h.2 c hc]

/-- A number is made of nothing else. -/
theorem Spells.isFigure {n : Figures} {cs : List Char} (h : Spells n cs) :
    ∀ c ∈ cs, isFigure c = true := by
  obtain @⟨negative, whole, fraction, exponent, fs, es, hwhole, hfraction, hexponent⟩ := h
  have hsign : ∀ c ∈ Binary64.signChars negative, Figures.isFigure c = true := by
    cases negative <;> simp [Binary64.signChars, Figures.isFigure]
  have hfs : ∀ c ∈ fs, Figures.isFigure c = true := by
    cases hfraction with
    | absent => simp
    | present h => exact List.forall_mem_cons.mpr ⟨by decide, h.isFigure⟩
  have hes : ∀ c ∈ es, Figures.isFigure c = true := by
    cases hexponent with
    | absent => simp
    | present hmark hsign hds =>
      refine List.forall_mem_cons.mpr ⟨?_, List.forall_mem_append.mpr ⟨?_, hds.isFigure⟩⟩
      · rcases hmark with rfl | rfl <;> decide
      · cases hsign <;> simp [Figures.isFigure]
  simp only [List.forall_mem_append]
  exact ⟨hsign, hwhole.1.isFigure, hfs, hes⟩

/-- The first character is a digit, or a minus in front of one. -/
theorem Spells.exists_head {n : Figures} {cs : List Char} (h : Spells n cs) :
    (∃ c rest, cs = c :: rest ∧ c.isDigit = true) ∨
      ∃ c rest, cs = '-' :: c :: rest ∧ c.isDigit = true := by
  obtain @⟨negative, whole, fraction, exponent, fs, es, hwhole, -, -⟩ := h
  obtain ⟨c, hhead, hdigit⟩ := hwhole.1.head?
  obtain ⟨ds, rfl⟩ := List.head?_eq_some_iff.mp hhead
  cases negative with
  | false => exact .inl ⟨c, _, rfl, hdigit⟩
  | true => exact .inr ⟨c, _, rfl, hdigit⟩

/-! ## The digits of a natural number -/

theorem isDigits_toDigits (n : Nat) : IsDigits (Nat.toDigits 10 n) :=
  ⟨Nat.toDigits_ne_nil, fun _ hc => Nat.isDigit_of_mem_toDigits (by decide) (by decide) hc⟩

/-- The first digit of a number is not zero unless the number is. -/
theorem head?_toDigits_ne {n : Nat} (h : n ≠ 0) : (Nat.toDigits 10 n).head? ≠ some '0' := by
  induction n using Nat.strong_induction_on with
  | _ n ih =>
    by_cases hlt : n < 10
    · rw [Nat.toDigits_of_lt_base hlt]
      simpa using h
    · have hquotient := ih (n / 10) (by omega) (by omega)
      rw [Nat.toDigits_of_base_le (by decide) (by omega), List.head?_append]
      obtain ⟨c, hc, -⟩ := (isDigits_toDigits (n / 10)).head?
      rw [hc] at hquotient ⊢
      exact hquotient

theorem isWhole_digit {c : Char} (h : c.isDigit = true) : IsWhole [c] :=
  ⟨⟨by simp, List.forall_mem_singleton.mpr h⟩, fun hhead => congrArg (· :: []) (Option.some.inj hhead)⟩

theorem isWhole_toDigits (n : Nat) : IsWhole (Nat.toDigits 10 n) := by
  refine ⟨isDigits_toDigits n, fun hhead => ?_⟩
  by_cases hzero : n = 0
  · rw [hzero, Nat.toDigits_zero]
  · exact absurd hhead (head?_toDigits_ne hzero)

/-- Zeros in front of a number do not change it. -/
theorem ofDigitChars_zeros (k n : Nat) :
    Nat.ofDigitChars 10 (List.replicate k '0' ++ Nat.toDigits 10 n) 0 = n := by
  rw [Nat.ofDigitChars_append, Nat.ofDigitChars_replicate_zero, Nat.mul_zero,
    Nat.ofDigitChars_ten_toDigits]

end Figures

end Reckoner
