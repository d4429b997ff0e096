import Reckoner.Node.Document
import Reckoner.Proofs.Decimal.Figures
import Reckoner.Proofs.Json.Strings

/-! The texts of documents, and a reader for them. A text may have blanks between its
words wherever the format allows them, and its strings and numbers any spelling. The
reader reads every text of a document as that document, so no text is one of two. -/
namespace Reckoner.Json

/-! ## Spelling -/

/-- The characters that may stand between words. -/
def isBlank (c : Char) : Bool :=
  c = ' ' || c = '\t' || c = '\n' || c = '\r'

/-- Any number of blanks. -/
def IsGap (cs : List Char) : Prop :=
  ∀ c ∈ cs, isBlank c = true

theorem isGap_nil : IsGap [] :=
  List.forall_mem_nil _

/-- One or more of what is spelled by `one`, with commas between them. -/
inductive Sequence {α : Type} (one : α → List Char → Prop) : List α → List Char → Prop
  | last {a before cs after} (hbefore : IsGap before) (h : one a cs) (hafter : IsGap after) :
      Sequence one [a] (before ++ (cs ++ after))
  | more {a as before cs after rest} (hbefore : IsGap before) (h : one a cs)
      (hafter : IsGap after) (hrest : Sequence one as rest) :
      Sequence one (a :: as) (before ++ (cs ++ (after ++ ',' :: rest)))

/-- A field: its name, a colon, and its value as spelled by `one`. -/
inductive Field (one : Json → List Char → Prop) : String × Json → List Char → Prop
  | intro {key d ks before after cs} (hkey : StringText key ks) (hbefore : IsGap before)
      (hafter : IsGap after) (h : one d cs) :
      Field one (key, d) (ks ++ (before ++ ':' :: (after ++ cs)))

/-- The documents that are words: nothing, and the numbers without figures. -/
def words : List (List Char × Json) :=
  [("null".toList, .null), ("NaN".toList, .float .nan),
    ("Infinity".toList, .float (.infinite false)), ("-Infinity".toList, .float (.infinite true))]

/-- The text is one of the document, without gaps around it. -/
inductive Spells : Json → List Char → Prop
  | word {cs d} (h : (cs, d) ∈ words) : Spells d cs
  | number {n cs} (h : Figures.Spells n cs) : Spells n.value.document cs
  | string {s cs} (h : StringText s cs) : Spells (.string s) cs
  | noItems {gap} (h : IsGap gap) : Spells (.array []) ('[' :: (gap ++ [']']))
  | items {items cs} (h : Sequence Spells items cs) :
      Spells (.array items) ('[' :: (cs ++ [']']))
  | noFields {gap} (h : IsGap gap) : Spells (.object []) ('\x7b' :: (gap ++ ['\x7d']))
  | fields {fields cs} (h : Sequence (Field Spells) fields cs) :
      Spells (.object fields) ('\x7b' :: (cs ++ ['\x7d']))

/-! ## Reading -/

/-- The text without the blanks at its front. -/
def skipGap (cs : List Char) : List Char :=
  cs.dropWhile isBlank

/-- Things with commas between them, and the closing bracket. -/
def sequence? {α : Type} (one? : List Char → Option (α × List Char)) (close : Char) :
    (fuel : Nat) → List Char → Option (List α × List Char)
  | 0, _ => none
  | fuel + 1, cs => do
    let (a, cs) ← one? (skipGap cs)
    let cs := skipGap cs
    if cs.head? = some close then some ([a], cs.tail)
    else if cs.head? = some ',' then do
      let (as, cs) ← sequence? one? close fuel cs.tail
      some (a :: as, cs)
    else none

/-- All things up to the closing bracket, none of them if it comes next. -/
def sequenceOrNone? {α : Type} (one? : List Char → Option (α × List Char)) (close : Char)
    (cs : List Char) : Option (List α × List Char) :=
  if (skipGap cs).head? = some close then some ([], (skipGap cs).tail)
  else sequence? one? close cs.length cs

/-- A field at the front of a text. -/
def field? (one? : List Char → Option (Json × List Char)) (cs : List Char) :
    Option ((String × Json) × List Char) := do
  let (key, cs) ← string? cs
  let cs := skipGap cs
  if cs.head? = some ':' then do
    let (d, cs) ← one? (skipGap cs.tail)
    some ((key, d), cs)
  else none

/-- A word at the front of a text. -/
def word? (cs : List Char) : Option (Json × List Char) :=
  (words.find? fun word => word.1.isPrefixOf cs).map fun word =>
    (word.2, cs.drop word.1.length)

/-- A word or a number at the front of a text. -/
def simple? (cs : List Char) : Option (Json × List Char) :=
  match word? cs with
  | some result => some result
  | none => (Figures.read? cs).map fun (n, rest) => (n.value.document, rest)

/-- A document at the front of a text, of which no more than `fuel` contain each other. -/
def value? : (fuel : Nat) → List Char → Option (Json × List Char)
  | 0, _ => none
  | fuel + 1, cs =>
    if cs.head? = some '[' then
      (sequenceOrNone? (value? fuel) ']' cs.tail).map fun (items, rest) =>
        (.array items, rest)
    else if cs.head? = some '\x7b' then
      (sequenceOrNone? (field? (value? fuel)) '\x7d' cs.tail).map fun (fields, rest) =>
        (.object fields, rest)
    else if cs.head? = some Text.doubleQuote then
      (string? cs).map fun (s, rest) => (.string s, rest)
    else simple? cs

/-- The document that a whole text writes. -/
def read? (text : String) : Option Json := do
  let (d, rest) ← value? text.length (skipGap text.toList)
  if skipGap rest = [] then some d else none

/-! ## Gaps -/

theorem skipGap_append {gap rest : List Char} (hgap : IsGap gap)
    (hrest : ∀ c, rest.head? = some c → isBlank c = false) : skipGap (gap ++ rest) = rest :=
  (span_append hgap hrest).2

theorem lengthens_of_isBlank {c : Char} (h : isBlank c = true) : Figures.lengthens c = false := by
  simp only [isBlank, Bool.or_eq_true, decide_eq_true_eq] at h
  rcases h with ((rfl | rfl) | rfl) | rfl <;> decide

theorem ends_append {gap rest : List Char} (hgap : IsGap gap) (hrest : Figures.Ends rest) :
    Figures.Ends (gap ++ rest) := by
  intro c hc
  cases gap with
  | nil => exact hrest c hc
  | cons b gap =>
    cases hc
    exact lengthens_of_isBlank (hgap c (by simp))

/-! ## Sequences -/

section

variable {α : Type} (one : α → List Char → Prop) (one? : List Char → Option (α × List Char))

/-- No text starts with a blank or with the closing bracket. -/
def Starts (close : Char) : Prop :=
  ∀ a cs, one a cs → ∃ c rest, cs = c :: rest ∧ isBlank c = false ∧ c ≠ close

/-- The reader reads every text up to this length. -/
def Reads (bound : Nat) : Prop :=
  ∀ a cs rest, one a cs → cs.length ≤ bound → Figures.Ends rest →
    one? (cs ++ rest) = some (a, rest)

/-- A character that ends what is in front of it. -/
def IsStop (c : Char) : Prop :=
  isBlank c = false ∧ Figures.lengthens c = false

variable {one one?} {close : Char} {bound : Nat} (hstarts : Starts one close)

include hstarts in
theorem skipGap_text {a : α} {before cs : List Char} (hbefore : IsGap before) (h : one a cs)
    (rest : List Char) : skipGap (before ++ (cs ++ rest)) = cs ++ rest := by
  obtain ⟨c, cs, rfl, hblank, -⟩ := hstarts a cs h
  refine skipGap_append hbefore fun d hd => ?_
  cases hd
  exact hblank

theorem skipGap_stop {gap : List Char} (hgap : IsGap gap) {c : Char} (hc : IsStop c)
    (rest : List Char) : skipGap (gap ++ c :: rest) = c :: rest := by
  refine skipGap_append hgap fun d hd => ?_
  cases hd
  exact hc.1

theorem ends_stop {gap : List Char} (hgap : IsGap gap) {c : Char} (hc : IsStop c)
    (rest : List Char) : Figures.Ends (gap ++ c :: rest) := by
  refine ends_append hgap fun d hd => ?_
  cases hd
  exact hc.2

include hstarts in
theorem sequence?_append (hreads : Reads one one? bound) (hclose : IsStop close)
    (hcomma : close ≠ ',') {as : List α} {cs : List Char} (h : Sequence one as cs)
    (hbound : cs.length ≤ bound) {fuel : Nat} (hfuel : cs.length < fuel) (rest : List Char) :
    sequence? one? close fuel (cs ++ close :: rest) = some (as, rest) := by
  induction h generalizing fuel with
  | @last a before cs after hbefore h hafter =>
    simp only [List.length_append] at hbound
    obtain ⟨fuel, rfl⟩ := Nat.exists_eq_add_of_lt hfuel
    have hone := hreads a cs _ h (by omega) (ends_stop hafter hclose rest)
    simp [sequence?, skipGap_text hstarts hbefore h, hone, skipGap_stop hafter hclose]
  | @more a as before cs after others hbefore h hafter hrest ih =>
    simp only [List.length_append, List.length_cons] at hbound hfuel
    obtain ⟨fuel, rfl⟩ : ∃ n, fuel = n + 1 := ⟨fuel - 1, by omega⟩
    have hstop : IsStop ',' := ⟨by decide, by decide⟩
    have hone := hreads a cs _ h (by omega) (ends_stop hafter hstop (others ++ close :: rest))
    have hlong : others.length < fuel := by omega
    have hothers := ih (by omega) hlong
    simp [sequence?, skipGap_text hstarts hbefore h, hone, skipGap_stop hafter hstop, hcomma.symm,
      hothers]

include hstarts in
theorem sequenceOrNone?_append (hreads : Reads one one? bound) (hclose : IsStop close)
    (hcomma : close ≠ ',') {as : List α} {cs : List Char} (h : Sequence one as cs)
    (hbound : cs.length ≤ bound) (rest : List Char) :
    sequenceOrNone? one? close (cs ++ close :: rest) = some (as, rest) := by
  have hfirst : (skipGap (cs ++ close :: rest)).head? ≠ some close := by
    have hhead {a : α} {before text : List Char} (hbefore : IsGap before) (h : one a text)
        (rest : List Char) : (skipGap (before ++ (text ++ rest))).head? ≠ some close := by
      rw [skipGap_text hstarts hbefore h]
      obtain ⟨c, text, rfl, -, hne⟩ := hstarts a text h
      exact fun heq => hne (Option.some.inj heq)
    cases h with
    | last hbefore h hafter =>
      rw [List.append_assoc, List.append_assoc]
      exact hhead hbefore h _
    | more hbefore h hafter hrest =>
      rw [List.append_assoc, List.append_assoc]
      exact hhead hbefore h _
  rw [sequenceOrNone?, if_neg hfirst]
  exact sequence?_append hstarts hreads hclose hcomma h hbound (by simp) rest

theorem sequenceOrNone?_gap {gap : List Char} (hgap : IsGap gap) (hclose : IsStop close)
    (rest : List Char) :
    sequenceOrNone? one? close (gap ++ close :: rest) = some ([], rest) := by
  rw [sequenceOrNone?, skipGap_stop hgap hclose]
  exact if_pos rfl

end

/-! ## Documents -/

theorem StringText.exists_head {s : String} {cs : List Char} (h : StringText s cs) :
    ∃ rest, cs = Text.doubleQuote :: rest := by
  cases h with
  | quoted => exact ⟨_, rfl⟩

/-- The first character of a word or a number is none of those that start other documents. -/
theorem head_of_simple {cs : List Char} (h : (∃ d, (cs, d) ∈ words) ∨ ∃ n, Figures.Spells n cs) :
    ∃ c rest, cs = c :: rest ∧ isBlank c = false ∧
      c ∉ ['[', ']', '\x7b', '\x7d', Text.doubleQuote] := by
  have hdigit {c : Char} (h : c.isDigit = true) :
      isBlank c = false ∧ c ∉ ['[', ']', '\x7b', '\x7d', Text.doubleQuote] := by
    constructor
    · simp only [isBlank, Bool.or_eq_false_iff, decide_eq_false_iff_not]
      refine ⟨⟨⟨?_, ?_⟩, ?_⟩, ?_⟩ <;> rintro rfl <;> contradiction
    · simp only [List.mem_cons, List.not_mem_nil, or_false, not_or]
      refine ⟨?_, ?_, ?_, ?_, ?_⟩ <;> rintro rfl <;> contradiction
  rcases h with ⟨d, h⟩ | ⟨n, h⟩
  · have hall : ∀ word ∈ words, ∃ c rest, word.1 = c :: rest ∧ isBlank c = false ∧
        c ∉ ['[', ']', '\x7b', '\x7d', Text.doubleQuote] := by
      simp only [words, List.forall_mem_cons]
      exact ⟨⟨_, _, rfl, by decide⟩, ⟨_, _, rfl, by decide⟩, ⟨_, _, rfl, by decide⟩,
        ⟨_, _, rfl, by decide⟩, by simp⟩
    exact hall _ h
  · rcases h.exists_head with ⟨c, rest, rfl, hc⟩ | ⟨c, rest, rfl, -⟩
    · exact ⟨c, rest, rfl, hdigit hc⟩
    · exact ⟨_, _, rfl, by decide⟩

theorem word?_append {cs : List Char} {d : Json} (h : (cs, d) ∈ words) (rest : List Char) :
    word? (cs ++ rest) = some (d, rest) := by
  simp only [words, List.mem_cons, Prod.mk.injEq, List.not_mem_nil, or_false] at h
  rcases h with ⟨rfl, rfl⟩ | ⟨rfl, rfl⟩ | ⟨rfl, rfl⟩ | ⟨rfl, rfl⟩ <;> rfl

/-- A number is not taken for a word. -/
theorem word?_number {n : Figures} {cs : List Char} (h : Figures.Spells n cs) (rest : List Char) :
    word? (cs ++ rest) = none := by
  have hletter {c : Char} (h : c.isDigit = true) : 'n' ≠ c ∧ 'N' ≠ c ∧ 'I' ≠ c ∧ '-' ≠ c := by
    refine ⟨?_, ?_, ?_, ?_⟩ <;> rintro rfl <;> contradiction
  rcases h.exists_head with ⟨c, cs, rfl, hc⟩ | ⟨c, cs, rfl, hc⟩
  · simp [word?, words, hletter hc]
  · simp [word?, words, hletter hc]

theorem simple?_word {cs : List Char} {d : Json} (h : (cs, d) ∈ words) (rest : List Char) :
    simple? (cs ++ rest) = some (d, rest) := by
  rw [simple?, word?_append h]

theorem simple?_number {n : Figures} {cs rest : List Char} (h : Figures.Spells n cs)
    (hrest : Figures.Ends rest) : simple? (cs ++ rest) = some (n.value.document, rest) := by
  rw [simple?, word?_number h, Figures.read?_append h hrest]
  rfl

theorem value?_simple {cs : List Char}
    (h : (∃ d, (cs, d) ∈ words) ∨ ∃ n, Figures.Spells n cs) (fuel : Nat) (rest : List Char) :
    value? (fuel + 1) (cs ++ rest) = simple? (cs ++ rest) := by
  obtain ⟨c, cs, rfl, -, hc⟩ := head_of_simple h
  simp only [List.mem_cons, not_or] at hc
  simp [value?, hc]

theorem spells_starts : Starts Spells ']' := by
  intro d cs h
  have hsimple {cs : List Char} (h : (∃ d, (cs, d) ∈ words) ∨ ∃ n, Figures.Spells n cs) :
      ∃ c rest, cs = c :: rest ∧ isBlank c = false ∧ c ≠ ']' := by
    obtain ⟨c, rest, rfl, hblank, hc⟩ := head_of_simple h
    simp only [List.mem_cons, not_or] at hc
    exact ⟨c, rest, rfl, hblank, hc.2.1⟩
  cases h with
  | word h => exact hsimple (.inl ⟨d, h⟩)
  | number h => exact hsimple (.inr ⟨_, h⟩)
  | string h =>
    obtain ⟨rest, rfl⟩ := h.exists_head
    exact ⟨_, rest, rfl, by decide⟩
  | noItems | items | noFields | fields => exact ⟨_, _, rfl, by decide⟩

theorem field_starts (one : Json → List Char → Prop) : Starts (Field one) '\x7d' := by
  rintro field text @⟨key, d, ks, before, after, cs, hkey, -, -, -⟩
  obtain ⟨rest, rfl⟩ := hkey.exists_head
  exact ⟨_, _, rfl, by decide⟩

theorem field?_append {one : Json → List Char → Prop}
    {one? : List Char → Option (Json × List Char)} {bound : Nat} (hstarts : Starts one ']')
    (hreads : Reads one one? bound) : Reads (Field one) (field? one?) bound := by
  rintro field text rest @⟨key, d, ks, before, after, cs, hkey, hbefore, hafter, h⟩ hbound hrest
  simp only [List.length_append, List.length_cons] at hbound
  have hstop : IsStop ':' := ⟨by decide, by decide⟩
  have hone := hreads d cs rest h (by omega) hrest
  simp [field?, string?_append hkey, skipGap_stop hbefore hstop, skipGap_text hstarts hafter h, hone]

theorem value?_append (fuel : Nat) : Reads Spells (value? fuel) fuel := by
  induction fuel with
  | zero =>
    intro d text rest h hbound
    obtain ⟨c, text, rfl, -⟩ := spells_starts d text h
    cases hbound
  | succ fuel ih =>
    intro d text rest h hbound hrest
    have hbracket : IsStop ']' := ⟨by decide, by decide⟩
    have hbrace : IsStop '\x7d' := ⟨by decide, by decide⟩
    cases h with
    | word h => rw [value?_simple (.inl ⟨d, h⟩), simple?_word h]
    | number h => rw [value?_simple (.inr ⟨_, h⟩), simple?_number h hrest]
    | string h =>
      have hstring := string?_append h rest
      obtain ⟨cs, rfl⟩ := h.exists_head
      rw [List.cons_append] at hstring ⊢
      have hother : Text.doubleQuote ≠ '[' ∧ Text.doubleQuote ≠ '\x7b' := by decide
      simp [value?, hother, hstring]
    | noItems hgap =>
      simp [value?, sequenceOrNone?_gap hgap hbracket]
    | items h =>
      simp only [List.length_append, List.length_cons, List.length_nil] at hbound
      have hitems := sequenceOrNone?_append spells_starts ih hbracket (by decide) h (by omega) rest
      simp [value?, hitems]
    | noFields hgap =>
      simp [value?, sequenceOrNone?_gap hgap hbrace]
    | fields h =>
      simp only [List.length_append, List.length_cons, List.length_nil] at hbound
      have hfields := sequenceOrNone?_append (field_starts Spells) (field?_append spells_starts ih)
        hbrace (by decide) h (by omega) rest
      simp [value?, hfields]

/-- The text is one of the document, with gaps around it. -/
def IsText (text : String) (d : Json) : Prop :=
  ∃ before cs after, IsGap before ∧ Spells d cs ∧ IsGap after ∧
    text.toList = before ++ (cs ++ after)

/-- Every text of a document is read as it. -/
theorem IsText.read? {text : String} {d : Json} (h : IsText text d) : Json.read? text = some d := by
  obtain ⟨before, cs, after, hbefore, h, hafter, htext⟩ := h
  have hlength : cs.length ≤ text.length := by
    rw [← String.length_toList, htext]
    simp only [List.length_append]
    omega
  have hend : skipGap after = [] := by
    rw [skipGap, List.dropWhile_eq_nil_iff]
    exact hafter
  have hends : Figures.Ends after := by
    have := ends_append hafter Figures.ends_nil
    rwa [List.append_nil] at this
  have hvalue := value?_append text.length d cs after h hlength hends
  simp [Json.read?, htext, skipGap_text spells_starts hbefore h, hvalue, hend]

/-- No text is one of two documents. -/
theorem IsText.unique {text : String} {d e : Json} (hd : IsText text d) (he : IsText text e) :
    d = e := by
  have hread := hd.read?
  rw [he.read?] at hread
  exact (Option.some.inj hread).symm

end Reckoner.Json
