import Reckoner.Proofs.Json.Reading
import Reckoner.Proofs.Value.Text

/-! The printed text of a document is one of its texts, whatever the document, and so it
is read back. It is made of printed ASCII characters and ends of lines. -/
namespace Reckoner.Json

/-- Nothing but printed ASCII characters and ends of lines. -/
def IsPrinted (cs : List Char) : Prop :=
  ∀ c ∈ cs, c = '\n' ∨ IsPlain c

theorem IsPrinted.of_plain {cs : List Char} (h : ∀ c ∈ cs, IsPlain c) : IsPrinted cs :=
  fun c hc => .inr (h c hc)

theorem IsPrinted.append {cs ds : List Char} (hcs : IsPrinted cs) (hds : IsPrinted ds) :
    IsPrinted (cs ++ ds) :=
  List.forall_mem_append.mpr ⟨hcs, hds⟩

theorem IsPrinted.cons {c : Char} {cs : List Char} (hc : IsPlain c) (hcs : IsPrinted cs) :
    IsPrinted (c :: cs) :=
  List.forall_mem_cons.mpr ⟨.inr hc, hcs⟩

/-! ## Numbers -/

theorem isPlain_of_isFigure {c : Char} (h : Figures.isFigure c = true) : IsPlain c := by
  simp only [Figures.isFigure, Bool.or_eq_true, decide_eq_true_eq] at h
  rcases h with ((((h | rfl) | rfl) | rfl) | rfl) | rfl
  · exact isPlain_of_isDigit h
  all_goals decide

theorem figures_text {n : Figures} {cs : List Char} (h : Figures.Spells n cs) :
    Spells n.value.document cs ∧ IsPrinted cs :=
  ⟨.number h, .of_plain fun c hc => isPlain_of_isFigure (h.isFigure c hc)⟩

theorem word_text {cs : List Char} {d : Json} (h : (cs, d) ∈ words) :
    Spells d cs ∧ IsPrinted cs := by
  have hall : ∀ word ∈ words, ∀ c ∈ word.1, IsPlain c := by
    simp [words, IsPlain]
  exact ⟨.word h, .of_plain (hall _ h)⟩

theorem intChars_text (n : Int) :
    Spells (.int n) (Value.intChars n) ∧ IsPrinted (Value.intChars n) := by
  obtain ⟨f, hspells, hvalue⟩ := Value.int_spelled n
  have htext := figures_text hspells
  rwa [hvalue] at htext

theorem floatChars_text (x : Binary64) :
    Spells (.float x) (floatChars x) ∧ IsPrinted (floatChars x) := by
  cases x with
  | nan => exact word_text (by simp [words, floatChars])
  | infinite negative =>
    cases negative <;> exact word_text (by simp [words, floatChars, Binary64.signChars])
  | finite negative rank =>
    obtain ⟨f, hspells, hvalue⟩ := Binary64.finite_spelled negative rank
    have htext := figures_text hspells
    rwa [hvalue] at htext

/-! ## Lines -/

theorem lineStart_gap (depth : Nat) : IsGap (lineStart depth) := by
  refine List.forall_mem_cons.mpr ⟨by decide, fun c hc => ?_⟩
  rw [List.eq_of_mem_replicate hc]
  decide

theorem lineStart_printed (depth : Nat) : IsPrinted (lineStart depth) := by
  refine List.forall_mem_cons.mpr ⟨.inl rfl, fun c hc => .inr ?_⟩
  rw [List.eq_of_mem_replicate hc]
  decide

/-- A sequence on lines of its own, to which a last gap may be added. -/
def IsLines {α : Type} (one : α → List Char → Prop) (as : List α) (cs : List Char) : Prop :=
  (∀ gap, IsGap gap → Sequence one as (cs ++ gap)) ∧ IsPrinted cs

section

variable {α : Type} {one : α → List Char → Prop} {a : α} {cs : List Char} (depth : Nat)
  (h : one a cs) (hprinted : IsPrinted cs)

include h hprinted

theorem isLines_last : IsLines one [a] (lineStart depth ++ cs) := by
  refine ⟨fun gap hgap => ?_, (lineStart_printed depth).append hprinted⟩
  rw [List.append_assoc]
  exact .last (lineStart_gap depth) h hgap

theorem isLines_more {as : List α} {rest : List Char} (hrest : IsLines one as rest) :
    IsLines one (a :: as) (lineStart depth ++ cs ++ ',' :: rest) := by
  refine ⟨fun gap hgap => ?_,
    ((lineStart_printed depth).append hprinted).append (.cons (by decide) hrest.2)⟩
  rw [List.append_assoc, List.append_assoc]
  exact .more (lineStart_gap depth) h isGap_nil (hrest.1 gap hgap)

end

theorem field_text (key : String) {d : Json} {cs : List Char} (h : Spells d cs)
    (hprinted : IsPrinted cs) :
    Field Spells (key, d) (stringChars key ++ ':' :: ' ' :: cs) ∧
      IsPrinted (stringChars key ++ ':' :: ' ' :: cs) := by
  obtain ⟨hkey, hplain⟩ := string_text key
  have hspace : IsGap [' '] := List.forall_mem_singleton.mpr (by decide)
  exact ⟨.intro hkey isGap_nil hspace h,
    (IsPrinted.of_plain hplain).append (.cons (by decide) (.cons (by decide) hprinted))⟩

/-! ## Documents -/

mutual

/-- The printed text is a text of the document, at every depth. -/
theorem chars_text (depth : Nat) :
    (d : Json) → Spells d (d.chars depth) ∧ IsPrinted (d.chars depth)
  | .null => word_text (by simp [words, chars])
  | .int n => intChars_text n
  | .float x => floatChars_text x
  | .string s => ⟨.string (string_text s).1, .of_plain (string_text s).2⟩
  | .array items => by
    rw [chars]
    cases items with
    | nil =>
      have hbrackets : IsPrinted ['[', ']'] := .of_plain (by simp [IsPlain])
      exact ⟨.noItems isGap_nil, hbrackets⟩
    | cons item rest =>
      obtain ⟨hitems, hprinted⟩ := itemsChars_text (depth + 1) (item :: rest) (by simp)
      refine ⟨.items (hitems _ (lineStart_gap depth)), ?_⟩
      exact ((IsPrinted.cons (by decide) hprinted).append (lineStart_printed depth)).append
        (.of_plain (by simp [IsPlain]))
  | .object fields => by
    rw [chars]
    cases fields with
    | nil =>
      have hbraces : IsPrinted ['\x7b', '\x7d'] := .of_plain (by simp [IsPlain])
      exact ⟨.noFields isGap_nil, hbraces⟩
    | cons field rest =>
      obtain ⟨hfields, hprinted⟩ := fieldsChars_text (depth + 1) (field :: rest) (by simp)
      refine ⟨.fields (hfields _ (lineStart_gap depth)), ?_⟩
      exact ((IsPrinted.cons (by decide) hprinted).append (lineStart_printed depth)).append
        (.of_plain (by simp [IsPlain]))

theorem itemsChars_text (depth : Nat) :
    (items : List Json) → items ≠ [] → IsLines Spells items (itemsChars depth items)
  | [], h => absurd rfl h
  | item :: rest, _ => by
    obtain ⟨hspells, hprinted⟩ := chars_text depth item
    rw [itemsChars]
    cases rest with
    | nil =>
      rw [List.isEmpty_nil, if_pos rfl, List.append_nil]
      exact isLines_last depth hspells hprinted
    | cons next rest =>
      exact isLines_more depth hspells hprinted (itemsChars_text depth (next :: rest) (by simp))

theorem fieldsChars_text (depth : Nat) :
    (fields : List (String × Json)) → fields ≠ [] →
      IsLines (Field Spells) fields (fieldsChars depth fields)
  | [], h => absurd rfl h
  | (key, d) :: rest, _ => by
    obtain ⟨hspells, hprinted⟩ := chars_text depth d
    obtain ⟨hfield, hprintedField⟩ := field_text key hspells hprinted
    rw [fieldsChars, List.append_assoc (lineStart depth)]
    cases rest with
    | nil =>
      rw [List.isEmpty_nil, if_pos rfl, List.append_nil]
      exact isLines_last depth hfield hprintedField
    | cons next rest =>
      exact isLines_more depth hfield hprintedField
        (fieldsChars_text depth (next :: rest) (by simp))

end

/-- The text of a document is one of its texts. -/
theorem text_isText (d : Json) : IsText d.text d := by
  refine ⟨[], d.chars 0, [], isGap_nil, (chars_text 0 d).1, isGap_nil, ?_⟩
  rw [text, String.toList_ofList, List.nil_append, List.append_nil]

/-- The text of a document is read back. -/
theorem read?_text (d : Json) : read? d.text = some d :=
  (text_isText d).read?

theorem text_printed (d : Json) : IsPrinted d.text.toList := by
  rw [text, String.toList_ofList]
  exact (chars_text 0 d).2

end Reckoner.Json
