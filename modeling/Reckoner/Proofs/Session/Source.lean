import Mathlib.Data.List.Chain
import Reckoner.Proofs.Session.FailFast

/-! Sources as lines with the texts that end them. Splitting a source gives back the lines it
was joined from, whatever ends each of them. The one thing to avoid is a carriage return with
a lone line feed behind it, which are read as one end. So what a source does is what its lines
do, under the numbers they have in the list. -/
namespace Reckoner

namespace Sheet

open Character (isLineBreak)

/-! ## Joining -/

/-- The texts that end a line. -/
def terminators : List String :=
  ["\r\n", "\n", "\r", "\x0b", "\x0c", "\x1c", "\x1d", "\x1e", "\u0085", "\u2028", "\u2029"]

/-- No text that ends lines has a character in this one. -/
def IsUnbroken (line : String) : Prop :=
  ∀ t ∈ terminators, ∀ c ∈ t.toList, c ∉ line.toList

instance (line : String) : Decidable (IsUnbroken line) :=
  decidable_of_iff ((terminators.all fun t => t.toList.all fun c => c ∉ line.toList) = true)
    (by simp [IsUnbroken])

/-- A line and the text that ends it. -/
structure EndedLine where
  line : String
  terminator : String

/-- A line without breaks and a text that ends lines. -/
def EndedLine.IsProper (l : EndedLine) : Prop :=
  IsUnbroken l.line ∧ l.terminator ∈ terminators

instance (l : EndedLine) : Decidable l.IsProper :=
  inferInstanceAs (Decidable (_ ∧ _))

/-- The ends of the two lines are one: a carriage return, and a line feed directly behind. -/
def EndedLine.MergesWith (l next : EndedLine) : Prop :=
  l.terminator = "\r" ∧ next.line = "" ∧ next.terminator = "\n"

instance (l next : EndedLine) : Decidable (l.MergesWith next) :=
  inferInstanceAs (Decidable (_ ∧ _ ∧ _))

/-- The source of ended lines, with a last line behind them that nothing ends. -/
def joined (ended : List EndedLine) (last : String) : String :=
  String.join (ended.map fun l => l.line ++ l.terminator) ++ last

/-- The lines of such a source. An empty last line is none. -/
def linesOf (ended : List EndedLine) (last : String) : List String :=
  ended.map EndedLine.line ++ if last = "" then [] else [last]

/-! ## Splitting -/

variable {c : Char} {line t rest : List Char}

theorem isLineBreak_iff : isLineBreak c = true ↔ ∃ t ∈ terminators, c ∈ t.toList := by
  have hcodes : (terminators.flatMap String.toList).map Char.toNat =
      [13, 10, 10, 13, 11, 12, 28, 29, 30, 0x85, 0x2028, 0x2029] := by
    decide +kernel
  have hinjective : Function.Injective Char.toNat := fun _ _ h => Char.toNat_inj.mp h
  rw [← List.mem_flatMap, ← List.mem_map_of_injective hinjective, hcodes]
  simp only [isLineBreak, Bool.or_eq_true, Bool.and_eq_true, decide_eq_true_eq, beq_iff_eq,
    List.mem_cons, List.not_mem_nil, or_false]
  omega

theorem IsUnbroken.not_break {line : String} (h : IsUnbroken line) :
    ∀ c ∈ line.toList, isLineBreak c = false := by
  intro c hc
  rw [← Bool.not_eq_true, isLineBreak_iff]
  rintro ⟨t, ht, hmem⟩
  exact h t ht c hmem hc

theorem splitChars_pair (rest : List Char) :
    splitChars ('\r' :: '\n' :: rest) = [] :: splitChars rest := by
  rw [splitChars]

/-- A character that ends a line, unless it is the first of two that do so together. -/
theorem splitChars_break (hc : isLineBreak c = true)
    (hpair : c = '\r' → rest.head? ≠ some '\n') :
    splitChars (c :: rest) = [] :: splitChars rest := by
  rw [splitChars, if_pos hc]
  rintro behind hc rfl
  exact hpair hc rfl

theorem splitChars_plain (hc : isLineBreak c = false) {lines : List (List Char)}
    (h : splitChars rest = line :: lines) : splitChars (c :: rest) = (c :: line) :: lines := by
  rw [splitChars, if_neg (by rw [hc]; decide), h]
  rintro behind rfl -
  cases hc

/-- What is in front of the first end of a line is its first line. -/
theorem splitChars_append (hline : ∀ c ∈ line, isLineBreak c = false) {lines : List (List Char)}
    (h : splitChars rest = [] :: lines) : splitChars (line ++ rest) = line :: lines := by
  induction line with
  | nil => exact h
  | cons c line ih =>
    obtain ⟨hc, hline⟩ := List.forall_mem_cons.mp hline
    exact splitChars_plain hc (ih hline)

/-- A text that nothing ends is a line, unless it is empty. -/
theorem splitChars_unbroken (hline : ∀ c ∈ line, isLineBreak c = false) :
    splitChars line = if line = [] then [] else [line] := by
  induction line with
  | nil => rfl
  | cons c line ih =>
    obtain ⟨hc, hline⟩ := List.forall_mem_cons.mp hline
    rw [if_neg (List.cons_ne_nil c line), splitChars, if_neg (by rw [hc]; decide), ih hline]
    · cases line <;> rfl
    · rintro behind rfl -
      cases hc

/-- A text that ends lines ends one, unless it is a carriage return and has a line feed
behind it. -/
theorem splitChars_terminator {t : String} (ht : t ∈ terminators)
    (hpair : t = "\r" → rest.head? ≠ some '\n') :
    splitChars (t.toList ++ rest) = [] :: splitChars rest := by
  have hlength : ∀ t ∈ terminators, t = "\r\n" ∨ t.toList.length = 1 := by decide +kernel
  rcases hlength t ht with rfl | hsingle
  · exact splitChars_pair rest
  · obtain ⟨c, hc⟩ := List.length_eq_one_iff.mp hsingle
    have hbreak : isLineBreak c = true := isLineBreak_iff.mpr ⟨t, ht, by simp [hc]⟩
    rw [hc]
    refine splitChars_break hbreak fun hreturn => hpair (String.toList_inj.mp ?_)
    rw [hc, hreturn]
    rfl

/-! ## Splitting what was joined -/

variable {l : EndedLine} {ended : List EndedLine} {last : String}

theorem joined_cons (l : EndedLine) (ended : List EndedLine) (last : String) :
    (joined (l :: ended) last).toList =
      l.line.toList ++ (l.terminator.toList ++ (joined ended last).toList) := by
  simp [joined, String.toList_join]

/-- A source starts with a line feed only if that ends an empty first line. -/
theorem head?_joined (hended : ∀ l ∈ ended, l.IsProper) (hlast : IsUnbroken last)
    (h : (joined ended last).toList.head? = some '\n') :
    ∃ next, ended.head? = some next ∧ next.line = "" ∧ next.terminator = "\n" := by
  have hbreak : isLineBreak '\n' = true := rfl
  have hstart (line : String) (hline : IsUnbroken line) : line.toList.head? ≠ some '\n' := by
    intro hhead
    have hnot := hline.not_break _ (List.mem_of_mem_head? hhead)
    rw [hbreak] at hnot
    cases hnot
  cases ended with
  | nil => exact absurd h (by simpa [joined] using hstart last hlast)
  | cons next ended =>
    obtain ⟨hline, hterminator⟩ := hended next List.mem_cons_self
    rw [joined_cons] at h
    have hempty : next.line = "" := by
      by_contra hne
      rw [List.head?_append_of_ne_nil _ (by simpa using hne)] at h
      exact hstart _ hline h
    have hfeed : ∀ t ∈ terminators, t.toList ≠ [] ∧ (t.toList.head? = some '\n' → t = "\n") := by
      decide +kernel
    refine ⟨next, rfl, hempty, (hfeed _ hterminator).2 ?_⟩
    rwa [hempty, String.toList_empty, List.nil_append,
      List.head?_append_of_ne_nil _ (hfeed _ hterminator).1] at h

/-- The lines that were joined come back. -/
theorem splitChars_joined (hended : ∀ l ∈ ended, l.IsProper) (hlast : IsUnbroken last)
    (happart : ended.IsChain fun l next => ¬ l.MergesWith next) :
    splitChars (joined ended last).toList = (linesOf ended last).map String.toList := by
  induction ended with
  | nil =>
    have hjoined : (joined [] last).toList = last.toList := by simp [joined]
    rw [hjoined, splitChars_unbroken hlast.not_break, linesOf, List.map_nil, List.nil_append]
    by_cases hempty : last = ""
    · simp [hempty]
    · simp [hempty]
  | cons l ended ih =>
    obtain ⟨hl, hended⟩ := List.forall_mem_cons.mp hended
    obtain ⟨hnext, happart⟩ := List.isChain_cons.mp happart
    have hsplit := ih hended happart
    rw [joined_cons]
    have hend : splitChars (l.terminator.toList ++ (joined ended last).toList) =
        [] :: splitChars (joined ended last).toList := by
      refine splitChars_terminator hl.2 fun hreturn hfeed => ?_
      obtain ⟨next, hhead, hempty, hterminator⟩ := head?_joined hended hlast hfeed
      exact hnext next hhead ⟨hreturn, hempty, hterminator⟩
    rw [splitChars_append hl.1.not_break hend, hsplit]
    rfl

theorem ofSource_joined (hended : ∀ l ∈ ended, l.IsProper) (hlast : IsUnbroken last)
    (happart : ended.IsChain fun l next => ¬ l.MergesWith next) :
    ofSource (joined ended last) = (linesOf ended last).map some := by
  rw [ofSource, splitChars_joined hended hlast happart, List.map_map]
  exact List.map_congr_left fun line _ => congrArg some (String.ofList_toList)

/-! ## The number of a fault -/

/-- The line that a fault is found in has its number among all lines. -/
theorem parse_error {lines : List (Option String)} {f : LineFault} (h : parse lines = .error f) :
    ∃ before after, lines = before ++ some f.line :: after ∧ before.length + 1 = f.number := by
  obtain ⟨front, behind, -, hsplit, -, -⟩ := parseFrom_eq_error h
  obtain ⟨before, after, hlines, hnumber, -, -⟩ := numbered_eq_append hsplit
  exact ⟨before, after, hlines, by rw [← hnumber, Nat.add_comm]⟩

end Sheet

namespace CommandLine.Request

open Sheet

variable {request : Request}

theorem exists_faulty_line {source : String} {f : LineFault}
    (h : (request.result source).1 = .error f) :
    ∃ before after, ofSource source = before ++ some f.line :: after ∧
      before.length + 1 = f.number := by
  rw [result] at h
  by_cases hemit : request.emitAst = true
  · rw [if_pos hemit, dump] at h
    cases hparse : parse (ofSource source) with
    | ok statements =>
      rw [hparse] at h
      cases h
    | error fault =>
      rw [hparse] at h
      cases h
      exact parse_error hparse
  · rw [if_neg hemit] at h
    dsimp only [Run.snapshot] at h
    cases hrun : (run (ofSource source)).outcome with
    | ok final =>
      rw [hrun] at h
      cases h
    | error fault =>
      rw [hrun] at h
      cases h
      obtain ⟨before, after, hlines, hnumber, -⟩ := run_error hrun
      exact ⟨before, after, hlines, hnumber⟩

/-- The lines of a source do not depend on the texts that end them, and a last line that is
not empty needs none. What the source does is what the driver does with its lines, or it is
the text of the statements that they parse to, and a fault has the number of its line among
them. -/
theorem result_joined {ended : List EndedLine} {last : String} (request : Request)
    (hended : ∀ l ∈ ended, l.IsProper) (hlast : IsUnbroken last)
    (happart : ended.IsChain fun l next => ¬ l.MergesWith next) :
    let source := joined ended last
    let lines := linesOf ended last
    ofSource source = lines.map some ∧
      (request.emitAst = true →
        request.result source =
          ((Sheet.parse (lines.map some)).map fun assignments =>
            Node.dump (assignments.map Assignment.toNode), "")) ∧
      (request.emitAst = false →
        let outcome := Driver.executeLines request.debug (lines.map some)
        (request.result source).1.mapError LineFault.diagnostic = outcome.1 ∧
          (request.result source).2 =
            String.join (outcome.2.map fun event => "[linecalc] " ++ event.message ++ "\n")) ∧
      ∀ f, (request.result source).1 = .error f →
        ∃ before after, lines = before ++ f.line :: after ∧ before.length + 1 = f.number := by
  intro source lines
  have hsource : ofSource source = lines.map some := ofSource_joined hended hlast happart
  refine ⟨hsource, fun hemit => ?_, fun hemit => ?_, fun f hf => ?_⟩
  · rw [result, hemit, if_pos rfl, hsource]
    rfl
  · have hdriver := result_eq_executeLines hemit source
    rwa [hsource] at hdriver
  · obtain ⟨before, after, hsplit, hnumber⟩ := exists_faulty_line hf
    rw [hsource] at hsplit
    obtain ⟨front, back, hlines, rfl, hback⟩ := List.map_eq_append_iff.mp hsplit
    obtain ⟨line, behind, rfl, hline, -⟩ := List.map_eq_cons_iff.mp hback
    cases hline
    exact ⟨front, behind, hlines, by rw [← hnumber, List.length_map]⟩

/-- A carriage return ends the first line, two characters end the empty second one, and a line
separator ends the third, where the quotient is. -/
theorem result_joined_quotient :
    let ended : List EndedLine :=
      [⟨"a = 1", "\r"⟩, ⟨"", "\r\n"⟩, ⟨"b = a / 0", "\u2028"⟩]
    let request : Request := {}
    (∀ l ∈ ended, l.IsProper) ∧ IsUnbroken "c = 2" ∧
      (ended.IsChain fun l next => ¬ l.MergesWith next) ∧
      ofSource (joined ended "c = 2") =
        [some "a = 1", some "", some "b = a / 0", some "c = 2"] ∧
      (request.result (joined ended "c = 2")).1.mapError LineFault.diagnostic =
        .error (EvalFault.divisionByZero.diagnostic.inLine 3 "b = a / 0") := by
  intro ended request
  have hended : ∀ l ∈ ended, l.IsProper := by decide +kernel
  have hlast : IsUnbroken "c = 2" := by decide +kernel
  have happart : ended.IsChain fun l next => ¬ l.MergesWith next := by decide +kernel
  obtain ⟨hsource, -, hresult, -⟩ := result_joined request hended hlast happart
  refine ⟨hended, hlast, happart, hsource, (hresult rfl).1.trans ?_⟩
  decide +kernel

end CommandLine.Request

end Reckoner
