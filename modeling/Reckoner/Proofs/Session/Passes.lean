import Reckoner.Proofs.Session.Names

/-! A sheet in one pass or in two. A run parses and executes line by line; the other
way is to parse all lines first and to execute the statements then. Both pass over the
same lines and number the others alike, so the results differ in nothing but which of
two faults comes first: one of parsing stops the second way before any statement is
executed, and the first way only when it comes to the line. -/
namespace Reckoner

/-- Executes statements one after the other. The first that fails is told by its place
among them, counted from zero. -/
def executeAll (bindings : Bindings) : List Assignment → Except (Nat × EvalFault) Bindings
  | [] => .ok bindings
  | a :: rest =>
    match a.execute bindings with
    | .error fault _ => .error (0, fault)
    | .ok _ after => (executeAll after rest).mapError fun failed => (failed.1 + 1, failed.2)

namespace Sheet

/-- The line stands in the sheet under this number, the first line being number one, and
`place` lines with something on them stand before it. -/
def Stands (lines : List (Option String)) (place number : Nat) (line : String) : Prop :=
  ∃ before after, lines = before ++ some line :: after ∧ before.length + 1 = number ∧
    isBlankLine line = false ∧ (written before).length = place

/-! ## The numbers of the lines -/

/-- A numbered line comes from the line of that number, and the lines numbered before it
are those that stand before it. -/
theorem numbered_eq_append {start number : Nat} {line : String} {lines : List (Option String)}
    {front behind : List (Nat × String)}
    (h : numbered start lines = front ++ (number, line) :: behind) :
    ∃ before after, lines = before ++ some line :: after ∧ start + before.length = number ∧
      isBlankLine line = false ∧ numbered start before = front := by
  induction lines generalizing start front with
  | nil => simp [numbered] at h
  | cons first lines ih =>
    cases first with
    | none =>
      obtain ⟨before, after, rfl, rfl, hblank, rfl⟩ := ih h
      exact ⟨none :: before, after, rfl, by simp only [List.length_cons]; omega, hblank, rfl⟩
    | some text =>
      rw [numbered] at h
      split at h
      · next htext =>
        obtain ⟨before, after, rfl, rfl, hblank, rfl⟩ := ih h
        refine ⟨some text :: before, after, rfl, by simp only [List.length_cons]; omega, hblank, ?_⟩
        rw [numbered, if_pos htext]
      · next htext =>
        cases front with
        | nil =>
          obtain ⟨hentry, -⟩ := List.cons.inj h
          obtain ⟨rfl, rfl⟩ := Prod.mk.inj hentry
          exact ⟨[], lines, rfl, rfl, by simpa using htext, rfl⟩
        | cons entry front =>
          obtain ⟨rfl, hrest⟩ := List.cons.inj h
          obtain ⟨before, after, rfl, rfl, hblank, rfl⟩ := ih hrest
          refine ⟨some text :: before, after, rfl, by simp only [List.length_cons]; omega,
            hblank, ?_⟩
          rw [numbered, if_neg htext]

theorem stands_of_numbered {lines : List (Option String)} {place number : Nat} {line : String}
    (h : (numbered 1 lines)[place]? = some (number, line)) : Stands lines place number line := by
  obtain ⟨hplace, hentry⟩ := List.getElem?_eq_some_iff.mp h
  have hsplit : numbered 1 lines =
      (numbered 1 lines).take place ++ (number, line) :: (numbered 1 lines).drop (place + 1) := by
    rw [← hentry, ← List.drop_eq_getElem_cons hplace, List.take_append_drop]
  obtain ⟨before, after, hbefore, hnumber, hblank, hfront⟩ := numbered_eq_append hsplit
  refine ⟨before, after, hbefore, by rw [← hnumber, Nat.add_comm], hblank, ?_⟩
  rw [← map_numbered 1 before, hfront, List.length_map, List.length_take]
  omega

/-- A line of the sheet up to some place is a line of the sheet. -/
theorem Stands.append {before : List (Option String)} {place number : Nat} {line : String}
    (h : Stands before place number line) (after : List (Option String)) :
    number ≤ before.length ∧ Stands (before ++ after) place number line := by
  obtain ⟨front, behind, rfl, rfl, hblank, hplace⟩ := h
  refine ⟨by simp, front, behind ++ after, ?_, rfl, hblank, hplace⟩
  rw [List.append_assoc, List.cons_append]

/-! ## Numbered lines -/

/-- Where lines parse, a run of them is the execution of their statements. -/
theorem runFrom_parsed {entries : List (Nat × String)} {statements : List Assignment}
    (h : parseFrom entries = .ok statements) (bindings : Bindings) :
    match executeAll bindings statements with
    | .ok final => (runFrom bindings entries).outcome = .ok final
    | .error (place, fault) => ∃ entry, entries[place]? = some entry ∧
        (runFrom bindings entries).outcome = .error ⟨.eval fault, entry.1, entry.2⟩ := by
  induction entries generalizing statements bindings with
  | nil =>
    cases h
    rfl
  | cons entry entries ih =>
    obtain ⟨number, line⟩ := entry
    rw [parseFrom] at h
    split at h
    · cases h
    · next a hparse =>
      cases hothers : parseFrom entries with
      | error fault =>
        rw [hothers] at h
        cases h
      | ok others =>
        rw [hothers] at h
        cases h
        obtain ⟨houtcome, hafter⟩ := runLine_parsed hparse bindings
        rw [runFrom, executeAll]
        cases hexecute : a.execute bindings with
        | error fault after =>
          rw [hexecute] at houtcome
          simp only [houtcome, lineOutcome]
          exact ⟨(number, line), rfl, rfl⟩
        | ok value after =>
          rw [hexecute] at houtcome hafter
          simp only [houtcome, hafter, lineOutcome, Evaluation.after_ok]
          have hrest := ih hothers after
          cases hrun : executeAll after others with
          | ok final =>
            rw [hrun] at hrest
            exact hrest
          | error failed =>
            rw [hrun] at hrest
            exact hrest

/-- The fault of lines that do not parse is that of the first one that does not. -/
theorem parseFrom_eq_error {entries : List (Nat × String)} {f : LineFault}
    (h : parseFrom entries = .error f) :
    ∃ front behind statements, entries = front ++ (f.number, f.line) :: behind ∧
      parseFrom front = .ok statements ∧ parseLine f.line = .error f.fault := by
  induction entries with
  | nil => cases h
  | cons entry entries ih =>
    obtain ⟨number, line⟩ := entry
    rw [parseFrom] at h
    split at h
    · next fault hparse =>
      cases h
      exact ⟨[], entries, [], rfl, rfl, hparse⟩
    · next a hparse =>
      cases hothers : parseFrom entries with
      | ok others =>
        rw [hothers] at h
        cases h
      | error other =>
        rw [hothers] at h
        cases h
        obtain ⟨front, behind, statements, rfl, hfront, hfault⟩ := ih hothers
        refine ⟨(number, line) :: front, behind, a :: statements, rfl, ?_, hfault⟩
        rw [parseFrom, hparse, hfront]
        rfl

/-- A run goes on with the lines behind others if these have no fault. -/
theorem runFrom_append (bindings : Bindings) (front behind : List (Nat × String)) :
    (runFrom bindings (front ++ behind)).outcome =
      (runFrom bindings front).outcome >>= fun middle => (runFrom middle behind).outcome := by
  induction front generalizing bindings with
  | nil => rfl
  | cons entry front ih =>
    obtain ⟨number, line⟩ := entry
    rw [List.cons_append, runFrom, runFrom]
    cases (runLine line bindings).outcome with
    | error fault => rfl
    | ok value => exact ih _

theorem runFrom_unparsed {number : Nat} {line : String} {fault : Fault}
    (h : parseLine line = .error fault) (bindings : Bindings) (behind : List (Nat × String)) :
    (runFrom bindings ((number, line) :: behind)).outcome = .error ⟨fault, number, line⟩ := by
  rw [runFrom]
  simp only [(runLine_unparsed h bindings).1]

theorem parseLine_ne_eval {line : String} {fault : Fault} (h : parseLine line = .error fault)
    (cause : EvalFault) : fault ≠ .eval cause := by
  rintro rfl
  unfold parseLine at h
  split at h
  · cases h
  · split at h <;> cases h

/-! ## Sheets -/

/-- The run of a sheet that parses. -/
theorem run_parsed {lines : List (Option String)} {statements : List Assignment}
    (h : parse lines = .ok statements) :
    match executeAll .empty statements with
    | .ok final => (run lines).outcome = .ok final
    | .error (place, fault) => ∃ number line, Stands lines place number line ∧
        (run lines).outcome = .error ⟨.eval fault, number, line⟩ := by
  have hrun := runFrom_parsed h .empty
  cases hexecute : executeAll .empty statements with
  | ok final =>
    rw [hexecute] at hrun
    exact hrun
  | error failed =>
    rw [hexecute] at hrun
    obtain ⟨⟨number, line⟩, hentry, houtcome⟩ := hrun
    exact ⟨number, line, stands_of_numbered hentry, houtcome⟩

/-- If all lines of a sheet parse, its run ends as the execution of the statements does:
with the snapshot of the variables, or with the fault of the first statement that fails,
under the number of the line that it comes from. If a line does not parse, its run ends
with that fault at that line, unless a statement of the lines before it fails; then it
ends there. -/
theorem run_eq_passes (lines : List (Option String)) :
    match parse lines with
    | .ok statements =>
      match executeAll .empty statements with
      | .ok final => (run lines).snapshot = .ok final.snapshot
      | .error (place, fault) => ∃ number line, Stands lines place number line ∧
          (run lines).snapshot = .error ⟨.eval fault, number, line⟩
    | .error f =>
      ∃ before after statements, lines = before ++ some f.line :: after ∧
        before.length + 1 = f.number ∧ parse before = .ok statements ∧
        (∀ cause, f.fault ≠ .eval cause) ∧
        match executeAll .empty statements with
        | .ok _ => (run lines).snapshot = .error f
        | .error (place, fault) => ∃ number line, number < f.number ∧
            Stands lines place number line ∧
            (run lines).snapshot = .error ⟨.eval fault, number, line⟩ := by
  cases hparse : parse lines with
  | ok statements =>
    have hrun := run_parsed hparse
    dsimp only
    cases hexecute : executeAll .empty statements with
    | ok final =>
      rw [hexecute] at hrun
      rw [Run.snapshot, show (run lines).outcome = .ok final from hrun]
      rfl
    | error failed =>
      rw [hexecute] at hrun
      obtain ⟨number, line, hstands, houtcome⟩ := hrun
      refine ⟨number, line, hstands, ?_⟩
      rw [Run.snapshot, houtcome]
      rfl
  | error f =>
    -- The lines before the one that does not parse make a sheet that does, and the run of
    -- the whole sheet begins with the run of that one.
    obtain ⟨front, behind, statements, hsplit, hfront, hfault⟩ := parseFrom_eq_error hparse
    obtain ⟨before, after, hlines, hnumber, -, hbefore⟩ := numbered_eq_append hsplit
    have hstatements : parse before = .ok statements := by rw [parse, hbefore, hfront]
    have houtcome : (run lines).outcome =
        (run before).outcome >>= fun middle =>
          (runFrom middle ((f.number, f.line) :: behind)).outcome := by
      rw [run, hsplit, runFrom_append, run, hbefore]
    have hrun := run_parsed hstatements
    refine ⟨before, after, statements, hlines, by rw [← hnumber, Nat.add_comm], hstatements,
      parseLine_ne_eval hfault, ?_⟩
    cases hexecute : executeAll .empty statements with
    | ok final =>
      rw [hexecute] at hrun
      rw [show (run before).outcome = .ok final from hrun] at houtcome
      rw [Run.snapshot, houtcome]
      exact congrArg _ (runFrom_unparsed hfault final behind)
    | error failed =>
      rw [hexecute] at hrun
      obtain ⟨number, line, hstands, hfailed⟩ := hrun
      rw [hfailed] at houtcome
      obtain ⟨hle, hwhole⟩ := hstands.append (some f.line :: after)
      rw [← hlines] at hwhole
      refine ⟨number, line, by omega, hwhole, ?_⟩
      rw [Run.snapshot, houtcome]
      rfl

/-- The fourth line does not parse, and the third one fails before it is come to. -/
example :
    let lines := [some "a = 1", none, some "b = a / 0", some "c = = 2"]
    (parse lines).mapError LineFault.number = .error 4 ∧
      (run lines).snapshot = .error ⟨.eval .divisionByZero, 3, "b = a / 0"⟩ := by
  decide +kernel

end Sheet

end Reckoner
