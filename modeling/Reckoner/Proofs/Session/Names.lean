import Reckoner.Proofs.Evaluation.Changes
import Reckoner.Proofs.Session.Lines

/-! The names of the variables along a session. Steps and failures bind nothing, so
a name is bound by the first line that succeeds in assigning it, and keeps its
place from then on. -/
namespace Reckoner

/-! ## One line -/

/-- The name that a line assigns, if it is a statement. -/
def target? (line : String) : Option String :=
  (parseLine line).toOption.map Assignment.name

/-- The name that a line has assigned: its target if it succeeded. -/
def assignedBy (line : String) (run : LineRun) : Option String :=
  match run.outcome with
  | .ok _ => target? line
  | .error _ => none

/-- A line that succeeds makes sure that its target is bound, and no line does
anything else to the names. -/
theorem names_runLine (line : String) (bindings : Bindings) :
    (runLine line bindings).bindings.names =
      match assignedBy line (runLine line bindings) with
      | none => bindings.names
      | some name =>
        if name ∈ bindings.names then bindings.names else bindings.names ++ [name] := by
  cases hparse : parseLine line with
  | error fault =>
    obtain ⟨houtcome, hbindings⟩ := runLine_unparsed hparse bindings
    rw [assignedBy, houtcome, hbindings]
  | ok a =>
    obtain ⟨houtcome, hbindings⟩ := runLine_parsed hparse bindings
    rw [assignedBy, houtcome, hbindings]
    cases hrun : a.execute bindings with
    | error fault after =>
      obtain ⟨taken, -, rfl⟩ := Assignment.execute_error_takes hrun
      exact bindings.names_advanceAll taken
    | ok value after =>
      rw [Assignment.execute_ok_takes hrun]
      simp only [lineOutcome, Evaluation.after_ok, target?, hparse, Except.toOption,
        Option.map_some, Bindings.names_set, Bindings.names_advanceAll]

/-! ## A session -/

/-- The targets of the lines that succeed when they are run one after the other,
in order. -/
def assigned (bindings : Bindings) (lines : List String) : List String :=
  (lines.zip (runLines bindings lines)).filterMap fun line => assignedBy line.1 line.2

theorem length_runLines (bindings : Bindings) (lines : List String) :
    (runLines bindings lines).length = lines.length := by
  induction lines generalizing bindings with
  | nil => rfl
  | cons line lines ih => rw [runLines, List.length_cons, ih, List.length_cons]

theorem assigned_append (earlier : List String) (line : String) :
    assigned .empty (earlier ++ [line]) =
      assigned .empty earlier ++
        (assignedBy line (runLine line (bindingsAfter earlier))).toList := by
  rw [assigned, runLines_append, List.zip_append (length_runLines _ _).symm,
    List.filterMap_append, assigned]
  congr 1

/-- One more element comes last in the list without repetitions, if it is new. -/
theorem eraseDups_append_singleton (names : List String) (name : String) :
    (names ++ [name]).eraseDups =
      if name ∈ names.eraseDups then names.eraseDups else names.eraseDups ++ [name] := by
  rw [List.eraseDups_append]
  by_cases h : name ∈ names <;> simp [List.removeAll, h, List.eraseDups_cons]

/-- The names bound after a session are those assigned, oldest first. -/
theorem names_bindingsAfter (lines : List String) :
    (bindingsAfter lines).names = (assigned .empty lines).eraseDups := by
  induction lines using List.reverseRecOn with
  | nil => rfl
  | append_singleton earlier line ih =>
    rw [bindingsAfter_append, names_runLine, assigned_append, ih]
    cases assignedBy line (runLine line (bindingsAfter earlier)) with
    | none => rw [Option.toList_none, List.append_nil]
    | some name => exact (eraseDups_append_singleton (assigned .empty earlier) name).symm

/-! ## A sheet -/

/-- The lines of a sheet with something on them. -/
def Sheet.written (lines : List (Option String)) : List String :=
  (lines.filterMap id).filter fun line => !isBlankLine line

theorem Sheet.map_numbered (number : Nat) (lines : List (Option String)) :
    (numbered number lines).map Prod.snd = written lines := by
  induction lines generalizing number with
  | nil => rfl
  | cons line lines ih =>
    cases line with
    | none => exact ih (number + 1)
    | some line =>
      rw [numbered]
      split
      · next hblank =>
        rw [ih]
        simp [written, hblank]
      · next hblank =>
        rw [List.map_cons, ih]
        simp [written, hblank]

/-- A sheet that runs to its end is a session of its lines in which none fails. -/
theorem Sheet.runFrom_ok {bindings final : Bindings} {lines : List (Nat × String)}
    (h : (runFrom bindings lines).outcome = .ok final) :
    (∀ run ∈ runLines bindings (lines.map Prod.snd), ∃ value, run.outcome = .ok value) ∧
      final = ((runLines bindings (lines.map Prod.snd)).getLast?.map LineRun.bindings).getD
        bindings := by
  induction lines generalizing bindings with
  | nil =>
    cases h
    exact ⟨by simp [runLines], rfl⟩
  | cons line lines ih =>
    obtain ⟨number, line⟩ := line
    simp only [runFrom] at h
    split at h
    · cases h
    · next value hvalue =>
      obtain ⟨hothers, rfl⟩ := ih h
      refine ⟨List.forall_mem_cons.mpr ⟨⟨value, hvalue⟩, hothers⟩, ?_⟩
      rw [List.map_cons, runLines, List.getLast?_cons]
      cases (runLines (runLine line bindings).bindings (lines.map Prod.snd)).getLast? <;> rfl

/-- A line that has run to its end has a target. -/
theorem target?_of_ok {line : String} {bindings : Bindings} {value : Value}
    (h : (runLine line bindings).outcome = .ok value) : ∃ name, target? line = some name := by
  cases hparse : parseLine line with
  | error fault =>
    rw [(runLine_unparsed hparse bindings).1] at h
    cases h
  | ok a => exact ⟨a.name, by rw [target?, hparse]; rfl⟩

/-- Where no line fails, all targets have been assigned. -/
theorem map_target? {bindings : Bindings} {lines : List String}
    (h : ∀ run ∈ runLines bindings lines, ∃ value, run.outcome = .ok value) :
    lines.map target? = (assigned bindings lines).map some := by
  induction lines generalizing bindings with
  | nil => rfl
  | cons line lines ih =>
    rw [runLines, List.forall_mem_cons] at h
    obtain ⟨⟨value, hvalue⟩, hothers⟩ := h
    obtain ⟨name, hname⟩ := target?_of_ok hvalue
    have hassigned : assignedBy line (runLine line bindings) = some name := by
      rw [assignedBy, hvalue, hname]
    have hcons : assigned bindings (line :: lines) =
        name :: assigned (runLine line bindings).bindings lines := by
      simp [assigned, runLines, hassigned]
    rw [List.map_cons, ih hothers, hcons, List.map_cons, hname]

/-- The names bound after a session, failures included, are the targets of the lines
that succeeded, each once, in the order in which they were first assigned. The
snapshot of a sheet that succeeds is that of its lines with something on them, all
of which have a target, and lists these targets in the same way. -/
theorem names_first_assigned :
    (∀ lines : List String, (bindingsAfter lines).names = (assigned .empty lines).eraseDups) ∧
      ∀ (lines : List (Option String)) (text : String),
        (Sheet.run lines).snapshot = .ok text →
          ∃ targets : List String, (Sheet.written lines).map target? = targets.map some ∧
            (bindingsAfter (Sheet.written lines)).names = targets.eraseDups ∧
            text = (bindingsAfter (Sheet.written lines)).snapshot := by
  refine ⟨names_bindingsAfter, fun lines text h => ?_⟩
  rw [Sheet.Run.snapshot] at h
  cases houtcome : (Sheet.run lines).outcome with
  | error fault =>
    rw [houtcome] at h
    cases h
  | ok final =>
    rw [houtcome] at h
    cases h
    obtain ⟨hruns, hfinal⟩ := Sheet.runFrom_ok houtcome
    rw [Sheet.map_numbered] at hruns hfinal
    have hafter : final = bindingsAfter (Sheet.written lines) := hfinal
    exact ⟨assigned .empty (Sheet.written lines), map_target? hruns,
      names_bindingsAfter _, by rw [hafter]⟩

/-- Two lines of the session fail, one of them behind a step, and bind nothing; in the
sheet, which has two lines with nothing on them, no line does. -/
theorem names_first_assigned_sample :
    let session := ["b=1", "a=b++", "c=b++/0", "a=--d", "b+=a", "d=5"]
    let sheet := [some "b=1", none, some " ", some "a=b++", some "b=a"]
    (bindingsAfter session).names = ["b", "a", "d"] ∧
      (Sheet.run sheet).snapshot = .ok "(b=1,a=1)" ∧
      ∃ targets : List String, (Sheet.written sheet).map target? = targets.map some ∧
        (bindingsAfter (Sheet.written sheet)).names = targets.eraseDups ∧
        "(b=1,a=1)" = (bindingsAfter (Sheet.written sheet)).snapshot := by
  intro session sheet
  have hassigned : (assigned .empty session).eraseDups = ["b", "a", "d"] := by decide +kernel
  have hsnapshot : (Sheet.run sheet).snapshot = .ok "(b=1,a=1)" := by decide +kernel
  exact ⟨(names_first_assigned.1 session).trans hassigned, hsnapshot,
    names_first_assigned.2 sheet _ hsnapshot⟩

end Reckoner
