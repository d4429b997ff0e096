import Reckoner.Proofs.Evaluation.Locality

/-! Statements that may be exchanged. Where neither of two statements writes a name that
is in the other, each of them runs as it would by itself. So their order makes no
difference to their values and faults, nor to the variables that they leave; only two
names that both are new come in the order of the statements. -/
namespace Reckoner

namespace Assignment

open Evaluation (answer after)

/-! ## The names after a run -/

/-- The run succeeds and binds its target for the first time. -/
def Introduces (a : Assignment) (bindings : Bindings) : Prop :=
  a.name ∉ bindings.names ∧ (answer (a.execute bindings)).isOk = true

instance (a : Assignment) (bindings : Bindings) : Decidable (a.Introduces bindings) :=
  inferInstanceAs (Decidable (_ ∧ _))

/-- The name that the run binds for the first time, if there is one. -/
def introduced (a : Assignment) (bindings : Bindings) : List String :=
  if a.Introduces bindings then [a.name] else []

theorem names_after_execute (a : Assignment) (bindings : Bindings) :
    (after (a.execute bindings)).names = bindings.names ++ a.introduced bindings := by
  cases hrun : a.execute bindings with
  | error fault left =>
    have hfails : ¬ a.Introduces bindings := by
      rintro ⟨-, hok⟩
      rw [hrun] at hok
      cases hok
    obtain ⟨taken, -, rfl⟩ := execute_error_takes hrun
    rw [Evaluation.after_error, Bindings.names_advanceAll, introduced, if_neg hfails,
      List.append_nil]
  | ok value left =>
    have hnew : a.Introduces bindings ↔ a.name ∉ bindings.names := by
      rw [Introduces, hrun]
      exact and_iff_left rfl
    obtain rfl := execute_ok_takes hrun
    rw [Evaluation.after_ok, Bindings.names_set, Bindings.names_advanceAll, introduced]
    by_cases hname : a.name ∈ bindings.names
    · rw [if_pos hname, if_neg (mt hnew.mp (not_not_intro hname)), List.append_nil]
    · rw [if_neg hname, if_pos (hnew.mpr hname)]

/-! ## Independent statements -/

/-- Neither statement writes a name that is in the other. -/
def Independent (a b : Assignment) : Prop :=
  (∀ name ∈ a.writes, name ∉ b.names) ∧ ∀ name ∈ b.writes, name ∉ a.names

variable {a b : Assignment}

theorem Independent.symm (h : a.Independent b) : b.Independent a :=
  ⟨h.2, h.1⟩

/-- The names of a statement are as they were, once the other one has been run. -/
theorem Independent.agreeOn (h : a.Independent b) (bindings : Bindings) :
    (after (a.execute bindings)).AgreeOn b.names bindings := by
  intro name hname
  exact a.get?_after_of_notMem_writes bindings fun hwrites => h.1 name hwrites hname

/-- So a statement runs after the other one as it would by itself. -/
theorem Independent.alike (h : a.Independent b) (bindings : Bindings) :
    Alike b.names (b.execute (after (a.execute bindings))) (b.execute bindings) :=
  b.execute_local _ _ (h.agreeOn bindings)

/-- What the second statement writes is as if it had been run by itself, and everything
else as the first one left it. -/
theorem Independent.get?_after (h : a.Independent b) (bindings : Bindings) (name : String) :
    (after (b.execute (after (a.execute bindings)))).get? name =
      if name ∈ b.writes then (after (b.execute bindings)).get? name
      else (after (a.execute bindings)).get? name := by
  split
  · next hwrites => exact (h.alike bindings).after name (b.writes_subset_names hwrites)
  · next hwrites => exact b.get?_after_of_notMem_writes _ hwrites

theorem Independent.introduced_eq (h : a.Independent b) (bindings : Bindings) :
    b.introduced (after (a.execute bindings)) = b.introduced bindings := by
  have hbound : b.name ∈ (after (a.execute bindings)).names ↔ b.name ∈ bindings.names := by
    rw [← Bindings.get?_isSome_iff, ← Bindings.get?_isSome_iff,
      h.agreeOn bindings b.name List.mem_cons_self]
  have hnew : b.Introduces (after (a.execute bindings)) ↔ b.Introduces bindings := by
    rw [Introduces, Introduces, hbound, (h.alike bindings).answer_eq]
  by_cases hintroduces : b.Introduces bindings
  · rw [introduced, introduced, if_pos hintroduces, if_pos (hnew.mpr hintroduces)]
  · rw [introduced, introduced, if_neg hintroduces, if_neg (mt hnew.mp hintroduces)]

/-- Both orders leave each variable with the same value. -/
theorem Independent.get?_exchange (h : a.Independent b) (bindings : Bindings) (name : String) :
    (after (b.execute (after (a.execute bindings)))).get? name =
      (after (a.execute (after (b.execute bindings)))).get? name := by
  rw [h.get?_after, h.symm.get?_after]
  by_cases ha : name ∈ a.writes
  · have hb : name ∉ b.writes := fun hmem => h.1 name ha (b.writes_subset_names hmem)
    rw [if_neg hb, if_pos ha]
  · by_cases hb : name ∈ b.writes
    · rw [if_pos hb, if_neg ha]
    · rw [if_neg hb, if_neg ha, a.get?_after_of_notMem_writes bindings ha,
        b.get?_after_of_notMem_writes bindings hb]

theorem Independent.names_after (h : a.Independent b) (bindings : Bindings) :
    (after (b.execute (after (a.execute bindings)))).names =
      bindings.names ++ (a.introduced bindings ++ b.introduced bindings) := by
  rw [names_after_execute, names_after_execute, h.introduced_eq, List.append_assoc]

/-- Independent statements may be exchanged. In both orders each of them has the same
value or fault, also where the one before it fails, and every variable ends with the same
value. The names end in the same order as well, unless both statements bind a new one. -/
theorem execute_exchange (h : a.Independent b) (bindings : Bindings) :
    let afterFirst := after (a.execute bindings)
    let afterSecond := after (b.execute bindings)
    answer (a.execute bindings) = answer (a.execute afterSecond) ∧
      answer (b.execute afterFirst) = answer (b.execute bindings) ∧
      (∀ name, (after (b.execute afterFirst)).get? name =
        (after (a.execute afterSecond)).get? name) ∧
      ((after (b.execute afterFirst)).names = (after (a.execute afterSecond)).names ↔
        ¬ (a.Introduces bindings ∧ b.Introduces bindings)) := by
  refine ⟨(h.symm.alike bindings).answer_eq.symm, (h.alike bindings).answer_eq,
    h.get?_exchange bindings, ?_⟩
  have hne : a.name ≠ b.name := by
    intro hname
    refine h.1 a.name List.mem_cons_self ?_
    rw [hname]
    exact List.mem_cons_self
  rw [h.names_after, h.symm.names_after, List.append_cancel_left_eq, introduced, introduced]
  by_cases ha : a.Introduces bindings
  · by_cases hb : b.Introduces bindings
    · simp [ha, hb, hne]
    · simp [hb]
  · simp [ha]

/-- Of `x = i++ / 0` and `y += --k` the first fails behind its step, and in both orders the
names stay in their order, as the second one binds none. -/
theorem execute_exchange_quotient :
    let a : Assignment :=
      ⟨0, "x", .plain, .binary 8 (.stepAfter 5 .increment (.reference 4 "i")) .divide
        (.literal 10 (.int 0))⟩
    let b : Assignment := ⟨0, "y", .compound .add, .unary 5 (.step .decrement) (.reference 7 "k")⟩
    let bindings := Bindings.ofList [("k", .int 3), ("i", .int 1), ("y", .int 5)]
    let afterFirst := after (a.execute bindings)
    let afterSecond := after (b.execute bindings)
    a.Independent b ∧
      answer (a.execute afterSecond) = .error .divisionByZero ∧
      answer (b.execute afterFirst) = .ok (.int 7) ∧
      (after (b.execute afterFirst)).get? "i" = some (.int 2) ∧
      (after (a.execute afterSecond)).get? "i" = some (.int 2) ∧
      (after (b.execute afterFirst)).names = (after (a.execute afterSecond)).names := by
  intro a b bindings afterFirst afterSecond
  have hindependent : a.Independent b := by
    unfold Independent
    decide
  obtain ⟨hfirst, hsecond, hvalues, hnames⟩ := execute_exchange hindependent bindings
  have hfail : answer (a.execute bindings) = .error .divisionByZero := rfl
  have hsum : answer (b.execute bindings) = .ok (.int 7) := rfl
  have hstep : (after (b.execute afterFirst)).get? "i" = some (.int 2) := rfl
  have hone : ¬ (a.Introduces bindings ∧ b.Introduces bindings) := by decide
  exact ⟨hindependent, hfirst.symm.trans hfail, hsecond.trans hsum, hstep,
    (hvalues "i").symm.trans hstep, hnames.mpr hone⟩

end Assignment

end Reckoner
