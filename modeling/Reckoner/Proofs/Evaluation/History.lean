import Mathlib.Data.Finset.Card
import Mathlib.Data.List.Induction
import Reckoner.Diagnostic
import Reckoner.Proofs.Evaluation.Changes
import Reckoner.Proofs.Value.Range

/-! Bindings as the record of a history: of the writes that have led to them, one after
the other. A name keeps the place that its first write gave it and has the value of its
last write; to read it gives this value, or the fault that nothing was written, and
changes nothing. One write keeps the record, and so does a history of any length. -/
namespace Reckoner

/-! ## Histories -/

/-- A name with the value written to it. -/
abbrev Write := String × Value

/-- The value of the last write to a name, if there is one. -/
def lastWrite? (history : List Write) (name : String) : Option Value :=
  ((history.filter (·.1 = name)).getLast?).map Prod.snd

/-- The first write to one name comes before the first write to the other. -/
def FirstBefore (history : List Write) (earlier later : String) : Prop :=
  (history.map Prod.fst).idxOf earlier < (history.map Prod.fst).idxOf later

/-- The writes of a history in order. -/
def Evaluation.writeAll (history : List Write) : Evaluation Unit :=
  history.forM fun write => Evaluation.write write.1 write.2

theorem lastWrite?_concat (history : List Write) (write : Write) (name : String) :
    lastWrite? (history ++ [write]) name =
      if write.1 = name then some write.2 else lastWrite? history name := by
  unfold lastWrite?
  rw [List.filter_append]
  by_cases hname : write.1 = name <;> simp [hname]

theorem lastWrite?_isSome_iff {history : List Write} {name : String} :
    (lastWrite? history name).isSome = true ↔ name ∈ history.map Prod.fst := by
  simp [lastWrite?]

theorem FirstBefore.concat {history : List Write} {earlier later : String}
    (he : earlier ∈ history.map Prod.fst) (hl : later ∈ history.map Prod.fst)
    (h : FirstBefore history earlier later) (write : Write) :
    FirstBefore (history ++ [write]) earlier later := by
  unfold FirstBefore
  rw [List.map_append, List.idxOf_append_of_mem he, List.idxOf_append_of_mem hl]
  exact h

/-- A name that is new comes behind all others. -/
theorem firstBefore_new {history : List Write} {earlier : String} {write : Write}
    (he : earlier ∈ history.map Prod.fst) (hw : write.1 ∉ history.map Prod.fst) :
    FirstBefore (history ++ [write]) earlier write.1 := by
  unfold FirstBefore
  rw [List.map_append, List.idxOf_append_of_mem he, List.idxOf_append_of_notMem hw]
  have hlt := List.idxOf_lt_length_of_mem he
  omega

theorem Evaluation.writeAll_apply (history : List Write) (bindings : Bindings) :
    writeAll history bindings =
      .ok () (history.foldl (fun bindings write => bindings.set write.1 write.2) bindings) := by
  induction history generalizing bindings with
  | nil => rfl
  | cons write history ih =>
    show (Evaluation.write write.1 write.2 >>= fun _ => writeAll history) bindings = _
    rw [bind_apply]
    exact ih (bindings.set write.1 write.2)

namespace Bindings

/-! ## Entries -/

theorem find?_of_mem {name : String} {value : Value} {entries : List (String × Value)}
    (hnodup : (entries.map Prod.fst).Nodup) (h : (name, value) ∈ entries) :
    find? name entries = some value := by
  induction entries with
  | nil => cases h
  | cons entry rest ih =>
    rw [List.map_cons, List.nodup_cons] at hnodup
    rw [find?]
    rcases List.mem_cons.mp h with rfl | h
    · rw [if_pos rfl]
    · have hmem : name ∈ rest.map Prod.fst := List.mem_map_of_mem h
      have hne : entry.1 ≠ name := by
        rintro rfl
        exact hnodup.1 hmem
      rw [if_neg hne]
      exact ih hnodup.2 h

/-- The entries are the names with their values. -/
theorem mem_entries_iff {bindings : Bindings} {name : String} {value : Value} :
    (name, value) ∈ bindings.entries ↔ bindings.get? name = some value :=
  ⟨find?_of_mem bindings.nodup, mem_of_find?⟩

/-! ## Records -/

/-- The names stand in the order of their first writes, and each has the value of its
last write. -/
structure Records (bindings : Bindings) (history : List Write) : Prop where
  ordered : bindings.names.Pairwise (FirstBefore history)
  get?_eq (name : String) : bindings.get? name = lastWrite? history name

variable {bindings : Bindings} {history : List Write}

theorem Records.mem_names_iff (h : bindings.Records history) {name : String} :
    name ∈ bindings.names ↔ name ∈ history.map Prod.fst := by
  rw [← get?_isSome_iff, h.get?_eq, lastWrite?_isSome_iff]

theorem records_empty : empty.Records [] where
  ordered := .nil
  get?_eq _ := rfl

/-- One more write is recorded. -/
theorem Records.set (h : bindings.Records history) (write : Write) :
    (bindings.set write.1 write.2).Records (history ++ [write]) where
  ordered := by
    have hothers : bindings.names.Pairwise (FirstBefore (history ++ [write])) :=
      h.ordered.imp_of_mem fun he hl hbefore =>
        hbefore.concat (h.mem_names_iff.mp he) (h.mem_names_iff.mp hl) write
    rw [names_set]
    split
    · exact hothers
    · next hnew =>
      refine List.pairwise_append.mpr ⟨hothers, List.pairwise_singleton _ _, ?_⟩
      intro earlier he later hl
      rw [List.mem_singleton.mp hl]
      exact firstBefore_new (h.mem_names_iff.mp he) fun hw => hnew (h.mem_names_iff.mpr hw)
  get?_eq name := by rw [get?_set, lastWrite?_concat, h.get?_eq]

/-- Every history is recorded. -/
theorem records_ofList (history : List Write) : (ofList history).Records history := by
  induction history using List.reverseRecOn with
  | nil => exact records_empty
  | append_singleton earlier write ih =>
    rw [ofList, List.foldl_concat]
    exact ih.set write

theorem Records.read_eq (h : bindings.Records history) (name : String) :
    Evaluation.read name bindings =
      match lastWrite? history name with
      | some value => .ok value bindings
      | none => .error (.undefinedVariable name) bindings := by
  rw [← h.get?_eq]
  rfl

/-- There are as many bindings as names in the history. -/
theorem Records.size_eq (h : bindings.Records history) :
    bindings.size = (history.map Prod.fst).toFinset.card := by
  have hnames : (history.map Prod.fst).toFinset = bindings.names.toFinset := by
    ext name
    rw [List.mem_toFinset, List.mem_toFinset, h.mem_names_iff]
  have hnodup : bindings.names.Nodup := bindings.nodup
  rw [hnames, List.toFinset_card_of_nodup hnodup]
  exact (List.length_map Prod.fst).symm

/-- Either the name has been written, and is bound and read, or it has not been, and to
read it is a fault. The bindings stay as they are. -/
theorem Records.read_cases (h : bindings.Records history) (name : String) :
    (name ∈ history.map Prod.fst ∧ bindings.contains name = true ∧
      ∃ value, lastWrite? history name = some value ∧
        Evaluation.read name bindings = .ok value bindings) ∨
    (name ∉ history.map Prod.fst ∧ bindings.contains name = false ∧
      Evaluation.read name bindings = .error (.undefinedVariable name) bindings) := by
  rw [← lastWrite?_isSome_iff, contains, h.get?_eq, h.read_eq]
  cases lastWrite? history name with
  | none => exact .inr ⟨by simp, rfl, rfl⟩
  | some value => exact .inl ⟨rfl, rfl, value, rfl, rfl⟩

end Bindings

/-- From no bindings the writes of a history lead to bindings that list each name of the
history once, in the order of the first writes, with the value of the last write. Reading
gives this value for a name of the history and the fault of an undefined variable for any
other, and keeps the bindings; which names are bound, their number and their order agree
with it. -/
theorem values_of_history (history : List Write) :
    ∃ bindings, Evaluation.writeAll history .empty = .ok () bindings ∧
      bindings.names = bindings.entries.map Prod.fst ∧ bindings.names.Nodup ∧
      (∀ name, name ∈ bindings.names ↔ name ∈ history.map Prod.fst) ∧
      bindings.names.Pairwise (FirstBefore history) ∧
      (∀ name value,
        (name, value) ∈ bindings.entries ↔ lastWrite? history name = some value) ∧
      (∀ name,
        (name ∈ history.map Prod.fst ∧ bindings.contains name = true ∧
          ∃ value, lastWrite? history name = some value ∧
            Evaluation.read name bindings = .ok value bindings) ∨
        (name ∉ history.map Prod.fst ∧ bindings.contains name = false ∧
          Evaluation.read name bindings = .error (.undefinedVariable name) bindings)) ∧
      (∀ name, (EvalFault.undefinedVariable name).diagnostic.code.label = "ENV_001") ∧
      bindings.size = (history.map Prod.fst).toFinset.card := by
  have hrecords := Bindings.records_ofList history
  refine ⟨.ofList history, Evaluation.writeAll_apply history .empty, rfl,
    (Bindings.ofList history).nodup, fun _ => hrecords.mem_names_iff, hrecords.ordered,
    fun name value => ?_, hrecords.read_cases, fun _ => rfl, hrecords.size_eq⟩
  rw [Bindings.mem_entries_iff, hrecords.get?_eq]

/-- The second write to `b` changes the value and leaves the place. -/
example :
    (Bindings.ofList [("b", .int 1), ("a", .int 2), ("b", .float (.zero true))]).entries =
      [("b", .float (.zero true)), ("a", .int 2)] := by
  decide +kernel

end Reckoner
