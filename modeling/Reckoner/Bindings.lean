import Reckoner.Value

/-!
The variables of a run: names with their values, in the order in which the names
were first bound. Binding a name again keeps its place.
-/
namespace Reckoner

namespace Bindings

/-- The value of a name among the pairs. -/
def find? (name : String) : List (String × Value) → Option Value
  | [] => none
  | (n, v) :: rest => if n = name then some v else find? name rest

/-- Gives the name its value: in its place if it is bound, else at the end. -/
def assign (name : String) (value : Value) :
    List (String × Value) → List (String × Value)
  | [] => [(name, value)]
  | (n, v) :: rest =>
    if n = name then (n, value) :: rest else (n, v) :: assign name value rest

theorem map_fst_assign (name : String) (value : Value) (entries : List (String × Value)) :
    (assign name value entries).map Prod.fst =
      if name ∈ entries.map Prod.fst then entries.map Prod.fst
      else entries.map Prod.fst ++ [name] := by
  induction entries with
  | nil => simp [assign]
  | cons entry rest ih =>
    obtain ⟨n, v⟩ := entry
    by_cases hn : n = name
    · simp [assign, hn]
    · have hne : ¬ name = n := fun h => hn h.symm
      simp only [assign, if_neg hn, List.map_cons, ih, List.mem_cons, hne, false_or]
      split <;> simp

theorem nodup_assign {entries : List (String × Value)}
    (h : (entries.map Prod.fst).Nodup) (name : String) (value : Value) :
    ((assign name value entries).map Prod.fst).Nodup := by
  rw [map_fst_assign]
  split
  · exact h
  · next hmem =>
    rw [List.nodup_append]
    refine ⟨h, by simp, ?_⟩
    rintro a ha b hb rfl
    exact hmem (List.mem_singleton.mp hb ▸ ha)

end Bindings

/-- Names with values, no name twice, oldest name first. -/
structure Bindings where
  entries : List (String × Value)
  nodup : (entries.map Prod.fst).Nodup := by decide

namespace Bindings

/-- No name is bound. -/
def empty : Bindings := { entries := [] }

instance : Inhabited Bindings := ⟨empty⟩

/-- The value of a name. -/
def get? (bindings : Bindings) (name : String) : Option Value :=
  find? name bindings.entries

/-- Binds a name to a value. -/
def set (bindings : Bindings) (name : String) (value : Value) : Bindings where
  entries := assign name value bindings.entries
  nodup := nodup_assign bindings.nodup name value

/-- The name is bound. -/
def contains (bindings : Bindings) (name : String) : Bool :=
  (bindings.get? name).isSome

/-- The bound names, oldest first. -/
def names (bindings : Bindings) : List String :=
  bindings.entries.map Prod.fst

/-- The number of bound names. -/
def size (bindings : Bindings) : Nat :=
  bindings.entries.length

/-- Binds the pairs from left to right. -/
def ofList (pairs : List (String × Value)) : Bindings :=
  pairs.foldl (fun bindings pair => bindings.set pair.1 pair.2) empty

@[ext] theorem ext {a b : Bindings} (h : a.entries = b.entries) : a = b := by
  cases a
  cases b
  cases h
  rfl

theorem names_set (bindings : Bindings) (name : String) (value : Value) :
    (bindings.set name value).names =
      if name ∈ bindings.names then bindings.names else bindings.names ++ [name] :=
  map_fst_assign name value bindings.entries

theorem find?_assign (name needle : String) (value : Value)
    (entries : List (String × Value)) :
    find? needle (assign name value entries) =
      if name = needle then some value else find? needle entries := by
  induction entries with
  | nil => simp [assign, find?]
  | cons entry rest ih =>
    obtain ⟨n, v⟩ := entry
    by_cases hn : n = name
    · subst hn
      by_cases hd : n = needle <;> simp [assign, find?, hd]
    · by_cases hd : n = needle
      · subst hd
        simp [assign, find?, hn, Ne.symm hn]
      · simp [assign, find?, hn, hd, ih]

theorem get?_set (bindings : Bindings) (name needle : String) (value : Value) :
    (bindings.set name value).get? needle =
      if name = needle then some value else bindings.get? needle :=
  find?_assign name needle value bindings.entries

end Bindings

end Reckoner
