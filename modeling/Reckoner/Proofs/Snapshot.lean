import Reckoner.Proofs.Token.Classes
import Reckoner.Proofs.Value.Text
import Reckoner.Snapshot

/-! The snapshot tells the bindings. Neither names nor values have a comma or an
equals sign, so that the entries, and the two parts of each, can be told apart; and
the text of a value tells its kind and the value. -/
namespace Reckoner

/-- The text of one binding. -/
def bindingChars (pair : String × Value) : List Char :=
  pair.1.toList ++ '=' :: pair.2.chars

theorem snapshot_toList (pairs : List (String × Value)) :
    (snapshot pairs).toList = '(' :: ([','].intercalate (pairs.map bindingChars) ++ [')']) := by
  have hbinding : bindingChars = fun pair => pair.1.toList ++ '=' :: pair.2.chars := rfl
  simp [snapshot, String.toList_intercalate, Function.comp_def, hbinding, Value.text]

/-! ## Reading -/

/-- The binding that a text writes: the name ends at the first equals sign. -/
def readBinding? (cs : List Char) : Option (String × Value) :=
  match cs.dropWhile (· != '=') with
  | [] => none
  | _ :: value =>
    (Value.ofChars? value).map fun v => (String.ofList (cs.takeWhile (· != '=')), v)

/-- The bindings that a text writes: entries between commas, in parentheses. -/
def readSnapshot? (text : String) : Option (List (String × Value)) :=
  let body := text.toList.tail.dropLast
  if body = [] then some [] else (body.splitOn ',').mapM readBinding?

/-- A lexeme of a name has word characters only, and neither of the separators is one. -/
theorem identifier_mem {cs : List Char} (h : Token.Lexeme .identifier cs) :
    ∀ c ∈ cs, c ≠ '=' ∧ c ≠ ',' := by
  cases h with
  | identifier hc hword =>
    intro c hmem
    refine ⟨?_, ?_⟩
    · rintro rfl
      exact absurd (hword _ hmem) (by decide)
    · rintro rfl
      exact absurd (hword _ hmem) (by decide)
  | symbol h => cases h

theorem Value.comma_notMem (v : Value) : ',' ∉ v.chars := by
  intro hmem
  exact absurd (v.mem_chars _ hmem) (by decide)

theorem readBinding?_bindingChars {pair : String × Value}
    (h : Token.Lexeme .identifier pair.1.toList) : readBinding? (bindingChars pair) = some pair := by
  have hname : ∀ c ∈ pair.1.toList, (c != '=') = true := fun c hc =>
    bne_iff_ne.mpr (identifier_mem h c hc).1
  have hequal : ∀ c, ('=' :: pair.2.chars).head? = some c → (c != '=') = false := by simp
  obtain ⟨hfront, hback⟩ := span_append hname hequal
  simp [readBinding?, bindingChars, hfront, hback, Value.ofChars?_chars]

theorem mapM_readBinding? {pairs : List (String × Value)}
    (h : ∀ pair ∈ pairs, Token.Lexeme .identifier pair.1.toList) :
    (pairs.map bindingChars).mapM readBinding? = some pairs := by
  induction pairs with
  | nil => rfl
  | cons pair pairs ih =>
    have hrest := ih fun p hp => h p (List.mem_cons_of_mem _ hp)
    simp [List.mapM_cons, readBinding?_bindingChars (h pair (by simp)), hrest]

/-- A snapshot of named values is read back. -/
theorem readSnapshot?_snapshot {pairs : List (String × Value)}
    (h : ∀ pair ∈ pairs, Token.Lexeme .identifier pair.1.toList) :
    readSnapshot? (snapshot pairs) = some pairs := by
  have hbody : (snapshot pairs).toList.tail.dropLast =
      [','].intercalate (pairs.map bindingChars) := by
    rw [snapshot_toList, List.tail_cons, List.dropLast_concat]
  rw [readSnapshot?, hbody]
  cases pairs with
  | nil => rfl
  | cons pair pairs =>
    have hcomma : ∀ entry ∈ (pair :: pairs).map bindingChars, ',' ∉ entry := by
      intro entry hbinding hmem
      obtain ⟨p, hp, rfl⟩ := List.mem_map.mp hbinding
      rcases List.mem_append.mp hmem with hname | hvalue
      · exact (identifier_mem (h p hp) _ hname).2 rfl
      · rcases List.mem_cons.mp hvalue with heq | hvalue
        · exact absurd heq (by decide)
        · exact p.2.comma_notMem hvalue
    have hne : [','].intercalate ((pair :: pairs).map bindingChars) ≠ [] := by
      cases pairs <;> simp [bindingChars, List.intercalate_cons_cons]
    rw [if_neg hne, List.splitOn_intercalate _ hcomma (by simp), mapM_readBinding? h]

/-- Snapshots of named values are equal only if the names, their order, and the kinds
and values are. -/
theorem snapshot_injective {left right : List (String × Value)}
    (hleft : ∀ pair ∈ left, Token.Lexeme .identifier pair.1.toList)
    (hright : ∀ pair ∈ right, Token.Lexeme .identifier pair.1.toList)
    (h : snapshot left = snapshot right) : left = right := by
  have hread := readSnapshot?_snapshot hleft
  rw [h, readSnapshot?_snapshot hright] at hread
  exact (Option.some.inj hread).symm

example :
    readSnapshot? "(x=-0.0,y=7,x=1e+16)" =
      some [("x", .float (.zero true)), ("y", .int 7), ("x", .float (.ofInt (10 ^ 16)))] := by
  decide +kernel

/-- The list and the bindings it is read from have one snapshot; the value of `b` is the
negative zero. -/
theorem snapshot_injective_rebound :
    [("a", .int 1), ("b", .float (.zero true))] =
      (Bindings.ofList [("a", .float .nan), ("b", .float (.zero true)), ("a", .int 1)]).entries := by
  have hname (name : String) (c : Char) (h : name.toList = [c]) (hc : c = 'a' ∨ c = 'b') :
      Token.Lexeme .identifier name.toList := by
    rw [h]
    rcases hc with rfl | rfl <;>
      exact .identifier (by decide) (List.forall_mem_singleton.mpr (by decide))
  have hnames : ∀ pair ∈ [("a", Value.int 1), ("b", .float (.zero true))],
      Token.Lexeme .identifier pair.1.toList := by
    simp only [List.forall_mem_cons]
    exact ⟨hname "a" 'a' rfl (.inl rfl), hname "b" 'b' rfl (.inr rfl), by simp⟩
  exact snapshot_injective hnames hnames rfl

end Reckoner
