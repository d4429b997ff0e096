import Reckoner.Proofs.Token.Following

/-! White space between tokens. Characters of a gap may be put in wherever no token has
its border inside: no token starts in them, and none in front of them goes on with them.
What is behind them moves by their number, and nothing else changes. -/
namespace Reckoner.Token

/-- The token at another place. -/
def relocate (place : Int → Int) (token : Token) : Token :=
  { token with position := place token.position }

theorem map_word_relocate (place : Int → Int) (tokens : List Token) :
    (tokens.map (relocate place)).map word = tokens.map word := by
  simp [Function.comp_def, relocate, word]

/-- Where a character stands once others have been put in front of the border, as many as
the width says. -/
def displaced (border width : Nat) (place : Int) : Int :=
  if place < border then place else place + width

theorem displaced_front {border : Nat} {place : Int} (h : place < border) (width : Nat) :
    displaced border width place = place :=
  if_pos h

theorem displaced_behind {border : Nat} {place : Int} (h : border ≤ place) (width : Nat) :
    displaced border width place = place + width :=
  if_neg (Int.not_lt.mpr h)

/-- No token has the border between two of its characters. -/
def Apart (border : Nat) (tokens : List Token) : Prop :=
  ∀ token ∈ tokens, token.stop ≤ border ∨ border ≤ token.position

variable {gap : List Char} {place : Nat} {cs : List Char} {tokens : List Token}

/-! ## A gap in front of a text -/

theorem Scanned.gaps (hgap : ∀ c ∈ gap, Character.isGap c = true)
    (h : Scanned (place + gap.length) cs tokens) : Scanned place (gap ++ cs) tokens := by
  induction gap generalizing place with
  | nil => exact h
  | cons c gap ih =>
    rw [place_cons] at h
    obtain ⟨hc, hgap⟩ := List.forall_mem_cons.mp hgap
    exact .gap hc (ih hgap h)

/-- A gap put in front of a text moves all its tokens. -/
theorem Scanned.behind_gap (hgap : ∀ c ∈ gap, Character.isGap c = true)
    (h : Scanned place cs tokens) :
    Scanned place (gap ++ cs) (tokens.map (relocate (displaced place gap.length))) := by
  have hmoved : tokens.map (relocate (displaced place gap.length)) =
      tokens.map (shift gap.length) := by
    have hplaces := (scanFrom_divides place cs tokens h.scanFrom).le_position
    refine List.map_congr_left fun token ht => ?_
    rw [relocate, displaced_behind (hplaces token ht), shift]
  have hshifted := scanFrom_add place gap.length cs
  rw [h.scanFrom] at hshifted
  rw [hmoved]
  exact .gaps hgap (scanFrom_eq_ok_iff.mp hshifted)

/-! ## A gap within a text -/

/-- A word is found as before if a gap is put in somewhere behind it. -/
theorem Found.insert {kind : Kind} {lexeme front behind : List Char} {stop : Int}
    (hgap : ∀ c ∈ gap, Character.isGap c = true)
    (h : Found kind lexeme (front ++ behind) stop) :
    Found kind lexeme (front ++ (gap ++ behind)) stop := by
  obtain ⟨hlexeme, hfault, hnext⟩ := found_iff.mp h
  refine found_iff.mpr ⟨hlexeme, hfault, fun c hc => ?_⟩
  cases front with
  | cons d front => exact hnext c hc
  | nil =>
    -- What stands behind the word now is in the gap, or as before if the gap is empty.
    cases gap with
    | nil => exact hnext c hc
    | cons d gap =>
      obtain rfl : d = c := Option.some.inj hc
      exact (endsToken_of_isGap (hgap d List.mem_cons_self)).not_goesOn hlexeme

/-- A word in front of the border ends there at the latest. -/
theorem split_at_border {lexeme cs front behind : List Char}
    (hsplit : lexeme ++ cs = front ++ behind) (hlength : lexeme.length ≤ front.length) :
    ∃ more, front = lexeme ++ more ∧ cs = more ++ behind := by
  rcases List.append_eq_append_iff.mp hsplit with h | ⟨more, rfl, rfl⟩
  · exact h
  · rw [List.length_append] at hlength
    obtain rfl : more = [] := List.length_eq_zero_iff.mp (by omega)
    exact ⟨[], by simp, rfl⟩

/-- A gap put in at a border between tokens moves those behind it. -/
theorem Scanned.insert (hgap : ∀ c ∈ gap, Character.isGap c = true)
    (h : Scanned place cs tokens) {front behind : List Char} {border : Nat}
    (hcs : cs = front ++ behind) (hborder : border = place + front.length)
    (hapart : Apart border tokens) :
    Scanned place (front ++ (gap ++ behind))
      (tokens.map (relocate (displaced border gap.length))) := by
  -- Induction along the scan, up to where the border is reached.
  induction h generalizing front with
  | nil place =>
    obtain ⟨rfl, rfl⟩ := List.append_eq_nil_iff.mp hcs.symm
    subst hborder
    exact (Scanned.nil _).behind_gap hgap
  | @gap place c cs tokens hc h ih =>
    cases front with
    | nil =>
      subst hborder hcs
      exact (Scanned.gap hc h).behind_gap hgap
    | cons d front =>
      obtain ⟨rfl, rfl⟩ := List.cons.inj hcs
      exact .gap hc (ih rfl (by rw [hborder, place_cons]) hapart)
  | @word place kind lexeme cs tokens hfound h ih =>
    cases front with
    | nil =>
      subst hborder hcs
      exact (Scanned.word hfound h).behind_gap hgap
    | cons d front =>
      have hlt : (place : Int) < border := by
        rw [hborder, List.length_cons]
        omega
      obtain ⟨hword, hrest⟩ := List.forall_mem_cons.mp hapart
      have hstop : lexeme.length ≤ (d :: front).length := by
        simp only [stop, String.length_ofList] at hword
        omega
      obtain ⟨more, hfront, rfl⟩ := split_at_border hcs hstop
      rw [hfront] at hborder ⊢
      rw [place_append] at hborder
      rw [List.append_assoc, List.map_cons, relocate, displaced_front hlt]
      exact .word (hfound.insert hgap) (ih rfl hborder hrest)

/-- A gap may be put in at any place of a line that is not inside a token. -/
theorem scan_insert {front gap behind : String} {tokens : List Token}
    (h : scan (front ++ behind) = .ok tokens) (hapart : Apart front.length tokens)
    (hgap : ∀ c ∈ gap.toList, Character.isGap c = true) :
    scan (front ++ gap ++ behind) =
      .ok (tokens.map (relocate (displaced front.length gap.length))) := by
  have hscanned := scanFrom_eq_ok_iff.mp h
  have hsplit : (front ++ behind).toList = front.toList ++ behind.toList := by simp
  have hwider : (front ++ gap ++ behind).toList =
      front.toList ++ (gap.toList ++ behind.toList) := by simp
  have hborder : front.length = 0 + front.toList.length := by
    rw [String.length_toList, Nat.zero_add]
  rw [scan, hwider, ← String.length_toList (s := gap)]
  exact (hscanned.insert hgap hsplit hborder hapart).scanFrom

end Reckoner.Token
