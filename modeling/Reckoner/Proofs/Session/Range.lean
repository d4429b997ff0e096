import Reckoner.Proofs.Evaluation.Range
import Reckoner.Proofs.Session.Lines

/-! The range of integers along a session. A literal is checked when it is
scanned and every operation stays in the range, so no line, whether it succeeds
or fails half-way, brings an integer of more than 64 bits into the variables. -/
namespace Reckoner

/-- Every literal of a tree is what a number of its phrase denotes. -/
theorem Grammar.Derives.exists_number {level : Level} {tokens : List Token} {node : Node}
    (h : Derives level tokens node) :
    ∀ value ∈ node.literals, ∃ token ∈ tokens, token.kind = .number ∧
      Numeral.Denotes token.lexeme.toList value := by
  induction h with
  | sum _ _ _ ihl ihr | product _ _ _ ihl ihr | power _ _ _ ihl ihr =>
    intro value hmem
    rcases List.mem_append.mp hmem with hmem | hmem
    · obtain ⟨token, ht, hnumber⟩ := ihl value hmem
      exact ⟨token, List.mem_append_left _ ht, hnumber⟩
    · obtain ⟨token, ht, hnumber⟩ := ihr value hmem
      exact ⟨token, List.mem_append_right _ (List.mem_cons_of_mem _ ht), hnumber⟩
  | multiplicative _ ih | unary _ ih | stepped _ ih | primary _ ih => exact ih
  | prefixed _ _ ih =>
    intro value hmem
    obtain ⟨token, ht, hnumber⟩ := ih value hmem
    exact ⟨token, List.mem_cons_of_mem _ ht, hnumber⟩
  | step _ _ ih =>
    intro value hmem
    obtain ⟨token, ht, hnumber⟩ := ih value hmem
    exact ⟨token, List.mem_append_left _ ht, hnumber⟩
  | @number token _ hk hv =>
    intro value hmem
    obtain rfl := List.mem_singleton.mp hmem
    exact ⟨token, List.mem_singleton_self _, hk, hv⟩
  | name => exact fun _ hmem => absurd hmem List.not_mem_nil
  | parentheses _ _ _ ih =>
    intro value hmem
    obtain ⟨token, ht, hnumber⟩ := ih value hmem
    exact ⟨token, List.mem_append_left _ (List.mem_cons_of_mem _ ht), hnumber⟩

/-- The literals of a phrase are in the range if its numbers fit. -/
theorem Grammar.Derives.literalsInRange {level : Level} {tokens : List Token} {node : Node}
    (h : Derives level tokens node) (hfit : ∀ token ∈ tokens, Token.NumberFits token) :
    node.LiteralsInRange := by
  refine node.literalsInRange_of_forall fun value hmem => ?_
  obtain ⟨token, ht, hkind, hdenotes⟩ := h.exists_number value hmem
  exact (hfit token ht hkind).2 value hdenotes

theorem parseLine_literalsInRange {line : String} {a : Assignment}
    (h : parseLine line = .ok a) : a.expression.LiteralsInRange := by
  obtain ⟨tokens, -, hsentence, hfit⟩ := parseLine_sentence h
  cases hsentence with
  | intro _ _ hb _ =>
    rw [List.forall_mem_append, List.forall_mem_cons, List.forall_mem_cons] at hfit
    exact hb.literalsInRange hfit.1.2.2

/-- A line keeps the range, and its value is of the range. -/
theorem runLine_inRange (line : String) {bindings : Bindings} (hb : bindings.InRange) :
    (runLine line bindings).bindings.InRange ∧
      ∀ value, (runLine line bindings).outcome = .ok value → value.InRange := by
  cases hparse : parseLine line with
  | error fault =>
    obtain ⟨houtcome, hbindings⟩ := runLine_unparsed hparse bindings
    rw [houtcome, hbindings]
    exact ⟨hb, by rintro _ ⟨⟩⟩
  | ok a =>
    obtain ⟨houtcome, hbindings⟩ := runLine_parsed hparse bindings
    rw [houtcome, hbindings]
    obtain ⟨hafter, hvalue⟩ :=
      Assignment.execute_inRange (parseLine_literalsInRange hparse) hb
    refine ⟨hafter, fun value h => ?_⟩
    cases hrun : a.execute bindings with
    | error fault after =>
      rw [hrun] at h
      cases h
    | ok v after =>
      rw [hrun] at h
      cases h
      exact hvalue value after hrun

theorem bindingsAfter_inRange (lines : List String) : (bindingsAfter lines).InRange :=
  bindingsAfter_induction Bindings.inRange_empty
    (fun line _ hb => (runLine_inRange line hb).1) lines

/-- All along a session every bound integer is of the signed 64-bit range, and so
is every integer that a line gives or that the evaluation of a sub-expression
gives on the way, whether the line succeeds or not. -/
theorem session_inRange (earlier : List String) (line : String) :
    (bindingsAfter earlier).InRange ∧ (bindingsAfter (earlier ++ [line])).InRange ∧
      (∀ value, (runLine line (bindingsAfter earlier)).outcome = .ok value → value.InRange) ∧
      ∀ a, parseLine line = .ok a → ∀ sub before,
        a.Reaches (bindingsAfter earlier) sub before →
          before.InRange ∧ (Evaluation.after (sub.evaluate before)).InRange ∧
            ∀ value after, sub.evaluate before = .ok value after → value.InRange := by
  have hearlier := bindingsAfter_inRange earlier
  refine ⟨hearlier, bindingsAfter_inRange _, (runLine_inRange line hearlier).2, ?_⟩
  intro a hparse sub before hreach
  obtain ⟨hsub, hbefore⟩ := hreach.2.inRange (parseLine_literalsInRange hparse) hearlier
  exact ⟨hbefore, sub.after_inRange hbefore,
    fun value after h => Node.evaluate_inRange hsub hbefore h⟩

end Reckoner
