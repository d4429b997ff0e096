import Mathlib.Order.Bounds.Defs
import Reckoner.Proofs.Grammar.Automaton

/-! The first token that cannot be part of a statement. Every state of the automaton
can still be brought to the end of a statement, however deep it is in parentheses, so
the tokens in front of a fault are the beginning of some statement. No statement
begins with the faulty token behind them, since the way of the automaton depends on
nothing but the kinds of the tokens. -/
namespace Reckoner.Grammar

open Automaton

/-! ## Beginnings -/

/-- The end of the line is among the tokens, and those before it form a statement. -/
def Accepted (tokens : List Token) : Prop :=
  Ended tokens ∧ ∃ a, statement tokens = .ok a

/-- Some accepted tokens begin with tokens of these kinds. -/
def Viable (kinds : List Token.Kind) : Prop :=
  ∃ tokens, Accepted tokens ∧ kinds <+: tokens.map Token.kind

theorem Accepted.run_start_eq {tokens : List Token} (h : Accepted tokens) :
    run .start tokens = some .accepted := by
  obtain ⟨hended, a, ha⟩ := h
  rcases run_start_or hended with ⟨fault, hfault, -⟩ | hrun
  · cases ha.symm.trans hfault
  · rw [hrun, ha]
    rfl

theorem Readable.accepted {tokens : List Token} (hr : Readable tokens)
    (h : run .start tokens = some .accepted) : Accepted tokens := by
  refine ⟨hr.ended, ?_⟩
  have hverdict := Option.some.inj ((run_start hr).symm.trans h)
  cases hstatement : statement tokens with
  | error fault =>
    rw [hstatement] at hverdict
    cases hverdict
  | ok a => exact ⟨a, rfl⟩

namespace Automaton

/-! ## The way through some tokens -/

/-- The state behind tokens of the kinds, if the automaton goes past them all. -/
def after? : State → List Token.Kind → Option State
  | state, [] => some state
  | state, kind :: kinds =>
    match move state kind with
    | .go next => after? next kinds
    | .accept | .reject _ => none

theorem after?_cons {state next : State} {kind : Token.Kind} (h : move state kind = .go next)
    (kinds : List Token.Kind) : after? state (kind :: kinds) = after? next kinds := by
  rw [after?, h]

/-- Tokens of the same kinds are gone past in the same way. -/
theorem run_append {state last : State} {front : List Token}
    (h : after? state (front.map Token.kind) = some last) (rest : List Token) :
    run state (front ++ rest) = run last rest := by
  induction front generalizing state with
  | nil =>
    cases h
    rfl
  | cons token front ih =>
    rw [List.map_cons, after?] at h
    split at h
    · next next hmove =>
      rw [List.cons_append, run_go hmove]
      exact ih h
    · cases h
    · cases h

/-- The automaton goes past no end of the line. -/
theorem after?_ne_endOfLine {state last : State} {kinds : List Token.Kind}
    (h : after? state kinds = some last) : ∀ kind ∈ kinds, kind ≠ .endOfLine := by
  induction kinds generalizing state with
  | nil => simp
  | cons kind kinds ih =>
    rw [after?] at h
    split at h
    · next next hmove =>
      refine List.forall_mem_cons.mpr ⟨?_, ih h⟩
      rintro rfl
      exact move_endOfLine state next hmove
    · cases h
    · cases h

/-- Where the automaton rejects tokens, it has gone past those in front of the one
that it stops at. -/
theorem run_eq_rejected {state : State} {tokens : List Token} {code : Code} {position : Int}
    (h : run state tokens = some (.rejected code position)) :
    ∃ front token behind last, tokens = front ++ token :: behind ∧
      after? state (front.map Token.kind) = some last ∧
      move last token.kind = .reject code ∧ token.position = position := by
  induction tokens generalizing state with
  | nil => cases h
  | cons token rest ih =>
    cases hmove : move state token.kind with
    | go next =>
      rw [run_go hmove] at h
      obtain ⟨front, stop, behind, last, rfl, hafter, hstop, hposition⟩ := ih h
      exact ⟨token :: front, stop, behind, last, rfl, (after?_cons hmove _).trans hafter,
        hstop, hposition⟩
    | accept =>
      rw [run_accept hmove] at h
      cases h
    | reject other =>
      rw [run_reject hmove] at h
      cases h
      exact ⟨[], token, rest, state, rfl, rfl, hmove, rfl⟩

/-! ## A way to the end -/

/-- Closing parentheses for all that are open, and the end of the line. -/
def close (depth : Nat) : List Token :=
  List.replicate depth ⟨.rightParen, ")", 0⟩ ++ [⟨.endOfLine, "", 0⟩]

/-- An operand, with what `close` adds to it. -/
def finish (depth : Nat) : List Token :=
  ⟨.number, "0", 0⟩ :: close depth

/-- Tokens that lead from the state to the end of a statement. -/
def completion : State → List Token
  | .start => ⟨.identifier, "x", 0⟩ :: ⟨.equal, "=", 0⟩ :: finish 0
  | .afterName => ⟨.equal, "=", 0⟩ :: finish 0
  | .operand depth => finish depth
  | .afterPrimary depth | .afterPostfix depth => close depth

theorem run_close_afterPrimary (depth : Nat) :
    run (.afterPrimary depth) (close depth) = some .accepted := by
  induction depth with
  | zero => rfl
  | succ depth ih =>
    have hmove : move (.afterPrimary (depth + 1)) .rightParen = .go (.afterPrimary depth) := rfl
    rw [close, List.replicate_succ, List.cons_append]
    exact (run_go hmove _).trans ih

theorem run_close_afterPostfix (depth : Nat) :
    run (.afterPostfix depth) (close depth) = some .accepted := by
  have hnext : step? (nextKind (close depth)) = none := by
    cases depth <;> rfl
  rw [← run_afterPrimary hnext]
  exact run_close_afterPrimary depth

theorem run_finish (depth : Nat) : run (.operand depth) (finish depth) = some .accepted := by
  have hmove : move (.operand depth) .number = .go (.afterPrimary depth) := rfl
  exact (run_go hmove _).trans (run_close_afterPrimary depth)

/-- No state is a dead end. -/
theorem run_completion (state : State) : run state (completion state) = some .accepted := by
  cases state with
  | start =>
    have hname : move .start .identifier = .go .afterName := rfl
    have hassign : move .afterName .equal = .go (.operand 0) := rfl
    exact (run_go hname _).trans ((run_go hassign _).trans (run_finish 0))
  | afterName =>
    have hassign : move .afterName .equal = .go (.operand 0) := rfl
    exact (run_go hassign _).trans (run_finish 0)
  | operand depth => exact run_finish depth
  | afterPrimary depth => exact run_close_afterPrimary depth
  | afterPostfix depth => exact run_close_afterPostfix depth

theorem mem_close {depth : Nat} {token : Token} (h : token ∈ close depth) :
    token = ⟨.rightParen, ")", 0⟩ ∨ token = ⟨.endOfLine, "", 0⟩ := by
  rw [close, List.mem_append, List.mem_singleton] at h
  exact h.imp_left List.eq_of_mem_replicate

/-- A completion ends the line at its last token and nowhere else. -/
theorem terminated_completion (state : State) : Terminated (completion state) := by
  have hclose (depth : Nat) (front : List Token)
      (hfront : ∀ token ∈ front, token.kind ≠ .endOfLine) : Terminated (front ++ close depth) := by
    refine ⟨front ++ List.replicate depth ⟨.rightParen, ")", 0⟩, ⟨.endOfLine, "", 0⟩, ?_, rfl, ?_⟩
    · rw [close, List.append_assoc]
    · refine List.forall_mem_append.mpr ⟨hfront, fun token ht => ?_⟩
      rw [List.eq_of_mem_replicate ht]
      decide
  cases state with
  | start =>
    exact hclose 0 [⟨.identifier, "x", 0⟩, ⟨.equal, "=", 0⟩, ⟨.number, "0", 0⟩] (by decide)
  | afterName => exact hclose 0 [⟨.equal, "=", 0⟩, ⟨.number, "0", 0⟩] (by decide)
  | operand depth => exact hclose depth [⟨.number, "0", 0⟩] (by decide)
  | afterPrimary depth | afterPostfix depth => exact hclose depth [] (by simp)

/-- The only number of a completion is the zero. -/
theorem numberOf_completion {state : State} {token : Token} (ht : token ∈ completion state)
    (hk : token.kind = .number) : numberOf token = .ok (.int 0) := by
  have hzero : numberOf ⟨.number, "0", 0⟩ = .ok (.int 0) := by decide +kernel
  have hclose {depth : Nat} (h : token ∈ close depth) : False := by
    rcases mem_close h with rfl | rfl <;> cases hk
  have hfinish {depth : Nat} (h : token ∈ finish depth) : token = ⟨.number, "0", 0⟩ :=
    (List.mem_cons.mp h).resolve_right hclose
  cases state with
  | start =>
    rcases List.mem_cons.mp ht with rfl | ht
    · cases hk
    · rcases List.mem_cons.mp ht with rfl | ht
      · cases hk
      · rw [hfinish ht, hzero]
  | afterName =>
    rcases List.mem_cons.mp ht with rfl | ht
    · cases hk
    · rw [hfinish ht, hzero]
  | operand depth => rw [hfinish ht, hzero]
  | afterPrimary depth | afterPostfix depth => exact (hclose ht).elim

end Automaton

/-! ## The place of a fault -/

/-- Tokens that the automaton goes past, followed by a completion of the state that it
reaches, are accepted. -/
theorem accepted_append_completion {front : List Token} {last : State}
    (hafter : after? .start (front.map Token.kind) = some last)
    (hnumbers : ∀ token ∈ front, token.kind = .number → ∃ value, numberOf token = .ok value) :
    Terminated (front ++ completion last) ∧ Accepted (front ++ completion last) := by
  have hfront : ∀ token ∈ front, token.kind ≠ .endOfLine :=
    fun token ht => after?_ne_endOfLine hafter _ (List.mem_map_of_mem ht)
  obtain ⟨body, stop, hbody, hstop, hplain⟩ := terminated_completion last
  have hended : Ended (front ++ completion last) :=
    ⟨stop, by simp [hbody], hstop⟩
  have hvalues : ∀ token ∈ front ++ completion last, token.kind = .number →
      ∃ value, numberOf token = .ok value :=
    List.forall_mem_append.mpr ⟨hnumbers, fun token ht hk => ⟨_, numberOf_completion ht hk⟩⟩
  have hrun : run .start (front ++ completion last) = some .accepted :=
    (run_append hafter _).trans (run_completion last)
  refine ⟨⟨front ++ body, stop, ?_, hstop, ?_⟩, Readable.accepted ⟨hended, hvalues⟩ hrun⟩
  · rw [hbody, List.append_assoc]
  · exact List.forall_mem_append.mpr ⟨hfront, hplain⟩

/-- No accepted tokens begin with tokens that the automaton goes past and one that it
then stops at. -/
theorem not_viable_of_reject {kinds : List Token.Kind} {kind : Token.Kind} {last : State}
    {code : Code} (hafter : after? .start kinds = some last)
    (hreject : move last kind = .reject code) : ¬ Viable (kinds ++ [kind]) := by
  rintro ⟨tokens, haccepted, hstarts⟩
  obtain ⟨behind, hbehind⟩ := hstarts
  obtain ⟨all, rest, rfl, hall, -⟩ := List.map_eq_append_iff.mp hbehind.symm
  obtain ⟨front, single, rfl, hfront, hsingle⟩ := List.map_eq_append_iff.mp hall
  obtain ⟨token, rfl, htoken⟩ := List.map_eq_singleton_iff.mp hsingle
  have hrun := haccepted.run_start_eq
  rw [← hfront] at hafter
  rw [← htoken] at hreject
  rw [List.append_assoc, run_append hafter, List.singleton_append, run_reject hreject] at hrun
  cases hrun

/-- Rejected tokens, the end of the line last, have their fault at the first token that
makes their beginning one of no statement: the token with the least place `k` for which
no accepted tokens begin with tokens of the kinds up to and with it. The tokens in front
of it can be continued to accepted ones. -/
theorem statement_fault_at_first_not_viable {tokens : List Token} {fault : ParseFault}
    (hend : Terminated tokens)
    (hnumbers : ∀ token ∈ tokens, token.kind = .number → ∃ value, numberOf token = .ok value)
    (h : statement tokens = .error fault) :
    ∃ (k : Nat) (hk : k < tokens.length),
      IsLeast {i | ¬ Viable ((tokens.take (i + 1)).map Token.kind)} k ∧
        fault.position = tokens[k].position ∧
        ∃ more, Terminated (tokens.take k ++ more) ∧ Accepted (tokens.take k ++ more) := by
  have hended : Ended tokens := by
    obtain ⟨front, stop, rfl, hstop, -⟩ := hend
    exact ⟨stop, by simp, hstop⟩
  have hrun : run .start tokens = some (rejection fault) := by
    rw [run_start ⟨hended, hnumbers⟩, h]
    rfl
  obtain ⟨front, token, behind, last, rfl, hafter, hreject, hposition⟩ := run_eq_rejected hrun
  have hfront : ∀ token ∈ front, token.kind = .number → ∃ value, numberOf token = .ok value :=
    fun token ht => hnumbers token (List.mem_append_left _ ht)
  obtain ⟨hterminated, haccepted⟩ := accepted_append_completion hafter hfront
  refine ⟨front.length, by simp, ⟨?_, fun i hi => ?_⟩, ?_, completion last, ?_⟩
  · have htake : (front ++ token :: behind).take (front.length + 1) = front ++ [token] := by
      rw [List.take_length_add_append, List.take_succ_cons, List.take_zero]
    show ¬ Viable _
    rw [htake, List.map_append]
    exact not_viable_of_reject hafter hreject
  · -- What is shorter than the front is a beginning of the completed front.
    by_contra hlt
    rw [not_le] at hlt
    refine hi ⟨front ++ completion last, haccepted, ?_⟩
    rw [List.take_append_of_le_length hlt]
    exact ((List.take_prefix _ front).trans (List.prefix_append front _)).map _
  · simp [hposition]
  · rw [List.take_left]
    exact ⟨hterminated, haccepted⟩

/-- In `x = (a + ) 2` the parenthesis cannot follow the sign. -/
theorem statement_fault_at_first_not_viable_operand :
    let tokens : List Token :=
      [⟨.identifier, "x", 0⟩, ⟨.equal, "=", 2⟩, ⟨.leftParen, "(", 4⟩, ⟨.identifier, "a", 5⟩,
        ⟨.plus, "+", 7⟩, ⟨.rightParen, ")", 9⟩, ⟨.number, "2", 11⟩, ⟨.endOfLine, "", 12⟩]
    Terminated tokens ∧
      (∀ token ∈ tokens, token.kind = .number → ∃ value, numberOf token = .ok value) ∧
      statement tokens = .error ⟨.expression, 9⟩ ∧
      ∃ (k : Nat) (hk : k < tokens.length),
        IsLeast {i | ¬ Viable ((tokens.take (i + 1)).map Token.kind)} k ∧
          9 = tokens[k].position ∧
          ∃ more, Terminated (tokens.take k ++ more) ∧ Accepted (tokens.take k ++ more) := by
  intro tokens
  have hend : Terminated tokens :=
    ⟨tokens.dropLast, ⟨.endOfLine, "", 12⟩, rfl, rfl, by decide⟩
  have hnumbers : ∀ token ∈ tokens, token.kind = .number →
      ∃ value, numberOf token = .ok value := by
    intro token ht hk
    obtain rfl : token = ⟨.number, "2", 11⟩ := by
      revert token
      decide
    exact ⟨.int 2, by decide +kernel⟩
  have hfault : statement tokens = .error ⟨.expression, 9⟩ := by decide +kernel
  exact ⟨hend, hnumbers, hfault, statement_fault_at_first_not_viable hend hnumbers hfault⟩

end Reckoner.Grammar
