import Mathlib.Algebra.Order.Ring.Nat
import Mathlib.Data.List.Induction
import Mathlib.Tactic.Ring
import Reckoner.Decimal

/-! The number that a list of digits denotes. Digits behind it count less, by the place
that each takes; zeros in front of it count nothing. -/
namespace Reckoner.Decimal

theorem ofDigits_concat (ds : List Nat) (d : Nat) :
    ofDigits (ds ++ [d]) = 10 * ofDigits ds + d := by
  simp [ofDigits]

/-- Digits move up by one place for each digit that follows them. -/
theorem ofDigits_append (ds es : List Nat) :
    ofDigits (ds ++ es) = ofDigits ds * 10 ^ es.length + ofDigits es := by
  induction es using List.reverseRecOn with
  | nil => simp [ofDigits]
  | append_singleton es e ih =>
    rw [← List.append_assoc, ofDigits_concat, ih, ofDigits_concat, List.length_append,
      List.length_singleton, pow_succ]
    ring

theorem ofDigits_cons (d : Nat) (ds : List Nat) :
    ofDigits (d :: ds) = d * 10 ^ ds.length + ofDigits ds := by
  have hone : ofDigits [d] = d := by simp [ofDigits]
  rw [← List.singleton_append, ofDigits_append, hone]

theorem ofDigits_zero_cons (ds : List Nat) : ofDigits (0 :: ds) = ofDigits ds := by
  rw [ofDigits_cons, zero_mul, zero_add]

/-- Behind a first digit other than zero every digit makes the number ten times larger. -/
theorem pow_length_le_ofDigits {d : Nat} (hd : d ≠ 0) (ds : List Nat) :
    10 ^ ds.length ≤ ofDigits (d :: ds) := by
  rw [ofDigits_cons]
  exact (Nat.le_mul_of_pos_left _ (Nat.pos_of_ne_zero hd)).trans (Nat.le_add_right _ _)

end Reckoner.Decimal
