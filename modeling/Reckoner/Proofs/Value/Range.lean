import Mathlib.Algebra.Ring.Int.Defs
import Reckoner.Evaluation

/-! Integers of 64 bits. Every operation on values gives an integer of the
signed range: most of them because they wrap, the remainder because it is no
further from zero than its dividend. -/
namespace Reckoner

/-- An integer of the signed 64-bit range, or a float. -/
def Value.InRange : Value → Prop
  | .int n => -(2 ^ 63) ≤ n ∧ n ≤ 2 ^ 63 - 1
  | .float _ => True

@[simp] theorem Value.inRange_float (x : Binary64) : (Value.float x).InRange := trivial

theorem Value.inRange_int {n : Int} :
    (Value.int n).InRange ↔ -9223372036854775808 ≤ n ∧ n ≤ 9223372036854775807 := by
  simp [InRange]

theorem wrap_inRange (n : Int) : (Value.int (wrap n)).InRange := by
  have hle : -((wrapModulus : Int) / 2) ≤ wrap n := Int.le_bmod (by decide)
  have hlt : wrap n < ((wrapModulus : Int) + 1) / 2 := Int.bmod_lt (by decide)
  have hmodulus : (wrapModulus : Int) = 18446744073709551616 := by decide
  rw [hmodulus] at hle hlt
  rw [Value.inRange_int]
  omega

namespace Value

theorem wrap_of_inRange {n : Int} (h : (int n).InRange) : wrap n = n := by
  rw [inRange_int] at h
  have hmodulus : (wrapModulus : Int) = 18446744073709551616 := by decide
  exact Int.bmod_eq_of_le (by omega) (by omega)

/-! ## Operations -/

theorem combine_inRange (onInts : Int → Int → Int)
    (onFloats : Binary64 → Binary64 → Binary64) (a b : Value) :
    (combine onInts onFloats a b).InRange := by
  cases a with
  | float x => exact inRange_float _
  | int m =>
    cases b with
    | float y => exact inRange_float _
    | int n => exact wrap_inRange _

theorem negate_inRange (a : Value) : a.negate.InRange := by
  cases a with
  | int n => exact wrap_inRange _
  | float x => exact inRange_float _

theorem divide_inRange {a b v : Value} (h : a.divide b = .ok v) : v.InRange := by
  unfold divide at h
  split at h
  · cases h
  · cases h
    exact combine_inRange _ _ a b

/-- A remainder is between zero and its dividend. -/
theorem modulo_inRange {a b v : Value} (ha : a.InRange) (h : a.modulo b = .ok v) :
    v.InRange := by
  unfold modulo at h
  split at h
  · cases h
  · split at h
    · next m n hzero =>
      cases h
      rw [inRange_int] at ha ⊢
      -- No further from zero than the dividend, and on the same side of it: this
      -- rules out 2^63, which is as far from zero as the smallest integer.
      have hle : (m.tmod n).natAbs ≤ m.natAbs := by
        rw [Int.natAbs_tmod]
        exact Nat.mod_le _ _
      have hneg : 0 ≤ -m → 0 ≤ (-m).tmod n := Int.tmod_nonneg n
      rw [Int.neg_tmod] at hneg
      omega
    · cases h
      exact inRange_float _

theorem floatPower_inRange {a b v : Value} (h : a.floatPower b = .ok v) : v.InRange := by
  unfold floatPower at h
  split at h
  · cases h
  · split at h
    · cases h
      exact inRange_float _
    · cases h

theorem power_inRange {a b v : Value} (h : a.power b = .ok v) : v.InRange := by
  unfold power at h
  split at h
  · split at h
    · cases h
      exact wrap_inRange _
    · exact floatPower_inRange h
  · exact floatPower_inRange h

end Value

theorem BinaryOp.apply_inRange {op : BinaryOp} {a b v : Value} (ha : a.InRange)
    (h : op.apply a b = .ok v) : v.InRange := by
  cases op with
  | add | subtract | multiply =>
    cases h
    exact Value.combine_inRange _ _ a b
  | divide => exact Value.divide_inRange h
  | modulo => exact Value.modulo_inRange ha h
  | power => exact Value.power_inRange h

theorem Step.apply_inRange (step : Step) (v : Value) : (step.apply v).InRange := by
  cases step <;> exact Value.combine_inRange _ _ v (.int 1)

/-! ## Bindings -/

/-- Every bound integer is of the range. -/
def Bindings.InRange (bindings : Bindings) : Prop :=
  ∀ entry ∈ bindings.entries, entry.2.InRange

namespace Bindings

theorem mem_of_find? {name : String} {v : Value} {entries : List (String × Value)}
    (h : find? name entries = some v) : (name, v) ∈ entries := by
  induction entries with
  | nil => cases h
  | cons entry rest ih =>
    rw [find?] at h
    split at h
    · next hname =>
      cases h
      subst hname
      exact List.mem_cons_self
    · exact List.mem_cons_of_mem _ (ih h)

theorem mem_assign {name : String} {v : Value} {entries : List (String × Value)}
    {entry : String × Value} (h : entry ∈ assign name v entries) :
    entry.2 = v ∨ entry ∈ entries := by
  induction entries with
  | nil =>
    rw [assign, List.mem_singleton] at h
    exact .inl (by rw [h])
  | cons head rest ih =>
    rw [assign] at h
    split at h
    · rcases List.mem_cons.mp h with rfl | h
      · exact .inl rfl
      · exact .inr (List.mem_cons_of_mem _ h)
    · rcases List.mem_cons.mp h with rfl | h
      · exact .inr List.mem_cons_self
      · exact (ih h).imp_right (List.mem_cons_of_mem _)

theorem inRange_empty : empty.InRange := by
  intro entry h
  cases h

theorem InRange.get? {bindings : Bindings} (h : bindings.InRange) {name : String} {v : Value}
    (hv : bindings.get? name = some v) : v.InRange :=
  h (name, v) (mem_of_find? hv)

theorem InRange.set {bindings : Bindings} (h : bindings.InRange) (name : String) {v : Value}
    (hv : v.InRange) : (bindings.set name v).InRange := by
  intro entry hentry
  rcases mem_assign hentry with heq | hmem
  · rw [heq]
    exact hv
  · exact h entry hmem

end Bindings

end Reckoner
