import Reckoner.Proofs.Binary64.Power
import Reckoner.Proofs.Checked.Arithmetic

/-! Powers of finite operands. There are four outcomes, and conditions on the operands that
decide one after the other: integers, the inverse of zero, a power that is no finite real
number, and for all others a finite float. -/
namespace Reckoner.Value

open Binary64 (IsPower IsUndefinedPower rankLimit)

/-- An integer of the signed 64-bit range, or a finite float. -/
def IsFinite : Value → Prop
  | .int n => (int n).InRange
  | .float x => x.isFinite = true

/-- Two integers, and the exponent is not below zero. -/
def IsIntegerPower (a b : Value) : Prop :=
  ∃ m n : Int, a = .int m ∧ b = .int n ∧ 0 ≤ n

/-- Zero, of either kind and sign, to a power below zero. -/
def IsInverseOfZero (a b : Value) : Prop :=
  a.isZero = true ∧ b.isNegative = true

variable {a b : Value}

/-! ## Promotion -/

theorem IsFinite.inRange (h : a.IsFinite) : a.InRange := by
  cases a with
  | int n => exact h
  | float x => exact inRange_float x

theorem IsFinite.exists_finite (h : a.IsFinite) :
    ∃ negative rank, a.toBinary64 = .finite negative rank := by
  have hfinite : a.toBinary64.isFinite = true := by
    cases a with
    | int n => exact Binary64.ofInt_isFinite (Checked.natAbs_le_of_inRange h)
    | float x => exact h
  cases hvalue : a.toBinary64 with
  | finite negative rank => exact ⟨negative, rank, rfl⟩
  | nan | infinite => rw [hvalue] at hfinite; cases hfinite

theorem isNegative_toBinary64 (a : Value) : a.toBinary64.isNegative = a.isNegative := by
  cases a with
  | int n => exact Binary64.ofInt_isNegative n
  | float x => rfl

/-! ## The outcomes -/

theorem power_of_integers (h : IsIntegerPower a b) : ∃ n, a.power b = .ok (.int n) := by
  obtain ⟨m, n, rfl, rfl, hn⟩ := h
  exact ⟨_, if_pos hn⟩

theorem power_of_floats (h : ¬ IsIntegerPower a b) : a.power b = a.floatPower b := by
  cases a with
  | float x => rfl
  | int m =>
    cases b with
    | float y => rfl
    | int n => exact if_neg fun hn => h ⟨m, n, rfl, rfl, hn⟩

theorem floatPower_inverse (h : IsInverseOfZero a b) : a.floatPower b = .error .divisionByZero := by
  rw [floatPower, if_pos (Bool.and_eq_true_iff.mpr h)]

/-- The power of the promoted operands is the one that it should be. -/
theorem isPower_of_finite (ha : a.IsFinite) (hb : b.IsFinite) (h : ¬ IsInverseOfZero a b) :
    IsPower a.toBinary64 b.toBinary64 (a.toBinary64.power? b.toBinary64) := by
  rw [IsInverseOfZero, ← Checked.isZero_toBinary64, ← isNegative_toBinary64] at h
  obtain ⟨s, i, hx⟩ := ha.exists_finite
  obtain ⟨t, j, hy⟩ := hb.exists_finite
  rw [hx, hy] at h ⊢
  refine Binary64.power?_isPower fun ⟨hi, ht, hj⟩ => h ⟨beq_iff_eq.mpr hi, ?_⟩
  rw [Binary64.isNegative, ht, Bool.true_and]
  exact bne_iff_ne.mpr hj

theorem floatPower_undefined (ha : a.IsFinite) (hb : b.IsFinite) (hinverse : ¬ IsInverseOfZero a b)
    (h : IsUndefinedPower a.toBinary64 b.toBinary64) :
    a.floatPower b = .error (.undefinedPower a b) := by
  have hpower := isPower_of_finite ha hb hinverse
  rw [floatPower, if_neg (mt Bool.and_eq_true_iff.mp hinverse)]
  cases hresult : a.toBinary64.power? b.toBinary64 with
  | none => rfl
  | some z =>
    rw [hresult] at hpower
    exact absurd h hpower.1

theorem floatPower_defined (ha : a.IsFinite) (hb : b.IsFinite) (hinverse : ¬ IsInverseOfZero a b)
    (h : ¬ IsUndefinedPower a.toBinary64 b.toBinary64) :
    ∃ negative rank, a.floatPower b = .ok (.float (.finite negative rank)) := by
  have hpower := isPower_of_finite ha hb hinverse
  rw [floatPower, if_neg (mt Bool.and_eq_true_iff.mp hinverse)]
  cases hresult : a.toBinary64.power? b.toBinary64 with
  | none =>
    rw [hresult] at hpower
    exact absurd hpower h
  | some z =>
    rw [hresult] at hpower
    obtain ⟨-, negative, rank, rfl, -⟩ := hpower
    exact ⟨negative, rank, rfl⟩

/-- Of finite operands the power is an integer exactly for integers with an exponent that is
not below zero. Else it is a division by zero exactly for the inverse of zero. Else it is
undefined, with the operands as they were given, exactly if the promoted base is below zero and
the promoted exponent is no integer, or if the exact power is rounded to infinity. Else it is a
finite float. The operator that checks each conversion and each result has the same outcome. -/
theorem power_outcome (ha : a.IsFinite) (hb : b.IsFinite) :
    ((∃ n, a.power b = .ok (.int n)) ↔ IsIntegerPower a b) ∧
      (a.power b = .error .divisionByZero ↔ ¬ IsIntegerPower a b ∧ IsInverseOfZero a b) ∧
      (a.power b = .error (.undefinedPower a b) ↔
        ¬ IsIntegerPower a b ∧ ¬ IsInverseOfZero a b ∧
          IsUndefinedPower a.toBinary64 b.toBinary64) ∧
      ((∃ x : Binary64, a.power b = .ok (.float x) ∧ x.isFinite = true) ↔
        ¬ IsIntegerPower a b ∧ ¬ IsInverseOfZero a b ∧
          ¬ IsUndefinedPower a.toBinary64 b.toBinary64) ∧
      Checked.power a b = Checked.answer EvalFault.diagnostic (a.power b) := by
  have hchecked := Checked.power_eq ha.inRange hb.inRange
  by_cases hinteger : IsIntegerPower a b
  · obtain ⟨n, hn⟩ := power_of_integers hinteger
    simp [hn, hinteger, hchecked]
  rw [power_of_floats hinteger] at hchecked ⊢
  by_cases hinverse : IsInverseOfZero a b
  · simp [floatPower_inverse hinverse, hinteger, hinverse, hchecked]
  by_cases hundefined : IsUndefinedPower a.toBinary64 b.toBinary64
  · simp [floatPower_undefined ha hb hinverse hundefined, hinteger, hinverse, hundefined, hchecked]
  · obtain ⟨negative, rank, hpower⟩ := floatPower_defined ha hb hinverse hundefined
    simp [hpower, hinteger, hinverse, hundefined, hchecked, Binary64.isFinite]

/-- The number minus eight has no real square root. -/
theorem power_outcome_root :
    let half : Binary64 := .finite false ⟨1022 <<< 52, by decide⟩
    (int (-8)).IsFinite ∧ (float half).IsFinite ∧
      (int (-8)).power (.float half) = .error (.undefinedPower (.int (-8)) (.float half)) := by
  intro half
  have hbase : (int (-8)).IsFinite := inRange_int.mpr (by decide)
  have hexponent : (float half).IsFinite := rfl
  refine ⟨hbase, hexponent, (power_outcome hbase hexponent).2.2.1.mpr ⟨?_, ?_, .inl ⟨?_, ?_⟩⟩⟩
  · rintro ⟨m, n, -, hfloat, -⟩
    cases hfloat
  · exact fun h => absurd h.1 (by decide)
  · have hpromoted : (int (-8)).toBinary64 = .finite true ⟨1026 <<< 52, by decide⟩ := by
      decide +kernel
    rw [hpromoted, Binary64.toRat, if_pos rfl]
    exact neg_neg_of_pos (Binary64.magnitude_pos (by decide))
  · rw [toBinary64, Binary64.isInteger_iff]
    decide +kernel

end Reckoner.Value
