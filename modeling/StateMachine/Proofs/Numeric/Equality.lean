import StateMachine.Proofs.Numeric.Scaling

/-!
Equality of doubles, exactly and with a tolerance. Both depend on the values only, which are those
of one double unless they are zeros (`FiniteDouble.eq_of_value_eq`). A number beyond one in
magnitude is close to no other number (`FiniteDouble.value_eq_of_closeTo`), since the doubles there
are at least a tolerance apart; every number up to one is close to another
(`FiniteDouble.exists_closeTo_ne`).
-/

set_option autoImplicit false

namespace StateMachine.Numeric

namespace FiniteDouble

variable {x y : FiniteDouble}

theorem sameValue_iff : x.sameValue y ↔ x.value = y.value := by
  rw [sameValue, beq_iff_eq]

theorem closeTo_congr (h : x.value = y.value) (z : FiniteDouble) :
    x.closeTo z = y.closeTo z := by
  rw [closeTo, closeTo, h]

theorem closeTo_comm (x y : FiniteDouble) : x.closeTo y = y.closeTo x := by
  have habs : (x.value - y.value).natAbs = (y.value - x.value).natAbs := by omega
  rw [closeTo, closeTo, habs]

theorem natAbs_value (x : FiniteDouble) : x.value.natAbs = x.units := by
  unfold value
  split <;> omega

/-- Numbers with the same value are the same unless they are zeros of different sign. -/
theorem eq_of_value_eq {x y : FiniteDouble} (hvalue : x.value = y.value)
    (hzero : x.isZero → x.negative = y.negative) : x = y := by
  have hunits : x.units = y.units := by
    rw [← natAbs_value x, ← natAbs_value y, hvalue]
  have hnegative : x.negative = y.negative := by
    by_cases hx : x.isZero
    · exact hzero hx
    · rw [isZero, beq_iff_eq] at hx
      unfold value at hvalue
      cases hxsign : x.negative <;> cases hysign : y.negative <;>
        simp only [hxsign, hysign, if_true, Bool.false_eq_true, if_false] at hvalue ⊢ <;> omega
  cases x
  cases y
  cases hunits
  cases hnegative
  rfl

theorem isZero_iff {x : FiniteDouble} : x.isZero ↔ x.value = 0 := by
  rw [isZero, beq_iff_eq, ← natAbs_value, Int.natAbs_eq_zero]

theorem isZero_congr {x y : FiniteDouble} (h : x.value = y.value) : x.isZero = y.isZero := by
  rw [Bool.eq_iff_iff, isZero_iff, isZero_iff, h]

end FiniteDouble

/-- Only finite doubles are equal in value without being one double. -/
theorem Double.sameValue_cases {x y : Double} (h : x.sameValue y) :
    x = y ∨ ∃ a b, x = .finite a ∧ y = .finite b ∧ a.value = b.value := by
  cases x <;> cases y <;> try cases h
  case finite.finite a b => exact Or.inr ⟨a, b, rfl, rfl, FiniteDouble.sameValue_iff.mp h⟩
  case infinite.infinite s t => exact Or.inl (congrArg infinite (eq_of_beq h))

/-! ### The tolerance -/

/-- The tolerance of equality, in units: `2 ^ -52`. -/
def tolerance : Nat := 2 ^ (1022 : Nat)

theorem exists_tolerance_eq : ∃ k, tolerance = 2 ^ (k + 1) :=
  ⟨1021, by decide +kernel⟩

theorem unitsPerOne_eq : unitsPerOne = 2 ^ (52 : Nat) * tolerance := by decide +kernel

namespace FiniteDouble

variable {x y : FiniteDouble}

theorem closeTo_iff :
    x.closeTo y ↔ roundToPrecision (x.value - y.value).natAbs 1 < tolerance := by
  rw [closeTo, tolerance, decide_eq_true_eq]

theorem distance_lt_of_closeTo (h : x.closeTo y) : (x.value - y.value).natAbs < tolerance := by
  obtain ⟨k, hk⟩ := exists_tolerance_eq
  rw [closeTo_iff, hk] at h
  rw [hk]
  by_contra hfar
  exact Nat.not_lt.mpr (two_pow_le_roundToPrecision (Nat.not_lt.mp hfar)) h

theorem closeTo_of_distance_le (h : 2 * (x.value - y.value).natAbs ≤ tolerance) :
    x.closeTo y := by
  obtain ⟨k, hk⟩ := exists_tolerance_eq
  rw [hk, Nat.pow_succ] at h
  rw [closeTo_iff, hk]
  calc roundToPrecision (x.value - y.value).natAbs 1
      ≤ 2 ^ k := roundToPrecision_le_two_pow (by omega)
    _ < 2 ^ (k + 1) := Nat.pow_lt_pow_succ (by decide)

/-- From one on, doubles are whole multiples of the tolerance. -/
theorem tolerance_dvd_units (h : unitsPerOne ≤ x.units) : tolerance ∣ x.units := by
  obtain ⟨k, hk⟩ := exists_tolerance_eq
  rw [unitsPerOne_eq, hk] at h
  rw [hk]
  exact x.significant.two_pow_dvd h

theorem tolerance_dvd_value (h : unitsPerOne ≤ x.units) : (tolerance : Int) ∣ x.value := by
  rw [← Int.natAbs_dvd_natAbs, natAbs_value, Int.natAbs_natCast]
  exact tolerance_dvd_units h

/-- A number beyond one in magnitude is close to no other number. -/
theorem value_eq_of_closeTo (hx : unitsPerOne < x.units) (h : x.closeTo y) :
    x.value = y.value := by
  have hdistance := distance_lt_of_closeTo h
  -- The numbers beyond one are a tolerance away from it, so both numbers are at least one.
  have hnext : tolerance ≤ x.units - unitsPerOne := by
    refine Nat.le_of_dvd (Nat.sub_pos_of_lt hx) (Nat.dvd_sub (tolerance_dvd_units hx.le) ?_)
    rw [unitsPerOne_eq]
    exact Nat.dvd_mul_left _ _
  have hy : unitsPerOne ≤ y.units := by
    have hxvalue := natAbs_value x
    have hyvalue := natAbs_value y
    omega
  have hdvd := Int.natAbs_dvd_natAbs.mpr
    (Int.dvd_sub (tolerance_dvd_value hx.le) (tolerance_dvd_value hy))
  rw [Int.natAbs_natCast] at hdvd
  have hzero := Nat.eq_zero_of_dvd_of_lt hdvd hdistance
  omega

/-- Every number up to one in magnitude is close to another number. -/
theorem exists_closeTo_ne (hx : x.units ≤ unitsPerOne) :
    ∃ y, x.closeTo y ∧ x.value ≠ y.value := by
  obtain ⟨k, hk⟩ := exists_tolerance_eq
  have hpower : 0 < 2 ^ k := Nat.two_pow_pos k
  rcases Nat.eq_zero_or_pos x.units with hzero | hpos
  · have hvalue : x.value = 0 := Int.natAbs_eq_zero.mp ((natAbs_value x).trans hzero)
    have hone : (1 : Nat) < unitsLimit := by decide +kernel
    let y : FiniteDouble := ⟨false, 1, hone, significant_of_lt (by decide)⟩
    have hy : y.value = 1 := rfl
    refine ⟨y, closeTo_of_distance_le ?_, by omega⟩
    omega
  · rw [unitsPerOne_eq, hk, Nat.pow_succ] at hx
    obtain ⟨units, hlt, hnear, hsignificant⟩ := exists_significant_lt (k := k) hpos (by omega)
    refine ⟨⟨x.negative, units, hlt.trans x.units_lt, hsignificant⟩, ?_, ?_⟩
    · refine closeTo_of_distance_le ?_
      simp only [value]
      split <;> omega
    · simp only [value]
      split <;> omega

end FiniteDouble

end StateMachine.Numeric
