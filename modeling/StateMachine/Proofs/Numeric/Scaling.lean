import Mathlib.Tactic.Ring
import StateMachine.Numeric.Double

/-!
What rounding does not see. A factor common to a numerator and its denominator does not change the
rounded quotient, so a decimal denotes the same double however many of its zeros are counted among
its digits (`ofDecimal_mul_pow`). A quotient that is itself a double is that double
(`ofQuotient_mul_self`). No double is passed in rounding (`roundToPrecision_le`,
`le_roundToPrecision`), so integers of 64 bits stay finite (`exists_ofInt`).
-/

set_option autoImplicit false

namespace StateMachine.Numeric

/-! ### Common factors -/

theorem nearest_mul_mul {factor : Nat} (h : 0 < factor) (numerator denominator : Nat) :
    nearest (numerator * factor) (denominator * factor) = nearest numerator denominator := by
  have hbelow : 2 * (numerator % denominator * factor) < denominator * factor ↔
      2 * (numerator % denominator) < denominator := by
    rw [← Nat.mul_assoc]
    exact Nat.mul_lt_mul_right h
  have habove : denominator * factor < 2 * (numerator % denominator * factor) ↔
      denominator < 2 * (numerator % denominator) := by
    rw [← Nat.mul_assoc]
    exact Nat.mul_lt_mul_right h
  simp only [nearest, Nat.mul_div_mul_right _ _ h, Nat.mul_mod_mul_right, hbelow, habove]

theorem roundToPrecision_mul_mul {factor : Nat} (h : 0 < factor) (numerator denominator : Nat) :
    roundToPrecision (numerator * factor) (denominator * factor) =
      roundToPrecision numerator denominator := by
  simp only [roundToPrecision, Nat.mul_div_mul_right _ _ h]
  rw [Nat.mul_right_comm, nearest_mul_mul h]

/-- A quotient that is a whole number of at most 53 significant digits is its own rounding. -/
theorem roundToPrecision_mul_self {n denominator : Nat} (hn : Significant n)
    (h : 0 < denominator) : roundToPrecision (n * denominator) denominator = n := by
  have hscaled := roundToPrecision_mul_mul h n 1
  rw [Nat.one_mul] at hscaled
  rw [hscaled, roundToPrecision_of_significant hn]

namespace Double

theorem ofQuotient_mul_mul {factor : Nat} (h : 0 < factor) (negative : Bool)
    (numerator denominator : Nat) :
    ofQuotient negative (numerator * factor) (denominator * factor) =
      ofQuotient negative numerator denominator := by
  simp only [ofQuotient, roundToPrecision_mul_mul h]

theorem ofQuotient_mul_self (x : FiniteDouble) {denominator : Nat} (h : 0 < denominator) :
    ofQuotient x.negative (x.units * denominator) denominator = .finite x := by
  have hround := roundToPrecision_mul_self x.significant h
  simp only [ofQuotient, hround, x.units_lt, dite_true]

end Double

/-! ### The size of a rounded number -/

theorem le_nearest (numerator denominator : Nat) :
    numerator / denominator ≤ nearest numerator denominator := by
  simp only [nearest]
  split
  · omega
  · split
    · omega
    · split <;> omega

theorem significant_two_pow (k : Nat) : Significant (2 ^ k) := by
  have hone := significant_mul_two_pow (n := 1) (by decide) k
  rwa [Nat.one_mul] at hone

/-- A number of `k + 53` digits or more is a multiple of `2 ^ k` if at most 53 of them count. -/
theorem Significant.two_pow_dvd {n k : Nat} (h : Significant n) (hle : 2 ^ (52 : Nat) * 2 ^ k ≤ n) :
    2 ^ k ∣ n := by
  rw [← Nat.pow_add] at hle
  have hpos : 0 < n := Nat.lt_of_lt_of_le (Nat.two_pow_pos _) hle
  have hlog : 52 + k ≤ n.log2 := (Nat.le_log2 (Nat.pos_iff_ne_zero.mp hpos)).mpr hle
  exact Nat.dvd_trans (Nat.pow_dvd_pow 2 (by omega)) h

/-- Below a number there is one of at most 53 significant digits, not far away. -/
theorem exists_significant_lt {n k : Nat} (hpos : 0 < n) (h : n ≤ 2 ^ (53 : Nat) * 2 ^ k) :
    ∃ m, m < n ∧ n ≤ m + 2 ^ k ∧ Significant m := by
  have hquotient : (n - 1) / 2 ^ k < 2 ^ (53 : Nat) :=
    Nat.div_lt_of_lt_mul (by rw [Nat.mul_comm]; omega)
  have hmul := Nat.div_mul_le_self (n - 1) (2 ^ k)
  have hnext := Nat.lt_div_mul_add (a := n - 1) (Nat.two_pow_pos k)
  exact ⟨(n - 1) / 2 ^ k * 2 ^ k, by omega, by omega,
    significant_mul_two_pow (Nat.le_of_lt hquotient) k⟩

theorem log2_le_log2 {m n : Nat} (h : m ≤ n) : m.log2 ≤ n.log2 := by
  rcases Nat.eq_zero_or_pos m with rfl | hpos
  · rw [Nat.log2_zero]
    exact Nat.zero_le _
  · have hm : m ≠ 0 := Nat.pos_iff_ne_zero.mp hpos
    rw [Nat.le_log2 (Nat.pos_iff_ne_zero.mp (Nat.lt_of_lt_of_le hpos h))]
    exact Nat.le_trans (Nat.log2_self_le hm) h

/-- Rounding does not lead above a number of at most 53 significant digits. -/
theorem roundToPrecision_le {n bound : Nat} (hbound : Significant bound) (h : n ≤ bound) :
    roundToPrecision n 1 ≤ bound := by
  rcases Nat.eq_or_lt_of_le h with rfl | hlt
  · exact Nat.le_of_eq (roundToPrecision_of_significant hbound)
  have hlog : n.log2 ≤ bound.log2 := log2_le_log2 h
  -- The bound is a multiple of the step, so the next multiple behind the number is at most it.
  obtain ⟨factor, hfactor⟩ : 2 ^ (n.log2 - 52) ∣ bound :=
    Nat.dvd_trans (Nat.pow_dvd_pow 2 (by omega)) hbound
  have hquotient : n / 2 ^ (n.log2 - 52) < factor :=
    Nat.div_lt_of_lt_mul (by rw [← hfactor]; exact hlt)
  simp only [roundToPrecision, Nat.div_one, Nat.one_mul]
  calc nearest n (2 ^ (n.log2 - 52)) * 2 ^ (n.log2 - 52)
      ≤ (n / 2 ^ (n.log2 - 52) + 1) * 2 ^ (n.log2 - 52) := Nat.mul_le_mul_right _ (nearest_le _ _)
    _ ≤ factor * 2 ^ (n.log2 - 52) := Nat.mul_le_mul_right _ hquotient
    _ = bound := by rw [Nat.mul_comm, ← hfactor]

/-- Rounding does not lead below a number of at most 53 significant digits. -/
theorem le_roundToPrecision {n bound : Nat} (hbound : Significant bound) (h : bound ≤ n) :
    bound ≤ roundToPrecision n 1 := by
  simp only [roundToPrecision, Nat.div_one, Nat.one_mul]
  -- The bound, or a power of two above it, is a multiple of the step that the number reaches.
  obtain ⟨factor, hfactor, hle⟩ : ∃ factor, bound ≤ factor * 2 ^ (n.log2 - 52) ∧
      factor * 2 ^ (n.log2 - 52) ≤ n := by
    rcases Nat.eq_or_lt_of_le (log2_le_log2 h) with hlog | hlog
    · obtain ⟨factor, hfactor⟩ := hbound
      rw [hlog, Nat.mul_comm] at hfactor
      exact ⟨factor, Nat.le_of_eq hfactor, by omega⟩
    · have hpower : 2 ^ (n.log2 - (n.log2 - 52)) * 2 ^ (n.log2 - 52) = 2 ^ n.log2 := by
        rw [← Nat.pow_add, Nat.sub_add_cancel (Nat.sub_le _ _)]
      have hn : n ≠ 0 := by
        rintro rfl
        exact Nat.not_lt_zero _ hlog
      refine ⟨2 ^ (n.log2 - (n.log2 - 52)), ?_, ?_⟩
      · rw [hpower]
        exact Nat.le_trans (Nat.le_of_lt Nat.lt_log2_self) (Nat.pow_le_pow_right (by decide) hlog)
      · rw [hpower]
        exact Nat.log2_self_le hn
  have hquotient : factor ≤ n / 2 ^ (n.log2 - 52) :=
    (Nat.le_div_iff_mul_le (Nat.two_pow_pos _)).mpr hle
  calc bound ≤ factor * 2 ^ (n.log2 - 52) := hfactor
    _ ≤ nearest n (2 ^ (n.log2 - 52)) * 2 ^ (n.log2 - 52) :=
      Nat.mul_le_mul_right _ (Nat.le_trans hquotient (le_nearest _ _))

/-- Rounding does not lead above a power of two. -/
theorem roundToPrecision_le_two_pow {n k : Nat} (h : n ≤ 2 ^ k) :
    roundToPrecision n 1 ≤ 2 ^ k :=
  roundToPrecision_le (significant_two_pow k) h

/-- Rounding does not lead below a power of two. -/
theorem two_pow_le_roundToPrecision {n k : Nat} (h : 2 ^ k ≤ n) :
    2 ^ k ≤ roundToPrecision n 1 :=
  le_roundToPrecision (significant_two_pow k) h

/-- The double nearest to an integer of at most 64 bits is finite. -/
theorem Double.exists_ofInt {n : Int} (h : n.natAbs ≤ 2 ^ (64 : Nat)) :
    ∃ x, Double.ofInt n = .finite x := by
  have hpower : 2 ^ (64 : Nat) * unitsPerOne = 2 ^ (1138 : Nat) := by decide +kernel
  have hlimit : 2 ^ (1138 : Nat) < unitsLimit := by decide +kernel
  have hunits : n.natAbs * unitsPerOne ≤ 2 ^ (1138 : Nat) := by
    rw [← hpower]
    exact Nat.mul_le_mul_right _ h
  have hfinite := Nat.lt_of_le_of_lt (roundToPrecision_le_two_pow hunits) hlimit
  rw [Double.ofInt, Double.ofQuotient, dif_pos hfinite]
  exact ⟨_, rfl⟩

/-! ### Decimal lengths -/

theorem decimalLength_le_iff {n k : Nat} (h : 0 < k) : decimalLength n ≤ k ↔ n < 10 ^ k :=
  Nat.length_toDigits_le_iff (by decide) h

theorem decimalLength_mul_ten {n : Nat} (h : 0 < n) :
    decimalLength (n * 10) = decimalLength n + 1 := by
  have happend := Nat.toDigits_append_toDigits (b := 10) (d := 0) (by decide) h (by decide)
  rw [Nat.add_zero, Nat.mul_comm] at happend
  simp only [decimalLength, naturalText, ← happend, Nat.toDigits_zero, List.length_append,
    List.length_singleton]

/-! ### Zeros of a decimal -/

namespace Double

theorem ofDecimal_zero (negative : Bool) (exponent : Int) :
    ofDecimal negative 0 exponent = .finite (.zero negative) := by
  simp [ofDecimal]

/-- A zero at the end of the digits is a step of the exponent. -/
theorem ofDecimal_mul_ten (negative : Bool) (digits : Nat) (exponent : Int) :
    ofDecimal negative (digits * 10) exponent = ofDecimal negative digits (exponent + 1) := by
  by_cases hzero : digits = 0
  · rw [hzero, Nat.zero_mul, ofDecimal_zero, ofDecimal_zero]
  have hlength : (decimalLength (digits * 10) : Int) + exponent =
      decimalLength digits + (exponent + 1) := by
    rw [decimalLength_mul_ten (Nat.pos_of_ne_zero hzero)]
    omega
  have htimes : digits * 10 ≠ 0 := by omega
  simp only [ofDecimal, hzero, htimes, if_false, hlength]
  by_cases hlarge : 309 < (decimalLength digits : Int) + (exponent + 1)
  · simp only [hlarge, if_true]
  by_cases hsmall : (decimalLength digits : Int) + (exponent + 1) < -324
  · simp only [hlarge, hsmall, if_true, if_false]
  simp only [hlarge, hsmall, if_false]
  rcases Int.lt_or_le exponent 0 with hneg | hnonneg
  · obtain ⟨places, rfl⟩ : ∃ places : Nat, exponent = -(places + 1 : Int) :=
      ⟨(-exponent - 1).toNat, by omega⟩
    have hpower : (-(-(places + 1 : Int))).toNat = places + 1 := by omega
    have hunits : digits * 10 * unitsPerOne = digits * unitsPerOne * 10 := by ring
    rw [if_neg (by omega), hpower, hunits, Nat.pow_succ]
    rw [ofQuotient_mul_mul (by decide)]
    rcases Nat.eq_zero_or_pos places with rfl | hplaces
    · simp
    · have hrest : (-(-(places + 1 : Int) + 1)).toNat = places := by omega
      rw [if_neg (by omega), hrest]
  · have hpower : (exponent + 1).toNat = exponent.toNat + 1 := by omega
    have hunits : digits * 10 * 10 ^ exponent.toNat = digits * 10 ^ (exponent.toNat + 1) := by
      ring
    rw [if_pos hnonneg, if_pos (by omega), hpower, hunits]

/-- Zeros at the end of the digits are steps of the exponent. -/
theorem ofDecimal_mul_pow (negative : Bool) (digits zeros : Nat) (exponent : Int) :
    ofDecimal negative (digits * 10 ^ zeros) exponent =
      ofDecimal negative digits (exponent + zeros) := by
  induction zeros generalizing digits exponent with
  | zero => simp
  | succ zeros ih =>
    have hpower : digits * 10 ^ (zeros + 1) = digits * 10 ^ zeros * 10 := by ring
    have hexponent : exponent + 1 + zeros = exponent + (zeros + 1 : Nat) := by omega
    rw [hpower, ofDecimal_mul_ten, ih, hexponent]

/-- The digits of an integer of at most 64 bits denote the double nearest to it. -/
theorem ofDecimal_natAbs {n : Int} (h : n.natAbs ≤ 2 ^ (64 : Nat)) :
    ofDecimal (n < 0) n.natAbs 0 = ofInt n := by
  have hlength : decimalLength n.natAbs ≤ 20 := by
    rw [decimalLength_le_iff (by decide)]
    exact Nat.lt_of_le_of_lt h (by decide)
  by_cases hzero : n = 0
  · subst hzero
    decide +kernel
  · have hdigits : n.natAbs ≠ 0 := Int.natAbs_ne_zero.mpr hzero
    rw [ofDecimal, if_neg hdigits, if_neg (by omega), if_neg (by omega), if_pos (Int.le_refl 0)]
    rw [Int.toNat_zero, Nat.pow_zero, Nat.mul_one, ofInt]

end Double

end StateMachine.Numeric
