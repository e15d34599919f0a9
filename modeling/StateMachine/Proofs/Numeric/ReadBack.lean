import StateMachine.Numeric.Shortest
import StateMachine.Proofs.Numeric.Scaling

/-!
The shortest decimal of a double denotes that double (`ofDecimal_shortest`). What the search finds
has been read back, and so has been the exact expansion that stands in for a failed search; zeros
dropped at the end change nothing.
-/

set_option autoImplicit false

namespace StateMachine.Numeric

/-! ### Rows of digits -/

theorem naturalValue_eq_ofDigitChars (digits : List Char) :
    naturalValue digits = Nat.ofDigitChars 10 digits 0 := by
  simp only [naturalValue, digitValue, Nat.ofDigitChars_eq_foldl, Nat.mul_comm]

theorem naturalValue_naturalText (n : Nat) : naturalValue (naturalText n) = n := by
  rw [naturalValue_eq_ofDigitChars, naturalText, Nat.ofDigitChars_ten_toDigits]

theorem naturalValue_append_zeros (digits : List Char) (zeros : Nat) :
    naturalValue (digits ++ List.replicate zeros '0') = naturalValue digits * 10 ^ zeros := by
  rw [naturalValue_eq_ofDigitChars, naturalValue_eq_ofDigitChars, Nat.ofDigitChars_append,
    Nat.ofDigitChars_replicate_zero, Nat.mul_comm]

theorem naturalValue_zeros_append (digits : List Char) (zeros : Nat) :
    naturalValue (List.replicate zeros '0' ++ digits) = naturalValue digits := by
  rw [naturalValue_eq_ofDigitChars, naturalValue_eq_ofDigitChars, Nat.ofDigitChars_append,
    Nat.ofDigitChars_replicate_zero, Nat.mul_zero]

theorem isDigit_of_mem_naturalText {n : Nat} : ∀ c ∈ naturalText n, c.isDigit :=
  fun _ hc ↦ Nat.isDigit_of_mem_toDigits (by decide) (by decide) hc

theorem naturalText_ne_nil (n : Nat) : naturalText n ≠ [] :=
  Nat.toDigits_ne_nil

/-! ### The sign -/

theorem Double.ofQuotient_sign {numerator denominator : Nat} {x : FiniteDouble}
    (h : Double.ofQuotient false numerator denominator = .finite x) (negative : Bool) :
    Double.ofQuotient negative numerator denominator = .finite { x with negative } := by
  simp only [Double.ofQuotient] at h ⊢
  split at h
  · next hlt =>
    rw [dif_pos hlt, ← Double.finite.inj h]
  · cases h

/-- The sign of a decimal is the sign of the double. -/
theorem Double.ofDecimal_sign {digits : Nat} {exponent : Int} {x : FiniteDouble}
    (h : Double.ofDecimal false digits exponent = .finite x) (negative : Bool) :
    Double.ofDecimal negative digits exponent = .finite { x with negative } := by
  unfold Double.ofDecimal at h ⊢
  split_ifs at h ⊢
  · cases h
    rfl
  · cases h
    rfl
  · exact Double.ofQuotient_sign h negative
  · exact Double.ofQuotient_sign h negative

namespace Decimal

/-- The decimal denotes a double of so many units. -/
theorem ofDecimal_of_readsAs {d : Decimal} {x : FiniteDouble} (h : d.readsAs x.units) :
    Double.ofDecimal x.negative d.digits d.exponent = .finite x := by
  simp only [readsAs] at h
  split at h
  · next y hy =>
    have hunits : y.units = x.units := by simpa using h
    rw [Double.ofDecimal_sign hy x.negative]
    obtain ⟨negative, units, hlt, hsignificant⟩ := x
    obtain ⟨other, found, hfoundlt, hfound⟩ := y
    simp only at hunits
    subst hunits
    rfl
  · cases h

/-! ### The candidates -/

theorem readsAs_trimmed (d : Decimal) (units : Nat) :
    d.trimmed.readsAs units = d.readsAs units := by
  fun_induction trimmed d with
  | case1 d h ih =>
    have hdigits : d.digits = d.digits / 10 * 10 := by omega
    rw [ih]
    simp only [readsAs]
    rw [hdigits, Double.ofDecimal_mul_ten, ← hdigits]
  | case2 d h => rfl

theorem readsAs_of_onGrid? {tie : TieRule} {units : Nat} {exponent : Int} {d : Decimal}
    (h : onGrid? tie units exponent = some d) : d.readsAs units := by
  simp only [onGrid?] at h
  split at h
  · next hlower =>
    cases h
    simp only [Bool.and_eq_true] at hlower
    exact hlower.1
  · split at h
    · next hupper =>
      cases h
      exact hupper
    · cases h

/-- The expansion of a double to as many places as its unit has denotes the double, if it is
neither too long nor too short to be looked at. -/
theorem readsAs_expansion {places : Nat} (hplaces : 0 < places) (hunit : unitsPerOne = 2 ^ places)
    (x : FiniteDouble) (hpos : 0 < x.units)
    (hlow : (places : Int) - 324 ≤ decimalLength (x.units * 5 ^ places))
    (hhigh : (decimalLength (x.units * 5 ^ places) : Int) ≤ places + 309) :
    Decimal.readsAs ⟨x.units * 5 ^ places, -(places : Int)⟩ x.units := by
  have hdigits : x.units * 5 ^ places ≠ 0 :=
    Nat.mul_ne_zero (Nat.pos_iff_ne_zero.mp hpos) (Nat.pos_iff_ne_zero.mp (Nat.pow_pos (by decide)))
  have hunits : x.units * 5 ^ places * unitsPerOne = x.units * 10 ^ places := by
    rw [Nat.mul_assoc, hunit, ← Nat.mul_pow]
  have hself : Double.ofQuotient false (x.units * 10 ^ places) (10 ^ places) =
      .finite { x with negative := false } :=
    Double.ofQuotient_mul_self { x with negative := false } (Nat.pow_pos (by decide))
  have hpower : (-(-(places : Int))).toNat = places := by omega
  have hread : Double.ofDecimal false (x.units * 5 ^ places) (-(places : Int)) =
      .finite { x with negative := false } := by
    unfold Double.ofDecimal
    rw [if_neg hdigits, if_neg (by omega), if_neg (by omega), if_neg (by omega), hpower, hunits]
    exact hself
  simp only [readsAs, hread, BEq.rfl]

theorem five_pow_bounds :
    10 ^ (749 : Nat) ≤ 5 ^ (1074 : Nat) ∧ unitsLimit * 5 ^ (1074 : Nat) ≤ 10 ^ (1383 : Nat) := by
  decide +kernel

/-- The exact expansion denotes the double it expands. -/
theorem readsAs_exact (x : FiniteDouble) (hpos : 0 < x.units) :
    (exact x.units).readsAs x.units := by
  obtain ⟨hlower, hupper⟩ := five_pow_bounds
  have hunits : 5 ^ (1074 : Nat) ≤ x.units * 5 ^ (1074 : Nat) := Nat.le_mul_of_pos_left _ hpos
  have hpower : 0 < 5 ^ (1074 : Nat) := by decide +kernel
  have hlimit : x.units * 5 ^ (1074 : Nat) < unitsLimit * 5 ^ (1074 : Nat) :=
    Nat.mul_lt_mul_of_pos_right x.units_lt hpower
  have hlong : ¬ decimalLength (x.units * 5 ^ (1074 : Nat)) ≤ 749 := by
    rw [decimalLength_le_iff (by decide), Nat.not_lt]
    exact Nat.le_trans hlower hunits
  have hshort : decimalLength (x.units * 5 ^ (1074 : Nat)) ≤ 1383 := by
    rw [decimalLength_le_iff (by decide)]
    exact Nat.lt_of_lt_of_le hlimit hupper
  exact @readsAs_expansion 1074 (by decide) (by rw [unitsPerOne]) x hpos (by omega) (by omega)

/-- The shortest decimal of a double denotes that double. -/
theorem ofDecimal_shortest (tie : TieRule) (x : FiniteDouble) :
    Double.ofDecimal x.negative (shortest tie x.units).digits (shortest tie x.units).exponent =
      .finite x := by
  rcases Nat.eq_zero_or_pos x.units with hzero | hpos
  · obtain ⟨negative, units, hlt, hsignificant⟩ := x
    simp only at hzero
    subst hzero
    exact Double.ofDecimal_zero negative 0
  · apply ofDecimal_of_readsAs
    simp only [shortest, if_neg (Nat.pos_iff_ne_zero.mp hpos), readsAs_trimmed]
    cases hhit : (List.range 17).findSome? fun more ↦
        onGrid? tie x.units (leadingExponent x.units - (more : Nat)) with
    | none => exact readsAs_exact x hpos
    | some d =>
      obtain ⟨more, -, hmore⟩ := List.exists_of_findSome?_eq_some hhit
      exact readsAs_of_onGrid? hmore

end Decimal

end StateMachine.Numeric
