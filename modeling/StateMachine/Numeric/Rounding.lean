/-!
Rounding an exact quotient of naturals. `nearest` goes to the nearest natural, a half to the even
neighbour; `roundToPrecision` keeps 53 significant binary digits. What is kept is again a number
of at most 53 significant digits (`significant_roundToPrecision`), and such a number is kept as it
is (`roundToPrecision_of_significant`).
-/

set_option autoImplicit false

namespace StateMachine.Numeric

/-- The natural nearest to `numerator / denominator`; a half goes to the even neighbour. -/
def nearest (numerator denominator : Nat) : Nat :=
  let quotient := numerator / denominator
  let remainder := numerator % denominator
  if 2 * remainder < denominator then quotient
  else if denominator < 2 * remainder then quotient + 1
  else if quotient % 2 = 0 then quotient
  else quotient + 1

/-- At most 53 binary digits of a number count: the lower ones are zero. -/
def Significant (n : Nat) : Prop :=
  2 ^ (n.log2 - 52) ∣ n

instance (n : Nat) : Decidable (Significant n) :=
  inferInstanceAs (Decidable (_ ∣ _))

/-- `numerator / denominator` rounded to 53 significant binary digits. Below `2 ^ 53` the digits
end at the units, so the result is always a natural. -/
def roundToPrecision (numerator denominator : Nat) : Nat :=
  let step := 2 ^ ((numerator / denominator).log2 - 52)
  nearest numerator (denominator * step) * step

theorem nearest_le (numerator denominator : Nat) :
    nearest numerator denominator ≤ numerator / denominator + 1 := by
  simp only [nearest]
  split
  · omega
  · split
    · omega
    · split <;> omega

theorem nearest_mul_right (factor denominator : Nat) (h : 0 < denominator) :
    nearest (factor * denominator) denominator = factor := by
  simp [nearest, Nat.mul_div_cancel _ h, h]

theorem significant_of_lt {n : Nat} (h : n < 2 ^ (53 : Nat)) : Significant n := by
  unfold Significant
  by_cases hn : n = 0
  · simp [hn]
  · have hlog : n.log2 < 53 := (Nat.log2_lt hn).2 h
    have hzero : n.log2 - 52 = 0 := by omega
    simp [hzero]

theorem significant_mul_two_pow {n : Nat} (h : n ≤ 2 ^ (53 : Nat)) (shift : Nat) :
    Significant (n * 2 ^ shift) := by
  unfold Significant
  by_cases hn : n = 0
  · simp [hn]
  have hpos : n * 2 ^ shift ≠ 0 := Nat.mul_ne_zero hn (Nat.pos_iff_ne_zero.1 (Nat.two_pow_pos _))
  by_cases htop : n = 2 ^ (53 : Nat)
  · subst htop
    rw [← Nat.pow_add, Nat.log2_two_pow]
    exact Nat.pow_dvd_pow 2 (by omega)
  · have hlt : n < 2 ^ (53 : Nat) := by omega
    have hlog : (n * 2 ^ shift).log2 < 53 + shift := by
      rw [Nat.log2_lt hpos, Nat.pow_add]
      exact Nat.mul_lt_mul_of_pos_right hlt (Nat.two_pow_pos _)
    exact Nat.dvd_trans (Nat.pow_dvd_pow 2 (by omega)) (Nat.dvd_mul_left _ _)

/-- What rounding keeps has at most 53 significant digits. -/
theorem significant_roundToPrecision (numerator denominator : Nat) :
    Significant (roundToPrecision numerator denominator) := by
  simp only [roundToPrecision]
  generalize hshift : (numerator / denominator).log2 - 52 = shift
  apply significant_mul_two_pow
  have hbound := nearest_le numerator (denominator * 2 ^ shift)
  have hquotient : numerator / (denominator * 2 ^ shift) < 2 ^ (53 : Nat) := by
    rw [← Nat.div_div_eq_div_mul]
    apply Nat.div_lt_of_lt_mul
    rw [← Nat.pow_add]
    exact Nat.lt_of_lt_of_le Nat.lt_log2_self (Nat.pow_le_pow_right (by omega) (by omega))
  omega

/-- A number of at most 53 significant digits is its own rounding. -/
theorem roundToPrecision_of_significant {n : Nat} (h : Significant n) :
    roundToPrecision n 1 = n := by
  simp only [roundToPrecision, Nat.div_one, Nat.one_mul]
  obtain ⟨factor, hfactor⟩ := h
  have hstep : 0 < 2 ^ (n.log2 - 52) := Nat.two_pow_pos _
  calc nearest n (2 ^ (n.log2 - 52)) * 2 ^ (n.log2 - 52)
      = nearest (factor * 2 ^ (n.log2 - 52)) (2 ^ (n.log2 - 52)) * 2 ^ (n.log2 - 52) := by
        rw [Nat.mul_comm factor, ← hfactor]
    _ = factor * 2 ^ (n.log2 - 52) := by rw [nearest_mul_right _ _ hstep]
    _ = n := by rw [Nat.mul_comm, ← hfactor]

end StateMachine.Numeric
