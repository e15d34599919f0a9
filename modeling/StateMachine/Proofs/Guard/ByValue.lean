import StateMachine.Proofs.Guard.Evaluation
import StateMachine.Proofs.Guard.Operand

/-!
Guards by the exact values of numbers. A guard rounds the number in a field to a double and finds
it equal to all doubles that are close, so a number may pass for a double that it is not
(`JsonNumber.PassesFor`); this happens to the numbers of magnitude at most one and to the integers
that are no doubles (`JsonNumber.exists_passesFor_iff`). Rounding passes no double
(`JsonNumber.toDouble_le`, `JsonNumber.le_toDouble`), so elsewhere a guard says what it says by
exact values (`Guard.evaluateByValue_eq`).
-/

set_option autoImplicit false

namespace StateMachine

open Numeric

/-! ### Exact values -/

/-- The double nearest to an integer lies on the same side of every double. -/
theorem Numeric.Double.ofInt_bounds {n : Int} {x : FiniteDouble} (h : Double.ofInt n = .finite x)
    (y : FiniteDouble) :
    (n * unitsPerOne ≤ y.value → x.value ≤ y.value) ∧
      (y.value ≤ n * unitsPerOne → y.value ≤ x.value) := by
  have hupper : n.natAbs * unitsPerOne ≤ y.units →
      roundToPrecision (n.natAbs * unitsPerOne) 1 ≤ y.units := roundToPrecision_le y.significant
  have hlower : y.units ≤ n.natAbs * unitsPerOne →
      y.units ≤ roundToPrecision (n.natAbs * unitsPerOne) 1 := le_roundToPrecision y.significant
  have hvalue : x.value = if n < 0 then
      -(roundToPrecision (n.natAbs * unitsPerOne) 1 : Int)
      else roundToPrecision (n.natAbs * unitsPerOne) 1 := by
    unfold Double.ofInt Double.ofQuotient at h
    split at h
    · cases h
      simp [FiniteDouble.value]
    · cases h
  have hunits : n * unitsPerOne =
      if n < 0 then -((n.natAbs * unitsPerOne : Nat) : Int)
      else (n.natAbs * unitsPerOne : Nat) := by
    split
    · next hneg =>
      rw [Nat.cast_mul, ← Int.neg_mul, Int.ofNat_natAbs_of_nonpos hneg.le, Int.neg_neg]
    · next hpos => rw [Nat.cast_mul, Int.natAbs_of_nonneg (Int.not_lt.mp hpos)]
  have hy := FiniteDouble.natAbs_value y
  rw [hvalue, hunits]
  generalize n.natAbs * unitsPerOne = magnitude at hupper hlower ⊢
  generalize roundToPrecision magnitude 1 = rounded at hupper hlower ⊢
  split <;> omega

namespace JsonNumber

/-- The exact value, in units of `2 ^ -1074`. -/
def units : JsonNumber → Int
  | .integer n _ => n * unitsPerOne
  | .double x => x.value

section

variable {n : JsonNumber} {x y : FiniteDouble} (hx : n.toDouble = .finite x)

include hx

/-- Rounding a number leads above no double. -/
theorem toDouble_le (h : n.units ≤ y.value) : x.value ≤ y.value := by
  cases n with
  | integer value inRange => exact (Double.ofInt_bounds hx y).1 h
  | double z =>
    cases hx
    exact h

/-- Rounding a number leads below no double. -/
theorem le_toDouble (h : y.value ≤ n.units) : y.value ≤ x.value := by
  cases n with
  | integer value inRange => exact (Double.ofInt_bounds hx y).2 h
  | double z =>
    cases hx
    exact h

/-- A number that is a double in value is rounded to it. -/
theorem toDouble_eq (h : n.units = y.value) : x.value = y.value :=
  Int.le_antisymm (toDouble_le hx h.le) (le_toDouble hx h.ge)

end

/-- The number counts as equal to a double that it is not. -/
def PassesFor (n : JsonNumber) (x : FiniteDouble) : Prop :=
  n.closeTo (.double x) ∧ n.units ≠ x.value

section

variable {n : JsonNumber} {x y : FiniteDouble} (hx : n.toDouble = .finite x)

include hx

theorem closeTo_of_value_eq (h : x.value = y.value) : n.closeTo (.double y) := by
  have hy : (JsonNumber.double y).toDouble = .finite y := rfl
  rw [closeTo_eq hx hy]
  refine FiniteDouble.closeTo_of_distance_le ?_
  rw [h, Int.sub_self]
  exact Nat.zero_le _

/-- A number that does not pass for a double is rounded to it only if it is the double. -/
theorem toDouble_eq_iff (h : ¬n.PassesFor y) : x.value = y.value ↔ n.units = y.value :=
  ⟨fun heq ↦ of_not_not fun hne ↦ h ⟨closeTo_of_value_eq hx heq, hne⟩, toDouble_eq hx⟩

/-- A number is rounded to zero only if it is zero. -/
theorem toDouble_eq_zero_iff : x.value = 0 ↔ n.units = 0 := by
  let least (negative : Bool) : FiniteDouble :=
    ⟨negative, 1, by decide +kernel, significant_of_lt (by decide)⟩
  have hpositive : 1 ≤ n.units → 1 ≤ x.value := le_toDouble (y := least false) hx
  have hnegative : n.units ≤ -1 → x.value ≤ -1 := toDouble_le (y := least true) hx
  have hzero : n.units = 0 → x.value = 0 := toDouble_eq (y := .zero false) hx
  omega

theorem toDouble_lt_iff (h : ¬n.PassesFor y) : x.value < y.value ↔ n.units < y.value := by
  have heq := toDouble_eq_iff hx h
  have hle : n.units ≤ y.value → x.value ≤ y.value := toDouble_le hx
  have hge : y.value ≤ n.units → y.value ≤ x.value := le_toDouble hx
  omega

end

theorem closeTo_iff {n : JsonNumber} {y : FiniteDouble} (h : ¬n.PassesFor y) :
    n.closeTo (.double y) ↔ n.units = y.value := by
  obtain ⟨x, hx⟩ := n.exists_toDouble
  exact ⟨fun hclose ↦ of_not_not fun hne ↦ h ⟨hclose, hne⟩,
    fun heq ↦ closeTo_of_value_eq hx (toDouble_eq hx heq)⟩

theorem natAbs_units_lt (n : JsonNumber) : n.units.natAbs < unitsLimit := by
  cases n with
  | integer value inRange =>
    have hlimit : 2 ^ (64 : Nat) * unitsPerOne < unitsLimit := by decide +kernel
    refine Nat.lt_of_le_of_lt ?_ hlimit
    rw [units, Int.natAbs_mul, Int.natAbs_natCast]
    exact Nat.mul_le_mul_right _ (by omega)
  | double x =>
    rw [units, FiniteDouble.natAbs_value]
    exact x.units_lt

/-- A number of at most 53 significant digits is a double in value. -/
theorem exists_value_eq {n : JsonNumber} (h : Significant n.units.natAbs) :
    ∃ y : FiniteDouble, n.units = y.value := by
  refine ⟨⟨n.units < 0, n.units.natAbs, n.natAbs_units_lt, h⟩, ?_⟩
  simp only [FiniteDouble.value, decide_eq_true_eq]
  split <;> omega

/-- The numbers that pass for others are those of magnitude at most one and those that are no
doubles. -/
theorem exists_passesFor_iff (n : JsonNumber) : (∃ y, n.PassesFor y) ↔
    n.units.natAbs ≤ unitsPerOne ∨ ¬Significant n.units.natAbs := by
  obtain ⟨x, hx⟩ := n.exists_toDouble
  by_cases hsignificant : Significant n.units.natAbs
  · obtain ⟨z, hz⟩ := exists_value_eq hsignificant
    have hexact : n.units = x.value := hz.trans (toDouble_eq hx hz).symm
    have hclose (y : FiniteDouble) : n.closeTo (.double y) = x.closeTo y := closeTo_eq hx rfl
    rw [or_iff_left (not_not_intro hsignificant), hexact, FiniteDouble.natAbs_value]
    simp only [PassesFor, hexact, hclose]
    constructor
    · rintro ⟨y, hy, hne⟩
      by_contra hlarge
      exact hne (FiniteDouble.value_eq_of_closeTo (Nat.not_le.mp hlarge) hy)
    · exact FiniteDouble.exists_closeTo_ne
  · refine iff_of_true ⟨x, closeTo_of_value_eq hx rfl, fun hexact ↦ hsignificant ?_⟩
      (Or.inr hsignificant)
    rw [hexact, FiniteDouble.natAbs_value]
    exact x.significant

end JsonNumber

/-! ### Guards -/

/-- A number is set to something other than zero if its exact value is. -/
theorem Json.isTruthy_number (n : JsonNumber) :
    (Json.number n).isTruthy = decide (n.units ≠ 0) := by
  obtain ⟨x, hx⟩ := n.exists_toDouble
  simp only [isTruthy, hx, Double.sameValue, FiniteDouble.sameValue, ne_eq,
    ← JsonNumber.toDouble_eq_zero_iff hx]
  rw [decide_not]
  rfl

/-- Equality of guards, numbers compared by their exact values. -/
def Json.equalsByValue : Json → Json → Bool
  | .number m, .number n => m.units == n.units
  | v, w => v.looselyEquals w

/-- Does a value compare so with a bound? -/
def Comparison.holdsByValue (comparison : Comparison) (value bound : Int) : Bool :=
  match comparison with
  | .greater => bound < value
  | .atLeast => bound ≤ value
  | .less => value < bound
  | .atMost => value ≤ bound

theorem Comparison.holds_eq {n : JsonNumber} {y : FiniteDouble} (h : ¬n.PassesFor y)
    (c : Comparison) : c.holds n.toDouble (.finite y) = c.holdsByValue n.units y.value := by
  obtain ⟨x, hx⟩ := n.exists_toDouble
  have heq := JsonNumber.toDouble_eq_iff hx h
  have hlt := JsonNumber.toDouble_lt_iff hx h
  rw [hx, Bool.eq_iff_iff]
  cases c <;>
    simp only [holds, holdsByValue, Double.below, Double.atMost, Double.sameValue, Bool.or_eq_true,
      FiniteDouble.sameValue_iff, decide_eq_true_eq] <;> omega

namespace Guard

/-- Does the guard hold in a context, by the exact values of numbers? -/
def evaluateByValue (context : Json) : Guard → Bool
  | .truthy f => (context.field f).isTruthy
  | .equals f literal => (context.field f).equalsByValue literal
  | .differs f literal => !(context.field f).equalsByValue literal
  | .compares f comparison bound =>
    match context.field f, bound with
    | .number n, .finite x => comparison.holdsByValue n.units x.value
    | _, _ => false
  | .both a b => a.evaluateByValue context && b.evaluateByValue context
  | .either a b => a.evaluateByValue context || b.evaluateByValue context
  | .negated a => !a.evaluateByValue context

variable {context : Json} {g : Guard}

theorem equalsByValue_eq {v literal : Json} (hliteral : isLiteral literal)
    (h : ∀ n x, v = .number n → literal.double? = some x → ¬n.PassesFor x) :
    v.equalsByValue literal = v.looselyEquals literal := by
  cases v <;> cases literal <;> try rfl
  case number.number m n =>
    cases n with
    | integer value inRange => cases hliteral
    | double x =>
      have hclose := JsonNumber.closeTo_iff (h m x rfl rfl)
      rw [Json.equalsByValue, Json.looselyEquals, Bool.eq_iff_iff, hclose, beq_iff_eq]
      rfl

/-- Where no field holds a number that passes for the one it is compared with, a guard holds if it
holds by exact values. -/
theorem evaluateByValue_eq (hprintable : g.isPrintable)
    (h : ∀ operand ∈ g.operands, ∀ n, context.field operand.1 = .number n →
      ¬n.PassesFor operand.2) :
    g.evaluateByValue context = g.evaluate context := by
  have hliteral (f : String) {literal : Json} (hl : isLiteral literal)
      (hplain : ∀ operand ∈ literal.double?.toList.map (f, ·), ∀ n,
        context.field operand.1 = .number n → ¬n.PassesFor operand.2) :
      (context.field f).equalsByValue literal = (context.field f).looselyEquals literal := by
    refine equalsByValue_eq hl fun n x hn hx ↦ hplain (f, x) ?_ n hn
    rw [hx]
    exact List.mem_singleton.mpr rfl
  induction g with
  | truthy f => rfl
  | equals f literal => exact hliteral f (Bool.and_eq_true_iff.mp hprintable).2 h
  | differs f literal => exact congrArg not (hliteral f (Bool.and_eq_true_iff.mp hprintable).2 h)
  | compares f c bound =>
    cases bound with
    | finite x =>
      cases hfield : context.field f with
      | number n =>
        simp only [evaluateByValue, evaluate, hfield]
        exact (Comparison.holds_eq (h (f, x) (List.mem_singleton.mpr rfl) n hfield) c).symm
      | null | bool | string | array | object => simp only [evaluateByValue, evaluate, hfield]
    | infinite negative => exact absurd hprintable (by simp [isPrintable, Double.finite?])
    | notANumber => exact absurd hprintable (by simp [isPrintable, Double.finite?])
  | both a b iha ihb =>
    obtain ⟨ha, hb⟩ := Bool.and_eq_true_iff.mp hprintable
    obtain ⟨hleft, hright⟩ := List.forall_mem_append.mp h
    rw [evaluateByValue, evaluate, iha ha hleft, ihb hb hright]
  | either a b iha ihb =>
    obtain ⟨ha, hb⟩ := Bool.and_eq_true_iff.mp hprintable
    obtain ⟨hleft, hright⟩ := List.forall_mem_append.mp h
    rw [evaluateByValue, evaluate, iha ha hleft, ihb hb hright]
  | negated a ih => rw [evaluateByValue, evaluate, ih hprintable h]

/-- A field with a number that passes for another equals it, but not by value. -/
theorem evaluateByValue_ne {f : String} {n : JsonNumber} {x : FiniteDouble}
    (hfield : context.field f = .number n) (h : n.PassesFor x) :
    (equals f (.number (.double x))).evaluate context = true ∧
      (equals f (.number (.double x))).evaluateByValue context = false := by
  constructor
  · rw [evaluate, hfield]
    exact h.1
  · rw [evaluateByValue, hfield]
    exact beq_eq_false_iff_ne.mpr h.2

end Guard

end StateMachine
