import Mathlib.Data.List.Basic
import StateMachine.Proofs.Guard.Printable
import StateMachine.Proofs.Numeric.Equality

/-!
The numbers that a guard compares fields with, in literals and in bounds. Guards that are the same
have numbers of the same values, and are one guard if the numbers themselves are the same
(`Guard.eq_of_sameAs`); this may fail for zeros only, which have two signs
(`FiniteDouble.eq_of_zeroSigns_eq`).
-/

set_option autoImplicit false

namespace StateMachine

open Numeric

/-! ### Signs of zeros -/

namespace Numeric.FiniteDouble

/-- The signs of the zeros among some numbers. -/
def zeroSigns (numbers : List FiniteDouble) : List Bool :=
  (numbers.filter isZero).map (·.negative)

/-- Rows of numbers with the same values are the same if their zeros have the same signs. -/
theorem eq_of_zeroSigns_eq {xs ys : List FiniteDouble} (hvalues : xs.map value = ys.map value)
    (hsigns : zeroSigns xs = zeroSigns ys) : xs = ys := by
  induction xs generalizing ys with
  | nil => exact (List.map_eq_nil_iff.mp hvalues.symm).symm
  | cons x xs ih =>
    cases ys with
    | nil => cases hvalues
    | cons y ys =>
      obtain ⟨hvalue, hrest⟩ := List.cons.inj hvalues
      have hzero : x.isZero = y.isZero := isZero_congr hvalue
      by_cases hx : x.isZero
      · have hy : y.isZero := hzero ▸ hx
        rw [zeroSigns, zeroSigns, List.filter_cons_of_pos hx, List.filter_cons_of_pos hy] at hsigns
        obtain ⟨hsign, htail⟩ := List.cons.inj hsigns
        rw [eq_of_value_eq hvalue fun _ ↦ hsign, ih hrest htail]
      · have hy : ¬y.isZero := hzero ▸ hx
        rw [zeroSigns, zeroSigns, List.filter_cons_of_neg hx, List.filter_cons_of_neg hy] at hsigns
        rw [eq_of_value_eq hvalue fun hpos ↦ absurd hpos hx, ih hrest hsigns]

end Numeric.FiniteDouble

open FiniteDouble

/-- The double that a value is. -/
def Json.double? : Json → Option FiniteDouble
  | .number (.double x) => some x
  | _ => none

/-- Values that are the same are doubles of the same value, if one of them is a double. -/
theorem Json.map_value_double? {v w : Json} (h : v.sameAs w) :
    v.double?.map value = w.double?.map value := by
  cases v <;> cases w <;> try rfl
  all_goals try (simp only [sameAs, Bool.false_eq_true] at h)
  case number.number m n =>
    cases m <;> cases n <;> try cases h
    case integer.integer => rfl
    case double.double x y => exact congrArg some (sameValue_iff.mp h)

namespace Guard

/-- The fields that are compared with numbers, each with its number, in their order. -/
def operands : Guard → List (String × FiniteDouble)
  | .truthy _ => []
  | .equals f literal | .differs f literal => literal.double?.toList.map (f, ·)
  | .compares f _ bound => bound.finite?.toList.map (f, ·)
  | .both a b | .either a b => a.operands ++ b.operands
  | .negated a => a.operands

/-- The numbers of the literals and bounds, in their order. -/
def numbers (g : Guard) : List FiniteDouble :=
  g.operands.map Prod.snd

@[simp] theorem numbers_equals (f : String) (v : Json) :
    (equals f v).numbers = v.double?.toList := by
  simp [numbers, operands]

@[simp] theorem numbers_differs (f : String) (v : Json) :
    (differs f v).numbers = v.double?.toList := by
  simp [numbers, operands]

@[simp] theorem numbers_compares (f : String) (c : Comparison) (x : Double) :
    (compares f c x).numbers = x.finite?.toList := by
  simp [numbers, operands]

@[simp] theorem numbers_both (a b : Guard) : (both a b).numbers = a.numbers ++ b.numbers :=
  List.map_append

@[simp] theorem numbers_either (a b : Guard) : (either a b).numbers = a.numbers ++ b.numbers :=
  List.map_append

@[simp] theorem numbers_negated (a : Guard) : (negated a).numbers = a.numbers :=
  rfl

/-- Fields that a printable guard compares with numbers are paths. -/
theorem isFieldPath_of_mem_operands {g : Guard} (h : g.isPrintable)
    {operand : String × FiniteDouble} (hmem : operand ∈ g.operands) : isFieldPath operand.1 := by
  induction g with
  | truthy f => cases hmem
  | equals f literal | differs f literal =>
    obtain ⟨x, -, rfl⟩ := List.mem_map.mp hmem
    exact (Bool.and_eq_true_iff.mp h).1
  | compares f c bound =>
    obtain ⟨x, -, rfl⟩ := List.mem_map.mp hmem
    exact (Bool.and_eq_true_iff.mp h).1
  | both a b iha ihb | either a b iha ihb =>
    obtain ⟨ha, hb⟩ := Bool.and_eq_true_iff.mp h
    exact (List.mem_append.mp hmem).elim (iha ha) (ihb hb)
  | negated a ih => exact ih h hmem

variable {g h : Guard}

/-- The numbers of guards that are the same have the same values. -/
theorem map_value_numbers (hsame : g.sameAs h) : g.numbers.map value = h.numbers.map value := by
  have hliteral {v w : Json} (hvalue : v.sameAs w) :
      v.double?.toList.map value = w.double?.toList.map value := by
    rw [← Option.toList_map, ← Option.toList_map, Json.map_value_double? hvalue]
  induction g generalizing h with
  | truthy f =>
    cases h <;> simp only [sameAs, Bool.false_eq_true] at hsame
    rfl
  | equals f v | differs f v =>
    cases h <;> simp only [sameAs, Bool.false_eq_true, Bool.and_eq_true] at hsame
    simpa using hliteral hsame.2
  | compares f c x =>
    cases h <;> simp only [sameAs, Bool.false_eq_true, Bool.and_eq_true] at hsame
    rw [numbers_compares, numbers_compares]
    rcases Double.sameValue_cases hsame.2 with rfl | ⟨a, b, rfl, rfl, hvalue⟩
    · rfl
    · exact congrArg (fun v ↦ [v]) hvalue
  | both a b iha ihb | either a b iha ihb =>
    cases h <;> simp only [sameAs, Bool.false_eq_true, Bool.and_eq_true] at hsame
    simp [iha hsame.1, ihb hsame.2]
  | negated a ih =>
    cases h <;> simp only [sameAs, Bool.false_eq_true] at hsame
    simpa using ih hsame

theorem length_numbers (hsame : g.sameAs h) : g.numbers.length = h.numbers.length := by
  rw [← List.length_map value, map_value_numbers hsame, List.length_map]

/-- Literals that are the same are one literal if they have the same number. -/
theorem literal_eq_of_sameAs {v w : Json} (hliteral : isLiteral v) (hsame : v.sameAs w)
    (hnumbers : v.double?.toList = w.double?.toList) : v = w := by
  cases v <;> cases w <;> simp only [Json.sameAs, Bool.false_eq_true, beq_iff_eq] at hsame
  case null.null => rfl
  case bool.bool a b => rw [hsame]
  case string.string a b => rw [hsame]
  case number.number m n =>
    cases m <;> cases n <;> try cases hsame
    case integer.integer => cases hliteral
    case double.double x y => rw [(List.cons.inj hnumbers).1]
  case array.array => cases hliteral
  case object.object => cases hliteral

/-- Printable guards that are the same are one guard if they have the same numbers. -/
theorem eq_of_sameAs (hprintable : g.isPrintable) (hsame : g.sameAs h)
    (hnumbers : g.numbers = h.numbers) : g = h := by
  induction g generalizing h with
  | truthy f =>
    cases h <;> simp only [sameAs, Bool.false_eq_true, beq_iff_eq] at hsame
    rw [hsame]
  | equals f v =>
    cases h <;> simp only [sameAs, Bool.false_eq_true, Bool.and_eq_true, beq_iff_eq] at hsame
    rw [numbers_equals, numbers_equals] at hnumbers
    rw [hsame.1, literal_eq_of_sameAs (Bool.and_eq_true_iff.mp hprintable).2 hsame.2 hnumbers]
  | differs f v =>
    cases h <;> simp only [sameAs, Bool.false_eq_true, Bool.and_eq_true, beq_iff_eq] at hsame
    rw [numbers_differs, numbers_differs] at hnumbers
    rw [hsame.1, literal_eq_of_sameAs (Bool.and_eq_true_iff.mp hprintable).2 hsame.2 hnumbers]
  | compares f c x =>
    cases h <;> simp only [sameAs, Bool.false_eq_true, Bool.and_eq_true, beq_iff_eq] at hsame
    obtain ⟨⟨rfl, rfl⟩, hbound⟩ := hsame
    rcases Double.sameValue_cases hbound with rfl | ⟨a, b, rfl, rfl, -⟩
    · rfl
    · rw [numbers_compares, numbers_compares] at hnumbers
      have hab : a = b := (List.cons.inj hnumbers).1
      rw [hab]
  | both a b iha ihb =>
    cases h <;> simp only [sameAs, Bool.false_eq_true, Bool.and_eq_true] at hsame
    obtain ⟨ha, hb⟩ := Bool.and_eq_true_iff.mp hprintable
    rw [numbers_both, numbers_both] at hnumbers
    obtain ⟨hleft, hright⟩ := List.append_inj hnumbers (length_numbers hsame.1)
    rw [iha ha hsame.1 hleft, ihb hb hsame.2 hright]
  | either a b iha ihb =>
    cases h <;> simp only [sameAs, Bool.false_eq_true, Bool.and_eq_true] at hsame
    obtain ⟨ha, hb⟩ := Bool.and_eq_true_iff.mp hprintable
    rw [numbers_either, numbers_either] at hnumbers
    obtain ⟨hleft, hright⟩ := List.append_inj hnumbers (length_numbers hsame.1)
    rw [iha ha hsame.1 hleft, ihb hb hsame.2 hright]
  | negated a ih =>
    cases h <;> simp only [sameAs, Bool.false_eq_true] at hsame
    rw [ih hprintable hsame hnumbers]

end Guard

end StateMachine
