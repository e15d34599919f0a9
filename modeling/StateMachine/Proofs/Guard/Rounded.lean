import StateMachine.Proofs.Guard.Evaluation
import StateMachine.Proofs.Guard.Number
import StateMachine.Proofs.Guard.Printable

/-!
Guards with integers. No guard that is read from a text holds an integer, but one that is put
together otherwise may have integers among its literals. Such a guard still has a text
(`Guard.isExpressible`), in which an integer is a number of a guard like any other
(`JsonNumber.exists_numberText`) and denotes the double nearest to it. With its integers rounded so
a guard holds in the same contexts (`Guard.evaluate_rounded`).
-/

set_option autoImplicit false

namespace StateMachine

open Numeric

namespace JsonNumber

/-- The number as a double. -/
def rounded (n : JsonNumber) : JsonNumber :=
  match n.toDouble with
  | .finite x => .double x
  | _ => n

variable {n : JsonNumber} {x : FiniteDouble}

theorem rounded_eq (h : n.toDouble = .finite x) : n.rounded = .double x := by
  simp only [rounded, h]

theorem toDouble_rounded (n : JsonNumber) : n.rounded.toDouble = n.toDouble := by
  obtain ⟨x, hx⟩ := n.exists_toDouble
  rw [rounded_eq hx, hx]
  rfl

/-- A number is written as a number of a guard, with the same double as its value. -/
theorem exists_numberText (n : JsonNumber) : ∃ t : Guard.NumberText,
    t.WellFormed ∧ t.chars = Json.numberText n ∧ t.toDouble = n.toDouble := by
  cases n with
  | integer value inRange =>
    exact ⟨.ofInteger value, Guard.NumberText.ofInteger_wellFormed value,
      Guard.NumberText.chars_ofInteger value, Guard.NumberText.toDouble_ofInteger (by omega)⟩
  | double x =>
    exact ⟨.ofNumeral .json x, Guard.NumberText.ofNumeral_wellFormed .json x,
      Guard.NumberText.chars_ofNumeral .json x, Guard.NumberText.toDouble_ofNumeral .json x⟩

end JsonNumber

namespace Json

/-- The value, with a number as a double. -/
def rounded : Json → Json
  | .number n => .number n.rounded
  | value => value

/-- Equality as guards see it looks at numbers as doubles only. -/
theorem looselyEquals_rounded (v literal : Json) :
    v.looselyEquals literal.rounded = v.looselyEquals literal := by
  cases literal with
  | number n =>
    cases v with
    | number k => simp only [rounded, looselyEquals, JsonNumber.closeTo, n.toDouble_rounded]
    | _ => rfl
  | _ => rfl

end Json

namespace Guard

/-- A value that has a text as a literal of a guard: no container. -/
def isScalar : Json → Bool
  | .array _ | .object _ => false
  | _ => true

/-- Has the guard a text that is read again as a guard? -/
def isExpressible : Guard → Bool
  | .truthy f => isFieldPath f
  | .equals f literal | .differs f literal => isFieldPath f && isScalar literal
  | .compares f _ bound => isFieldPath f && bound.finite?.isSome
  | .both a b | .either a b => a.isExpressible && b.isExpressible
  | .negated a => a.isExpressible

/-- The guard with the numbers of its literals as doubles. -/
def rounded : Guard → Guard
  | .truthy f => .truthy f
  | .equals f literal => .equals f literal.rounded
  | .differs f literal => .differs f literal.rounded
  | .compares f comparison bound => .compares f comparison bound
  | .both a b => .both a.rounded b.rounded
  | .either a b => .either a.rounded b.rounded
  | .negated a => .negated a.rounded

theorem isScalar_of_isLiteral {value : Json} (h : isLiteral value) : isScalar value := by
  cases value with
  | array items => cases h
  | object members => cases h
  | _ => rfl

theorem rounded_of_isLiteral {value : Json} (h : isLiteral value) : value.rounded = value := by
  cases value with
  | number n =>
    cases n with
    | integer value inRange => cases h
    | double x => rfl
  | _ => rfl

theorem isExpressible_of_isPrintable {g : Guard} (h : g.isPrintable) : g.isExpressible := by
  induction g with
  | truthy f => exact h
  | equals f literal | differs f literal =>
    obtain ⟨hfield, hliteral⟩ := Bool.and_eq_true_iff.mp h
    exact Bool.and_eq_true_iff.mpr ⟨hfield, isScalar_of_isLiteral hliteral⟩
  | compares f comparison bound => exact h
  | both a b iha ihb | either a b iha ihb =>
    obtain ⟨ha, hb⟩ := Bool.and_eq_true_iff.mp h
    exact Bool.and_eq_true_iff.mpr ⟨iha ha, ihb hb⟩
  | negated a ih => exact ih h

/-- A printable guard has no integers that could be rounded. -/
theorem rounded_of_isPrintable {g : Guard} (h : g.isPrintable) : g.rounded = g := by
  induction g with
  | truthy f => rfl
  | equals f literal | differs f literal =>
    rw [rounded, rounded_of_isLiteral (Bool.and_eq_true_iff.mp h).2]
  | compares f comparison bound => rfl
  | both a b iha ihb | either a b iha ihb =>
    obtain ⟨ha, hb⟩ := Bool.and_eq_true_iff.mp h
    rw [rounded, iha ha, ihb hb]
  | negated a ih => rw [rounded, ih h]

/-- Rounding the integers of a guard does not change where it holds. -/
theorem evaluate_rounded (g : Guard) (context : Json) :
    g.rounded.evaluate context = g.evaluate context := by
  induction g with
  | truthy f => rfl
  | equals f literal => exact (context.field f).looselyEquals_rounded literal
  | differs f literal => exact congrArg not ((context.field f).looselyEquals_rounded literal)
  | compares f comparison bound => rfl
  | both a b iha ihb | either a b iha ihb => rw [rounded, evaluate, evaluate, iha, ihb]
  | negated a ih => rw [rounded, evaluate, evaluate, ih]

end Guard

end StateMachine
