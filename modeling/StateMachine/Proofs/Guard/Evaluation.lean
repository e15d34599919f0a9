import StateMachine.Guard.Evaluation
import StateMachine.Proofs.Numeric.Equality

/-!
What the truth of a guard depends on. The numbers of a value are finite doubles
(`JsonNumber.exists_toDouble`), and equality as guards see it depends on the values of numbers
only, so guards that are the same hold in the same contexts (`Guard.evaluate_congr`).

Equality with a tolerance is no equivalence. `Json.exactlyEquals` leaves the tolerance out: what
equals a literal exactly may stand for it wherever a guard looks (`Json.looselyEquals_congr`,
`Json.isTruthy_congr`).
-/

set_option autoImplicit false

namespace StateMachine

open Numeric

/-! ### Numbers -/

namespace JsonNumber

/-- As a double a number is finite. -/
theorem exists_toDouble (n : JsonNumber) : ∃ x, n.toDouble = .finite x := by
  cases n with
  | integer value inRange => exact Double.exists_ofInt (by omega)
  | double x => exact ⟨x, rfl⟩

section

variable {m n : JsonNumber} {x y : FiniteDouble} (hm : m.toDouble = .finite x)
  (hn : n.toDouble = .finite y)

include hm hn

theorem sameValue_iff : m.toDouble.sameValue n.toDouble ↔ x.value = y.value := by
  rw [hm, hn]
  exact FiniteDouble.sameValue_iff

theorem closeTo_eq : m.closeTo n = x.closeTo y := by
  simp only [closeTo, hm, hn]

end

theorem closeTo_comm (m n : JsonNumber) : m.closeTo n = n.closeTo m := by
  obtain ⟨x, hx⟩ := m.exists_toDouble
  obtain ⟨y, hy⟩ := n.exists_toDouble
  rw [closeTo_eq hx hy, closeTo_eq hy hx, FiniteDouble.closeTo_comm]

theorem closeTo_congr {m n : JsonNumber} (h : m.toDouble.sameValue n.toDouble) (k : JsonNumber) :
    m.closeTo k = n.closeTo k := by
  obtain ⟨x, hx⟩ := m.exists_toDouble
  obtain ⟨y, hy⟩ := n.exists_toDouble
  obtain ⟨z, hz⟩ := k.exists_toDouble
  rw [closeTo_eq hx hz, closeTo_eq hy hz, FiniteDouble.closeTo_congr ((sameValue_iff hx hy).mp h)]

/-- Equal in kind and value is equal in value. -/
theorem sameValue_of_sameAs {m n : JsonNumber} (h : m.sameAs n) :
    m.toDouble.sameValue n.toDouble := by
  cases m with
  | integer a ha =>
    cases n with
    | integer b hb =>
      obtain ⟨x, hx⟩ := (integer a ha).exists_toDouble
      have hab : a = b := eq_of_beq h
      subst hab
      exact (sameValue_iff hx hx).mpr rfl
    | double y => cases h
  | double x =>
    cases n with
    | integer b hb => cases h
    | double y => exact h

end JsonNumber

namespace Json

/-! ### Equality without tolerance -/

/-- Equality of guards without the tolerance: numbers are equal in value, as doubles. -/
def exactlyEquals : Json → Json → Bool
  | .number m, .number n => m.toDouble.sameValue n.toDouble
  | v, w => v.looselyEquals w

variable {u v w : Json}

/-- Only numbers are equal without being exactly so. -/
theorem exactlyEquals_of_looselyEquals (h : v.looselyEquals w) :
    v.exactlyEquals w ∨ ∃ m n, v = .number m ∧ w = .number n := by
  cases v <;> cases w <;> try exact Or.inl h
  case number.number m n => exact Or.inr ⟨m, n, rfl, rfl⟩

/-- Only numbers are exactly equal without being one value. -/
theorem exactlyEquals_cases (h : v.exactlyEquals w) :
    v = w ∨ ∃ m n, v = .number m ∧ w = .number n ∧ m.toDouble.sameValue n.toDouble := by
  cases v <;> cases w <;> try cases h
  case null.null => exact Or.inl rfl
  case bool.bool a b => exact Or.inl (congrArg bool (eq_of_beq h))
  case string.string a b => exact Or.inl (congrArg string (eq_of_beq h))
  case number.number m n => exact Or.inr ⟨m, n, rfl, rfl, h⟩

/-- What equals a value exactly may stand for it in every equality of guards. -/
theorem looselyEquals_congr (h : v.exactlyEquals w) (u : Json) :
    v.looselyEquals u = w.looselyEquals u := by
  rcases exactlyEquals_cases h with rfl | ⟨m, n, rfl, rfl, hvalue⟩
  · rfl
  · cases u with
    | number k => exact JsonNumber.closeTo_congr hvalue k
    | _ => rfl

theorem isTruthy_congr (h : v.exactlyEquals w) : v.isTruthy = w.isTruthy := by
  rcases exactlyEquals_cases h with rfl | ⟨m, n, rfl, rfl, hvalue⟩
  · rfl
  · obtain ⟨x, hx⟩ := m.exists_toDouble
    obtain ⟨y, hy⟩ := n.exists_toDouble
    have hxy := (JsonNumber.sameValue_iff hx hy).mp hvalue
    simp only [isTruthy, hx, hy, Double.sameValue, FiniteDouble.sameValue, hxy]

/-- Literals that are the same are equal to the same values. -/
theorem looselyEquals_of_sameAs (h : v.sameAs w) (u : Json) :
    u.looselyEquals v = u.looselyEquals w := by
  cases v <;> cases w <;> simp only [sameAs, Bool.false_eq_true] at h
  case null.null => rfl
  case bool.bool a b => rw [eq_of_beq h]
  case string.string a b => rw [eq_of_beq h]
  case number.number m n =>
    cases u with
    | number k =>
      have hcongr := JsonNumber.closeTo_congr (JsonNumber.sameValue_of_sameAs h) k
      simp only [looselyEquals, k.closeTo_comm, hcongr]
    | _ => rfl
  case array.array xs ys => cases u <;> rfl
  case object.object ms ns => cases u <;> rfl

end Json

/-! ### Comparisons -/

/-- A comparison sees the value of its bound only. -/
theorem Comparison.holds_congr {x y : Double} (h : x.sameValue y) (c : Comparison) (v : Double) :
    c.holds v x = c.holds v y := by
  rcases Double.sameValue_cases h with rfl | ⟨a, b, rfl, rfl, hvalue⟩
  · rfl
  · cases c <;> cases v <;>
      simp only [holds, Double.atMost, Double.below, Double.sameValue, FiniteDouble.sameValue,
        hvalue]

namespace Guard

/-- Guards that are the same hold in the same contexts. -/
theorem evaluate_congr {g h : Guard} (hsame : g.sameAs h) (context : Json) :
    g.evaluate context = h.evaluate context := by
  induction g generalizing h with
  | truthy f =>
    cases h <;> simp only [sameAs, Bool.false_eq_true, beq_iff_eq] at hsame
    rw [hsame]
  | equals f v =>
    cases h <;> simp only [sameAs, Bool.false_eq_true, Bool.and_eq_true, beq_iff_eq] at hsame
    obtain ⟨rfl, hliteral⟩ := hsame
    exact Json.looselyEquals_of_sameAs hliteral (context.field f)
  | differs f v =>
    cases h <;> simp only [sameAs, Bool.false_eq_true, Bool.and_eq_true, beq_iff_eq] at hsame
    obtain ⟨rfl, hliteral⟩ := hsame
    exact congrArg not (Json.looselyEquals_of_sameAs hliteral (context.field f))
  | compares f c x =>
    cases h <;> simp only [sameAs, Bool.false_eq_true, Bool.and_eq_true, beq_iff_eq] at hsame
    obtain ⟨⟨rfl, rfl⟩, hbound⟩ := hsame
    simp only [evaluate, Comparison.holds_congr hbound]
  | both a b iha ihb =>
    cases h <;> simp only [sameAs, Bool.false_eq_true, Bool.and_eq_true] at hsame
    rw [evaluate, evaluate, iha hsame.1, ihb hsame.2]
  | either a b iha ihb =>
    cases h <;> simp only [sameAs, Bool.false_eq_true, Bool.and_eq_true] at hsame
    rw [evaluate, evaluate, iha hsame.1, ihb hsame.2]
  | negated a ih =>
    cases h <;> simp only [sameAs, Bool.false_eq_true] at hsame
    rw [evaluate, evaluate, ih hsame]

end Guard

end StateMachine
