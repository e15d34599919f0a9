/-!
Computations that may fail. Two of them, one after the other, succeed exactly if each of them does.
-/

set_option autoImplicit false

namespace StateMachine

variable {ε α β : Type}

theorem bind_eq_ok {x : Except ε α} {next : α → Except ε β} {b : β} :
    (x >>= next) = .ok b ↔ ∃ a, x = .ok a ∧ next a = .ok b := by
  cases x <;> simp [bind, Except.bind]

theorem exists_eq_ok {x : Except ε α} (h : x.isOk) : ∃ a, x = .ok a := by
  cases x with
  | error e => cases h
  | ok a => exact ⟨a, rfl⟩

/-- The error of a computation that fails. -/
def failure? (x : Except ε α) : Option ε :=
  match x with
  | .ok _ => none
  | .error e => some e

theorem failure?_eq_some {x : Except ε α} {e : ε} : failure? x = some e ↔ x = .error e := by
  cases x <;> simp [failure?]

theorem pure_eq_ok {a b : α} : (pure a : Except ε α) = .ok b ↔ b = a := by
  simp [pure, Except.pure, eq_comm]

end StateMachine
