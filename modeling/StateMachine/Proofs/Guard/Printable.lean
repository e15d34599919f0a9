import StateMachine.Guard.Printer
import StateMachine.Proofs.Text.Split
import StateMachine.Text.Identifier

/-!
Guards that can be written down: fields are paths of non-empty parts, bounds are finite, and
literals are of the kinds that a guard may hold.
-/

set_option autoImplicit false

namespace StateMachine

open Numeric

namespace Guard

/-- A path of parts with dots between them, each part a row of letters, digits and underscores. -/
def isFieldPath (f : String) : Bool :=
  (Text.parts '.' f.toList).all fun part ↦ !part.isEmpty && part.all Identifier.isPart

/-- A literal that a guard may be written with. -/
def isLiteral : Json → Bool
  | .null | .bool _ | .string _ | .number (.double _) => true
  | _ => false

/-- May the guard be written down? -/
def isPrintable : Guard → Bool
  | .truthy f => isFieldPath f
  | .equals f literal | .differs f literal => isFieldPath f && isLiteral literal
  | .compares f _ bound => isFieldPath f && bound.finite?.isSome
  | .both a b | .either a b => a.isPrintable && b.isPrintable
  | .negated a => a.isPrintable

end Guard

end StateMachine
