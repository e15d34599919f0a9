import StateMachine.Guard.Basic
import StateMachine.Text.Split

/-!
The truth of a guard in a context. A path that leads nowhere finds the null value. Values of
different kinds are never equal, containers equal nothing, and two numbers count as equal when
their rounded distance is below `2 ^ -52`. A comparison with a bound holds of numbers only.
-/

set_option autoImplicit false

namespace StateMachine

open Numeric

namespace Json

/-- The value at the end of a path of keys. -/
def atPath (value : Json) (path : List String) : Json :=
  path.foldl (fun current key ↦ (current.get? key).getD .null) value

/-- The value of a field, whose name is a path with dots. -/
def field (context : Json) (name : String) : Json :=
  context.atPath (Text.splitString '.' name)

/-- Set to something other than nothing, false, zero or an empty text or container. -/
def isTruthy : Json → Bool
  | .null => false
  | .bool b => b
  | .number n => !n.toDouble.sameValue (.finite (.zero false))
  | .string s => !s.isEmpty
  | .array items => !items.isEmpty
  | .object members => !members.isEmpty

end Json

namespace JsonNumber

/-- The rounded distance of two numbers is below `2 ^ -52`. -/
def closeTo (m n : JsonNumber) : Bool :=
  match m.toDouble, n.toDouble with
  | .finite x, .finite y => x.closeTo y
  | _, _ => false

end JsonNumber

namespace Json

/-- Equality as guards see it. -/
def looselyEquals : Json → Json → Bool
  | .null, .null => true
  | .bool a, .bool b => a == b
  | .number m, .number n => m.closeTo n
  | .string s, .string t => s == t
  | _, _ => false

end Json

namespace Comparison

/-- Does a number compare so with a bound? -/
def holds (comparison : Comparison) (value bound : Double) : Bool :=
  match comparison with
  | .greater => bound.below value
  | .atLeast => bound.atMost value
  | .less => value.below bound
  | .atMost => value.atMost bound

end Comparison

namespace Guard

/-- Does the guard hold in a context? -/
def evaluate (context : Json) : Guard → Bool
  | .truthy f => (context.field f).isTruthy
  | .equals f literal => (context.field f).looselyEquals literal
  | .differs f literal => !(context.field f).looselyEquals literal
  | .compares f comparison bound =>
    match context.field f with
    | .number n => comparison.holds n.toDouble bound
    | _ => false
  | .both a b => a.evaluate context && b.evaluate context
  | .either a b => a.evaluate context || b.evaluate context
  | .negated a => !a.evaluate context

/-- A missing guard always holds. -/
def evaluateOptional (context : Json) (guard : Option Guard) : Bool :=
  guard.all (evaluate context)

end Guard

end StateMachine
