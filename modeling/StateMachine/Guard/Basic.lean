import StateMachine.Json.Basic

/-!
Guards: conditions on the context of a machine, a JSON value. An atom looks at one field of the
context, named by a path of keys with dots between them.
-/

set_option autoImplicit false

namespace StateMachine

open Numeric

/-- How a number is compared with a bound. -/
inductive Comparison where
  | greater
  | atLeast
  | less
  | atMost
deriving DecidableEq, Repr

/-- A condition on the context. -/
inductive Guard where
  /-- The field is set to something other than nothing, false, zero or an empty container. -/
  | truthy (field : String)
  /-- The field equals a literal. -/
  | equals (field : String) (literal : Json)
  /-- The field does not equal a literal. -/
  | differs (field : String) (literal : Json)
  /-- The field is a number that compares so with a bound. -/
  | compares (field : String) (comparison : Comparison) (bound : Double)
  | both (left right : Guard)
  | either (left right : Guard)
  | negated (inner : Guard)
deriving Inhabited

namespace Guard

/-- The same guard; numbers are compared by value, so the sign of zero does not count and a bound
that is no number equals nothing. -/
def sameAs : Guard → Guard → Bool
  | .truthy f, .truthy g => f == g
  | .equals f x, .equals g y => f == g && x.sameAs y
  | .differs f x, .differs g y => f == g && x.sameAs y
  | .compares f c x, .compares g d y => f == g && c == d && x.sameValue y
  | .both a b, .both c d => a.sameAs c && b.sameAs d
  | .either a b, .either c d => a.sameAs c && b.sameAs d
  | .negated a, .negated b => a.sameAs b
  | _, _ => false

end Guard

end StateMachine
