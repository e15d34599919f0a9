import StateMachine.Guard.Evaluation

/-!
Mutual exclusion of guards. `Guard.excludes` looks for a reason why two guards cannot hold at the
same time: one negates the other, they demand different values of one field, or they confine one
number to intervals that do not meet. When it finds none the guards may still exclude each other.
-/

set_option autoImplicit false

namespace StateMachine

open Numeric

/-- An interval of numbers; each end says whether it belongs to the interval. -/
structure Interval where
  low : Double
  lowIncluded : Bool
  high : Double
  highIncluded : Bool

namespace Interval

/-- The numbers that compare so with a bound. -/
def ofComparison (comparison : Comparison) (bound : Double) : Interval :=
  match comparison with
  | .greater => ⟨bound, false, .infinite false, false⟩
  | .atLeast => ⟨bound, true, .infinite false, false⟩
  | .less => ⟨.infinite true, false, bound, false⟩
  | .atMost => ⟨.infinite true, false, bound, true⟩

/-- The interval that holds one number. -/
def single (x : Double) : Interval :=
  ⟨x, true, x, true⟩

/-- All numbers of the first interval lie below all numbers of the second. -/
def endsBefore (first second : Interval) : Bool :=
  first.high.below second.low ||
    (first.high.sameValue second.low && !(first.highIncluded && second.lowIncluded))

def disjoint (first second : Interval) : Bool :=
  first.endsBefore second || second.endsBefore first

end Interval

namespace Guard

/-- The field that a guard confines to an interval of numbers, and the interval. -/
def interval? : Guard → Option (String × Interval)
  | .equals f (.number n) => some (f, .single n.toDouble)
  | .compares f comparison bound => some (f, .ofComparison comparison bound)
  | _ => none

/-- Both guards confine one field, to intervals that do not meet. -/
def apart (first second : Guard) : Bool :=
  match first.interval?, second.interval? with
  | some (f, i), some (g, j) => f == g && i.disjoint j
  | _, _ => false

/-- A reason that needs no look into conjunctions and disjunctions: the first guard negates the
second, or both are atoms on one field that cannot hold of the same value. -/
def clashes : Guard → Guard → Bool
  | .negated inner, other => inner.sameAs other
  | .equals f x, .equals g y => f == g && !x.looselyEquals y
  | .equals f x, .differs g y => f == g && x.looselyEquals y
  | .truthy f, .equals g y => f == g && !y.isTruthy
  | first, second => first.apart second

mutual

/-- No context makes both guards true, by a reason that is found. -/
def excludes (first second : Guard) : Bool :=
  first.rulesOut second || second.rulesOut first
termination_by 2 * (sizeOf first + sizeOf second) + 1

/-- Reasons found by taking the first guard apart: a part of a conjunction is enough, a
disjunction needs a reason for each part. -/
def rulesOut (first second : Guard) : Bool :=
  match first with
  | .both a b => a.excludes second || b.excludes second
  | .either a b => a.excludes second && b.excludes second
  | other => other.clashes second
termination_by 2 * (sizeOf first + sizeOf second)

end

end Guard

end StateMachine
