import StateMachine.Proofs.Guard.ByValue
import StateMachine.Proofs.Python.Helper
import StateMachine.Text.Split

/-!
What the helpers of generated programs do. JSON values stand for dictionaries, lists, texts, truth
values, nothing, integers and floating-point numbers. A truth value is also the integer zero or one;
numbers of both kinds are compared by their exact values. What is raised leaves no result, and so do
operations that are not looked at here: the identity of values other than truth values and nothing,
and the order of values that are no numbers.

Calls are counted by depth, as under a recursion limit.
-/

set_option autoImplicit false

namespace StateMachine.Python

open Numeric

/-- A value, or a function of the operator module. -/
inductive Datum where
  | json (v : Json)
  | operator (c : Comparison)

/-! ### Operations -/

/-- The exact value of a number or a truth value, in units of `2 ^ -1074`. -/
def unitsOf? : Json → Option Int
  | .bool b => some (if b then unitsPerOne else 0)
  | .number n => some n.units
  | _ => none

/-- Two numbers of the same exact value. -/
def sameUnits (v w : Json) : Bool :=
  match unitsOf? v, unitsOf? w with
  | some m, some n => m == n
  | _, _ => false

mutual

/-- Equality of values. Lists and dictionaries are equal if their items and members are; the members
of a dictionary are kept in the order of their keys. -/
def valuesEqual : Json → Json → Bool
  | .null, .null => true
  | .string s, .string t => s == t
  | .array vs, .array ws => itemsEqual vs ws
  | .object ms, .object ns => membersEqual ms ns
  | v, w => sameUnits v w

def itemsEqual : List Json → List Json → Bool
  | [], [] => true
  | v :: vs, w :: ws => valuesEqual v w && itemsEqual vs ws
  | _, _ => false

def membersEqual : List (String × Json) → List (String × Json) → Bool
  | [], [] => true
  | (k, v) :: ms, (l, w) :: ns => k == l && valuesEqual v w && membersEqual ms ns
  | _, _ => false

end

namespace Kind

/-- Does a value have the type? A truth value is an integer, too. -/
def contains : Kind → Json → Bool
  | .dict, .object _ => true
  | .bool, .bool _ => true
  | .int, .bool _ => true
  | .int, .number (.integer _ _) => true
  | .float, .number (.double _) => true
  | _, _ => false

end Kind

namespace Datum

/-- Does the value count as true? -/
def isTrue : Datum → Bool
  | .json .null => false
  | .json (.bool b) => b
  | .json (.number n) => n.units ≠ 0
  | .json (.string s) => !s.isEmpty
  | .json (.array items) => !items.isEmpty
  | .json (.object members) => !members.isEmpty
  | .operator _ => true

/-- Two truth values, or one and another value, are known to be one object or not; so is nothing. -/
def identical? : Datum → Datum → Option Bool
  | .json (.bool a), .json (.bool b) => some (a == b)
  | .json (.bool _), _ | _, .json (.bool _) => some false
  | .json .null, .json .null => some true
  | .json .null, _ | _, .json .null => some false
  | _, _ => none

def equal? : Datum → Datum → Option Bool
  | .json v, .json w => some (valuesEqual v w)
  | _, _ => none

def isInstance? (kinds : List Kind) : Datum → Option Bool
  | .json v => some (kinds.any (·.contains v))
  | .operator _ => none

/-- The parts of a text between its dots. -/
def split? : Datum → Option Datum
  | .json (.string s) => some (.json (.array ((Text.splitString '.' s).map .string)))
  | _ => none

/-- The member of a dictionary, or nothing. -/
def get? : Datum → Datum → Option Datum
  | .json (.object members), .json (.string key) =>
    some (.json ((members.lookup key).getD .null))
  | _, _ => none

/-- Calls a function of the operator module. -/
def applied? : Datum → Datum → Datum → Option Datum
  | .operator c, .json v, .json w =>
    match unitsOf? v, unitsOf? w with
    | some m, some n => some (.json (.bool (c.holdsByValue m n)))
    | _, _ => none
  | _, _, _ => none

end Datum

/-- The number that a numeral stands for: the nearest floating-point number if it has a point or an
exponent, and an integer otherwise. -/
def numeralValue? (n : Guard.NumberText) : Option Json :=
  if n.fraction.isSome || n.exponent.isSome then n.toDouble.finite?.map fun x ↦ .number (.double x)
  else
    let magnitude : Int := naturalValue n.whole
    let value := if n.minus then -magnitude else magnitude
    if h : -2 ^ (63 : Nat) ≤ value ∧ value < 2 ^ (64 : Nat) then some (.number (.integer value h))
    else none

/-! ### Expressions -/

/-- The variables of a call. -/
abbrev Scope := List (String × Datum)

section Evaluation

variable (call : String → List Datum → Option Datum)

namespace Term

mutual

/-- Operands are looked at from left to right, and the second one of `and` and `or` only if the
first one does not decide. -/
def eval (scope : Scope) : Term → Option Datum
  | .variable name => scope.lookup name
  | .nothing => some (.json .null)
  | .truth b => some (.json (.bool b))
  | .text s => some (.json (.string s))
  | .numeral n => (numeralValue? n).map .json
  | .operator c => some (.operator c)
  | .split operand => do (← operand.eval scope).split?
  | .get table key => do (← table.eval scope).get? (← key.eval scope)
  | .isInstance operand kinds => do
    return .json (.bool (← (← operand.eval scope).isInstance? kinds))
  | .identical first second => do
    return .json (.bool (← (← first.eval scope).identical? (← second.eval scope)))
  | .equal first second => do
    return .json (.bool (← (← first.eval scope).equal? (← second.eval scope)))
  | .call function arguments => do call function (← evalAll scope arguments)
  | .apply function first second => do
    (← function.eval scope).applied? (← first.eval scope) (← second.eval scope)
  | .negation operand => do return .json (.bool !(← operand.eval scope).isTrue)
  | .conjunction first second => do
    let value ← first.eval scope
    if value.isTrue then second.eval scope else return value
  | .disjunction first second => do
    let value ← first.eval scope
    if value.isTrue then return value else second.eval scope

def evalAll (scope : Scope) : List Term → Option (List Datum)
  | [] => some []
  | t :: rest => do return (← t.eval scope) :: (← evalAll scope rest)

end

variable {call} {scope : Scope}

theorem evalAll_cons {t : Term} {rest : List Term} {v : Datum} {vs : List Datum}
    (ht : t.eval call scope = some v) (hrest : evalAll call scope rest = some vs) :
    evalAll call scope (t :: rest) = some (v :: vs) := by
  rw [evalAll, ht, hrest]
  rfl

theorem eval_call {function : String} {arguments : List Term} {vs : List Datum}
    (h : evalAll call scope arguments = some vs) :
    (Term.call function arguments).eval call scope = call function vs := by
  rw [eval, h]
  rfl

end Term

/-! ### Statements -/

/-- A statement is done, or it was the last one of the call. -/
inductive HelperFlow where
  | next (scope : Scope)
  | answered (value : Datum)

namespace Instruction

def run (scope : Scope) : Instruction → Option HelperFlow
  | .assign name t => do return .next ((name, ← t.eval call scope) :: scope)
  | .answer t => do return .answered (← t.eval call scope)
  | .answerIf test t => do
    if (← test.eval call scope).isTrue then return .answered (← t.eval call scope)
    else return .next scope

def runAll (scope : Scope) : List Instruction → Option HelperFlow
  | [] => some (.next scope)
  | i :: rest => do
    match ← i.run call scope with
    | .next scope => runAll scope rest
    | .answered value => return .answered value

end Instruction

namespace HelperStatement

/-- The body with each item in turn, until one of them answers. -/
def runLoop (item : String) (body : List Instruction) (scope : Scope) :
    List Json → Option HelperFlow
  | [] => some (.next scope)
  | v :: rest => do
    match ← Instruction.runAll call ((item, .json v) :: scope) body with
    | .next scope => runLoop item body scope rest
    | .answered value => return .answered value

def run (scope : Scope) : HelperStatement → Option HelperFlow
  | .simple i => i.run call scope
  | .loop item row body => do
    match ← row.eval call scope with
    | .json (.array items) => runLoop call item body scope items
    | _ => none

/-- A body without an answer answers nothing. -/
def runAll (scope : Scope) : List HelperStatement → Option Datum
  | [] => some (.json .null)
  | s :: rest => do
    match ← s.run call scope with
    | .next scope => runAll scope rest
    | .answered value => return value

variable {call} {scope : Scope} {s : HelperStatement} {rest : List HelperStatement}

theorem runAll_next {after : Scope} (h : s.run call scope = some (.next after)) :
    runAll call scope (s :: rest) = runAll call after rest := by
  rw [runAll, h]
  rfl

theorem runAll_answered {value : Datum} (h : s.run call scope = some (.answered value)) :
    runAll call scope (s :: rest) = some value := by
  rw [runAll, h]
  rfl

end HelperStatement

end Evaluation

/-! ### Calls -/

namespace Helper

/-- Calls a helper, or the function `bool`, by its name. -/
def call (helpers : List Helper) : Nat → String → List Datum → Option Datum
  | 0, _, _ => none
  | depth + 1, name, arguments =>
    match helpers.find? (·.name == name) with
    | some h =>
      if h.parameters.length = arguments.length then
        HelperStatement.runAll (call helpers depth) (h.parameters.zip arguments) h.body
      else none
    | none =>
      match arguments with
      | [v] => if name = "bool" then some (.json (.bool v.isTrue)) else none
      | _ => none

end Helper

/-- The value of a condition in a context, with the helpers of the program. -/
def Condition.run (context : Json) (c : Condition) : Option Datum :=
  c.term.eval (Helper.call Helper.all 2) [("ctx", .json context)]

end StateMachine.Python
