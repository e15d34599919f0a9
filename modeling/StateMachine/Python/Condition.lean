import StateMachine.Guard.Basic
import StateMachine.Json.Writer

/-!
Guards as conditions of Python programs. A condition is made of calls of three helpers of the
generated program; `or` binds weakest, then `and`, then `not`, and an operand is parenthesised only
where its place demands it.
-/

set_option autoImplicit false

namespace StateMachine.Python

open Numeric

/-- A condition of a program. -/
inductive Condition where
  | truth (field : String)
  | equal (field : String) (literal : Json)
  | compare (field : String) (comparison : Comparison) (operand : Double)
  | conjunction (left right : Condition)
  | disjunction (left right : Condition)
  | negation (inner : Condition)

/-- A text as a literal of the program, which is written as in JSON. -/
def textLiteral (s : String) : String :=
  String.ofList (Json.quoted s)

/-- A text or nothing. -/
def optionalLiteral : Option String → String
  | none => "None"
  | some s => textLiteral s

/-- A value as a literal. -/
def literal : Json → String
  | .null => "None"
  | .bool true => "True"
  | .bool false => "False"
  | value => String.ofList value.compact

/-- The function of the operator module that compares so. -/
def operatorName : Comparison → String
  | .greater => "gt"
  | .atLeast => "ge"
  | .less => "lt"
  | .atMost => "le"

namespace Condition

/-- The condition that a guard becomes. -/
def ofGuard : Guard → Condition
  | .truthy f => .truth f
  | .equals f value => .equal f value
  | .differs f value => .negation (.equal f value)
  | .compares f comparison bound => .compare f comparison bound
  | .both a b => .conjunction (ofGuard a) (ofGuard b)
  | .either a b => .disjunction (ofGuard a) (ofGuard b)
  | .negated a => .negation (ofGuard a)

/-- How tightly the outermost part of a condition binds. -/
def precedence : Condition → Nat
  | .disjunction _ _ => 1
  | .conjunction _ _ => 2
  | .negation _ => 3
  | _ => 4

/-- An operand, in parentheses if it binds less tightly than its place demands. -/
def enclosed (demand : Nat) (operand : Condition) (text : String) : String :=
  if operand.precedence < demand then "(" ++ text ++ ")" else text

def text : Condition → String
  | .truth f => "bool(_field(ctx, " ++ textLiteral f ++ "))"
  | .equal f value => "_equals(_field(ctx, " ++ textLiteral f ++ "), " ++ literal value ++ ")"
  | .compare f comparison operand =>
    "_compare(ctx, " ++ textLiteral f ++ ", operator." ++ operatorName comparison ++ ", " ++
      String.ofList (NumeralStyle.operand.text operand) ++ ")"
  | .disjunction a b => enclosed 1 a a.text ++ " or " ++ enclosed 2 b b.text
  | .conjunction a b => enclosed 2 a a.text ++ " and " ++ enclosed 3 b b.text
  | .negation a => "not " ++ enclosed 3 a a.text

theorem text_truth (f : String) :
    (truth f).text = "bool(_field(ctx, " ++ textLiteral f ++ "))" :=
  rfl

theorem text_equal (f : String) (value : Json) :
    (equal f value).text =
      "_equals(_field(ctx, " ++ textLiteral f ++ "), " ++ Python.literal value ++ ")" :=
  rfl

theorem text_compare (f : String) (c : Comparison) (operand : Double) :
    (compare f c operand).text =
      "_compare(ctx, " ++ textLiteral f ++ ", operator." ++ operatorName c ++ ", " ++
        String.ofList (NumeralStyle.operand.text operand) ++ ")" :=
  rfl

theorem text_conjunction (a b : Condition) :
    (conjunction a b).text = enclosed 2 a a.text ++ " and " ++ enclosed 3 b b.text :=
  rfl

theorem text_disjunction (a b : Condition) :
    (disjunction a b).text = enclosed 1 a a.text ++ " or " ++ enclosed 2 b b.text :=
  rfl

theorem text_negation (a : Condition) :
    (negation a).text = "not " ++ enclosed 3 a a.text :=
  rfl

end Condition

end StateMachine.Python
