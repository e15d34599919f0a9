import StateMachine.Guard.Basic
import StateMachine.Json.Writer

/-!
The canonical text of a guard. `||` binds weakest, then `&&`, then `!`; an operand is parenthesised
only where reading it back would otherwise give another guard. Both operators group to the left, so
a right operand of the same kind needs its parentheses.
-/

set_option autoImplicit false

namespace StateMachine

open Numeric

namespace Comparison

def symbol : Comparison → List Char
  | .greater => ['>']
  | .atLeast => ['>', '=']
  | .less => ['<']
  | .atMost => ['<', '=']

end Comparison

namespace Guard

/-- How a character stands in a text literal. -/
def escaped (c : Char) : List Char :=
  match c with
  | '"' => ['\\', '"']
  | '\\' => ['\\', '\\']
  | '\n' => ['\\', 'n']
  | '\t' => ['\\', 't']
  | '\r' => ['\\', 'r']
  | c => [c]

/-- A literal: text has only the escapes above, other values are written as JSON. -/
def literalText : Json → List Char
  | .string s => '"' :: (s.toList.flatMap escaped ++ ['"'])
  | value => value.compact

/-- How tightly the outermost part of a guard binds. -/
def precedence : Guard → Nat
  | .either _ _ => 1
  | .both _ _ => 2
  | .negated _ => 3
  | _ => 4

/-- An operand, in parentheses if it binds less tightly than its place demands. -/
def enclosed (demand : Nat) (operand : Guard) (text : List Char) : List Char :=
  if operand.precedence < demand then '(' :: (text ++ [')']) else text

/-- A field as it is written. -/
def fieldText (field : String) : List Char :=
  "ctx.".toList ++ field.toList

/-- The characters of the canonical text. -/
def chars : Guard → List Char
  | .truthy f => fieldText f
  | .equals f literal => fieldText f ++ " == ".toList ++ literalText literal
  | .differs f literal => fieldText f ++ " != ".toList ++ literalText literal
  | .compares f comparison bound =>
    fieldText f ++ ' ' :: comparison.symbol ++ ' ' :: NumeralStyle.plain.text bound
  | .either a b => enclosed 1 a a.chars ++ " || ".toList ++ enclosed 2 b b.chars
  | .both a b => enclosed 2 a a.chars ++ " && ".toList ++ enclosed 3 b b.chars
  | .negated a => '!' :: enclosed 3 a a.chars

/-- The canonical text. -/
def text (guard : Guard) : String :=
  String.ofList guard.chars

end Guard

end StateMachine
