import StateMachine.Json.Basic
import StateMachine.Numeric.Numeral

/-!
JSON text. `compact` writes no blanks; `pretty` puts every item and member on a line of its own,
two blanks deeper than its container. In strings the quote, the backslash and the characters below
the blank are escaped, all else stands for itself.
-/

set_option autoImplicit false

namespace StateMachine.Json

open Numeric

def hexDigit (n : Nat) : Char :=
  Nat.digitChar (n % 16)

/-- How a character is written inside a string. -/
def escaped (c : Char) : List Char :=
  if c = '"' then ['\\', '"']
  else if c = '\\' then ['\\', '\\']
  else if c = '\x08' then ['\\', 'b']
  else if c = '\x0c' then ['\\', 'f']
  else if c = '\n' then ['\\', 'n']
  else if c = '\r' then ['\\', 'r']
  else if c = '\t' then ['\\', 't']
  else if c.toNat < 32 then ['\\', 'u', '0', '0', hexDigit (c.toNat / 16), hexDigit c.toNat]
  else [c]

/-- A string between quotes. -/
def quoted (s : String) : List Char :=
  '"' :: (s.toList.flatMap escaped ++ ['"'])

def numberText : JsonNumber → List Char
  | .integer n _ => integerText n
  | .double x => NumeralStyle.json.finiteText x

def boolText (b : Bool) : List Char :=
  if b then "true".toList else "false".toList

mutual

/-- The text without blanks. -/
def compact : Json → List Char
  | .null => "null".toList
  | .bool b => boolText b
  | .number n => numberText n
  | .string s => quoted s
  | .array [] => ['[', ']']
  | .array (item :: items) => '[' :: (item.compact ++ compactItems items)
  | .object [] => ['\x7b', '\x7d']
  | .object ((key, value) :: members) =>
    '\x7b' :: (quoted key ++ ':' :: (value.compact ++ compactMembers members))

def compactItems : List Json → List Char
  | [] => [']']
  | item :: items => ',' :: (item.compact ++ compactItems items)

def compactMembers : List (String × Json) → List Char
  | [] => ['\x7d']
  | (key, value) :: members =>
    ',' :: (quoted key ++ ':' :: (value.compact ++ compactMembers members))

end

/-- A line break and the indentation of a depth. -/
def newLine (depth : Nat) : List Char :=
  '\n' :: List.replicate (2 * depth) ' '

mutual

/-- The text with one item or member on a line, for a value at a depth. -/
def prettyAt (depth : Nat) : Json → List Char
  | .array (item :: items) =>
    '[' :: (newLine (depth + 1) ++ item.prettyAt (depth + 1) ++ prettyItems depth items)
  | .object ((key, value) :: members) =>
    '\x7b' :: (newLine (depth + 1) ++ quoted key ++ ':' :: ' ' ::
      (value.prettyAt (depth + 1) ++ prettyMembers depth members))
  | .null => "null".toList
  | .bool b => boolText b
  | .number n => numberText n
  | .string s => quoted s
  | .array [] => ['[', ']']
  | .object [] => ['\x7b', '\x7d']

def prettyItems (depth : Nat) : List Json → List Char
  | [] => newLine depth ++ [']']
  | item :: items =>
    ',' :: (newLine (depth + 1) ++ item.prettyAt (depth + 1) ++ prettyItems depth items)

def prettyMembers (depth : Nat) : List (String × Json) → List Char
  | [] => newLine depth ++ ['\x7d']
  | (key, value) :: members =>
    ',' :: (newLine (depth + 1) ++ quoted key ++ ':' :: ' ' ::
      (value.prettyAt (depth + 1) ++ prettyMembers depth members))

end

def pretty (value : Json) : List Char :=
  value.prettyAt 0

end StateMachine.Json
