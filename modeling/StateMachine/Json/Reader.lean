import StateMachine.Json.Number
import StateMachine.Text.Shorter

/-!
Reading JSON text. `parse?` accepts one value between blanks; blanks are the space, the tab and
the two line breaks. Containers nest less than 128 deep. A step that succeeds leaves a shorter
text, which is why reading ends.
-/

set_option autoImplicit false

namespace StateMachine.Json

open Numeric
open Text (Shorter lt_of_dropWhile_eq_cons)

def isBlank (c : Char) : Bool :=
  c = ' ' || c = '\t' || c = '\n' || c = '\r'

/-! ### Numbers -/

/-- A row of digits and what follows it. -/
def digits (text : List Char) : List Char × List Char :=
  (text.takeWhile Char.isDigit, text.dropWhile Char.isDigit)

/-- The digits before the point: a single zero or a row that starts with none. -/
def wholePart? (text : List Char) : Option (List Char × List Char) :=
  match digits text with
  | ([], _) => none
  | (['0'], rest) => some (['0'], rest)
  | ('0' :: _, _) => none
  | part => some part

def fractionPart? : List Char → Option (Option (List Char) × List Char)
  | '.' :: text =>
    match digits text with
    | ([], _) => none
    | (part, rest) => some (some part, rest)
  | text => some (none, text)

def exponentDigits? (negative : Bool) (text : List Char) : Option (Option Int × List Char) :=
  match digits text with
  | ([], _) => none
  | (part, rest) =>
    some (some (if negative then -(naturalValue part : Int) else naturalValue part), rest)

def exponentPart? : List Char → Option (Option Int × List Char)
  | c :: text =>
    if c = 'e' || c = 'E' then
      match text with
      | '+' :: text => exponentDigits? false text
      | '-' :: text => exponentDigits? true text
      | text => exponentDigits? false text
    else some (none, c :: text)
  | [] => some (none, [])

def number? (text : List Char) : Option (JsonNumber × List Char) := do
  let (negative, text) := match text with
    | '-' :: text => (true, text)
    | text => (false, text)
  let (whole, text) ← wholePart? text
  let (fraction, text) ← fractionPart? text
  let (exponent, text) ← exponentPart? text
  return (← NumberText.value? ⟨negative, whole, fraction, exponent⟩, text)

/-! ### Strings -/

def hexValue? (c : Char) : Option Nat :=
  if c.isDigit then some (digitValue c)
  else if 'a' ≤ c && c ≤ 'f' then some (c.toNat - 'a'.toNat + 10)
  else if 'A' ≤ c && c ≤ 'F' then some (c.toNat - 'A'.toNat + 10)
  else none

/-- The 16 bits of four hexadecimal digits. -/
def unit? (a b c d : Char) : Option Nat := do
  return ((← hexValue? a) * 16 + (← hexValue? b)) * 256 + ((← hexValue? c) * 16 + (← hexValue? d))

def simpleEscape? (c : Char) : Option Char :=
  match c with
  | '"' => some '"'
  | '\\' => some '\\'
  | '/' => some '/'
  | 'b' => some '\x08'
  | 'f' => some '\x0c'
  | 'n' => some '\n'
  | 'r' => some '\r'
  | 't' => some '\t'
  | _ => none

def isHighSurrogate (unit : Nat) : Bool :=
  0xD800 ≤ unit && unit < 0xDC00

def isLowSurrogate (unit : Nat) : Bool :=
  0xDC00 ≤ unit && unit < 0xE000

/-- A string up to its closing quote. A surrogate written as an escape needs its partner. -/
def stringBody? : List Char → Option (List Char × List Char)
  | '"' :: rest => some ([], rest)
  | '\\' :: 'u' :: a :: b :: c :: d :: rest =>
    match unit? a b c d with
    | none => none
    | some high =>
      if isHighSurrogate high then
        match rest with
        | '\\' :: 'u' :: e :: f :: g :: h :: rest =>
          match unit? e f g h with
          | none => none
          | some low =>
            if isLowSurrogate low then
              (stringBody? rest).map fun (body, rest) ↦
                (Char.ofNat (0x10000 + (high - 0xD800) * 0x400 + (low - 0xDC00)) :: body, rest)
            else none
        | _ => none
      else if isLowSurrogate high then none
      else (stringBody? rest).map fun (body, rest) ↦ (Char.ofNat high :: body, rest)
  | '\\' :: c :: rest =>
    match simpleEscape? c with
    | none => none
    | some plain => (stringBody? rest).map fun (body, rest) ↦ (plain :: body, rest)
  | c :: rest =>
    if c = '\\' || c.toNat < 32 then none
    else (stringBody? rest).map fun (body, rest) ↦ (c :: body, rest)
  | [] => none

/-! ### Values -/

/-- Keeps a step only if it consumed something. -/
def consumed? {α : Type} (text : List Char) (step : Option (α × List Char)) :
    Option (α × Shorter text) :=
  match step with
  | none => none
  | some (a, rest) => if h : rest.length < text.length then some (a, ⟨rest, h⟩) else none

/-- A fixed word. -/
def word? (word : String) (value : Json) (text : List Char) : Option (Json × List Char) :=
  if word.toList.isPrefixOf text then some (value, text.drop word.toList.length) else none

/-- A key and the colon after it. -/
def key? (text : List Char) : Option (String × Shorter text) :=
  consumed? text <|
    match text.dropWhile isBlank with
    | '"' :: body =>
      match stringBody? body with
      | some (key, rest) =>
        match rest.dropWhile isBlank with
        | ':' :: rest => some (String.ofList key, rest)
        | _ => none
      | none => none
    | _ => none

mutual

/-- A value after blanks, with so many levels of nesting left. -/
def value? (depth : Nat) (text : List Char) : Option (Json × Shorter text) :=
  match h : text.dropWhile isBlank with
  | '[' :: body =>
    have hbody : body.length < text.length := lt_of_dropWhile_eq_cons h
    match depth with
    | 0 => none
    | depth + 1 =>
      match body.dropWhile isBlank with
      | ']' :: rest => consumed? text (some (.array [], rest))
      | _ =>
        match items? depth body with
        | none => none
        | some (items, rest) => some (.array items, ⟨rest.1, by have := rest.2; omega⟩)
  | '\x7b' :: body =>
    have hbody : body.length < text.length := lt_of_dropWhile_eq_cons h
    match depth with
    | 0 => none
    | depth + 1 =>
      match body.dropWhile isBlank with
      | '\x7d' :: rest => consumed? text (some (.ofMembers [], rest))
      | _ =>
        match members? depth body with
        | none => none
        | some (members, rest) =>
          some (.ofMembers members, ⟨rest.1, by have := rest.2; omega⟩)
  | '"' :: body =>
    consumed? text ((stringBody? body).map fun (s, rest) ↦ (.string (String.ofList s), rest))
  | 'n' :: rest => consumed? text (word? "null" .null ('n' :: rest))
  | 't' :: rest => consumed? text (word? "true" (.bool true) ('t' :: rest))
  | 'f' :: rest => consumed? text (word? "false" (.bool false) ('f' :: rest))
  | rest => consumed? text ((number? rest).map fun (n, rest) ↦ (.number n, rest))
termination_by (depth, text.length)

/-- The items of an array up to its closing bracket. -/
def items? (depth : Nat) (text : List Char) : Option (List Json × Shorter text) :=
  match value? depth text with
  | none => none
  | some (item, rest) =>
    match h : rest.1.dropWhile isBlank with
    | ',' :: more =>
      have hmore : more.length < text.length :=
        Nat.lt_trans (lt_of_dropWhile_eq_cons h) rest.2
      match items? depth more with
      | none => none
      | some (items, last) => some (item :: items, ⟨last.1, by have := last.2; omega⟩)
    | ']' :: after =>
      some ([item], ⟨after, Nat.lt_trans (lt_of_dropWhile_eq_cons h) rest.2⟩)
    | _ => none
termination_by (depth, text.length + 1)

/-- The members of an object up to its closing brace. -/
def members? (depth : Nat) (text : List Char) : Option (List (String × Json) × Shorter text) :=
  match key? text with
  | none => none
  | some (key, tail) =>
    have htail := tail.2
    match value? depth tail.1 with
    | none => none
    | some (value, rest) =>
      match h : rest.1.dropWhile isBlank with
      | ',' :: more =>
        have hmore : more.length < text.length :=
          Nat.lt_trans (lt_of_dropWhile_eq_cons h) (Nat.lt_trans rest.2 htail)
        match members? depth more with
        | none => none
        | some (members, last) =>
          some ((key, value) :: members, ⟨last.1, by have := last.2; omega⟩)
      | '\x7d' :: after =>
        some ([(key, value)], ⟨after,
          Nat.lt_trans (lt_of_dropWhile_eq_cons h) (Nat.lt_trans rest.2 htail)⟩)
      | _ => none
termination_by (depth, text.length + 1)

end

/-- The levels of nesting a text may have. -/
def maxDepth : Nat := 127

/-- The value that is the whole text, blanks around it apart. -/
def parse? (text : String) : Option Json :=
  match value? maxDepth text.toList with
  | some (value, rest) => if rest.1.all isBlank then some value else none
  | none => none

end StateMachine.Json
