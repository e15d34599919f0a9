import StateMachine.Guard.Basic
import StateMachine.Guard.Error
import StateMachine.Guard.Number
import StateMachine.Text.Blank
import StateMachine.Text.Shorter
import StateMachine.Text.Split

/-!
Reading guards. `||` binds weakest, then `&&`, then `!`; both binary operators group to the left.
Blanks may stand between any two lexical elements and at both ends.

A step takes the text that is left and gives what it read together with a shorter text, or a flaw
together with the number of characters that were left where it showed.
-/

set_option autoImplicit false

namespace StateMachine.Guard

open Numeric
open Text (Shorter NotLonger skipBlanks length_skipBlanks_le length_dropWhile_le
  lt_of_dropWhile_eq_cons)

/-- A flaw and how many characters were left. -/
structure Failure where
  flaw : Flaw
  left : Nat

/-- A step that reads something. -/
abbrev Step (α : Type) (text : List Char) := Except Failure (α × Shorter text)

/-- The same step, seen from a longer text. -/
def Step.widen {α : Type} {text longer : List Char} (h : text.length ≤ longer.length) :
    Step α text → Step α longer
  | .error failure => .error failure
  | .ok (a, rest) => .ok (a, ⟨rest.1, Nat.lt_of_lt_of_le rest.2 h⟩)

/-! ### Fields -/

/-- May this character stand in the path of a field? -/
def isPathChar (c : Char) : Bool :=
  c.isAlphanum || c = '_' || c = '.'

/-- A field: `ctx.` and a path of parts, none of them empty, with dots between them. -/
def field (text : List Char) : Step String text :=
  match text with
  | 'c' :: 't' :: 'x' :: '.' :: rest =>
    let path := rest.takeWhile isPathChar
    if path = [] then .error ⟨.emptyField, rest.length⟩
    else if (Text.parts '.' path).any List.isEmpty then
      .error ⟨.malformedPath (String.ofList path), rest.length⟩
    else
      .ok (String.ofList path, ⟨rest.dropWhile isPathChar, by
        have h := length_dropWhile_le isPathChar rest
        simp only [List.length_cons]
        omega⟩)
  | _ => .error ⟨.noField, text.length⟩

/-! ### Literals -/

/-- What is wrong with a text literal. -/
inductive LiteralFlaw where
  | unterminated
  | unknownEscape (c : Char) (left : Nat)

/-- The character that an escape stands for. -/
def unescape? (c : Char) : Option Char :=
  match c with
  | 'n' => some '\n'
  | 't' => some '\t'
  | 'r' => some '\r'
  | '"' => some '"'
  | '\\' => some '\\'
  | _ => none

/-- A text literal up to its closing quote. -/
def literalBody : (text : List Char) → Except LiteralFlaw (List Char × Shorter text)
  | [] => .error .unterminated
  | '"' :: rest => .ok ([], ⟨rest, Nat.lt_succ_self _⟩)
  | ['\\'] => .error .unterminated
  | '\\' :: c :: rest =>
    match unescape? c with
    | none => .error (.unknownEscape c rest.length)
    | some plain =>
      match literalBody rest with
      | .error flaw => .error flaw
      | .ok (body, last) => .ok (plain :: body, ⟨last.1, by
          have h := last.2
          simp only [List.length_cons]
          omega⟩)
  | c :: rest =>
    match literalBody rest with
    | .error flaw => .error flaw
    | .ok (body, last) => .ok (c :: body, ⟨last.1, by
        have h := last.2
        simp only [List.length_cons]
        omega⟩)

/-- The rest of a text after a whole word: no letter, digit or underscore follows it. -/
def afterWord? (word text : List Char) : Option (List Char) :=
  if word.isPrefixOf text && (text.drop word.length).head?.all fun c ↦ !(c.isAlphanum || c = '_')
  then some (text.drop word.length) else none

theorem length_of_afterWord? {word text rest : List Char} (h : afterWord? word text = some rest)
    (hword : 0 < word.length) : rest.length < text.length := by
  simp only [afterWord?, Bool.and_eq_true] at h
  split at h
  · next hcondition =>
    cases h
    have hle := (List.isPrefixOf_iff_prefix.1 hcondition.1).length_le
    rw [List.length_drop]
    omega
  · exact absurd h (by simp)

/-- A number within the range of doubles. -/
def number (text : List Char) : Step FiniteDouble text :=
  match h : NumberText.split text with
  | (n, rest) =>
    if hvalid : n.isValid then
      match n.toDouble with
      | .finite x => .ok (x, ⟨rest, by
          have happend := congrArg List.length (NumberText.chars_split_append text)
          have hpos := NumberText.length_chars_pos hvalid
          rw [h, List.length_append] at happend
          dsimp only at happend
          omega⟩)
      | _ => .error ⟨.numberOutOfRange (String.ofList n.chars), text.length⟩
    else .error ⟨.invalidNumber (String.ofList n.chars), text.length⟩

/-- A literal: a truth value, the null value, a text or a number. -/
def literal (text : List Char) : Step Json text :=
  match htrue : afterWord? "true".toList text with
  | some rest => .ok (.bool true, ⟨rest, length_of_afterWord? htrue (by decide)⟩)
  | none =>
  match hfalse : afterWord? "false".toList text with
  | some rest => .ok (.bool false, ⟨rest, length_of_afterWord? hfalse (by decide)⟩)
  | none =>
  match hnull : afterWord? "null".toList text with
  | some rest => .ok (.null, ⟨rest, length_of_afterWord? hnull (by decide)⟩)
  | none =>
  match text with
  | '"' :: body =>
    match literalBody body with
    | .ok (s, rest) => .ok (.string (String.ofList s), ⟨rest.1, Nat.lt_succ_of_lt rest.2⟩)
    | .error .unterminated => .error ⟨.unterminatedText, body.length + 1⟩
    | .error (.unknownEscape c left) => .error ⟨.unknownEscape c, left⟩
  | text =>
    match number text with
    | .error failure => .error failure
    | .ok (x, rest) => .ok (.number (.double x), rest)

/-! ### Comparisons -/

/-- What may follow a field. -/
inductive Operator where
  | equals
  | differs
  | compares (comparison : Comparison)

/-- The operator at the head of a text; of two that fit the longer one. -/
def operator? : (text : List Char) → Option (Operator × Shorter text)
  | '=' :: '=' :: rest => some (.equals, ⟨rest, by simp only [List.length_cons]; omega⟩)
  | '!' :: '=' :: rest => some (.differs, ⟨rest, by simp only [List.length_cons]; omega⟩)
  | '>' :: '=' :: rest => some (.compares .atLeast, ⟨rest, by simp only [List.length_cons]; omega⟩)
  | '<' :: '=' :: rest => some (.compares .atMost, ⟨rest, by simp only [List.length_cons]; omega⟩)
  | '>' :: rest => some (.compares .greater, ⟨rest, Nat.lt_succ_self _⟩)
  | '<' :: rest => some (.compares .less, ⟨rest, Nat.lt_succ_self _⟩)
  | _ => none

/-- What an operator is applied to. -/
def operand (name : String) (operator : Operator) (text : List Char) : Step Guard text :=
  match operator with
  | .equals =>
    match literal text with
    | .error failure => .error failure
    | .ok (value, rest) => .ok (.equals name value, rest)
  | .differs =>
    match literal text with
    | .error failure => .error failure
    | .ok (value, rest) => .ok (.differs name value, rest)
  | .compares comparison =>
    match number text with
    | .error failure => .error failure
    | .ok (bound, rest) => .ok (.compares name comparison (.finite bound), rest)

/-- A field on its own or compared with something. -/
def atom (text : List Char) : Step Guard text :=
  match field text with
  | .error failure => .error failure
  | .ok (name, rest) =>
    match operator? (skipBlanks rest.1) with
    | none => .ok (.truthy name, rest)
    | some (operator, after) =>
      Step.widen (by
        have hblanks := length_skipBlanks_le rest.1
        have hafter := length_skipBlanks_le after.1
        have _hrest := rest.2
        have hoperator := after.2
        omega) (operand name operator (skipBlanks after.1))

/-! ### Connectives -/

mutual

/-- `!` and an operand, a guard in parentheses, or an atom. -/
def unary (text : List Char) : Step Guard text :=
  match h : skipBlanks text with
  | '!' :: rest =>
    have hrest : rest.length < text.length := lt_of_dropWhile_eq_cons h
    match unary rest with
    | .error failure => .error failure
    | .ok (inner, last) => .ok (.negated inner, ⟨last.1, Nat.lt_trans last.2 hrest⟩)
  | '(' :: rest =>
    have hrest : rest.length < text.length := lt_of_dropWhile_eq_cons h
    match disjunction rest with
    | .error failure => .error failure
    | .ok (inner, last) =>
      match hclose : skipBlanks last.1 with
      | ')' :: after => .ok (inner, ⟨after, by
          have hafter : after.length < last.1.length := lt_of_dropWhile_eq_cons hclose
          have hlast := last.2
          omega⟩)
      | left => .error ⟨.missingParenthesis, left.length⟩
  | _ => Step.widen (length_skipBlanks_le text) (atom (skipBlanks text))
termination_by (text.length, 0)

/-- Operands with `&&` between them. -/
def conjunction (text : List Char) : Step Guard text :=
  match unary text with
  | .error failure => .error failure
  | .ok (left, rest) =>
    have _hrest := rest.2
    match conjunctionTail left rest.1 with
    | .error failure => .error failure
    | .ok (guard, last) => .ok (guard, ⟨last.1, Nat.lt_of_le_of_lt last.2 rest.2⟩)
termination_by (text.length, 1)

/-- The further operands of a conjunction, if there are any. -/
def conjunctionTail (left : Guard) (text : List Char) :
    Except Failure (Guard × NotLonger text) :=
  match h : skipBlanks text with
  | '&' :: '&' :: rest =>
    have hrest : rest.length < text.length := by
      have hcons : (rest.length + 1) < text.length := lt_of_dropWhile_eq_cons h
      omega
    match unary rest with
    | .error failure => .error failure
    | .ok (right, after) =>
      have hafter : after.1.length < text.length := Nat.lt_trans after.2 hrest
      match conjunctionTail (.both left right) after.1 with
      | .error failure => .error failure
      | .ok (guard, last) => .ok (guard, ⟨last.1, by have hlast := last.2; omega⟩)
  | _ => .ok (left, ⟨text, Nat.le_refl _⟩)
termination_by (text.length, 1)

/-- Conjunctions with `||` between them. -/
def disjunction (text : List Char) : Step Guard text :=
  match conjunction text with
  | .error failure => .error failure
  | .ok (left, rest) =>
    have _hrest := rest.2
    match disjunctionTail left rest.1 with
    | .error failure => .error failure
    | .ok (guard, last) => .ok (guard, ⟨last.1, Nat.lt_of_le_of_lt last.2 rest.2⟩)
termination_by (text.length, 2)

/-- The further operands of a disjunction, if there are any. -/
def disjunctionTail (left : Guard) (text : List Char) :
    Except Failure (Guard × NotLonger text) :=
  match h : skipBlanks text with
  | '|' :: '|' :: rest =>
    have hrest : rest.length < text.length := by
      have hcons : (rest.length + 1) < text.length := lt_of_dropWhile_eq_cons h
      omega
    match conjunction rest with
    | .error failure => .error failure
    | .ok (right, after) =>
      have hafter : after.1.length < text.length := Nat.lt_trans after.2 hrest
      match disjunctionTail (.either left right) after.1 with
      | .error failure => .error failure
      | .ok (guard, last) => .ok (guard, ⟨last.1, by have hlast := last.2; omega⟩)
  | _ => .ok (left, ⟨text, Nat.le_refl _⟩)
termination_by (text.length, 2)

end

/-- The guard that a text is, or what is wrong with it. -/
def parseChars (text : List Char) : Except Failure Guard :=
  if skipBlanks text = [] then .error ⟨.empty, 0⟩
  else
    match disjunction text with
    | .error failure => .error failure
    | .ok (guard, rest) =>
      match skipBlanks rest.1 with
      | [] => .ok guard
      | left => .error ⟨.trailingInput, left.length⟩

/-- The guard that a text is. -/
def parse (text : String) : Except ParseError Guard :=
  match parseChars text.toList with
  | .ok guard => .ok guard
  | .error failure => .error ⟨failure.flaw, text.toList.length - failure.left⟩

end StateMachine.Guard
