import StateMachine.Proofs.Guard.RoundTrip

/-!
The grammar of guards, and what a derivation denotes:

    disjunction := conjunction ( '||' conjunction )*
    conjunction := unary ( '&&' unary )*
    unary       := '!' unary | '(' disjunction ')' | atom
    atom        := FIELD
                 | FIELD ( '==' | '!=' ) value
                 | FIELD ( '>' | '>=' | '<' | '<=' ) NUMBER
    value       := 'true' | 'false' | 'null' | STRING | NUMBER
    FIELD       := 'ctx.' PART ( '.' PART )*

A PART is a row of letters, digits and underscores. A STRING stands between quotes and may have the
escapes of a guard. A NUMBER has a digit before or after its point, one in its exponent if it has
an exponent, and a finite double as its value.

Blanks may stand in front of every lexical element and at the end. A derivation is written as a
tree of everything that was read, blanks included: `Tree.chars` and `Derivation.text` give the text
back. What it denotes (`Tree.meaning`, `Derivation.guard`) forgets how the text was written; both
binary operators group to the left.
-/

set_option autoImplicit false

namespace StateMachine.Guard

open Numeric

/-! ### Lexical elements -/

abbrev Blanks := { blanks : List Char // ∀ c ∈ blanks, Text.isBlank c }

/-- The parts of the path of a field. -/
structure FieldPath where
  parts : List (List Char)
  parts_ne_nil : parts ≠ []
  part_ne_nil : ∀ part ∈ parts, part ≠ []
  isPart : ∀ part ∈ parts, ∀ c ∈ part, Identifier.isPart c

namespace FieldPath

def name (p : FieldPath) : String :=
  String.ofList (Text.join ['.'] p.parts)

def chars (p : FieldPath) : List Char :=
  fieldText p.name

end FieldPath

/-- A number as it is written, and the finite double that it denotes. -/
structure NumberLiteral where
  written : NumberText
  wellFormed : written.WellFormed
  value : FiniteDouble
  toDouble_eq : written.toDouble = .finite value

namespace NumberLiteral

def chars (n : NumberLiteral) : List Char :=
  n.written.chars

end NumberLiteral

/-- A character of a string as it is written. -/
inductive TextItem where
  | plain (c : Char) (hquote : c ≠ '"') (hslash : c ≠ '\\')
  | escape (c stands : Char) (h : unescape? c = some stands)

namespace TextItem

def chars : TextItem → List Char
  | .plain c _ _ => [c]
  | .escape c _ _ => ['\\', c]

/-- The character that is meant. -/
def char : TextItem → Char
  | .plain c _ _ => c
  | .escape _ stands _ => stands

end TextItem

inductive Value where
  | bool (b : Bool)
  | null
  | text (items : List TextItem)
  | number (n : NumberLiteral)

namespace Value

def chars : Value → List Char
  | .bool true => "true".toList
  | .bool false => "false".toList
  | .null => "null".toList
  | .text items => '"' :: (items.flatMap TextItem.chars ++ ['"'])
  | .number n => n.chars

def json : Value → Json
  | .bool b => .bool b
  | .null => .null
  | .text items => .string (String.ofList (items.map TextItem.char))
  | .number n => .number (.double n.value)

end Value

/-! ### Productions -/

/-- A field on its own, or a field, an operator and what it is compared with. -/
inductive Atom where
  | truthy (field : FieldPath)
  | equals (field : FieldPath) (before after : Blanks) (value : Value)
  | differs (field : FieldPath) (before after : Blanks) (value : Value)
  | compares (field : FieldPath) (before : Blanks) (comparison : Comparison) (after : Blanks)
      (bound : NumberLiteral)

namespace Atom

/-- A field, an operator and an operand, with blanks around the operator. -/
def comparisonChars (field : FieldPath) (before : Blanks) (operator : Operator) (after : Blanks)
    (operand : List Char) : List Char :=
  field.chars ++ (before.val ++ (operator.symbol ++ (after.val ++ operand)))

def chars : Atom → List Char
  | .truthy field => field.chars
  | .equals field before after value =>
    comparisonChars field before .equals after value.chars
  | .differs field before after value =>
    comparisonChars field before .differs after value.chars
  | .compares field before comparison after bound =>
    comparisonChars field before (.compares comparison) after bound.chars

def guard : Atom → Guard
  | .truthy field => .truthy field.name
  | .equals field _ _ value => .equals field.name value.json
  | .differs field _ _ value => .differs field.name value.json
  | .compares field _ comparison _ bound =>
    .compares field.name comparison (.finite bound.value)

end Atom

/-- What a tree is a derivation of. The tails are the repetitions behind a first operand. -/
inductive Level where
  | unary
  | conjunction
  | conjunctionTail
  | disjunction
  | disjunctionTail

inductive Tree : Level → Type where
  | atom (before : Blanks) (content : Atom) : Tree .unary
  | negated (before : Blanks) (inner : Tree .unary) : Tree .unary
  | group (before : Blanks) (inner : Tree .disjunction) (close : Blanks) : Tree .unary
  | conjunction (first : Tree .unary) (more : Tree .conjunctionTail) : Tree .conjunction
  | noConjunct : Tree .conjunctionTail
  | conjunct (before : Blanks) (next : Tree .unary) (more : Tree .conjunctionTail) :
    Tree .conjunctionTail
  | disjunction (first : Tree .conjunction) (more : Tree .disjunctionTail) : Tree .disjunction
  | noDisjunct : Tree .disjunctionTail
  | disjunct (before : Blanks) (next : Tree .conjunction) (more : Tree .disjunctionTail) :
    Tree .disjunctionTail

/-- A tail denotes what becomes of the guard in front of it. -/
def Level.Meaning : Level → Type
  | .conjunctionTail | .disjunctionTail => Guard → Guard
  | _ => Guard

namespace Tree

def chars : {level : Level} → Tree level → List Char
  | _, .atom before content => before.val ++ content.chars
  | _, .negated before inner => before.val ++ '!' :: inner.chars
  | _, .group before inner close => before.val ++ '(' :: (inner.chars ++ (close.val ++ [')']))
  | _, .conjunction first more => first.chars ++ more.chars
  | _, .noConjunct => []
  | _, .conjunct before next more => before.val ++ '&' :: '&' :: (next.chars ++ more.chars)
  | _, .disjunction first more => first.chars ++ more.chars
  | _, .noDisjunct => []
  | _, .disjunct before next more => before.val ++ '|' :: '|' :: (next.chars ++ more.chars)

def meaning : {level : Level} → Tree level → level.Meaning
  | _, .atom _ content => content.guard
  | _, .negated _ inner => Guard.negated inner.meaning
  | _, .group _ inner _ => inner.meaning
  | _, .conjunction first more => more.meaning first.meaning
  | _, .noConjunct => fun left ↦ left
  | _, .conjunct _ next more => fun left ↦ more.meaning (.both left next.meaning)
  | _, .disjunction first more => more.meaning first.meaning
  | _, .noDisjunct => fun left ↦ left
  | _, .disjunct _ next more => fun left ↦ more.meaning (.either left next.meaning)

end Tree

/-- A derivation of a whole text. -/
structure Derivation where
  tree : Tree .disjunction
  after : Blanks

namespace Derivation

def text (d : Derivation) : String :=
  String.ofList (d.tree.chars ++ d.after.val)

def guard (d : Derivation) : Guard :=
  d.tree.meaning

end Derivation

end StateMachine.Guard
