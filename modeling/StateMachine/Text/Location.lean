/-!
Places in a text: the line and the column of a character, both counted from one. A line break
belongs to the line it ends.
-/

set_option autoImplicit false

namespace StateMachine

/-- A line and a column, counted without a bound. Counters of 32 bits give the same numbers in every
text of fewer than `2 ^ 32 - 1` characters. -/
structure Location where
  line : Nat
  column : Nat
deriving DecidableEq, Repr

namespace Location

/-- Where a text starts. -/
def start : Location :=
  ⟨1, 1⟩

/-- The location of what was not read from a text. -/
def unplaced : Location :=
  ⟨0, 0⟩

/-- The location after a character. -/
def next (location : Location) (c : Char) : Location :=
  if c = '\n' then ⟨location.line + 1, 1⟩ else ⟨location.line, location.column + 1⟩

/-- The location after a piece of text. -/
def after (location : Location) (text : List Char) : Location :=
  text.foldl next location

@[simp] theorem after_nil (location : Location) : location.after [] = location :=
  rfl

@[simp] theorem after_cons (location : Location) (c : Char) (text : List Char) :
    location.after (c :: text) = (location.next c).after text :=
  rfl

theorem after_append (location : Location) (first second : List Char) :
    location.after (first ++ second) = (location.after first).after second :=
  List.foldl_append

/-- `line:column`. -/
def text (location : Location) : String :=
  Nat.repr location.line ++ ":" ++ Nat.repr location.column

end Location

end StateMachine
