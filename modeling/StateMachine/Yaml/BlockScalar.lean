import StateMachine.Yaml.Cursor
import StateMachine.Yaml.Node

/-!
Scalars that are blocks of lines. The first line says how the lines are joined, what becomes of the
breaks at the end, and how deep the block is; if it does not say how deep, the first line with
content does.
-/

set_option autoImplicit false

namespace StateMachine.Yaml.BlockScalar

/-- What becomes of the line breaks at the end of a block. -/
inductive Chomping where
  /-- None is kept. -/
  | strip
  /-- The first one is kept. -/
  | clip
  /-- All are kept. -/
  | keep

namespace Chomping

def ofMark? (c : Char) : Option Chomping :=
  if c = '+' then some .keep else if c = '-' then some .strip else none

end Chomping

/-! ### The first line -/

/-- The mark of chomping, if there is one. -/
def chomping (c : Cursor) : Option Chomping × Cursor :=
  match c.rest.head?.bind Chomping.ofMark? with
  | some mark => (some mark, c.advance 1)
  | none => (none, c)

/-- How much deeper than the blocks around it the scalar is. Nothing is said by zero, which must
not be written. -/
def increment? (c : Cursor) : Option (Nat × Cursor) :=
  match c.rest.head? with
  | some d =>
    if d = '0' then none
    else if d.isDigit then some (d.toNat - '0'.toNat, c.advance 1)
    else some (0, c)
  | none => some (0, c)

/-- Chomping and increment, which come in either order. -/
def header? (c : Cursor) : Option (Chomping × Nat × Cursor) := do
  let (early, c) := chomping c
  let (increment, c) ← increment? c
  let (late, c) := if early.isSome then (none, c) else chomping c
  return ((early.or late).getD .clip, increment, ← c.finishLine?)

/-! ### The lines -/

/-- Passes empty lines and the indentation of the next one, which is `indent` deep, or as deep as
can be if that is zero. Gives the greatest depth that was seen and the breaks. A tab cannot
indent. -/
def skipIndentation (indent deepest : Nat) (breaks : List Char) (place : Place) :
    List Char → Option (Nat × List Char × Cursor)
  | [] => some (max deepest place.column, breaks, ⟨[], place⟩)
  | c :: rest =>
    let isIndentation := indent = 0 || place.column < indent
    if c = ' ' && isIndentation then
      skipIndentation indent deepest breaks (place.after c) rest
    else if c = '\t' && isIndentation then none
    else
      let deepest := max deepest place.column
      if isBreak c then skipIndentation indent deepest (breaks ++ [c]) (place.after c) rest
      else some (deepest, breaks, ⟨c :: rest, place⟩)

/-- What has been read of a block. -/
structure Progress where
  reversed : List Char
  /-- Did the last line start with a blank? Such a line is not joined. -/
  wasBlank : Bool
  /-- The break at the end of the last line. -/
  first : Option Char
  /-- The breaks of the empty lines after it. -/
  further : List Char

namespace Progress

/-- What the breaks after the last line stand for, before a line that does or does not start with
a blank. -/
def gap (p : Progress) (style : ScalarStyle) (isBlank : Bool) : List Char :=
  if style = .folded && p.first = some '\n' && !p.wasBlank && !isBlank then
    if p.further.isEmpty then [' '] else p.further
  else p.first.toList ++ p.further

/-- What becomes of the breaks at the end. -/
def tail (p : Progress) : Chomping → List Char
  | .strip => []
  | .clip => p.first.toList
  | .keep => p.first.toList ++ p.further

def text (p : Progress) (chomping : Chomping) : String :=
  String.ofList (p.reversed.reverse ++ p.tail chomping)

end Progress

/-- Reads the lines that are as deep as the block. Each one has content, so the length of the text
bounds their number. -/
def lines (style : ScalarStyle) (indent fuel : Nat) (p : Progress) (c : Cursor) :
    Option (Progress × Cursor) :=
  match fuel with
  | 0 => none
  | fuel + 1 =>
    if c.rest.isEmpty || c.place.column ≠ indent then some (p, c)
    else
      let isBlank := c.startsWith isSpace
      let line := c.rest.takeWhile fun d ↦ !isBreak d
      let ending := c.advance line.length
      let next := ending.advance 1
      match skipIndentation indent 0 [] next.place next.rest with
      | none => none
      | some (_, breaks, next) =>
        lines style indent fuel
          ⟨line.reverse ++ (p.gap style isBlank).reverse ++ p.reversed, isBlank,
            ending.rest.head?, breaks⟩ next

/-- A block after its indicator. The column `least` is the first that is deeper than the blocks
around it. -/
def read (style : ScalarStyle) (least : Nat) (c : Cursor) : Option (String × Cursor) := do
  let (chomping, increment, c) ← header? c
  let stated := if increment = 0 then 0 else least - 1 + increment
  let (deepest, breaks, c) ← skipIndentation stated 0 [] c.place c.rest
  let indent := if stated = 0 then max deepest (max least 1) else stated
  let (progress, c) ← lines style indent (c.rest.length + 1) ⟨[], false, none, breaks⟩ c
  return (progress.text chomping, c)

end StateMachine.Yaml.BlockScalar
