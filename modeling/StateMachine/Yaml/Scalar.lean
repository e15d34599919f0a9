import StateMachine.Yaml.Cursor
import StateMachine.Yaml.Node

/-!
Scalars of a document, plain or in quotes. A scalar may go on over several lines; what stands
between its parts is a `Gap`, which is kept or folded when the next part comes.

A reader takes the place in the text, the gap before it, what has been read so far in reverse, and
the text that is left. It gives the scalar's text and the place after it.
-/

set_option autoImplicit false

namespace StateMachine.Yaml

/-! ### Gaps -/

/-- What stands between two parts of a scalar: blanks on one line, or line breaks. The first break
is told from the further ones; there is none if it has been written as an escape. -/
inductive Gap where
  | blanks (text : List Char)
  | lines (first : Option Char) (further : List Char)

namespace Gap

def empty : Gap :=
  .blanks []

/-- The gap with one more blank or break. Blanks beside a break are dropped. -/
def push (c : Char) : Gap → Gap
  | .blanks text => if isBreak c then .lines (some c) [] else .blanks (text ++ [c])
  | .lines first further => .lines first (if isBreak c then further ++ [c] else further)

/-- What the gap stands for. A single line feed stands for a blank, and of several the first is
dropped. -/
def text : Gap → List Char
  | .blanks text => text
  | .lines (some '\n') [] => [' ']
  | .lines (some '\n') further => further
  | .lines first further => first.toList ++ further

/-- Has the line ended in the gap? -/
def isBroken : Gap → Bool
  | .blanks _ => false
  | .lines _ _ => true

def isEmpty : Gap → Bool
  | .blanks text => text.isEmpty
  | .lines _ _ => false

/-- What has been read, in reverse, together with the gap after it. -/
def close (gap : Gap) (reversed : List Char) : List Char :=
  gap.text.reverse ++ reversed

end Gap

/-! ### Quoted scalars -/

/-- A scalar in single quotes after its opening quote; a quote inside is written twice. -/
def singleQuoted (place : Place) (gap : Gap) (reversed : List Char) :
    List Char → Option (String × Cursor)
  | [] => none
  | '\'' :: '\'' :: rest =>
    singleQuoted ((place.after '\'').after '\'') .empty ('\'' :: gap.close reversed) rest
  | '\'' :: rest =>
    some (String.ofList (gap.close reversed).reverse, ⟨rest, place.after '\''⟩)
  | c :: rest =>
    if isSpace c || isBreak c then singleQuoted (place.after c) (gap.push c) reversed rest
    else if place.column = 0 && atMarker (c :: rest) then none
    else singleQuoted (place.after c) .empty (c :: gap.close reversed) rest

/-- The character whose code is given by so many hexadecimal digits, and how many characters that
takes. -/
def coded? (count : Nat) (text : List Char) : Option (Char × Nat) :=
  match Node.naturalIn? 16 (text.take count) with
  | none => none
  | some code =>
    if count ≤ text.length && code.isValidChar then some (Char.ofNat code, count + 1) else none

/-- The characters that a single letter stands for after a backslash. -/
def namedEscapes : List (Char × Char) :=
  [('0', '\x00'), ('a', '\x07'), ('b', '\x08'), ('t', '\t'), ('\t', '\t'), ('n', '\n'),
    ('v', '\x0b'), ('f', '\x0c'), ('r', '\r'), ('e', '\x1b'), (' ', ' '), ('"', '"'),
    ('/', '/'), ('\\', '\\'), ('N', '\u0085'), ('_', '\u00a0'), ('L', '\u2028'),
    ('P', '\u2029')]

/-- The character that an escape in double quotes stands for, and how many characters stand for it
after the backslash. -/
def escape? : List Char → Option (Char × Nat)
  | [] => none
  | c :: rest =>
    match namedEscapes.lookup c with
    | some meaning => some (meaning, 1)
    | none =>
      if c = 'x' then coded? 2 rest
      else if c = 'u' then coded? 4 rest
      else if c = 'U' then coded? 8 rest
      else none

/-- A scalar in double quotes after its opening quote; `pass` characters of the text have been
read already. An escaped line break joins two lines. -/
def doubleQuoted (pass : Nat) (place : Place) (gap : Gap) (reversed : List Char) :
    List Char → Option (String × Cursor)
  | [] => none
  | c :: rest =>
    match pass with
    | pass + 1 => doubleQuoted pass (place.after c) gap reversed rest
    | 0 =>
      if c = '"' then
        some (String.ofList (gap.close reversed).reverse, ⟨rest, place.after c⟩)
      else if isSpace c || isBreak c then
        doubleQuoted 0 (place.after c) (gap.push c) reversed rest
      else if place.column = 0 && atMarker (c :: rest) then none
      else if c = '\\' then
        if rest.head?.any isBreak then
          doubleQuoted 1 (place.after c) (.lines none []) (gap.close reversed) rest
        else
          match escape? rest with
          | none => none
          | some (meaning, taken) =>
            doubleQuoted taken (place.after c) .empty (meaning :: gap.close reversed) rest
      else doubleQuoted 0 (place.after c) .empty (c :: gap.close reversed) rest

/-! ### Plain scalars -/

def flowIndicators : List Char :=
  [',', '[', ']', '\x7b', '\x7d']

/-- The characters that mean something else at the start of a node. -/
def indicators : List Char :=
  flowIndicators ++
    ['-', '?', ':', '#', '&', '*', '!', '|', '>', '\'', '"', '%', '@', '\x60']

/-- May a plain scalar start here? -/
def startsPlain (inFlow : Bool) : List Char → Bool
  | [] => false
  | c :: rest =>
    if isSpace c || isBreak c then false
    else if !indicators.contains c then true
    else if c = '-' then !atGap rest
    else !inFlow && (c = '?' || c = ':') && !atGap rest

/-- Does a plain scalar end before this character? A colon before a gap ends it, as does, in a
flow, any indicator of flows. -/
def endsPlain (inFlow : Bool) (c : Char) (rest : List Char) : Bool :=
  (c = ':' && atGap rest) || (inFlow && flowIndicators.contains c)

/-- A plain scalar; after a line break it goes on only from the column `least`, outside of flows,
and not at a comment or a marker. The Boolean says whether a line ended after it. -/
def plainScalar (inFlow : Bool) (least : Nat) (place : Place) (gap : Gap)
    (reversed : List Char) : List Char → Option (String × Bool × Cursor)
  | [] => some (String.ofList reversed.reverse, gap.isBroken, ⟨[], place⟩)
  | c :: rest =>
    if isSpace c || isBreak c then
      if c = '\t' && gap.isBroken && place.column < least then none
      else plainScalar inFlow least (place.after c) (gap.push c) reversed rest
    else if (gap.isBroken && !inFlow && place.column < least) || (!gap.isEmpty && c = '#') ||
        (place.column = 0 && atMarker (c :: rest)) || endsPlain inFlow c rest then
      some (String.ofList reversed.reverse, gap.isBroken, ⟨c :: rest, place⟩)
    else if inFlow && c = ':' && rest.head?.any fun d ↦ d = '?' || flowIndicators.contains d then
      none
    else plainScalar inFlow least (place.after c) .empty (c :: gap.close reversed) rest

end StateMachine.Yaml
