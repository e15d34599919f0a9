/-!
Where reading stands in a document of settings. Indentation is a matter of columns, and a key has
to stand on one line and be short, so lines, columns and bytes are counted.
-/

set_option autoImplicit false

namespace StateMachine.Yaml

/-! ### Characters -/

/-- May this character stand in a document? -/
def isAllowed (c : Char) : Bool :=
  let n := c.toNat
  n = 0x09 || n = 0x0A || n = 0x0D || (0x20 ≤ n && n ≤ 0x7E) || n = 0x85 ||
    (0xA0 ≤ n && n ≤ 0xFFFD) || 0x10000 ≤ n

/-- The line breaks that say nothing but that a line ends, as a single line feed each. The two
separators of lines and of paragraphs stay what they are. -/
def unifyBreaks : List Char → List Char
  | '\r' :: '\n' :: rest => '\n' :: unifyBreaks rest
  | c :: rest => (if c = '\r' || c = '\u0085' then '\n' else c) :: unifyBreaks rest
  | [] => []

/-- Does the character end a line? -/
def isBreak (c : Char) : Bool :=
  c = '\n' || c = '\u2028' || c = '\u2029'

def isSpace (c : Char) : Bool :=
  c = ' ' || c = '\t'

/-- Letters, digits, dashes and underscores make up the names in a document. -/
def isNameChar (c : Char) : Bool :=
  c.isAlphanum || c = '-' || c = '_'

/-- Is the text at its end or at a blank or a line break? -/
def atGap : List Char → Bool
  | [] => true
  | c :: _ => isSpace c || isBreak c

/-- Three dashes or three points at the start of a line begin and end documents. -/
def atMarker : List Char → Bool
  | '-' :: '-' :: '-' :: rest => atGap rest
  | '.' :: '.' :: '.' :: rest => atGap rest
  | _ => false

/-! ### Places -/

/-- A place in a text. The offset counts bytes; only offsets on the same line are compared. -/
structure Place where
  line : Nat
  column : Nat
  offset : Nat

namespace Place

def start : Place :=
  ⟨0, 0, 0⟩

/-- The place after a character. -/
def after (c : Char) (p : Place) : Place :=
  if isBreak c then ⟨p.line + 1, 0, p.offset + c.utf8Size⟩
  else ⟨p.line, p.column + 1, p.offset + c.utf8Size⟩

end Place

/-- The text that is left, and the place where it starts. -/
structure Cursor where
  rest : List Char
  place : Place

namespace Cursor

/-- Passes so many characters. -/
def advance (count : Nat) (c : Cursor) : Cursor :=
  ⟨c.rest.drop count, (c.rest.take count).foldl (fun p d ↦ p.after d) c.place⟩

/-- Passes the characters of a kind at the head of the text. -/
def advanceWhile (p : Char → Bool) (c : Cursor) : Cursor :=
  c.advance (c.rest.takeWhile p).length

/-- Is the character at the head of the text of a kind? -/
def startsWith (p : Char → Bool) (c : Cursor) : Bool :=
  c.rest.head?.any p

/-- Does a marker of documents stand here? -/
def isMarker (c : Cursor) : Bool :=
  c.place.column = 0 && atMarker c.rest

/-- The next line, if nothing but blanks and a comment is left on this one. -/
def finishLine? (c : Cursor) : Option Cursor :=
  let c := c.advanceWhile isSpace
  let c := if c.startsWith (· = '#') then c.advanceWhile fun d ↦ !isBreak d else c
  match c.rest with
  | [] => some c
  | d :: _ => if isBreak d then some (c.advance 1) else none

end Cursor

end StateMachine.Yaml
