import StateMachine.Yaml.BlockScalar
import StateMachine.Yaml.Property
import StateMachine.Yaml.Scalar

/-!
Tokens of a document. Where a block starts and ends is read off the columns, and written down as
tokens of their own, so that what follows need not look at indentation.

A key is known as one only at the colon after it. So the place where a key could have started is
remembered (`PossibleKey`), and its token is put there when the colon comes. Such a key stands on
one line and is at most 1024 bytes long.
-/

set_option autoImplicit false

namespace StateMachine.Yaml

inductive Token where
  | directive (d : Directive)
  /-- `---` -/
  | documentStart
  /-- `...` -/
  | documentEnd
  | blockMapping
  | blockSequence
  | blockEnd
  /-- An opening brace. -/
  | flowMapping
  /-- A closing brace. -/
  | flowMappingEnd
  /-- `[` -/
  | flowSequence
  /-- `]` -/
  | flowSequenceEnd
  /-- `,` -/
  | comma
  /-- `-` -/
  | dash
  /-- A key comes. -/
  | key
  /-- `:` -/
  | colon
  | anchor (name : String)
  | reference (name : String)
  | tag (handle suffix : String)
  | scalar (style : ScalarStyle) (text : String)
deriving DecidableEq, Repr

/-- Where a key could have started, and the number of tokens before it. -/
structure PossibleKey where
  place : Place
  index : Nat
  /-- Nothing but a key can stand there. -/
  required : Bool

namespace PossibleKey

/-- Can the key end here? -/
def reaches (k : PossibleKey) (p : Place) : Bool :=
  k.place.line = p.line && p.offset ≤ k.place.offset + 1024

end PossibleKey

/-- What has been scanned, and what is open. -/
structure Scanner where
  /-- The tokens, in reverse. -/
  tokens : List Token
  count : Nat
  /-- The columns of the blocks that are open, the innermost first. -/
  indents : List Nat
  /-- May a key start here? -/
  keyAllowed : Bool
  key : Option PossibleKey
  /-- The possible keys around each flow that is open, the innermost first. -/
  outerKeys : List (Option PossibleKey)

namespace Scanner

def initial : Scanner :=
  ⟨[], 0, [], true, none, []⟩

def inFlow (s : Scanner) : Bool :=
  !s.outerKeys.isEmpty

def emit (t : Token) (s : Scanner) : Scanner :=
  { s with tokens := t :: s.tokens, count := s.count + 1 }

/-- Puts a token where the count of tokens was `index`. -/
def insert (index : Nat) (t : Token) (s : Scanner) : Scanner :=
  let later := s.count - index
  { s with
    tokens := s.tokens.take later ++ t :: s.tokens.drop later
    count := s.count + 1 }

/-- The column from which text is deeper than the innermost block. -/
def least (s : Scanner) : Nat :=
  match s.indents with
  | [] => 0
  | indent :: _ => indent + 1

/-! ### Blocks -/

/-- Opens a block at a column, unless it is in a flow or no deeper than the innermost block. Its
token is put where the count of tokens was `index`. -/
def openBlock (t : Token) (column index : Nat) (s : Scanner) : Scanner :=
  if s.inFlow || column < s.least then s
  else { s.insert index t with indents := column :: s.indents }

/-- Closes so many blocks. -/
def closeInnermost (count : Nat) (s : Scanner) : Scanner :=
  { s with
    tokens := List.replicate count .blockEnd ++ s.tokens
    count := s.count + count
    indents := s.indents.drop count }

/-- Closes the blocks that are deeper than a column. -/
def closeDeeper (column : Nat) (s : Scanner) : Scanner :=
  if s.inFlow then s else s.closeInnermost (s.indents.takeWhile (column < ·)).length

def closeAll (s : Scanner) : Scanner :=
  if s.inFlow then s else s.closeInnermost s.indents.length

/-! ### Possible keys -/

/-- No key starts where one was possible. -/
def dropKey (s : Scanner) : Option Scanner :=
  if s.key.any (·.required) then none else some { s with key := none }

/-- Drops the possible key if it cannot end here. -/
def dropStaleKey (p : Place) (s : Scanner) : Option Scanner :=
  if s.key.all (·.reaches p) then some s else s.dropKey

/-- Remembers that a key may start here. In a block, at the column of its keys, it has to. -/
def rememberKey (p : Place) (s : Scanner) : Option Scanner :=
  if s.keyAllowed then
    s.dropKey.map fun s ↦
      { s with key := some ⟨p, s.count, !s.inFlow && s.indents.head? = some p.column⟩ }
  else some s

/-! ### Steps -/

/-- Passes blanks, line breaks and comments. A tab cannot stand in a block where a key may, and
after a line break, outside of flows, a key may. A mark of byte order may start a line. -/
def skipGaps (inFlow keyAllowed inComment : Bool) (place : Place) : List Char → Bool × Cursor
  | [] => (keyAllowed, ⟨[], place⟩)
  | c :: rest =>
    if isBreak c then skipGaps inFlow (keyAllowed || !inFlow) false (place.after c) rest
    else if inComment || c = '#' then skipGaps inFlow keyAllowed true (place.after c) rest
    else if c = ' ' || (c = '\t' && (inFlow || !keyAllowed)) ||
        (c = '\ufeff' && place.column = 0) then
      skipGaps inFlow keyAllowed false (place.after c) rest
    else (keyAllowed, ⟨c :: rest, place⟩)

/-- A marker of documents or a directive closes all blocks. -/
def between (t : Token) (s : Scanner) : Option Scanner :=
  s.closeAll.dropKey.map fun s ↦ { s with keyAllowed := false }.emit t

/-- A flow opens; the flow itself may be a key. -/
def openFlow (t : Token) (p : Place) (s : Scanner) : Option Scanner :=
  (s.rememberKey p).map fun s ↦
    { s with keyAllowed := true, key := none, outerKeys := s.key :: s.outerKeys }.emit t

/-- The innermost flow closes. -/
def closeFlow (t : Token) (s : Scanner) : Option Scanner :=
  s.dropKey.map fun s ↦
    { s with
      keyAllowed := false
      key := s.outerKeys.head?.join
      outerKeys := s.outerKeys.tail }.emit t

def comma (s : Scanner) : Option Scanner :=
  s.dropKey.map fun s ↦ { s with keyAllowed := true }.emit .comma

/-- A dash starts an item of a block. -/
def dash (p : Place) (s : Scanner) : Option Scanner :=
  if s.inFlow || !s.keyAllowed then none
  else (s.openBlock .blockSequence p.column s.count).dropKey.map (·.emit .dash)

/-- A question mark announces a key. -/
def question (p : Place) (s : Scanner) : Option Scanner :=
  if !s.inFlow && !s.keyAllowed then none
  else
    (s.openBlock .blockMapping p.column s.count).dropKey.map fun s ↦
      { s with keyAllowed := !s.inFlow }.emit .key

/-- A colon makes a key of what was possibly one. -/
def colon (p : Place) (s : Scanner) : Option Scanner :=
  match s.key with
  | some k =>
    let s := (s.insert k.index .key).openBlock .blockMapping k.place.column k.index
    some ({ s with key := none, keyAllowed := false }.emit .colon)
  | none =>
    if !s.inFlow && !s.keyAllowed then none
    else
      let s := s.openBlock .blockMapping p.column s.count
      some ({ s with keyAllowed := !s.inFlow }.emit .colon)

/-- A token that may start a key and after which none may start. -/
def single (t : Token) (p : Place) (s : Scanner) : Option Scanner :=
  (s.rememberKey p).map fun s ↦ { s with keyAllowed := false }.emit t

/-- A scalar in quotes. -/
def quoted (p : Place) (scalar : Option (String × Cursor)) (s : Scanner) :
    Option (Scanner × Cursor) := do
  let (text, next) ← scalar
  return (← s.single (.scalar .quoted text) p, next)

/-- A plain scalar. A key may follow if a line has ended after it. -/
def plain (c : Cursor) (s : Scanner) : Option (Scanner × Cursor) :=
  if startsPlain s.inFlow c.rest then do
    let (text, broken, next) ← plainScalar s.inFlow s.least c.place .empty [] c.rest
    let s ← s.single (.scalar .plain text) c.place
    return ({ s with keyAllowed := broken }, next)
  else none

/-- A scalar that is a block; it is no key, and after it a line starts. -/
def block (style : ScalarStyle) (c : Cursor) (s : Scanner) : Option (Scanner × Cursor) :=
  if s.inFlow then none
  else do
    let s ← s.dropKey
    let (text, next) ← BlockScalar.read style s.least (c.advance 1)
    return ({ s with keyAllowed := true }.emit (.scalar style text), next)

/-- The token that a text starts with. -/
def step (c : Cursor) (s : Scanner) : Option (Scanner × Cursor) :=
  let one (s : Scanner) : Scanner × Cursor := (s, c.advance 1)
  let inner := c.advance 1
  if c.isMarker then
    (s.between (if c.startsWith (· = '-') then .documentStart else .documentEnd)).map
      fun s ↦ (s, c.advance 3)
  else if c.place.column = 0 && c.startsWith (· = '%') then do
    let (directive, next) ← directive? inner
    return (← s.between (.directive directive), next)
  else
    match c.rest with
    | '[' :: _ => (s.openFlow .flowSequence c.place).map one
    | '\x7b' :: _ => (s.openFlow .flowMapping c.place).map one
    | ']' :: _ => (s.closeFlow .flowSequenceEnd).map one
    | '\x7d' :: _ => (s.closeFlow .flowMappingEnd).map one
    | ',' :: _ => s.comma.map one
    | '-' :: rest => if atGap rest then (s.dash c.place).map one else s.plain c
    | '?' :: rest => if s.inFlow || atGap rest then (s.question c.place).map one else s.plain c
    | ':' :: rest => if s.inFlow || atGap rest then (s.colon c.place).map one else s.plain c
    | '*' :: _ => do
      let (name, next) ← anchorName? inner
      return (← s.single (.reference name) c.place, next)
    | '&' :: _ => do
      let (name, next) ← anchorName? inner
      return (← s.single (.anchor name) c.place, next)
    | '!' :: _ => do
      let (handle, suffix, next) ← tag? s.inFlow c
      return (← s.single (.tag handle suffix) c.place, next)
    | '|' :: _ => s.block .literal c
    | '>' :: _ => s.block .folded c
    | '\'' :: _ => s.quoted c.place (singleQuoted inner.place .empty [] inner.rest)
    | '"' :: _ => s.quoted c.place (doubleQuoted 0 inner.place .empty [] inner.rest)
    | _ => s.plain c

/-- The tokens up to the end of the text. -/
def run (fuel : Nat) (c : Cursor) (s : Scanner) : Option (List Token) :=
  match fuel with
  | 0 => none
  | fuel + 1 =>
    let (keyAllowed, c) := skipGaps s.inFlow s.keyAllowed false c.place c.rest
    match { s with keyAllowed := keyAllowed }.dropStaleKey c.place with
    | none => none
    | some s =>
      if c.rest.isEmpty then s.closeAll.dropKey.map (·.tokens.reverse)
      else
        match (s.closeDeeper c.place.column).step c with
        | none => none
        | some (s, next) => s.run fuel next

end Scanner

namespace Token

/-- The tokens of a text. Each step of the scanner reads something, so the length of the text
bounds their number. -/
def scan? (text : List Char) : Option (List Token) :=
  Scanner.initial.run (text.length + 1) ⟨text, .start⟩

end Token

end StateMachine.Yaml
