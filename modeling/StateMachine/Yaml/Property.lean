import StateMachine.Yaml.Cursor
import StateMachine.Yaml.Node

/-!
Properties of nodes and of documents: anchors, by which a node is named, tags, which say what kind
of node it is, and the directives in front of a document.

A tag is written in short, as a handle and a suffix; a directive says which text a handle stands
for. A character that is written as an escape stands in a tag as its octets, each one as the
character of its code, which is enough to compare tags with those in use.
-/

set_option autoImplicit false

namespace StateMachine.Yaml

/-! ### Anchors -/

/-- The characters that may stand after the name of an anchor, besides blanks and breaks. -/
def anchorEnds : List Char :=
  ['?', ':', ',', ']', '\x7d', '%', '@', '\x60']

/-- The name after the mark of an anchor or of a reference to one. -/
def anchorName? (c : Cursor) : Option (String × Cursor) :=
  let name := c.rest.takeWhile isNameChar
  let next := c.advance name.length
  if name.isEmpty || !(atGap next.rest || next.startsWith anchorEnds.contains) then none
  else some (String.ofList name, next)

/-! ### Tags -/

/-- The octet of an escape. -/
def octet? : List Char → Option Nat
  | '%' :: high :: low :: _ => Node.naturalIn? 16 [high, low]
  | _ => none

/-- How many octets follow the first one of a character. -/
def octetsAfter? (first : Nat) : Option Nat :=
  if first < 0x80 then some 0
  else if first < 0xC0 then none
  else if first < 0xE0 then some 1
  else if first < 0xF0 then some 2
  else if first < 0xF8 then some 3
  else none

/-- May the character stand in a tag? Some may only where the tag is written in full. -/
def isTagChar (inFull : Bool) (c : Char) : Bool :=
  isNameChar c || ";/?:@&=+$.%!~*'()".toList.contains c || (inFull && [',', '[', ']'].contains c)

/-- The characters of a tag; so many octets of a character are still to come. Each step reads
something, so the length of the text bounds their number. -/
def tagText (inFull : Bool) (fuel pending : Nat) (c : Cursor) : Option (List Char × Cursor) :=
  match fuel with
  | 0 => none
  | fuel + 1 =>
    if pending = 0 && !c.startsWith (isTagChar inFull) then some ([], c)
    else if pending = 0 && !c.startsWith (· = '%') then
      (tagText inFull fuel 0 (c.advance 1)).map fun (text, next) ↦ (c.rest.take 1 ++ text, next)
    else
      match octet? c.rest with
      | none => none
      | some octet =>
        let still :=
          if pending = 0 then octetsAfter? octet
          else if octet / 0x40 = 2 then some (pending - 1)
          else none
        match still with
        | none => none
        | some still =>
          (tagText inFull fuel still (c.advance 3)).map
            fun (text, next) ↦ (Char.ofNat octet :: text, next)

/-- The characters of a tag, of which there has to be one at least. -/
def tagText? (inFull : Bool) (c : Cursor) : Option (String × Cursor) :=
  match tagText inFull (c.rest.length + 1) 0 c with
  | some (d :: text, next) => some (String.ofList (d :: text), next)
  | _ => none

/-- The handle of a tag: a name between two exclamation marks, or a single one. -/
def handle (c : Cursor) : String × Cursor :=
  let name := (c.rest.drop 1).takeWhile isNameChar
  let next := c.advance (name.length + 1)
  if next.startsWith (· = '!') then (String.ofList ('!' :: (name ++ ['!'])), next.advance 1)
  else ("!", c.advance 1)

/-- The handle and the suffix of a tag. The handle is empty if the suffix is all. -/
def tagParts? (c : Cursor) : Option (String × String × Cursor) :=
  if c.rest.take 2 = ['!', '<'] then do
    let (suffix, next) ← tagText? true (c.advance 2)
    if next.startsWith (· = '>') then some ("", suffix, next.advance 1) else none
  else do
    let (name, start) := handle c
    if name = "!" then
      let (suffix, next) ← tagText false (start.rest.length + 1) 0 start
      if suffix.isEmpty then some ("", "!", next) else some (name, String.ofList suffix, next)
    else
      let (suffix, next) ← tagText? false start
      some (name, suffix, next)

/-- A tag, after which a gap has to come, or a comma in a flow. -/
def tag? (inFlow : Bool) (c : Cursor) : Option (String × String × Cursor) := do
  let (name, suffix, next) ← tagParts? c
  if atGap next.rest || (inFlow && next.startsWith (· = ',')) then some (name, suffix, next)
  else none

/-! ### Directives -/

inductive Directive where
  /-- The version of the format. -/
  | version
  /-- A handle and the text that it stands for. -/
  | handle (name : String) (meaning : String)
deriving DecidableEq, Repr

/-- A number of at most nine digits. -/
def versionNumber? (c : Cursor) : Option (Nat × Cursor) :=
  let digits := c.rest.takeWhile Char.isDigit
  if digits.isEmpty || 9 < digits.length then none
  else some (Numeric.naturalValue digits, c.advance digits.length)

/-- The version after the name of its directive. There are two that are understood. -/
def version? (c : Cursor) : Option (Directive × Cursor) := do
  let (major, c) ← versionNumber? (c.advanceWhile isSpace)
  if !c.startsWith (· = '.') then none
  else
    let (minor, c) ← versionNumber? (c.advance 1)
    if major = 1 && (minor = 1 || minor = 2) then some (.version, c) else none

/-- A handle and its meaning after the name of their directive. -/
def handleMeaning? (c : Cursor) : Option (Directive × Cursor) := do
  let c := c.advanceWhile isSpace
  if !c.startsWith (· = '!') then none
  else
    let (name, c) := handle c
    if !c.startsWith isSpace then none
    else
      let (meaning, c) ← tagText? true (c.advanceWhile isSpace)
      if atGap c.rest then some (.handle name meaning, c) else none

/-- A directive after its mark, up to the end of its line. -/
def directive? (c : Cursor) : Option (Directive × Cursor) := do
  let name := c.rest.takeWhile isNameChar
  let start := c.advance name.length
  if !atGap start.rest then none
  else
    let (directive, c) ←
      if name = "YAML".toList then version? start
      else if name = "TAG".toList then handleMeaning? start
      else none
    return (directive, ← c.finishLine?)

end StateMachine.Yaml
