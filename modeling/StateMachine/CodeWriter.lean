/-!
Writing program text line by line. Blocks are indented one level deeper than their header, and an
empty line carries no blanks. `Code` is program text as a tree of lines and blocks.
-/

set_option autoImplicit false

namespace StateMachine

/-- Text being written: how many blanks a level has, the current level, and the text so far. -/
structure CodeWriter where
  width : Nat
  level : Nat
  text : String

namespace CodeWriter

def ofWidth (width : Nat) : CodeWriter :=
  ⟨width, 0, ""⟩

/-- The blanks in front of a line at a level. -/
def indentation (width level : Nat) : String :=
  String.ofList (List.replicate (level * width) ' ')

/-- Writes a line at the current level. -/
def line (w : CodeWriter) (text : String) : CodeWriter :=
  let indented := if text.isEmpty then "" else indentation w.width w.level ++ text
  { w with text := w.text ++ indented ++ "\n" }

/-- Writes an empty line. -/
def blank (w : CodeWriter) : CodeWriter :=
  { w with text := w.text ++ "\n" }

/-- Goes one level deeper. -/
def indent (w : CodeWriter) : CodeWriter :=
  { w with level := w.level + 1 }

/-- Goes one level back, if there is one. -/
def dedent (w : CodeWriter) : CodeWriter :=
  { w with level := w.level - 1 }

/-- Writes a header and what a body writes one level deeper. -/
def block (w : CodeWriter) (header : String) (body : CodeWriter → CodeWriter) : CodeWriter :=
  (body (w.line header).indent).dedent

end CodeWriter

/-- Program text by lines. -/
inductive Code where
  | line (text : String)
  | blank
  | block (header : String) (body : List Code)

namespace Code

mutual

/-- Writes a piece of program text. -/
def write (w : CodeWriter) : Code → CodeWriter
  | .line text => w.line text
  | .blank => w.blank
  | .block header body => w.block header fun inner ↦ writeAll inner body

/-- Writes some pieces one after the other. -/
def writeAll (w : CodeWriter) : List Code → CodeWriter
  | [] => w
  | code :: rest => writeAll (write w code) rest

end

/-- The text of some pieces, with so many blanks for a level. -/
def text (width : Nat) (code : List Code) : String :=
  (writeAll (.ofWidth width) code).text

end Code

end StateMachine
