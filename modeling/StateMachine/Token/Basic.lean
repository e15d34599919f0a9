import StateMachine.Text.Identifier
import StateMachine.Text.Location

/-!
Tokens of a machine description. Descriptions are read line by line, so the line break is a token;
a guard is one token that keeps its text for later.
-/

set_option autoImplicit false

namespace StateMachine

/-- What a token is, wherever it stands. -/
inductive Lexeme where
  | identifier (name : String)
  | keyword (word : Keyword)
  /-- `->` -/
  | arrow
  /-- `=>` -/
  | fatArrow
  /-- `/` -/
  | slash
  /-- The text between `[` and `]`. -/
  | guard (text : String)
  | newline
  | endOfFile
deriving DecidableEq, Repr

/-- A lexeme and where it starts. -/
structure Token where
  lexeme : Lexeme
  location : Location
deriving DecidableEq, Repr

namespace Lexeme

/-- How the lexeme is written. -/
def chars : Lexeme → List Char
  | .identifier name => name.toList
  | .keyword word => word.spelling.toList
  | .arrow => ['-', '>']
  | .fatArrow => ['=', '>']
  | .slash => ['/']
  | .guard text => '[' :: (text.toList ++ [']'])
  | .newline => ['\n']
  | .endOfFile => []

/-- What the lexeme is called in messages. -/
def description : Lexeme → String
  | .identifier name => "identifier '" ++ name ++ "'"
  | .keyword word => "keyword '" ++ word.spelling ++ "'"
  | .arrow => "'->'"
  | .fatArrow => "'=>'"
  | .slash => "'/'"
  | .guard _ => "guard"
  | .newline => "newline"
  | .endOfFile => "end of file"

/-- The lexeme of a word: a keyword if it spells one. -/
def ofWord (word : String) : Lexeme :=
  match Keyword.ofWord? word with
  | some reserved => .keyword reserved
  | none => .identifier word

end Lexeme

end StateMachine
