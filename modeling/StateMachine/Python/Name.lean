import StateMachine.Text.Split

/-!
Names in Python programs: which texts are names, and the class names made from other names.
-/

set_option autoImplicit false

namespace StateMachine.Python

def keywords : List String :=
  ["False", "None", "True", "and", "as", "assert", "async", "await", "break", "class",
    "continue", "def", "del", "elif", "else", "except", "finally", "for", "from", "global", "if",
    "import", "in", "is", "lambda", "nonlocal", "not", "or", "pass", "raise", "return", "try",
    "while", "with", "yield"]

def isNameStart (c : Char) : Bool :=
  c.isAlpha || c = '_'

def isNamePart (c : Char) : Bool :=
  c.isAlphanum || c = '_'

/-- Is the text a name of ASCII characters that is no keyword? -/
def isName (s : String) : Bool :=
  match s.toList with
  | [] => false
  | c :: rest => isNameStart c && rest.all isNamePart && !keywords.contains s

/-- A word with its first letter in upper case. -/
def capitalize : List Char → List Char
  | [] => []
  | c :: rest => c.toUpper :: rest

/-- The parts between underscores, each with its first letter in upper case, in one word. A word
that would start with a digit keeps an underscore in front. -/
def pascalCase (name : String) : String :=
  let word := (Text.parts '_' name.toList).flatMap capitalize
  if word.head?.any Char.isDigit then String.ofList ('_' :: word) else String.ofList word

end StateMachine.Python
