/-!
Identifiers: an ASCII letter or an underscore, then ASCII letters, digits and underscores, and not
a keyword. `Identifier.repair` turns any text into one.
-/

set_option autoImplicit false

namespace StateMachine

/-- The reserved words. -/
inductive Keyword where
  | machine
  | events
  | resetEvents
  | commands
  | initial
  | state
  | entry
  | exit
  | endBlock
  | transition
  | on
deriving DecidableEq, Repr

namespace Keyword

def all : List Keyword :=
  [.machine, .events, .resetEvents, .commands, .initial, .state, .entry, .exit, .endBlock,
    .transition, .on]

def spelling : Keyword → String
  | .machine => "machine"
  | .events => "events"
  | .resetEvents => "resetEvents"
  | .commands => "commands"
  | .initial => "initial"
  | .state => "state"
  | .entry => "entry"
  | .exit => "exit"
  | .endBlock => "end"
  | .transition => "transition"
  | .on => "on"

/-- The keyword that a word spells. -/
def ofWord? (word : String) : Option Keyword :=
  all.find? fun keyword ↦ keyword.spelling == word

theorem ofWord?_spelling (keyword : Keyword) : ofWord? keyword.spelling = some keyword := by
  cases keyword <;> rfl

theorem spelling_of_ofWord? {word : String} {keyword : Keyword}
    (h : ofWord? word = some keyword) : keyword.spelling = word := by
  have hfound := List.find?_some h
  simpa using hfound

end Keyword

namespace Identifier

/-- May an identifier start with this character? -/
def isStart (c : Char) : Bool :=
  c.isAlpha || c = '_'

/-- May this character stand inside an identifier? -/
def isPart (c : Char) : Bool :=
  c.isAlphanum || c = '_'

/-- The characters of a word: a start and then parts. -/
def isWord : List Char → Bool
  | [] => false
  | c :: rest => isStart c && rest.all isPart

/-- May the text be written as a name? -/
def isValid (s : String) : Bool :=
  isWord s.toList && (Keyword.ofWord? s).isNone

/-- Other characters become underscores; a text that then is empty, starts with a digit or is a
keyword gets one more underscore in front. -/
def repair (s : String) : String :=
  let replaced := s.toList.map fun c ↦ if isPart c then c else '_'
  if isValid (String.ofList replaced) then String.ofList replaced
  else String.ofList ('_' :: replaced)

end Identifier

end StateMachine
