import StateMachine.Checksum
import StateMachine.Guard.Printer
import StateMachine.Machine.Basic

/-!
The canonical description of a machine: the header, the blocks of events, reset events and
commands, the states, and last every transition on a line of its own. A section that would be
empty is left out; sections, and the states among themselves, are separated by a blank line.
-/

set_option autoImplicit false

namespace StateMachine

/-- A line of text with its end. -/
def line (text : List Char) : List Char :=
  text ++ ['\n']

/-- A line inside a block. -/
def indentedLine (text : List Char) : List Char :=
  line ("    ".toList ++ text)

namespace Declaration

/-- The name and the code, if there is one. -/
def chars (d : Declaration) : List Char :=
  d.name.toList ++ (d.code.map fun code ↦ ' ' :: code.toList).getD []

end Declaration

namespace State

/-- A clause with its action, if there is one. -/
def clauseChars (word : String) (action : Option String) : List Char :=
  match action with
  | some name => indentedLine (word.toList ++ ' ' :: name.toList)
  | none => []

def chars (s : State) : List Char :=
  line ((if s.initial then "initial ".toList else []) ++ "state ".toList ++ s.name.toList) ++
    clauseChars "entry" s.entry ++ clauseChars "exit" s.exit ++ line "end".toList

end State

namespace Transition

def chars (t : Transition) : List Char :=
  line ("transition ".toList ++ t.source.toList ++ " -> ".toList ++ t.target.toList ++
    " on ".toList ++ t.event.toList ++
    (t.guard.map fun g ↦ " [".toList ++ g.chars ++ [']']).getD [] ++
    (t.action.map fun a ↦ " / ".toList ++ a.toList).getD [])

end Transition

namespace Machine

/-- A block of lines between its keyword and `end`, after a blank line; no block without lines. -/
def blockChars (keyword : String) (lines : List (List Char)) : List Char :=
  if lines.isEmpty then []
  else '\n' :: (line keyword.toList ++ lines.flatMap indentedLine ++ line "end".toList)

def transitionChars (transitions : List Transition) : List Char :=
  if transitions.isEmpty then [] else '\n' :: transitions.flatMap Transition.chars

/-- The characters of the canonical description. A reset event has no code. -/
def chars (m : Machine) : List Char :=
  line ("machine ".toList ++ m.name.toList) ++
    blockChars "events" (m.events.map Declaration.chars) ++
    blockChars "resetEvents" (m.resetEvents.map fun d ↦ d.name.toList) ++
    blockChars "commands" (m.commands.map Declaration.chars) ++
    m.states.flatMap (fun s ↦ '\n' :: s.chars) ++
    transitionChars m.transitions

/-- The canonical description. -/
def text (m : Machine) : String :=
  String.ofList m.chars

/-- The checksum of the canonical description. -/
def checksum (m : Machine) : String :=
  Checksum.ofText m.text

end Machine

end StateMachine
