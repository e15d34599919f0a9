import StateMachine.Machine.Basic

/-!
A walk over the parts of a machine, and a summary of its states. The summary lists the declared
states in order and after them the undeclared ones that transitions leave.
-/

set_option autoImplicit false

namespace StateMachine

/-- A part of a machine. -/
inductive Node where
  | machine (name : String)
  | event (declaration : Declaration)
  | resetEvent (declaration : Declaration)
  | command (declaration : Declaration)
  | state (state : State)
  | transition (transition : Transition)

/-- What a summary says about one state. -/
structure StateSummary where
  name : String
  actions : List String
  /-- The event and the target of each transition that leaves the state. -/
  transitions : List (String × String)
deriving DecidableEq, Repr

/-- The summaries of states, one for each name. -/
structure Summary where
  states : List StateSummary
deriving DecidableEq, Repr

namespace Machine

/-- The machine, its events, reset events and commands, its states and its transitions. -/
def nodes (m : Machine) : List Node :=
  .machine m.name :: (m.events.map .event ++ m.resetEvents.map .resetEvent ++
    m.commands.map .command ++ m.states.map .state ++ m.transitions.map .transition)

end Machine

namespace Summary

/-- Changes the entry of a name, which is added at the end if it is missing. -/
def updateEntry (name : String) (change : StateSummary → StateSummary) :
    List StateSummary → List StateSummary
  | [] => [change ⟨name, [], []⟩]
  | entry :: rest =>
    if entry.name == name then change entry :: rest else entry :: updateEntry name change rest

def addState (entries : List StateSummary) (s : State) : List StateSummary :=
  updateEntry s.name (fun entry ↦ { entry with actions := entry.actions ++ s.actions }) entries

def addTransition (entries : List StateSummary) (t : Transition) : List StateSummary :=
  updateEntry t.source
    (fun entry ↦ { entry with transitions := entry.transitions ++ [(t.event, t.target)] }) entries

def ofMachine (m : Machine) : Summary :=
  ⟨m.transitions.foldl addTransition (m.states.foldl addState [])⟩

def stateNames (s : Summary) : List String :=
  s.states.map (·.name)

end Summary

namespace StateSummary

def text (s : StateSummary) : String :=
  "State " ++ s.name ++ ":\n" ++
    String.join (s.actions.map fun action ↦ " Action: " ++ action ++ "\n") ++
    String.join (s.transitions.map fun t ↦ " Transition: " ++ t.1 ++ " -> " ++ t.2 ++ "\n")

end StateSummary

namespace Summary

def text (s : Summary) : String :=
  "Found states: " ++ ", ".intercalate s.stateNames ++ "\n" ++
    String.join (s.states.map StateSummary.text)

end Summary

end StateMachine
