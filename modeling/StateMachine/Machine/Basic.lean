import StateMachine.Guard.Basic
import StateMachine.Text.Location

/-!
State machines as they are described: lists of declarations, states and transitions, in the order
of their description. Nothing is resolved here, so names may be repeated or belong to nothing.
Locations serve messages only; `Machine.sameAs` does not look at them.
-/

set_option autoImplicit false

namespace StateMachine

/-- A name declared in a block, with an optional external code. -/
structure Declaration where
  name : String
  code : Option String
  location : Location
deriving DecidableEq, Repr

structure State where
  name : String
  initial : Bool
  entry : Option String
  exit : Option String
  location : Location
deriving DecidableEq, Repr

structure Transition where
  source : String
  target : String
  event : String
  guard : Option Guard
  action : Option String
  location : Location

structure Machine where
  name : String
  /-- No declared event means that events are implicit. -/
  events : List Declaration
  /-- Events that lead back to the initial state from anywhere. -/
  resetEvents : List Declaration
  /-- No declared command means that actions are unchecked. -/
  commands : List Declaration
  states : List State
  transitions : List Transition

namespace Declaration

def sameAs (d e : Declaration) : Bool :=
  d.name == e.name && d.code == e.code

end Declaration

namespace State

def sameAs (s t : State) : Bool :=
  s.name == t.name && s.initial == t.initial && s.entry == t.entry && s.exit == t.exit

/-- The entry action and then the exit action, those that there are. -/
def actions (s : State) : List String :=
  s.entry.toList ++ s.exit.toList

end State

namespace Transition

/-- The same optional guard. -/
def sameGuard : Option Guard → Option Guard → Bool
  | none, none => true
  | some g, some h => g.sameAs h
  | _, _ => false

def sameAs (t u : Transition) : Bool :=
  t.source == u.source && t.target == u.target && t.event == u.event &&
    sameGuard t.guard u.guard && t.action == u.action

/-- Taking the transition changes nothing that could be observed. -/
def isNoOp (t : Transition) : Bool :=
  t.source == t.target && t.action.isNone

end Transition

/-- Two lists agree element by element. -/
def listsAgree {α : Type} (agree : α → α → Bool) : List α → List α → Bool
  | [], [] => true
  | x :: xs, y :: ys => agree x y && listsAgree agree xs ys
  | _, _ => false

namespace Machine

/-- A machine that declares nothing. -/
def empty (name : String) : Machine :=
  ⟨name, [], [], [], [], []⟩

/-- The same description, wherever its parts were written. -/
def sameAs (m n : Machine) : Bool :=
  m.name == n.name && listsAgree Declaration.sameAs m.events n.events &&
    listsAgree Declaration.sameAs m.resetEvents n.resetEvents &&
    listsAgree Declaration.sameAs m.commands n.commands &&
    listsAgree State.sameAs m.states n.states &&
    listsAgree Transition.sameAs m.transitions n.transitions

/-! ### Queries -/

/-- The first state of a name. -/
def state? (m : Machine) (name : String) : Option State :=
  m.states.find? (·.name == name)

def hasState (m : Machine) (name : String) : Bool :=
  (m.state? name).isSome

/-- The states marked as initial. -/
def initialStates (m : Machine) : List State :=
  m.states.filter (·.initial)

/-- The initial state, if exactly one state is marked so. -/
def initialState? (m : Machine) : Option State :=
  match m.initialStates with
  | [s] => some s
  | _ => none

/-- The transitions that leave a state. -/
def outgoing (m : Machine) (state : String) : List Transition :=
  m.transitions.filter (·.source == state)

/-- The events of some transitions, each at its first appearance. -/
def distinctEvents (transitions : List Transition) : List String :=
  transitions.foldl
    (fun events t ↦ if events.contains t.event then events else events ++ [t.event]) []

/-- The events that a state handles, each at its first appearance. -/
def eventsFrom (m : Machine) (state : String) : List String :=
  distinctEvents (m.outgoing state)

def isResetEvent (m : Machine) (event : String) : Bool :=
  m.resetEvents.any (·.name == event)

/-- The code of the first command of a name. -/
def commandCode? (m : Machine) (command : String) : Option String :=
  (m.commands.find? (·.name == command)).bind (·.code)

end Machine

end StateMachine
