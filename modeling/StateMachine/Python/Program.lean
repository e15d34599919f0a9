import StateMachine.Check.Rules
import StateMachine.Machine.Printer
import StateMachine.Python.Name

/-!
The program generated for a machine: one class for each state, with a handler for each event that
the state handles, and a dispatcher that owns the current state. A machine whose program would not
say what the machine says is refused, with the first reason found.
-/

set_option autoImplicit false

namespace StateMachine.Python

/-- How a program is written. -/
structure Options where
  indentWidth : Nat
  /-- What a class name adds to the name of its state. -/
  stateSuffix : String
deriving DecidableEq, Repr

namespace Options

def standard : Options :=
  ⟨4, "State"⟩

end Options

/-- Why a machine is refused. -/
inductive GenerationError where
  | noInitialState
  | multipleInitialStates (count : Nat)
  | duplicateState (state : String)
  | unresolvedState (state event : String)
  | duplicateTransition (state event : String)
  | invalidIdentifier (name generated : String)
  | nameCollision (first second className : String)
deriving DecidableEq, Repr

namespace GenerationError

def message : GenerationError → String
  | .noInitialState => "no initial state"
  | .multipleInitialStates count => Nat.repr count ++ " states are marked initial"
  | .duplicateState state => "state '" ++ state ++ "' is declared more than once"
  | .unresolvedState state event =>
    "transition on '" ++ event ++ "' references undeclared state '" ++ state ++ "'"
  | .duplicateTransition state event =>
    "state '" ++ state ++ "' has more than one unguarded transition on '" ++ event ++ "'"
  | .invalidIdentifier name generated =>
    "'" ++ name ++ "' generates '" ++ generated ++ "', which is not a Python identifier"
  | .nameCollision first second className =>
    "states '" ++ first ++ "' and '" ++ second ++ "' both generate class '" ++ className ++ "'"

def code : GenerationError → String
  | .noInitialState => "NO_INITIAL_STATE"
  | .multipleInitialStates _ => "MULTIPLE_INITIAL_STATES"
  | .duplicateState _ => "DUPLICATE_STATE"
  | .unresolvedState _ _ => "UNRESOLVED_STATE"
  | .duplicateTransition _ _ => "DUPLICATE_TRANSITION"
  | .invalidIdentifier _ _ => "INVALID_IDENTIFIER"
  | .nameCollision _ _ _ => "NAME_COLLISION"

end GenerationError

/-- The transitions of a state on one event. -/
structure Handler where
  event : String
  transitions : List Transition

namespace Handler

/-- Adds a transition to the handler of its event, which is added at the end if it is missing. -/
def insert (t : Transition) : List Handler → List Handler
  | [] => [⟨t.event, [t]⟩]
  | handler :: rest =>
    if handler.event == t.event then
      { handler with transitions := handler.transitions ++ [t] } :: rest
    else handler :: insert t rest

/-- Transitions grouped by event, the events in the order of their first appearance. -/
def group (transitions : List Transition) : List Handler :=
  transitions.foldl (fun handlers t ↦ insert t handlers) []

/-- More than one transition, not all of them guarded. -/
def isAmbiguous (h : Handler) : Bool :=
  1 < h.transitions.length && h.transitions.any (·.guard.isNone)

/-- The name of the method. -/
def methodName (event : String) : String :=
  "on_" ++ event

end Handler

/-- The class of a state. -/
structure StateClass where
  className : String
  state : State
  handlers : List Handler

/-- A generated program. -/
structure Program where
  machineName : String
  checksum : String
  /-- The name of the dispatcher's class. -/
  className : String
  states : List StateClass
  initial : String
  resetEvents : List String
  /-- The declared events with their codes. -/
  events : List (String × Option String)
  /-- The declared commands with their codes. -/
  commands : List (String × Option String)

/-- The name of the class of a state. -/
def stateClassName (options : Options) (state : String) : String :=
  pascalCase state ++ options.stateSuffix

/-- The name of the class from which the classes of states inherit. -/
def baseClassName (machine : String) : String :=
  pascalCase machine ++ "Base"

/-- The handlers of a state. -/
def handlers (m : Machine) (state : String) : List Handler :=
  Handler.group (m.outgoing state)

/-! ### Reasons to refuse a machine -/

def checkStates (m : Machine) : Except GenerationError Unit :=
  match repeatedBy State.name [] m.states with
  | s :: _ => .error (.duplicateState s.name)
  | [] => .ok ()

def checkInitial (m : Machine) : Except GenerationError Unit :=
  match m.initialStates with
  | [] => .error .noInitialState
  | [_] => .ok ()
  | several => .error (.multipleInitialStates several.length)

def checkReferences (m : Machine) : Except GenerationError Unit :=
  m.transitions.forM fun t ↦
    if !m.hasState t.source then .error (.unresolvedState t.source t.event)
    else if !m.hasState t.target then .error (.unresolvedState t.target t.event)
    else .ok ()

def checkTransitions (m : Machine) : Except GenerationError Unit :=
  m.states.forM fun s ↦
    match (handlers m s.name).find? Handler.isAmbiguous with
    | some handler => .error (.duplicateTransition s.name handler.event)
    | none => .ok ()

/-- The names that the program is to define, each with the name it is made from. -/
def generatedNames (options : Options) (m : Machine) : List (String × String) :=
  (m.name, pascalCase m.name) ::
    (m.states.map fun s ↦ (s.name, stateClassName options s.name)) ++
    m.transitions.map fun t ↦ (t.event, Handler.methodName t.event)

def checkNames (options : Options) (m : Machine) : Except GenerationError Unit :=
  match (generatedNames options m).find? fun pair ↦ !isName pair.2 with
  | some (name, generated) => .error (.invalidIdentifier name generated)
  | none => .ok ()

/-- The class names that no state may have. -/
def reservedNames (m : Machine) : List String :=
  [pascalCase m.name, baseClassName m.name, "UnhandledEvent"]

/-- Checks the class names of states against the reserved ones and those of earlier states. -/
def checkClasses (options : Options) (m : Machine) (earlier : List String) :
    List String → Except GenerationError Unit
  | [] => .ok ()
  | state :: rest =>
    let className := stateClassName options state
    if (reservedNames m).contains className then
      .error (.nameCollision state m.name className)
    else
      match earlier.find? fun other ↦ stateClassName options other == className with
      | some other => .error (.nameCollision other state className)
      | none => checkClasses options m (state :: earlier) rest

/-- All checks, in their order. -/
def validate (options : Options) (m : Machine) : Except GenerationError Unit := do
  checkStates m
  checkInitial m
  checkReferences m
  checkTransitions m
  checkNames options m
  checkClasses options m [] (m.states.map (·.name))

/-! ### The program -/

namespace Program

def codeTable (declarations : List Declaration) : List (String × Option String) :=
  declarations.map fun d ↦ (d.name, d.code)

/-- The program of a machine that is not refused. -/
def build (options : Options) (m : Machine) : Program where
  machineName := m.name
  checksum := m.checksum
  className := pascalCase m.name
  states := m.states.map fun s ↦ ⟨stateClassName options s.name, s, handlers m s.name⟩
  initial := ((m.initialStates.head?).map (·.name)).getD ""
  resetEvents := m.resetEvents.map (·.name)
  events := codeTable m.events
  commands := codeTable m.commands

/-- The program of a machine. -/
def ofMachine (options : Options) (m : Machine) : Except GenerationError Program := do
  validate options m
  return build options m

end Program

end StateMachine.Python
