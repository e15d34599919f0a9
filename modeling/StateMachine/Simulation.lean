import StateMachine.Guard.Evaluation
import StateMachine.Machine.Basic

/-!
Running a machine on a context. A reset event leads to the initial state from anywhere; any other
event takes the first transition out of the current state that is labelled with it and whose guard
holds. The payload of an event is merged into the context before guards are looked at, and the
merged context is kept only if the event is accepted. Exit and entry actions run only when the
state changes.
-/

set_option autoImplicit false

namespace StateMachine

namespace Json

/-- The members of an object payload replace those of the context; a payload that is no object
changes nothing. -/
def merge (context payload : Json) : Json :=
  match context, payload with
  | .object base, .object patch =>
    .object (patch.foldl (fun members member ↦ insertMember member.1 member.2 members) base)
  | _, .object patch => .object patch
  | _, _ => context

end Json

/-- Why an event is not accepted, or a run cannot start. -/
inductive SimulationError where
  | noInitialState
  | invalidTransition (state event : String)
  | guardFailed (state event : String)
  | unknownState (state : String)
deriving DecidableEq, Repr

namespace SimulationError

def message : SimulationError → String
  | .noInitialState => "machine has no unique initial state"
  | .invalidTransition state event =>
    "invalid transition: cannot apply '" ++ event ++ "' in state '" ++ state ++ "'"
  | .guardFailed state event =>
    "guard failed: no guard for '" ++ event ++ "' holds in state '" ++ state ++ "'"
  | .unknownState state => "transition target '" ++ state ++ "' is not declared"

def code : SimulationError → String
  | .noInitialState => "NO_INITIAL_STATE"
  | .invalidTransition _ _ => "INVALID_TRANSITION"
  | .guardFailed _ _ => "GUARD_FAILED"
  | .unknownState _ => "UNKNOWN_STATE"

end SimulationError

/-- An event that was accepted. -/
structure SimulationStep where
  event : String
  source : String
  target : String
  /-- The actions run, in order. -/
  actions : List String
deriving DecidableEq, Repr

/-- A run of a machine: the current state and the context. -/
structure Run where
  state : String
  context : Json

namespace Run

/-- A run starts in the initial state. -/
def start (m : Machine) (context : Json) : Except SimulationError Run :=
  match m.initialState? with
  | some s => .ok ⟨s.name, context⟩
  | none => .error .noInitialState

/-- Where an event leads from a state and the action it runs on the way. -/
def destination (m : Machine) (state event : String) (context : Json) :
    Except SimulationError (String × Option String) :=
  if m.isResetEvent event then
    match m.initialState? with
    | some s => .ok (s.name, none)
    | none => .error .noInitialState
  else
    match (m.outgoing state).filter (·.event == event) with
    | [] => .error (.invalidTransition state event)
    | candidates =>
      match candidates.find? fun t ↦ Guard.evaluateOptional context t.guard with
      | some t => .ok (t.target, t.action)
      | none => .error (.guardFailed state event)

/-- The actions run on the way from a state into another. -/
def actionsBetween (m : Machine) (source : String) (target : State) (action : Option String) :
    List String :=
  if target.name == source then action.toList
  else ((m.state? source).bind (·.exit)).toList ++ action.toList ++ target.entry.toList

/-- Applies an event with a payload. -/
def apply (m : Machine) (run : Run) (event : String) (payload : Json) :
    Except SimulationError (SimulationStep × Run) := do
  let context := run.context.merge payload
  let (target, action) ← destination m run.state event context
  match m.state? target with
  | none => .error (.unknownState target)
  | some next =>
    return (⟨event, run.state, next.name, actionsBetween m run.state next action⟩,
      ⟨next.name, context⟩)

end Run

end StateMachine
