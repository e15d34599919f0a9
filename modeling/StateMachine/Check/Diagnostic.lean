import StateMachine.Machine.Parser

/-!
What a check reports: a problem and where it is. The problem decides the rule it breaks, how severe
it is, what it is about and how it is worded.
-/

set_option autoImplicit false

namespace StateMachine

inductive Severity where
  | error
  | warning
deriving DecidableEq, Repr

namespace Severity

def text : Severity → String
  | .error => "error"
  | .warning => "warning"

end Severity

/-- The rules of a check. -/
inductive Rule where
  | duplicateState
  | duplicateDeclaration
  | missingInitial
  | multipleInitial
  | undeclaredState
  | undeclaredEvent
  | undeclaredCommand
  | duplicateTransition
  | overlappingGuards
  | noEffect
  | unreachableState
deriving DecidableEq, Repr

namespace Rule

def code : Rule → String
  | .duplicateState => "E001"
  | .duplicateDeclaration => "E002"
  | .missingInitial => "E003"
  | .multipleInitial => "E004"
  | .undeclaredState => "E005"
  | .undeclaredEvent => "E006"
  | .undeclaredCommand => "E007"
  | .duplicateTransition => "E008"
  | .overlappingGuards => "W101"
  | .noEffect => "W102"
  | .unreachableState => "W103"

def name : Rule → String
  | .duplicateState => "duplicate-state"
  | .duplicateDeclaration => "duplicate-declaration"
  | .missingInitial => "missing-initial"
  | .multipleInitial => "multiple-initial"
  | .undeclaredState => "undeclared-state"
  | .undeclaredEvent => "undeclared-event"
  | .undeclaredCommand => "undeclared-command"
  | .duplicateTransition => "duplicate-transition"
  | .overlappingGuards => "overlapping-guards"
  | .noEffect => "no-effect"
  | .unreachableState => "unreachable-state"

def severity : Rule → Severity
  | .overlappingGuards | .noEffect | .unreachableState => .warning
  | _ => .error

end Rule

/-- The part of a machine that a diagnostic is about. -/
inductive Subject where
  | machine (name : String)
  | state (name : String)
  | transition (source event : String)
  | event (name : String)
  | command (name : String)
deriving DecidableEq, Repr

/-- The two states of a transition. -/
inductive Endpoint where
  | source
  | target
deriving DecidableEq, Repr

namespace Endpoint

def text : Endpoint → String
  | .source => "source"
  | .target => "target"

end Endpoint

namespace DeclarationKind

def text : DeclarationKind → String
  | .event => "event"
  | .resetEvent => "reset event"
  | .command => "command"

def subject (kind : DeclarationKind) (name : String) : Subject :=
  match kind with
  | .command => .command name
  | _ => .event name

end DeclarationKind

/-- Something that a rule objects to. -/
inductive Problem where
  | duplicateState (name : String)
  | duplicateDeclaration (kind : DeclarationKind) (name : String)
  | missingInitial (machine : String)
  | multipleInitial (state first : String)
  | undeclaredState (source event : String) (endpoint : Endpoint) (name : String)
  | undeclaredEvent (source event : String)
  | undeclaredResetEvent (event : String)
  | undeclaredStateAction (state action : String)
  | undeclaredTransitionAction (source event action : String)
  | duplicateTransition (source event : String)
  | overlappingGuards (source event : String)
  | noEffect (source event : String)
  | unreachableState (state start : String)
deriving DecidableEq, Repr

namespace Problem

def rule : Problem → Rule
  | .duplicateState _ => .duplicateState
  | .duplicateDeclaration _ _ => .duplicateDeclaration
  | .missingInitial _ => .missingInitial
  | .multipleInitial _ _ => .multipleInitial
  | .undeclaredState _ _ _ _ => .undeclaredState
  | .undeclaredEvent _ _ | .undeclaredResetEvent _ => .undeclaredEvent
  | .undeclaredStateAction _ _ | .undeclaredTransitionAction _ _ _ => .undeclaredCommand
  | .duplicateTransition _ _ => .duplicateTransition
  | .overlappingGuards _ _ => .overlappingGuards
  | .noEffect _ _ => .noEffect
  | .unreachableState _ _ => .unreachableState

def subject : Problem → Subject
  | .duplicateState name => .state name
  | .duplicateDeclaration kind name => kind.subject name
  | .missingInitial machine => .machine machine
  | .multipleInitial state _ => .state state
  | .undeclaredState source event _ _ => .transition source event
  | .undeclaredEvent source event => .transition source event
  | .undeclaredResetEvent event => .event event
  | .undeclaredStateAction state _ => .state state
  | .undeclaredTransitionAction source event _ => .transition source event
  | .duplicateTransition source event => .transition source event
  | .overlappingGuards source event => .transition source event
  | .noEffect source event => .transition source event
  | .unreachableState state _ => .state state

/-- The name that is objected to. -/
def identifier : Problem → String
  | .duplicateState name => name
  | .duplicateDeclaration _ name => name
  | .missingInitial machine => machine
  | .multipleInitial state _ => state
  | .undeclaredState _ _ _ name => name
  | .undeclaredEvent _ event => event
  | .undeclaredResetEvent event => event
  | .undeclaredStateAction _ action => action
  | .undeclaredTransitionAction _ _ action => action
  | .duplicateTransition _ event => event
  | .overlappingGuards _ event => event
  | .noEffect _ event => event
  | .unreachableState state _ => state

def message : Problem → String
  | .duplicateState name => "state '" ++ name ++ "' is declared more than once"
  | .duplicateDeclaration kind name =>
    kind.text ++ " '" ++ name ++ "' is declared more than once"
  | .missingInitial _ => "no state is marked 'initial'"
  | .multipleInitial state first =>
    "state '" ++ state ++ "' is marked 'initial' but '" ++ first ++ "' already is"
  | .undeclaredState _ event endpoint name =>
    "transition on '" ++ event ++ "' has undeclared " ++ endpoint.text ++ " state '" ++ name ++ "'"
  | .undeclaredEvent _ event => "event '" ++ event ++ "' is not declared"
  | .undeclaredResetEvent event => "reset event '" ++ event ++ "' is not declared"
  | .undeclaredStateAction state action =>
    "state '" ++ state ++ "' uses undeclared command '" ++ action ++ "'"
  | .undeclaredTransitionAction _ event action =>
    "transition on '" ++ event ++ "' uses undeclared command '" ++ action ++ "'"
  | .duplicateTransition source event =>
    "state '" ++ source ++ "' already handles event '" ++ event ++ "'"
  | .overlappingGuards source event =>
    "guards on event '" ++ event ++ "' in state '" ++ source ++
      "' may overlap; the first match wins"
  | .noEffect source event =>
    "in state '" ++ source ++ "': event '" ++ event ++ "' has no effect"
  | .unreachableState state start =>
    "state '" ++ state ++ "' is unreachable from '" ++ start ++ "'"

end Problem

/-- A problem and the place of the declaration that has it. -/
structure Diagnostic where
  problem : Problem
  location : Location
deriving DecidableEq, Repr

namespace Diagnostic

def rule (d : Diagnostic) : Rule :=
  d.problem.rule

def severity (d : Diagnostic) : Severity :=
  d.rule.severity

def isError (d : Diagnostic) : Bool :=
  d.severity == .error

/-- The severity with the code of the rule. -/
def label (d : Diagnostic) : String :=
  d.severity.text ++ "[" ++ d.rule.code ++ "]"

def text (d : Diagnostic) : String :=
  d.location.text ++ ": " ++ d.label ++ ": " ++ d.problem.message

end Diagnostic

end StateMachine
