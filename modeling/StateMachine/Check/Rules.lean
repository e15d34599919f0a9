import StateMachine.Check.Diagnostic
import StateMachine.Guard.Exclusion
import StateMachine.Machine.Reachability

/-!
The rules of a check. A check never fails; each rule reports in the order of declaration, and the
rules report one after the other.
-/

set_option autoImplicit false

namespace StateMachine

/-- The elements whose key an earlier element, or one already seen, has too. -/
def repeatedBy {α : Type} (key : α → String) (seen : List String) : List α → List α
  | [] => []
  | x :: rest =>
    if seen.contains (key x) then x :: repeatedBy key seen rest
    else repeatedBy key (key x :: seen) rest

/-- The elements whose key no earlier element, and none already seen, has. -/
def firstBy {α : Type} (key : α → String) (seen : List String) : List α → List α
  | [] => []
  | x :: rest =>
    if seen.contains (key x) then firstBy key seen rest
    else x :: firstBy key (key x :: seen) rest

/-- What a check is to report. -/
structure CheckOptions where
  unreachableStates : Bool
deriving DecidableEq, Repr

namespace CheckOptions

def standard : CheckOptions :=
  ⟨true⟩

end CheckOptions

namespace Transition

/-- Both transitions leave one state on one event. -/
def competesWith (t u : Transition) : Bool :=
  t.source == u.source && t.event == u.event

/-- Both guards are there and exclude each other. -/
def excludes (t u : Transition) : Bool :=
  match t.guard, u.guard with
  | some g, some h => g.excludes h
  | _, _ => false

/-- At least one of two guards is missing. -/
def lacksGuard (t u : Transition) : Bool :=
  t.guard.isNone || u.guard.isNone

end Transition

namespace Machine

def duplicateStates (m : Machine) : List Diagnostic :=
  (repeatedBy State.name [] m.states).map fun s ↦ ⟨.duplicateState s.name, s.location⟩

def duplicatesAmong (kind : DeclarationKind) (declarations : List Declaration) :
    List Diagnostic :=
  (repeatedBy Declaration.name [] declarations).map fun d ↦
    ⟨.duplicateDeclaration kind d.name, d.location⟩

def duplicateDeclarations (m : Machine) : List Diagnostic :=
  duplicatesAmong .event m.events ++ duplicatesAmong .resetEvent m.resetEvents ++
    duplicatesAmong .command m.commands

def initialProblems (m : Machine) : List Diagnostic :=
  match m.initialStates with
  | [] => [⟨.missingInitial m.name, Location.start⟩]
  | first :: extra => extra.map fun s ↦ ⟨.multipleInitial s.name first.name, s.location⟩

/-- A report on an endpoint that is not declared. -/
def endpointProblem (m : Machine) (t : Transition) (endpoint : Endpoint) (name : String) :
    List Diagnostic :=
  if m.hasState name then []
  else [⟨.undeclaredState t.source t.event endpoint name, t.location⟩]

def undeclaredStates (m : Machine) : List Diagnostic :=
  m.transitions.flatMap fun t ↦
    m.endpointProblem t .source t.source ++ m.endpointProblem t .target t.target

/-- Is the name among some declarations? -/
def declaredIn (declarations : List Declaration) (name : String) : Bool :=
  declarations.any (·.name == name)

def undeclaredEvents (m : Machine) : List Diagnostic :=
  if m.events.isEmpty then []
  else
    (m.transitions.filter fun t ↦ !declaredIn m.events t.event).map
        (fun t ↦ ⟨.undeclaredEvent t.source t.event, t.location⟩) ++
      (m.resetEvents.filter fun d ↦ !declaredIn m.events d.name).map
        (fun d ↦ ⟨.undeclaredResetEvent d.name, d.location⟩)

def undeclaredCommands (m : Machine) : List Diagnostic :=
  if m.commands.isEmpty then []
  else
    (m.states.flatMap fun s ↦
        (s.actions.filter fun a ↦ !declaredIn m.commands a).map fun a ↦
          ⟨.undeclaredStateAction s.name a, s.location⟩) ++
      m.transitions.flatMap fun t ↦
        (t.action.toList.filter fun a ↦ !declaredIn m.commands a).map fun a ↦
          ⟨.undeclaredTransitionAction t.source t.event a, t.location⟩

/-- The report on a transition that competes with earlier ones. A missing guard on either side is
an error, guards that may hold together are a warning. -/
def competition (earlier : List Transition) (t : Transition) : List Diagnostic :=
  let rivals := earlier.filter (·.competesWith t)
  if rivals.any (·.lacksGuard t) then [⟨.duplicateTransition t.source t.event, t.location⟩]
  else if rivals.any fun u ↦ !u.excludes t then
    [⟨.overlappingGuards t.source t.event, t.location⟩]
  else []

/-- The reports on transitions that follow some earlier ones. -/
def competitions (earlier : List Transition) : List Transition → List Diagnostic
  | [] => []
  | t :: later => competition earlier t ++ competitions (earlier ++ [t]) later

def competingTransitions (m : Machine) : List Diagnostic :=
  competitions [] m.transitions

def idleTransitions (m : Machine) : List Diagnostic :=
  (m.transitions.filter Transition.isNoOp).map fun t ↦ ⟨.noEffect t.source t.event, t.location⟩

/-- Only a machine with one initial state is searched for states that cannot be reached. -/
def unreachableStates (m : Machine) : List Diagnostic :=
  match m.initialState? with
  | none => []
  | some start =>
    let reached := m.reachable start.name
    (firstBy State.name [] (m.states.filter fun s ↦ !reached.contains s.name)).map fun s ↦
      ⟨.unreachableState s.name start.name, s.location⟩

/-- Everything that the rules object to. -/
def check (m : Machine) (options : CheckOptions) : List Diagnostic :=
  m.duplicateStates ++ m.duplicateDeclarations ++ m.initialProblems ++ m.undeclaredStates ++
    m.undeclaredEvents ++ m.undeclaredCommands ++ m.competingTransitions ++ m.idleTransitions ++
    if options.unreachableStates then m.unreachableStates else []

end Machine

/-- Is one of the diagnostics an error? -/
def hasErrors (diagnostics : List Diagnostic) : Bool :=
  diagnostics.any Diagnostic.isError

end StateMachine
