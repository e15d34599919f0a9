import StateMachine.Check.Diagnostic
import StateMachine.Machine.Printer

/-!
Machines and diagnostics as JSON. What is not set is left out, locations of a machine's parts are
not written, and a guard is written as its text.
-/

set_option autoImplicit false

namespace StateMachine

/-- A member with a text, or none. -/
def optionalMember (key : String) : Option String → List (String × Json)
  | none => []
  | some text => [(key, .string text)]

namespace Declaration

def toJson (d : Declaration) : Json :=
  .ofMembers (("name", .string d.name) :: optionalMember "code" d.code)

end Declaration

namespace State

def toJson (s : State) : Json :=
  .ofMembers ([("name", .string s.name), ("initial", .bool s.initial)] ++
    optionalMember "entry" s.entry ++ optionalMember "exit" s.exit)

end State

namespace Transition

def members (t : Transition) : List (String × Json) :=
  [("source", .string t.source), ("target", .string t.target), ("event", .string t.event)] ++
    optionalMember "guard" (t.guard.map (·.text)) ++ optionalMember "action" t.action

def toJson (t : Transition) : Json :=
  .ofMembers t.members

end Transition

namespace Machine

def toJson (m : Machine) : Json :=
  .ofMembers
    [("name", .string m.name),
      ("events", .array (m.events.map Declaration.toJson)),
      ("reset_events", .array (m.resetEvents.map Declaration.toJson)),
      ("commands", .array (m.commands.map Declaration.toJson)),
      ("states", .array (m.states.map State.toJson)),
      ("transitions", .array (m.transitions.map Transition.toJson))]

end Machine

namespace Location

def toJson (l : Location) : Json :=
  .ofMembers [("line", .ofNat l.line), ("column", .ofNat l.column)]

end Location

namespace Subject

def toJson (s : Subject) : Json :=
  let named (kind name : String) : Json :=
    .ofMembers [("kind", .string kind), ("name", .string name)]
  match s with
  | .machine name => named "machine" name
  | .state name => named "state" name
  | .event name => named "event" name
  | .command name => named "command" name
  | .transition source trigger =>
    .ofMembers [("kind", .string "transition"), ("source", .string source),
      ("event", .string trigger)]

end Subject

namespace Diagnostic

def members (d : Diagnostic) : List (String × Json) :=
  [("severity", .string d.severity.text), ("code", .string d.rule.code),
    ("message", .string d.problem.message), ("location", d.location.toJson),
    ("subject", d.problem.subject.toJson), ("identifier", .string d.problem.identifier)]

def toJson (d : Diagnostic) : Json :=
  .ofMembers d.members

end Diagnostic

end StateMachine
