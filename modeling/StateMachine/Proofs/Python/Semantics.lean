import StateMachine.Proofs.Python.Syntax
import StateMachine.Simulation

/-!
What a generated program does. Dictionaries live in a store, so that copying one and changing one
in place are different things; the dispatcher keeps its attributes there. Attributes and methods
are found by name, first in the class of an object and then in its base, and what is raised leaves
every method with the store as it is. Guards count for the conditions they become, and the names of
built-in functions for these functions: a class that hides one of them from the methods, which only
a suffix other than the standard one can make, is not taken into account.

Calls are counted by depth: a call of a method takes a fuel of one more than the calls inside it, as
under a recursion limit.
-/

set_option autoImplicit false

namespace StateMachine.Python

/-- Members of a dictionary. -/
abbrev Members := List (String × Json)

/-- The members with those of another dictionary, which replace them. -/
def Members.update (members patch : Members) : Members :=
  patch.foldl (fun members member ↦ Json.insertMember member.1 member.2 members) members

inductive Value where
  | nothing
  | truth (b : Bool)
  | text (s : String)
  /-- A dictionary, by its place in the store. -/
  | dict (address : Nat)
  | texts (elements : List String)
  | codes (entries : List (String × Option String))
  | classes (entries : List (String × String))
  | stateClass (name : String)
  /-- An object of a state's class. It has no attributes of its own. -/
  | state (className : String)
  | dispatcher
  /-- A method of an object. -/
  | bound (receiver : Value) (m : Method)

/-- The dictionaries, the attributes of the dispatcher, and the actions that were run. -/
structure Store where
  dicts : List Members
  attributes : String → Option Value
  actions : List String

/-- What a program raises. -/
inductive Raised where
  | unhandledEvent (state event : String)
  | other
deriving DecidableEq

/-- An execution raises something or has a result, and leaves a store in either case. -/
abbrev Execution := EStateM Raised Store

/-! ### Stores -/

namespace Store

/-- Nothing has been made yet. -/
def empty : Store :=
  ⟨[], fun _ ↦ none, []⟩

/-- The store in which the dispatcher has an attribute. -/
def setAttribute (s : Store) (name : String) (value : Value) : Store :=
  { s with attributes := fun other ↦ if other = name then some value else s.attributes other }

/-- The store in which further actions were run. -/
def run (s : Store) (actions : List String) : Store :=
  { s with actions := s.actions ++ actions }

/-- The store with one more dictionary. -/
def add (s : Store) (members : Members) : Store :=
  { s with dicts := s.dicts ++ [members] }

/-- The members of a value that is a dictionary. -/
def members? (s : Store) : Value → Option Members
  | .dict address => s.dicts[address]?
  | _ => none

/-- Does the value count as true? -/
def isTrue (s : Store) : Value → Bool
  | .nothing => false
  | .truth b => b
  | .text t => !t.isEmpty
  | .dict address => (s.dicts[address]?).any (!·.isEmpty)
  | .texts elements => !elements.isEmpty
  | .codes entries => !entries.isEmpty
  | .classes entries => !entries.isEmpty
  | _ => true

end Store

namespace Execution

/-- A missing value is an error. -/
def demand {α : Type} : Option α → Execution α
  | some a => pure a
  | none => throw .other

/-- Makes a dictionary. -/
def allocate (members : Members) : Execution Value := do
  let address := (← get).dicts.length
  modify (·.add members)
  return .dict address

/-- The arguments for a payload, of which a dictionary is made if there is one. -/
def pass : Option Members → Execution (List Value)
  | none => return []
  | some members => return [← allocate members]

end Execution

/-! ### Attributes -/

def Constant.value : Constant → Value
  | .nothing => .nothing
  | .text s => .text s
  | .texts elements => .texts elements
  | .codes entries => .codes entries
  | .classes entries => .classes entries

/-- What a member of a class gives its objects under a name. -/
def Member.attribute? (receiver : Value) (name : String) : Member → Option Value
  | .constant other c => if other = name then some c.value else none
  | .method m => if m.name = name then some (.bound receiver m) else none
  | .blank | .docstring _ => none

/-- What a class gives its objects under a name; the last definition counts. -/
def ClassDefinition.attribute? (c : ClassDefinition) (receiver : Value) (name : String) :
    Option Value :=
  c.members.reverse.findSome? (Member.attribute? receiver name)

namespace Module

def class? (program : Module) (name : String) : Option ClassDefinition :=
  program.classes.find? (·.name == name)

/-- The attribute of an object: its own, or one that its class or the base of it gives. -/
def attribute? (program : Module) (s : Store) (object : Value) (name : String) : Option Value :=
  match object with
  | .dispatcher => s.attributes name <|> program.dispatcher.attribute? .dispatcher name
  | .state className =>
    (program.class? className).bind fun c ↦
      c.attribute? object name <|>
        (c.base.bind program.class?).bind (·.attribute? object name)
  | _ => none

end Module

/-! ### Expressions -/

namespace Value

def text? : Value → Option String
  | .text s => some s
  | _ => none

def concat? : Value → Value → Option Value
  | .text s, .text t => some (.text (s ++ t))
  | _, _ => none

/-- What a table has for a key; the last entry counts. -/
def item? : Value → Value → Option Value
  | .classes entries, .text key =>
    (entries.reverse.find? (·.1 == key)).map fun entry ↦ .stateClass entry.2
  | .codes entries, .text key =>
    (entries.reverse.find? (·.1 == key)).map fun entry ↦ (entry.2.map text).getD .nothing
  | _, _ => none

def differs? : Value → Value → Option Bool
  | .text s, .text t => some (s ≠ t)
  | _, _ => none

def member? : Value → Value → Option Bool
  | .text s, .texts elements => some (elements.contains s)
  | _, _ => none

def isNothing : Value → Bool
  | .nothing => true
  | _ => false

end Value

/-- The variables of a call. -/
abbrev Locals := List (String × Value)

open Execution

/-- A condition speaks of the variable `ctx`. -/
def Expression.eval (program : Module) (locals : Locals) : Expression → Execution Value
  | .nothing => return .nothing
  | .literal text => return .text text
  | .emptyDict => allocate []
  | .reference name => demand (locals.lookup name)
  | .attribute object name => do
    let object ← object.eval program locals
    demand (program.attribute? (← get) object name)
  | .optionalAttribute object name => do
    let object ← object.eval program locals
    let name ← demand (← name.eval program locals).text?
    return (program.attribute? (← get) object name).getD .nothing
  | .item table key => do
    let table ← table.eval program locals
    demand (table.item? (← key.eval program locals))
  | .copy dict => do
    let dict ← dict.eval program locals
    allocate (← demand ((← get).members? dict))
  | .concat first second => do
    let first ← first.eval program locals
    demand (first.concat? (← second.eval program locals))
  | .isNothing operand => return .truth (← operand.eval program locals).isNothing
  | .isSomething operand => return .truth !(← operand.eval program locals).isNothing
  | .differs first second => do
    let first ← first.eval program locals
    return .truth (← demand (first.differs? (← second.eval program locals)))
  | .member element set => do
    let element ← element.eval program locals
    return .truth (← demand (element.member? (← set.eval program locals)))
  | .conditional test positive negative => do
    let test ← test.eval program locals
    if (← get).isTrue test then positive.eval program locals else negative.eval program locals
  | .guard g => do
    let context ← demand (locals.lookup "ctx")
    return .truth (g.evaluate (.object (← demand ((← get).members? context))))

/-! ### Statements -/

section Statements

variable (program : Module) (call : Value → List Value → Execution Value)

/-- The function is looked at first, then its arguments from left to right. -/
def Computation.eval (locals : Locals) : Computation → Execution Value
  | .value e => e.eval program locals
  | .call function arguments => do
    let function ← function.eval program locals
    call function (← arguments.mapM (Expression.eval program locals))

/-- A statement is done, or it was the last one of the call. -/
inductive Flow where
  | next (locals : Locals)
  | answered (value : Value)

def SimpleStatement.exec (locals : Locals) : SimpleStatement → Execution Flow
  | .docstring _ | .pass => return .next locals
  | .assign name c => return .next ((name, ← c.eval program call locals) :: locals)
  | .setAttribute name c => do
    let value ← c.eval program call locals
    match locals.lookup "self" with
    | some .dispatcher =>
      modify (·.setAttribute name value)
      return .next locals
    | _ => throw .other
  | .update name patch => do
    let dict ← demand (locals.lookup name)
    let patch ← patch.eval program locals
    let s ← get
    match dict, s.members? dict, s.members? patch with
    | .dict address, some members, some patch =>
      set { s with dicts := s.dicts.set address (members.update patch) }
      return .next locals
    | _, _, _ => throw .other
  | .perform c => do
    let _ ← c.eval program call locals
    return .next locals
  | .answer c => return .answered (← c.eval program call locals)
  | .raiseUnhandled state event => do
    let state ← demand (← state.eval program locals).text?
    let event ← demand (← event.eval program locals).text?
    throw (.unhandledEvent state event)

/-- The first branch whose condition is true. -/
def Statement.execChoice (locals : Locals) (otherwise : Option SimpleStatement) :
    List (Expression × SimpleStatement) → Execution Flow
  | [] =>
    match otherwise with
    | some s => s.exec program call locals
    | none => return .next locals
  | (condition, s) :: rest => do
    let condition ← condition.eval program locals
    if (← get).isTrue condition then s.exec program call locals
    else execChoice locals otherwise rest

def Statement.exec (locals : Locals) : Statement → Execution Flow
  | .simple s => s.exec program call locals
  | .choice branches otherwise => execChoice program call locals otherwise branches

/-- A body without an answer answers nothing. -/
def Statement.execAll : List Statement → Locals → Execution Value
  | [], _ => return .nothing
  | s :: rest, locals => do
    match ← s.exec program call locals with
    | .next locals => execAll rest locals
    | .answered value => return value

end Statements

/-! ### Calls -/

namespace Method

/-- The variables that a call starts with. -/
def locals? (m : Method) (receiver : Value) (arguments : List Value) : Option Locals :=
  if arguments.length = m.names.length then some (("self", receiver) :: m.names.zip arguments)
  else if m.optional.isSome ∧ arguments.length + 1 = m.names.length then
    some (("self", receiver) :: m.names.zip (arguments ++ [.nothing]))
  else none

/-- The actions that a call runs: `run_action` is there to be overridden, and what the dispatcher
calls it with is what the program does. -/
def actions (m : Method) (receiver : Value) (arguments : List Value) : List String :=
  match receiver with
  | .dispatcher => if m.name = "run_action" then arguments.filterMap Value.text? else []
  | _ => []

end Method

namespace Module

/-- Calls a method, or makes an object of a class that has no initializer. -/
def call (program : Module) : Nat → Value → List Value → Execution Value
  | 0, _, _ => throw .other
  | fuel + 1, .bound receiver m, arguments => do
    modify (·.run (m.actions receiver arguments))
    let locals ← demand (m.locals? receiver arguments)
    Statement.execAll program (program.call fuel) m.body locals
  | _ + 1, .stateClass name, [] => do
    if (program.attribute? (← get) (.state name) "__init__").isNone then return .state name
    else throw .other
  | _ + 1, _, _ => throw .other

/-- Calls a method of the dispatcher by its name. -/
def send (program : Module) (fuel : Nat) (name : String) (arguments : List Value) :
    Execution Value := do
  program.call fuel (← demand (program.attribute? (← get) .dispatcher name)) arguments

/-- Makes a dispatcher on a context. -/
def start (program : Module) (fuel : Nat) (context : Members) : Execution Unit := do
  let _ ← program.send fuel "__init__" [← allocate context]

/-- Dispatches an event, with a payload if there is one. -/
def dispatch (program : Module) (fuel : Nat) (event : String) (payload : Option Members) :
    Execution Unit := do
  let _ ← program.send fuel "dispatch" (.text event :: (← pass payload))

/-! ### What can be seen -/

/-- The name of the state that the dispatcher is in. -/
def stateName? (program : Module) (s : Store) : Option String :=
  ((s.attributes "state").bind fun state ↦ program.attribute? s state "name").bind Value.text?

/-- The context that the dispatcher holds. -/
def context? (s : Store) : Option Json :=
  ((s.attributes "ctx").bind s.members?).map Json.object

end Module

end StateMachine.Python
