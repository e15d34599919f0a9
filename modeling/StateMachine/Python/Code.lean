import StateMachine.CodeWriter
import StateMachine.Python.Condition
import StateMachine.Python.Program

/-!
The text of a generated program. A handler tries its guarded transitions in the order of their
declaration and raises `UnhandledEvent` when none of them applies, as a run of the machine does.
-/

set_option autoImplicit false

namespace StateMachine.Python

/-- What a handler does to take a transition. -/
def takeLine (t : Transition) : String :=
  "return machine.transition(" ++ textLiteral t.target ++ ", " ++ optionalLiteral t.action ++
    ", ctx)"

/-- The branches of a handler; the first one opens the chain. -/
def branches (first : Bool) : List Transition → List Code
  | [] => []
  | t :: rest =>
    let branch :=
      match t.guard with
      | some guard =>
        .block ((if first then "if " else "elif ") ++ (Condition.ofGuard guard).text ++ ":")
          [.line (takeLine t)]
      | none => .line (takeLine t)
    branch :: branches false rest

namespace Handler

/-- The method for an event; it ends by raising if one of its branches has a condition. -/
def code (h : Handler) : Code :=
  .block ("def " ++ methodName h.event ++ "(self, machine, ctx):") <|
    branches true h.transitions ++
      if h.transitions.any (·.guard.isSome) then
        [.line ("raise UnhandledEvent(self.name, " ++ textLiteral h.event ++ ")")]
      else []

end Handler

/-- The method that runs the action of a hook, if there is one. -/
def hookCode (method : String) (action : Option String) : List Code :=
  match action with
  | none => []
  | some name =>
    [.blank, .block ("def " ++ method ++ "(self, machine, ctx):")
      [.line ("machine.run_action(" ++ textLiteral name ++ ")")]]

namespace StateClass

def code (base : String) (c : StateClass) : Code :=
  .block ("class " ++ c.className ++ "(" ++ base ++ "):") <|
    .line ("name = " ++ textLiteral c.state.name) ::
      (hookCode "on_entry" c.state.entry ++ hookCode "on_exit" c.state.exit ++
        c.handlers.flatMap fun h ↦ [.blank, h.code])

end StateClass

/-! ### The parts that every program has -/

/-- The exception for events that a state does not handle. -/
def exceptionCode : Code :=
  .block "class UnhandledEvent(Exception):"
    [.line "\"\"\"Raised when the current state does not handle an event.\"\"\"",
      .blank,
      .block "def __init__(self, state, event):"
        [.line "super().__init__(\"state '%s' does not handle event '%s'\" % (state, event))",
          .line "self.state = state",
          .line "self.event = event"]]

/-- The helper that finds the value of a field. -/
def fieldCode : Code :=
  .block "def _field(ctx, path):"
    [.line "value = ctx",
      .block "for part in path.split(\".\"):"
        [.block "if not isinstance(value, dict):" [.line "return None"],
          .line "value = value.get(part)"],
      .line "return value"]

/-- The helper that compares two values for equality. -/
def equalsCode : Code :=
  .block "def _equals(value, expected):"
    [.block "if isinstance(value, bool) or isinstance(expected, bool):"
        [.line "return value is expected"],
      .line "return value == expected"]

/-- The helper that compares a number with a bound. -/
def compareCode : Code :=
  .block "def _compare(ctx, path, op, operand):"
    [.line "value = _field(ctx, path)",
      .block "if isinstance(value, bool) or not isinstance(value, (int, float)):"
        [.line "return False"],
      .line "return op(value, operand)"]

/-- The class from which the classes of states inherit. -/
def baseCode (machine : String) : Code :=
  .block ("class " ++ baseClassName machine ++ ":")
    [.line ("\"\"\"Base class for " ++ machine ++ " states.\"\"\""),
      .blank,
      .line "name = None",
      .blank,
      .block "def on_entry(self, machine, ctx):" [.line "pass"],
      .blank,
      .block "def on_exit(self, machine, ctx):" [.line "pass"],
      .blank,
      .block "def handle(self, machine, event, ctx):"
        [.line "handler = getattr(self, \"on_\" + event, None)",
          .block "if handler is None:" [.line "raise UnhandledEvent(self.name, event)"],
          .line "return handler(machine, ctx)"]]

/-! ### The dispatcher -/

/-- A table of names and codes. -/
def tableCode (name : String) (entries : List (String × Option String)) : List Code :=
  if entries.isEmpty then [.line (name ++ " = \x7b\x7d")]
  else
    [.block (name ++ " = \x7b")
        (entries.map fun entry ↦
          .line (textLiteral entry.1 ++ ": " ++ optionalLiteral entry.2 ++ ",")),
      .line "\x7d"]

/-- The set of reset events. -/
def resetLine (events : List String) : String :=
  if events.isEmpty then "reset_events = frozenset()"
  else "reset_events = frozenset([" ++ ", ".intercalate (events.map textLiteral) ++ "])"

/-- The table of the classes of states. -/
def stateTableCode (states : List StateClass) : List Code :=
  [.block "states = \x7b"
      (states.map fun c ↦ .line (textLiteral c.state.name ++ ": " ++ c.className ++ ",")),
    .line "\x7d"]

/-- The methods of the dispatcher. -/
def dispatcherMethods : List Code :=
  [.block "def __init__(self, ctx=None):"
      [.line "self.ctx = \x7b\x7d if ctx is None else ctx",
        .line "self.state = None",
        .line "self.enter(self.initial, self.ctx)"],
    .blank,
    .block "def enter(self, target, ctx):"
      [.line "self.state = self.states[target]()",
        .line "self.state.on_entry(self, ctx)",
        .line "return self.state"],
    .blank,
    .block "def dispatch(self, event, payload=None):"
      [.line "\"\"\"Merges the payload into the context if the event is accepted.\"\"\"",
        .line "ctx = dict(self.ctx)",
        .block "if payload:" [.line "ctx.update(payload)"],
        .block "if event in self.reset_events:"
          [.line "state = self.transition(self.initial, None, ctx)"],
        .block "else:" [.line "state = self.state.handle(self, event, ctx)"],
        .line "self.ctx = ctx",
        .line "return state"],
    .blank,
    .block "def transition(self, target, action, ctx):"
      [.line "changed = target != self.state.name",
        .block "if changed:" [.line "self.state.on_exit(self, ctx)"],
        .block "if action is not None:" [.line "self.run_action(action)"],
        .block "if changed:" [.line "self.enter(target, ctx)"],
        .line "return self.state"],
    .blank,
    .block "def run_action(self, action):"
      [.line "\"\"\"Override to perform commands; `commands` maps names to codes.\"\"\""]]

namespace Program

def dispatcherCode (p : Program) : Code :=
  .block ("class " ++ p.className ++ ":") <|
    [.line ("\"\"\"Dispatcher for the " ++ p.machineName ++ " state machine.\"\"\""),
      .blank,
      .line ("initial = " ++ textLiteral p.initial),
      .line (resetLine p.resetEvents)] ++
      tableCode "events" p.events ++ tableCode "commands" p.commands ++
      stateTableCode p.states ++ [.blank] ++ dispatcherMethods

/-- The whole program. -/
def code (p : Program) : List Code :=
  [.line ("# Generated by smc from state machine '" ++ p.machineName ++ "'."),
    .line ("# Source checksum: " ++ p.checksum),
    .line "# Do not edit by hand.",
    .blank,
    .line "import operator",
    .blank,
    .blank,
    exceptionCode, .blank, .blank,
    fieldCode, .blank, .blank,
    equalsCode, .blank, .blank,
    compareCode, .blank, .blank,
    baseCode p.machineName] ++
    (p.states.flatMap fun c ↦ [.blank, .blank, c.code (baseClassName p.machineName)]) ++
    [.blank, .blank, p.dispatcherCode]

end Program

/-- The text of the program of a machine. -/
def generate (options : Options) (m : Machine) : Except GenerationError String := do
  let program ← Program.ofMachine options m
  return Code.text options.indentWidth program.code

end StateMachine.Python
