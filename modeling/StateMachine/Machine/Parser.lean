import StateMachine.Guard.Parser
import StateMachine.Machine.Basic
import StateMachine.Token.Scan

/-!
Reading machine descriptions. A description is read line by line: each line that is not blank is
the header, opens or closes a block, or belongs to the block that is open. Every declaration and
clause takes exactly one line, so reading is a fold over the lines whose state is the machine so
far and the block that is open.

    file        := [ 'machine' NAME ] item*
    item        := events | resetEvents | commands | state | transition
    events      := 'events' ( NAME [NAME] )* 'end'
    resetEvents := 'resetEvents' ( NAME )* 'end'
    commands    := 'commands' ( NAME [NAME] )* 'end'
    state       := ['initial'] 'state' NAME clause* 'end'
    clause      := 'entry' NAME | 'exit' NAME | NAME '=>' NAME [GUARD] ['/' NAME]
    transition  := 'transition' NAME '->' NAME 'on' NAME [GUARD] ['/' NAME]
-/

set_option autoImplicit false

namespace StateMachine

/-- A line: its tokens and the token that ends it. -/
structure Line where
  tokens : List Token
  finish : Token

namespace TokenStream

/-- The lines of some tokens before a last token. -/
def linesOf (last : Token) : List Token → List Line
  | [] => [⟨[], last⟩]
  | token :: rest =>
    if token.lexeme = .newline then ⟨[], token⟩ :: linesOf last rest
    else
      match linesOf last rest with
      | [] => [⟨[token], last⟩]
      | line :: more => ⟨token :: line.tokens, line.finish⟩ :: more

/-- The lines of a stream; the last one ends at the end of the text. -/
def lines (stream : TokenStream) : List Line :=
  linesOf stream.finishToken stream.tokens

end TokenStream

namespace Line

/-- The next token, which is the end of the line if nothing else is left. -/
def peek (l : Line) : Token :=
  l.tokens.headD l.finish

/-- The next token is not what was expected. -/
def unexpected (l : Line) (expected : Expectation) : SyntaxError :=
  ⟨l.peek.location, .unexpectedToken expected l.peek.lexeme⟩

end Line

/-- A reader of the tokens of a line. -/
abbrev LineReader := StateT Line (Except SyntaxError)

namespace LineReader

/-- Reads one given lexeme and tells where it stands. -/
def exactly (lexeme : Lexeme) (expected : Expectation) : LineReader Location := fun l ↦
  match l.tokens with
  | token :: rest =>
    if token.lexeme = lexeme then .ok (token.location, ⟨rest, l.finish⟩)
    else .error (l.unexpected expected)
  | [] => .error (l.unexpected expected)

def keyword (word : Keyword) : LineReader Location :=
  exactly (.keyword word) (.keyword word)

/-- Reads a name and tells where it stands. -/
def placedName (expected : Expectation) : LineReader (String × Location) := fun l ↦
  match l.tokens with
  | ⟨.identifier name, location⟩ :: rest => .ok ((name, location), ⟨rest, l.finish⟩)
  | _ => .error (l.unexpected expected)

def name (expected : Expectation) : LineReader String := do
  return (← placedName expected).1

/-- Reads a name if there is one. -/
def optionalName : LineReader (Option String) := fun l ↦
  match l.tokens with
  | ⟨.identifier name, _⟩ :: rest => .ok (some name, ⟨rest, l.finish⟩)
  | _ => .ok (none, l)

/-- Reads a guard if there is one. A flaw in it shows so many characters after its bracket. -/
def optionalGuard : LineReader (Option Guard) := fun l ↦
  match l.tokens with
  | ⟨.guard text, location⟩ :: rest =>
    match Guard.parse text with
    | .ok guard => .ok (some guard, ⟨rest, l.finish⟩)
    | .error e =>
      .error ⟨⟨location.line, location.column + 1 + e.offset⟩, .invalidGuard e.flaw⟩
  | _ => .ok (none, l)

/-- Reads a slash and the name of an action if there is a slash. -/
def optionalAction : LineReader (Option String) := fun l ↦
  match l.tokens with
  | ⟨.slash, _⟩ :: rest => (some <$> name .actionName) ⟨rest, l.finish⟩
  | _ => .ok (none, l)

/-- Demands the end of the line. -/
def finished : LineReader Unit := fun l ↦
  if l.tokens.isEmpty then .ok ((), l) else .error (l.unexpected .endOfLine)

/-! ### The kinds of lines -/

def header : LineReader String := do
  let _ ← keyword .machine
  let result ← name .machineName
  finished
  return result

/-- A keyword on a line of its own. -/
def lone (word : Keyword) : LineReader Unit := do
  let _ ← keyword word
  finished

def declaration (expected : Expectation) (withCode : Bool) : LineReader Declaration := do
  let (name, location) ← placedName expected
  let code ← if withCode then optionalName else pure none
  finished
  return ⟨name, code, location⟩

/-- The line that opens a state. -/
def stateHeader : LineReader State := fun l ↦
  let location := l.peek.location
  let reader : LineReader State := do
    let initial := l.peek.lexeme = .keyword .initial
    if initial then
      let _ ← keyword .initial
    let _ ← keyword .state
    let name ← name .stateName
    finished
    return ⟨name, initial, none, none, location⟩
  reader l

/-- An entry or exit action, and where its clause starts. -/
def hookClause (hook : Hook) : LineReader (String × Location) := do
  let location ← keyword hook.keyword
  let action ← name .actionName
  finished
  return (action, location)

/-- What may follow the event and the states of a transition. -/
def transitionTail (source target event : String) (location : Location) :
    LineReader Transition := do
  let guard ← optionalGuard
  let action ← optionalAction
  finished
  return ⟨source, target, event, guard, action, location⟩

/-- A transition inside a state. -/
def nestedTransition (source : String) : LineReader Transition := do
  let (event, location) ← placedName .eventName
  let _ ← exactly .fatArrow .fatArrow
  let target ← name .targetState
  transitionTail source target event location

def transition : LineReader Transition := do
  let location ← keyword .transition
  let source ← name .sourceState
  let _ ← exactly .arrow .arrow
  let target ← name .targetState
  let _ ← keyword .on
  let event ← name .eventName
  transitionTail source target event location

/-- What a reader makes of a line. -/
def read {α : Type} (reader : LineReader α) (l : Line) : Except SyntaxError α :=
  (·.1) <$> reader l

end LineReader

/-! ### Blocks -/

/-- The blocks of declarations. -/
inductive DeclarationKind where
  | event
  | resetEvent
  | command
deriving DecidableEq, Repr

namespace DeclarationKind

def withCode : DeclarationKind → Bool
  | .resetEvent => false
  | _ => true

def expectation : DeclarationKind → Expectation
  | .command => .commandOrEnd
  | _ => .eventOrEnd

end DeclarationKind

/-- The block that is open. -/
inductive Block where
  /-- Nothing has been read yet. -/
  | beginning
  | none
  | declarations (kind : DeclarationKind)
  | state (state : State)

/-- What has been read: the machine so far and the block that is open. -/
structure Progress where
  machine : Machine
  block : Block

namespace Machine

def declare (m : Machine) (kind : DeclarationKind) (d : Declaration) : Machine :=
  match kind with
  | .event => { m with events := m.events ++ [d] }
  | .resetEvent => { m with resetEvents := m.resetEvents ++ [d] }
  | .command => { m with commands := m.commands ++ [d] }

def addState (m : Machine) (s : State) : Machine :=
  { m with states := m.states ++ [s] }

def addTransition (m : Machine) (t : Transition) : Machine :=
  { m with transitions := m.transitions ++ [t] }

end Machine

namespace State

/-- The action of a hook. -/
def action? (s : State) : Hook → Option String
  | .entry => s.entry
  | .exit => s.exit

def withAction (s : State) (hook : Hook) (action : String) : State :=
  match hook with
  | .entry => { s with entry := some action }
  | .exit => { s with exit := some action }

end State

namespace Progress

open LineReader

/-- Reads a line outside every block. -/
def item (m : Machine) (l : Line) : Except SyntaxError Progress :=
  let opening (word : Keyword) (kind : DeclarationKind) : Except SyntaxError Progress := do
    read (lone word) l
    return ⟨m, .declarations kind⟩
  match l.peek.lexeme with
  | .keyword .machine => .error ⟨l.peek.location, .misplacedHeader⟩
  | .keyword .events => opening .events .event
  | .keyword .resetEvents => opening .resetEvents .resetEvent
  | .keyword .commands => opening .commands .command
  | .keyword .initial | .keyword .state => do
    let s ← read stateHeader l
    return ⟨m, .state s⟩
  | .keyword .transition => do
    let t ← read transition l
    return ⟨m.addTransition t, .none⟩
  | _ => .error (l.unexpected .declaration)

/-- Reads a line that is not blank. -/
def next (p : Progress) (l : Line) : Except SyntaxError Progress :=
  match p.block with
  | .beginning =>
    if l.peek.lexeme = .keyword .machine then do
      let name ← read header l
      return ⟨{ p.machine with name := name }, .none⟩
    else item p.machine l
  | .none => item p.machine l
  | .declarations kind =>
    if l.peek.lexeme = .keyword .endBlock then do
      read (lone .endBlock) l
      return ⟨p.machine, .none⟩
    else do
      let d ← read (declaration kind.expectation kind.withCode) l
      return ⟨p.machine.declare kind d, p.block⟩
  | .state s =>
    let clause (hook : Hook) : Except SyntaxError Progress := do
      let (action, location) ← read (hookClause hook) l
      match s.action? hook with
      | some _ => .error ⟨location, .duplicateClause hook s.name⟩
      | none => return ⟨p.machine, .state (s.withAction hook action)⟩
    match l.peek.lexeme with
    | .keyword .endBlock => do
      read (lone .endBlock) l
      return ⟨p.machine.addState s, .none⟩
    | .keyword .entry => clause .entry
    | .keyword .exit => clause .exit
    | .identifier _ => do
      let t ← read (nestedTransition s.name) l
      return ⟨p.machine.addTransition t, p.block⟩
    | _ => .error (l.unexpected .stateClause)

/-- Reads a line; a blank one says nothing. -/
def step (p : Progress) (l : Line) : Except SyntaxError Progress :=
  if l.tokens.isEmpty then .ok p else p.next l

/-- The machine, if no block is open at the end of the text. -/
def close (finish : Token) (p : Progress) : Except SyntaxError Machine :=
  match p.block with
  | .beginning | .none => .ok p.machine
  | .declarations kind =>
    .error ⟨finish.location, .unexpectedToken kind.expectation finish.lexeme⟩
  | .state _ => .error ⟨finish.location, .unexpectedToken .stateClause finish.lexeme⟩

end Progress

namespace Machine

/-- The name of a machine whose description has no header. -/
def defaultName : String := "Machine"

/-- The machine that a stream of tokens describes. -/
def ofTokens (name : String) (stream : TokenStream) : Except SyntaxError Machine := do
  let p ← stream.lines.foldlM Progress.step ⟨empty name, .beginning⟩
  p.close stream.finishToken

/-- The machine that a text describes. Without a header the machine takes the given name, made an
identifier so that the machine can be written down. -/
def parseNamed (name : String) (text : String) : Except SyntaxError Machine := do
  ofTokens (Identifier.repair name) (← TokenStream.scan text)

/-- The machine that a text describes. -/
def parse (text : String) : Except SyntaxError Machine :=
  parseNamed defaultName text

end Machine

end StateMachine
