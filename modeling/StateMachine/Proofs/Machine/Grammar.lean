import StateMachine.Proofs.Machine.Line
import StateMachine.Proofs.Machine.Step

/-!
The grammar of machine descriptions, and what a derivation denotes. Every production is a row of
lines, and a line is a few lexemes with the end of the line behind them:

    file        := [ 'machine' NAME EOL ] item*
    item        := events | resetEvents | commands | state | transition
    events      := 'events' EOL ( NAME [NAME] EOL )* 'end' EOL
    resetEvents := 'resetEvents' EOL ( NAME EOL )* 'end' EOL
    commands    := 'commands' EOL ( NAME [NAME] EOL )* 'end' EOL
    state       := ['initial'] 'state' NAME EOL clause* 'end' EOL
    clause      := 'entry' NAME EOL | 'exit' NAME EOL | NAME '=>' NAME [GUARD] ['/' NAME] EOL
    transition  := 'transition' NAME '->' NAME 'on' NAME [GUARD] ['/' NAME] EOL

EOL is a line break or the end of the text. Blank lines are ignored: any number of them may stand
in front of a line and at the end of the text. A derivation is written as the tree of what it
found (`Description`), from which the machine is put together (`Description.machine`).
-/

set_option autoImplicit false

namespace StateMachine

/-! ### Trees -/

/-- A transition as it is written, its guard still a text. -/
structure Arc where
  event : String
  target : String
  guard : Option String
  action : Option String
  location : Location

/-- A clause of a state. -/
inductive Clause where
  | hook (hook : Hook) (action : String)
  | arc (arc : Arc)

/-- A state as it is written. -/
structure StateBlock where
  name : String
  initial : Bool
  clauses : List Clause
  location : Location

inductive Item where
  | declarations (kind : DeclarationKind) (entries : List Declaration)
  | state (block : StateBlock)
  | transition (source : String) (arc : Arc)

/-- A whole text: the name in its header, if it has one, and its items. -/
structure Description where
  header : Option String
  items : List Item

/-! ### Lines -/

namespace Arc

/-- The guard and the action at the end of the line. -/
def tailLexemes (a : Arc) : List Lexeme :=
  guardLexemes a.guard ++ actionLexemes a.action

/-- The line inside a state. -/
def nestedLexemes (a : Arc) : List Lexeme :=
  [.identifier a.event, .fatArrow, .identifier a.target] ++ a.tailLexemes

/-- The line outside of states. -/
def lexemes (a : Arc) (source : String) : List Lexeme :=
  [.keyword .transition, .identifier source, .arrow, .identifier a.target, .keyword .on,
    .identifier a.event] ++ a.tailLexemes

end Arc

namespace StateBlock

/-- The line that opens the state. -/
def headerLexemes (b : StateBlock) : List Lexeme :=
  (if b.initial then [.keyword .initial] else []) ++ [.keyword .state, .identifier b.name]

end StateBlock

namespace Grammar

/-- A line ends with a line break, or where the text ends. -/
inductive EndOfLine : List Token → List Token → Prop
  | newline {token : Token} {rest : List Token} (h : token.lexeme = .newline) :
      EndOfLine (token :: rest) rest
  | endOfText : EndOfLine [] []

/-- The tokens go on with a line of these lexemes, behind blank lines; the first lexeme stands at
the location. -/
inductive LineOf (lexemes : List Lexeme) (location : Location) : List Token → List Token → Prop
  | blank {token : Token} {tokens rest : List Token} (h : token.lexeme = .newline)
      (hline : LineOf lexemes location tokens rest) :
      LineOf lexemes location (token :: tokens) rest
  | line {token : Token} {more after rest : List Token}
      (hlexemes : (token :: more).map (·.lexeme) = lexemes) (hlocation : token.location = location)
      (hend : EndOfLine after rest) : LineOf lexemes location (token :: more ++ after) rest

/-! ### Productions -/

/-- The entries of a block of declarations, up to its end. Reset events have no code. -/
inductive Entries (kind : DeclarationKind) : List Token → List Declaration → List Token → Prop
  | done {location : Location} {tokens rest : List Token}
      (h : LineOf [.keyword .endBlock] location tokens rest) : Entries kind tokens [] rest
  | entry {d : Declaration} {entries : List Declaration} {tokens after rest : List Token}
      (hcode : kind = .resetEvent → d.code = none)
      (h : LineOf (.identifier d.name :: (d.code.map Lexeme.identifier).toList) d.location tokens
        after)
      (hmore : Entries kind after entries rest) : Entries kind tokens (d :: entries) rest

/-- The clauses of a state, up to its end. -/
inductive Clauses : List Token → List Clause → List Token → Prop
  | done {location : Location} {tokens rest : List Token}
      (h : LineOf [.keyword .endBlock] location tokens rest) : Clauses tokens [] rest
  | hook {hook : Hook} {action : String} {location : Location} {clauses : List Clause}
      {tokens after rest : List Token}
      (h : LineOf [.keyword hook.keyword, .identifier action] location tokens after)
      (hmore : Clauses after clauses rest) : Clauses tokens (.hook hook action :: clauses) rest
  | arc {arc : Arc} {clauses : List Clause} {tokens after rest : List Token}
      (h : LineOf arc.nestedLexemes arc.location tokens after)
      (hmore : Clauses after clauses rest) : Clauses tokens (.arc arc :: clauses) rest

inductive ItemOf : List Token → Item → List Token → Prop
  | declarations {kind : DeclarationKind} {entries : List Declaration} {location : Location}
      {tokens after rest : List Token}
      (h : LineOf [.keyword kind.keyword] location tokens after)
      (hentries : Entries kind after entries rest) :
      ItemOf tokens (.declarations kind entries) rest
  | state {block : StateBlock} {tokens after rest : List Token}
      (h : LineOf block.headerLexemes block.location tokens after)
      (hclauses : Clauses after block.clauses rest) : ItemOf tokens (.state block) rest
  | transition {source : String} {arc : Arc} {tokens rest : List Token}
      (h : LineOf (arc.lexemes source) arc.location tokens rest) :
      ItemOf tokens (.transition source arc) rest

/-- Items up to the end of the text. -/
inductive Items : List Token → List Item → Prop
  | done {tokens : List Token} (h : ∀ t ∈ tokens, t.lexeme = .newline) : Items tokens []
  | item {item : Item} {items : List Item} {tokens rest : List Token}
      (h : ItemOf tokens item rest) (hmore : Items rest items) : Items tokens (item :: items)

inductive FileOf : List Token → Description → Prop
  | headed {name : String} {location : Location} {items : List Item} {tokens rest : List Token}
      (h : LineOf [.keyword .machine, .identifier name] location tokens rest)
      (hitems : Items rest items) : FileOf tokens ⟨some name, items⟩
  | unheaded {items : List Item} {tokens : List Token} (hitems : Items tokens items) :
      FileOf tokens ⟨none, items⟩

end Grammar

/-! ### The machine of a derivation -/

namespace Arc

/-- The transition, from its source. -/
def transition (a : Arc) (source : String) : Transition :=
  ⟨source, a.target, a.event, a.guard.bind fun text ↦ (Guard.parse text).toOption, a.action,
    a.location⟩

end Arc

namespace Clause

/-- The action that the clause gives to a hook. -/
def action? (hook : Hook) : Clause → Option String
  | .hook other action => if other = hook then some action else none
  | .arc _ => none

def arc? : Clause → Option Arc
  | .hook _ _ => none
  | .arc a => some a

end Clause

namespace StateBlock

/-- The actions that the clauses give to a hook. -/
def actions (b : StateBlock) (hook : Hook) : List String :=
  b.clauses.filterMap (Clause.action? hook)

def state (b : StateBlock) : State :=
  ⟨b.name, b.initial, (b.actions .entry).head?, (b.actions .exit).head?, b.location⟩

/-- The transitions in the state, which is their source. -/
def transitions (b : StateBlock) : List Transition :=
  (b.clauses.filterMap Clause.arc?).map (·.transition b.name)

end StateBlock

namespace Item

/-- The declarations of a kind. -/
def declared (kind : DeclarationKind) : Item → List Declaration
  | .declarations other entries => if other = kind then entries else []
  | _ => []

def states : Item → List State
  | .state block => [block.state]
  | _ => []

def transitions : Item → List Transition
  | .declarations _ _ => []
  | .state block => block.transitions
  | .transition source arc => [arc.transition source]

/-- A state has at most one entry clause and at most one exit clause. -/
def HooksDistinct : Item → Prop
  | .state block => ∀ hook, (block.actions hook).length ≤ 1
  | _ => True

end Item

namespace Description

/-- Declarations, states and transitions of all items, in the order of the text. -/
def machine (d : Description) (defaultName : String) : Machine where
  name := d.header.getD defaultName
  events := d.items.flatMap (Item.declared .event)
  resetEvents := d.items.flatMap (Item.declared .resetEvent)
  commands := d.items.flatMap (Item.declared .command)
  states := d.items.flatMap Item.states
  transitions := d.items.flatMap Item.transitions

/-- No state has two entry clauses or two exit clauses. -/
def HooksDistinct (d : Description) : Prop :=
  ∀ item ∈ d.items, item.HooksDistinct

end Description

end StateMachine
