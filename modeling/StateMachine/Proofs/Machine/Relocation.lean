import StateMachine.Proofs.Machine.Step
import StateMachine.Proofs.Token.Relocation

/-!
Descriptions below other descriptions. A line that stands further down is read alike: what is read
has its locations further down, and so has an error (`LineReader.Relocates`). What was read before
stays in front of what is read then, so reading a line commutes with putting a machine in front
(`Progress.step_behind`), and so does reading a row of lines (`Progress.foldlM_step_behind`).
-/

set_option autoImplicit false

namespace StateMachine

/-! ### Machines further down -/

def Declaration.down (d : Declaration) (lines : Nat) : Declaration :=
  { d with location := d.location.down lines }

def State.down (s : State) (lines : Nat) : State :=
  { s with location := s.location.down lines }

def Transition.down (t : Transition) (lines : Nat) : Transition :=
  { t with location := t.location.down lines }

/-- The same machine, described so many lines further down. -/
def Machine.down (m : Machine) (lines : Nat) : Machine where
  name := m.name
  events := m.events.map (·.down lines)
  resetEvents := m.resetEvents.map (·.down lines)
  commands := m.commands.map (·.down lines)
  states := m.states.map (·.down lines)
  transitions := m.transitions.map (·.down lines)

/-- The machine with everything behind it that the other one declares. -/
def Machine.followedBy (m n : Machine) : Machine where
  name := m.name
  events := m.events ++ n.events
  resetEvents := m.resetEvents ++ n.resetEvents
  commands := m.commands ++ n.commands
  states := m.states ++ n.states
  transitions := m.transitions ++ n.transitions

def Line.down (l : Line) (lines : Nat) : Line :=
  ⟨l.tokens.map (·.down lines), l.finish.down lines⟩

def Block.down (b : Block) (lines : Nat) : Block :=
  match b with
  | .state s => .state (s.down lines)
  | b => b

/-- What was read further down, behind a machine. -/
def Progress.behind (p : Progress) (m : Machine) (lines : Nat) : Progress :=
  ⟨m.followedBy (p.machine.down lines), p.block.down lines⟩

variable {lines : Nat}

namespace Machine

variable (m n : Machine)

theorem followedBy_declare (kind : DeclarationKind) (d : Declaration) :
    (m.followedBy (n.down lines)).declare kind (d.down lines) =
      m.followedBy ((n.declare kind d).down lines) := by
  cases kind <;> simp [followedBy, down, declare]

theorem followedBy_addState (s : State) :
    (m.followedBy (n.down lines)).addState (s.down lines) =
      m.followedBy ((n.addState s).down lines) := by
  simp [followedBy, down, addState]

theorem followedBy_addTransition (t : Transition) :
    (m.followedBy (n.down lines)).addTransition (t.down lines) =
      m.followedBy ((n.addTransition t).down lines) := by
  simp [followedBy, down, addTransition]

theorem followedBy_empty (name : String) : m.followedBy ((empty name).down lines) = m := by
  simp [followedBy, down, empty]

end Machine

theorem State.down_withAction (s : State) (hook : Hook) (action : String) :
    (s.down lines).withAction hook action = (s.withAction hook action).down lines := by
  cases hook <;> rfl

theorem State.action?_down (s : State) (hook : Hook) :
    (s.down lines).action? hook = s.action? hook := by
  cases hook <;> rfl

namespace Line

@[simp] theorem peek_down (l : Line) : (l.down lines).peek = l.peek.down lines := by
  obtain ⟨tokens, finish⟩ := l
  cases tokens <;> rfl

theorem unexpected_down (l : Line) (expected : Expectation) :
    (l.down lines).unexpected expected = (l.unexpected expected).down lines := by
  rw [unexpected, peek_down]
  rfl

end Line

/-! ### Readers -/

namespace LineReader

/-- Further down, the second reader does what the first one does. -/
def Relocates {α β : Type} (lines : Nat) (f : α → β) (reader : LineReader α)
    (below : LineReader β) : Prop :=
  ∀ l : Line, below (l.down lines) =
    outcomeBelow lines (Prod.map f (·.down lines)) (reader l)

namespace Relocates

variable {α β γ δ : Type} {f : α → β} {g : γ → δ} {reader : LineReader α} {below : LineReader β}

theorem pure (f : α → β) (a : α) :
    Relocates lines f (Pure.pure a) (Pure.pure (f a)) :=
  fun _ ↦ rfl

theorem bind {next : α → LineReader γ} {nextBelow : β → LineReader δ}
    (h : Relocates lines f reader below)
    (hnext : ∀ a, Relocates lines g (next a) (nextBelow (f a))) :
    Relocates lines g (reader >>= next) (below >>= nextBelow) :=
  fun l ↦ outcomeBelow_bind (h l) fun result ↦ hnext result.1 result.2

/-- What a reader makes of a line, it makes of the line further down. -/
theorem read (h : Relocates lines f reader below) (l : Line) :
    LineReader.read below (l.down lines) = outcomeBelow lines f (LineReader.read reader l) := by
  rw [LineReader.read, h l, LineReader.read]
  cases reader l <;> rfl

end Relocates

theorem relocates_exactly (lexeme : Lexeme) (expected : Expectation) :
    Relocates lines (·.down lines) (exactly lexeme expected) (exactly lexeme expected) := by
  intro l
  obtain ⟨tokens, finish⟩ := l
  cases tokens with
  | nil => rfl
  | cons token rest =>
    by_cases h : token.lexeme = lexeme
    · simp [exactly, Line.down, Token.down, h]
    · simp [exactly, Line.down, Token.down, h, Line.unexpected, Line.peek, SyntaxError.down]

theorem relocates_placedName (expected : Expectation) :
    Relocates lines (Prod.map id (·.down lines)) (placedName expected) (placedName expected) := by
  intro l
  obtain ⟨tokens, finish⟩ := l
  cases tokens with
  | nil => rfl
  | cons token rest =>
    obtain ⟨lexeme, location⟩ := token
    cases lexeme <;> rfl

theorem relocates_name (expected : Expectation) :
    Relocates lines id (name expected) (name expected) :=
  (relocates_placedName expected).bind fun found ↦ .pure id found.1

theorem relocates_optionalName : Relocates lines id optionalName optionalName := by
  intro l
  obtain ⟨tokens, finish⟩ := l
  cases tokens with
  | nil => rfl
  | cons token rest =>
    obtain ⟨lexeme, location⟩ := token
    cases lexeme <;> rfl

theorem relocates_optionalGuard : Relocates lines id optionalGuard optionalGuard := by
  intro l
  obtain ⟨tokens, finish⟩ := l
  cases tokens with
  | nil => rfl
  | cons token rest =>
    obtain ⟨lexeme, location⟩ := token
    cases lexeme with
    | guard text =>
      simp only [optionalGuard, Line.down, Token.down, List.map_cons]
      cases Guard.parse text <;> rfl
    | identifier _ | keyword _ | arrow | fatArrow | slash | newline | endOfFile => rfl

theorem relocates_optionalAction : Relocates lines id optionalAction optionalAction := by
  intro l
  obtain ⟨tokens, finish⟩ := l
  cases tokens with
  | nil => rfl
  | cons token rest =>
    obtain ⟨lexeme, location⟩ := token
    cases lexeme with
    | slash =>
      have haction : Relocates lines id (name .actionName >>= fun action ↦ pure (some action))
          (name .actionName >>= fun action ↦ pure (some action)) :=
        (relocates_name .actionName).bind fun action ↦ .pure id (some action)
      exact haction ⟨rest, finish⟩
    | identifier _ | keyword _ | arrow | fatArrow | guard _ | newline | endOfFile => rfl

theorem relocates_finished : Relocates lines id finished finished := by
  intro l
  obtain ⟨tokens, finish⟩ := l
  cases tokens <;> rfl

/-! ### Kinds of lines -/

theorem relocates_lone (word : Keyword) : Relocates lines id (lone word) (lone word) :=
  (relocates_exactly _ _).bind fun _ ↦ relocates_finished

theorem relocates_declaration (expected : Expectation) (withCode : Bool) :
    Relocates lines (·.down lines) (declaration expected withCode)
      (declaration expected withCode) := by
  have hfinished (name : String) (code : Option String) (location : Location) :
      Relocates lines (·.down lines)
        (finished >>= fun _ ↦ pure (⟨name, code, location⟩ : Declaration))
        (finished >>= fun _ ↦ pure (⟨name, code, location.down lines⟩ : Declaration)) :=
    relocates_finished.bind fun _ ↦ .pure _ (⟨name, code, location⟩ : Declaration)
  cases withCode with
  | true =>
    exact (relocates_placedName expected).bind fun found ↦ relocates_optionalName.bind fun code ↦
      hfinished found.1 code found.2
  | false =>
    exact (relocates_placedName expected).bind fun found ↦
      (Relocates.pure id none).bind fun code ↦ hfinished found.1 code found.2

theorem relocates_unmarkedStateHeader (initial : Bool) (location : Location) :
    Relocates lines (·.down lines) (unmarkedStateHeader initial location)
      (unmarkedStateHeader initial (location.down lines)) :=
  (relocates_exactly _ _).bind fun _ ↦ (relocates_name _).bind fun name ↦
    relocates_finished.bind fun _ ↦ .pure _ (⟨name, initial, none, none, location⟩ : State)

theorem relocates_stateHeader : Relocates lines (·.down lines) stateHeader stateHeader := by
  intro l
  have hmarked : Relocates lines (·.down lines)
      (keyword .initial >>= fun _ ↦ unmarkedStateHeader true l.peek.location)
      (keyword .initial >>= fun _ ↦ unmarkedStateHeader true (l.peek.location.down lines)) :=
    (relocates_exactly _ _).bind fun _ ↦ relocates_unmarkedStateHeader true l.peek.location
  rw [stateHeader_eq, stateHeader_eq, Line.peek_down]
  by_cases h : l.peek.lexeme = .keyword .initial
  · rw [if_pos h, if_pos (by exact h)]
    exact hmarked l
  · rw [if_neg h, if_neg (by exact h)]
    exact relocates_unmarkedStateHeader false l.peek.location l

theorem relocates_hookClause (hook : Hook) :
    Relocates lines (Prod.map id (·.down lines)) (hookClause hook) (hookClause hook) :=
  (relocates_exactly _ _).bind fun location ↦ (relocates_name _).bind fun action ↦
    relocates_finished.bind fun _ ↦ .pure _ (action, location)

theorem relocates_transitionTail (source target event : String) (location : Location) :
    Relocates lines (·.down lines) (transitionTail source target event location)
      (transitionTail source target event (location.down lines)) :=
  relocates_optionalGuard.bind fun guard ↦ relocates_optionalAction.bind fun action ↦
    relocates_finished.bind fun _ ↦
      .pure _ (⟨source, target, event, guard, action, location⟩ : Transition)

theorem relocates_nestedTransition (source : String) :
    Relocates lines (·.down lines) (nestedTransition source) (nestedTransition source) :=
  (relocates_placedName _).bind fun event ↦ (relocates_exactly _ _).bind fun _ ↦
    (relocates_name _).bind fun target ↦
      relocates_transitionTail source target event.1 event.2

theorem relocates_transition : Relocates lines (·.down lines) transition transition :=
  (relocates_exactly _ _).bind fun location ↦ (relocates_name _).bind fun source ↦
    (relocates_exactly _ _).bind fun _ ↦ (relocates_name _).bind fun target ↦
      (relocates_exactly _ _).bind fun _ ↦ (relocates_name _).bind fun event ↦
        relocates_transitionTail source target event location

end LineReader

/-! ### Lines behind a machine -/

/-- No line leads back to the beginning. -/
theorem Step.block_ne_beginning {l : Line} {p q : Progress} (h : Step l p q)
    (hp : p.block ≠ .beginning) : q.block ≠ .beginning := by
  cases h with
  | blank => exact hp
  | header | declarations | declaration | endDeclarations | state | hook | nested | endState
  | transition => exact Block.noConfusion

namespace Progress

open LineReader

variable (m : Machine)

theorem item_behind (n : Machine) (l : Line) :
    item (m.followedBy (n.down lines)) (l.down lines) =
      outcomeBelow lines (·.behind m lines) (item n l) := by
  have hlexeme : (l.down lines).peek.lexeme = l.peek.lexeme := by
    rw [Line.peek_down]
    rfl
  unfold item
  simp only [hlexeme]
  split
  · rw [Line.peek_down]
    rfl
  · exact outcomeBelow_bind ((relocates_lone _).read l) fun _ ↦ rfl
  · exact outcomeBelow_bind ((relocates_lone _).read l) fun _ ↦ rfl
  · exact outcomeBelow_bind ((relocates_lone _).read l) fun _ ↦ rfl
  · exact outcomeBelow_bind (relocates_stateHeader.read l) fun _ ↦ rfl
  · exact outcomeBelow_bind (relocates_stateHeader.read l) fun _ ↦ rfl
  · refine outcomeBelow_bind (relocates_transition.read l) fun t ↦ ?_
    rw [Machine.followedBy_addTransition]
    rfl
  · rw [Line.unexpected_down]
    rfl

/-- Behind a machine, a line is read as it is where nothing stands before it. At the very beginning
this may fail, since a header is read there only. -/
theorem next_behind {p : Progress} (hp : p.block ≠ .beginning) (l : Line) :
    (p.behind m lines).next (l.down lines) = outcomeBelow lines (·.behind m lines) (p.next l) := by
  obtain ⟨n, b⟩ := p
  have hlexeme : (l.down lines).peek.lexeme = l.peek.lexeme := by
    rw [Line.peek_down]
    rfl
  cases b with
  | beginning => exact absurd rfl hp
  | none => exact item_behind m n l
  | declarations kind =>
    simp only [next, behind, Block.down, hlexeme]
    split
    · exact outcomeBelow_bind ((relocates_lone _).read l) fun _ ↦ rfl
    · refine outcomeBelow_bind ((relocates_declaration _ _).read l) fun d ↦ ?_
      rw [Machine.followedBy_declare]
      rfl
  | state s =>
    simp only [next, behind, Block.down, hlexeme]
    split
    · refine outcomeBelow_bind ((relocates_lone _).read l) fun _ ↦ ?_
      rw [Machine.followedBy_addState]
      rfl
    · refine outcomeBelow_bind ((relocates_hookClause _).read l) fun found ↦ ?_
      rw [State.action?_down, State.down_withAction]
      cases s.action? .entry <;> rfl
    · refine outcomeBelow_bind ((relocates_hookClause _).read l) fun found ↦ ?_
      rw [State.action?_down, State.down_withAction]
      cases s.action? .exit <;> rfl
    · refine outcomeBelow_bind ((relocates_nestedTransition _).read l) fun t ↦ ?_
      rw [Machine.followedBy_addTransition]
      rfl
    · rw [Line.unexpected_down]
      rfl

theorem step_behind {p : Progress} (hp : p.block ≠ .beginning) (l : Line) :
    (p.behind m lines).step (l.down lines) = outcomeBelow lines (·.behind m lines) (p.step l) := by
  obtain ⟨tokens, finish⟩ := l
  cases tokens with
  | nil => rfl
  | cons token rest => exact next_behind m hp _

theorem foldlM_step_behind {p : Progress} (hp : p.block ≠ .beginning) (ls : List Line) :
    (ls.map (·.down lines)).foldlM step (p.behind m lines) =
      outcomeBelow lines (·.behind m lines) (ls.foldlM step p) := by
  induction ls generalizing p with
  | nil => rfl
  | cons l ls ih =>
    rw [List.map_cons, List.foldlM_cons, List.foldlM_cons, step_behind m hp]
    cases hstep : p.step l with
    | error e => rfl
    | ok q => exact ih ((step_eq_ok_iff.mp hstep).block_ne_beginning hp)

theorem close_behind (p : Progress) (finish : Token) :
    (p.behind m lines).close (finish.down lines) =
      outcomeBelow lines (fun n ↦ m.followedBy (n.down lines)) (p.close finish) := by
  obtain ⟨n, b⟩ := p
  cases b <;> rfl

end Progress

end StateMachine
