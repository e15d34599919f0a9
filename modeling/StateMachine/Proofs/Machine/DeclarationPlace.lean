import Mathlib.Data.List.Nodup
import StateMachine.Proofs.Machine.RoundTrip
import StateMachine.Proofs.Token.Order

/-!
Places of declarations. A line adds to the machine what it declares, at the place of its first token
(`Progress.PlacedIn.step`). So what a text declares is found line by line: a declaration is a line
of a block of its kind, a state has a line that opens it, and a transition is a line of its state or
a line of its own (`Machine.PlacedIn`). As lines stand one below the other, everything has a place
of its own, further down than what was declared before it (`Steps.ordered`).
-/

set_option autoImplicit false

namespace StateMachine

/-! ### Lines among lines -/

namespace Line

theorem peek_mem_tokens {l : Line} (h : l.tokens ≠ []) : l.peek ∈ l.tokens := by
  obtain ⟨tokens, finish⟩ := l
  cases tokens with
  | nil => exact absurd rfl h
  | cons token rest => exact List.mem_cons_self

/-- The line has these lexemes, and the first one stands at the location. -/
def Holds (l : Line) (lexemes : List Lexeme) (location : Location) : Prop :=
  l.lexemes = lexemes ∧ l.peek.location = location

/-- One of the lines has a property, which may depend on the lines above it. -/
def Occurs (lines : List Line) (property : List Line → Line → Prop) : Prop :=
  ∃ above l, above ++ [l] <+: lines ∧ property above l

/-- A block that a line of these lexemes opened has not been closed. -/
def IsOpen (lines : List Line) (opening : List Lexeme) : Prop :=
  ∃ above l inside, lines = above ++ l :: inside ∧ l.lexemes = opening ∧
    ∀ k ∈ inside, k.lexemes ≠ [.keyword .endBlock]

variable {lines : List Line} {l : Line} {property : List Line → Line → Prop}
  {opening : List Lexeme}

theorem not_occurs_nil : ¬Occurs [] property := by
  rintro ⟨above, l, hprefix, -⟩
  simp at hprefix

theorem occurs_concat :
    Occurs (lines ++ [l]) property ↔ Occurs lines property ∨ property lines l := by
  simp only [Occurs, List.prefix_concat_iff]
  constructor
  · rintro ⟨above, k, heq | hprefix, hk⟩
    · obtain ⟨rfl, hl⟩ := List.append_inj' heq rfl
      cases hl
      exact Or.inr hk
    · exact Or.inl ⟨above, k, hprefix, hk⟩
  · rintro (⟨above, k, hprefix, hk⟩ | hl)
    · exact ⟨above, k, Or.inr hprefix, hk⟩
    · exact ⟨lines, l, Or.inl rfl, hl⟩

theorem not_isOpen_nil : ¬IsOpen [] opening := by
  rintro ⟨above, l, inside, hlines, -⟩
  simp at hlines

theorem isOpen_concat : IsOpen (lines ++ [l]) opening ↔
    l.lexemes = opening ∨ IsOpen lines opening ∧ l.lexemes ≠ [.keyword .endBlock] := by
  constructor
  · rintro ⟨above, k, inside, hlines, hk, hinside⟩
    rcases List.eq_nil_or_concat inside with rfl | ⟨inside, last, rfl⟩
    · obtain ⟨rfl, hl⟩ := List.append_inj' hlines rfl
      cases hl
      exact Or.inl hk
    · rw [List.concat_eq_append, ← List.cons_append, ← List.append_assoc] at hlines
      obtain ⟨rfl, hl⟩ := List.append_inj' hlines rfl
      cases hl
      rw [List.concat_eq_append, List.forall_mem_append] at hinside
      obtain ⟨hinside, hl⟩ := hinside
      exact Or.inr ⟨⟨above, k, inside, rfl, hk, hinside⟩, hl l (List.mem_singleton_self l)⟩
  · rintro (hl | ⟨⟨above, k, inside, rfl, hk, hinside⟩, hl⟩)
    · exact ⟨lines, l, [], rfl, hl, List.forall_mem_nil _⟩
    · refine ⟨above, k, inside ++ [l], by simp, hk, ?_⟩
      exact List.forall_mem_append.mpr ⟨hinside, List.forall_mem_singleton.mpr hl⟩

end Line

open Line (Occurs IsOpen)

/-! ### What lines declare -/

namespace Machine

/-- The declarations of a kind. -/
def declarations (m : Machine) : DeclarationKind → List Declaration
  | .event => m.events
  | .resetEvent => m.resetEvents
  | .command => m.commands

theorem mem_declarations_declare {m : Machine} {kind other : DeclarationKind} {d e : Declaration} :
    d ∈ (m.declare other e).declarations kind ↔
      d ∈ m.declarations kind ∨ other = kind ∧ d = e := by
  cases kind <;> cases other <;> simp [declare, declarations]

@[simp] theorem declarations_addState (m : Machine) (s : State) :
    (m.addState s).declarations = m.declarations := by
  funext kind
  cases kind <;> rfl

@[simp] theorem declarations_addTransition (m : Machine) (t : Transition) :
    (m.addTransition t).declarations = m.declarations := by
  funext kind
  cases kind <;> rfl

@[simp] theorem declarations_rename (m : Machine) (name : String) :
    ({ m with name := name } : Machine).declarations = m.declarations := by
  funext kind
  cases kind <;> rfl

@[simp] theorem states_declare (m : Machine) (kind : DeclarationKind) (d : Declaration) :
    (m.declare kind d).states = m.states := by
  cases kind <;> rfl

@[simp] theorem transitions_declare (m : Machine) (kind : DeclarationKind) (d : Declaration) :
    (m.declare kind d).transitions = m.transitions := by
  cases kind <;> rfl

end Machine

/-- The line that opens a state: its first keyword says whether the state is initial. -/
def stateLexemes (initial : Bool) (name : String) : List Lexeme :=
  (if initial then [.keyword .initial] else []) ++ [.keyword .state, .identifier name]

namespace Declaration

/-- The line declares a name of this kind: it stands in a block of the kind, and starts with the
name. -/
def IsLine (kind : DeclarationKind) (d : Declaration) (above : List Line) (l : Line) : Prop :=
  IsOpen above [.keyword kind.keyword] ∧ l.Holds d.lexemes d.location

theorem eq_of_lexemes {d e : Declaration} (hlexemes : d.lexemes = e.lexemes)
    (hlocation : d.location = e.location) : d = e := by
  obtain ⟨name, code, location⟩ := d
  obtain ⟨otherName, otherCode, otherLocation⟩ := e
  cases code <;> cases otherCode <;> simp_all [lexemes]

end Declaration

namespace Transition

/-- The line is the transition, of a state that is not named: it starts with the event. -/
def IsNestedLine (t : Transition) (l : Line) : Prop :=
  ∃ body, ReadsGuard body t.guard ∧
    l.Holds ([.identifier t.event, .fatArrow, .identifier t.target] ++ guardLexemes body ++
      actionLexemes t.action) t.location

/-- The line is the transition outside of states: it starts with the keyword. -/
def IsTopLine (t : Transition) (l : Line) : Prop :=
  ∃ body, ReadsGuard body t.guard ∧
    l.Holds ([.keyword .transition, .identifier t.source, .arrow, .identifier t.target,
      .keyword .on, .identifier t.event] ++ guardLexemes body ++ actionLexemes t.action) t.location

variable {t u : Transition} {l : Line}

theorem isNestedLine_iff :
    t.IsNestedLine l ↔ LineReader.read (LineReader.nestedTransition t.source) l = .ok t := by
  rw [LineReader.read_nestedTransition]
  constructor
  · rintro ⟨body, hguard, hlexemes, hlocation⟩
    exact ⟨rfl, hlocation.symm, body, hguard, hlexemes⟩
  · rintro ⟨-, hlocation, body, hguard, hlexemes⟩
    exact ⟨body, hguard, hlexemes, hlocation.symm⟩

theorem isTopLine_iff : t.IsTopLine l ↔ LineReader.read LineReader.transition l = .ok t := by
  rw [LineReader.read_transition]
  constructor
  · rintro ⟨body, hguard, hlexemes, hlocation⟩
    exact ⟨hlocation.symm, body, hguard, hlexemes⟩
  · rintro ⟨hlocation, body, hguard, hlexemes⟩
    exact ⟨body, hguard, hlexemes, hlocation.symm⟩

/-- A line is one transition from a state at most. -/
theorem IsNestedLine.unique (ht : t.IsNestedLine l) (hu : u.IsNestedLine l)
    (hsource : t.source = u.source) : t = u := by
  rw [isNestedLine_iff] at ht hu
  rw [hsource] at ht
  exact Except.ok.inj (ht.symm.trans hu)

theorem IsTopLine.unique (ht : t.IsTopLine l) (hu : u.IsTopLine l) : t = u := by
  rw [isTopLine_iff] at ht hu
  exact Except.ok.inj (ht.symm.trans hu)

/-- The line is the transition: one inside its source, or one outside of states. -/
def IsLine (t : Transition) (above : List Line) (l : Line) : Prop :=
  (∃ initial, IsOpen above (stateLexemes initial t.source)) ∧ t.IsNestedLine l ∨ t.IsTopLine l

end Transition

/-! ### Open blocks -/

namespace Block

/-- The lexemes of the line that opened the block. -/
def opening? : Block → Option (List Lexeme)
  | .beginning | .none => Option.none
  | .declarations kind => some [.keyword kind.keyword]
  | .state s => some (stateLexemes s.initial s.name)

/-- The state that is open. -/
def states : Block → List State
  | .state s => [s]
  | _ => []

@[simp] theorem states_none : none.states = [] :=
  rfl

@[simp] theorem states_beginning : beginning.states = [] :=
  rfl

@[simp] theorem states_declarations (kind : DeclarationKind) : (declarations kind).states = [] :=
  rfl

@[simp] theorem states_state (s : State) : (state s).states = [s] :=
  rfl

theorem opening?_of_isClosed {b : Block} (h : b.isClosed) : b.opening? = Option.none := by
  cases b <;> first | rfl | cases h

theorem states_of_isClosed {b : Block} (h : b.isClosed) : b.states = [] := by
  cases b <;> first | rfl | cases h

end Block

/-- A line of these lexemes opens a block. -/
inductive IsOpening : List Lexeme → Prop
  | declarations (kind : DeclarationKind) : IsOpening [.keyword kind.keyword]
  | state (initial : Bool) (name : String) : IsOpening (stateLexemes initial name)

/-- A line that opens a block starts with a keyword that starts no other line. -/
theorem IsOpening.exists_head {opening : List Lexeme} (h : IsOpening opening) :
    ∃ word more, opening = .keyword word :: more ∧
      word ∉ [Keyword.machine, .endBlock, .entry, .exit, .transition] := by
  cases h with
  | declarations kind => exact ⟨_, _, rfl, by cases kind <;> decide⟩
  | state initial name => cases initial <;> exact ⟨_, _, rfl, by decide⟩

theorem stateLexemes_inj {initial other : Bool} {name otherName : String} :
    stateLexemes initial name = stateLexemes other otherName ↔
      initial = other ∧ name = otherName := by
  cases initial <;> cases other <;> simp [stateLexemes]

namespace Block

variable {b : Block}

theorem ne_declarations_of_isClosed (h : b.isClosed) (kind : DeclarationKind) :
    b ≠ .declarations kind := by
  rintro rfl
  cases h

theorem opening?_eq_declarations_iff {kind : DeclarationKind} :
    b.opening? = some [.keyword kind.keyword] ↔ b = .declarations kind := by
  cases b with
  | beginning => simp [opening?]
  | none => simp [opening?]
  | declarations other => cases kind <;> cases other <;> simp [opening?, DeclarationKind.keyword]
  | state s =>
    obtain ⟨name, initial, entry, exit, location⟩ := s
    cases initial <;> simp [opening?, stateLexemes]

theorem opening?_eq_state_iff {initial : Bool} {name : String} :
    b.opening? = some (stateLexemes initial name) ↔
      ∃ s, b = .state s ∧ s.initial = initial ∧ s.name = name := by
  cases b with
  | beginning => simp [opening?]
  | none => simp [opening?]
  | declarations kind => cases initial <;> simp [opening?, stateLexemes]
  | state s => simp [opening?, stateLexemes_inj]

end Block

/-- There is a state of this heading, which may still be open. -/
def Progress.HasState (p : Progress) (initial : Bool) (name : String) (location : Location) :
    Prop :=
  ∃ s ∈ p.machine.states ++ p.block.states,
    s.initial = initial ∧ s.name = name ∧ s.location = location

namespace Step

variable {l : Line} {p q : Progress}

/-- The block that is open is that of the last line that opens one, if no line since then closes
it. -/
theorem opening?_iff (h : Step l p q) {opening : List Lexeme} (hopening : IsOpening opening) :
    q.block.opening? = some opening ↔
      l.lexemes = opening ∨ p.block.opening? = some opening ∧ l.lexemes ≠ [.keyword .endBlock] := by
  obtain ⟨word, more, rfl, hword⟩ := hopening.exists_head
  simp only [List.mem_cons, List.not_mem_nil, or_false, not_or] at hword
  obtain ⟨hmachine, hend, hentry, hexit, htransition⟩ := hword
  -- A line that opens no block starts with no such keyword, and only one that closes a block leaves
  -- none open behind it.
  cases h with
  | blank h => simp [h]
  | header h => simp [h, Block.opening?, Ne.symm hmachine]
  | declarations hclosed h =>
    simp only [Block.opening?_of_isClosed hclosed]
    simp [h, Block.opening?]
  | declaration hcode hlocation h => simp [h, Block.opening?]
  | endDeclarations h => simp [h, Block.opening?, Ne.symm hend]
  | state hclosed h =>
    rename_i m b name initial
    have hlexemes : l.lexemes = stateLexemes initial name := h
    simp only [Block.opening?_of_isClosed hclosed]
    simp [hlexemes, Block.opening?]
  | hook hfree h =>
    rename_i m s hook action
    have hne : hook.keyword ≠ word := by
      cases hook
      · exact Ne.symm hentry
      · exact Ne.symm hexit
    have hheading : (s.withAction hook action).initial = s.initial ∧
        (s.withAction hook action).name = s.name := by
      cases hook <;> exact ⟨rfl, rfl⟩
    simp [h, Block.opening?, hheading, hne]
  | nested hsource hlocation hguard h => simp [h, Block.opening?]
  | endState h => simp [h, Block.opening?, Ne.symm hend]
  | transition hclosed hlocation hguard h =>
    simp only [Block.opening?_of_isClosed hclosed]
    simp [h, Block.opening?, Ne.symm htransition]

/-- A line in a block of declarations adds one, at the place of its name. -/
theorem mem_declarations_iff (h : Step l p q) {kind : DeclarationKind} {d : Declaration} :
    d ∈ q.machine.declarations kind ↔ d ∈ p.machine.declarations kind ∨
      p.block = .declarations kind ∧ l.Holds d.lexemes d.location := by
  have hnone (hfirst : ∀ name more, l.lexemes ≠ .identifier name :: more) :
      ¬l.Holds d.lexemes d.location :=
    fun hd ↦ hfirst _ _ hd.1
  cases h with
  | blank h => simp [hnone (by simp [h])]
  | header h => simp
  | declarations hclosed h => simp [Block.ne_declarations_of_isClosed hclosed]
  | declaration hcode hlocation h =>
    rename_i m other e
    rw [Machine.mem_declarations_declare]
    refine or_congr_right ⟨?_, ?_⟩
    · rintro ⟨rfl, rfl⟩
      exact ⟨rfl, h, hlocation.symm⟩
    · rintro ⟨hblock, hlexemes, hplace⟩
      cases hblock
      have hplaces : d.location = e.location := hplace.symm.trans hlocation.symm
      exact ⟨rfl, Declaration.eq_of_lexemes (hlexemes.symm.trans h) hplaces⟩
  | endDeclarations h => simp [hnone (by simp [h])]
  | state hclosed h => simp [Block.ne_declarations_of_isClosed hclosed]
  | hook hfree h => simp
  | nested hsource hlocation hguard h => simp
  | endState h => simp
  | transition hclosed hlocation hguard h => simp [Block.ne_declarations_of_isClosed hclosed]

/-- A line that opens a state adds one, at the place of its first keyword. -/
theorem hasState_iff (h : Step l p q) {initial : Bool} {name : String} {location : Location} :
    q.HasState initial name location ↔
      p.HasState initial name location ∨ l.Holds (stateLexemes initial name) location := by
  have hnone (hother : ∀ word more, l.lexemes = .keyword word :: more →
      word ≠ .initial ∧ word ≠ .state) : ¬l.Holds (stateLexemes initial name) location := by
    rintro ⟨hlexemes, -⟩
    cases initial with
    | false => exact (hother _ _ hlexemes).2 rfl
    | true => exact (hother _ _ hlexemes).1 rfl
  cases h with
  | blank h => simp [hnone (by simp [h])]
  | header h => simp [hnone (by simp [h]), Progress.HasState]
  | declarations hclosed h =>
    rename_i m b kind
    have hword : kind.keyword ≠ .initial ∧ kind.keyword ≠ .state := by cases kind <;> decide
    simp [hnone (by simp [h, hword]), Progress.HasState, Block.states_of_isClosed hclosed]
  | declaration hcode hlocation h => simp [hnone (by simp [h]), Progress.HasState]
  | endDeclarations h => simp [hnone (by simp [h]), Progress.HasState]
  | state hclosed h =>
    rename_i m b other marked
    have hlexemes : l.lexemes = stateLexemes marked other := h
    simp [Line.Holds, hlexemes, stateLexemes_inj, and_assoc, Progress.HasState,
      Block.states_of_isClosed hclosed, or_and_right, exists_or]
  | hook hfree h =>
    rename_i m s hook action
    have hword : hook.keyword ≠ .initial ∧ hook.keyword ≠ .state := by cases hook <;> decide
    have hheading : (s.withAction hook action).initial = s.initial ∧
        (s.withAction hook action).name = s.name ∧
        (s.withAction hook action).location = s.location := by
      cases hook <;> exact ⟨rfl, rfl, rfl⟩
    simp [hnone (by simp [h, hword]), Progress.HasState, hheading, or_and_right, exists_or]
  | nested hsource hlocation hguard h =>
    simp [hnone (by simp [h]), Progress.HasState, Machine.addTransition]
  | endState h => simp [hnone (by simp [h]), Progress.HasState, Machine.addState]
  | transition hclosed hlocation hguard h =>
    simp [hnone (by simp [h]), Progress.HasState, Block.states_of_isClosed hclosed,
      Machine.addTransition]

/-- A line of a state adds a transition from it, and a line of its own adds one, at the place of its
event or of its keyword. -/
theorem mem_transitions_iff (h : Step l p q) {t : Transition} :
    t ∈ q.machine.transitions ↔ t ∈ p.machine.transitions ∨
      ((∃ s, p.block = .state s ∧ s.name = t.source) ∧ t.IsNestedLine l ∨ t.IsTopLine l) := by
  have hnested (hother : ∀ name more, l.lexemes ≠ .identifier name :: more) :
      ¬t.IsNestedLine l := by
    rintro ⟨body, -, hlexemes, -⟩
    exact hother _ _ hlexemes
  have htop (hother : ∀ more, l.lexemes ≠ .keyword .transition :: more) : ¬t.IsTopLine l := by
    rintro ⟨body, -, hlexemes, -⟩
    exact hother _ hlexemes
  cases h with
  | blank h => simp [hnested (by simp [h]), htop (by simp [h])]
  | header h => simp [htop (by simp [h])]
  | declarations hclosed h =>
    rename_i m b kind
    have hword : kind.keyword ≠ .transition := by cases kind <;> decide
    simp [hnested (by simp [h]), htop (by simp [h, hword])]
  | declaration hcode hlocation h => simp [htop (by simp [h])]
  | endDeclarations h => simp [htop (by simp [h])]
  | state hclosed h =>
    rename_i m b name initial
    have hhead : ∃ word more, l.lexemes = .keyword word :: more ∧ word ≠ .transition := by
      cases initial
      · exact ⟨_, _, h, by decide⟩
      · exact ⟨_, _, h, by decide⟩
    obtain ⟨word, more, hlexemes, hword⟩ := hhead
    simp [hnested (by simp [hlexemes]), htop (by simp [hlexemes, hword])]
  | hook hfree h =>
    rename_i m s hook action
    have hword : hook.keyword ≠ .transition := by cases hook <;> decide
    simp [hnested (by simp [h]), htop (by simp [h, hword])]
  | nested hsource hlocation hguard h =>
    rename_i m s u body
    have hu : u.IsNestedLine l := ⟨body, hguard, h, hlocation.symm⟩
    simp only [Machine.addTransition, List.mem_append, List.mem_singleton]
    refine or_congr_right ⟨?_, ?_⟩
    · rintro rfl
      exact Or.inl ⟨⟨s, rfl, hsource.symm⟩, hu⟩
    · rintro (⟨⟨_, hblock, hname⟩, ht⟩ | ht)
      · cases hblock
        exact ht.unique hu (hname.symm.trans hsource.symm)
      · exact absurd ht (htop (by simp [h]))
  | endState h => simp [hnested (by simp [h]), htop (by simp [h]), Machine.addState]
  | transition hclosed hlocation hguard h =>
    rename_i m b u body
    have hu : u.IsTopLine l := ⟨body, hguard, h, hlocation.symm⟩
    simp only [Machine.addTransition, List.mem_append, List.mem_singleton]
    refine or_congr_right ⟨?_, ?_⟩
    · rintro rfl
      exact Or.inr hu
    · rintro (⟨-, ht⟩ | ht)
      · exact absurd ht (hnested (by simp [h]))
      · exact ht.unique hu

end Step

/-! ### Rows of lines -/

/-- What has been read so far is what these lines declare. -/
structure Progress.PlacedIn (p : Progress) (lines : List Line) : Prop where
  block {opening : List Lexeme} (h : IsOpening opening) :
    p.block.opening? = some opening ↔ IsOpen lines opening
  declarations (kind : DeclarationKind) (d : Declaration) :
    d ∈ p.machine.declarations kind ↔ Occurs lines (d.IsLine kind)
  states (initial : Bool) (name : String) (location : Location) :
    p.HasState initial name location ↔
      Occurs lines fun _ l ↦ l.Holds (stateLexemes initial name) location
  transitions (t : Transition) : t ∈ p.machine.transitions ↔ Occurs lines t.IsLine

namespace Progress.PlacedIn

variable {lines more : List Line} {l : Line} {p q : Progress}

theorem of_empty (name : String) : Progress.PlacedIn ⟨Machine.empty name, .beginning⟩ [] where
  block _ := iff_of_false nofun Line.not_isOpen_nil
  declarations kind _ := iff_of_false (by cases kind <;> nofun) Line.not_occurs_nil
  states _ _ _ := iff_of_false nofun Line.not_occurs_nil
  transitions _ := iff_of_false nofun Line.not_occurs_nil

/-- Each line adds what it declares. -/
theorem step (hp : p.PlacedIn lines) (h : Step l p q) : q.PlacedIn (lines ++ [l]) where
  block hopening := by rw [h.opening?_iff hopening, hp.block hopening, Line.isOpen_concat]
  declarations kind d := by
    rw [h.mem_declarations_iff, hp.declarations, Line.occurs_concat, Declaration.IsLine,
      ← hp.block (.declarations kind), Block.opening?_eq_declarations_iff]
  states initial name location := by
    rw [h.hasState_iff, hp.states, Line.occurs_concat]
  transitions t := by
    have hopen : (∃ s, p.block = .state s ∧ s.name = t.source) ↔
        ∃ initial, IsOpen lines (stateLexemes initial t.source) := by
      simp only [← hp.block (.state _ _), Block.opening?_eq_state_iff]
      constructor
      · rintro ⟨s, hblock, hname⟩
        exact ⟨s.initial, s, hblock, rfl, hname⟩
      · rintro ⟨_, s, hblock, -, hname⟩
        exact ⟨s, hblock, hname⟩
    rw [h.mem_transitions_iff, hp.transitions, Line.occurs_concat, Transition.IsLine, hopen]

theorem steps (hp : p.PlacedIn lines) (h : Steps more p q) : q.PlacedIn (lines ++ more) := by
  induction h generalizing lines with
  | nil =>
    rw [List.append_nil]
    exact hp
  | cons hfirst _ ih =>
    rw [List.append_cons]
    exact ih (hp.step hfirst)

end Progress.PlacedIn

/-! ### Order -/

/-- The places of what a machine declares, list by list. -/
def Machine.places (m : Machine) : List (List Location) :=
  [m.events.map (·.location), m.resetEvents.map (·.location), m.commands.map (·.location),
    m.states.map (·.location), m.transitions.map (·.location)]

/-- The places of what has been declared so far, with that of the open state. -/
def Progress.places (p : Progress) : List (List Location) :=
  ({ p.machine with states := p.machine.states ++ p.block.states } : Machine).places

/-- A line adds a place to one list at most: that of its first token. -/
theorem Step.places {l : Line} {p q : Progress} (h : Step l p q) :
    q.places = p.places ∨ l.tokens ≠ [] ∧ ∃ before list after,
      p.places = before ++ list :: after ∧
        q.places = before ++ (list ++ [l.peek.location]) :: after := by
  have htokens {lexeme : Lexeme} {more : List Lexeme} (hl : l.lexemes = lexeme :: more) :
      l.tokens ≠ [] := by
    rw [ne_eq, ← Line.lexemes_eq_nil_iff, hl]
    exact List.cons_ne_nil lexeme more
  cases h with
  | blank h => exact Or.inl rfl
  | header h => exact Or.inl rfl
  | declarations hclosed h =>
    simp [Progress.places, Machine.places, Block.states_of_isClosed hclosed]
  | declaration hcode hlocation h =>
    rename_i m kind d
    refine Or.inr ⟨htokens h, ?_⟩
    simp only [Progress.places, Machine.places, ← hlocation]
    cases kind with
    | event => exact ⟨[], _, _, rfl, by simp [Machine.declare]⟩
    | resetEvent => exact ⟨[_], _, _, rfl, by simp [Machine.declare]⟩
    | command => exact ⟨[_, _], _, _, rfl, by simp [Machine.declare]⟩
  | endDeclarations h => exact Or.inl rfl
  | state hclosed h =>
    rename_i m b name initial
    have hne : l.tokens ≠ [] := by cases initial <;> exact htokens h
    refine Or.inr ⟨hne, [_, _, _], _, _, rfl, ?_⟩
    simp [Progress.places, Machine.places, Block.states_of_isClosed hclosed]
  | hook hfree h =>
    rename_i m s hook action
    have hlocation : (s.withAction hook action).location = s.location := by cases hook <;> rfl
    simp [Progress.places, Machine.places, hlocation]
  | nested hsource hlocation hguard h =>
    refine Or.inr ⟨htokens h, [_, _, _, _], _, _, rfl, ?_⟩
    simp [Progress.places, Machine.places, Machine.addTransition, hlocation]
  | endState h => simp [Progress.places, Machine.places, Machine.addState]
  | transition hclosed hlocation hguard h =>
    refine Or.inr ⟨htokens h, [_, _, _, _], _, _, rfl, ?_⟩
    simp [Progress.places, Machine.places, Machine.addTransition, hlocation,
      Block.states_of_isClosed hclosed]

/-- Elements of one list stand one behind the other, and no two elements at one place. -/
structure Ordered (places : List (List Location)) : Prop where
  increasing : ∀ list ∈ places, list.Pairwise (· < ·)
  distinct : places.flatten.Nodup

namespace Ordered

theorem of_empty (name : String) : Ordered (Progress.places ⟨Machine.empty name, .beginning⟩) where
  increasing := by simp [Progress.places, Machine.places, Machine.empty]
  distinct := by simp [Progress.places, Machine.places, Machine.empty]

variable {before after : List (List Location)} {list : List Location} {location : Location}

theorem mem_flatten_concat {place : Location} :
    place ∈ (before ++ (list ++ [location]) :: after).flatten ↔
      place ∈ (before ++ list :: after).flatten ∨ place = location := by
  simp only [List.flatten_append, List.flatten_cons, List.mem_append, List.mem_singleton]
  tauto

/-- A place behind all others may be added to any list. -/
theorem concat (h : Ordered (before ++ list :: after))
    (hbehind : ∀ place ∈ (before ++ list :: after).flatten, place < location) :
    Ordered (before ++ (list ++ [location]) :: after) where
  increasing := by
    intro others hothers
    rw [List.mem_append, List.mem_cons] at hothers
    rcases hothers with hbefore | rfl | hafter
    · exact h.increasing others (List.mem_append_left _ hbefore)
    · have hlist : list ∈ before ++ list :: after := List.mem_append_right _ List.mem_cons_self
      refine List.pairwise_append.mpr ⟨h.increasing list hlist, List.pairwise_singleton _ _, ?_⟩
      intro place hplace _ hlocation
      rw [List.mem_singleton.mp hlocation]
      exact hbehind place (List.mem_flatten_of_mem hlist hplace)
    · exact h.increasing others (List.mem_append_right _ (List.mem_cons_of_mem _ hafter))
  distinct := by
    have hnew : location ∉ (before ++ list :: after).flatten := fun hmem ↦
      Location.lt_irrefl location (hbehind location hmem)
    have hsplit : (before ++ (list ++ [location]) :: after).flatten =
        (before.flatten ++ list) ++ location :: after.flatten := by simp
    have hall : (before ++ list :: after).flatten = (before.flatten ++ list) ++ after.flatten := by
      simp
    rw [hsplit, List.nodup_middle, ← hall]
    exact List.nodup_cons.mpr ⟨hnew, h.distinct⟩

end Ordered

/-- Lines that stand one below the other declare one behind the other. -/
theorem Steps.ordered {lines : List Line} {p q : Progress} (h : Steps lines p q)
    (hlines : lines.Pairwise fun l k ↦ ∀ t ∈ l.tokens, ∀ u ∈ k.tokens, t.location < u.location)
    (hbehind : ∀ place ∈ p.places.flatten, ∀ l ∈ lines, ∀ t ∈ l.tokens, place < t.location)
    (hp : Ordered p.places) : Ordered q.places := by
  induction h with
  | nil => exact hp
  | @cons l lines p _ _ hfirst _ ih =>
    obtain ⟨hbelow, hrest⟩ := List.pairwise_cons.mp hlines
    have hlater (place : Location) (hplace : place ∈ p.places.flatten) (k : Line) (hk : k ∈ lines) :
        ∀ t ∈ k.tokens, place < t.location :=
      hbehind place hplace k (List.mem_cons_of_mem l hk)
    rcases hfirst.places with hplaces | ⟨htokens, before, list, after, hplaces, hadded⟩
    · rw [← hplaces] at hp hlater
      exact ih hrest hlater hp
    · have hpeek : l.peek ∈ l.tokens := l.peek_mem_tokens htokens
      rw [hplaces] at hp hbehind hlater
      rw [hadded] at ih
      refine ih hrest ?_ (hp.concat fun place hplace ↦
        hbehind place hplace l List.mem_cons_self l.peek hpeek)
      intro place hplace k hk
      rcases Ordered.mem_flatten_concat.mp hplace with hold | rfl
      · exact hlater place hold k hk
      · exact hbelow k hk l.peek hpeek

/-! ### Machines -/

/-- What a machine declares is what these lines declare: declarations are the lines of the blocks of
their kind, states are the lines that open one, and transitions are lines of their source or lines
of their own. Everything stands where its line starts, so in the order of the lines. -/
structure Machine.PlacedIn (m : Machine) (lines : List Line) : Prop where
  declarations (kind : DeclarationKind) (d : Declaration) :
    d ∈ m.declarations kind ↔ Occurs lines (d.IsLine kind)
  states (initial : Bool) (name : String) (location : Location) :
    (∃ s ∈ m.states, s.initial = initial ∧ s.name = name ∧ s.location = location) ↔
      Occurs lines fun _ l ↦ l.Holds (stateLexemes initial name) location
  transitions (t : Transition) : t ∈ m.transitions ↔ Occurs lines t.IsLine
  ordered : Ordered m.places

theorem Machine.placedIn_of_steps {name : String} {lines : List Line} {m : Machine} {b : Block}
    (hlines : lines.Pairwise fun l k ↦ ∀ t ∈ l.tokens, ∀ u ∈ k.tokens, t.location < u.location)
    (h : Steps lines ⟨empty name, .beginning⟩ ⟨m, b⟩) (hclosed : b.isClosed) :
    m.PlacedIn lines := by
  obtain ⟨-, hdeclarations, hstates, htransitions⟩ := (Progress.PlacedIn.of_empty name).steps h
  have hordered := h.ordered hlines nofun (Ordered.of_empty name)
  simp only [Progress.HasState, Progress.places, Block.states_of_isClosed hclosed,
    List.append_nil] at hstates hordered
  exact ⟨hdeclarations, hstates, htransitions, hordered⟩

end StateMachine
