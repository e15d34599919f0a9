import StateMachine.Proofs.Guard.Accepted
import StateMachine.Proofs.Machine.Step
import StateMachine.Proofs.Text.Identifier
import StateMachine.Proofs.Token.Scan

/-!
Machines that can be written down: every name is an identifier, reset events have no code, and the
guards are printable. Every machine that was read is of this kind, whatever the default name was
(`Machine.printable_of_parseNamed`).
-/

set_option autoImplicit false

namespace StateMachine

def Declaration.isPrintable (d : Declaration) : Bool :=
  Identifier.isValid d.name && d.code.all Identifier.isValid

def State.isPrintable (s : State) : Bool :=
  Identifier.isValid s.name && s.actions.all Identifier.isValid

def Transition.isPrintable (t : Transition) : Bool :=
  Identifier.isValid t.source && Identifier.isValid t.target && Identifier.isValid t.event &&
    t.guard.all Guard.isPrintable && t.action.all Identifier.isValid

/-- The machine can be written down. -/
structure Machine.Printable (m : Machine) : Prop where
  name : Identifier.isValid m.name
  events : ∀ d ∈ m.events, d.isPrintable
  resetEvents : ∀ d ∈ m.resetEvents, d.isPrintable ∧ d.code = none
  commands : ∀ d ∈ m.commands, d.isPrintable
  states : ∀ s ∈ m.states, s.isPrintable
  transitions : ∀ t ∈ m.transitions, t.isPrintable

/-- What has been read can be written down. -/
structure Progress.Printable (p : Progress) : Prop where
  machine : p.machine.Printable
  block : ∀ s, p.block = .state s → s.isPrintable

namespace Machine.Printable

variable {m : Machine}

theorem empty {name : String} (h : Identifier.isValid name) : (Machine.empty name).Printable where
  name := h
  events d hd := by cases hd
  resetEvents d hd := by cases hd
  commands d hd := by cases hd
  states s hs := by cases hs
  transitions t ht := by cases ht

theorem rename (h : m.Printable) {name : String} (hname : Identifier.isValid name) :
    ({ m with name := name } : Machine).Printable :=
  { h with name := hname }

theorem declare (h : m.Printable) {kind : DeclarationKind} {d : Declaration} (hd : d.isPrintable)
    (hcode : kind.withCode = false → d.code = none) : (m.declare kind d).Printable := by
  cases kind with
  | event =>
    have hevents := List.forall_mem_append.mpr ⟨h.events, List.forall_mem_singleton.mpr hd⟩
    exact { h with events := hevents }
  | resetEvent =>
    have hresets := List.forall_mem_append.mpr
      ⟨h.resetEvents, List.forall_mem_singleton.mpr ⟨hd, hcode rfl⟩⟩
    exact { h with resetEvents := hresets }
  | command =>
    have hcommands := List.forall_mem_append.mpr ⟨h.commands, List.forall_mem_singleton.mpr hd⟩
    exact { h with commands := hcommands }

theorem addState (h : m.Printable) {s : State} (hs : s.isPrintable) : (m.addState s).Printable := by
  have hstates := List.forall_mem_append.mpr ⟨h.states, List.forall_mem_singleton.mpr hs⟩
  exact { h with states := hstates }

theorem addTransition (h : m.Printable) {t : Transition} (ht : t.isPrintable) :
    (m.addTransition t).Printable := by
  have htransitions := List.forall_mem_append.mpr
    ⟨h.transitions, List.forall_mem_singleton.mpr ht⟩
  exact { h with transitions := htransitions }

end Machine.Printable

/-! ### What was read -/

theorem isPrintable_of_readsGuard {body : Option String} {guard : Option Guard}
    (h : ReadsGuard body guard) : guard.all Guard.isPrintable := by
  cases h with
  | none => rfl
  | some hparse => exact Guard.isPrintable_of_parse hparse

namespace NamesValid

variable {lexemes others : List Lexeme} {name : String} {action : Option String}

theorem cons (h : NamesValid (.identifier name :: lexemes)) :
    Identifier.isValid name ∧ NamesValid lexemes :=
  ⟨h name List.mem_cons_self, fun other hother ↦ h other (List.mem_cons_of_mem _ hother)⟩

theorem tail {lexeme : Lexeme} (h : NamesValid (lexeme :: lexemes)) : NamesValid lexemes :=
  fun other hother ↦ h other (List.mem_cons_of_mem _ hother)

theorem of_append (h : NamesValid (lexemes ++ others)) : NamesValid others :=
  fun other hother ↦ h other (List.mem_append_right _ hother)

theorem optionalName (h : NamesValid ((action.map Lexeme.identifier).toList)) :
    action.all Identifier.isValid := by
  cases action with
  | none => rfl
  | some name => exact h name List.mem_cons_self

theorem optionalAction (h : NamesValid (actionLexemes action)) : action.all Identifier.isValid := by
  cases action with
  | none => rfl
  | some name => exact h name (List.mem_cons_of_mem _ List.mem_cons_self)

end NamesValid

theorem State.isPrintable_withAction {s : State} {hook : Hook} {action : String}
    (hs : s.isPrintable) (hfree : s.action? hook = none) (haction : Identifier.isValid action) :
    (s.withAction hook action).isPrintable := by
  obtain ⟨name, initial, entry, exit, location⟩ := s
  cases hook with
  | entry =>
    cases hfree
    simp_all [isPrintable, State.withAction, State.actions]
  | exit =>
    cases hfree
    simp_all [isPrintable, State.withAction, State.actions]

/-- A line whose names are identifiers adds only what can be written down. -/
theorem Step.printable {l : Line} {p q : Progress} (hnames : NamesValid l.lexemes)
    (h : Step l p q) (hp : p.Printable) : q.Printable := by
  cases h with
  | blank => exact hp
  | header h =>
    rw [h] at hnames
    exact ⟨hp.machine.rename hnames.tail.cons.1, by simp⟩
  | declarations => exact ⟨hp.machine, by simp⟩
  | declaration hcode _ h =>
    rw [h] at hnames
    obtain ⟨hname, hrest⟩ := hnames.cons
    exact ⟨hp.machine.declare (Bool.and_eq_true_iff.mpr ⟨hname, hrest.optionalName⟩) hcode, by simp⟩
  | endDeclarations => exact ⟨hp.machine, by simp⟩
  | state hclosed h =>
    rw [h] at hnames
    refine ⟨hp.machine, fun s hs ↦ ?_⟩
    cases hs
    exact Bool.and_eq_true_iff.mpr ⟨hnames.of_append.tail.cons.1, rfl⟩
  | hook hfree h =>
    rw [h] at hnames
    refine ⟨hp.machine, fun s hs ↦ ?_⟩
    cases hs
    exact State.isPrintable_withAction (hp.block _ rfl) hfree hnames.tail.cons.1
  | nested hsource _ hguard h =>
    rw [h, List.append_assoc] at hnames
    obtain ⟨hevent, hrest⟩ := hnames.cons
    obtain ⟨htarget, htail⟩ := hrest.tail.cons
    have hstate := hp.block _ rfl
    refine ⟨hp.machine.addTransition ?_, hp.block⟩
    simp only [Transition.isPrintable, Bool.and_eq_true]
    refine ⟨⟨⟨⟨?_, htarget⟩, hevent⟩, isPrintable_of_readsGuard hguard⟩,
      htail.of_append.of_append.optionalAction⟩
    rw [hsource]
    exact (Bool.and_eq_true_iff.mp hstate).1
  | endState => exact ⟨hp.machine.addState (hp.block _ rfl), by simp⟩
  | transition hclosed _ hguard h =>
    rw [h, List.append_assoc] at hnames
    obtain ⟨hsource, hrest⟩ := hnames.tail.cons
    obtain ⟨htarget, hmore⟩ := hrest.tail.cons
    obtain ⟨hevent, htail⟩ := hmore.tail.cons
    refine ⟨hp.machine.addTransition ?_, by simp⟩
    simp only [Transition.isPrintable, Bool.and_eq_true]
    exact ⟨⟨⟨⟨hsource, htarget⟩, hevent⟩, isPrintable_of_readsGuard hguard⟩,
      htail.of_append.of_append.optionalAction⟩

theorem Progress.printable_of_steps {lines : List Line} {p q : Progress}
    (hnames : ∀ l ∈ lines, NamesValid l.lexemes) (h : Steps lines p q) (hp : p.Printable) :
    q.Printable :=
  h.invariant (fun l hl _ _ hstep hbefore ↦ hstep.printable (hnames l hl) hbefore) hp

namespace Machine

/-- A machine that was read can be written down, whatever its default name was. -/
theorem printable_of_parseNamed {name text : String} {m : Machine}
    (h : parseNamed name text = .ok m) : m.Printable := by
  obtain ⟨stream, block, hscan, -, hsteps⟩ := parseNamed_eq_ok_iff.mp h
  have hnames : ∀ l ∈ stream.lines, NamesValid l.lexemes :=
    fun l hl ↦ TokenStream.namesValid_of_mem_lines (namesValid_of_scan hscan) hl
  have hstart : (⟨empty (Identifier.repair name), .beginning⟩ : Progress).Printable :=
    ⟨.empty (Identifier.isValid_repair name), by simp⟩
  exact (Progress.printable_of_steps hnames hsteps hstart).machine

end Machine

end StateMachine
