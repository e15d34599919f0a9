import StateMachine.Proofs.Guard.Bracketed
import StateMachine.Proofs.Machine.Located

/-!
Reading the canonical description of a machine. The description is a row of lines, each of them a
few lexemes (`Machine.written`), and step by step these lines lead back to the machine
(`Machine.leads_lines`). So every printable machine is read back from its description, and what is
read has the same description (`Machine.parse_text_sameAs`); in particular this holds of whatever
was read before, under any default names (`Machine.parseNamed_text_of_parseNamed`).
-/

set_option autoImplicit false

namespace StateMachine

/-! ### The lines of a description -/

def Declaration.lexemes (d : Declaration) : List Lexeme :=
  .identifier d.name :: (d.code.map Lexeme.identifier).toList

namespace State

def headerLexemes (s : State) : List Lexeme :=
  (if s.initial then [.keyword .initial] else []) ++ [.keyword .state, .identifier s.name]

def hookLexemes (hook : Hook) (action : String) : List Lexeme :=
  [.keyword hook.keyword, .identifier action]

def lines (s : State) : List (List Lexeme) :=
  [s.headerLexemes] ++ (s.entry.map (hookLexemes .entry)).toList ++
    (s.exit.map (hookLexemes .exit)).toList ++ [[.keyword .endBlock]]

end State

def Transition.lexemes (t : Transition) : List Lexeme :=
  [.keyword .transition, .identifier t.source, .arrow, .identifier t.target, .keyword .on,
    .identifier t.event] ++ guardLexemes (t.guard.map Guard.text) ++ actionLexemes t.action

namespace Machine

/-- A block of declarations, behind an empty line; no block without declarations. -/
def blockLines (kind : DeclarationKind) (declarations : List Declaration) : List (List Lexeme) :=
  if declarations.isEmpty then []
  else [[], [.keyword kind.keyword]] ++ declarations.map Declaration.lexemes ++
    [[.keyword .endBlock]]

def transitionLines (transitions : List Transition) : List (List Lexeme) :=
  if transitions.isEmpty then [] else [] :: transitions.map Transition.lexemes

/-- The lines of the canonical description. -/
def lines (m : Machine) : List (List Lexeme) :=
  [[.keyword .machine, .identifier m.name]] ++ blockLines .event m.events ++
    blockLines .resetEvent m.resetEvents ++ blockLines .command m.commands ++
    m.states.flatMap (fun s ↦ [] :: s.lines) ++ transitionLines m.transitions

end Machine

/-! ### The description is written in lines -/

section Writable

variable {action : Option String}

theorem writable_actionLexemes (h : action.all Identifier.isValid) :
    Writable (actionLexemes action) := by
  cases action with
  | none => exact writable_nil
  | some name => exact .cons trivial (.cons h writable_nil)

theorem writable_guardLexemes {guard : Option Guard} (h : guard.all Guard.isPrintable) :
    Writable (guardLexemes (guard.map Guard.text)) := by
  cases guard with
  | none => exact writable_nil
  | some g =>
    refine .cons (fun rest ↦ ?_) writable_nil
    rw [Guard.text, String.toList_ofList]
    exact Guard.guardBody_chars h rest

theorem Declaration.writable_lexemes {d : Declaration} (h : d.isPrintable) :
    Writable d.lexemes := by
  obtain ⟨hname, hcode⟩ := Bool.and_eq_true_iff.mp h
  refine .cons hname ?_
  cases hd : d.code with
  | none => exact writable_nil
  | some code =>
    rw [hd] at hcode
    exact .cons hcode writable_nil

theorem State.writable_headerLexemes {s : State} (h : s.isPrintable) :
    Writable s.headerLexemes := by
  have hname := (Bool.and_eq_true_iff.mp h).1
  refine .append ?_ (.cons trivial (.cons hname writable_nil))
  cases s.initial with
  | true => exact .cons trivial writable_nil
  | false => exact writable_nil

theorem Transition.writable_lexemes {t : Transition} (h : t.isPrintable) :
    Writable t.lexemes := by
  simp only [isPrintable, Bool.and_eq_true] at h
  obtain ⟨⟨⟨⟨hsource, htarget⟩, hevent⟩, hguard⟩, haction⟩ := h
  exact .append (.append (.cons trivial (.cons hsource (.cons trivial (.cons htarget
    (.cons trivial (.cons hevent writable_nil)))))) (writable_guardLexemes hguard))
    (writable_actionLexemes haction)

end Writable

/-! Each line is its lexemes with blanks between them. -/

theorem Declaration.chars_eq (d : Declaration) : d.chars = Lexeme.spaced d.lexemes := by
  cases hcode : d.code <;> simp [chars, lexemes, hcode, Lexeme.spaced, Lexeme.chars]

theorem Transition.chars_eq (t : Transition) : t.chars = line (Lexeme.spaced t.lexemes) := by
  cases hguard : t.guard <;> cases haction : t.action <;>
    simp [chars, lexemes, line, hguard, haction, guardLexemes, actionLexemes, Lexeme.spaced,
      Lexeme.chars, Guard.text, Keyword.spelling]

theorem State.header_eq (s : State) :
    (if s.initial then "initial ".toList else []) ++ "state ".toList ++ s.name.toList =
      Lexeme.spaced s.headerLexemes := by
  cases hinitial : s.initial <;>
    simp [headerLexemes, hinitial, Lexeme.spaced, Lexeme.chars, Keyword.spelling]

theorem written_indentedLine {lexemes : List Lexeme} (h : Writable lexemes) :
    Written (indentedLine (Lexeme.spaced lexemes)) [lexemes] := by
  rw [indentedLine, line, List.append_assoc]
  exact .indented (.line h)

theorem State.written_clause (hook : Hook) {action : Option String}
    (h : action.all Identifier.isValid) :
    Written (clauseChars hook.keyword.spelling action) (action.map (hookLexemes hook)).toList := by
  cases action with
  | none => exact .nil
  | some name =>
    have hline : Writable (hookLexemes hook name) := .cons trivial (.cons h writable_nil)
    exact written_indentedLine hline

theorem State.written {s : State} (h : s.isPrintable) :
    Written ('\n' :: s.chars) ([] :: s.lines) := by
  have hactions := (Bool.and_eq_true_iff.mp h).2
  rw [actions, List.all_append, Bool.and_eq_true] at hactions
  have hentry : s.entry.all Identifier.isValid := by
    cases hs : s.entry <;> simp_all
  have hexit : s.exit.all Identifier.isValid := by
    cases hs : s.exit <;> simp_all
  have hend : Writable [.keyword .endBlock] := .cons trivial writable_nil
  have hheader := Written.line (State.writable_headerLexemes h)
  rw [← State.header_eq] at hheader
  exact .append .blank (.append (.append (.append hheader (written_clause .entry hentry))
    (written_clause .exit hexit)) (.line hend))

namespace Machine

theorem written_block (kind : DeclarationKind) {declarations : List Declaration}
    (h : ∀ d ∈ declarations, d.isPrintable) :
    Written (blockChars kind.keyword.spelling (declarations.map Declaration.chars))
      (blockLines kind declarations) := by
  cases declarations with
  | nil => exact .nil
  | cons d more =>
    have hkeyword : Writable [.keyword kind.keyword] := .cons trivial writable_nil
    have hend : Writable [.keyword .endBlock] := .cons trivial writable_nil
    have hlines : Written (((d :: more).map Declaration.chars).flatMap indentedLine)
        ((d :: more).map Declaration.lexemes) := by
      rw [List.flatMap_map]
      refine .map fun e he ↦ ?_
      rw [Declaration.chars_eq]
      exact written_indentedLine (Declaration.writable_lexemes (h e he))
    exact .append .blank (.append (.append (.line hkeyword) hlines) (.line hend))

theorem written_transitions {transitions : List Transition}
    (h : ∀ t ∈ transitions, t.isPrintable) :
    Written (transitionChars transitions) (transitionLines transitions) := by
  cases transitions with
  | nil => exact .nil
  | cons t more =>
    have hlines : Written ((t :: more).flatMap Transition.chars)
        ((t :: more).map Transition.lexemes) := by
      refine .map fun u hu ↦ ?_
      rw [Transition.chars_eq]
      exact .line (Transition.writable_lexemes (h u hu))
    exact .append .blank hlines

/-- A reset event without code is written as its name. -/
theorem map_resetEvents {m : Machine} (h : m.Printable) :
    (m.resetEvents.map fun d ↦ d.name.toList) = m.resetEvents.map Declaration.chars := by
  refine List.map_congr_left fun d hd ↦ ?_
  rw [Declaration.chars, (h.resetEvents d hd).2, Option.map_none, Option.getD_none,
    List.append_nil]

/-- The canonical description of a printable machine is written in its lines. -/
theorem written {m : Machine} (h : m.Printable) : Written m.chars m.lines := by
  have hheader : Writable [.keyword .machine, .identifier m.name] :=
    .cons trivial (.cons h.name writable_nil)
  have hresets := written_block .resetEvent fun d hd ↦ (h.resetEvents d hd).1
  rw [← map_resetEvents h] at hresets
  exact .append (.append (.append (.append (.append (.line hheader)
    (written_block .event h.events)) hresets) (written_block .command h.commands))
    (.flatMap fun s hs ↦ State.written (h.states s hs))) (written_transitions h.transitions)

end Machine

/-! ### The lines lead back to the machine -/

/-- A line of lexemes that stands nowhere. -/
def Line.ofLexemes (lexemes : List Lexeme) : Line :=
  ⟨lexemes.map fun lexeme ↦ ⟨lexeme, .unplaced⟩, ⟨.endOfFile, .unplaced⟩⟩

theorem Line.lexemes_ofLexemes (lexemes : List Lexeme) : (ofLexemes lexemes).lexemes = lexemes := by
  simp [ofLexemes, Line.lexemes, List.map_map, Function.comp_def]

theorem Line.peek_ofLexemes (lexemes : List Lexeme) :
    (ofLexemes lexemes).peek.location = .unplaced := by
  cases lexemes <;> rfl

/-- Lines of these lexemes, standing nowhere, lead from one progress to the other. -/
def Leads (lines : List (List Lexeme)) (p q : Progress) : Prop :=
  Steps (lines.map Line.ofLexemes) p q

namespace Leads

variable {lines others : List (List Lexeme)} {lexemes : List Lexeme} {p q r : Progress}
  {m : Machine}

theorem nil : Leads [] p p :=
  Steps.nil

theorem append (h : Leads lines p q) (hothers : Leads others q r) :
    Leads (lines ++ others) p r := by
  rw [Leads, List.map_append]
  exact Steps.append h hothers

theorem single (h : Step (Line.ofLexemes lexemes) p q) : Leads [lexemes] p q :=
  .cons h .nil

theorem blank : Leads [[]] p p :=
  single (.blank rfl)

end Leads

namespace Machine

variable {m : Machine}

/-- The machine with several more declarations of one kind. -/
def declareAll (m : Machine) (kind : DeclarationKind) (ds : List Declaration) : Machine :=
  match kind with
  | .event => { m with events := m.events ++ ds }
  | .resetEvent => { m with resetEvents := m.resetEvents ++ ds }
  | .command => { m with commands := m.commands ++ ds }

theorem declareAll_nil (m : Machine) (kind : DeclarationKind) : m.declareAll kind [] = m := by
  cases kind <;> simp [declareAll]

theorem declareAll_cons (m : Machine) (kind : DeclarationKind) (d : Declaration)
    (ds : List Declaration) :
    (m.declare kind d).declareAll kind ds = m.declareAll kind (d :: ds) := by
  cases kind <;> simp [declareAll, declare]

theorem leads_declarations {kind : DeclarationKind} {ds : List Declaration}
    (hcode : kind.withCode = false → ∀ d ∈ ds, d.code = none) :
    Leads (ds.map Declaration.lexemes) ⟨m, .declarations kind⟩
      ⟨m.declareAll kind (ds.map Declaration.unlocated), .declarations kind⟩ := by
  induction ds generalizing m with
  | nil =>
    rw [List.map_nil, List.map_nil, declareAll_nil]
    exact .nil
  | cons d ds ih =>
    have hfirst : Step (Line.ofLexemes d.lexemes) ⟨m, .declarations kind⟩
        ⟨m.declare kind d.unlocated, .declarations kind⟩ :=
      .declaration (fun hkind ↦ hcode hkind d List.mem_cons_self)
        (Line.peek_ofLexemes _).symm (Line.lexemes_ofLexemes _)
    have hrest := ih (m := m.declare kind d.unlocated) fun hkind e he ↦
      hcode hkind e (List.mem_cons_of_mem d he)
    rw [List.map_cons, List.map_cons, ← declareAll_cons]
    exact .cons hfirst hrest

theorem leads_block {kind : DeclarationKind} {ds : List Declaration}
    (hcode : kind.withCode = false → ∀ d ∈ ds, d.code = none) :
    Leads (blockLines kind ds) ⟨m, .none⟩
      ⟨m.declareAll kind (ds.map Declaration.unlocated), .none⟩ := by
  cases ds with
  | nil =>
    rw [List.map_nil, declareAll_nil]
    exact .nil
  | cons d ds =>
    have hopen : Leads [[], [.keyword kind.keyword]] ⟨m, .none⟩ ⟨m, .declarations kind⟩ :=
      Leads.blank.append (.single (.declarations rfl rfl))
    exact (hopen.append (leads_declarations hcode)).append (.single (.endDeclarations rfl))

theorem leads_hook {s : State} {hook : Hook} {action : String} (hfree : s.action? hook = none) :
    Leads [State.hookLexemes hook action] ⟨m, .state s⟩ ⟨m, .state (s.withAction hook action)⟩ :=
  .single (.hook hfree rfl)

theorem leads_state (s : State) :
    Leads ([] :: s.lines) ⟨m, .none⟩ ⟨m.addState s.unlocated, .none⟩ := by
  obtain ⟨name, initial, entry, exit, location⟩ := s
  have hheader : Leads [[], State.headerLexemes ⟨name, initial, entry, exit, location⟩] ⟨m, .none⟩
      ⟨m, .state ⟨name, initial, none, none, .unplaced⟩⟩ := by
    have hstate := Step.state (m := m) (b := .none) rfl (Line.lexemes_ofLexemes
      (State.headerLexemes ⟨name, initial, entry, exit, location⟩))
    rw [Line.peek_ofLexemes] at hstate
    exact Leads.blank.append (.single hstate)
  have hentry : Leads (entry.map (State.hookLexemes .entry)).toList
      ⟨m, .state ⟨name, initial, none, none, .unplaced⟩⟩
      ⟨m, .state ⟨name, initial, entry, none, .unplaced⟩⟩ := by
    cases entry with
    | none => exact .nil
    | some action => exact leads_hook rfl
  have hexit : Leads (exit.map (State.hookLexemes .exit)).toList
      ⟨m, .state ⟨name, initial, entry, none, .unplaced⟩⟩
      ⟨m, .state ⟨name, initial, entry, exit, .unplaced⟩⟩ := by
    cases exit with
    | none => exact .nil
    | some action => exact leads_hook rfl
  exact ((hheader.append hentry).append hexit).append (.single (.endState rfl))

theorem leads_states (states : List State) :
    Leads (states.flatMap fun s ↦ [] :: s.lines) ⟨m, .none⟩
      ⟨{ m with states := m.states ++ states.map State.unlocated }, .none⟩ := by
  induction states generalizing m with
  | nil =>
    rw [List.map_nil, List.append_nil]
    exact .nil
  | cons s states ih =>
    have hrest := ih (m := m.addState s.unlocated)
    rw [addState, List.append_assoc] at hrest
    exact (leads_state s).append hrest

theorem leads_transition {t : Transition} (h : t.isPrintable) :
    Leads [t.lexemes] ⟨m, .none⟩ ⟨m.addTransition t.unlocated, .none⟩ := by
  have hguard : ReadsGuard (t.guard.map Guard.text) t.guard := by
    simp only [Transition.isPrintable, Bool.and_eq_true] at h
    cases hg : t.guard with
    | none => exact .none
    | some g =>
      rw [hg] at h
      exact .some (Guard.parse_text h.1.2)
  exact .single (.transition rfl (Line.peek_ofLexemes _).symm hguard (Line.lexemes_ofLexemes _))

theorem leads_transitions {transitions : List Transition} (h : ∀ t ∈ transitions, t.isPrintable) :
    Leads (transitions.map Transition.lexemes) ⟨m, .none⟩
      ⟨{ m with transitions := m.transitions ++ transitions.map Transition.unlocated }, .none⟩ := by
  induction transitions generalizing m with
  | nil =>
    rw [List.map_nil, List.map_nil, List.append_nil]
    exact .nil
  | cons t transitions ih =>
    have hrest := ih (m := m.addTransition t.unlocated) fun u hu ↦ h u (List.mem_cons_of_mem t hu)
    rw [addTransition, List.append_assoc] at hrest
    exact (leads_transition (h t List.mem_cons_self)).append hrest

theorem leads_transitionLines {transitions : List Transition}
    (h : ∀ t ∈ transitions, t.isPrintable) :
    Leads (transitionLines transitions) ⟨m, .none⟩
      ⟨{ m with transitions := m.transitions ++ transitions.map Transition.unlocated }, .none⟩ := by
  cases transitions with
  | nil => exact leads_transitions h
  | cons t transitions => exact Leads.blank.append (leads_transitions h)

/-- Whatever the machine was called before, the lines of a description lead to what it describes. -/
theorem leads_lines (h : m.Printable) (name : String) :
    Leads m.lines ⟨empty name, .beginning⟩ ⟨m.unlocated, .none⟩ := by
  have hheader : Leads [[.keyword .machine, .identifier m.name]] ⟨empty name, .beginning⟩
      ⟨empty m.name, .none⟩ :=
    .single (.header rfl)
  have hevents : DeclarationKind.event.withCode = false → ∀ d ∈ m.events, d.code = none :=
    fun hkind ↦ absurd hkind (by decide)
  have hresets : DeclarationKind.resetEvent.withCode = false → ∀ d ∈ m.resetEvents, d.code = none :=
    fun _ d hd ↦ (h.resetEvents d hd).2
  have hcommands : DeclarationKind.command.withCode = false → ∀ d ∈ m.commands, d.code = none :=
    fun hkind ↦ absurd hkind (by decide)
  exact ((((hheader.append (leads_block hevents)).append (leads_block hresets)).append
    (leads_block hcommands)).append (leads_states m.states)).append
    (leads_transitionLines h.transitions)

/-! ### Reading a description -/

/-- The description of a printable machine is read as the machine, placed where it now stands. -/
theorem exists_parseNamed_text (h : m.Printable) (name : String) :
    ∃ m', parseNamed name m.text = .ok m' ∧ m'.unlocated = m.unlocated := by
  obtain ⟨stream, hscan, hlexemes⟩ := (written h).scans .start
  have hlines := TokenStream.map_lexemes_lines (written h).newline_notMem hlexemes
  have hleads := (leads_lines h (Identifier.repair name)).append .blank
  have hsame : stream.lines.map Line.lexemes =
      ((m.lines ++ [[]]).map Line.ofLexemes).map Line.lexemes := by
    rw [hlines, List.map_map]
    exact (List.map_id'' Line.lexemes_ofLexemes _).symm
  obtain ⟨⟨m', b⟩, hsteps, hm⟩ := Steps.transfer hleads hsame rfl
  obtain ⟨hmachine, hblock⟩ := Progress.mk.inj hm
  have hclosed : b.isClosed := Block.isClosed_of_unlocated_eq hblock rfl
  refine ⟨m', parseNamed_eq_ok_iff.mpr ⟨stream, b, ?_, hclosed, hsteps⟩, ?_⟩
  · rw [TokenStream.scan, text, String.toList_ofList]
    exact hscan
  · exact hmachine.trans (unlocated_unlocated m)

/-- A printable machine is read back from its description under any default name. -/
theorem parseNamed_text (h : m.Printable) (name : String) :
    ∃ m', parseNamed name m.text = .ok m' ∧ m'.sameAs m ∧ m'.text = m.text := by
  obtain ⟨m', hparse, hm⟩ := exists_parseNamed_text h name
  refine ⟨m', hparse, sameAs_of_unlocated_eq hm h, ?_⟩
  rw [← text_unlocated m', hm, text_unlocated]

/-- A printable machine is read back from its canonical description, and what is read has the same
description. -/
theorem parse_text_sameAs (h : m.Printable) :
    ∃ m', parse m.text = .ok m' ∧ m'.sameAs m ∧ m'.text = m.text :=
  parseNamed_text h defaultName

/-- Repeated declarations, names that nothing declares, and a guard whose text literal holds a
quote, a bracket, a line break and a backslash. -/
def turnstile : Machine where
  name := "Turnstile"
  events := [⟨"coin", some "E1", .unplaced⟩, ⟨"coin", none, .unplaced⟩]
  resetEvents := [⟨"reset", none, .unplaced⟩]
  commands := []
  states := [⟨"Locked", true, some "light", none, .unplaced⟩]
  transitions := [⟨"Locked", "Gone", "push", some (.both
    (.negated (.either (.truthy "a.b") (.truthy "c"))) (.equals "text" (.string "\"]\n\\"))),
    some "unlock", .unplaced⟩]

theorem printable_turnstile : turnstile.Printable where
  name := by decide
  events := by decide
  resetEvents := by decide
  commands := by decide
  states := by decide
  transitions := by decide

theorem parse_text_turnstile : turnstile.Printable ∧ ∃ m', parse turnstile.text = .ok m' ∧
    m'.sameAs turnstile ∧ m'.text = turnstile.text :=
  ⟨printable_turnstile, parse_text_sameAs printable_turnstile⟩

/-- Whatever was read, under any default name, can be written down, and is read back from its
canonical description under every other default name. -/
theorem parseNamed_text_of_parseNamed {name source : String} (h : parseNamed name source = .ok m) :
    m.Printable ∧ ∀ other, ∃ m', parseNamed other m.text = .ok m' ∧ m'.sameAs m ∧
      m'.text = m.text :=
  ⟨printable_of_parseNamed h, parseNamed_text (printable_of_parseNamed h)⟩

/-- A description without header, under a default name that is no identifier. -/
def unnamedSource : String :=
  "events\n  coin E1\nend\ninitial state A\n  entry hi\n  coin => A / act\nend\n"

theorem parseNamed_text_unnamedSource : ∃ m, parseNamed "2 fast" unnamedSource = .ok m ∧
    m.Printable ∧ ∀ other, ∃ m', parseNamed other m.text = .ok m' ∧ m'.sameAs m ∧
      m'.text = m.text := by
  have hok : (parseNamed "2 fast" unnamedSource).isOk := by decide +kernel
  cases h : parseNamed "2 fast" unnamedSource with
  | error e =>
    rw [h] at hok
    cases hok
  | ok m => exact ⟨m, rfl, parseNamed_text_of_parseNamed h⟩

end Machine

end StateMachine
