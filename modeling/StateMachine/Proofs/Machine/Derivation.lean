import StateMachine.Proofs.Machine.Grammar

/-!
What is read is derived. What has been read so far leaves a block open, and the text that is left
completes it if it derives the rest of the block and the items behind it (`Grammar.Completes`). A
line whose rest completes what follows it completes what stands before it
(`Grammar.Completes.of_step`), and so does a text that is read to its end
(`Grammar.Completes.of_steps`).
-/

set_option autoImplicit false

namespace StateMachine

open TokenStream (linesOf linesOf_newline linesOf_cons linesOf_append)

/-! ### Lines and lines of the grammar -/

theorem Step.eq_of_blank {l : Line} {p q : Progress} (hblank : l.lexemes = []) (h : Step l p q) :
    q = p := by
  cases h with
  | blank => rfl
  | state _ h =>
    rw [hblank] at h
    exact absurd h.symm (by simp)
  | header h | declarations _ h | declaration _ _ h | endDeclarations h | hook _ h
  | nested _ _ _ h | endState h | transition _ _ _ h =>
    rw [hblank] at h
    cases h

theorem Steps.eq_of_blank {l : Line} {p q : Progress} (hblank : l.lexemes = [])
    (h : Steps [l] p q) : q = p := by
  cases h with
  | cons hstep hrest =>
    cases hrest with
    | nil => exact hstep.eq_of_blank hblank

theorem TokenStream.linesOf_of_ne_newline {last : Token} {tokens : List Token}
    (h : ∀ t ∈ tokens, t.lexeme ≠ .newline) : linesOf last tokens = [⟨tokens, last⟩] := by
  induction tokens with
  | nil => rfl
  | cons token rest ih =>
    have hne : token.lexeme ≠ .newline := h token List.mem_cons_self
    obtain ⟨l, more, hrest, hcons⟩ := linesOf_cons hne
    rw [ih fun t ht ↦ h t (List.mem_cons_of_mem token ht)] at hrest
    cases hrest
    exact hcons

/-- The tokens of the first line are followed by a line break and the other lines, or by nothing. -/
theorem TokenStream.exists_append_of_linesOf {last : Token} {tokens : List Token} {l : Line}
    {more : List Line} (h : linesOf last tokens = l :: more) :
    ∃ after, tokens = l.tokens ++ after ∧ (after = [] ∧ more = [] ∨
      ∃ token rest, after = token :: rest ∧ token.lexeme = .newline ∧
        more = linesOf last rest) := by
  induction tokens generalizing l with
  | nil =>
    cases h
    exact ⟨[], rfl, Or.inl ⟨rfl, rfl⟩⟩
  | cons token rest ih =>
    by_cases hbreak : token.lexeme = .newline
    · rw [linesOf_newline hbreak] at h
      cases h
      exact ⟨token :: rest, rfl, Or.inr ⟨token, rest, rfl, hbreak, rfl⟩⟩
    · obtain ⟨first, others, hfirst, hcons⟩ := linesOf_cons hbreak
      rw [hcons] at h
      cases h
      obtain ⟨after, rfl, hafter⟩ := ih hfirst
      exact ⟨after, rfl, hafter⟩

namespace Grammar

variable {lexemes : List Lexeme} {location : Location} {last : Token}
  {tokens rest : List Token} {p q r : Progress}

/-- A line of the grammar is a line of the text, so a step can be taken from it. -/
theorem LineOf.steps (h : LineOf lexemes location tokens rest) (hnewline : .newline ∉ lexemes)
    (hstep : ∀ l : Line, l.lexemes = lexemes → l.peek.location = location → Step l p q)
    (hrest : Steps (linesOf last rest) q r) : Steps (linesOf last tokens) p r := by
  induction h with
  | blank h _ ih =>
    rw [linesOf_newline h]
    exact .cons (.blank rfl) (ih hrest)
  | @line token more after rest hlexemes hlocation hend =>
    have hno : ∀ t ∈ token :: more, t.lexeme ≠ .newline := by
      intro t ht heq
      apply hnewline
      rw [← hlexemes, ← heq]
      exact List.mem_map_of_mem ht
    cases hend with
    | newline hbreak =>
      rw [linesOf_append hno hbreak]
      exact .cons (hstep _ hlexemes hlocation) hrest
    | endOfText =>
      rw [List.append_nil, TokenStream.linesOf_of_ne_newline hno]
      rw [Steps.eq_of_blank rfl hrest]
      exact .cons (hstep _ hlexemes hlocation) .nil

/-- The first line of a text that is not blank is a line of the grammar. Behind the last line of
the text there is nothing, which is as good as a blank line. -/
theorem exists_lineOf {l : Line} {more : List Line} (h : linesOf last tokens = l :: more)
    (hne : l.tokens ≠ []) :
    ∃ rest, LineOf l.lexemes l.peek.location tokens rest ∧ rest.length < tokens.length ∧
      ∀ {q r}, Steps more q r → Steps (linesOf last rest) q r := by
  obtain ⟨tokens, finish⟩ := l
  obtain ⟨token, others, rfl⟩ := List.exists_cons_of_ne_nil hne
  obtain ⟨after, rfl, ⟨rfl, rfl⟩ | ⟨newline, rest, rfl, hbreak, rfl⟩⟩ :=
    TokenStream.exists_append_of_linesOf h
  · refine ⟨[], .line rfl rfl .endOfText, by simp, fun hsteps ↦ ?_⟩
    cases hsteps
    exact .cons (.blank rfl) .nil
  · refine ⟨rest, .line rfl rfl (.newline hbreak), by simp; omega, fun hsteps ↦ hsteps⟩

end Grammar

/-! ### What the rest of a text adds -/

namespace State

/-- The actions of a hook, if these clauses are still to come. -/
def actionsWith (s : State) (clauses : List Clause) (hook : Hook) : List String :=
  (s.action? hook).toList ++ clauses.filterMap (Clause.action? hook)

/-- The state, if these clauses are still to come. -/
def complete (s : State) (clauses : List Clause) : State :=
  { s with
    entry := (s.actionsWith clauses .entry).head?
    exit := (s.actionsWith clauses .exit).head? }

variable {s : State} {clauses : List Clause}

theorem complete_nil : s.complete [] = s := by
  obtain ⟨name, initial, entry, exit, location⟩ := s
  cases entry <;> cases exit <;> rfl

theorem actionsWith_withAction {hook : Hook} {action : String} (hfree : s.action? hook = none)
    (other : Hook) :
    (s.withAction hook action).actionsWith clauses other =
      s.actionsWith (.hook hook action :: clauses) other := by
  cases hook <;> cases other <;>
    simp_all [actionsWith, withAction, action?, Clause.action?]

theorem complete_withAction {hook : Hook} {action : String} (hfree : s.action? hook = none) :
    (s.withAction hook action).complete clauses =
      s.complete (.hook hook action :: clauses) := by
  simp only [complete, actionsWith_withAction hfree]
  cases hook <;> rfl

theorem complete_arc {arc : Arc} : s.complete (.arc arc :: clauses) = s.complete clauses :=
  rfl

/-- A second clause for a hook would be one too many. -/
theorem free_of_length_le {hook : Hook} {action : String}
    (h : (s.actionsWith (.hook hook action :: clauses) hook).length ≤ 1) :
    s.action? hook = none := by
  cases hfound : s.action? hook with
  | none => rfl
  | some other => simp [actionsWith, hfound, Clause.action?] at h

end State

namespace StateBlock

/-- The state as its first line opens it. -/
def opened (b : StateBlock) : State :=
  ⟨b.name, b.initial, none, none, b.location⟩

variable (b : StateBlock)

@[simp] theorem name_opened : b.opened.name = b.name :=
  rfl

theorem actionsWith_opened (hook : Hook) :
    b.opened.actionsWith b.clauses hook = b.actions hook := by
  cases hook <;> rfl

theorem complete_opened : b.opened.complete b.clauses = b.state :=
  rfl

end StateBlock

namespace Machine

/-- The machine, if these items are still to come. -/
def extend (m : Machine) (items : List Item) : Machine :=
  { m with
    events := m.events ++ items.flatMap (Item.declared .event)
    resetEvents := m.resetEvents ++ items.flatMap (Item.declared .resetEvent)
    commands := m.commands ++ items.flatMap (Item.declared .command)
    states := m.states ++ items.flatMap Item.states
    transitions := m.transitions ++ items.flatMap Item.transitions }

/-- The machine, if these clauses of a state are still to come, and then these items. -/
def extendFrom (m : Machine) (s : State) (clauses : List Clause) (items : List Item) : Machine :=
  let transitions := (clauses.filterMap Clause.arc?).map (·.transition s.name)
  ({ m with transitions := m.transitions ++ transitions }.addState (s.complete clauses)).extend
    items

variable {m : Machine} {items : List Item} {clauses : List Clause}

@[simp] theorem extend_nil : m.extend [] = m := by
  simp [extend]

theorem extend_append {more : List Item} :
    (m.extend items).extend more = m.extend (items ++ more) := by
  simp [extend]

@[simp] theorem extend_noDeclarations {kind : DeclarationKind} :
    m.extend (.declarations kind [] :: items) = m.extend items := by
  simp [extend, Item.declared, Item.states, Item.transitions]

theorem extend_declarations {kind : DeclarationKind} {d : Declaration}
    {entries : List Declaration} :
    (m.declare kind d).extend (.declarations kind entries :: items) =
      m.extend (.declarations kind (d :: entries) :: items) := by
  cases kind <;>
    simp [extend, declare, Item.declared, Item.states, Item.transitions]

theorem extend_transition {source : String} {arc : Arc} :
    (m.addTransition (arc.transition source)).extend items =
      m.extend (.transition source arc :: items) := by
  simp [extend, addTransition, Item.declared, Item.states, Item.transitions]

theorem extendFrom_opened {block : StateBlock} :
    m.extendFrom block.opened block.clauses items = m.extend (.state block :: items) := by
  simp [extend, extendFrom, addState, Item.declared, Item.states, Item.transitions,
    StateBlock.transitions, StateBlock.complete_opened]

theorem extendFrom_nil {s : State} :
    m.extendFrom s [] items = (m.addState s).extend items := by
  simp [extendFrom, State.complete_nil]

theorem extendFrom_hook {s : State} {hook : Hook} {action : String}
    (hfree : s.action? hook = none) :
    m.extendFrom (s.withAction hook action) clauses items =
      m.extendFrom s (.hook hook action :: clauses) items := by
  rw [extendFrom, State.complete_withAction hfree, extendFrom]
  cases hook <;> rfl

theorem extendFrom_arc {s : State} {arc : Arc} :
    (m.addTransition (arc.transition s.name)).extendFrom s clauses items =
      m.extendFrom s (.arc arc :: clauses) items := by
  simp [extendFrom, addTransition, State.complete_arc, Clause.arc?]

end Machine

/-! ### What is read is derived -/

/-- The transition as it is written with this guard. -/
def Transition.arc (t : Transition) (body : Option String) : Arc :=
  ⟨t.event, t.target, body, t.action, t.location⟩

theorem Transition.transition_arc {t : Transition} {body : Option String}
    (h : ReadsGuard body t.guard) : (t.arc body).transition t.source = t := by
  obtain ⟨source, target, event, guard, action, location⟩ := t
  cases h with
  | none => rfl
  | some hparse => simp [arc, Arc.transition, hparse, Except.toOption]

namespace Grammar

variable {lexemes : List Lexeme} {location : Location} {token : Token} {tokens rest : List Token}

theorem LineOf.lexemes_ne_nil (h : LineOf lexemes location tokens rest) : lexemes ≠ [] := by
  induction h with
  | blank _ _ ih => exact ih
  | line hlexemes _ _ =>
    rw [← hlexemes]
    exact List.cons_ne_nil _ _

theorem Entries.blank {kind : DeclarationKind} {entries : List Declaration}
    (hbreak : token.lexeme = .newline) (h : Entries kind tokens entries rest) :
    Entries kind (token :: tokens) entries rest := by
  cases h with
  | done h => exact .done (.blank hbreak h)
  | entry hcode h hmore => exact .entry hcode (.blank hbreak h) hmore

theorem Clauses.blank {clauses : List Clause} (hbreak : token.lexeme = .newline)
    (h : Clauses tokens clauses rest) : Clauses (token :: tokens) clauses rest := by
  cases h with
  | done h => exact .done (.blank hbreak h)
  | hook h hmore => exact .hook (.blank hbreak h) hmore
  | arc h hmore => exact .arc (.blank hbreak h) hmore

theorem ItemOf.blank {item : Item} (hbreak : token.lexeme = .newline)
    (h : ItemOf tokens item rest) : ItemOf (token :: tokens) item rest := by
  cases h with
  | declarations h hentries => exact .declarations (.blank hbreak h) hentries
  | state h hclauses => exact .state (.blank hbreak h) hclauses
  | transition h => exact .transition (.blank hbreak h)

theorem Items.blank {items : List Item} (hbreak : token.lexeme = .newline)
    (h : Items tokens items) : Items (token :: tokens) items := by
  cases h with
  | done h => exact .done (List.forall_mem_cons.mpr ⟨hbreak, h⟩)
  | item h hmore => exact .item (h.blank hbreak) hmore

theorem FileOf.blank {d : Description} (hbreak : token.lexeme = .newline)
    (h : FileOf tokens d) : FileOf (token :: tokens) d := by
  cases h with
  | headed h hitems => exact .headed (.blank hbreak h) hitems
  | unheaded hitems => exact .unheaded (hitems.blank hbreak)

/-- The tokens complete what has been read to a machine: they derive the rest of the block that is
open, and the items behind it. -/
inductive Completes (m : Machine) : List Token → Progress → Prop
  | file {n : Machine} {tokens : List Token} {d : Description} (h : FileOf tokens d)
      (hdistinct : d.HooksDistinct)
      (hm : Machine.extend { n with name := d.header.getD n.name } d.items = m) :
      Completes m tokens ⟨n, .beginning⟩
  | items {n : Machine} {tokens : List Token} {items : List Item} (h : Items tokens items)
      (hdistinct : ∀ item ∈ items, item.HooksDistinct) (hm : n.extend items = m) :
      Completes m tokens ⟨n, .none⟩
  | entries {n : Machine} {kind : DeclarationKind} {tokens rest : List Token}
      {entries : List Declaration} {items : List Item} (h : Entries kind tokens entries rest)
      (hitems : Items rest items) (hdistinct : ∀ item ∈ items, item.HooksDistinct)
      (hm : n.extend (.declarations kind entries :: items) = m) :
      Completes m tokens ⟨n, .declarations kind⟩
  | clauses {n : Machine} {s : State} {tokens rest : List Token} {clauses : List Clause}
      {items : List Item} (h : Clauses tokens clauses rest) (hitems : Items rest items)
      (hdistinct : ∀ item ∈ items, item.HooksDistinct)
      (hhooks : ∀ hook, (s.actionsWith clauses hook).length ≤ 1)
      (hm : n.extendFrom s clauses items = m) : Completes m tokens ⟨n, .state s⟩

namespace Completes

variable {l : Line} {last : Token} {m n : Machine} {b : Block} {p q : Progress}

/-- Outside of blocks there are items to come; a header is optional. -/
theorem of_items {items : List Item} (hclosed : b.isClosed) (h : Items tokens items)
    (hdistinct : ∀ item ∈ items, item.HooksDistinct) (hm : n.extend items = m) :
    Completes m tokens ⟨n, b⟩ := by
  cases b with
  | beginning => exact .file (.unheaded h) hdistinct hm
  | none => exact .items h hdistinct hm
  | declarations kind => cases hclosed
  | state s => cases hclosed

theorem of_blank (hbreak : token.lexeme = .newline) (h : Completes m tokens p) :
    Completes m (token :: tokens) p := by
  cases h with
  | file h hdistinct hm => exact .file (h.blank hbreak) hdistinct hm
  | items h hdistinct hm => exact .items (h.blank hbreak) hdistinct hm
  | entries h hitems hdistinct hm => exact .entries (h.blank hbreak) hitems hdistinct hm
  | clauses h hitems hdistinct hhooks hm =>
    exact .clauses (h.blank hbreak) hitems hdistinct hhooks hm

/-- What completes the reading behind a line completes it before the line, with the line. -/
theorem of_step (hstep : Step l p q) (hline : LineOf l.lexemes l.peek.location tokens rest)
    (h : Completes m rest q) : Completes m tokens p := by
  cases hstep with
  | blank hblank => exact absurd hblank hline.lexemes_ne_nil
  | header hlexemes =>
    rw [hlexemes] at hline
    cases h with
    | items h hdistinct hm => exact .file (.headed hline h) hdistinct hm
  | declarations hclosed hlexemes =>
    rw [hlexemes] at hline
    cases h with
    | entries h hitems hdistinct hm =>
      refine of_items hclosed (.item (.declarations hline h) hitems) ?_ hm
      exact List.forall_mem_cons.mpr ⟨trivial, hdistinct⟩
  | declaration hcode hlocation hlexemes =>
    rw [hlexemes, ← hlocation] at hline
    cases h with
    | entries h hitems hdistinct hm =>
      rw [Machine.extend_declarations] at hm
      refine .entries (.entry ?_ hline h) hitems hdistinct hm
      rintro rfl
      exact hcode rfl
  | endDeclarations hlexemes =>
    rw [hlexemes] at hline
    cases h with
    | items h hdistinct hm =>
      rw [← Machine.extend_noDeclarations] at hm
      exact .entries (.done hline) h hdistinct hm
  | @state _ _ name initial hclosed hlexemes =>
    rw [hlexemes] at hline
    cases h with
    | @clauses _ _ _ rest clauses items h hitems hdistinct hhooks hm =>
      let block : StateBlock := ⟨name, initial, clauses, l.peek.location⟩
      change LineOf block.headerLexemes block.location tokens _ at hline
      change Machine.extendFrom _ block.opened block.clauses items = m at hm
      have hblock (hook : Hook) : (block.actions hook).length ≤ 1 := by
        rw [← block.actionsWith_opened]
        exact hhooks hook
      rw [Machine.extendFrom_opened] at hm
      refine of_items hclosed (.item (.state hline h) hitems) ?_ hm
      exact List.forall_mem_cons.mpr ⟨hblock, hdistinct⟩
  | hook hfree hlexemes =>
    rw [hlexemes] at hline
    cases h with
    | clauses h hitems hdistinct hhooks hm =>
      rw [Machine.extendFrom_hook hfree] at hm
      refine .clauses (.hook hline h) hitems hdistinct (fun other ↦ ?_) hm
      rw [← State.actionsWith_withAction hfree]
      exact hhooks other
  | @nested _ s t body hsource hlocation hguard hlexemes =>
    rw [hlexemes, ← hlocation, List.append_assoc] at hline
    change LineOf (t.arc body).nestedLexemes (t.arc body).location tokens rest at hline
    cases h with
    | clauses h hitems hdistinct hhooks hm =>
      rw [← Transition.transition_arc hguard, hsource, Machine.extendFrom_arc] at hm
      exact .clauses (.arc hline h) hitems hdistinct hhooks hm
  | endState hlexemes =>
    rw [hlexemes] at hline
    cases h with
    | items h hdistinct hm =>
      rw [← Machine.extendFrom_nil] at hm
      refine .clauses (.done hline) h hdistinct (fun hook ↦ ?_) hm
      rw [State.actionsWith, List.filterMap_nil, List.append_nil]
      exact Option.length_toList_le
  | @transition _ _ t body hclosed hlocation hguard hlexemes =>
    rw [hlexemes, ← hlocation, List.append_assoc] at hline
    change LineOf ((t.arc body).lexemes t.source) (t.arc body).location tokens rest at hline
    cases h with
    | items h hdistinct hm =>
      rw [← Transition.transition_arc hguard, Machine.extend_transition] at hm
      refine of_items hclosed (.item (.transition hline) h) ?_ hm
      exact List.forall_mem_cons.mpr ⟨trivial, hdistinct⟩

/-- By induction on the number of tokens: the first line is blank, or of the grammar. -/
theorem of_steps (hclosed : b.isClosed) (tokens : List Token) {p : Progress}
    (h : Steps (TokenStream.linesOf last tokens) p ⟨m, b⟩) : Completes m tokens p := by
  obtain ⟨l, more, hlines⟩ := List.exists_cons_of_ne_nil (TokenStream.linesOf_ne_nil last tokens)
  have hsteps := h
  rw [hlines] at hsteps
  cases hsteps with
  | cons hstep hmore =>
    by_cases hblank : l.tokens = []
    · cases hstep.eq_of_blank (Line.lexemes_eq_nil_iff.mpr hblank)
      obtain ⟨after, rfl, ⟨rfl, rfl⟩ | ⟨newline, rest, rfl, hbreak, rfl⟩⟩ :=
        TokenStream.exists_append_of_linesOf hlines
      · cases hmore
        rw [hblank]
        exact of_items hclosed (.done fun t ht ↦ absurd ht List.not_mem_nil)
          (fun item hitem ↦ absurd hitem List.not_mem_nil) Machine.extend_nil
      · have hrest : rest.length < (l.tokens ++ newline :: rest).length := by simp; omega
        rw [hblank]
        exact of_blank hbreak (of_steps hclosed rest hmore)
    · obtain ⟨rest, hline, hrest, hsteps⟩ := exists_lineOf hlines hblank
      exact of_step hstep hline (of_steps hclosed rest (hsteps hmore))
termination_by tokens.length

end Completes

end Grammar

end StateMachine
