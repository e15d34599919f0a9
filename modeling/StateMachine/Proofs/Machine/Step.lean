import StateMachine.Proofs.Except
import StateMachine.Proofs.Machine.Line

/-!
What a line does. `Step` lists every line that is accepted, with its lexemes and what it adds to
the machine, and reading a line is exactly that relation (`Progress.step_eq_ok_iff`). A description
is read line by line, so reading it is a row of steps (`Progress.foldlM_step_eq_ok_iff`).
-/

set_option autoImplicit false

namespace StateMachine

open LineReader

namespace DeclarationKind

/-- The keyword that opens a block of declarations. -/
def keyword : DeclarationKind → Keyword
  | .event => .events
  | .resetEvent => .resetEvents
  | .command => .commands

end DeclarationKind

namespace Block

/-- Is no block open? -/
def isClosed : Block → Bool
  | .beginning | .none => true
  | _ => false

end Block

/-- A line takes what has been read so far to what has been read with it. -/
inductive Step (l : Line) : Progress → Progress → Prop
  | blank {p : Progress} (h : l.lexemes = []) : Step l p p
  | header {m : Machine} {name : String}
      (h : l.lexemes = [.keyword .machine, .identifier name]) :
      Step l ⟨m, .beginning⟩ ⟨{ m with name := name }, .none⟩
  | declarations {m : Machine} {b : Block} {kind : DeclarationKind} (hclosed : b.isClosed)
      (h : l.lexemes = [.keyword kind.keyword]) : Step l ⟨m, b⟩ ⟨m, .declarations kind⟩
  | declaration {m : Machine} {kind : DeclarationKind} {d : Declaration}
      (hcode : kind.withCode = false → d.code = none) (hlocation : d.location = l.peek.location)
      (h : l.lexemes = .identifier d.name :: (d.code.map Lexeme.identifier).toList) :
      Step l ⟨m, .declarations kind⟩ ⟨m.declare kind d, .declarations kind⟩
  | endDeclarations {m : Machine} {kind : DeclarationKind}
      (h : l.lexemes = [.keyword .endBlock]) : Step l ⟨m, .declarations kind⟩ ⟨m, .none⟩
  | state {m : Machine} {b : Block} {name : String} {initial : Bool} (hclosed : b.isClosed)
      (h : l.lexemes = (if initial then [.keyword .initial] else []) ++
        [.keyword .state, .identifier name]) :
      Step l ⟨m, b⟩ ⟨m, .state ⟨name, initial, none, none, l.peek.location⟩⟩
  | hook {m : Machine} {s : State} {hook : Hook} {action : String}
      (hfree : s.action? hook = none)
      (h : l.lexemes = [.keyword hook.keyword, .identifier action]) :
      Step l ⟨m, .state s⟩ ⟨m, .state (s.withAction hook action)⟩
  | nested {m : Machine} {s : State} {t : Transition} {body : Option String}
      (hsource : t.source = s.name) (hlocation : t.location = l.peek.location)
      (hguard : ReadsGuard body t.guard)
      (h : l.lexemes = [.identifier t.event, .fatArrow, .identifier t.target] ++
        guardLexemes body ++ actionLexemes t.action) :
      Step l ⟨m, .state s⟩ ⟨m.addTransition t, .state s⟩
  | endState {m : Machine} {s : State} (h : l.lexemes = [.keyword .endBlock]) :
      Step l ⟨m, .state s⟩ ⟨m.addState s, .none⟩
  | transition {m : Machine} {b : Block} {t : Transition} {body : Option String}
      (hclosed : b.isClosed) (hlocation : t.location = l.peek.location)
      (hguard : ReadsGuard body t.guard)
      (h : l.lexemes = [.keyword .transition, .identifier t.source, .arrow, .identifier t.target,
        .keyword .on, .identifier t.event] ++ guardLexemes body ++ actionLexemes t.action) :
      Step l ⟨m, b⟩ ⟨m.addTransition t, .none⟩

namespace Progress

variable {l : Line} {m : Machine} {p q : Progress}

/-! ### Every accepted line is a step -/

theorem step_of_stateHeader {b : Block} {s : State} (hclosed : b.isClosed)
    (h : read stateHeader l = .ok s) : Step l ⟨m, b⟩ ⟨m, .state s⟩ := by
  obtain ⟨name, initial, entry, exit, location⟩ := s
  obtain ⟨hlexemes, rfl, rfl, rfl⟩ := read_stateHeader.mp h
  exact .state hclosed hlexemes

theorem step_of_item {b : Block} (hclosed : b.isClosed) (h : item m l = .ok q) :
    Step l ⟨m, b⟩ q := by
  unfold item at h
  extract_lets opening at h
  have hopening (kind : DeclarationKind) (hread : opening kind.keyword kind = .ok q) :
      Step l ⟨m, b⟩ q := by
    obtain ⟨_, hlone, hresult⟩ := bind_eq_ok.mp hread
    cases hresult
    exact .declarations hclosed (read_lone.mp hlone)
  split at h
  · cases h
  · exact hopening .event h
  · exact hopening .resetEvent h
  · exact hopening .command h
  · obtain ⟨s, hstate, hresult⟩ := bind_eq_ok.mp h
    cases hresult
    exact step_of_stateHeader hclosed hstate
  · obtain ⟨s, hstate, hresult⟩ := bind_eq_ok.mp h
    cases hresult
    exact step_of_stateHeader hclosed hstate
  · obtain ⟨t, htransition, hresult⟩ := bind_eq_ok.mp h
    cases hresult
    obtain ⟨hlocation, body, hguard, hlexemes⟩ := read_transition.mp htransition
    exact .transition hclosed hlocation hguard hlexemes
  · cases h

theorem step_of_next (h : p.next l = .ok q) : Step l p q := by
  obtain ⟨m, b⟩ := p
  unfold next at h
  cases b with
  | beginning =>
    dsimp only at h
    split at h
    · obtain ⟨name, hheader, hresult⟩ := bind_eq_ok.mp h
      cases hresult
      exact .header (read_header.mp hheader)
    · exact step_of_item rfl h
  | none => exact step_of_item rfl h
  | declarations kind =>
    dsimp only at h
    split at h
    · obtain ⟨_, hlone, hresult⟩ := bind_eq_ok.mp h
      cases hresult
      exact .endDeclarations (read_lone.mp hlone)
    · obtain ⟨d, hdeclaration, hresult⟩ := bind_eq_ok.mp h
      cases hresult
      obtain ⟨hlexemes, hcode, hlocation⟩ := read_declaration.mp hdeclaration
      exact .declaration hcode hlocation hlexemes
  | state s =>
    dsimp -zeta only at h
    extract_lets clause at h
    have hclause {hook : Hook} (hread : clause hook = .ok q) : Step l ⟨m, .state s⟩ q := by
      obtain ⟨⟨action, location⟩, hhook, hresult⟩ := bind_eq_ok.mp hread
      cases hfree : s.action? hook with
      | some other =>
        simp only [hfree] at hresult
        cases hresult
      | none =>
        simp only [hfree] at hresult
        cases hresult
        exact .hook hfree (read_hookClause.mp hhook).1
    split at h
    · obtain ⟨_, hlone, hresult⟩ := bind_eq_ok.mp h
      cases hresult
      exact .endState (read_lone.mp hlone)
    · exact hclause h
    · exact hclause h
    · obtain ⟨t, hnested, hresult⟩ := bind_eq_ok.mp h
      cases hresult
      obtain ⟨hsource, hlocation, body, hguard, hlexemes⟩ := read_nestedTransition.mp hnested
      exact .nested hsource hlocation hguard hlexemes
    · cases h

/-! ### Every step is an accepted line -/

theorem step_of_lexemes {lexeme : Lexeme} {more : List Lexeme} (h : l.lexemes = lexeme :: more) :
    p.step l = p.next l := by
  have hne : l.tokens.isEmpty = false := by
    rw [Bool.eq_false_iff, ne_eq, List.isEmpty_iff, ← Line.lexemes_eq_nil_iff, h]
    exact List.cons_ne_nil lexeme more
  rw [step, hne, if_neg Bool.false_ne_true]

theorem next_of_isClosed {b : Block} (hclosed : b.isClosed)
    (h : l.peek.lexeme ≠ .keyword .machine) : next ⟨m, b⟩ l = item m l := by
  cases b with
  | beginning => simp only [next, h, if_false]
  | none => rfl
  | declarations kind => cases hclosed
  | state s => cases hclosed

theorem step_of_isClosed {b : Block} {word : Keyword} {more : List Lexeme} (hclosed : b.isClosed)
    (h : l.lexemes = .keyword word :: more) (hword : word ≠ .machine) :
    step ⟨m, b⟩ l = item m l := by
  have hpeek : l.peek.lexeme ≠ .keyword .machine := by
    rw [Line.peek_lexeme h]
    exact fun heq ↦ hword (Lexeme.keyword.inj heq)
  rw [step_of_lexemes h, next_of_isClosed hclosed hpeek]

theorem step_eq_ok (h : Step l p q) : p.step l = .ok q := by
  cases h with
  | blank h =>
    rw [step, List.isEmpty_iff.mpr (Line.lexemes_eq_nil_iff.mp h), if_pos rfl]
  | header h =>
    rw [step_of_lexemes h]
    simp only [next, Line.peek_lexeme h, if_true, read_header.mpr h]
    rfl
  | declarations hclosed h =>
    rename_i kind
    have hlone := read_lone (u := ()).mpr h
    rw [step_of_isClosed hclosed h (by cases kind <;> decide)]
    simp only [item, Line.peek_lexeme h]
    cases kind <;> exact bind_eq_ok.mpr ⟨(), hlone, rfl⟩
  | declaration hcode hlocation h =>
    rw [step_of_lexemes h]
    simp only [next, Line.peek_lexeme h]
    rw [if_neg (by simp)]
    exact bind_eq_ok.mpr ⟨_, read_declaration.mpr ⟨h, hcode, hlocation⟩, rfl⟩
  | endDeclarations h =>
    rw [step_of_lexemes h]
    simp only [next, Line.peek_lexeme h, if_true]
    exact bind_eq_ok.mpr ⟨(), read_lone.mpr h, rfl⟩
  | state hclosed h =>
    rename_i m b name initial
    have hstate := read_stateHeader (s := ⟨name, initial, none, none, l.peek.location⟩).mpr
      ⟨h, rfl, rfl, rfl⟩
    have hitem : item m l = .ok ⟨m, .state ⟨name, initial, none, none, l.peek.location⟩⟩ := by
      cases initial <;> simp only [item, Line.peek_lexeme h] <;>
        exact bind_eq_ok.mpr ⟨_, hstate, rfl⟩
    rw [← hitem]
    cases initial <;> exact step_of_isClosed hclosed h (by decide)
  | hook hfree h =>
    rename_i m s hook action
    have hhook := read_hookClause.mpr ⟨h, rfl⟩
    rw [step_of_lexemes h]
    cases hook with
    | entry =>
      simp only [next, Line.peek_lexeme h, Hook.keyword]
      exact bind_eq_ok.mpr ⟨_, hhook, by simp only [hfree]; rfl⟩
    | exit =>
      simp only [next, Line.peek_lexeme h, Hook.keyword]
      exact bind_eq_ok.mpr ⟨_, hhook, by simp only [hfree]; rfl⟩
  | nested hsource hlocation hguard h =>
    rw [step_of_lexemes h]
    simp only [next, Line.peek_lexeme h]
    exact bind_eq_ok.mpr ⟨_, read_nestedTransition.mpr ⟨hsource, hlocation, _, hguard, h⟩, rfl⟩
  | endState h =>
    rw [step_of_lexemes h]
    simp only [next, Line.peek_lexeme h]
    exact bind_eq_ok.mpr ⟨(), read_lone.mpr h, rfl⟩
  | transition hclosed hlocation hguard h =>
    rw [step_of_isClosed hclosed h (by decide)]
    simp only [item, Line.peek_lexeme h]
    exact bind_eq_ok.mpr ⟨_, read_transition.mpr ⟨hlocation, _, hguard, h⟩, rfl⟩

/-- Reading a line is taking a step. -/
theorem step_eq_ok_iff : p.step l = .ok q ↔ Step l p q := by
  refine ⟨fun h ↦ ?_, step_eq_ok⟩
  unfold step at h
  split at h
  · next hempty =>
    cases h
    exact .blank (Line.lexemes_eq_nil_iff.mpr (List.isEmpty_iff.mp hempty))
  · exact step_of_next h

end Progress

/-! ### Rows of steps -/

/-- The lines, one after the other, take what has been read so far to what has been read at last. -/
inductive Steps : List Line → Progress → Progress → Prop
  | nil {p : Progress} : Steps [] p p
  | cons {l : Line} {lines : List Line} {p q r : Progress} (h : Step l p q)
      (hrest : Steps lines q r) : Steps (l :: lines) p r

namespace Steps

variable {lines others : List Line} {p q r : Progress}

theorem append (h : Steps lines p q) (hothers : Steps others q r) :
    Steps (lines ++ others) p r := by
  induction h with
  | nil => exact hothers
  | cons hstep _ ih => exact .cons hstep (ih hothers)

/-- What every step preserves, a row of steps preserves. -/
theorem invariant {property : Progress → Prop}
    (hstep : ∀ l ∈ lines, ∀ {p q}, Step l p q → property p → property q)
    (h : Steps lines p q) (hp : property p) : property q := by
  induction h with
  | nil => exact hp
  | cons hfirst _ ih =>
    exact ih (fun l hl ↦ hstep l (List.mem_cons_of_mem _ hl))
      (hstep _ List.mem_cons_self hfirst hp)

end Steps

/-- Reading lines is a row of steps. -/
theorem Progress.foldlM_step_eq_ok_iff {lines : List Line} {p q : Progress} :
    lines.foldlM Progress.step p = .ok q ↔ Steps lines p q := by
  induction lines generalizing p with
  | nil =>
    rw [List.foldlM_nil, pure_eq_ok]
    constructor
    · rintro rfl
      exact .nil
    · intro h
      cases h
      rfl
  | cons l lines ih =>
    simp only [List.foldlM_cons, bind_eq_ok, ih, Progress.step_eq_ok_iff]
    constructor
    · rintro ⟨middle, hstep, hrest⟩
      exact .cons hstep hrest
    · intro h
      cases h with
      | cons hstep hrest => exact ⟨_, hstep, hrest⟩

/-- A machine is what the lines of a text lead to, no block being open at its end. -/
theorem Machine.parseNamed_eq_ok_iff {name text : String} {m : Machine} :
    parseNamed name text = .ok m ↔
      ∃ stream block, TokenStream.scan text = .ok stream ∧ block.isClosed ∧
        Steps stream.lines ⟨empty (Identifier.repair name), .beginning⟩ ⟨m, block⟩ := by
  simp only [parseNamed, ofTokens, bind_eq_ok, Progress.foldlM_step_eq_ok_iff]
  constructor
  · rintro ⟨stream, hscan, ⟨final, block⟩, hsteps, hclose⟩
    cases block with
    | beginning =>
      cases hclose
      exact ⟨stream, _, hscan, rfl, hsteps⟩
    | none =>
      cases hclose
      exact ⟨stream, _, hscan, rfl, hsteps⟩
    | declarations kind => cases hclose
    | state s => cases hclose
  · rintro ⟨stream, block, hscan, hclosed, hsteps⟩
    refine ⟨stream, hscan, ⟨m, block⟩, hsteps, ?_⟩
    cases block with
    | beginning => rfl
    | none => rfl
    | declarations kind => cases hclosed
    | state s => cases hclosed

end StateMachine
