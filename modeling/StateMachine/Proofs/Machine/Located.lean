import StateMachine.Machine.Printer
import StateMachine.Proofs.Machine.Printable

/-!
Locations serve messages only. What a line does depends on its lexemes and on what has been read,
but not on locations (`Step.transfer`), so descriptions with the same lexemes are read as machines
that differ in their locations at most (`Steps.transfer`). Such machines are the same
(`Machine.sameAs_of_unlocated_eq`) and have the same canonical text (`Machine.text_unlocated`).
-/

set_option autoImplicit false

namespace StateMachine

/-! ### Descriptions without locations -/

def Declaration.unlocated (d : Declaration) : Declaration :=
  { d with location := .unplaced }

def State.unlocated (s : State) : State :=
  { s with location := .unplaced }

def Transition.unlocated (t : Transition) : Transition :=
  { t with location := .unplaced }

def Machine.unlocated (m : Machine) : Machine where
  name := m.name
  events := m.events.map Declaration.unlocated
  resetEvents := m.resetEvents.map Declaration.unlocated
  commands := m.commands.map Declaration.unlocated
  states := m.states.map State.unlocated
  transitions := m.transitions.map Transition.unlocated

def Block.unlocated : Block → Block
  | .state s => .state s.unlocated
  | b => b

def Progress.unlocated (p : Progress) : Progress :=
  ⟨p.machine.unlocated, p.block.unlocated⟩

namespace State

theorem action?_unlocated (s : State) (hook : Hook) :
    s.unlocated.action? hook = s.action? hook := by
  cases hook <;> rfl

theorem unlocated_withAction (s : State) (hook : Hook) (action : String) :
    (s.withAction hook action).unlocated = s.unlocated.withAction hook action := by
  cases hook <;> rfl

end State

namespace Machine

variable {m n : Machine}

theorem unlocated_unlocated (m : Machine) : m.unlocated.unlocated = m.unlocated := by
  have hdeclaration : Declaration.unlocated ∘ Declaration.unlocated = Declaration.unlocated := rfl
  have hstate : State.unlocated ∘ State.unlocated = State.unlocated := rfl
  have htransition : Transition.unlocated ∘ Transition.unlocated = Transition.unlocated := rfl
  simp only [unlocated, List.map_map, hdeclaration, hstate, htransition]

theorem unlocated_declare (m : Machine) (kind : DeclarationKind) (d : Declaration) :
    (m.declare kind d).unlocated = m.unlocated.declare kind d.unlocated := by
  cases kind <;> simp [unlocated, declare]

theorem unlocated_addState (m : Machine) (s : State) :
    (m.addState s).unlocated = m.unlocated.addState s.unlocated := by
  simp [unlocated, addState]

theorem unlocated_addTransition (m : Machine) (t : Transition) :
    (m.addTransition t).unlocated = m.unlocated.addTransition t.unlocated := by
  simp [unlocated, addTransition]

theorem unlocated_rename (h : m.unlocated = n.unlocated) (name : String) :
    ({ m with name := name } : Machine).unlocated =
      ({ n with name := name } : Machine).unlocated := by
  rw [unlocated, mk.injEq] at h
  obtain ⟨-, hevents, hresets, hcommands, hstates, htransitions⟩ := h
  simp only [unlocated, hevents, hresets, hcommands, hstates, htransitions]

/-! ### Sameness -/

theorem listsAgree_map {α : Type} {agree : α → α → Bool} {f : α → α}
    (h : ∀ x y, agree (f x) (f y) = agree x y) (xs ys : List α) :
    listsAgree agree (xs.map f) (ys.map f) = listsAgree agree xs ys := by
  induction xs generalizing ys with
  | nil => cases ys <;> rfl
  | cons x xs ih =>
    cases ys with
    | nil => rfl
    | cons y ys => simp only [List.map_cons, listsAgree, h, ih]

theorem listsAgree_self {α : Type} {agree : α → α → Bool} {xs : List α}
    (h : ∀ x ∈ xs, agree x x) : listsAgree agree xs xs := by
  induction xs with
  | nil => rfl
  | cons x xs ih =>
    exact Bool.and_eq_true_iff.mpr
      ⟨h x List.mem_cons_self, ih fun y hy ↦ h y (List.mem_cons_of_mem x hy)⟩

/-- Sameness does not look at locations. -/
theorem sameAs_unlocated (m n : Machine) : m.unlocated.sameAs n.unlocated = m.sameAs n := by
  have hdeclaration (d e : Declaration) : d.unlocated.sameAs e.unlocated = d.sameAs e := rfl
  have hstate (s t : State) : s.unlocated.sameAs t.unlocated = s.sameAs t := rfl
  have htransition (t u : Transition) : t.unlocated.sameAs u.unlocated = t.sameAs u := rfl
  simp only [sameAs, unlocated, listsAgree_map hdeclaration, listsAgree_map hstate,
    listsAgree_map htransition]

end Machine

namespace Guard

theorem sameAs_literal {value : Json} (h : isLiteral value) : value.sameAs value := by
  cases value with
  | null => rfl
  | bool b => simp [Json.sameAs]
  | number n =>
    cases n with
    | integer value inRange => cases h
    | double x => simp [Json.sameAs, JsonNumber.sameAs, Numeric.FiniteDouble.sameValue]
  | string s => simp [Json.sameAs]
  | array items => cases h
  | object members => cases h

/-- A printable guard is the same as itself: it holds no bound that is no number. -/
theorem sameAs_self {g : Guard} (h : g.isPrintable) : g.sameAs g := by
  induction g with
  | truthy f => simp [sameAs]
  | equals f value =>
    have hvalue := sameAs_literal (Bool.and_eq_true_iff.mp h).2
    simp [sameAs, hvalue]
  | differs f value =>
    have hvalue := sameAs_literal (Bool.and_eq_true_iff.mp h).2
    simp [sameAs, hvalue]
  | compares f comparison bound =>
    cases bound with
    | finite x => simp [sameAs, Numeric.Double.sameValue, Numeric.FiniteDouble.sameValue]
    | infinite negative => exact absurd h (by simp [isPrintable, Numeric.Double.finite?])
    | notANumber => exact absurd h (by simp [isPrintable, Numeric.Double.finite?])
  | both a b iha ihb =>
    obtain ⟨ha, hb⟩ := Bool.and_eq_true_iff.mp h
    exact Bool.and_eq_true_iff.mpr ⟨iha ha, ihb hb⟩
  | either a b iha ihb =>
    obtain ⟨ha, hb⟩ := Bool.and_eq_true_iff.mp h
    exact Bool.and_eq_true_iff.mpr ⟨iha ha, ihb hb⟩
  | negated a ih => exact ih h

end Guard

namespace Machine

variable {m n : Machine}

theorem Printable.sameAs_self (h : m.Printable) : m.sameAs m := by
  have hdeclarations (ds : List Declaration) : listsAgree Declaration.sameAs ds ds :=
    listsAgree_self fun d _ ↦ by simp [Declaration.sameAs]
  have hstates : listsAgree State.sameAs m.states m.states :=
    listsAgree_self fun s _ ↦ by simp [State.sameAs]
  have htransitions : listsAgree Transition.sameAs m.transitions m.transitions := by
    refine listsAgree_self fun t ht ↦ ?_
    have hprintable := h.transitions t ht
    simp only [Transition.isPrintable, Bool.and_eq_true] at hprintable
    cases hguard : t.guard with
    | none => simp [Transition.sameAs, Transition.sameGuard, hguard]
    | some g =>
      rw [hguard] at hprintable
      have hg := Guard.sameAs_self hprintable.1.2
      simp [Transition.sameAs, Transition.sameGuard, hguard, hg]
  simp [sameAs, hdeclarations, hstates, htransitions]

theorem sameAs_of_unlocated_eq (h : m.unlocated = n.unlocated) (hn : n.Printable) :
    m.sameAs n := by
  rw [← sameAs_unlocated, h, sameAs_unlocated]
  exact hn.sameAs_self

/-- The canonical text does not show locations. -/
theorem text_unlocated (m : Machine) : m.unlocated.text = m.text := by
  have hdeclarations : Declaration.chars ∘ Declaration.unlocated = Declaration.chars := rfl
  have hnames : (fun d ↦ d.name.toList) ∘ Declaration.unlocated = fun d ↦ d.name.toList := rfl
  have hstate (s : State) : s.unlocated.chars = s.chars := rfl
  have htransition (t : Transition) : t.unlocated.chars = t.chars := rfl
  simp only [text, chars, unlocated, List.map_map, List.flatMap_map, hdeclarations, hnames, hstate,
    transitionChars, List.isEmpty_map, htransition]

end Machine

/-! ### Lines without locations -/

namespace Block

variable {b c : Block} {kind : DeclarationKind} {s : State}

theorem eq_beginning (h : b.unlocated = .beginning) : b = .beginning := by
  cases b <;> simp_all [unlocated]

theorem eq_declarations (h : b.unlocated = .declarations kind) : b = .declarations kind := by
  cases b <;> simp_all [unlocated]

theorem exists_state (h : b.unlocated = .state s) :
    ∃ t : State, b = .state t ∧ t.unlocated = s := by
  cases b <;> simp_all [unlocated]

theorem isClosed_unlocated (b : Block) : b.unlocated.isClosed = b.isClosed := by
  cases b <;> rfl

theorem isClosed_of_unlocated_eq (h : b.unlocated = c.unlocated) (hc : c.isClosed) :
    b.isClosed := by
  rw [← isClosed_unlocated, h, isClosed_unlocated]
  exact hc

end Block

namespace Step

open Machine

variable {l l' : Line} {p p' q : Progress}

/-- A line does the same wherever it stands, but for the locations that it leaves. -/
theorem transfer (h : Step l p q) (hlexemes : l'.lexemes = l.lexemes)
    (hp : p'.unlocated = p.unlocated) : ∃ q', Step l' p' q' ∧ q'.unlocated = q.unlocated := by
  obtain ⟨m', b'⟩ := p'
  cases h with
  | blank h => exact ⟨_, .blank (hlexemes.trans h), hp⟩
  | header h =>
    obtain ⟨hm, hb⟩ := Progress.mk.inj hp
    cases Block.eq_beginning hb
    refine ⟨_, .header (hlexemes.trans h), ?_⟩
    simp only [Progress.unlocated, unlocated_rename hm]
  | declarations hclosed h =>
    obtain ⟨hm, hb⟩ := Progress.mk.inj hp
    have hclosed' := Block.isClosed_of_unlocated_eq hb hclosed
    refine ⟨_, .declarations hclosed' (hlexemes.trans h), ?_⟩
    simp only [Progress.unlocated, hm]
  | declaration hcode hlocation h =>
    rename_i m kind d
    obtain ⟨hm, hb⟩ := Progress.mk.inj hp
    cases Block.eq_declarations hb
    have hd : Declaration.unlocated { d with location := l'.peek.location } = d.unlocated := rfl
    refine ⟨_, .declaration (d := { d with location := l'.peek.location }) hcode rfl
      (hlexemes.trans h), ?_⟩
    simp only [Progress.unlocated, unlocated_declare, hm, hd]
  | endDeclarations h =>
    obtain ⟨hm, hb⟩ := Progress.mk.inj hp
    cases Block.eq_declarations hb
    refine ⟨_, .endDeclarations (hlexemes.trans h), ?_⟩
    simp only [Progress.unlocated, hm]
  | state hclosed h =>
    obtain ⟨hm, hb⟩ := Progress.mk.inj hp
    have hclosed' := Block.isClosed_of_unlocated_eq hb hclosed
    refine ⟨_, .state hclosed' (hlexemes.trans h), ?_⟩
    simp only [Progress.unlocated, hm]
    rfl
  | hook hfree h =>
    rename_i m s hook action
    obtain ⟨hm, hb⟩ := Progress.mk.inj hp
    obtain ⟨s', rfl, hs⟩ := Block.exists_state hb
    have hfree' : s'.action? hook = none := by
      rw [← State.action?_unlocated, hs, State.action?_unlocated, hfree]
    refine ⟨_, .hook hfree' (hlexemes.trans h), ?_⟩
    simp only [Progress.unlocated, Block.unlocated, State.unlocated_withAction, hm, hs]
  | nested hsource hlocation hguard h =>
    rename_i m s t body
    obtain ⟨hm, hb⟩ := Progress.mk.inj hp
    obtain ⟨s', rfl, hs⟩ := Block.exists_state hb
    have hname : s'.unlocated.name = s.unlocated.name := by rw [hs]
    have ht : Transition.unlocated { t with location := l'.peek.location } = t.unlocated := rfl
    refine ⟨_, .nested (t := { t with location := l'.peek.location }) (hsource.trans hname.symm) rfl
      hguard (hlexemes.trans h), ?_⟩
    simp only [Progress.unlocated, unlocated_addTransition, hm, ht, hb]
  | endState h =>
    obtain ⟨hm, hb⟩ := Progress.mk.inj hp
    obtain ⟨s', rfl, hs⟩ := Block.exists_state hb
    refine ⟨_, .endState (hlexemes.trans h), ?_⟩
    simp only [Progress.unlocated, unlocated_addState, hm, hs]
  | transition hclosed hlocation hguard h =>
    rename_i m b t body
    obtain ⟨hm, hb⟩ := Progress.mk.inj hp
    have hclosed' := Block.isClosed_of_unlocated_eq hb hclosed
    have ht : Transition.unlocated { t with location := l'.peek.location } = t.unlocated := rfl
    refine ⟨_, .transition (t := { t with location := l'.peek.location }) hclosed' rfl hguard
      (hlexemes.trans h), ?_⟩
    simp only [Progress.unlocated, unlocated_addTransition, hm, ht]

end Step

/-- Lines of the same lexemes lead to the same, but for the locations. -/
theorem Steps.transfer {lines lines' : List Line} {p p' q : Progress} (h : Steps lines p q)
    (hlexemes : lines'.map Line.lexemes = lines.map Line.lexemes)
    (hp : p'.unlocated = p.unlocated) :
    ∃ q', Steps lines' p' q' ∧ q'.unlocated = q.unlocated := by
  induction h generalizing lines' p' with
  | nil =>
    rw [List.map_eq_nil_iff.mp hlexemes]
    exact ⟨p', .nil, hp⟩
  | cons hstep _ ih =>
    obtain ⟨l', rest', rfl, hl, hrest⟩ := List.map_eq_cons_iff.mp hlexemes
    obtain ⟨q', hstep', hq⟩ := hstep.transfer hl hp
    obtain ⟨r', hsteps', hr⟩ := ih hrest hq
    exact ⟨r', .cons hstep' hsteps', hr⟩

end StateMachine
