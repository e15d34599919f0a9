import StateMachine.Proofs.Check.Report
import StateMachine.Proofs.Check.Rules
import StateMachine.Proofs.Except
import StateMachine.Proofs.Python.Handler
import StateMachine.Proofs.Simulation.Run
import StateMachine.Python.Code

/-!
Why a machine is refused. The structure of a machine is examined twice, by the rules of a check and
by the generator of programs, which stops at the first problem and looks at handlers in place of
pairs of transitions. Both see the same problems: the generator's refusal can be read off the
reports of a check (`Python.refusal_agrees`).
-/

set_option autoImplicit false

namespace StateMachine.Python

open Machine

variable {m : Machine} {options : Options} {checks : CheckOptions}

/-! ### Examining some elements one by one -/

theorem forM_cons {α ε : Type} (f : α → Except ε Unit) (a : α) (rest : List α) :
    (a :: rest).forM f = (f a).bind fun _ ↦ rest.forM f := by
  cases h : f a <;> simp [bind, Except.bind, h]

/-- The examination of some elements fails at one of them, or none of them fails. -/
theorem forM_cases {α ε : Type} (f : α → Except ε Unit) (elements : List α) :
    (elements.forM f = .ok () ∧ ∀ a ∈ elements, f a = .ok ()) ∨
      ∃ e, elements.forM f = .error e ∧ ∃ a ∈ elements, f a = .error e := by
  induction elements with
  | nil => exact Or.inl ⟨rfl, List.forall_mem_nil _⟩
  | cons a rest ih =>
    rw [forM_cons]
    cases ha : f a with
    | error e => exact Or.inr ⟨e, rfl, a, List.mem_cons_self, ha⟩
    | ok =>
      rcases ih with ⟨hrest, hall⟩ | ⟨e, hrest, b, hb, herror⟩
      · exact Or.inl ⟨hrest, List.forall_mem_cons.mpr ⟨ha, hall⟩⟩
      · exact Or.inr ⟨e, hrest, b, List.mem_cons_of_mem a hb, herror⟩

/-! ### One check after the other -/

/-- States are refused at the first one that is reported. -/
theorem checkStates_cases (m : Machine) (checks : CheckOptions) :
    (∃ d rest, m.reports checks .duplicateState = d :: rest ∧
        checkStates m = .error (.duplicateState d.problem.identifier)) ∨
      (m.reports checks .duplicateState = [] ∧ checkStates m = .ok ()) := by
  rw [reports_duplicateState, duplicateStates, checkStates]
  cases repeatedBy State.name [] m.states with
  | nil => exact Or.inr ⟨rfl, rfl⟩
  | cons s rest => exact Or.inl ⟨_, _, rfl, rfl⟩

/-- Initial states are refused if there is none, or for their number if there are several. -/
theorem checkInitial_cases (m : Machine) (checks : CheckOptions) :
    (m.reports checks .missingInitial ≠ [] ∧ m.reports checks .multipleInitial = [] ∧
        checkInitial m = .error .noInitialState) ∨
      (m.reports checks .missingInitial = [] ∧ m.reports checks .multipleInitial ≠ [] ∧
        checkInitial m = .error
          (.multipleInitialStates ((m.reports checks .multipleInitial).length + 1))) ∨
      (m.reports checks .missingInitial = [] ∧ m.reports checks .multipleInitial = [] ∧
        checkInitial m = .ok ()) := by
  have hlength := length_reports_multipleInitial m checks
  rw [ne_eq, ne_eq, reports_missingInitial_eq_nil_iff,
    ← List.length_eq_zero_iff (l := m.reports checks .multipleInitial), hlength, checkInitial]
  match m.initialStates with
  | [] => simp
  | [s] => simp
  | s :: t :: rest => simp

/-- The examination of the states of one transition, the source first. -/
def checkEndpoints (m : Machine) (t : Transition) : Except GenerationError Unit :=
  if !m.hasState t.source then .error (.unresolvedState t.source t.event)
  else if !m.hasState t.target then .error (.unresolvedState t.target t.event)
  else .ok ()

/-- The first report is about a state that is not declared and about the event of a transition. -/
def OpensWith (diagnostics : List Diagnostic) (name event : String) : Prop :=
  ∃ d rest source, diagnostics = d :: rest ∧ d.problem.identifier = name ∧
    d.problem.subject = .transition source event

theorem checkEndpoints_cases (t : Transition) :
    (∃ name, OpensWith
          (m.endpointProblem t .source t.source ++ m.endpointProblem t .target t.target)
          name t.event ∧
        checkEndpoints m t = .error (.unresolvedState name t.event)) ∨
      (m.endpointProblem t .source t.source ++ m.endpointProblem t .target t.target = [] ∧
        checkEndpoints m t = .ok ()) := by
  unfold endpointProblem checkEndpoints
  by_cases hsource : m.hasState t.source
  · by_cases htarget : m.hasState t.target
    · exact Or.inr (by simp [hsource, htarget])
    · rw [if_pos hsource, if_neg htarget]
      exact Or.inl ⟨t.target, ⟨_, _, t.source, rfl, rfl, rfl⟩, by simp [hsource, htarget]⟩
  · rw [if_neg hsource]
    exact Or.inl ⟨t.source, ⟨_, _, t.source, rfl, rfl, rfl⟩, by simp [hsource]⟩

/-- References are refused at the first one that is reported. -/
theorem checkReferences_cases (m : Machine) (checks : CheckOptions) :
    (∃ name event, OpensWith (m.reports checks .undeclaredState) name event ∧
        checkReferences m = .error (.unresolvedState name event)) ∨
      (m.reports checks .undeclaredState = [] ∧ checkReferences m = .ok ()) := by
  have hcheck : checkReferences m = m.transitions.forM (checkEndpoints m) := rfl
  rw [reports_undeclaredState, undeclaredStates, hcheck]
  induction m.transitions with
  | nil => exact Or.inr ⟨rfl, rfl⟩
  | cons t rest ih =>
    rw [List.flatMap_cons, forM_cons]
    rcases checkEndpoints_cases (m := m) t with
      ⟨name, ⟨d, more, source, hfirst, hname, hsubject⟩, herror⟩ | ⟨hsilent, hok⟩
    · rw [hfirst, herror]
      exact Or.inl ⟨name, t.event, ⟨d, _, source, rfl, hname, hsubject⟩, rfl⟩
    · rw [hsilent, hok]
      exact ih

/-! ### Ambiguous handlers -/

theorem Handler.isAmbiguous_iff {h : Handler} :
    h.isAmbiguous ↔ 1 < h.transitions.length ∧ ∃ t ∈ h.transitions, t.guard = none := by
  simp only [isAmbiguous, Bool.and_eq_true, decide_eq_true_eq, List.any_eq_true,
    Option.isNone_iff_eq_none]

/-- The handler of an event is ambiguous exactly if a duplicate is reported for it. -/
theorem exists_ambiguous_iff {source event : String} :
    (∃ h ∈ handlers m source, h.isAmbiguous ∧ h.event = event) ↔
      ∃ d ∈ m.competingTransitions, d.problem = .duplicateTransition source event := by
  rw [exists_duplicateTransition_iff]
  constructor
  · rintro ⟨h, hmem, hambiguous, rfl⟩
    obtain ⟨htransitions, -⟩ := Handler.mem_group_iff.mp hmem
    rwa [Handler.isAmbiguous_iff, htransitions] at hambiguous
  · rintro ⟨hlength, hunguarded⟩
    refine ⟨⟨event, (m.outgoing source).filter (·.event == event)⟩, ?_, ?_, rfl⟩
    · refine Handler.mem_group_iff.mpr ⟨rfl, ?_⟩
      exact List.ne_nil_of_length_pos (Nat.zero_lt_of_lt hlength)
    · exact Handler.isAmbiguous_iff.mpr ⟨hlength, hunguarded⟩

/-- A state that has handlers is declared if the sources of all transitions are. -/
theorem exists_state_of_mem_handlers {source : String} {h : Handler}
    (hstates : ∀ t ∈ m.transitions, m.hasState t.source) (hmem : h ∈ handlers m source) :
    ∃ s ∈ m.states, s.name = source := by
  obtain ⟨htransitions, hne⟩ := Handler.mem_group_iff.mp hmem
  obtain ⟨t, ht⟩ := List.exists_mem_of_ne_nil _ hne
  rw [htransitions, outgoing, List.mem_filter, List.mem_filter, beq_iff_eq] at ht
  obtain ⟨s, hs⟩ := hasState_iff.mp (hstates t ht.1.1)
  have hname : s.name = t.source := by simpa using List.find?_some hs
  exact ⟨s, mem_of_state? hs, hname.trans ht.1.2⟩

/-- The examination of the handlers of one state. -/
def checkHandlers (m : Machine) (s : State) : Except GenerationError Unit :=
  match (handlers m s.name).find? Handler.isAmbiguous with
  | some handler => .error (.duplicateTransition s.name handler.event)
  | none => .ok ()

/-- Handlers are refused for a state and an event for which a duplicate is reported. All states
that have handlers have to be declared, since only declared ones are examined. -/
theorem checkTransitions_cases (checks : CheckOptions)
    (hstates : ∀ t ∈ m.transitions, m.hasState t.source) :
    (∃ source event, checkTransitions m = .error (.duplicateTransition source event) ∧
        ∃ d ∈ m.reports checks .duplicateTransition,
          d.problem.subject = .transition source event) ∨
      (m.reports checks .duplicateTransition = [] ∧ checkTransitions m = .ok ()) := by
  have hcheck : checkTransitions m = m.states.forM (checkHandlers m) := rfl
  rw [hcheck]
  rcases forM_cases (checkHandlers m) m.states with ⟨hok, hall⟩ | ⟨e, herror, s, -, hfound⟩
  · refine Or.inr ⟨List.eq_nil_iff_forall_not_mem.mpr fun d hd ↦ ?_, hok⟩
    obtain ⟨source, event, hproblem⟩ := problem_of_mem_reports hd
    obtain ⟨h, hmem, hambiguous, -⟩ := exists_ambiguous_iff.mpr
      (exists_reports_duplicateTransition_iff.mp ⟨d, hd, by rw [hproblem, Problem.subject]⟩)
    obtain ⟨s, hs, rfl⟩ := exists_state_of_mem_handlers hstates hmem
    have hnone := hall s hs
    unfold checkHandlers at hnone
    split at hnone
    · cases hnone
    · next hnot => exact List.find?_eq_none.mp hnot h hmem hambiguous
  · unfold checkHandlers at hfound
    split at hfound
    · next handler hhandler =>
      cases hfound
      refine Or.inl ⟨s.name, handler.event, herror, exists_reports_duplicateTransition_iff.mpr ?_⟩
      exact exists_ambiguous_iff.mp ⟨handler, List.mem_of_find?_eq_some hhandler,
        List.find?_some hhandler, rfl⟩
    · cases hfound

/-! ### The names of a program -/

theorem checkNames_cases (options : Options) (m : Machine) :
    (∃ name generated, checkNames options m = .error (.invalidIdentifier name generated)) ∨
      checkNames options m = .ok () := by
  unfold checkNames
  split
  · exact Or.inl ⟨_, _, rfl⟩
  · exact Or.inr rfl

theorem checkClasses_cases (options : Options) (m : Machine) (earlier names : List String) :
    (∃ first second className, checkClasses options m earlier names =
        .error (.nameCollision first second className)) ∨
      checkClasses options m earlier names = .ok () := by
  induction names generalizing earlier with
  | nil => exact Or.inr rfl
  | cons state rest ih =>
    unfold checkClasses
    dsimp only
    split
    · exact Or.inl ⟨_, _, _, rfl⟩
    · split
      · exact Or.inl ⟨_, _, _, rfl⟩
      · exact ih _

/-! ### All examinations -/

/-- A program is written unless one of the examinations fails. -/
theorem generate_eq (options : Options) (m : Machine) :
    generate options m =
      (checkStates m).bind fun _ ↦ (checkInitial m).bind fun _ ↦ (checkReferences m).bind fun _ ↦
        (checkTransitions m).bind fun _ ↦ (checkNames options m).bind fun _ ↦
          (checkClasses options m [] (m.states.map (·.name))).bind fun _ ↦
            .ok (Code.text options.indentWidth (Program.build options m).code) := by
  unfold generate Program.ofMachine validate
  cases checkStates m <;> cases checkInitial m <;> cases checkReferences m <;>
    cases checkTransitions m <;> cases checkNames options m <;>
    cases checkClasses options m [] (m.states.map (·.name)) <;> rfl

/-- Rules that have nothing to report. -/
def Silent (reports : Rule → List Diagnostic) (rules : List Rule) : Prop :=
  ∀ rule ∈ rules, reports rule = []

/-- What a check reports, by rule, decides whether a machine is refused for its structure and what
for. The rules are asked in this order: a refusal by a later one is only to be expected where the
earlier ones have nothing to report. -/
structure Agrees (reports : Rule → List Diagnostic) (result : Except GenerationError String) :
    Prop where
  duplicateState (name : String) : result = .error (.duplicateState name) ↔
    ∃ d rest, reports .duplicateState = d :: rest ∧ d.problem.identifier = name
  noInitialState (h : Silent reports [.duplicateState]) :
    result = .error .noInitialState ↔ reports .missingInitial ≠ []
  multipleInitialStates (h : Silent reports [.duplicateState]) (count : Nat) :
    result = .error (.multipleInitialStates count) ↔
      reports .multipleInitial ≠ [] ∧ (reports .multipleInitial).length + 1 = count
  unresolvedState (h : Silent reports [.duplicateState, .missingInitial, .multipleInitial])
    (name event : String) : result = .error (.unresolvedState name event) ↔
      OpensWith (reports .undeclaredState) name event
  duplicateTransition
    (h : Silent reports [.duplicateState, .missingInitial, .multipleInitial, .undeclaredState]) :
    (∃ source event, result = .error (.duplicateTransition source event)) ↔
      reports .duplicateTransition ≠ []
  subject
    (h : Silent reports [.duplicateState, .missingInitial, .multipleInitial, .undeclaredState])
    (source event : String) (hresult : result = .error (.duplicateTransition source event)) :
    ∃ d ∈ reports .duplicateTransition, d.problem.subject = .transition source event
  otherwise
    (h : Silent reports [.duplicateState, .missingInitial, .multipleInitial, .undeclaredState,
      .duplicateTransition]) :
    (∃ text, result = .ok text) ∨
      (∃ name generated, result = .error (.invalidIdentifier name generated)) ∨
      ∃ first second className, result = .error (.nameCollision first second className)

/-- A machine is refused for its structure exactly as the reports of a check say. -/
theorem refusal_agrees (options : Options) (checks : CheckOptions) (m : Machine) :
    Agrees (m.reports checks) (generate options m) := by
  rw [generate_eq]
  rcases checkStates_cases m checks with
    ⟨d, rest, hstates, herror⟩ | ⟨hstates, hok⟩
  · rw [herror]
    constructor <;> simp [Except.bind, Silent, hstates]
  rw [hok]
  rcases checkInitial_cases m checks with
    ⟨hmissing, hmultiple, herror⟩ | ⟨hmissing, hmultiple, herror⟩ | ⟨hmissing, hmultiple, hok⟩
  · rw [herror]
    constructor <;> simp [Except.bind, Silent, hstates, hmissing, hmultiple]
  · rw [herror]
    constructor <;> simp [Except.bind, Silent, hstates, hmissing, hmultiple]
  rw [hok]
  rcases checkReferences_cases m checks with
    ⟨name, event, hopens, herror⟩ | ⟨hreferences, hok⟩
  · obtain ⟨d, rest, source, hfirst, hname, hsubject⟩ := hopens
    rw [herror]
    constructor <;> simp [Except.bind, Silent, OpensWith, hstates, hmissing, hmultiple, hfirst,
      hname, hsubject]
  rw [hok]
  have hdeclared : ∀ t ∈ m.transitions, m.hasState t.source := by
    rw [reports_undeclaredState, undeclaredStates_eq_nil_iff] at hreferences
    exact fun t ht ↦ (hreferences t ht).1
  rcases checkTransitions_cases checks hdeclared with
    ⟨source, event, herror, d, hd, hsubject⟩ | ⟨htransitions, hok⟩
  · rw [herror]
    constructor <;> simp [Except.bind, Silent, OpensWith, hstates, hmissing, hmultiple,
      hreferences, List.ne_nil_of_mem hd]
    exact ⟨d, hd, hsubject⟩
  rw [hok]
  -- The structure is sound, so that only names can be in the way.
  rcases checkNames_cases options m with ⟨name, generated, herror⟩ | hok
  · rw [herror]
    constructor <;> simp [Except.bind, Silent, OpensWith, hstates, hmissing, hmultiple,
      hreferences, htransitions]
  rw [hok]
  rcases checkClasses_cases options m [] (m.states.map (·.name)) with
    ⟨first, second, className, herror⟩ | hok
  · rw [herror]
    constructor <;> simp [Except.bind, Silent, OpensWith, hstates, hmissing, hmultiple,
      hreferences, htransitions]
  · rw [hok]
    constructor <;> simp [Except.bind, Silent, OpensWith, hstates, hmissing, hmultiple,
      hreferences, htransitions]

end StateMachine.Python
