import StateMachine.Proofs.Check.Report

/-!
What a rule guarantees when it is silent. The rules on initial states and on undeclared states,
events and commands are silent exactly if what they look for is not there. A check finds no errors
exactly if the rules of errors are silent (`Machine.hasErrors_check_iff_silent`), and so it finds
everything that runs rely on (`Machine.sound_of_check`).
-/

set_option autoImplicit false

namespace StateMachine

/-! ### Errors -/

theorem hasErrors_append (first second : List Diagnostic) :
    hasErrors (first ++ second) = (hasErrors first || hasErrors second) :=
  List.any_append

/-- Diagnostics of errors hold no errors exactly if there are none. -/
theorem hasErrors_eq_false_iff_nil {diagnostics : List Diagnostic}
    (h : ∀ d ∈ diagnostics, d.severity = .error) :
    hasErrors diagnostics = false ↔ diagnostics = [] := by
  constructor
  · intro hnone
    refine List.eq_nil_iff_forall_not_mem.mpr fun d hd ↦ ?_
    exact List.any_eq_false.mp hnone d hd (beq_iff_eq.mpr (h d hd))
  · rintro rfl
    rfl

namespace Machine

namespace AllBy

variable {rule : Rule} {diagnostics : List Diagnostic}

/-- Reports by a rule of errors hold no errors exactly if there are none. -/
theorem hasErrors_eq_false_iff (h : AllBy rule diagnostics) (hrule : rule.severity = .error) :
    hasErrors diagnostics = false ↔ diagnostics = [] :=
  hasErrors_eq_false_iff_nil fun d hd ↦ by rw [Diagnostic.severity, h d hd, hrule]

/-- Reports by a rule of warnings hold no errors. -/
theorem hasErrors_eq_false (h : AllBy rule diagnostics) (hrule : rule.severity = .warning) :
    hasErrors diagnostics = false := by
  refine List.any_eq_false.mpr fun d hd herror ↦ ?_
  rw [Diagnostic.isError, Diagnostic.severity, h d hd, hrule] at herror
  cases herror

end AllBy

variable {m : Machine}

/-! ### Initial states -/

/-- The rule on initial states is silent exactly if one state is marked so. -/
theorem initialProblems_eq_nil_iff : m.initialProblems = [] ↔ ∃ s, m.initialState? = some s := by
  unfold initialProblems initialState?
  cases m.initialStates with
  | nil => simp
  | cons first extra =>
    cases extra with
    | nil => simp
    | cons second more => simp

/-! ### Undeclared states -/

theorem endpointProblem_eq_nil_iff {t : Transition} {endpoint : Endpoint} {name : String} :
    m.endpointProblem t endpoint name = [] ↔ m.hasState name := by
  unfold endpointProblem
  split
  · next h => simp [h]
  · next h => simp [h]

/-- The rule on undeclared states is silent exactly if both states of every transition are
declared. -/
theorem undeclaredStates_eq_nil_iff :
    m.undeclaredStates = [] ↔ ∀ t ∈ m.transitions, m.hasState t.source ∧ m.hasState t.target := by
  simp only [undeclaredStates, List.flatMap_eq_nil_iff, List.append_eq_nil_iff,
    endpointProblem_eq_nil_iff]

/-! ### Undeclared events -/

/-- The rule on events is silent exactly if no events are declared, or all that are used are. -/
theorem undeclaredEvents_eq_nil_iff :
    m.undeclaredEvents = [] ↔ m.events ≠ [] →
      (∀ t ∈ m.transitions, declaredIn m.events t.event) ∧
        ∀ d ∈ m.resetEvents, declaredIn m.events d.name := by
  unfold undeclaredEvents
  split
  · next hempty => simp [List.isEmpty_iff.mp hempty]
  · next hevents =>
    have hne : m.events ≠ [] := fun h ↦ hevents (List.isEmpty_iff.mpr h)
    simp [hne, List.filter_eq_nil_iff]

/-! ### Undeclared commands -/

/-- The rule on commands is silent exactly if no commands are declared, or all actions are. -/
theorem undeclaredCommands_eq_nil_iff :
    m.undeclaredCommands = [] ↔ m.commands ≠ [] →
      (∀ s ∈ m.states, ∀ a ∈ s.actions, declaredIn m.commands a) ∧
        ∀ t ∈ m.transitions, ∀ a ∈ t.action, declaredIn m.commands a := by
  unfold undeclaredCommands
  split
  · next hempty => simp [List.isEmpty_iff.mp hempty]
  · next hcommands =>
    have hne : m.commands ≠ [] := fun h ↦ hcommands (List.isEmpty_iff.mpr h)
    simp [hne, List.filter_eq_nil_iff, List.flatMap_eq_nil_iff]

/-! ### Whole checks -/

theorem severity_of_mem_initialProblems {d : Diagnostic} (h : d ∈ m.initialProblems) :
    d.severity = .error := by
  rw [Diagnostic.severity]
  rcases rule_of_mem_initialProblems h with hrule | hrule
  · rw [hrule]
    rfl
  · rw [hrule]
    rfl

/-- A check finds no errors exactly if the rules of errors are silent; only the rule on competing
transitions may still warn. -/
theorem hasErrors_check_iff_silent (m : Machine) (options : CheckOptions) :
    hasErrors (m.check options) = false ↔
      m.duplicateStates = [] ∧ m.duplicateDeclarations = [] ∧ m.initialProblems = [] ∧
        m.undeclaredStates = [] ∧ m.undeclaredEvents = [] ∧ m.undeclaredCommands = [] ∧
        hasErrors m.competingTransitions = false := by
  have hstates := (allBy_duplicateStates m).hasErrors_eq_false_iff rfl
  have hdeclarations := (allBy_duplicateDeclarations m).hasErrors_eq_false_iff rfl
  have hinitial := hasErrors_eq_false_iff_nil fun _ ↦ severity_of_mem_initialProblems (m := m)
  have hreferences := (allBy_undeclaredStates m).hasErrors_eq_false_iff rfl
  have hevents := (allBy_undeclaredEvents m).hasErrors_eq_false_iff rfl
  have hcommands := (allBy_undeclaredCommands m).hasErrors_eq_false_iff rfl
  have hidle := (allBy_idleTransitions m).hasErrors_eq_false rfl
  have hunreachable := (allBy_optional m options).hasErrors_eq_false rfl
  simp only [check, hasErrors_append, Bool.or_eq_false_iff, hstates, hdeclarations, hinitial,
    hreferences, hevents, hcommands, hidle, hunreachable, and_true, and_assoc]

/-- What a run of a machine relies on. -/
structure Sound (m : Machine) : Prop where
  initial : ∃ s, m.initialState? = some s
  states : ∀ t ∈ m.transitions, m.hasState t.source ∧ m.hasState t.target
  events : m.events ≠ [] → (∀ t ∈ m.transitions, declaredIn m.events t.event) ∧
    ∀ d ∈ m.resetEvents, declaredIn m.events d.name
  commands : m.commands ≠ [] → (∀ s ∈ m.states, ∀ a ∈ s.actions, declaredIn m.commands a) ∧
    ∀ t ∈ m.transitions, ∀ a ∈ t.action, declaredIn m.commands a

/-- A check without errors finds everything that runs rely on. -/
theorem sound_of_check {options : CheckOptions} (h : hasErrors (m.check options) = false) :
    m.Sound := by
  obtain ⟨-, -, hinitial, hstates, hevents, hcommands, -⟩ := (hasErrors_check_iff_silent m _).mp h
  exact ⟨initialProblems_eq_nil_iff.mp hinitial, undeclaredStates_eq_nil_iff.mp hstates,
    undeclaredEvents_eq_nil_iff.mp hevents, undeclaredCommands_eq_nil_iff.mp hcommands⟩

end Machine

end StateMachine
