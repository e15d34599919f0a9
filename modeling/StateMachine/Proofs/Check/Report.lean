import StateMachine.Proofs.Check.Competition

/-!
The reports of one rule. A check lists them in the order of declaration, and every section of a
check holds the reports of one rule, or of two; so the reports of a rule are those of its section
(`Machine.reports_duplicateState`, `Machine.reports_undeclaredState`).
-/

set_option autoImplicit false

namespace StateMachine.Machine

/-- What a check reports by one rule, in order. -/
def reports (m : Machine) (options : CheckOptions) (rule : Rule) : List Diagnostic :=
  (m.check options).filter (·.rule == rule)

variable {m : Machine} {options : CheckOptions} {rule : Rule} {diagnostics : List Diagnostic}
  {d : Diagnostic}

theorem mem_reports_iff : d ∈ m.reports options rule ↔ d ∈ m.check options ∧ d.rule = rule := by
  rw [reports, List.mem_filter, beq_iff_eq]

/-! ### The rules of the sections -/

/-- Reports that are all made by one rule. -/
def AllBy (rule : Rule) (diagnostics : List Diagnostic) : Prop :=
  ∀ d ∈ diagnostics, d.rule = rule

theorem AllBy.filter_self (h : AllBy rule diagnostics) :
    diagnostics.filter (·.rule == rule) = diagnostics :=
  List.filter_eq_self.mpr fun d hd ↦ beq_iff_eq.mpr (h d hd)

theorem AllBy.filter_other {other : Rule} (h : AllBy rule diagnostics) (hne : rule ≠ other) :
    diagnostics.filter (·.rule == other) = [] :=
  List.filter_eq_nil_iff.mpr fun d hd heq ↦ hne ((h d hd).symm.trans (beq_iff_eq.mp heq))

theorem allBy_map {α : Type} {report : α → Diagnostic} {elements : List α}
    (h : ∀ a, (report a).rule = rule) : AllBy rule (elements.map report) := by
  intro d hd
  obtain ⟨a, -, rfl⟩ := List.mem_map.mp hd
  exact h a

theorem AllBy.append {others : List Diagnostic} (h : AllBy rule diagnostics)
    (hothers : AllBy rule others) : AllBy rule (diagnostics ++ others) :=
  List.forall_mem_append.mpr ⟨h, hothers⟩

theorem allBy_flatMap {α : Type} {report : α → List Diagnostic} {elements : List α}
    (h : ∀ a, AllBy rule (report a)) : AllBy rule (elements.flatMap report) := by
  intro d hd
  obtain ⟨a, -, ha⟩ := List.mem_flatMap.mp hd
  exact h a d ha

theorem allBy_nil : AllBy rule [] :=
  List.forall_mem_nil _

theorem allBy_duplicateStates (m : Machine) : AllBy .duplicateState m.duplicateStates :=
  allBy_map fun _ ↦ rfl

theorem allBy_duplicateDeclarations (m : Machine) :
    AllBy .duplicateDeclaration m.duplicateDeclarations := by
  refine AllBy.append (AllBy.append ?_ ?_) ?_
  · exact allBy_map fun _ ↦ rfl
  · exact allBy_map fun _ ↦ rfl
  · exact allBy_map fun _ ↦ rfl

theorem allBy_endpointProblem (m : Machine) (t : Transition) (endpoint : Endpoint)
    (name : String) : AllBy .undeclaredState (m.endpointProblem t endpoint name) := by
  unfold endpointProblem
  split
  · exact allBy_nil
  · intro d hd
    rw [List.mem_singleton.mp hd]
    rfl

theorem allBy_undeclaredStates (m : Machine) : AllBy .undeclaredState m.undeclaredStates :=
  allBy_flatMap fun t ↦
    (m.allBy_endpointProblem t .source t.source).append (m.allBy_endpointProblem t .target t.target)

theorem allBy_undeclaredEvents (m : Machine) : AllBy .undeclaredEvent m.undeclaredEvents := by
  unfold undeclaredEvents
  split
  · exact allBy_nil
  · refine AllBy.append ?_ ?_
    · exact allBy_map fun _ ↦ rfl
    · exact allBy_map fun _ ↦ rfl

theorem allBy_undeclaredCommands (m : Machine) :
    AllBy .undeclaredCommand m.undeclaredCommands := by
  unfold undeclaredCommands
  split
  · exact allBy_nil
  · refine AllBy.append ?_ ?_
    · exact allBy_flatMap fun _ ↦ allBy_map fun _ ↦ rfl
    · exact allBy_flatMap fun _ ↦ allBy_map fun _ ↦ rfl

theorem allBy_idleTransitions (m : Machine) : AllBy .noEffect m.idleTransitions :=
  allBy_map fun _ ↦ rfl

theorem allBy_unreachableStates (m : Machine) :
    AllBy .unreachableState m.unreachableStates := by
  unfold unreachableStates
  split
  · exact allBy_nil
  · exact allBy_map fun _ ↦ rfl

theorem rule_of_mem_initialProblems (h : d ∈ m.initialProblems) :
    d.rule = .missingInitial ∨ d.rule = .multipleInitial := by
  unfold initialProblems at h
  split at h
  · rw [List.mem_singleton.mp h]
    exact Or.inl rfl
  · obtain ⟨s, -, rfl⟩ := List.mem_map.mp h
    exact Or.inr rfl

/-- The section on initial states reports by its two rules only. -/
theorem filter_initialProblems (hmissing : rule ≠ .missingInitial)
    (hmultiple : rule ≠ .multipleInitial) : m.initialProblems.filter (·.rule == rule) = [] := by
  refine List.filter_eq_nil_iff.mpr fun d hd heq ↦ ?_
  have hrule : d.rule = rule := beq_iff_eq.mp heq
  rcases rule_of_mem_initialProblems hd with h | h
  · exact hmissing (hrule.symm.trans h)
  · exact hmultiple (hrule.symm.trans h)

/-- The section on competing transitions reports by its two rules only. -/
theorem filter_competingTransitions (hduplicate : rule ≠ .duplicateTransition)
    (hoverlapping : rule ≠ .overlappingGuards) :
    m.competingTransitions.filter (·.rule == rule) = [] := by
  refine List.filter_eq_nil_iff.mpr fun d hd heq ↦ ?_
  have hrule : d.rule = rule := beq_iff_eq.mp heq
  rcases rule_of_mem_competitions hd with h | h
  · exact hduplicate (hrule.symm.trans h)
  · exact hoverlapping (hrule.symm.trans h)

/-! ### The section of a rule -/

theorem allBy_optional (m : Machine) (options : CheckOptions) :
    AllBy .unreachableState (if options.unreachableStates then m.unreachableStates else []) := by
  split
  · exact allBy_unreachableStates m
  · exact allBy_nil

/-- The section of a check that has the reports of a rule. -/
def sectionOf (m : Machine) (options : CheckOptions) : Rule → List Diagnostic
  | .duplicateState => m.duplicateStates
  | .duplicateDeclaration => m.duplicateDeclarations
  | .missingInitial | .multipleInitial => m.initialProblems
  | .undeclaredState => m.undeclaredStates
  | .undeclaredEvent => m.undeclaredEvents
  | .undeclaredCommand => m.undeclaredCommands
  | .duplicateTransition | .overlappingGuards => m.competingTransitions
  | .noEffect => m.idleTransitions
  | .unreachableState => if options.unreachableStates then m.unreachableStates else []

/-- No other section reports by the rule. -/
theorem reports_eq_filter (m : Machine) (options : CheckOptions) (rule : Rule) :
    m.reports options rule = (m.sectionOf options rule).filter (·.rule == rule) := by
  simp only [reports, check, List.filter_append]
  cases rule <;>
    simp [sectionOf, (allBy_duplicateStates m).filter_other,
      (allBy_duplicateDeclarations m).filter_other, filter_initialProblems,
      (allBy_undeclaredStates m).filter_other, (allBy_undeclaredEvents m).filter_other,
      (allBy_undeclaredCommands m).filter_other, filter_competingTransitions,
      (allBy_idleTransitions m).filter_other, (allBy_optional m options).filter_other]

theorem reports_duplicateState : m.reports options .duplicateState = m.duplicateStates := by
  rw [reports_eq_filter]
  exact (allBy_duplicateStates m).filter_self

theorem reports_undeclaredState : m.reports options .undeclaredState = m.undeclaredStates := by
  rw [reports_eq_filter]
  exact (allBy_undeclaredStates m).filter_self

theorem reports_missingInitial_eq_nil_iff :
    m.reports options .missingInitial = [] ↔ m.initialStates ≠ [] := by
  rw [reports_eq_filter, sectionOf, initialProblems]
  cases m.initialStates with
  | nil => simp [Diagnostic.rule, Problem.rule]
  | cons first extra =>
    have hextra : AllBy .multipleInitial
        (extra.map fun s ↦ (⟨.multipleInitial s.name first.name, s.location⟩ : Diagnostic)) :=
      allBy_map fun _ ↦ rfl
    dsimp only
    rw [hextra.filter_other (by decide)]
    exact iff_of_true rfl (List.cons_ne_nil first extra)

/-- All initial states but the first are reported. -/
theorem length_reports_multipleInitial (m : Machine) (options : CheckOptions) :
    (m.reports options .multipleInitial).length = m.initialStates.length - 1 := by
  rw [reports_eq_filter, sectionOf, initialProblems]
  cases m.initialStates with
  | nil => rfl
  | cons first extra =>
    have hextra : AllBy .multipleInitial
        (extra.map fun s ↦ (⟨.multipleInitial s.name first.name, s.location⟩ : Diagnostic)) :=
      allBy_map fun _ ↦ rfl
    dsimp only
    rw [hextra.filter_self, List.length_map, List.length_cons, Nat.add_sub_cancel]

theorem problem_of_mem_reports (h : d ∈ m.reports options .duplicateTransition) :
    ∃ source event, d.problem = .duplicateTransition source event := by
  have hrule := (mem_reports_iff.mp h).2
  obtain ⟨problem, location⟩ := d
  cases problem <;> cases hrule
  exact ⟨_, _, rfl⟩

/-- A duplicate transition is reported as one that is about its state and its event. -/
theorem exists_reports_duplicateTransition_iff {source event : String} :
    (∃ d ∈ m.reports options .duplicateTransition, d.problem.subject = .transition source event) ↔
      ∃ d ∈ m.competingTransitions, d.problem = .duplicateTransition source event := by
  constructor
  · rintro ⟨d, hd, hsubject⟩
    obtain ⟨_, _, hproblem⟩ := problem_of_mem_reports hd
    rw [hproblem] at hsubject
    cases hsubject
    rw [reports_eq_filter, sectionOf] at hd
    exact ⟨d, (List.mem_filter.mp hd).1, hproblem⟩
  · rintro ⟨d, hmem, hproblem⟩
    have hrule : d.rule = .duplicateTransition := by rw [Diagnostic.rule, hproblem, Problem.rule]
    refine ⟨d, ?_, by rw [hproblem, Problem.subject]⟩
    rw [reports_eq_filter, sectionOf]
    exact List.mem_filter.mpr ⟨hmem, beq_iff_eq.mpr hrule⟩

end StateMachine.Machine
