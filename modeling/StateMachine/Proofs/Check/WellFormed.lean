import StateMachine.Proofs.Check.Rules
import StateMachine.Proofs.Machine.Query

/-!
What a check decides. A machine is well formed if nothing is declared twice, one state is initial,
transitions and actions use what is declared, and transitions that compete have guards. Each rule of
errors is silent exactly if its part of this is so; a check therefore finds no errors exactly in
well-formed machines, whatever it is asked to report (`Machine.hasErrors_check_eq_false_iff`).
-/

set_option autoImplicit false

namespace StateMachine

/-! ### Repeated names -/

/-- Nothing is repeated exactly if the keys are pairwise distinct and none of them was seen. -/
theorem repeatedBy_eq_nil_iff {α : Type} {key : α → String} {seen : List String} {xs : List α} :
    repeatedBy key seen xs = [] ↔ (∀ x ∈ xs, key x ∉ seen) ∧ (xs.map key).Nodup := by
  induction xs generalizing seen with
  | nil => simp [repeatedBy]
  | cons x rest ih =>
    rw [repeatedBy, List.map_cons, List.nodup_cons, List.forall_mem_cons]
    by_cases hseen : key x ∈ seen
    · simp [hseen]
    · rw [if_neg (by simpa using hseen), ih]
      simp only [List.mem_cons, not_or, List.mem_map, not_exists, not_and]
      constructor
      · rintro ⟨hrest, hdistinct⟩
        exact ⟨⟨hseen, fun y hy ↦ (hrest y hy).2⟩, fun y hy ↦ (hrest y hy).1, hdistinct⟩
      · rintro ⟨⟨-, hrest⟩, hfirst, hdistinct⟩
        exact ⟨fun y hy ↦ ⟨hfirst y hy, hrest y hy⟩, hdistinct⟩

namespace Machine

variable {m : Machine}

theorem map_repeatedBy_eq_nil_iff {α β : Type} {key : α → String} {report : α → β} {xs : List α} :
    (repeatedBy key [] xs).map report = [] ↔ (xs.map key).Nodup := by
  rw [List.map_eq_nil_iff, repeatedBy_eq_nil_iff]
  exact and_iff_right fun x _ ↦ List.not_mem_nil

theorem duplicateStates_eq_nil_iff :
    m.duplicateStates = [] ↔ (m.states.map State.name).Nodup :=
  map_repeatedBy_eq_nil_iff

theorem duplicateDeclarations_eq_nil_iff :
    m.duplicateDeclarations = [] ↔ (m.events.map Declaration.name).Nodup ∧
      (m.resetEvents.map Declaration.name).Nodup ∧ (m.commands.map Declaration.name).Nodup := by
  simp only [duplicateDeclarations, duplicatesAmong, List.append_eq_nil_iff,
    map_repeatedBy_eq_nil_iff, and_assoc]

/-! ### Initial states -/

/-- The rule on initial states is silent exactly if one state is marked. -/
theorem initialProblems_eq_nil_iff_countP :
    m.initialProblems = [] ↔ m.states.countP State.initial = 1 := by
  rw [initialProblems_eq_nil_iff, List.countP_eq_length_filter, List.length_eq_one_iff]
  simp only [initialState?_eq_some_iff, initialStates]

/-! ### Declared names -/

theorem declaredIn_iff {declarations : List Declaration} {name : String} :
    declaredIn declarations name ↔ name ∈ declarations.map Declaration.name := by
  simp only [declaredIn, List.any_eq_true, beq_iff_eq, List.mem_map]

/-- The actions of a state are its entry and its exit action. -/
theorem mem_actions_iff {s : State} {action : String} :
    action ∈ s.actions ↔ s.entry = some action ∨ s.exit = some action := by
  rw [State.actions, List.mem_append, Option.mem_toList, Option.mem_toList]

/-! ### Competing transitions -/

/-- The report on a transition is an error unless it and every earlier one that it competes with
have guards. -/
theorem forall_mem_competition_not_isError_iff (earlier : List Transition) (t : Transition) :
    (∀ d ∈ competition earlier t, ¬d.isError) ↔
      ∀ u ∈ earlier, u.competesWith t → u.lacksGuard t = false := by
  rcases competition_cases earlier t with
    ⟨⟨u, hu, hcompetes, hlacks⟩, hreport⟩ | ⟨hguards, -, hreport⟩ | ⟨hcompatible, hreport⟩
  · rw [hreport, List.forall_mem_singleton]
    refine iff_of_false (not_not_intro rfl) fun hall ↦ ?_
    rw [hall u hu hcompetes] at hlacks
    cases hlacks
  · rw [hreport, List.forall_mem_singleton]
    exact iff_of_true Bool.false_ne_true hguards
  · rw [hreport]
    exact iff_of_true (List.forall_mem_nil _) (lacksGuard_of_compatible hcompatible)

/-- The section on competing transitions holds no errors exactly if any two that compete have
guards, whether or not their guards may hold together. -/
theorem hasErrors_competingTransitions_eq_false_iff :
    hasErrors m.competingTransitions = false ↔ m.transitions.Pairwise fun t u ↦
      t.source = u.source → t.event = u.event → t.guard.isSome ∧ u.guard.isSome := by
  rw [hasErrors, List.any_eq_false, competingTransitions,
    forall_mem_competitions_iff [] m.transitions forall_mem_competition_not_isError_iff]
  simp [Transition.competesWith_iff, Transition.lacksGuard_eq_false_iff]

/-! ### Whole checks -/

/-- The machine keeps the rules of machines: names are declared once, one state is initial, what
transitions and actions refer to is declared, and transitions that compete have guards. -/
structure WellFormed (m : Machine) : Prop where
  states : (m.states.map State.name).Nodup
  declarations : (m.events.map Declaration.name).Nodup ∧
    (m.resetEvents.map Declaration.name).Nodup ∧ (m.commands.map Declaration.name).Nodup
  initial : m.states.countP State.initial = 1
  references : ∀ t ∈ m.transitions,
    t.source ∈ m.states.map State.name ∧ t.target ∈ m.states.map State.name
  /-- Without declared events, events are implicit. -/
  events : m.events ≠ [] →
    (∀ t ∈ m.transitions, t.event ∈ m.events.map Declaration.name) ∧
      ∀ r ∈ m.resetEvents, r.name ∈ m.events.map Declaration.name
  /-- Without declared commands, actions are unchecked. -/
  commands : m.commands ≠ [] →
    (∀ s ∈ m.states, ∀ a, s.entry = some a ∨ s.exit = some a →
      a ∈ m.commands.map Declaration.name) ∧
      ∀ t ∈ m.transitions, ∀ a, t.action = some a → a ∈ m.commands.map Declaration.name
  guards : m.transitions.Pairwise fun t u ↦
    t.source = u.source → t.event = u.event → t.guard.isSome ∧ u.guard.isSome

/-- A check finds no errors exactly if the machine is well formed, whatever its options are. -/
theorem hasErrors_check_eq_false_iff (m : Machine) (options : CheckOptions) :
    hasErrors (m.check options) = false ↔ m.WellFormed := by
  rw [hasErrors_check_iff_silent, duplicateStates_eq_nil_iff, duplicateDeclarations_eq_nil_iff,
    initialProblems_eq_nil_iff_countP, undeclaredStates_eq_nil_iff, undeclaredEvents_eq_nil_iff,
    undeclaredCommands_eq_nil_iff, hasErrors_competingTransitions_eq_false_iff]
  simp only [hasState_iff_mem, declaredIn_iff, mem_actions_iff]
  constructor
  · rintro ⟨hstates, hdeclarations, hinitial, hreferences, hevents, hcommands, hguards⟩
    exact ⟨hstates, hdeclarations, hinitial, hreferences, hevents, hcommands, hguards⟩
  · intro h
    exact ⟨h.states, h.declarations, h.initial, h.references, h.events, h.commands, h.guards⟩

end Machine

end StateMachine
