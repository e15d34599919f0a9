import StateMachine.Check.Rules
import StateMachine.Proofs.Machine.Placement

/-!
A check finds the same problems in the same order wherever the parts of a machine were written; only
the places that it shows are others (`Machine.problems_check_unlocated`).
-/

set_option autoImplicit false

namespace StateMachine

/-! ### Keys that elements share -/

section Keys

variable {α β : Type} {key : β → String} (f : α → β)

theorem repeatedBy_map (seen : List String) (elements : List α) :
    repeatedBy key seen (elements.map f) = (repeatedBy (key ∘ f) seen elements).map f := by
  induction elements generalizing seen with
  | nil => rfl
  | cons x rest ih =>
    simp only [List.map_cons, repeatedBy, Function.comp_apply, ih]
    split <;> rfl

theorem firstBy_map (seen : List String) (elements : List α) :
    firstBy key seen (elements.map f) = (firstBy (key ∘ f) seen elements).map f := by
  induction elements generalizing seen with
  | nil => rfl
  | cons x rest ih =>
    simp only [List.map_cons, firstBy, Function.comp_apply, ih]
    split <;> rfl

end Keys

/-! ### Rule by rule -/

/-- What some diagnostics object to, without the places that they show. -/
def problems (diagnostics : List Diagnostic) : List Problem :=
  diagnostics.map (·.problem)

theorem problems_append (first second : List Diagnostic) :
    problems (first ++ second) = problems first ++ problems second :=
  List.map_append

theorem problems_flatMap {α : Type} (f : α → List Diagnostic) (elements : List α) :
    problems (elements.flatMap f) = elements.flatMap fun x ↦ problems (f x) :=
  List.map_flatMap

namespace Machine

variable (m : Machine)

theorem repeatedBy_name_unlocated (states : List State) :
    repeatedBy State.name [] (states.map State.unlocated) =
      (repeatedBy State.name [] states).map State.unlocated :=
  repeatedBy_map State.unlocated [] states

theorem duplicateStates_unlocated :
    problems m.unlocated.duplicateStates = problems m.duplicateStates := by
  simp only [problems, duplicateStates, states_unlocated, repeatedBy_name_unlocated, List.map_map]
  rfl

theorem duplicatesAmong_unlocated (kind : DeclarationKind) (declarations : List Declaration) :
    problems (duplicatesAmong kind (declarations.map Declaration.unlocated)) =
      problems (duplicatesAmong kind declarations) := by
  simp only [problems, duplicatesAmong, repeatedBy_map, List.map_map]
  rfl

theorem duplicateDeclarations_unlocated :
    problems m.unlocated.duplicateDeclarations = problems m.duplicateDeclarations := by
  simp only [duplicateDeclarations, events_unlocated, resetEvents_unlocated, commands_unlocated,
    problems_append, duplicatesAmong_unlocated]

theorem initialProblems_unlocated :
    problems m.unlocated.initialProblems = problems m.initialProblems := by
  rw [initialProblems, initialStates_unlocated, initialProblems]
  cases m.initialStates with
  | nil => rfl
  | cons first extra =>
    simp only [problems, List.map_cons, List.map_map]
    rfl

theorem endpointProblem_unlocated (t : Transition) (endpoint : Endpoint) (name : String) :
    problems (m.unlocated.endpointProblem t.unlocated endpoint name) =
      problems (m.endpointProblem t endpoint name) := by
  rw [endpointProblem, hasState_unlocated, endpointProblem]
  split <;> rfl

theorem undeclaredStates_unlocated :
    problems m.unlocated.undeclaredStates = problems m.undeclaredStates := by
  have hends (t : Transition) : t.unlocated.source = t.source ∧ t.unlocated.target = t.target :=
    ⟨rfl, rfl⟩
  simp only [undeclaredStates, transitions_unlocated, problems_flatMap, List.flatMap_map,
    problems_append, endpointProblem_unlocated, hends]

theorem declaredIn_unlocated (declarations : List Declaration) (name : String) :
    declaredIn (declarations.map Declaration.unlocated) name = declaredIn declarations name := by
  rw [declaredIn, List.any_map]
  rfl

theorem undeclaredEvents_unlocated :
    problems m.unlocated.undeclaredEvents = problems m.undeclaredEvents := by
  simp only [undeclaredEvents, events_unlocated, resetEvents_unlocated, transitions_unlocated,
    List.isEmpty_map, declaredIn_unlocated, List.filter_map]
  split
  · rfl
  · simp only [problems, List.map_append, List.map_map]
    rfl

theorem undeclaredCommands_unlocated :
    problems m.unlocated.undeclaredCommands = problems m.undeclaredCommands := by
  simp only [undeclaredCommands, commands_unlocated, states_unlocated, transitions_unlocated,
    List.isEmpty_map, declaredIn_unlocated, List.flatMap_map]
  split
  · rfl
  · simp only [problems, List.map_append, List.map_flatMap, List.map_map]
    rfl

theorem competition_unlocated (earlier : List Transition) (t : Transition) :
    problems (competition (earlier.map Transition.unlocated) t.unlocated) =
      problems (competition earlier t) := by
  have hcompetes :
      (·.competesWith t.unlocated) ∘ Transition.unlocated = (·.competesWith t) := rfl
  have hlacks : (·.lacksGuard t.unlocated) ∘ Transition.unlocated = (·.lacksGuard t) := rfl
  have hexcludes :
      (fun u ↦ !u.excludes t.unlocated) ∘ Transition.unlocated = fun u ↦ !u.excludes t := rfl
  simp only [competition, List.filter_map, List.any_map, hcompetes, hlacks, hexcludes]
  split
  · rfl
  · split <;> rfl

theorem competitions_unlocated (earlier later : List Transition) :
    problems (competitions (earlier.map Transition.unlocated) (later.map Transition.unlocated)) =
      problems (competitions earlier later) := by
  induction later generalizing earlier with
  | nil => rfl
  | cons t rest ih =>
    have hearlier : earlier.map Transition.unlocated ++ [t.unlocated] =
        (earlier ++ [t]).map Transition.unlocated := by rw [List.map_append, List.map_singleton]
    simp only [List.map_cons, competitions, problems_append, competition_unlocated, hearlier, ih]

theorem competingTransitions_unlocated :
    problems m.unlocated.competingTransitions = problems m.competingTransitions :=
  competitions_unlocated [] m.transitions

theorem idleTransitions_unlocated :
    problems m.unlocated.idleTransitions = problems m.idleTransitions := by
  simp only [problems, idleTransitions, transitions_unlocated, List.filter_map, List.map_map]
  rfl

theorem unreachableStates_unlocated :
    problems m.unlocated.unreachableStates = problems m.unreachableStates := by
  rw [unreachableStates, initialState?_unlocated, unreachableStates]
  cases m.initialState? with
  | none => rfl
  | some first =>
    have hname : first.unlocated.name = first.name := rfl
    simp only [Option.map_some, hname, reachable_unlocated, states_unlocated, List.filter_map,
      firstBy_map, problems, List.map_map]
    rfl

/-! ### All rules -/

/-- The problems that a check finds do not depend on locations. -/
theorem problems_check_unlocated (options : CheckOptions) :
    problems (m.unlocated.check options) = problems (m.check options) := by
  simp only [check, problems_append, duplicateStates_unlocated, duplicateDeclarations_unlocated,
    initialProblems_unlocated, undeclaredStates_unlocated, undeclaredEvents_unlocated,
    undeclaredCommands_unlocated, competingTransitions_unlocated, idleTransitions_unlocated]
  split
  · rw [unreachableStates_unlocated]
  · rfl

end Machine

end StateMachine
