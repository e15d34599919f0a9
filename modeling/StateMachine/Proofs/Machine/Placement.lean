import StateMachine.Machine.Reachability
import StateMachine.Machine.Summary
import StateMachine.Proofs.Machine.Located

/-!
What is asked of a machine has the same answers wherever its parts were written. A query answers for
a machine without locations what it answers for the machine itself, less the locations; the search
for states and the summary show none and so answer the same (`Machine.reachable_unlocated`,
`Machine.summary_unlocated`).
-/

set_option autoImplicit false

namespace StateMachine

/-! ### The search for states -/

variable {reached : List String} {transitions : List Transition}

theorem enabledBy_unlocated : enabledBy reached (transitions.map Transition.unlocated) =
    (enabledBy reached transitions).map Transition.unlocated := by
  rw [enabledBy, List.filter_map]
  rfl

theorem blockedBy_unlocated : blockedBy reached (transitions.map Transition.unlocated) =
    (blockedBy reached transitions).map Transition.unlocated := by
  rw [blockedBy, List.filter_map]
  rfl

/-- One round of the search. -/
theorem reachedBy_round (h : enabledBy reached transitions ≠ []) :
    reachedBy reached transitions =
      reachedBy ((enabledBy reached transitions).map (·.target) ++ reached)
        (blockedBy reached transitions) := by
  rw [reachedBy, dif_neg h]

theorem reachedBy_unlocated (reached : List String) (transitions : List Transition) :
    reachedBy reached (transitions.map Transition.unlocated) = reachedBy reached transitions := by
  induction reached, transitions using reachedBy.induct with
  | case1 reached left hnone =>
    have hnone' : enabledBy reached (left.map Transition.unlocated) = [] := by
      rw [enabledBy_unlocated, hnone, List.map_nil]
    rw [reachedBy, dif_pos hnone', reachedBy, dif_pos hnone]
  | case2 reached left hsome _ ih =>
    have hsome' : enabledBy reached (left.map Transition.unlocated) ≠ [] := by
      rwa [enabledBy_unlocated, ne_eq, List.map_eq_nil_iff]
    have htargets : ((enabledBy reached left).map Transition.unlocated).map (·.target) =
        (enabledBy reached left).map (·.target) := List.map_map
    rw [reachedBy_round hsome', enabledBy_unlocated, blockedBy_unlocated, htargets, ih,
      ← reachedBy_round hsome]

namespace Machine

variable (m : Machine)

@[simp] theorem name_unlocated : m.unlocated.name = m.name := rfl

@[simp] theorem events_unlocated : m.unlocated.events = m.events.map Declaration.unlocated := rfl

@[simp] theorem resetEvents_unlocated :
    m.unlocated.resetEvents = m.resetEvents.map Declaration.unlocated := rfl

@[simp] theorem commands_unlocated :
    m.unlocated.commands = m.commands.map Declaration.unlocated := rfl

@[simp] theorem states_unlocated : m.unlocated.states = m.states.map State.unlocated := rfl

@[simp] theorem transitions_unlocated :
    m.unlocated.transitions = m.transitions.map Transition.unlocated := rfl

theorem reachable_unlocated (start : String) :
    m.unlocated.reachable start = m.reachable start :=
  reachedBy_unlocated [start] m.transitions

/-! ### Queries -/

theorem state?_unlocated (name : String) :
    m.unlocated.state? name = (m.state? name).map State.unlocated := by
  rw [state?, states_unlocated, List.find?_map]
  rfl

theorem hasState_unlocated (name : String) : m.unlocated.hasState name = m.hasState name := by
  rw [hasState, state?_unlocated, Option.isSome_map, hasState]

theorem initialStates_unlocated :
    m.unlocated.initialStates = m.initialStates.map State.unlocated := by
  rw [initialStates, states_unlocated, List.filter_map]
  rfl

theorem initialState?_unlocated :
    m.unlocated.initialState? = m.initialState?.map State.unlocated := by
  rw [initialState?, initialStates_unlocated, initialState?]
  match m.initialStates with
  | [] => rfl
  | [_] => rfl
  | _ :: _ :: _ => rfl

theorem outgoing_unlocated (state : String) :
    m.unlocated.outgoing state = (m.outgoing state).map Transition.unlocated := by
  rw [outgoing, transitions_unlocated, List.filter_map]
  rfl

theorem isResetEvent_unlocated (event : String) :
    m.unlocated.isResetEvent event = m.isResetEvent event := by
  rw [isResetEvent, resetEvents_unlocated, List.any_map]
  rfl

/-! ### The summary -/

/-- The entries of states and transitions show names and actions only. -/
theorem summary_unlocated : Summary.ofMachine m.unlocated = Summary.ofMachine m := by
  have hstates (entries : List StateSummary) (s : State) :
      Summary.addState entries s.unlocated = Summary.addState entries s := rfl
  have htransitions (entries : List StateSummary) (t : Transition) :
      Summary.addTransition entries t.unlocated = Summary.addTransition entries t := rfl
  simp only [Summary.ofMachine, states_unlocated, transitions_unlocated, List.foldl_map, hstates,
    htransitions]

end Machine

end StateMachine
