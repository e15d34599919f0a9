import StateMachine.Machine.Basic

/-!
The states that transitions lead to, guards and events aside. `reachedBy` takes the transitions
whose source has been reached, adds their targets, and goes on with the transitions that are left,
until none of them starts at a state that has been reached.
-/

set_option autoImplicit false

namespace StateMachine

/-- The transitions whose source has been reached. -/
def enabledBy (reached : List String) (transitions : List Transition) : List Transition :=
  transitions.filter fun t ↦ reached.contains t.source

/-- The transitions whose source has not been reached. -/
def blockedBy (reached : List String) (transitions : List Transition) : List Transition :=
  transitions.filter fun t ↦ !reached.contains t.source

theorem length_blockedBy_lt {reached : List String} {transitions : List Transition}
    (h : enabledBy reached transitions ≠ []) :
    (blockedBy reached transitions).length < transitions.length := by
  obtain ⟨t, ht⟩ := List.exists_mem_of_ne_nil _ h
  obtain ⟨hmem, hsource⟩ := List.mem_filter.1 ht
  exact List.length_filter_lt_length_iff_exists.2 ⟨t, hmem, by simpa using hsource⟩

/-- The names reached from those already reached by the transitions that are left. -/
def reachedBy (reached : List String) (left : List Transition) : List String :=
  if h : enabledBy reached left = [] then reached
  else
    have _hshorter := length_blockedBy_lt h
    reachedBy ((enabledBy reached left).map (·.target) ++ reached) (blockedBy reached left)
termination_by left.length

namespace Machine

/-- The names that transitions lead to from a state, the state included. -/
def reachable (m : Machine) (start : String) : List String :=
  reachedBy [start] m.transitions

end Machine

end StateMachine
