import StateMachine.Machine.Basic
import StateMachine.Proofs.Grouping

/-!
What the queries of a machine find. A name is looked up among the declared states
(`Machine.hasState_iff_mem`), the initial state is the only one that is marked so
(`Machine.initialState?_eq_some_iff`), and a state handles the events of the transitions that leave
it (`Machine.mem_eventsFrom_iff`), each of them once and in the order of first appearance
(`Machine.distinctEvents_eq`).
-/

set_option autoImplicit false

namespace StateMachine.Machine

variable {m : Machine} {name : String} {s : State}

/-! ### States by name -/

theorem mem_of_state? (h : m.state? name = some s) : s ∈ m.states :=
  List.mem_of_find?_eq_some h

theorem name_of_state? (h : m.state? name = some s) : s.name = name := by
  simpa using List.find?_some h

theorem hasState_iff : m.hasState name ↔ ∃ s, m.state? name = some s :=
  Option.isSome_iff_exists

theorem hasState_of_mem (h : s ∈ m.states) : m.hasState s.name := by
  rw [hasState, state?, List.find?_isSome]
  exact ⟨s, h, beq_self_eq_true s.name⟩

theorem hasState_iff_mem : m.hasState name ↔ name ∈ m.states.map State.name := by
  simp only [hasState, state?, List.find?_isSome, beq_iff_eq, List.mem_map]

/-! ### The initial state -/

theorem initialState?_eq_some_iff : m.initialState? = some s ↔ m.initialStates = [s] := by
  unfold initialState?
  split
  · next found hfound => simp [hfound]
  · next hseveral => exact iff_of_false (by simp) (hseveral s)

/-- The initial state is a declared one. -/
theorem mem_of_initialState? (h : m.initialState? = some s) : s ∈ m.states := by
  have hmem : s ∈ m.initialStates := by
    rw [initialState?_eq_some_iff.mp h]
    exact List.mem_singleton_self s
  exact (List.mem_filter.mp hmem).1

/-! ### Events of a state -/

/-- The events of transitions, each at its first appearance. -/
theorem distinctEvents_eq (transitions : List Transition) :
    distinctEvents transitions = (transitions.map (·.event)).eraseDups := by
  induction transitions using List.reverseRecOn with
  | nil => rfl
  | append_singleton transitions t ih =>
    have hfold : distinctEvents (transitions ++ [t]) =
        if (distinctEvents transitions).contains t.event then distinctEvents transitions
        else distinctEvents transitions ++ [t.event] := List.foldl_append
    rw [hfold, ih, List.map_append, List.map_singleton, eraseDups_concat]
    refine if_congr ?_ rfl rfl
    rw [List.contains_iff_mem, List.mem_eraseDups]

/-- The events of transitions are those that one of them is labelled with. -/
theorem mem_distinctEvents_iff {transitions : List Transition} {event : String} :
    event ∈ distinctEvents transitions ↔ ∃ t ∈ transitions, t.event = event := by
  rw [distinctEvents_eq, List.mem_eraseDups, List.mem_map]

theorem mem_eventsFrom_iff {state event : String} :
    event ∈ m.eventsFrom state ↔ ∃ t ∈ m.outgoing state, t.event = event :=
  mem_distinctEvents_iff

end StateMachine.Machine
