import StateMachine.Proofs.Machine.Placement
import StateMachine.Proofs.Simulation.Run

/-!
A run takes the same course wherever the parts of the machine were written: it starts in the same
state, each event leads to the same place and runs the same actions, and so any row of events has
the same outcomes (`Run.trace_unlocated`).
-/

set_option autoImplicit false

namespace StateMachine.Run

open Machine

variable (m : Machine) (run : Run) (event : String) (context payload : Json)

theorem start_unlocated : start m.unlocated context = start m context := by
  rw [start, initialState?_unlocated, start]
  cases m.initialState? <;> rfl

theorem destination_unlocated (state : String) :
    destination m.unlocated state event context = destination m state event context := by
  have hevent : (·.event == event) ∘ Transition.unlocated = (·.event == event) := rfl
  have hguard : (fun t ↦ Guard.evaluateOptional context t.guard) ∘ Transition.unlocated =
      fun t ↦ Guard.evaluateOptional context t.guard := rfl
  rw [destination, destination, isResetEvent_unlocated, initialState?_unlocated,
    outgoing_unlocated, List.filter_map, hevent]
  split
  · cases m.initialState? <;> rfl
  · cases (m.outgoing state).filter (·.event == event) with
    | nil => rfl
    | cons t rest =>
      -- The list has to be seen not to be empty before the search in it is reached.
      rw [List.map_cons]
      dsimp only
      rw [← List.map_cons, List.find?_map, hguard]
      cases (t :: rest).find? fun t ↦ Guard.evaluateOptional context t.guard <;> rfl

theorem actionsBetween_unlocated (source : String) (target : State) (action : Option String) :
    actionsBetween m.unlocated source target.unlocated action =
      actionsBetween m source target action := by
  rw [actionsBetween, state?_unlocated, actionsBetween]
  cases m.state? source <;> rfl

/-- An event is accepted or rejected alike, and leads to the same run. -/
theorem apply_unlocated : run.apply m.unlocated event payload = run.apply m event payload := by
  unfold apply
  dsimp only
  rw [destination_unlocated]
  cases destination m run.state event (run.context.merge payload) with
  | error e => rfl
  | ok result =>
    obtain ⟨target, action⟩ := result
    simp only [bind, Except.bind, state?_unlocated]
    cases m.state? target with
    | none => rfl
    | some next =>
      simp only [Option.map_some, actionsBetween_unlocated]
      rfl

theorem trace_unlocated (events : List (String × Json)) :
    run.trace m.unlocated events = run.trace m events := by
  induction events generalizing run with
  | nil => rfl
  | cons first rest ih => simp only [trace, attempt, apply_unlocated, ih]

end StateMachine.Run
