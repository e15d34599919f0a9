import StateMachine.Proofs.Simulation.Run

/-!
Rejected events leave no trace. A program that changes the current run in place changes it once
nothing can fail any more, so a rejected event leaves it as it was (`Run.run_applyInPlace`). Without
the rejected events of a row the accepted ones have the same outcomes and the run ends the same
(`Run.trace_accepted`, `Run.behind_accepted`). The steps of the accepted events lead from the
initial state to the current one, each from where the one before it ended (`Run.chain_steps`), and a
reset event is accepted everywhere (`Run.apply_of_isResetEvent`). A run that has been started keeps
to all of this along every row of events (`Run.orderly_of_start`).
-/

set_option autoImplicit false

namespace StateMachine.Run

open Machine

/-- The run behind some events. -/
def behind (m : Machine) (run : Run) (events : List (String × Json)) : Run :=
  events.foldl (fun run event ↦ (attempt m run event.1 event.2).after) run

/-- The steps of the events that are accepted. -/
def steps (m : Machine) (run : Run) (events : List (String × Json)) : List SimulationStep :=
  (run.trace m events).filterMap (·.result.toOption)

/-- The events that are accepted, with their payloads. -/
def accepted (m : Machine) (run : Run) (events : List (String × Json)) : List (String × Json) :=
  ((events.zip (run.trace m events)).filter (·.2.result.isOk)).map (·.1)

/-- Steps that lead from one state to another, each from where the one before it ended. -/
def Chain : String → List SimulationStep → String → Prop
  | source, [], target => source = target
  | source, step :: rest, target => step.source = source ∧ Chain step.target rest target

variable {m : Machine} {run next : Run} {event : String} {payload : Json} {step : SimulationStep}
  {e : SimulationError} {events : List (String × Json)}

/-! ### One event in place -/

/-- Applies an event to the current run and changes it in place, first the state and then the
context. -/
def applyInPlace (m : Machine) (event : String) (payload : Json) :
    ExceptT SimulationError (StateM Run) SimulationStep := do
  let run ← get
  let context := run.context.merge payload
  let (target, action) ← liftExcept (destination m run.state event context)
  match m.state? target with
  | none => throw (.unknownState target)
  | some next =>
    let step := ⟨event, run.state, next.name, actionsBetween m run.state next action⟩
    modify fun current ↦ { current with state := next.name }
    modify fun current ↦ { current with context := context }
    return step

/-- In place an event has the same outcome, and leaves the run that the outcome has. -/
theorem run_applyInPlace : (applyInPlace m event payload).run run =
    ((attempt m run event payload).result, (attempt m run event payload).after) := by
  have hget {α : Type} (f : Run → ExceptT SimulationError (StateM Run) α) :
      (get >>= f).run run = (f run).run run := rfl
  have hlift {α β : Type} (a : α) (f : α → ExceptT SimulationError (StateM Run) β) :
      (liftExcept (.ok a : Except SimulationError α) >>= f).run run = (f a).run run := rfl
  unfold attempt apply applyInPlace
  rw [hget]
  dsimp only
  cases destination m run.state event (run.context.merge payload) with
  | error e => rfl
  | ok result =>
    rw [hlift]
    simp only [bind, Except.bind]
    cases m.state? result.1 with
    | none => rfl
    | some next => rfl

theorem eq_of_applyInPlace_eq_error
    (h : (applyInPlace m event payload).run run = (.error e, next)) : next = run := by
  rw [run_applyInPlace] at h
  rcases attempt_cases m run event payload with ⟨_, -, hattempt⟩ | ⟨step, _, -, hattempt⟩
  · rw [hattempt] at h
    cases h
    rfl
  · rw [hattempt] at h
    cases h

/-! ### One event in front of others -/

section Rejected

variable (h : attempt m run event payload = ⟨.error e, run⟩)

include h

theorem trace_of_rejected : run.trace m ((event, payload) :: events) =
    ⟨.error e, run⟩ :: run.trace m events := by
  simp only [trace, h]

theorem behind_of_rejected : run.behind m ((event, payload) :: events) = run.behind m events := by
  simp only [behind, List.foldl_cons, h]

theorem steps_of_rejected : run.steps m ((event, payload) :: events) = run.steps m events := by
  rw [steps, trace_of_rejected h]
  rfl

theorem accepted_of_rejected :
    run.accepted m ((event, payload) :: events) = run.accepted m events := by
  rw [accepted, trace_of_rejected h]
  rfl

end Rejected

section Accepted

variable (h : attempt m run event payload = ⟨.ok step, next⟩)

include h

theorem trace_of_accepted : run.trace m ((event, payload) :: events) =
    ⟨.ok step, next⟩ :: next.trace m events := by
  simp only [trace, h]

theorem behind_of_accepted : run.behind m ((event, payload) :: events) = next.behind m events := by
  simp only [behind, List.foldl_cons, h]

theorem steps_of_accepted :
    run.steps m ((event, payload) :: events) = step :: next.steps m events := by
  rw [steps, trace_of_accepted h]
  rfl

theorem accepted_of_accepted :
    run.accepted m ((event, payload) :: events) = (event, payload) :: next.accepted m events := by
  rw [accepted, trace_of_accepted h]
  rfl

end Accepted

/-! ### Rows of events -/

theorem behind_append_singleton : run.behind m (events ++ [(event, payload)]) =
    (attempt m (run.behind m events) event payload).after := by
  rw [behind, List.foldl_append]
  rfl

/-- What holds of a row of events follows from what holds of the rest of it, behind a rejected event
for the same run and behind an accepted one for the next. -/
@[elab_as_elim]
theorem row_induction {motive : Run → List (String × Json) → Prop} (nil : ∀ run, motive run [])
    (rejected : ∀ {run event payload e rest}, attempt m run event payload = ⟨.error e, run⟩ →
      motive run rest → motive run ((event, payload) :: rest))
    (accepted : ∀ {run event payload step next rest},
      run.apply m event payload = .ok (step, next) →
      attempt m run event payload = ⟨.ok step, next⟩ → motive next rest →
      motive run ((event, payload) :: rest))
    (run : Run) (events : List (String × Json)) : motive run events := by
  induction events generalizing run with
  | nil => exact nil run
  | cons first rest ih =>
    rcases attempt_cases m run first.1 first.2 with ⟨e, -, h⟩ | ⟨step, next, happly, h⟩
    · exact rejected h (ih run)
    · exact accepted happly h (ih next)

/-- The accepted events alone have the outcomes that they have among the others. -/
theorem trace_accepted (m : Machine) (run : Run) (events : List (String × Json)) :
    run.trace m (run.accepted m events) = (run.trace m events).filter (·.result.isOk) := by
  induction run, events using row_induction (m := m) with
  | nil => rfl
  | rejected h ih =>
    rw [accepted_of_rejected h, trace_of_rejected h, ih]
    rfl
  | accepted _ h ih =>
    rw [accepted_of_accepted h, trace_of_accepted h, trace_of_accepted h, ih]
    rfl

theorem behind_accepted (m : Machine) (run : Run) (events : List (String × Json)) :
    run.behind m (run.accepted m events) = run.behind m events := by
  induction run, events using row_induction (m := m) with
  | nil => rfl
  | rejected h ih => rw [accepted_of_rejected h, behind_of_rejected h, ih]
  | accepted _ h ih =>
    rw [accepted_of_accepted h, behind_of_accepted h, behind_of_accepted h, ih]

/-- Only accepted events have steps. -/
theorem steps_accepted (m : Machine) (run : Run) (events : List (String × Json)) :
    run.steps m (run.accepted m events) = run.steps m events := by
  induction run, events using row_induction (m := m) with
  | nil => rfl
  | rejected h ih => rw [accepted_of_rejected h, steps_of_rejected h, ih]
  | accepted _ h ih => rw [accepted_of_accepted h, steps_of_accepted h, steps_of_accepted h, ih]

/-- A step leads from the current state to the next one. -/
theorem ends_of_apply (h : run.apply m event payload = .ok (step, next)) :
    step.source = run.state ∧ step.target = next.state := by
  obtain ⟨target, action, s, -, -, rfl, rfl⟩ := apply_eq_ok_iff.mp h
  exact ⟨rfl, rfl⟩

/-- The steps of a run lead from where it starts to where it is. -/
theorem chain_steps (m : Machine) (run : Run) (events : List (String × Json)) :
    Chain run.state (run.steps m events) (run.behind m events).state := by
  induction run, events using row_induction (m := m) with
  | nil => rfl
  | rejected h ih =>
    rw [steps_of_rejected h, behind_of_rejected h]
    exact ih
  | accepted happly h ih =>
    obtain ⟨hsource, htarget⟩ := ends_of_apply happly
    rw [steps_of_accepted h, behind_of_accepted h]
    refine ⟨hsource, ?_⟩
    rw [htarget]
    exact ih

/-! ### Reset events -/

/-- A reset event leads to the initial state from everywhere, transitions on it notwithstanding. -/
theorem apply_of_isResetEvent {first : State} (hfirst : m.initialState? = some first)
    (hreset : m.isResetEvent event) (run : Run) (payload : Json) :
    ∃ step, run.apply m event payload = .ok (step, ⟨first.name, run.context.merge payload⟩) ∧
      step.source = run.state ∧ step.target = first.name := by
  obtain ⟨s, hs⟩ := hasState_iff.mp (hasState_of_mem (mem_of_initialState? hfirst))
  have hdestination : destination m run.state event (run.context.merge payload) =
      .ok (first.name, none) := by
    rw [destination, if_pos hreset, hfirst]
  have happly := apply_eq_ok_iff.mpr ⟨_, _, s, hdestination, hs, rfl, rfl⟩
  rw [name_of_state? hs] at happly
  exact ⟨_, happly, rfl, rfl⟩

/-! ### Started runs -/

/-- What a run that started in a state keeps to along a row of events. -/
structure Orderly (m : Machine) (first : State) (run : Run) (events : List (String × Json)) :
    Prop where
  /-- The program that changes the run in place does to it what the next event of the row does. -/
  inPlace (event : String) (payload : Json) :
    (applyInPlace m event payload).run (run.behind m events) =
      ((attempt m (run.behind m events) event payload).result,
        run.behind m (events ++ [(event, payload)]))
  /-- A rejected event leaves the current state and the context as they were. -/
  rejected (event : String) (payload : Json) (e : SimulationError) (after : Run)
    (h : (applyInPlace m event payload).run (run.behind m events) = (.error e, after)) :
    after = run.behind m events
  /-- Without the rejected events the others have the outcomes that they had. -/
  remaining : run.trace m (run.accepted m events) = (run.trace m events).filter (·.result.isOk)
  steps : run.steps m (run.accepted m events) = run.steps m events
  ending : run.behind m (run.accepted m events) = run.behind m events
  /-- The steps lead from the initial state to the current one. -/
  chain : Chain first.name (run.steps m events) (run.behind m events).state
  /-- A reset event is accepted and leads to the initial state. -/
  reset (event : String) (payload : Json) (h : m.isResetEvent event) :
    ∃ step, (attempt m (run.behind m events) event payload).result = .ok step ∧
      step.target = first.name ∧
      (attempt m (run.behind m events) event payload).after.state = first.name

/-- A run that has been started keeps to this whatever the events and their payloads are: rejected
events leave no trace, accepted ones form a chain and reset events lead back. -/
theorem orderly_of_start {context : Json} (h : start m context = .ok run) :
    ∃ first, m.initialStates = [first] ∧ ∀ events, Orderly m first run events := by
  obtain ⟨first, hfirst, rfl⟩ := start_eq_ok_iff.mp h
  refine ⟨first, initialState?_eq_some_iff.mp hfirst, fun events ↦ ?_⟩
  refine
    { inPlace := fun event payload ↦ ?_
      rejected := fun event payload e after hrejected ↦ eq_of_applyInPlace_eq_error hrejected
      remaining := trace_accepted m _ events
      steps := steps_accepted m _ events
      ending := behind_accepted m _ events
      chain := chain_steps m ⟨first.name, context⟩ events
      reset := fun event payload hreset ↦ ?_ }
  · rw [run_applyInPlace, behind_append_singleton]
  · obtain ⟨step, happly, -, htarget⟩ := apply_of_isResetEvent hfirst hreset _ payload
    exact ⟨step, by rw [attempt, happly], htarget, by rw [attempt, happly]⟩

/-- A kiln that fires once it is closed, with a transition into a state that is not declared and a
transition on its reset event that is never taken. -/
def kiln : Machine where
  name := "Kiln"
  events := []
  resetEvents := [⟨"halt", none, .unplaced⟩]
  commands := []
  states := [⟨"Cold", true, none, some "close", .unplaced⟩,
    ⟨"Firing", false, some "ignite", none, .unplaced⟩]
  transitions := [⟨"Cold", "Firing", "fire", some (.truthy "closed"), none, .unplaced⟩,
    ⟨"Firing", "Firing", "halt", none, some "roar", .unplaced⟩,
    ⟨"Firing", "Molten", "fire", none, none, .unplaced⟩]

/-- Of these events the second, the fourth and the last are accepted: the guard does not hold for
the first, the third leads nowhere and no transition is labelled with the fifth. -/
def kilnEvents : List (String × Json) :=
  [("fire", .object [("closed", .bool false)]), ("fire", .object [("closed", .bool true)]),
    ("fire", .null), ("halt", .null), ("open", .object [("closed", .null)]), ("halt", .bool true)]

theorem orderly_kiln : start kiln .null = .ok ⟨"Cold", .null⟩ ∧
    kiln.initialStates = [⟨"Cold", true, none, some "close", .unplaced⟩] ∧
    steps kiln ⟨"Cold", .null⟩ kilnEvents = [⟨"fire", "Cold", "Firing", ["close", "ignite"]⟩,
      ⟨"halt", "Firing", "Cold", []⟩, ⟨"halt", "Cold", "Cold", []⟩] ∧
    Orderly kiln ⟨"Cold", true, none, some "close", .unplaced⟩ ⟨"Cold", .null⟩ kilnEvents := by
  have hstart : start kiln .null = .ok ⟨"Cold", .null⟩ := rfl
  have hinitial : kiln.initialStates = [⟨"Cold", true, none, some "close", .unplaced⟩] := by decide
  obtain ⟨first, hfirst, horderly⟩ := orderly_of_start hstart
  cases hinitial.symm.trans hfirst
  exact ⟨hstart, hinitial, by decide +kernel, horderly kilnEvents⟩

end StateMachine.Run
