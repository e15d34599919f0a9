import StateMachine.Proofs.Machine.Query
import StateMachine.Simulation

/-!
What an event can do to a run. An event is accepted exactly if it has a destination and that is a
declared state (`Run.apply_eq_ok_iff`); a rejected event leaves the run as it was, so that any row
of events has a trace (`Run.trace`), and what every event preserves holds along the whole trace
(`Run.forall_mem_trace`).
-/

set_option autoImplicit false

namespace StateMachine.Run

open Machine

variable {m : Machine} {run next : Run} {event state : String} {context payload : Json}
  {step : SimulationStep} {e : SimulationError}

/-- A run starts exactly if one state is initial, and starts there. -/
theorem start_eq_ok_iff :
    start m context = .ok run ↔
      ∃ first, m.initialState? = some first ∧ run = ⟨first.name, context⟩ := by
  unfold start
  cases m.initialState? with
  | none => simp
  | some first => simp [eq_comm]

/-! ### Destinations -/

/-- A reset event leads to the initial state, any other event along a transition. -/
theorem destination_eq_ok {target : String} {action : Option String}
    (h : destination m state event context = .ok (target, action)) :
    (m.isResetEvent event ∧ action = none ∧ ∃ s, m.initialState? = some s ∧ target = s.name) ∨
      (m.isResetEvent event = false ∧ ∃ t ∈ m.outgoing state, t.event = event ∧
        Guard.evaluateOptional context t.guard ∧ target = t.target ∧ action = t.action) := by
  unfold destination at h
  split at h
  · next hreset =>
    split at h
    · next s hs =>
      cases h
      exact Or.inl ⟨hreset, rfl, s, hs, rfl⟩
    · cases h
  · next hreset =>
    split at h
    · cases h
    · split at h
      · next t ht =>
        cases h
        have hmem := List.mem_filter.mp (List.mem_of_find?_eq_some ht)
        have hguard : Guard.evaluateOptional context t.guard := by simpa using List.find?_some ht
        exact Or.inr ⟨Bool.eq_false_iff.mpr hreset, t, hmem.1, by simpa using hmem.2, hguard, rfl,
          rfl⟩
      · cases h

/-- There is no destination without an initial state to lead back to, without a transition, or
without a guard that holds. -/
theorem destination_eq_error (h : destination m state event context = .error e) :
    (e = .noInitialState ∧ m.isResetEvent event ∧ m.initialState? = none) ∨
      e = .invalidTransition state event ∨ e = .guardFailed state event := by
  unfold destination at h
  split at h
  · next hreset =>
    split at h
    · cases h
    · next hnone =>
      cases h
      exact Or.inl ⟨rfl, hreset, hnone⟩
  · split at h
    · cases h
      exact Or.inr (Or.inl rfl)
    · split at h
      · cases h
      · cases h
        exact Or.inr (Or.inr rfl)

/-! ### Events -/

/-- An event is accepted exactly if its destination is a declared state, which then is the current
one; the context then holds what the payload sets. -/
theorem apply_eq_ok_iff :
    run.apply m event payload = .ok (step, next) ↔
      ∃ target action s,
        destination m run.state event (run.context.merge payload) = .ok (target, action) ∧
        m.state? target = some s ∧
        step = ⟨event, run.state, s.name, actionsBetween m run.state s action⟩ ∧
        next = ⟨s.name, run.context.merge payload⟩ := by
  unfold apply
  dsimp only
  cases hdestination : destination m run.state event (run.context.merge payload) with
  | error e => simp [bind, Except.bind]
  | ok result =>
    obtain ⟨target, action⟩ := result
    cases hstate : m.state? target with
    | none =>
      simp only [bind, Except.bind, hstate, reduceCtorEq, false_iff, Except.ok.injEq,
        Prod.mk.injEq]
      rintro ⟨_, _, s, ⟨rfl, rfl⟩, hs, -⟩
      cases hstate.symm.trans hs
    | some s =>
      simp only [bind, Except.bind, hstate, pure, Except.pure, Except.ok.injEq, Prod.mk.injEq]
      constructor
      · rintro ⟨rfl, rfl⟩
        exact ⟨target, action, s, ⟨rfl, rfl⟩, hstate, rfl, rfl⟩
      · rintro ⟨_, _, _, ⟨rfl, rfl⟩, hs, rfl, rfl⟩
        cases hstate.symm.trans hs
        exact ⟨rfl, rfl⟩

/-- An event is rejected if it has no destination or leads to a state that is not declared. -/
theorem apply_eq_error (h : run.apply m event payload = .error e) :
    destination m run.state event (run.context.merge payload) = .error e ∨
      ∃ target action,
        destination m run.state event (run.context.merge payload) = .ok (target, action) ∧
        m.state? target = none ∧ e = .unknownState target := by
  unfold apply at h
  dsimp only at h
  cases hdestination : destination m run.state event (run.context.merge payload) with
  | error other =>
    simp only [hdestination, bind, Except.bind] at h
    cases h
    exact Or.inl rfl
  | ok result =>
    obtain ⟨target, action⟩ := result
    simp only [hdestination, bind, Except.bind] at h
    cases hstate : m.state? target with
    | none =>
      simp only [hstate] at h
      cases h
      exact Or.inr ⟨target, action, rfl, hstate, rfl⟩
    | some s =>
      simp only [hstate] at h
      cases h

/-- An event has no transition exactly if it is no reset event and the state does not handle it. -/
theorem destination_eq_invalidTransition_iff :
    destination m state event context = .error (.invalidTransition state event) ↔
      m.isResetEvent event = false ∧ event ∉ m.eventsFrom state := by
  have hnone : (m.outgoing state).filter (·.event == event) = [] ↔ event ∉ m.eventsFrom state := by
    rw [mem_eventsFrom_iff, List.filter_eq_nil_iff]
    simp
  unfold destination
  split
  · next hreset =>
    rw [hreset]
    split <;> simp
  · next hreset =>
    rw [Bool.not_eq_true] at hreset
    split
    · next hempty => simp [hreset, hnone.mp hempty]
    · next hcandidates =>
      have hhandled : ¬event ∉ m.eventsFrom state := fun hnot ↦ hcandidates (hnone.mpr hnot)
      split <;> simp [hhandled]

/-- An event is answered with an invalid transition exactly if it is no reset event and the state
does not handle it, whatever the context. -/
theorem apply_eq_invalidTransition_iff :
    run.apply m event payload = .error (.invalidTransition run.state event) ↔
      m.isResetEvent event = false ∧ event ∉ m.eventsFrom run.state := by
  have hdestination : destination m run.state event (run.context.merge payload) =
      .error (.invalidTransition run.state event) ↔ _ := destination_eq_invalidTransition_iff
  rw [← hdestination]
  constructor
  · intro h
    rcases apply_eq_error h with hdestination | ⟨target, action, -, -, herror⟩
    · exact hdestination
    · cases herror
  · intro h
    unfold apply
    dsimp only
    rw [h]
    rfl

/-! ### Rows of events -/

/-- What came of an event, and the run behind it. -/
structure Outcome where
  result : Except SimulationError SimulationStep
  after : Run

/-- Applies an event with a payload; a rejected event leaves the run as it was. -/
def attempt (m : Machine) (run : Run) (event : String) (payload : Json) : Outcome :=
  match run.apply m event payload with
  | .ok (step, next) => ⟨.ok step, next⟩
  | .error e => ⟨.error e, run⟩

/-- An event is rejected and the run is as it was, or it is accepted and leads to another run. -/
theorem attempt_cases (m : Machine) (run : Run) (event : String) (payload : Json) :
    (∃ e, run.apply m event payload = .error e ∧
        attempt m run event payload = ⟨.error e, run⟩) ∨
      ∃ step next, run.apply m event payload = .ok (step, next) ∧
        attempt m run event payload = ⟨.ok step, next⟩ := by
  unfold attempt
  cases run.apply m event payload with
  | error e => exact Or.inl ⟨e, rfl, rfl⟩
  | ok result => exact Or.inr ⟨result.1, result.2, rfl, rfl⟩

/-- The outcomes of events with their payloads, one after the other. -/
def trace (m : Machine) (run : Run) : List (String × Json) → List Outcome
  | [] => []
  | (event, payload) :: rest =>
    let outcome := attempt m run event payload
    outcome :: trace m outcome.after rest

/-- What holds of the run behind every event, if it held before, and then of the outcome, holds
along every trace. -/
theorem forall_mem_trace (invariant : Run → Prop) {property : Outcome → Prop}
    (hstep : ∀ {run}, invariant run → ∀ event payload,
      invariant (attempt m run event payload).after ∧ property (attempt m run event payload))
    (hrun : invariant run) (events : List (String × Json)) :
    ∀ outcome ∈ run.trace m events, property outcome := by
  induction events generalizing run with
  | nil =>
    intro outcome houtcome
    cases houtcome
  | cons first rest ih =>
    obtain ⟨hafter, hproperty⟩ := hstep hrun first.1 first.2
    exact List.forall_mem_cons.mpr ⟨hproperty, ih hafter⟩

end StateMachine.Run
