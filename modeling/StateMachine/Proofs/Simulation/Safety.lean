import StateMachine.Proofs.Check.Rules
import StateMachine.Proofs.Simulation.Run

/-!
Checked machines do not go wrong. If a check finds no errors, every run starts, stays in declared
states and rejects an event only for want of a transition or of a guard that holds; what it accepts
are declared events, and what it runs are declared commands (`Run.safe_of_check`). The invariant of
a run is that its state is declared; every outcome is safe from such a state
(`Run.safe_attempt`).
-/

set_option autoImplicit false

namespace StateMachine.Run

open Machine

/-- The outcome of an event is as a checked machine promises. -/
structure Outcome.Safe (m : Machine) (outcome : Outcome) : Prop where
  state : m.hasState outcome.after.state
  rejection {e : SimulationError} (h : outcome.result = .error e) :
    (∃ state event, e = .invalidTransition state event) ∨
      ∃ state event, e = .guardFailed state event
  event {step : SimulationStep} (h : outcome.result = .ok step) (hevents : m.events ≠ []) :
    declaredIn m.events step.event
  actions {step : SimulationStep} (h : outcome.result = .ok step) (hcommands : m.commands ≠ []) :
    ∀ a ∈ step.actions, declaredIn m.commands a

variable {m : Machine} {run next : Run} {event target : String} {action : Option String}
  {context payload : Json} {step : SimulationStep} {e : SimulationError}

/-! ### Destinations -/

section Destination

variable (hm : m.Sound) {state : String}

include hm

theorem hasState_of_destination (h : destination m state event context = .ok (target, action)) :
    m.hasState target := by
  rcases destination_eq_ok h with ⟨-, -, s, hs, rfl⟩ | ⟨-, t, ht, -, -, rfl, -⟩
  · exact hasState_of_mem (mem_of_initialState? hs)
  · exact (hm.states t (List.mem_filter.mp ht).1).2

/-- Reset events and events of transitions are declared by rules of their own. -/
theorem declaredIn_of_destination (h : destination m state event context = .ok (target, action))
    (hevents : m.events ≠ []) : declaredIn m.events event := by
  rcases destination_eq_ok h with ⟨hreset, -⟩ | ⟨-, t, ht, rfl, -⟩
  · obtain ⟨d, hd, hname⟩ := List.any_eq_true.mp hreset
    have hdeclared := (hm.events hevents).2 d hd
    rwa [beq_iff_eq.mp hname] at hdeclared
  · exact (hm.events hevents).1 t (List.mem_filter.mp ht).1

theorem declaredIn_of_mem_action (h : destination m state event context = .ok (target, action))
    (hcommands : m.commands ≠ []) : ∀ a ∈ action, declaredIn m.commands a := by
  rcases destination_eq_ok h with ⟨-, rfl, -⟩ | ⟨-, t, ht, -, -, -, rfl⟩
  · intro a ha
    cases ha
  · exact (hm.commands hcommands).2 t (List.mem_filter.mp ht).1

/-- Exit action, action of the transition and entry action, each of them declared. -/
theorem declaredIn_of_mem_actionsBetween {source : String} {s : State} (hs : s ∈ m.states)
    (haction : ∀ a ∈ action, declaredIn m.commands a) (hcommands : m.commands ≠ []) :
    ∀ a ∈ actionsBetween m source s action, declaredIn m.commands a := by
  intro a ha
  unfold actionsBetween at ha
  split at ha
  · exact haction a (Option.mem_toList.mp ha)
  · rcases List.mem_append.mp ha with hleft | hentry
    · rcases List.mem_append.mp hleft with hexit | htaken
      · obtain ⟨r, hr, hexit⟩ := Option.bind_eq_some_iff.mp (Option.mem_toList.mp hexit)
        refine (hm.commands hcommands).1 r (mem_of_state? hr) a ?_
        exact List.mem_append_right _ (Option.mem_toList.mpr hexit)
      · exact haction a (Option.mem_toList.mp htaken)
    · exact (hm.commands hcommands).1 s hs a (List.mem_append_left _ hentry)

end Destination

/-! ### Events -/

/-- A machine with an initial state and declared targets rejects for two reasons only. -/
theorem rejection_of_apply (hm : m.Sound) (h : run.apply m event payload = .error e) :
    (∃ state event, e = .invalidTransition state event) ∨
      ∃ state event, e = .guardFailed state event := by
  rcases apply_eq_error h with herror | ⟨target, action, hok, hnone, -⟩
  · rcases destination_eq_error herror with ⟨-, -, hnone⟩ | rfl | rfl
    · obtain ⟨s, hs⟩ := hm.initial
      cases hnone.symm.trans hs
    · exact Or.inl ⟨_, _, rfl⟩
    · exact Or.inr ⟨_, _, rfl⟩
  · obtain ⟨s, hs⟩ := hasState_iff.mp (hasState_of_destination hm hok)
    cases hnone.symm.trans hs

/-- From a declared state every outcome is safe, and the run is in a declared state again. -/
theorem safe_attempt (hm : m.Sound) (hrun : m.hasState run.state) (event : String)
    (payload : Json) : (attempt m run event payload).Safe m := by
  unfold attempt
  cases happly : run.apply m event payload with
  | error e =>
    refine ⟨hrun, fun h ↦ ?_, fun h ↦ ?_, fun h ↦ ?_⟩
    · cases h
      exact rejection_of_apply hm happly
    · cases h
    · cases h
  | ok result =>
    obtain ⟨step, next⟩ := result
    obtain ⟨target, action, s, hdestination, hs, rfl, rfl⟩ := apply_eq_ok_iff.mp happly
    have hmem := mem_of_state? hs
    refine ⟨hasState_of_mem hmem, fun h ↦ ?_, fun h hevents ↦ ?_, fun h hcommands ↦ ?_⟩
    · cases h
    · cases h
      exact declaredIn_of_destination hm hdestination hevents
    · cases h
      exact declaredIn_of_mem_actionsBetween hm hmem
        (declaredIn_of_mem_action hm hdestination hcommands) hcommands

/-- If a check finds no errors, every run starts in a declared state, and along every row of events
each outcome is safe. -/
theorem safe_of_check {options : CheckOptions} (h : hasErrors (m.check options) = false)
    (context : Json) :
    ∃ run, start m context = .ok run ∧ m.hasState run.state ∧
      ∀ events, ∀ outcome ∈ run.trace m events, outcome.Safe m := by
  have hm := sound_of_check h
  obtain ⟨s, hs⟩ := hm.initial
  have hstate : m.hasState s.name := hasState_of_mem (mem_of_initialState? hs)
  refine ⟨⟨s.name, context⟩, by simp only [start, hs], hstate, fun events ↦ ?_⟩
  refine forall_mem_trace (fun r ↦ m.hasState r.state) (fun hr e p ↦ ?_) hstate events
  have hsafe := safe_attempt hm hr e p
  exact ⟨hsafe.state, hsafe⟩

/-- A gate with declared events and commands, a guard and a reset event. -/
def gate : Machine where
  name := "Gate"
  events := [⟨"coin", none, .unplaced⟩, ⟨"push", none, .unplaced⟩, ⟨"reset", none, .unplaced⟩]
  resetEvents := [⟨"reset", none, .unplaced⟩]
  commands := [⟨"lock", none, .unplaced⟩, ⟨"unlock", none, .unplaced⟩, ⟨"thank", none, .unplaced⟩]
  states := [⟨"Closed", true, some "lock", some "unlock", .unplaced⟩,
    ⟨"Open", false, none, none, .unplaced⟩]
  transitions := [⟨"Closed", "Open", "coin", some (.truthy "paid"), some "thank", .unplaced⟩,
    ⟨"Open", "Closed", "push", none, none, .unplaced⟩]

theorem hasErrors_check_gate : hasErrors (gate.check .standard) = false := by
  decide +kernel

theorem safe_gate : hasErrors (gate.check .standard) = false ∧
    ∃ run, start gate .null = .ok run ∧ gate.hasState run.state ∧
      ∀ events, ∀ outcome ∈ run.trace gate events, outcome.Safe gate :=
  ⟨hasErrors_check_gate, safe_of_check hasErrors_check_gate .null⟩

end StateMachine.Run
