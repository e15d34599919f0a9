import StateMachine.Proofs.Machine.RoundTrip
import StateMachine.Proofs.Python.Placement
import StateMachine.Proofs.Simulation.Placement

/-!
Writing a machine in its canonical form changes nothing for those who use it. Locations are all that
it may change (`Machine.exists_parseNamed_text`), and neither the problems that a check finds, nor
the generated program, the summary, or the course of a run depend on them
(`Machine.Interchangeable.of_unlocated_eq`).
-/

set_option autoImplicit false

namespace StateMachine.Machine

/-- Whatever is done with the machines, the outcome is the same, but for the places that the
diagnostics of a check show. -/
structure Interchangeable (m n : Machine) : Prop where
  check (options : CheckOptions) : problems (m.check options) = problems (n.check options)
  /-- The generated texts are the same, or the reasons to refuse the machines. -/
  generate (options : Python.Options) : Python.generate options m = Python.generate options n
  summary : (Summary.ofMachine m).text = (Summary.ofMachine n).text
  start (context : Json) : Run.start m context = Run.start n context
  trace (run : Run) (events : List (String × Json)) : run.trace m events = run.trace n events

namespace Interchangeable

variable {m n : Machine}

theorem unlocated (m : Machine) : m.unlocated.Interchangeable m where
  check := problems_check_unlocated m
  generate := Python.generate_unlocated m
  summary := by rw [summary_unlocated]
  start := Run.start_unlocated m
  trace run events := Run.trace_unlocated m run events

theorem symm (h : m.Interchangeable n) : n.Interchangeable m where
  check options := (h.check options).symm
  generate options := (h.generate options).symm
  summary := h.summary.symm
  start context := (h.start context).symm
  trace run events := (h.trace run events).symm

theorem trans {o : Machine} (h : m.Interchangeable n) (h' : n.Interchangeable o) :
    m.Interchangeable o where
  check options := (h.check options).trans (h'.check options)
  generate options := (h.generate options).trans (h'.generate options)
  summary := h.summary.trans h'.summary
  start context := (h.start context).trans (h'.start context)
  trace run events := (h.trace run events).trans (h'.trace run events)

/-- Machines that differ in their locations at most are interchangeable. -/
theorem of_unlocated_eq (h : m.unlocated = n.unlocated) : m.Interchangeable n := by
  have hm : m.Interchangeable m.unlocated := (unlocated m).symm
  rw [h] at hm
  exact hm.trans (unlocated n)

end Interchangeable

/-- What is read from the canonical description of a printable machine is interchangeable with the
machine. -/
theorem parse_text_interchangeable {m : Machine} (h : m.Printable) :
    ∃ m', parse m.text = .ok m' ∧ m'.Interchangeable m := by
  obtain ⟨m', hparse, hunlocated⟩ := exists_parseNamed_text h defaultName
  exact ⟨m', hparse, .of_unlocated_eq hunlocated⟩

/-- A heater whose first transition was written before the blocks and whose second one inside a
state; the bound in the guard is a negative zero, and the first transition leads nowhere. -/
def heater : Machine where
  name := "Heater"
  events := [⟨"press", some "P1", ⟨4, 3⟩⟩]
  resetEvents := [⟨"cut", none, ⟨12, 3⟩⟩]
  commands := []
  states := [⟨"Off", true, some "cool", none, ⟨7, 1⟩⟩, ⟨"Off", false, none, none, ⟨14, 1⟩⟩,
    ⟨"Warm", false, none, none, ⟨16, 1⟩⟩]
  transitions := [
    ⟨"Off", "On", "press", some (.both (.compares "level" .atLeast (.finite (.zero true)))
      (.negated (.truthy "locked"))), some "click", ⟨2, 1⟩⟩,
    ⟨"Off", "Off", "press", none, none, ⟨9, 3⟩⟩]

theorem printable_heater : heater.Printable where
  name := by decide
  events := by decide
  resetEvents := by decide
  commands := by decide
  states := by decide
  transitions := by decide

theorem parse_text_heater :
    heater.Printable ∧ ∃ m', parse heater.text = .ok m' ∧ m'.Interchangeable heater :=
  ⟨printable_heater, parse_text_interchangeable printable_heater⟩

end StateMachine.Machine
