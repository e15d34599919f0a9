import StateMachine.Proofs.Check.Competition
import StateMachine.Proofs.Guard.Exclusion
import StateMachine.Proofs.Simulation.Run

/-!
Runs that do not depend on the order of transitions. If any two transitions are compatible and no
guard compares a field with a number for equality, at most one transition of a state applies to an
event (`Run.pairwise_not_both_hold`). The first one that applies is then the only one, wherever it
is declared, so that a machine with its transitions in another order has the same traces
(`Run.trace_eq_of_perm`).
-/

set_option autoImplicit false

namespace StateMachine

/-! ### Guards without numbers as literals -/

def Json.isNumber : Json → Bool
  | .number _ => true
  | _ => false

/-- What has no tolerance is not blurred. -/
theorem Json.not_blurs_of_not_isNumber {context literal : Json} {f : String}
    (h : ¬ literal.isNumber) : ¬ context.Blurs f literal := by
  rintro ⟨hloose, hexact⟩
  rcases exactlyEquals_of_looselyEquals hloose with hequal | ⟨_, _, -, rfl⟩
  · exact hexact hequal
  · exact h rfl

namespace Guard

/-- The literals with which a guard compares fields for equality. -/
def literals : Guard → List Json
  | .equals _ literal | .differs _ literal => [literal]
  | .both a b | .either a b => a.literals ++ b.literals
  | .negated a => a.literals
  | .truthy _ | .compares _ _ _ => []

theorem mem_literals_of_mem_demands {g : Guard} {d : String × Json} (h : d ∈ g.demands) :
    d.2 ∈ g.literals := by
  induction g with
  | equals f literal =>
    rw [List.mem_singleton.mp h]
    exact List.mem_cons_self
  | both a b iha ihb | either a b iha ihb =>
    rcases List.mem_append.mp h with hleft | hright
    · exact List.mem_append_left _ (iha hleft)
    · exact List.mem_append_right _ (ihb hright)
  | truthy | differs | compares | negated => cases h

/-- Without numbers as literals nothing is blurred, whatever the context. -/
theorem sharp_of_literals {g : Guard} (h : ∀ literal ∈ g.literals, ¬ literal.isNumber)
    (context : Json) : Sharp context g :=
  fun _ hd ↦ Json.not_blurs_of_not_isNumber (h _ (mem_literals_of_mem_demands hd))

end Guard

/-- No guard of the machine compares a field with a number for equality. -/
def Machine.WithoutNumberLiterals (m : Machine) : Prop :=
  ∀ t ∈ m.transitions, ∀ g ∈ t.guard, ∀ literal ∈ g.literals, ¬ literal.isNumber

namespace Run

variable {m : Machine} {transitions : List Transition}

/-! ### The transition that applies -/

/-- Of two transitions that compete at most one has a guard that holds. -/
theorem pairwise_not_both_hold (hliterals : m.WithoutNumberLiterals)
    (hcompatible : m.transitions.Pairwise Transition.Compatible) (state event : String)
    (context : Json) :
    ((m.outgoing state).filter (·.event == event)).Pairwise fun t u ↦
      ¬(Guard.evaluateOptional context t.guard ∧ Guard.evaluateOptional context u.guard) := by
  have hpairs := (hcompatible.filter (·.source == state)).filter (·.event == event)
  refine hpairs.imp_of_mem fun {t u} ht hu hpair ↦ ?_
  simp only [Machine.outgoing, List.mem_filter, beq_iff_eq] at ht hu
  obtain ⟨⟨ht, htsource⟩, htevent⟩ := ht
  obtain ⟨⟨hu, husource⟩, huevent⟩ := hu
  have hcompetes : t.competesWith u :=
    Transition.competesWith_iff.mpr ⟨htsource.trans husource.symm, htevent.trans huevent.symm⟩
  obtain ⟨g, k, hg, hk, hexcludes⟩ := Transition.exists_guards_of_excludes (hpair hcompetes)
  rw [hg, hk]
  exact Guard.not_both_of_excludes hexcludes
    (Guard.sharp_of_literals (hliterals t ht g hg) context)
    (Guard.sharp_of_literals (hliterals u hu k hk) context)

/-- A search finds the same element in any order if no two elements pass its test. -/
theorem find?_eq_of_perm {α : Type} {test : α → Bool} {xs ys : List α} (h : xs.Perm ys)
    (hone : xs.Pairwise fun x y ↦ ¬(test x ∧ test y)) : xs.find? test = ys.find? test := by
  rw [← List.head?_filter, ← List.head?_filter]
  have hperm := h.filter test
  have hpairs : (xs.filter test).Pairwise fun _ _ ↦ False :=
    (hone.filter test).imp_of_mem fun hx hy hnot ↦
      hnot ⟨(List.mem_filter.mp hx).2, (List.mem_filter.mp hy).2⟩
  cases hfound : xs.filter test with
  | nil =>
    rw [hfound] at hperm
    rw [hperm.nil_eq]
  | cons x rest =>
    rw [hfound] at hperm hpairs
    cases rest with
    | nil => rw [List.singleton_perm.mp hperm]
    | cons y more => exact ((List.pairwise_cons.mp hpairs).1 y List.mem_cons_self).elim

/-! ### Reordered transitions -/

section Reordered

variable (hliterals : m.WithoutNumberLiterals)
  (hcompatible : m.transitions.Pairwise Transition.Compatible)
  (hperm : transitions.Perm m.transitions)

include hliterals hcompatible hperm

/-- Events lead to the same state by the same action; only transitions are looked up in order. -/
theorem destination_eq_of_perm (state event : String) (context : Json) :
    destination { m with transitions := transitions } state event context =
      destination m state event context := by
  let reorderedMachine : Machine := { m with transitions := transitions }
  have hreset : reorderedMachine.isResetEvent event = m.isResetEvent event := rfl
  have hinitial : reorderedMachine.initialState? = m.initialState? := rfl
  have hcandidates : ((reorderedMachine.outgoing state).filter (·.event == event)).Perm
      ((m.outgoing state).filter (·.event == event)) :=
    (hperm.filter (·.source == state)).filter (·.event == event)
  have hfind := find?_eq_of_perm hcandidates.symm
    (pairwise_not_both_hold hliterals hcompatible state event context)
  change destination reorderedMachine state event context = _
  simp only [destination, hreset, hinitial]
  split
  · rfl
  · generalize (reorderedMachine.outgoing state).filter (·.event == event) = reordered
      at hcandidates hfind ⊢
    generalize (m.outgoing state).filter (·.event == event) = candidates at hcandidates hfind ⊢
    cases candidates with
    | nil => rw [hcandidates.eq_nil]
    | cons t rest =>
      cases reordered with
      | nil => exact absurd hcandidates.nil_eq.symm (List.cons_ne_nil t rest)
      | cons u more =>
        dsimp only
        rw [hfind]

theorem apply_eq_of_perm (run : Run) (event : String) (payload : Json) :
    run.apply { m with transitions := transitions } event payload =
      run.apply m event payload := by
  have hdestination := destination_eq_of_perm hliterals hcompatible hperm run.state event
    (run.context.merge payload)
  unfold apply
  dsimp only
  rw [hdestination]
  rfl

theorem trace_eq_of_compatible (run : Run) (events : List (String × Json)) :
    run.trace { m with transitions := transitions } events = run.trace m events := by
  induction events generalizing run with
  | nil => rfl
  | cons first rest ih =>
    have hattempt : attempt { m with transitions := transitions } run first.1 first.2 =
        attempt m run first.1 first.2 := by
      rw [attempt, attempt, apply_eq_of_perm hliterals hcompatible hperm]
    rw [trace, trace, hattempt, ih]

end Reordered

/-- If a check reports neither duplicate transitions nor overlapping guards, and no guard compares
a field with a number for equality, the order of the transitions does not matter: in any other
order a run starts with the same result and every row of events has the same outcomes. -/
theorem trace_eq_of_perm {options : CheckOptions} (hliterals : m.WithoutNumberLiterals)
    (hcheck : ∀ d ∈ m.check options, d.rule ≠ .duplicateTransition ∧ d.rule ≠ .overlappingGuards)
    (hperm : transitions.Perm m.transitions) (context : Json) :
    start { m with transitions := transitions } context = start m context ∧
      ∀ run, start m context = .ok run → ∀ events,
        run.trace { m with transitions := transitions } events = run.trace m events := by
  have hcompatible := Machine.pairwise_compatible_of_check hcheck
  exact ⟨rfl, fun run _ events ↦ trace_eq_of_compatible hliterals hcompatible hperm run events⟩

/-- A valve that opens by its mode and its pressure, in three ways that exclude each other. -/
def valve : Machine where
  name := "Valve"
  events := []
  resetEvents := [⟨"stop", none, .unplaced⟩]
  commands := []
  states := [⟨"Shut", true, none, some "unlock", .unplaced⟩,
    ⟨"Half", false, none, none, .unplaced⟩, ⟨"Open", false, some "warn", none, .unplaced⟩]
  transitions :=
    [⟨"Shut", "Half", "turn", some (.both (.equals "mode" (.string "slow")) (.truthy "power")),
        none, .unplaced⟩,
      ⟨"Shut", "Open", "turn", some (.differs "mode" (.string "slow")), some "turn", .unplaced⟩,
      ⟨"Shut", "Shut", "turn", some (.both (.equals "mode" (.string "slow"))
        (.negated (.truthy "power"))), some "fail", .unplaced⟩]

theorem trace_valve_reversed : valve.WithoutNumberLiterals ∧
    (∀ d ∈ valve.check .standard,
      d.rule ≠ .duplicateTransition ∧ d.rule ≠ .overlappingGuards) ∧
    valve.transitions.reverse.Perm valve.transitions ∧
    start { valve with transitions := valve.transitions.reverse } .null = start valve .null ∧
      ∀ run, start valve .null = .ok run → ∀ events,
        run.trace { valve with transitions := valve.transitions.reverse } events =
          run.trace valve events := by
  have hliterals : valve.WithoutNumberLiterals := by
    simp [Machine.WithoutNumberLiterals, valve, Guard.literals, Json.isNumber]
  have hcheck : ∀ d ∈ valve.check .standard,
      d.rule ≠ .duplicateTransition ∧ d.rule ≠ .overlappingGuards := by
    decide +kernel
  have hperm := List.reverse_perm valve.transitions
  exact ⟨hliterals, hcheck, hperm, trace_eq_of_perm hliterals hcheck hperm .null⟩

end Run

end StateMachine
