import StateMachine.Proofs.Check.Report
import StateMachine.Proofs.Machine.Query
import StateMachine.Proofs.Machine.Reachability
import StateMachine.Proofs.Simulation.Run

/-!
States that cannot be reached. In a machine with one initial state a check reports the declared
names that no path of transitions leads to, each at its first declaration and in the order of these
(`Machine.reportsUnreached`). Runs follow transitions or return to the initial state, so they stay
among the names that paths lead to (`Run.leadsTo_of_mem_visited`) and are never in a state that is
reported (`Machine.unreachable_reports_exact`).
-/

set_option autoImplicit false

namespace StateMachine

/-! ### First declarations -/

section FirstBy

variable {α : Type} {key : α → String} {seen other : List String} {xs : List α}

/-- What was seen counts only for the keys that appear. -/
theorem firstBy_congr (h : ∀ x ∈ xs, key x ∈ seen ↔ key x ∈ other) :
    firstBy key seen xs = firstBy key other xs := by
  induction xs generalizing seen other with
  | nil => rfl
  | cons x rest ih =>
    obtain ⟨hx, hrest⟩ := List.forall_mem_cons.mp h
    have hcontains : seen.contains (key x) = other.contains (key x) := by
      rw [Bool.eq_iff_iff, List.contains_iff_mem, List.contains_iff_mem, hx]
    have hlonger : firstBy key (key x :: seen) rest = firstBy key (key x :: other) rest :=
      ih fun y hy ↦ by rw [List.mem_cons, List.mem_cons, hrest y hy]
    rw [firstBy, firstBy, hcontains, ih hrest, hlonger]

/-- A property of keys selects among the first elements as it does among all. -/
theorem firstBy_filter {property : α → Bool} (h : ∀ x y, key x = key y → property x = property y) :
    firstBy key seen (xs.filter property) = (firstBy key seen xs).filter property := by
  induction xs generalizing seen with
  | nil => rfl
  | cons x rest ih =>
    rw [firstBy]
    by_cases hx : property x
    · rw [List.filter_cons_of_pos hx, firstBy]
      split
      · exact ih
      · rw [List.filter_cons_of_pos hx, ih]
    · -- `x` is not selected, so whether its key was seen makes no difference to those that are.
      have hother : ∀ y ∈ rest.filter property, key y ≠ key x := fun y hy hkey ↦
        hx ((h x y hkey.symm).trans (List.mem_filter.mp hy).2)
      rw [List.filter_cons_of_neg hx]
      split
      · exact ih
      · rw [List.filter_cons_of_neg hx, ← ih]
        exact firstBy_congr fun y hy ↦ by rw [List.mem_cons, or_iff_right (hother y hy)]

/-- The first elements are those that a search for their keys finds. -/
theorem mem_firstBy_iff {x : α} :
    x ∈ firstBy key seen xs ↔ key x ∉ seen ∧ xs.find? (key · == key x) = some x := by
  induction xs generalizing seen with
  | nil => simp [firstBy]
  | cons y rest ih =>
    rw [firstBy]
    by_cases hkey : key y = key x
    · have hbeq : (key y == key x) = true := beq_iff_eq.mpr hkey
      simp only [List.find?_cons, hbeq, Option.some.injEq]
      by_cases hseen : key y ∈ seen
      · rw [if_pos (List.contains_iff_mem.mpr hseen), ih, ← hkey]
        simp [hseen]
      · rw [if_neg (by simpa using hseen), List.mem_cons, ih, ← hkey]
        simp [hseen, eq_comm]
    · have hne : x ≠ y := fun h ↦ hkey (by rw [h])
      have hbeq : (key y == key x) = false := beq_eq_false_iff_ne.mpr hkey
      simp only [List.find?_cons, hbeq]
      split
      · exact ih
      · rw [List.mem_cons, ih, List.mem_cons, or_iff_right hne, or_iff_right (Ne.symm hkey)]

/-- The first elements come in the order in which their keys first appear. -/
theorem pairwise_firstBy : (firstBy key seen xs).Pairwise fun x y ↦
    xs.findIdx (key · == key x) < xs.findIdx (key · == key y) := by
  induction xs generalizing seen with
  | nil => exact .nil
  | cons z rest ih =>
    -- What is kept behind `z` has another key, so its key appears one place later than in `rest`.
    have hbehind {known : List String} (hz : key z ∈ known) {x : α}
        (hx : x ∈ firstBy key known rest) :
        (z :: rest).findIdx (key · == key x) = rest.findIdx (key · == key x) + 1 := by
      have hne : key z ≠ key x := fun heq ↦ (mem_firstBy_iff.mp hx).1 (heq ▸ hz)
      have hbeq : (key z == key x) = false := beq_eq_false_iff_ne.mpr hne
      simp only [List.findIdx_cons, hbeq, cond_false]
    have hrest {known : List String} (hz : key z ∈ known) :
        (firstBy key known rest).Pairwise fun x y ↦
          (z :: rest).findIdx (key · == key x) < (z :: rest).findIdx (key · == key y) := by
      refine ih.imp_of_mem fun hx hy hlt ↦ ?_
      rw [hbehind hz hx, hbehind hz hy]
      exact Nat.add_lt_add_right hlt 1
    rw [firstBy]
    split
    · next hseen => exact hrest (List.contains_iff_mem.mp hseen)
    · refine List.pairwise_cons.mpr ⟨fun x hx ↦ ?_, hrest List.mem_cons_self⟩
      rw [hbehind List.mem_cons_self hx]
      simp [List.findIdx_cons]

end FirstBy

namespace Machine

variable {m : Machine} {start : String} {s : State}

/-! ### The report -/

/-- The first declarations of the names that the search does not find. -/
def unreached (m : Machine) (start : String) : List State :=
  (firstBy State.name [] m.states).filter fun s ↦ !(m.reachable start).contains s.name

theorem mem_unreached_iff :
    s ∈ m.unreached start ↔ m.state? s.name = some s ∧ ¬m.LeadsTo start s.name := by
  rw [unreached, List.mem_filter, mem_firstBy_iff, and_iff_right List.not_mem_nil,
    Bool.not_eq_true', ← Bool.not_eq_true, List.contains_iff_mem, mem_reachable_iff, state?]

/-- The place of the first declaration of a name among the states. -/
def position (m : Machine) (name : String) : Nat :=
  m.states.findIdx (·.name == name)

theorem pairwise_unreached :
    (m.unreached start).Pairwise fun s t ↦ m.position s.name < m.position t.name :=
  pairwise_firstBy.filter _

/-- Reports on exactly the declared names that no path leads to, each of them at its first
declaration, in the order of these and so only once. -/
structure ReportsUnreached (m : Machine) (start : String) (diagnostics : List Diagnostic) :
    Prop where
  names (name : String) : (∃ d ∈ diagnostics, d.problem.subject = .state name) ↔
    name ∈ m.states.map State.name ∧ ¬m.LeadsTo start name
  placed : ∀ d ∈ diagnostics, ∃ s, m.state? s.name = some s ∧
    d = ⟨.unreachableState s.name start, s.location⟩
  ordered : diagnostics.Pairwise fun d e ↦
    m.position d.problem.identifier < m.position e.problem.identifier

theorem unreachableStates_eq {first : State} (h : m.initialState? = some first) :
    m.unreachableStates = (m.unreached first.name).map fun s ↦
      ⟨.unreachableState s.name first.name, s.location⟩ := by
  simp only [unreachableStates, h, unreached]
  rw [firstBy_filter fun s t hname ↦ by rw [hname]]

/-- In a machine with one initial state the names that cannot be reached from it are reported. -/
theorem reportsUnreached {first : State} (h : m.initialState? = some first) :
    m.ReportsUnreached first.name m.unreachableStates := by
  rw [unreachableStates_eq h]
  refine ⟨fun name ↦ ?_, fun d hd ↦ ?_, ?_⟩
  · rw [← hasState_iff_mem, hasState_iff]
    simp only [List.mem_map, exists_exists_and_eq_and, Problem.subject, Subject.state.injEq]
    constructor
    · rintro ⟨s, hs, rfl⟩
      obtain ⟨hfirst, hpath⟩ := mem_unreached_iff.mp hs
      exact ⟨⟨s, hfirst⟩, hpath⟩
    · rintro ⟨⟨s, hs⟩, hpath⟩
      obtain rfl := name_of_state? hs
      exact ⟨s, mem_unreached_iff.mpr ⟨hs, hpath⟩, rfl⟩
  · obtain ⟨s, hs, rfl⟩ := List.mem_map.mp hd
    exact ⟨s, (mem_unreached_iff.mp hs).1, rfl⟩
  · exact List.pairwise_map.mpr pairwise_unreached

theorem reports_unreachableState (m : Machine) (options : CheckOptions) :
    m.reports options .unreachableState =
      if options.unreachableStates then m.unreachableStates else [] := by
  rw [reports_eq_filter]
  exact (allBy_optional m options).filter_self

end Machine

/-! ### Runs -/

namespace Run

open Machine

variable {m : Machine} {run : Run}

/-- The states that a run is in, before the first of some events and behind each of them. -/
def visited (m : Machine) (run : Run) (events : List (String × Json)) : List String :=
  run.state :: (run.trace m events).map (·.after.state)

/-- An event leads along a transition, back to the initial state, or nowhere. -/
theorem leadsTo_attempt {first : State} (hfirst : m.initialState? = some first)
    (hrun : m.LeadsTo first.name run.state) (event : String) (payload : Json) :
    m.LeadsTo first.name (attempt m run event payload).after.state := by
  rcases attempt_cases m run event payload with ⟨e, -, hattempt⟩ | ⟨step, next, hok, hattempt⟩
  · rw [hattempt]
    exact hrun
  · rw [hattempt]
    obtain ⟨target, action, s, hdestination, hs, -, rfl⟩ := apply_eq_ok_iff.mp hok
    rw [name_of_state? hs]
    rcases destination_eq_ok hdestination with ⟨-, -, s, hinitial, rfl⟩ | ⟨-, t, ht, -, -, rfl, -⟩
    · cases hfirst.symm.trans hinitial
      exact .refl
    · obtain ⟨hmem, hsource⟩ := List.mem_filter.mp ht
      exact hrun.tail ⟨t, hmem, beq_iff_eq.mp hsource, rfl⟩

/-- Along every row of events a run stays among the names that paths lead to. -/
theorem leadsTo_of_mem_visited {first : State} (hfirst : m.initialState? = some first)
    {context : Json} (hrun : start m context = .ok run) {events : List (String × Json)} :
    ∀ state ∈ run.visited m events, m.LeadsTo first.name state := by
  have hstate : m.LeadsTo first.name run.state := by
    obtain ⟨s, hs, rfl⟩ := start_eq_ok_iff.mp hrun
    cases hfirst.symm.trans hs
    exact .refl
  refine List.forall_mem_cons.mpr ⟨hstate, List.forall_mem_map.mpr ?_⟩
  refine forall_mem_trace (fun r ↦ m.LeadsTo first.name r.state) (fun hr e p ↦ ?_) hstate events
  exact ⟨leadsTo_attempt hfirst hr e p, leadsTo_attempt hfirst hr e p⟩

end Run

namespace Machine

/-- A check that looks for states that cannot be reached reports exactly the declared names that no
path leads to from the initial state, and nothing unless there is exactly one initial state. No run
is ever in a state that is reported. -/
theorem unreachable_reports_exact (m : Machine) :
    (∀ first, m.initialStates = [first] →
      m.ReportsUnreached first.name (m.reports ⟨true⟩ .unreachableState)) ∧
    (m.initialStates.length ≠ 1 → m.reports ⟨true⟩ .unreachableState = []) ∧
    m.reports ⟨false⟩ .unreachableState = [] ∧
    ∀ options context run, Run.start m context = .ok run → ∀ events,
      ∀ state ∈ run.visited m events, ∀ d ∈ m.reports options .unreachableState,
        d.problem.subject ≠ .state state := by
  refine ⟨fun first hfirst ↦ ?_, fun hlength ↦ ?_, ?_, ?_⟩
  · rw [reports_unreachableState, if_pos rfl]
    exact reportsUnreached (initialState?_eq_some_iff.mpr hfirst)
  · have hnone : m.initialState? = none := by
      rw [Option.eq_none_iff_forall_ne_some]
      intro s hs
      rw [initialState?_eq_some_iff.mp hs] at hlength
      exact hlength rfl
    rw [reports_unreachableState, if_pos rfl, unreachableStates, hnone]
  · rw [reports_unreachableState]
    rfl
  · intro options context run hrun events state hstate d hd hsubject
    obtain ⟨first, hfirst, -⟩ := Run.start_eq_ok_iff.mp hrun
    have hreported : d ∈ m.unreachableStates := by
      rw [reports_unreachableState] at hd
      split at hd
      · exact hd
      · cases hd
    have hpath := (((reportsUnreached hfirst).names state).mp ⟨d, hreported, hsubject⟩).2
    exact hpath (Run.leadsTo_of_mem_visited hfirst hrun state hstate)

/-- A ferry between two banks. The harbour, which is described twice, and the wharf lead to each
other and to places that are not declared, but nothing leads to them. -/
def ferry : Machine where
  name := "Ferry"
  events := []
  resetEvents := [⟨"recall", none, .unplaced⟩]
  commands := []
  states := [⟨"Wharf", false, none, none, ⟨1, 1⟩⟩, ⟨"North", true, none, none, ⟨2, 1⟩⟩,
    ⟨"Harbour", false, none, none, ⟨3, 1⟩⟩, ⟨"South", false, none, none, ⟨4, 1⟩⟩,
    ⟨"Harbour", false, none, none, ⟨5, 1⟩⟩]
  transitions := [⟨"North", "South", "sail", some (.truthy "calm"), none, .unplaced⟩,
    ⟨"South", "North", "sail", none, none, .unplaced⟩,
    ⟨"Harbour", "Wharf", "moor", none, none, .unplaced⟩,
    ⟨"Wharf", "Harbour", "leave", none, none, .unplaced⟩,
    ⟨"Wharf", "Sea", "drift", none, none, .unplaced⟩,
    ⟨"Sea", "South", "drift", none, none, .unplaced⟩]

theorem unreachable_reports_ferry :
    ferry.initialStates = [⟨"North", true, none, none, ⟨2, 1⟩⟩] ∧
    (ferry.reports ⟨true⟩ .unreachableState).map (fun d ↦ (d.problem.identifier, d.location)) =
      [("Wharf", ⟨1, 1⟩), ("Harbour", ⟨3, 1⟩)] ∧
    ferry.ReportsUnreached "North" (ferry.reports ⟨true⟩ .unreachableState) ∧
    Run.start ferry .null = .ok ⟨"North", .null⟩ ∧
    ∀ events, ∀ state ∈ Run.visited ferry ⟨"North", .null⟩ events,
      ∀ d ∈ ferry.reports ⟨true⟩ .unreachableState, d.problem.subject ≠ .state state := by
  have hinitial : ferry.initialStates = [⟨"North", true, none, none, ⟨2, 1⟩⟩] := by decide
  have hstart : Run.start ferry .null = .ok ⟨"North", .null⟩ := rfl
  obtain ⟨hreports, -, -, hruns⟩ := unreachable_reports_exact ferry
  exact ⟨hinitial, by decide +kernel, hreports _ hinitial, hstart, hruns ⟨true⟩ _ _ hstart⟩

end Machine

end StateMachine
