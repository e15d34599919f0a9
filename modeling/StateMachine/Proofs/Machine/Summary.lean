import Mathlib.Data.List.Basic
import StateMachine.Machine.Summary
import StateMachine.Proofs.Machine.Query

/-!
What a summary says of a machine. Read part by part, in the order of a walk, a machine leaves a
table with one entry for each name (`Summary.ofMachine_eq_foldl`). A state or a transition changes
the entry of its name only, or puts it at the end (`Summary.updateEntry_map`), so the table always
is the one that the parts read so far describe (`Summary.foldl_addTransition`). In the end it has
the declared names and behind them the undeclared sources, with the actions and the transitions of
each name, and no transition is lost or counted twice (`Summary.ofMachine_exact`).
-/

set_option autoImplicit false

namespace StateMachine

namespace Summary

/-! ### Summaries and walks -/

/-- What a part of a machine does to the entries. -/
def visit (entries : List StateSummary) : Node → List StateSummary
  | .state s => addState entries s
  | .transition t => addTransition entries t
  | .machine _ | .event _ | .resetEvent _ | .command _ => entries

/-- The summary of a machine is what a walk over its parts leaves. -/
theorem ofMachine_eq_foldl (m : Machine) : ofMachine m = ⟨m.nodes.foldl visit []⟩ := by
  simp only [Machine.nodes, List.foldl_cons, List.foldl_append, List.foldl_map, visit,
    List.foldl_fixed]
  rfl

/-! ### One entry -/

/-- The names of entries, with a further one at the end unless it is there already. -/
def withName (names : List String) (name : String) : List String :=
  if name ∈ names then names else names ++ [name]

theorem withName_eraseDups (names : List String) (name : String) :
    withName names.eraseDups name = (names ++ [name]).eraseDups := by
  rw [withName, eraseDups_concat]
  exact if_congr List.mem_eraseDups rfl rfl

variable {names : List String} {name : String} {entry : String → StateSummary}
  {change : StateSummary → StateSummary}

/-- A change of the entry of one name leaves all other entries as they are and where they are. A
name that has no entry yet gets one at the end. -/
theorem updateEntry_map (hnames : names.Nodup) (hentry : ∀ n, (entry n).name = n)
    (hnew : name ∉ names → entry name = ⟨name, [], []⟩) :
    updateEntry name change (names.map entry) =
      (withName names name).map fun n ↦ if n = name then change (entry n) else entry n := by
  induction names with
  | nil => simp [updateEntry, withName, hnew]
  | cons first rest ih =>
    obtain ⟨hfirst, hrest⟩ := List.nodup_cons.mp hnames
    rw [List.map_cons, updateEntry, hentry]
    by_cases heq : first = name
    · subst heq
      have hsame : (rest.map fun n ↦ if n = first then change (entry n) else entry n) =
          rest.map entry := by
        refine List.map_congr_left fun n hn ↦ if_neg ?_
        rintro rfl
        exact hfirst hn
      simp [withName, hsame]
    · have hne : ¬name = first := fun h ↦ heq h.symm
      rw [if_neg (by simpa using heq), ih hrest fun h ↦ hnew (by simp [hne, h])]
      by_cases hmem : name ∈ rest
      · simp [withName, hmem, heq]
      · simp [withName, hmem, heq, hne]

/-! ### The table -/

/-- The actions of the states of a name, in the order of their declaration. -/
def actionsOf (states : List State) (name : String) : List String :=
  (states.filter (·.name == name)).flatMap State.actions

/-- The event and the target of each transition that leaves a state, in the order of their
declaration. -/
def transitionsOf (transitions : List Transition) (name : String) : List (String × String) :=
  (transitions.filter (·.source == name)).map fun t ↦ (t.event, t.target)

/-- The names of some states and behind them the other sources of some transitions. -/
def namesOf (states : List State) (transitions : List Transition) : List String :=
  (states.map (·.name) ++ transitions.map (·.source)).eraseDups

/-- The table that some states and some transitions describe. -/
def table (states : List State) (transitions : List Transition) : List StateSummary :=
  (namesOf states transitions).map fun name ↦
    ⟨name, actionsOf states name, transitionsOf transitions name⟩

variable {states : List State} {transitions : List Transition}

theorem nodup_namesOf : (namesOf states transitions).Nodup :=
  nodup_eraseDups _

theorem actionsOf_concat (s : State) :
    actionsOf (states ++ [s]) name =
      actionsOf states name ++ if s.name = name then s.actions else [] := by
  by_cases hname : s.name = name <;> simp [actionsOf, List.filter_append, hname]

theorem transitionsOf_concat (t : Transition) :
    transitionsOf (transitions ++ [t]) name =
      transitionsOf transitions name ++
        if t.source = name then [(t.event, t.target)] else [] := by
  by_cases hname : t.source = name <;> simp [transitionsOf, List.filter_append, hname]

/-- A name that is not in the table has no actions and no transitions. -/
theorem entry_of_not_mem (h : name ∉ namesOf states transitions) :
    (⟨name, actionsOf states name, transitionsOf transitions name⟩ : StateSummary) =
      ⟨name, [], []⟩ := by
  rw [namesOf, List.mem_eraseDups, List.mem_append, not_or] at h
  have hstates : states.filter (·.name == name) = [] :=
    List.filter_eq_nil_iff.mpr fun s hs heq ↦
      h.1 (List.mem_map.mpr ⟨s, hs, beq_iff_eq.mp heq⟩)
  have htransitions : transitions.filter (·.source == name) = [] :=
    List.filter_eq_nil_iff.mpr fun t ht heq ↦
      h.2 (List.mem_map.mpr ⟨t, ht, beq_iff_eq.mp heq⟩)
  rw [actionsOf, hstates, transitionsOf, htransitions]
  rfl

/-- States are read before there are transitions. -/
theorem addState_table (s : State) :
    addState (table states []) s = table (states ++ [s]) [] := by
  have hnames : withName (namesOf states []) s.name = namesOf (states ++ [s]) [] := by
    simp only [namesOf, withName_eraseDups, List.map_append, List.map_cons, List.map_nil,
      List.append_nil]
  rw [addState, table, updateEntry_map nodup_namesOf (fun _ ↦ rfl) entry_of_not_mem, hnames, table]
  refine List.map_congr_left fun n _ ↦ ?_
  rw [actionsOf_concat]
  by_cases hname : n = s.name
  · simp [hname]
  · simp [hname, Ne.symm hname]

theorem addTransition_table (t : Transition) :
    addTransition (table states transitions) t = table states (transitions ++ [t]) := by
  have hnames : withName (namesOf states transitions) t.source =
      namesOf states (transitions ++ [t]) := by
    simp only [namesOf, withName_eraseDups, List.map_append, List.map_cons, List.map_nil,
      List.append_assoc]
  rw [addTransition, table, updateEntry_map nodup_namesOf (fun _ ↦ rfl) entry_of_not_mem, hnames,
    table]
  refine List.map_congr_left fun n _ ↦ ?_
  rw [transitionsOf_concat]
  by_cases hname : n = t.source
  · simp [hname]
  · simp [hname, Ne.symm hname]

theorem foldl_addState (states : List State) : states.foldl addState [] = table states [] := by
  induction states using List.reverseRecOn with
  | nil => rfl
  | append_singleton states s ih => rw [List.foldl_append, ih, ← addState_table]; rfl

theorem foldl_addTransition (states : List State) (transitions : List Transition) :
    transitions.foldl addTransition (table states []) = table states transitions := by
  induction transitions using List.reverseRecOn with
  | nil => rfl
  | append_singleton transitions t ih => rw [List.foldl_append, ih, ← addTransition_table]; rfl

theorem ofMachine_eq (m : Machine) : ofMachine m = ⟨table m.states m.transitions⟩ := by
  rw [ofMachine, foldl_addState, foldl_addTransition]

/-! ### What the table says -/

theorem stateNames_ofMachine (m : Machine) :
    (ofMachine m).stateNames = namesOf m.states m.transitions := by
  rw [ofMachine_eq, stateNames, table, List.map_map]
  exact List.map_id _

/-- Behind the declared names come the sources that are not declared. -/
theorem namesOf_eq (m : Machine) :
    namesOf m.states m.transitions = (m.states.map (·.name)).eraseDups ++
      ((m.transitions.map (·.source)).filter fun source ↦ !m.hasState source).eraseDups := by
  have hdeclared (source : String) :
      (!m.hasState source) = !(m.states.map (·.name)).elem source := by
    rw [Bool.eq_iff_iff, Bool.not_eq_true', Bool.not_eq_true', ← Bool.not_eq_true,
      ← Bool.not_eq_true, Machine.hasState_iff_mem, List.elem_iff]
  rw [namesOf, List.eraseDups_append, List.removeAll]
  simp only [hdeclared]

/-- Every transition leaves a state of the table. -/
theorem perm_flatMap_outgoing (m : Machine) :
    ((ofMachine m).states.flatMap fun entry ↦ m.outgoing entry.name).Perm m.transitions := by
  have hnames : ((ofMachine m).states.flatMap fun entry ↦ m.outgoing entry.name) =
      (ofMachine m).stateNames.flatMap m.outgoing := (List.flatMap_map _ _ _).symm
  rw [hnames, stateNames_ofMachine]
  exact perm_flatMap_filter nodup_namesOf fun t ht ↦ List.mem_eraseDups.mpr
    (List.mem_append_right _ (List.mem_map_of_mem ht))

/-- The names of a summary are the declared ones, each at its first declaration, and behind them the
undeclared sources of transitions, each at its first use. Under a name there are the actions of all
declarations of the name and the transitions that leave it, and together these are the transitions
of the machine in another order. -/
theorem ofMachine_exact (m : Machine) :
    (ofMachine m).stateNames.Nodup ∧
      (ofMachine m).stateNames = (m.states.map (·.name)).eraseDups ++
        ((m.transitions.map (·.source)).filter fun source ↦ !m.hasState source).eraseDups ∧
      (∀ entry ∈ (ofMachine m).states,
        entry.actions = (m.states.filter (·.name == entry.name)).flatMap State.actions ∧
          entry.transitions = (m.outgoing entry.name).map fun t ↦ (t.event, t.target)) ∧
      ((ofMachine m).states.flatMap fun entry ↦ m.outgoing entry.name).Perm m.transitions ∧
      ((ofMachine m).states.flatMap fun entry ↦
        entry.transitions.map fun t ↦ (entry.name, t)).Perm
          (m.transitions.map fun t ↦ (t.source, t.event, t.target)) := by
  have hentry : ∀ entry ∈ (ofMachine m).states,
      entry.actions = (m.states.filter (·.name == entry.name)).flatMap State.actions ∧
        entry.transitions = (m.outgoing entry.name).map fun t ↦ (t.event, t.target) := by
    rw [ofMachine_eq]
    intro entry hmem
    obtain ⟨name, -, rfl⟩ := List.mem_map.mp hmem
    exact ⟨rfl, rfl⟩
  have hpairs : ((ofMachine m).states.flatMap fun entry ↦
      entry.transitions.map fun t ↦ (entry.name, t)) =
        ((ofMachine m).states.flatMap fun entry ↦ m.outgoing entry.name).map
          fun t ↦ (t.source, t.event, t.target) := by
    rw [List.map_flatMap]
    refine congrArg List.flatten (List.map_congr_left fun entry hmem ↦ ?_)
    rw [(hentry entry hmem).2, List.map_map]
    refine List.map_congr_left fun t ht ↦ ?_
    have hsource : t.source = entry.name := beq_iff_eq.mp (List.mem_filter.mp ht).2
    exact congrArg (fun source ↦ (source, t.event, t.target)) hsource.symm
  rw [hpairs, stateNames_ofMachine]
  exact ⟨nodup_namesOf, namesOf_eq m, hentry, perm_flatMap_outgoing m,
    (perm_flatMap_outgoing m).map _⟩

end Summary

end StateMachine
