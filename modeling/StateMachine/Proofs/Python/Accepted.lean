import StateMachine.Proofs.Python.Refusal

/-!
What is known of a machine that a program is generated for (`Generated`): there is one initial
state, transitions lead to declared states, no handler is ambiguous, and the classes of states
have names of their own.
-/

set_option autoImplicit false

namespace StateMachine.Python

open Machine

/-- A machine is sound enough to generate a program. -/
structure Generated (options : Options) (m : Machine) : Prop where
  initial : ∃ s, m.initialStates = [s]
  targets : ∀ t ∈ m.transitions, m.hasState t.target
  unambiguous : ∀ s ∈ m.states, ∀ h ∈ handlers m s.name, h.isAmbiguous = false
  classes : m.states.Pairwise fun s t ↦
    stateClassName options s.name ≠ stateClassName options t.name
  reserved : ∀ s ∈ m.states, stateClassName options s.name ∉ reservedNames m

variable {options : Options} {m : Machine} {text : String}

theorem exists_initial_of_checkInitial (h : checkInitial m = .ok ()) :
    ∃ s, m.initialStates = [s] := by
  unfold checkInitial at h
  split at h
  · cases h
  · next s hs => exact ⟨s, hs⟩
  · cases h

theorem hasState_of_checkReferences (h : checkReferences m = .ok ()) :
    ∀ t ∈ m.transitions, m.hasState t.target := by
  have hcheck : checkReferences m = m.transitions.forM (checkEndpoints m) := rfl
  rw [hcheck] at h
  rcases forM_cases (checkEndpoints m) m.transitions with ⟨-, hall⟩ | ⟨e, herror, -⟩
  · intro t ht
    have hfound := hall t ht
    unfold checkEndpoints at hfound
    split at hfound
    · cases hfound
    · split at hfound
      · cases hfound
      · next htarget => simpa using htarget
  · rw [herror] at h
    cases h

theorem not_isAmbiguous_of_checkTransitions (h : checkTransitions m = .ok ()) :
    ∀ s ∈ m.states, ∀ h ∈ handlers m s.name, h.isAmbiguous = false := by
  have hcheck : checkTransitions m = m.states.forM (checkHandlers m) := rfl
  rw [hcheck] at h
  rcases forM_cases (checkHandlers m) m.states with ⟨-, hall⟩ | ⟨e, herror, -⟩
  · intro s hs handler hmem
    have hfound := hall s hs
    unfold checkHandlers at hfound
    split at hfound
    · cases hfound
    · next hnone => exact Bool.eq_false_iff.mpr (List.find?_eq_none.mp hnone handler hmem)
  · rw [herror] at h
    cases h

/-- Names pass exactly if each of them has a class of its own, which is neither reserved nor the
class of an earlier name. -/
theorem checkClasses_eq_ok_iff {earlier names : List String} :
    checkClasses options m earlier names = .ok () ↔
      (∀ name ∈ names, stateClassName options name ∉ reservedNames m ∧
        ∀ other ∈ earlier, stateClassName options other ≠ stateClassName options name) ∧
        names.Pairwise fun a b ↦ stateClassName options a ≠ stateClassName options b := by
  induction names generalizing earlier with
  | nil => exact iff_of_true rfl ⟨List.forall_mem_nil _, .nil⟩
  | cons name rest ih =>
    rw [List.forall_mem_cons, List.pairwise_cons]
    unfold checkClasses
    dsimp only
    split
    · next hreserved =>
      exact iff_of_false (by simp) fun h ↦ h.1.1.1 (List.contains_iff_mem.mp hreserved)
    · next hfree =>
      split
      · next other hfound =>
        have hclass := List.find?_some hfound
        exact iff_of_false (by simp) fun h ↦ h.1.1.2 other (List.mem_of_find?_eq_some hfound)
          (beq_iff_eq.mp hclass)
      · next hnone =>
        have hown : stateClassName options name ∉ reservedNames m ∧
            ∀ other ∈ earlier, stateClassName options other ≠ stateClassName options name :=
          ⟨by simpa using hfree, fun other hother ↦ by
            simpa using List.find?_eq_none.mp hnone other hother⟩
        -- The name is one of the earlier ones from here on.
        simp only [ih, List.forall_mem_cons, hown, forall_and]
        tauto

/-- A program is generated for sound machines only, and it is the program that is built. -/
theorem generated_of_generate (h : generate options m = .ok text) :
    Generated options m ∧ text = Code.text options.indentWidth (Program.build options m).code := by
  obtain ⟨program, hprogram, htext⟩ := bind_eq_ok.mp h
  obtain ⟨_, hvalidate, hbuild⟩ := bind_eq_ok.mp hprogram
  obtain ⟨_, -, hmore⟩ := bind_eq_ok.mp hvalidate
  obtain ⟨_, hinitial, hmore⟩ := bind_eq_ok.mp hmore
  obtain ⟨_, hreferences, hmore⟩ := bind_eq_ok.mp hmore
  obtain ⟨_, htransitions, hmore⟩ := bind_eq_ok.mp hmore
  obtain ⟨_, -, hclasses⟩ := bind_eq_ok.mp hmore
  obtain ⟨hnames, hdistinct⟩ := checkClasses_eq_ok_iff.mp hclasses
  cases pure_eq_ok.mp hbuild
  exact ⟨{
    initial := exists_initial_of_checkInitial hinitial
    targets := hasState_of_checkReferences hreferences
    unambiguous := not_isAmbiguous_of_checkTransitions htransitions
    classes := by rwa [List.pairwise_map] at hdistinct
    reserved := fun s hs ↦ (hnames s.name (List.mem_map_of_mem hs)).1 }, pure_eq_ok.mp htext⟩

end StateMachine.Python
