import StateMachine.Proofs.Check.Placement
import StateMachine.Proofs.Python.Refusal

/-!
The same program is generated wherever the parts of a machine were written. The examinations before
it give the same reasons to refuse the machine, and the handlers of a state, grouped from the same
transitions, have the same code (`Python.generate_unlocated`).
-/

set_option autoImplicit false

namespace StateMachine.Python

/-! ### Handlers -/

namespace Handler

def unlocated (h : Handler) : Handler :=
  { h with transitions := h.transitions.map Transition.unlocated }

@[simp] theorem event_unlocated (h : Handler) : h.unlocated.event = h.event := rfl

@[simp] theorem transitions_unlocated (h : Handler) :
    h.unlocated.transitions = h.transitions.map Transition.unlocated := rfl

theorem insert_unlocated (t : Transition) (handlers : List Handler) :
    insert t.unlocated (handlers.map unlocated) = (insert t handlers).map unlocated := by
  induction handlers with
  | nil => rfl
  | cons handler rest ih =>
    have hevent : t.unlocated.event = t.event := rfl
    simp only [List.map_cons, insert, event_unlocated, hevent, ih]
    split
    · simp only [List.map_cons, unlocated, List.map_append, List.map_nil]
    · rfl

theorem foldl_insert_unlocated (handlers : List Handler) (transitions : List Transition) :
    (transitions.map Transition.unlocated).foldl (fun handlers t ↦ insert t handlers)
        (handlers.map unlocated) =
      (transitions.foldl (fun handlers t ↦ insert t handlers) handlers).map unlocated := by
  induction transitions generalizing handlers with
  | nil => rfl
  | cons t rest ih => simp only [List.map_cons, List.foldl_cons, insert_unlocated, ih]

theorem group_unlocated (transitions : List Transition) :
    group (transitions.map Transition.unlocated) = (group transitions).map unlocated :=
  foldl_insert_unlocated [] transitions

theorem isAmbiguous_unlocated (h : Handler) : h.unlocated.isAmbiguous = h.isAmbiguous := by
  simp only [isAmbiguous, transitions_unlocated, List.length_map, List.any_map]
  rfl

theorem branches_unlocated (first : Bool) (transitions : List Transition) :
    branches first (transitions.map Transition.unlocated) = branches first transitions := by
  induction transitions generalizing first with
  | nil => rfl
  | cons t rest ih =>
    rw [List.map_cons, branches, ih, branches]
    rfl

theorem code_unlocated (h : Handler) : h.unlocated.code = h.code := by
  have hguarded : (h.transitions.map Transition.unlocated).any (·.guard.isSome) =
      h.transitions.any (·.guard.isSome) := List.any_map
  rw [code, code, event_unlocated, transitions_unlocated, branches_unlocated, hguarded]

end Handler

theorem handlers_unlocated (m : Machine) (state : String) :
    handlers m.unlocated state = (handlers m state).map Handler.unlocated := by
  rw [handlers, Machine.outgoing_unlocated, Handler.group_unlocated, handlers]

/-! ### Examinations -/

variable (m : Machine) (options : Options)

theorem checkStates_unlocated : checkStates m.unlocated = checkStates m := by
  rw [checkStates, Machine.states_unlocated, Machine.repeatedBy_name_unlocated, checkStates]
  cases repeatedBy State.name [] m.states <;> rfl

theorem checkInitial_unlocated : checkInitial m.unlocated = checkInitial m := by
  rw [checkInitial, Machine.initialStates_unlocated, checkInitial]
  rcases m.initialStates with _ | ⟨_, _ | ⟨_, rest⟩⟩
  · rfl
  · rfl
  · simp

theorem checkReferences_unlocated : checkReferences m.unlocated = checkReferences m := by
  have hends (t : Transition) : checkEndpoints m.unlocated t.unlocated = checkEndpoints m t := by
    simp only [checkEndpoints, Machine.hasState_unlocated]
    rfl
  calc checkReferences m.unlocated
    _ = m.transitions.forM fun t ↦ checkEndpoints m.unlocated t.unlocated := List.forM_map
    _ = checkReferences m := by
      rw [funext hends]
      rfl

theorem checkHandlers_unlocated (s : State) :
    checkHandlers m.unlocated s.unlocated = checkHandlers m s := by
  have hname : s.unlocated.name = s.name := rfl
  have hambiguous : Handler.isAmbiguous ∘ Handler.unlocated = Handler.isAmbiguous :=
    funext Handler.isAmbiguous_unlocated
  rw [checkHandlers, hname, handlers_unlocated, List.find?_map, hambiguous, checkHandlers]
  cases (handlers m s.name).find? Handler.isAmbiguous <;> rfl

theorem checkTransitions_unlocated : checkTransitions m.unlocated = checkTransitions m := by
  calc checkTransitions m.unlocated
    _ = m.states.forM fun s ↦ checkHandlers m.unlocated s.unlocated := List.forM_map
    _ = checkTransitions m := by
      rw [funext (checkHandlers_unlocated m)]
      rfl

theorem checkNames_unlocated : checkNames options m.unlocated = checkNames options m := by
  have hnames : generatedNames options m.unlocated = generatedNames options m := by
    simp only [generatedNames, Machine.name_unlocated, Machine.states_unlocated,
      Machine.transitions_unlocated, List.map_map]
    rfl
  unfold checkNames
  rw [hnames]

theorem checkClasses_unlocated (earlier states : List String) :
    checkClasses options m.unlocated earlier states = checkClasses options m earlier states := by
  induction states generalizing earlier with
  | nil => rfl
  | cons state rest ih =>
    have hreserved : reservedNames m.unlocated = reservedNames m := rfl
    simp only [checkClasses, hreserved, Machine.name_unlocated, ih]

/-! ### Programs -/

theorem checksum_unlocated : m.unlocated.checksum = m.checksum := by
  rw [Machine.checksum, Machine.text_unlocated, Machine.checksum]

namespace StateClass

def unlocated (c : StateClass) : StateClass :=
  { c with state := c.state.unlocated, handlers := c.handlers.map Handler.unlocated }

/-- The code of a class shows the names and actions of its state and the code of its handlers. -/
theorem code_unlocated (base : String) (c : StateClass) : c.unlocated.code base = c.code base := by
  have hhandlers : c.unlocated.handlers = c.handlers.map Handler.unlocated := rfl
  simp only [code, hhandlers, List.flatMap_map, Handler.code_unlocated]
  rfl

end StateClass

namespace Program

/-- The program without the locations in the classes of its states. -/
def unlocated (p : Program) : Program :=
  { p with states := p.states.map StateClass.unlocated }

theorem stateTableCode_unlocated (states : List StateClass) :
    stateTableCode (states.map StateClass.unlocated) = stateTableCode states := by
  simp only [stateTableCode, List.map_map]
  rfl

theorem code_unlocated (p : Program) : p.unlocated.code = p.code := by
  simp only [code, dispatcherCode, unlocated, stateTableCode_unlocated, List.flatMap_map,
    StateClass.code_unlocated]

theorem codeTable_unlocated (declarations : List Declaration) :
    codeTable (declarations.map Declaration.unlocated) = codeTable declarations := by
  rw [codeTable, List.map_map]
  rfl

theorem build_unlocated : build options m.unlocated = (build options m).unlocated := by
  have hresets : m.unlocated.resetEvents.map (·.name) = m.resetEvents.map (·.name) := List.map_map
  simp only [build, unlocated, Machine.name_unlocated, Machine.events_unlocated,
    Machine.commands_unlocated, Machine.states_unlocated, Machine.initialStates_unlocated,
    checksum_unlocated, handlers_unlocated, codeTable_unlocated, hresets, List.head?_map,
    List.map_map, Option.map_map]
  rfl

end Program

/-- The generated text does not depend on locations, nor does the reason to refuse a machine. -/
theorem generate_unlocated : generate options m.unlocated = generate options m := by
  have hnames : m.unlocated.states.map (·.name) = m.states.map (·.name) := List.map_map
  rw [generate_eq, generate_eq, checkStates_unlocated, checkInitial_unlocated,
    checkReferences_unlocated, checkTransitions_unlocated, checkNames_unlocated,
    checkClasses_unlocated, Program.build_unlocated, Program.code_unlocated, hnames]

end StateMachine.Python
