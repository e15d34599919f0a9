import Mathlib.Data.List.Nodup
import StateMachine.Proofs.Python.Attribute
import StateMachine.Proofs.Simulation.Run

/-!
The methods that are visible on the class of a state, its own and those of the base. There is one
for each event that the state handles and one for each hook, which the base has for every state, so
that an event that is called like a hook is found although no transition has it
(`Generated.mem_visibleMethods_iff`). The own methods have distinct names unless the state handles
an event that is called like a hook with an action (`nodup_methodNames_iff`); the handler then
replaces the hook (`Generated.attribute?_hook_iff`).
-/

set_option autoImplicit false

namespace StateMachine.Python

open Machine

/-! ### Names of methods -/

def Member.methodName? : Member → Option String
  | .method m => some m.name
  | _ => none

/-- The names of the methods that a class defines itself, in their order. -/
def ClassDefinition.methodNames (c : ClassDefinition) : List String :=
  c.members.filterMap Member.methodName?

/-- The names of the methods that objects of a class have: its own and those of its base. -/
def Module.visibleMethods (program : Module) (className : String) : List String :=
  (program.class? className).elim [] fun c ↦
    c.methodNames ++ (c.base.bind program.class?).elim [] ClassDefinition.methodNames

/-- The hooks of a state that have an action. -/
def ownHooks (s : State) : List Hook :=
  [Hook.entry, Hook.exit].filter fun hook ↦ (s.action? hook).isSome

theorem mem_ownHooks_iff {s : State} {hook : Hook} :
    hook ∈ ownHooks s ↔ (s.action? hook).isSome := by
  cases hook <;> simp [ownHooks]

theorem methodNames_hookMembers (name : String) (action : Option String) :
    (hookMembers name action).filterMap Member.methodName? =
      if action.isSome then [name] else [] := by
  cases action <;> rfl

theorem methodNames_handlerMembers (handlers : List Handler) :
    (handlers.flatMap fun h ↦ [Member.blank, .method h.method]).filterMap Member.methodName? =
      handlers.map fun h ↦ Handler.methodName h.event := by
  induction handlers with
  | nil => rfl
  | cons h rest ih =>
    rw [List.flatMap_cons, List.filterMap_append, ih]
    rfl

namespace StateClass

/-- The class of a state has a method for each of its own hooks and then one for each event. -/
theorem methodNames_definition (base : String) (c : StateClass) :
    (c.definition base).methodNames = (ownHooks c.state).map hookName ++
      c.handlers.map fun h ↦ Handler.methodName h.event := by
  have hhooks : (ownHooks c.state).map hookName =
      (hookMembers "on_entry" c.state.entry).filterMap Member.methodName? ++
        (hookMembers "on_exit" c.state.exit).filterMap Member.methodName? := by
    rw [methodNames_hookMembers, methodNames_hookMembers, ownHooks, List.filter_cons,
      List.filter_singleton]
    cases hentry : c.state.entry <;> cases hexit : c.state.exit <;>
      simp [State.action?, hentry, hexit, hookName]
  rw [ClassDefinition.methodNames, definition, List.filterMap_cons_none rfl, List.filterMap_append,
    List.filterMap_append, ← hhooks, methodNames_handlerMembers]

end StateClass

/-! ### Methods of the class of a state -/

section Visible

variable {options : Options} {m : Machine} {s : State}

theorem methodNames_stateClass (options : Options) (m : Machine) (s : State) :
    ((stateClass options m s).definition (baseClassName m.name)).methodNames =
      (ownHooks s).map hookName ++ (m.eventsFrom s.name).map Handler.methodName := by
  rw [StateClass.methodNames_definition, eventsFrom, ← Handler.events_group, List.map_map]
  rfl

/-- No two methods of the class have the same name unless an event is called like a hook that the
class defines. -/
theorem nodup_methodNames_iff :
    ((stateClass options m s).definition (baseClassName m.name)).methodNames.Nodup ↔
      ∀ hook : Hook, (s.action? hook).isSome → hook.keyword.spelling ∉ m.eventsFrom s.name := by
  have hhooks : ((ownHooks s).map hookName).Nodup :=
    List.Nodup.map (fun _ _ ↦ hookName_inj) (List.Nodup.filter _ (by decide))
  have hevents : ((m.eventsFrom s.name).map Handler.methodName).Nodup := by
    refine List.Nodup.map (fun _ _ ↦ Handler.methodName_inj.mp) ?_
    rw [eventsFrom, ← Handler.events_group]
    exact List.pairwise_map.mpr (Handler.grouped_group _).distinct
  rw [methodNames_stateClass, List.nodup_append]
  constructor
  · rintro ⟨-, -, hdisjoint⟩ hook haction hmem
    exact hdisjoint _ (List.mem_map_of_mem (mem_ownHooks_iff.mpr haction)) _
      (List.mem_map_of_mem hmem) (hookName_eq hook)
  · intro hfree
    refine ⟨hhooks, hevents, ?_⟩
    rintro _ hhook _ hevent heq
    obtain ⟨hook, hmem, rfl⟩ := List.mem_map.mp hhook
    obtain ⟨event, hhandled, rfl⟩ := List.mem_map.mp hevent
    rw [hookName_eq, Handler.methodName_inj] at heq
    exact hfree hook (mem_ownHooks_iff.mp hmem) (heq ▸ hhandled)

/-- The method for an event is none of the hooks: it takes a transition or raises. -/
theorem method_ne_hookOf (h : Handler) (hook : Hook) : h.method ≠ hookOf s hook := by
  have hhook : ∃ statement : SimpleStatement,
      (hookOf s hook).body = [.simple statement] ∧ ∀ c, statement ≠ .answer c := by
    unfold hookOf
    split
    · exact ⟨_, rfl, fun c ↦ SimpleStatement.noConfusion⟩
    · exact ⟨_, rfl, fun c ↦ SimpleStatement.noConfusion⟩
  intro heq
  obtain ⟨statement, hbody, hanswer⟩ := hhook
  rw [← heq] at hbody
  change h.body = _ at hbody
  unfold Handler.body at hbody
  split at hbody
  · simp at hbody
  · obtain ⟨t, -, ht⟩ := List.map_eq_singleton_iff.mp hbody
    cases ht
    exact hanswer _ rfl

namespace Generated

variable (hgenerated : Generated options m) (hs : s ∈ m.states)

include hgenerated hs

theorem visibleMethods_eq :
    (Module.ofMachine options m).visibleMethods (stateClassName options s.name) =
      ((stateClass options m s).definition (baseClassName m.name)).methodNames ++
        ["on_entry", "on_exit", "handle"] := by
  rw [Module.visibleMethods, hgenerated.class?_state hs]
  change _ ++ ((Module.ofMachine options m).class? (baseClassName m.name)).elim [] _ = _
  rw [class?_base]
  rfl

/-- The methods for events that are visible: those for the events that the state handles, and those
for the keywords of hooks. -/
theorem mem_visibleMethods_iff {event : String} : Handler.methodName event ∈
      (Module.ofMachine options m).visibleMethods (stateClassName options s.name) ↔
    event ∈ m.eventsFrom s.name ∨ ∃ hook : Hook, event = hook.keyword.spelling := by
  have hbase : Handler.methodName event ∈ ["on_entry", "on_exit", "handle"] ↔
      ∃ hook : Hook, event = hook.keyword.spelling := by
    have hhandle : Handler.methodName event ≠ "handle" := Handler.methodName_ne (by decide)
    have hhook (hook : Hook) :
        Handler.methodName event = hookName hook ↔ event = hook.keyword.spelling := by
      rw [hookName_eq, Handler.methodName_inj]
    simp only [List.mem_cons, List.not_mem_nil, or_false, hhandle]
    constructor
    · rintro (hentry | hexit)
      · exact ⟨.entry, (hhook .entry).mp hentry⟩
      · exact ⟨.exit, (hhook .exit).mp hexit⟩
    · rintro ⟨_ | _, hevent⟩
      · exact Or.inl ((hhook .entry).mpr hevent)
      · exact Or.inr ((hhook .exit).mpr hevent)
  have hown : Handler.methodName event ∈ (m.eventsFrom s.name).map Handler.methodName ↔
      event ∈ m.eventsFrom s.name :=
    List.mem_map_of_injective fun _ _ ↦ Handler.methodName_inj.mp
  rw [hgenerated.visibleMethods_eq hs, methodNames_stateClass, List.mem_append, List.mem_append,
    hbase, hown]
  constructor
  · rintro ((hhook | hevent) | hbase)
    · obtain ⟨hook, -, hname⟩ := List.mem_map.mp hhook
      rw [hookName_eq, Handler.methodName_inj] at hname
      exact Or.inr ⟨hook, hname.symm⟩
    · exact Or.inl hevent
    · exact Or.inr hbase
  · rintro (hevent | hbase)
    · exact Or.inl (Or.inr hevent)
    · exact Or.inr hbase

/-- A hook is found under its name exactly if no event that the state handles is called like it. -/
theorem attribute?_hook_iff (store : Store) (hook : Hook) :
    (Module.ofMachine options m).attribute? store (stateObject options s) (hookName hook) =
        some (.bound (stateObject options s) (hookOf s hook)) ↔
      hook.keyword.spelling ∉ m.eventsFrom s.name := by
  rw [eventsFrom, ← Handler.events_group]
  constructor
  · intro hfound hmem
    obtain ⟨h, hh, hevent⟩ := List.mem_map.mp hmem
    have hhandler := hgenerated.attribute?_handler hs store hh
    rw [hevent, ← hookName_eq, hfound] at hhandler
    injection hhandler with hbound
    injection hbound with _ hmethod
    exact method_ne_hookOf h hook hmethod.symm
  · intro hfree
    refine hgenerated.attribute?_hook_of_free hs store fun h hh hname ↦ hfree ?_
    rw [hookName_eq, Handler.methodName_inj] at hname
    exact hname ▸ List.mem_map_of_mem hh

end Generated

/-- On the class of a state, methods are visible for the events that the state handles, which are
those that a run does not answer with an invalid transition, and for the keywords of hooks. The
class gives its methods distinct names unless the state handles an event that is called like one of
its own hooks. Every handler is found by its name, and so is a hook unless the state handles an
event that is called like it. -/
theorem visibleMethods_of_generate {text : String} (h : generate options m = .ok text)
    (hs : s ∈ m.states) :
    text = Code.text options.indentWidth (Module.ofMachine options m).code ∧
      (∀ event, Handler.methodName event ∈
          (Module.ofMachine options m).visibleMethods (stateClassName options s.name) ↔
        event ∈ m.eventsFrom s.name ∨ ∃ hook : Hook, event = hook.keyword.spelling) ∧
      (∀ event, m.isResetEvent event = false → ∀ context payload,
        (Run.apply m ⟨s.name, context⟩ event payload = .error (.invalidTransition s.name event) ↔
          event ∉ m.eventsFrom s.name)) ∧
      (∃ c, (Module.ofMachine options m).class? (stateClassName options s.name) = some c ∧
        (c.methodNames.Nodup ↔ ∀ hook : Hook, (s.action? hook).isSome →
          hook.keyword.spelling ∉ m.eventsFrom s.name)) ∧
      ∀ store,
        (∀ handler ∈ handlers m s.name,
          (Module.ofMachine options m).attribute? store (stateObject options s)
              (Handler.methodName handler.event) =
            some (.bound (stateObject options s) handler.method)) ∧
        ∀ hook : Hook,
          (Module.ofMachine options m).attribute? store (stateObject options s) (hookName hook) =
              some (.bound (stateObject options s) (hookOf s hook)) ↔
            hook.keyword.spelling ∉ m.eventsFrom s.name := by
  obtain ⟨hgenerated, htext⟩ := generated_of_generate h
  refine ⟨?_, fun event ↦ hgenerated.mem_visibleMethods_iff hs,
    fun event hreset context payload ↦ ?_,
    ⟨_, hgenerated.class?_state hs, nodup_methodNames_iff⟩, fun store ↦
    ⟨fun handler hmem ↦ hgenerated.attribute?_handler hs store hmem, fun hook ↦
      hgenerated.attribute?_hook_iff hs store hook⟩⟩
  · rw [htext, hgenerated.code_ofMachine]
  · have happly : Run.apply m ⟨s.name, context⟩ event payload =
        .error (.invalidTransition s.name event) ↔ _ := Run.apply_eq_invalidTransition_iff
    rw [happly, and_iff_right hreset]

end Visible

/-- An oven whose lamp is on while its door is open. -/
def oven : Machine :=
  { Machine.empty "oven" with
    states := [⟨"closed", true, none, none, .unplaced⟩,
      ⟨"open", false, some "lamp_on", some "lamp_off", .unplaced⟩]
    transitions := [⟨"closed", "open", "push", none, none, .unplaced⟩,
      ⟨"open", "closed", "pull", none, none, .unplaced⟩] }

theorem visibleMethods_oven :
    ∃ text, generate .standard oven = .ok text ∧
      text = Code.text 4 (Module.ofMachine .standard oven).code ∧
      Handler.methodName "pull" ∈ (Module.ofMachine .standard oven).visibleMethods "OpenState" ∧
      Handler.methodName "push" ∉ (Module.ofMachine .standard oven).visibleMethods "OpenState" ∧
      ∃ c, (Module.ofMachine .standard oven).class? "OpenState" = some c ∧ c.methodNames.Nodup := by
  obtain ⟨text, h⟩ := exists_eq_ok (x := generate .standard oven) (by decide +kernel)
  have hclass : stateClassName .standard "open" = "OpenState" := by decide +kernel
  obtain ⟨htext, hvisible, -, ⟨c, hc, hnodup⟩, -⟩ := visibleMethods_of_generate h
    (s := ⟨"open", false, some "lamp_on", some "lamp_off", .unplaced⟩) (by decide)
  dsimp only at hvisible hc
  rw [hclass] at hc
  simp only [hclass] at hvisible
  refine ⟨text, h, htext, (hvisible "pull").mpr (Or.inl (by decide)), ?_, c, hc,
    hnodup.mpr fun hook _ ↦ by cases hook <;> decide⟩
  rw [hvisible "push"]
  rintro (hmem | ⟨hook, heq⟩)
  · exact absurd hmem (by decide)
  · cases hook <;> exact absurd heq (by decide)

/-- A state with an entry action and an event that is called like the hook. -/
def revolvingDoor : Machine :=
  { Machine.empty "door" with
    states := [⟨"turning", true, some "greet", none, .unplaced⟩]
    transitions := [⟨"turning", "turning", "entry", none, none, .unplaced⟩] }

/-- A program is generated, in which the method of the hook is defined twice, the second time as the
handler of the event; and the event `exit` has a method, although a run has no transition on it. -/
theorem visibleMethods_revolvingDoor : (∃ text, generate .standard revolvingDoor = .ok text) ∧
    (∃ c, (Module.ofMachine .standard revolvingDoor).class? "TurningState" = some c ∧
      c.methodNames = ["on_entry", "on_entry"]) ∧
    Handler.methodName "exit" ∈
      (Module.ofMachine .standard revolvingDoor).visibleMethods "TurningState" ∧
    "exit" ∉ revolvingDoor.eventsFrom "turning" ∧
    ∀ context payload, Run.apply revolvingDoor ⟨"turning", context⟩ "exit" payload =
      .error (.invalidTransition "turning" "exit") :=
  ⟨exists_eq_ok (by decide +kernel), ⟨_, rfl, by decide +kernel⟩, by decide +kernel, by decide,
    fun _ _ ↦ rfl⟩

end StateMachine.Python
