import StateMachine.Proofs.Machine.Printable
import StateMachine.Proofs.Python.Accepted
import StateMachine.Proofs.Python.Module
import StateMachine.Proofs.Python.Semantics

/-!
What names stand for in the program of a machine. The class of a state is found by its name, since
no other class has it; an object of the class has the name of the state, a method for each event
that the state handles (`Generated.attribute?_handler`), and its own hooks or those of the base
(`Generated.attribute?_hook_of_free`) as far as no event is called like a hook, which none is in a
parsed machine.
-/

set_option autoImplicit false

namespace StateMachine.Python

open Machine

/-! ### Attributes of classes -/

namespace ClassDefinition

variable {c : ClassDefinition} {receiver v : Value} {name : String}

/-- What all of the last members that give something under a name give, whatever comes before. -/
theorem attribute?_eq_some_of_last {first last : List Member} (hmembers : c.members = first ++ last)
    (h : ∃ member ∈ last, member.attribute? receiver name = some v)
    (hunique : ∀ member ∈ last, ∀ w, member.attribute? receiver name = some w → w = v) :
    c.attribute? receiver name = some v := by
  obtain ⟨member, hmem, hv⟩ := h
  have hsome : (last.reverse.findSome? (Member.attribute? receiver name)).isSome :=
    List.findSome?_isSome_iff.mpr ⟨member, List.mem_reverse.mpr hmem, by rw [hv]; rfl⟩
  obtain ⟨w, hw⟩ := Option.isSome_iff_exists.mp hsome
  obtain ⟨other, hother, hfound⟩ := List.exists_of_findSome?_eq_some hw
  rw [attribute?, hmembers, List.reverse_append, List.findSome?_append, hw, Option.some_or,
    hunique other (List.mem_reverse.mp hother) w hfound]

/-- What all members that give something under a name give. -/
theorem attribute?_eq_some (h : ∃ member ∈ c.members, member.attribute? receiver name = some v)
    (hunique : ∀ member ∈ c.members, ∀ w, member.attribute? receiver name = some w → w = v) :
    c.attribute? receiver name = some v :=
  attribute?_eq_some_of_last (List.nil_append c.members).symm h hunique

theorem attribute?_eq_none
    (h : ∀ member ∈ c.members, ∀ w, member.attribute? receiver name ≠ some w) :
    c.attribute? receiver name = none := by
  rw [attribute?, List.findSome?_eq_none_iff]
  exact fun member hmem ↦
    Option.eq_none_iff_forall_ne_some.mpr (h member (List.mem_reverse.mp hmem))

end ClassDefinition

/-- The name of a hook's method. -/
def hookName : Hook → String
  | .entry => "on_entry"
  | .exit => "on_exit"

/-- A hook has the name of the method for an event that is called like its keyword. -/
theorem hookName_eq (hook : Hook) :
    hookName hook = Handler.methodName hook.keyword.spelling := by
  cases hook <;> rfl

namespace Handler

theorem methodName_inj {event other : String} : methodName event = methodName other ↔
    event = other :=
  String.append_right_inj "on_"

theorem methodName_ne {event name : String} (h : name.toList.head? ≠ some 'o') :
    methodName event ≠ name := by
  rintro rfl
  exact h (by simp [methodName])

/-- No event is called like a hook, since these are keywords. -/
theorem methodName_ne_hookName {event : String} (h : Identifier.isValid event) (hook : Hook) :
    methodName event ≠ hookName hook := by
  rw [hookName_eq, ne_eq, methodName_inj]
  rintro rfl
  rw [Identifier.isValid, Keyword.ofWord?_spelling, Option.isNone_some, Bool.and_false] at h
  cases h

end Handler

namespace Member

variable {receiver v : Value} {name : String}

theorem attribute?_constant {own : String} {c : Constant} :
    (constant own c).attribute? receiver name = some v ↔ own = name ∧ c.value = v := by
  rw [attribute?, Option.ite_some_none_eq_some]

theorem attribute?_method {m : Method} :
    (method m).attribute? receiver name = some v ↔ m.name = name ∧ .bound receiver m = v := by
  rw [attribute?, Option.ite_some_none_eq_some]

end Member

theorem exists_mem_hookMembers {own name : String} {action : Option String}
    {receiver v : Value} :
    (∃ member ∈ hookMembers own action, member.attribute? receiver name = some v) ↔
      ∃ a, action = some a ∧ own = name ∧ .bound receiver (hookMethod own a) = v := by
  cases action with
  | none => simp [hookMembers]
  | some a =>
    simp only [hookMembers, List.mem_cons, List.not_mem_nil, or_false, or_and_right, exists_or,
      exists_eq_left, Member.attribute?_method, Option.some.injEq]
    simp [Member.attribute?, hookMethod]

theorem exists_mem_handlerMembers {handlers : List Handler} {name : String}
    {receiver v : Value} :
    (∃ member ∈ handlers.flatMap fun h ↦ [Member.blank, .method h.method],
        member.attribute? receiver name = some v) ↔
      ∃ h ∈ handlers, Handler.methodName h.event = name ∧ .bound receiver h.method = v := by
  constructor
  · rintro ⟨member, hmem, hfound⟩
    obtain ⟨h, hh, hmember⟩ := List.mem_flatMap.mp hmem
    rcases List.mem_cons.mp hmember with rfl | hmethod
    · cases hfound
    · cases List.mem_singleton.mp hmethod
      exact ⟨h, hh, Member.attribute?_method.mp hfound⟩
  · rintro ⟨h, hmem, hfound⟩
    exact ⟨.method h.method, List.mem_flatMap.mpr ⟨h, hmem, by simp⟩,
      Member.attribute?_method.mpr hfound⟩

namespace StateClass

variable {c : StateClass} {base name : String} {receiver v : Value}

/-- The class of a state gives its objects the name of the state, the hooks that have an action, and
a method for each event. -/
def Gives (c : StateClass) (receiver : Value) (name : String) (v : Value) : Prop :=
  ("name" = name ∧ .text c.state.name = v) ∨
    (∃ hook action, c.state.action? hook = some action ∧ hookName hook = name ∧
      .bound receiver (hookMethod (hookName hook) action) = v) ∨
    ∃ h ∈ c.handlers, Handler.methodName h.event = name ∧ .bound receiver h.method = v

theorem exists_mem_definition :
    (∃ member ∈ (c.definition base).members, member.attribute? receiver name = some v) ↔
      c.Gives receiver name v := by
  have hhooks : (∃ hook action, c.state.action? hook = some action ∧ hookName hook = name ∧
      .bound receiver (hookMethod (hookName hook) action) = v) ↔
      (∃ member ∈ hookMembers "on_entry" c.state.entry,
          member.attribute? receiver name = some v) ∨
        ∃ member ∈ hookMembers "on_exit" c.state.exit,
          member.attribute? receiver name = some v := by
    rw [exists_mem_hookMembers, exists_mem_hookMembers]
    constructor
    · rintro ⟨hook, action, h⟩
      cases hook with
      | entry => exact Or.inl ⟨action, h⟩
      | exit => exact Or.inr ⟨action, h⟩
    · rintro (⟨action, h⟩ | ⟨action, h⟩)
      · exact ⟨.entry, action, h⟩
      · exact ⟨.exit, action, h⟩
  rw [Gives, hhooks, ← exists_mem_handlerMembers]
  simp only [definition, List.mem_cons, List.mem_append, or_and_right, exists_or, exists_eq_left,
    Member.attribute?_constant, Constant.value]

theorem attribute?_of_gives (h : c.Gives receiver name v)
    (hunique : ∀ w, c.Gives receiver name w → w = v) :
    (c.definition base).attribute? receiver name = some v :=
  ClassDefinition.attribute?_eq_some (exists_mem_definition.mpr h)
    fun member hmem w hw ↦ hunique w (exists_mem_definition.mp ⟨member, hmem, hw⟩)

/-- The handlers come last in the class, so that each of them is found by its name. -/
theorem attribute?_of_mem_handlers (hdistinct : c.handlers.Pairwise fun h k ↦ h.event ≠ k.event)
    {h : Handler} (hmem : h ∈ c.handlers) :
    (c.definition base).attribute? receiver (Handler.methodName h.event) =
      some (.bound receiver h.method) := by
  have hmembers : (c.definition base).members = (.constant "name" (.text c.state.name) ::
      (hookMembers "on_entry" c.state.entry ++ hookMembers "on_exit" c.state.exit)) ++
        c.handlers.flatMap fun h ↦ [Member.blank, .method h.method] := rfl
  refine ClassDefinition.attribute?_eq_some_of_last hmembers
    (exists_mem_handlerMembers.mpr ⟨h, hmem, rfl, rfl⟩) fun member hmember w hw ↦ ?_
  obtain ⟨k, hk, hname, rfl⟩ := exists_mem_handlerMembers.mp ⟨member, hmember, hw⟩
  have hfound := find?_eq_some_of_distinct hdistinct hk
  rw [Handler.methodName_inj.mp hname, find?_eq_some_of_distinct hdistinct hmem] at hfound
  cases hfound
  rfl

theorem attribute?_of_not_gives (h : ∀ w, ¬ c.Gives receiver name w) :
    (c.definition base).attribute? receiver name = none :=
  ClassDefinition.attribute?_eq_none
    fun member hmem w hw ↦ h w (exists_mem_definition.mp ⟨member, hmem, hw⟩)

end StateClass

/-! ### Classes of a program -/

/-- The class of a state of a machine. -/
def stateClass (options : Options) (m : Machine) (s : State) : StateClass :=
  ⟨stateClassName options s.name, s, handlers m s.name⟩

/-- The program of a machine as syntax. -/
def Module.ofMachine (options : Options) (m : Machine) : Module :=
  (Program.build options m).toModule

section Classes

variable {options : Options} {m : Machine} {s : State}

/-- The text of the program is the text that is generated. -/
theorem Generated.code_ofMachine (hgenerated : Generated options m) :
    (Module.ofMachine options m).code = (Program.build options m).code := by
  refine Program.code_toModule _ fun c hc h hmem ↦ ?_
  obtain ⟨s, hs, rfl⟩ := List.mem_map.mp hc
  exact ⟨(Handler.mem_group_iff.mp hmem).2, hgenerated.unambiguous s hs h hmem⟩

theorem Generated.class?_state (hgenerated : Generated options m) (hs : s ∈ m.states) :
    (Module.ofMachine options m).class? (stateClassName options s.name) =
      some ((stateClass options m s).definition (baseClassName m.name)) := by
  have hbase : ¬ ((Base.definition m.name).name == stateClassName options s.name) = true := by
    intro heq
    refine hgenerated.reserved s hs ?_
    rw [← beq_iff_eq.mp heq]
    simp [reservedNames, Base.definition]
  have hclasses : (Module.ofMachine options m).classes = Base.definition m.name ::
      m.states.map fun t ↦ (stateClass options m t).definition (baseClassName m.name) := by
    simp only [Module.ofMachine, Program.toModule, Program.build, List.map_map]
    rfl
  have hfind : m.states.find? (fun t ↦ stateClassName options t.name ==
      stateClassName options s.name) = some s :=
    find?_eq_some_of_distinct hgenerated.classes hs
  rw [Module.class?, hclasses]
  let hasName (c : ClassDefinition) : Bool := c.name == stateClassName options s.name
  refine (List.find?_cons_of_neg (p := hasName) hbase).trans ?_
  rw [List.find?_map]
  change Option.map _ (m.states.find? fun t ↦ stateClassName options t.name ==
      stateClassName options s.name) = _
  rw [hfind, Option.map_some]

theorem class?_base (options : Options) (m : Machine) :
    (Module.ofMachine options m).class? (baseClassName m.name) =
      some (Base.definition m.name) := by
  have hname : ((Base.definition m.name).name == baseClassName m.name) = true := beq_self_eq_true _
  exact List.find?_cons_of_pos hname

/-- What the state's own class does not give, the base gives. -/
theorem Generated.attribute?_state (hgenerated : Generated options m) (hs : s ∈ m.states)
    (store : Store) (name : String) :
    (Module.ofMachine options m).attribute? store (.state (stateClassName options s.name)) name =
      (((stateClass options m s).definition (baseClassName m.name)).attribute?
          (.state (stateClassName options s.name)) name <|>
        (Base.definition m.name).attribute? (.state (stateClassName options s.name)) name) := by
  rw [Module.attribute?, hgenerated.class?_state hs]
  change (_ <|> ((Module.ofMachine options m).class? (baseClassName m.name)).bind _) = _
  rw [class?_base]
  rfl

/-! ### Objects of states -/

/-- The object of a state. -/
def stateObject (options : Options) (s : State) : Value :=
  .state (stateClassName options s.name)

/-- The method of a hook: the state's own, or the one of the base that does nothing. -/
def hookOf (s : State) (hook : Hook) : Method :=
  match s.action? hook with
  | some action => hookMethod (hookName hook) action
  | none => Base.hook (hookName hook)

theorem hookName_ne_name (hook : Hook) : "name" ≠ hookName hook := by
  cases hook <;> decide

theorem hookName_inj {hook other : Hook} (h : hookName hook = hookName other) : hook = other := by
  cases hook <;> cases other <;> first | rfl | (revert h; decide)

theorem isValid_of_mem_handlers (hprintable : m.Printable) {h : Handler}
    (hmem : h ∈ handlers m s.name) : Identifier.isValid h.event := by
  obtain ⟨htransitions, hne⟩ := Handler.mem_group_iff.mp hmem
  obtain ⟨t, ht⟩ := List.exists_mem_of_ne_nil _ hne
  rw [htransitions] at ht
  simp only [outgoing, List.mem_filter, beq_iff_eq] at ht
  have hvalid := hprintable.transitions t ht.1.1
  simp only [Transition.isPrintable, Bool.and_eq_true] at hvalid
  rw [← ht.2]
  exact hvalid.1.1.2

namespace Generated

theorem attribute?_of_gives (hgenerated : Generated options m) (hs : s ∈ m.states) (store : Store)
    {name : String} {v : Value} (h : (stateClass options m s).Gives (stateObject options s) name v)
    (hunique : ∀ w, (stateClass options m s).Gives (stateObject options s) name w → w = v) :
    (Module.ofMachine options m).attribute? store (stateObject options s) name = some v := by
  rw [stateObject, hgenerated.attribute?_state hs, ← stateObject,
    StateClass.attribute?_of_gives h hunique]
  rfl

theorem attribute?_of_not_gives (hgenerated : Generated options m) (hs : s ∈ m.states)
    (store : Store) {name : String}
    (h : ∀ w, ¬ (stateClass options m s).Gives (stateObject options s) name w) :
    (Module.ofMachine options m).attribute? store (stateObject options s) name =
      (Base.definition m.name).attribute? (stateObject options s) name := by
  rw [stateObject, hgenerated.attribute?_state hs, ← stateObject,
    StateClass.attribute?_of_not_gives h]
  rfl

variable (hgenerated : Generated options m) (hs : s ∈ m.states) (store : Store)

include hgenerated hs

theorem attribute?_name :
    (Module.ofMachine options m).attribute? store (stateObject options s) "name" =
      some (.text s.name) := by
  refine hgenerated.attribute?_of_gives hs store (Or.inl ⟨rfl, rfl⟩) ?_
  rintro w (⟨-, rfl⟩ | ⟨hook, _, -, hname, -⟩ | ⟨h, -, hname, -⟩)
  · rfl
  · exact absurd hname.symm (hookName_ne_name hook)
  · exact absurd hname (Handler.methodName_ne (by decide))

theorem attribute?_handle :
    (Module.ofMachine options m).attribute? store (stateObject options s) "handle" =
      some (.bound (stateObject options s) Base.handle) := by
  refine (hgenerated.attribute?_of_not_gives hs store ?_).trans rfl
  rintro w (⟨hname, -⟩ | ⟨hook, _, -, hname, -⟩ | ⟨h, -, hname, -⟩)
  · exact absurd hname (by decide)
  · cases hook <;> exact absurd hname (by decide)
  · exact absurd hname (Handler.methodName_ne (by decide))

theorem attribute?_init :
    (Module.ofMachine options m).attribute? store (stateObject options s) "__init__" = none := by
  refine (hgenerated.attribute?_of_not_gives hs store ?_).trans rfl
  rintro w (⟨hname, -⟩ | ⟨hook, _, -, hname, -⟩ | ⟨h, -, hname, -⟩)
  · exact absurd hname (by decide)
  · cases hook <;> exact absurd hname (by decide)
  · exact absurd hname (Handler.methodName_ne (by decide))

/-- The method of a hook is found unless the state handles an event that is called like it. -/
theorem attribute?_hook_of_free {hook : Hook}
    (hfree : ∀ h ∈ handlers m s.name, Handler.methodName h.event ≠ hookName hook) :
    (Module.ofMachine options m).attribute? store (stateObject options s) (hookName hook) =
      some (.bound (stateObject options s) (hookOf s hook)) := by
  have hunique (w : Value)
      (hw : (stateClass options m s).Gives (stateObject options s) (hookName hook) w) :
      ∃ action, s.action? hook = some action ∧
        w = .bound (stateObject options s) (hookMethod (hookName hook) action) := by
    rcases hw with ⟨hname, -⟩ | ⟨other, action, haction, hname, rfl⟩ | ⟨h, hmem, hname, -⟩
    · exact absurd hname (hookName_ne_name hook)
    · cases hookName_inj hname
      exact ⟨action, haction, rfl⟩
    · exact absurd hname (hfree h hmem)
  cases haction : s.action? hook with
  | some action =>
    rw [hookOf, haction]
    refine hgenerated.attribute?_of_gives hs store
      (Or.inr (Or.inl ⟨hook, action, haction, rfl, rfl⟩)) fun w hw ↦ ?_
    obtain ⟨other, hother, rfl⟩ := hunique w hw
    cases haction.symm.trans hother
    rfl
  | none =>
    rw [hookOf, haction, hgenerated.attribute?_of_not_gives hs store fun w hw ↦ ?_]
    · cases hook <;> rfl
    · obtain ⟨other, hother, -⟩ := hunique w hw
      cases haction.symm.trans hother

theorem attribute?_hook (hprintable : m.Printable) (hook : Hook) :
    (Module.ofMachine options m).attribute? store (stateObject options s) (hookName hook) =
      some (.bound (stateObject options s) (hookOf s hook)) :=
  hgenerated.attribute?_hook_of_free hs store fun _ hmem ↦
    Handler.methodName_ne_hookName (isValid_of_mem_handlers hprintable hmem) hook

theorem attribute?_handler {h : Handler} (hmem : h ∈ handlers m s.name) :
    (Module.ofMachine options m).attribute? store (stateObject options s)
      (Handler.methodName h.event) = some (.bound (stateObject options s) h.method) := by
  have hdistinct := (Handler.grouped_group (m.outgoing s.name)).distinct
  have hown : ((stateClass options m s).definition (baseClassName m.name)).attribute?
      (stateObject options s) (Handler.methodName h.event) =
        some (.bound (stateObject options s) h.method) :=
    StateClass.attribute?_of_mem_handlers hdistinct hmem
  rw [stateObject, hgenerated.attribute?_state hs, ← stateObject, hown]
  rfl

/-- An event that the state does not handle is not found, unless it is called like a hook. -/
theorem attribute?_unhandled {event : String} (hevent : Identifier.isValid event)
    (hnone : ∀ h ∈ handlers m s.name, h.event ≠ event) :
    (Module.ofMachine options m).attribute? store (stateObject options s)
      (Handler.methodName event) = none := by
  rw [hgenerated.attribute?_of_not_gives hs store]
  · refine ClassDefinition.attribute?_eq_none fun member hmem w hw ↦ ?_
    simp only [Base.definition, List.mem_cons, List.not_mem_nil, or_false] at hmem
    rcases hmem with rfl | rfl | rfl | rfl | rfl | rfl | rfl | rfl | rfl
    · cases hw
    · cases hw
    · exact absurd (Member.attribute?_constant.mp hw).1.symm (Handler.methodName_ne (by decide))
    · cases hw
    · exact absurd (Member.attribute?_method.mp hw).1.symm
        (Handler.methodName_ne_hookName hevent .entry)
    · cases hw
    · exact absurd (Member.attribute?_method.mp hw).1.symm
        (Handler.methodName_ne_hookName hevent .exit)
    · cases hw
    · exact absurd (Member.attribute?_method.mp hw).1.symm (Handler.methodName_ne (by decide))
  · rintro w (⟨hname, -⟩ | ⟨hook, _, -, hname, -⟩ | ⟨h, hmem, hname, -⟩)
    · exact absurd hname.symm (Handler.methodName_ne (by decide))
    · exact absurd hname.symm (Handler.methodName_ne_hookName hevent hook)
    · exact hnone h hmem (Handler.methodName_inj.mp hname)

end Generated

end Classes

end StateMachine.Python
