import StateMachine.Proofs.Python.Attribute
import StateMachine.Proofs.Python.Execution
import StateMachine.Proofs.Simulation.Run

/-!
Taking a transition in a generated program: a hook runs the action of its state (`call_hook`),
`enter` makes the object of a state the current one (`call_enter`), and `transition` runs the
actions that a run of the machine has between the two states (`call_transition`).
-/

set_option autoImplicit false

namespace StateMachine.Python

open Machine Execution

/-! ### The dispatcher's own attributes -/

/-- The dispatcher has set nothing but its context and its state. -/
def Store.Regular (s : Store) : Prop :=
  ∀ name, name ≠ "ctx" → name ≠ "state" → s.attributes name = none

namespace Store

variable {s : Store}

theorem regular_empty : empty.Regular :=
  fun _ _ _ ↦ rfl

theorem Regular.run (h : s.Regular) (actions : List String) : (s.run actions).Regular :=
  h

theorem Regular.add (h : s.Regular) (members : Members) : (s.add members).Regular :=
  h

theorem Regular.setContext (h : s.Regular) (v : Value) : (s.setAttribute "ctx" v).Regular := by
  intro name hctx hstate
  rw [attributes_setAttribute, if_neg hctx]
  exact h name hctx hstate

theorem Regular.setState (h : s.Regular) (v : Value) : (s.setAttribute "state" v).Regular := by
  intro name hctx hstate
  rw [attributes_setAttribute, if_neg hstate]
  exact h name hctx hstate

theorem setAttribute_self {name : String} {v : Value} (h : s.attributes name = some v) :
    s.setAttribute name v = s := by
  have hsame : (s.setAttribute name v).attributes = s.attributes := by
    funext other
    rw [attributes_setAttribute]
    split
    · next heq => rw [heq, h]
    · rfl
  have hset : s.setAttribute name v = { s with attributes := (s.setAttribute name v).attributes } :=
    rfl
  rw [hset, hsame]

end Store

section

variable {options : Options} {m : Machine} {s : Store} {locals : Locals} {v : Value}
  {name : String}

theorem attribute?_set {program : Module} (h : s.attributes name = some v) :
    program.attribute? s .dispatcher name = some v := by
  rw [Module.attribute?, h]
  rfl

theorem attribute?_dispatcher (hregular : s.Regular) (hctx : name ≠ "ctx")
    (hstate : name ≠ "state") :
    (Module.ofMachine options m).attribute? s .dispatcher name =
      (Program.build options m).dispatcherDefinition.attribute? .dispatcher name := by
  rw [Module.attribute?, hregular name hctx hstate]
  rfl

theorem attribute?_ownMethod (hregular : s.Regular) (method : Method)
    (hmem : method ∈ Dispatcher.methods) :
    (Module.ofMachine options m).attribute? s .dispatcher method.name =
      some (.bound .dispatcher method) := by
  simp only [Dispatcher.methods, List.mem_cons, List.not_mem_nil, or_false] at hmem
  rcases hmem with rfl | rfl | rfl | rfl | rfl <;>
    exact (attribute?_dispatcher hregular (by decide) (by decide)).trans rfl

theorem eval_own {program : Module} (hself : locals.lookup "self" = some .dispatcher)
    (h : program.attribute? s .dispatcher name = some v) :
    (Dispatcher.own name).eval program locals s = .ok v s :=
  Expression.eval_attribute (Expression.eval_reference hself) h

/-! ### Hooks -/

theorem call_runAction (fuel : Nat) (action : String) :
    (Module.ofMachine options m).call (fuel + 1) (.bound .dispatcher Dispatcher.runAction)
      [.text action] s = .ok .nothing (s.run [action]) :=
  rfl

/-- A hook runs the action of its state. -/
theorem call_hook (hregular : s.Regular) (fuel : Nat) (state : State) (hook : Hook)
    (ctx : Value) :
    (Module.ofMachine options m).call (fuel + 2)
        (.bound (stateObject options state) (hookOf state hook)) [.dispatcher, ctx] s =
      .ok .nothing (s.run (state.action? hook).toList) := by
  cases haction : state.action? hook with
  | none =>
    rw [hookOf, haction, Module.call_bound (fuel + 1) rfl rfl, Option.toList_none, Store.run_nil]
    rfl
  | some action =>
    have hmethod : (Module.ofMachine options m).attribute? s .dispatcher "run_action" =
        some (.bound .dispatcher Dispatcher.runAction) :=
      attribute?_ownMethod hregular Dispatcher.runAction (by simp [Dispatcher.methods])
    let locals : Locals :=
      [("self", stateObject options state), ("machine", .dispatcher), ("ctx", ctx)]
    have hmachine : (Expression.reference "machine").eval (Module.ofMachine options m) locals s =
        .ok .dispatcher s :=
      Expression.eval_reference rfl
    rw [hookOf, haction, Module.call_bound (fuel + 1) rfl rfl]
    have hcall : (Computation.call (.attribute (.reference "machine") "run_action")
        [.literal action]).eval (Module.ofMachine options m)
          ((Module.ofMachine options m).call (fuel + 1)) locals s =
        .ok .nothing (s.run [action]) :=
      (Computation.eval_call (Expression.eval_attribute hmachine hmethod)
        (Expression.mapM_cons Expression.eval_literal Expression.mapM_nil)).trans
          (call_runAction fuel action)
    exact Statement.execAll_next (Statement.exec_simple.trans (SimpleStatement.exec_perform hcall))

/-! ### Entering a state -/

theorem call_stateClass (hgenerated : Generated options m) {state : State}
    (hstate : state ∈ m.states) (fuel : Nat) :
    (Module.ofMachine options m).call (fuel + 1) (.stateClass (stateClassName options state.name))
      [] s = .ok (stateObject options state) s := by
  rw [Module.call, bind_get, ← stateObject, hgenerated.attribute?_init hstate]
  rfl

/-- The class of a state is found by the name of the state. -/
theorem item?_states (hgenerated : Generated options m) {state : State}
    (hstate : state ∈ m.states) :
    (Value.classes ((Program.build options m).states.map fun c ↦
        (c.state.name, c.className))).item? (.text state.name) =
      some (.stateClass (stateClassName options state.name)) := by
  have hdistinct : m.states.reverse.Pairwise fun s t ↦ s.name ≠ t.name := by
    rw [List.pairwise_reverse]
    refine hgenerated.classes.imp fun h heq ↦ h ?_
    rw [heq]
  have hfind := find?_eq_some_of_distinct hdistinct (List.mem_reverse.mpr hstate)
  have hentries : (Program.build options m).states.map (fun c ↦ (c.state.name, c.className)) =
      m.states.map fun t ↦ (t.name, stateClassName options t.name) := by
    simp only [Program.build, List.map_map]
    rfl
  rw [hentries, Value.item?, ← List.map_reverse, List.find?_map]
  change ((m.states.reverse.find? (·.name == state.name)).map _).map _ = _
  rw [hfind]
  rfl

/-- Entering makes the object of the state the current one and runs the entry action. -/
theorem call_enter (hgenerated : Generated options m) (hprintable : m.Printable)
    (hregular : s.Regular) {target : State} (htarget : target ∈ m.states) (fuel : Nat)
    (ctx : Value) :
    (Module.ofMachine options m).call (fuel + 3) (.bound .dispatcher Dispatcher.enter)
        [.text target.name, ctx] s =
      .ok (stateObject options target)
        ((s.setAttribute "state" (stateObject options target)).run target.entry.toList) := by
  let program := Module.ofMachine options m
  let locals : Locals := [("self", .dispatcher), ("target", .text target.name), ("ctx", ctx)]
  let entered := s.setAttribute "state" (stateObject options target)
  have hstates : program.attribute? s .dispatcher "states" = _ :=
    attribute?_dispatcher hregular (by decide) (by decide)
  have hobject : (Computation.call (.item (Dispatcher.own "states") (.reference "target"))
      []).eval program (program.call (fuel + 2)) locals s = .ok (stateObject options target) s :=
    (Computation.eval_call (Expression.eval_item (eval_own rfl hstates)
      (Expression.eval_reference rfl) (item?_states hgenerated htarget))
        Expression.mapM_nil).trans (call_stateClass hgenerated htarget (fuel + 1))
  have hstate (t : Store) (ht : t.attributes "state" = some (stateObject options target)) :
      (Dispatcher.own "state").eval program locals t = .ok (stateObject options target) t :=
    eval_own rfl (attribute?_set ht)
  have hentry : (Expression.attribute (Dispatcher.own "state") "on_entry").eval program locals
      entered = .ok (.bound (stateObject options target) (hookOf target .entry)) entered :=
    Expression.eval_attribute (hstate entered rfl)
      (hgenerated.attribute?_hook htarget entered hprintable .entry)
  have hcall : (Computation.call (.attribute (Dispatcher.own "state") "on_entry")
      [selfReference, .reference "ctx"]).eval program (program.call (fuel + 2)) locals entered =
        .ok .nothing (entered.run target.entry.toList) :=
    (Computation.eval_call hentry (Expression.mapM_cons (Expression.eval_reference rfl)
      (Expression.mapM_cons (Expression.eval_reference rfl) Expression.mapM_nil))).trans
        (call_hook (hregular.setState _) fuel target .entry ctx)
  rw [Module.call_bound (fuel + 2) rfl rfl]
  calc Statement.execAll program (program.call (fuel + 2)) Dispatcher.enter.body locals s
    _ = Statement.execAll program (program.call (fuel + 2)) _ locals entered :=
        Statement.execAll_next (SimpleStatement.exec_setAttribute hobject rfl)
    _ = Statement.execAll program (program.call (fuel + 2)) _ locals
          (entered.run target.entry.toList) :=
        Statement.execAll_next (SimpleStatement.exec_perform hcall)
    _ = .ok (stateObject options target) (entered.run target.entry.toList) :=
        Statement.execAll_answered (SimpleStatement.exec_answer (hstate _ rfl))

/-! ### Taking a transition -/

/-- What an optional action is passed as. -/
def actionValue (action : Option String) : Value :=
  (action.map Value.text).getD .nothing

/-- The store behind a transition: the actions between the states were run. -/
def Store.taken (options : Options) (m : Machine) (s : Store) (source target : State)
    (action : Option String) : Store :=
  (s.setAttribute "state" (stateObject options target)).run
    (Run.actionsBetween m source.name target action)

theorem Store.Regular.taken (h : s.Regular) (source target : State) (action : Option String) :
    (s.taken options m source target action).Regular :=
  (h.setState _).run _

/-- What the action of a hook contributes: nothing if the state does not change. -/
def onChange (source target : State) (action : Option String) : List String :=
  if target.name = source.name then [] else action.toList

theorem Generated.state?_eq_some (hgenerated : Generated options m) {state : State}
    (hstate : state ∈ m.states) : m.state? state.name = some state :=
  find?_eq_some_of_distinct (hgenerated.classes.imp fun h heq ↦ h (by rw [heq])) hstate

theorem Generated.actionsBetween_eq (hgenerated : Generated options m) {source : State}
    (hsource : source ∈ m.states) (target : State) (action : Option String) :
    Run.actionsBetween m source.name target action =
      onChange source target source.exit ++ action.toList ++
        onChange source target target.entry := by
  unfold Run.actionsBetween onChange
  by_cases hsame : target.name = source.name
  · rw [beq_iff_eq.mpr hsame, if_pos rfl, if_pos hsame, if_pos hsame, List.nil_append,
      List.append_nil]
  · rw [beq_false_of_ne hsame, if_neg Bool.false_ne_true, if_neg hsame, if_neg hsame,
      hgenerated.state?_eq_some hsource, Option.bind_some]

/-- The variables of `transition` once it knows whether the state changes. -/
def transitionLocals (source target : State) (action : Option String) (ctx : Value) : Locals :=
  [("changed", .truth (target.name ≠ source.name)), ("self", .dispatcher),
    ("target", .text target.name), ("action", actionValue action), ("ctx", ctx)]

section Statements

variable {source target : State} (action : Option String) (ctx : Value) (fuel : Nat)

theorem eval_changed {program : Module} :
    (Expression.reference "changed").eval program (transitionLocals source target action ctx) s =
      .ok (.truth (target.name ≠ source.name)) s :=
  Expression.eval_reference rfl

theorem isTrue_changed (h : target.name ≠ source.name) :
    s.isTrue (.truth (target.name ≠ source.name)) := by
  rw [Store.isTrue, decide_eq_true h]

theorem isTrue_unchanged (h : target.name = source.name) :
    s.isTrue (.truth (target.name ≠ source.name)) = false := by
  rw [Store.isTrue, decide_eq_false (not_not_intro h)]

theorem exec_exitIfChanged (hgenerated : Generated options m) (hprintable : m.Printable)
    (hregular : s.Regular) (hstate : s.attributes "state" = some (stateObject options source))
    (hsource : source ∈ m.states) :
    Dispatcher.exitIfChanged.exec (Module.ofMachine options m)
        ((Module.ofMachine options m).call (fuel + 2)) (transitionLocals source target action ctx)
        s =
      .ok (.next (transitionLocals source target action ctx))
        (s.run (onChange source target source.exit)) := by
  by_cases hsame : target.name = source.name
  · rw [onChange, if_pos hsame, Store.run_nil]
    exact Statement.exec_choice_skip (eval_changed action ctx) (isTrue_unchanged hsame)
  · rw [onChange, if_neg hsame]
    refine (Statement.exec_choice_of_isTrue (eval_changed action ctx)
      (isTrue_changed hsame)).trans (SimpleStatement.exec_perform (v := .nothing) ?_)
    exact (Computation.eval_send (eval_own rfl (attribute?_set hstate))
      (hgenerated.attribute?_hook hsource s hprintable .exit)
      (Expression.mapM_cons (Expression.eval_reference rfl)
        (Expression.mapM_cons (Expression.eval_reference rfl) Expression.mapM_nil))).trans
      (call_hook hregular fuel source .exit ctx)

theorem exec_runIfAction (hregular : s.Regular) :
    Dispatcher.runIfAction.exec (Module.ofMachine options m)
        ((Module.ofMachine options m).call (fuel + 1)) (transitionLocals source target action ctx)
        s =
      .ok (.next (transitionLocals source target action ctx)) (s.run action.toList) := by
  have hreference : (Expression.reference "action").eval (Module.ofMachine options m)
      (transitionLocals source target action ctx) s = .ok (actionValue action) s :=
    Expression.eval_reference rfl
  cases action with
  | none =>
    rw [Option.toList_none, Store.run_nil]
    exact Statement.exec_choice_skip (Expression.eval_isSomething hreference) rfl
  | some a =>
    have hmethod : (Module.ofMachine options m).attribute? s .dispatcher "run_action" =
        some (.bound .dispatcher Dispatcher.runAction) :=
      attribute?_ownMethod hregular Dispatcher.runAction (by simp [Dispatcher.methods])
    refine (Statement.exec_choice_of_isTrue (Expression.eval_isSomething hreference) rfl).trans
      (SimpleStatement.exec_perform (v := .nothing) ?_)
    exact (Computation.eval_call (eval_own rfl hmethod)
      (Expression.mapM_cons hreference Expression.mapM_nil)).trans (call_runAction fuel a)

/-- A state that does not change is the target already. -/
theorem exec_enterIfChanged (hgenerated : Generated options m) (hprintable : m.Printable)
    (hregular : s.Regular) (hstate : s.attributes "state" = some (stateObject options source))
    (htarget : target ∈ m.states) :
    Dispatcher.enterIfChanged.exec (Module.ofMachine options m)
        ((Module.ofMachine options m).call (fuel + 3)) (transitionLocals source target action ctx)
        s =
      .ok (.next (transitionLocals source target action ctx))
        ((s.setAttribute "state" (stateObject options target)).run
          (onChange source target target.entry)) := by
  by_cases hsame : target.name = source.name
  · have hobject : stateObject options target = stateObject options source := by
      rw [stateObject, hsame, ← stateObject]
    rw [onChange, if_pos hsame, Store.run_nil, hobject, Store.setAttribute_self hstate]
    exact Statement.exec_choice_skip (eval_changed action ctx) (isTrue_unchanged hsame)
  · have hmethod : (Module.ofMachine options m).attribute? s .dispatcher "enter" =
        some (.bound .dispatcher Dispatcher.enter) :=
      attribute?_ownMethod hregular Dispatcher.enter (by simp [Dispatcher.methods])
    rw [onChange, if_neg hsame]
    refine (Statement.exec_choice_of_isTrue (eval_changed action ctx)
      (isTrue_changed hsame)).trans
        (SimpleStatement.exec_perform (v := stateObject options target) ?_)
    exact (Computation.eval_call (eval_own rfl hmethod)
      (Expression.mapM_cons (Expression.eval_reference rfl)
        (Expression.mapM_cons (Expression.eval_reference rfl) Expression.mapM_nil))).trans
      (call_enter hgenerated hprintable hregular htarget fuel ctx)

end Statements

/-- A transition runs the exit action of its source, its own action and the entry action of its
target, and only its own action if it does not leave the state. -/
theorem call_transition (hgenerated : Generated options m) (hprintable : m.Printable)
    (hregular : s.Regular) {source target : State}
    (hstate : s.attributes "state" = some (stateObject options source))
    (hsource : source ∈ m.states) (htarget : target ∈ m.states) (action : Option String)
    (fuel : Nat) (ctx : Value) :
    (Module.ofMachine options m).call (fuel + 4) (.bound .dispatcher Dispatcher.transition)
        [.text target.name, actionValue action, ctx] s =
      .ok (stateObject options target) (s.taken options m source target action) := by
  let program := Module.ofMachine options m
  let call := program.call (fuel + 3)
  let parameters : Locals := [("self", .dispatcher), ("target", .text target.name),
    ("action", actionValue action), ("ctx", ctx)]
  let locals := transitionLocals source target action ctx
  let left := s.run (onChange source target source.exit)
  let acted := left.run action.toList
  have hchanged : (Expression.differs (.reference "target")
      (.attribute (Dispatcher.own "state") "name")).eval program parameters s =
        .ok (.truth (target.name ≠ source.name)) s :=
    Expression.eval_differs (Expression.eval_reference rfl) (Expression.eval_attribute
      (eval_own rfl (attribute?_set hstate)) (hgenerated.attribute?_name hsource s))
  have hentered : Dispatcher.enterIfChanged.exec program call locals acted =
      .ok (.next locals) (s.taken options m source target action) := by
    rw [Store.taken, hgenerated.actionsBetween_eq hsource, ← Store.run_run, ← Store.run_run]
    exact exec_enterIfChanged action ctx fuel hgenerated hprintable ((hregular.run _).run _)
      hstate htarget
  have hstateNow : (Dispatcher.own "state").eval program locals
      (s.taken options m source target action) =
        .ok (stateObject options target) (s.taken options m source target action) :=
    eval_own rfl (attribute?_set rfl)
  rw [Module.call_bound (fuel + 3) rfl rfl]
  calc Statement.execAll program call Dispatcher.transition.body parameters s
    _ = Statement.execAll program call _ locals s :=
        Statement.execAll_next (SimpleStatement.exec_assign hchanged)
    _ = Statement.execAll program call _ locals left :=
        Statement.execAll_next
          (exec_exitIfChanged action ctx (fuel + 1) hgenerated hprintable hregular hstate hsource)
    _ = Statement.execAll program call _ locals acted :=
        Statement.execAll_next (exec_runIfAction action ctx (fuel + 2) (hregular.run _))
    _ = Statement.execAll program call _ locals (s.taken options m source target action) :=
        Statement.execAll_next hentered
    _ = .ok (stateObject options target) (s.taken options m source target action) :=
        Statement.execAll_answered (SimpleStatement.exec_answer hstateNow)

end

end StateMachine.Python
