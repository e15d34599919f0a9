import StateMachine.Proofs.Python.Transition

/-!
Handling an event in a generated program. The branches of a handler try its transitions in their
order (`execChoice_branches`), so that a handler takes the transition that the context chooses and
raises if there is none; `handle` finds the handler by the name of the event
(`call_handle_of_destination`, `call_handle_of_error`).
-/

set_option autoImplicit false

namespace StateMachine.Python

open Machine Execution

section

variable {options : Options} {m : Machine} {s : Store} {locals : Locals}

/-! ### Handlers -/

/-- The transition that a context chooses among some transitions: the first whose guard holds. -/
def chosen? (context : Members) (transitions : List Transition) : Option Transition :=
  transitions.find? fun t ↦ Guard.evaluateOptional (.object context) t.guard

theorem chosen?_singleton (context : Members) {t : Transition} (h : t.guard = none) :
    chosen? context [t] = some t :=
  List.find?_cons_of_pos (by rw [h]; rfl)

section Branches

variable (program : Module) (call : Value → List Value → Execution Value) {ctx : Value}
  {context : Members} {transitions : List Transition}

/-- The branches of transitions with guards try them in their order. -/
theorem execChoice_branches (hlookup : locals.lookup "ctx" = some ctx)
    (hctx : s.members? ctx = some context) (hguarded : ∀ t ∈ transitions, t.guard ≠ none) :
    Statement.execChoice program call locals none (transitions.filterMap Handler.branch?) s =
      ((chosen? context transitions).map fun t ↦
        (SimpleStatement.answer (takeCall t)).exec program call locals s).getD
          (.ok (.next locals) s) := by
  induction transitions with
  | nil => rfl
  | cons t rest ih =>
    obtain ⟨ht, hrest⟩ := List.forall_mem_cons.mp hguarded
    obtain ⟨g, hg⟩ := Option.ne_none_iff_exists'.mp ht
    have hbranch : Handler.branch? t = some (.guard g, .answer (takeCall t)) := by
      rw [Handler.branch?, hg]
      rfl
    rw [List.filterMap_cons_some hbranch]
    have heval : (Expression.guard g).eval program locals s = _ :=
      Expression.eval_guard hlookup hctx
    by_cases hholds : g.evaluate (.object context)
    · have hchosen : chosen? context (t :: rest) = some t :=
        List.find?_cons_of_pos (by rw [hg]; exact hholds)
      rw [Statement.execChoice_of_isTrue heval hholds, hchosen]
      rfl
    · have hchosen : chosen? context (t :: rest) = chosen? context rest :=
        List.find?_cons_of_neg (by rw [hg]; exact hholds)
      rw [Statement.execChoice_of_not_isTrue heval (Bool.eq_false_iff.mpr hholds), hchosen,
        ih hrest]

theorem exec_branches (hlookup : locals.lookup "ctx" = some ctx)
    (hctx : s.members? ctx = some context) (hguarded : ∀ t ∈ transitions, t.guard ≠ none) :
    (Statement.choice (transitions.filterMap Handler.branch?) none).exec program call locals s =
      ((chosen? context transitions).map fun t ↦
        (SimpleStatement.answer (takeCall t)).exec program call locals s).getD
          (.ok (.next locals) s) :=
  execChoice_branches program call hlookup hctx hguarded

end Branches

/-- The variables of a handler. -/
def handlerLocals (options : Options) (source : State) (ctx : Value) : Locals :=
  [("self", stateObject options source), ("machine", .dispatcher), ("ctx", ctx)]

theorem eval_action {program : Module} (action : Option String) :
    ((action.map Expression.literal).getD .nothing).eval program locals s =
      .ok (actionValue action) s := by
  cases action with
  | none => exact Expression.eval_nothing
  | some a => exact Expression.eval_literal

theorem exec_take (hgenerated : Generated options m) (hprintable : m.Printable)
    (hregular : s.Regular) {source target : State}
    (hstate : s.attributes "state" = some (stateObject options source))
    (hsource : source ∈ m.states) (htarget : target ∈ m.states) {t : Transition}
    (hname : target.name = t.target) (fuel : Nat) (ctx : Value) :
    (SimpleStatement.answer (takeCall t)).exec (Module.ofMachine options m)
        ((Module.ofMachine options m).call (fuel + 4)) (handlerLocals options source ctx) s =
      .ok (.answered (stateObject options target)) (s.taken options m source target t.action) := by
  let locals := handlerLocals options source ctx
  have hmethod : (Module.ofMachine options m).attribute? s .dispatcher "transition" =
      some (.bound .dispatcher Dispatcher.transition) :=
    attribute?_ownMethod hregular Dispatcher.transition (by simp [Dispatcher.methods])
  have hmachine : (Expression.reference "machine").eval (Module.ofMachine options m) locals s =
      .ok .dispatcher s :=
    Expression.eval_reference rfl
  have hctx : (Expression.reference "ctx").eval (Module.ofMachine options m) locals s =
      .ok ctx s :=
    Expression.eval_reference rfl
  refine SimpleStatement.exec_answer ((Computation.eval_send hmachine hmethod
    (Expression.mapM_cons Expression.eval_literal (Expression.mapM_cons (eval_action t.action)
      (Expression.mapM_cons hctx Expression.mapM_nil)))).trans ?_)
  rw [← hname]
  exact call_transition hgenerated hprintable hregular hstate hsource htarget t.action fuel ctx

theorem eval_name (hgenerated : Generated options m) {source : State} (hsource : source ∈ m.states)
    (hself : locals.lookup "self" = some (stateObject options source)) :
    (Expression.attribute selfReference "name").eval (Module.ofMachine options m) locals s =
      .ok (.text source.name) s :=
  Expression.eval_attribute (Expression.eval_reference hself)
    (hgenerated.attribute?_name hsource s)

/-- A handler takes the transition that the context chooses. -/
theorem call_handler_of_chosen (hgenerated : Generated options m) (hprintable : m.Printable)
    (hregular : s.Regular) {source target : State}
    (hstate : s.attributes "state" = some (stateObject options source))
    (hsource : source ∈ m.states) (htarget : target ∈ m.states) {h : Handler}
    (hmem : h ∈ handlers m source.name) {ctx : Value} {context : Members}
    (hctx : s.members? ctx = some context) {t : Transition}
    (hchosen : chosen? context h.transitions = some t) (hname : target.name = t.target)
    (fuel : Nat) :
    (Module.ofMachine options m).call (fuel + 5) (.bound (stateObject options source) h.method)
        [.dispatcher, ctx] s =
      .ok (stateObject options target) (s.taken options m source target t.action) := by
  have htake := exec_take hgenerated hprintable hregular hstate hsource htarget hname fuel ctx
  have hne := (Handler.mem_group_iff.mp hmem).2
  rw [Module.call_bound (fuel + 4) rfl rfl, Handler.method]
  rcases Handler.guarded_or_single hne (hgenerated.unambiguous source hsource h hmem) with
    hguarded | ⟨u, hsingle, hnone⟩
  · rw [Handler.body_of_guarded hne hguarded]
    refine Statement.execAll_answered ((exec_branches _ _ rfl hctx hguarded).trans ?_)
    rw [hchosen]
    exact htake
  · rw [hsingle, chosen?_singleton context hnone] at hchosen
    cases hchosen
    rw [Handler.body_of_single hsingle hnone]
    exact Statement.execAll_answered htake

/-- A handler raises if the context chooses no transition. -/
theorem call_handler_of_not_chosen (hgenerated : Generated options m)
    {source : State} (hsource : source ∈ m.states) {h : Handler}
    (hmem : h ∈ handlers m source.name) {ctx : Value} {context : Members}
    (hctx : s.members? ctx = some context) (hchosen : chosen? context h.transitions = none)
    (fuel : Nat) :
    (Module.ofMachine options m).call (fuel + 5) (.bound (stateObject options source) h.method)
        [.dispatcher, ctx] s = .error (.unhandledEvent source.name h.event) s := by
  have hne := (Handler.mem_group_iff.mp hmem).2
  rw [Module.call_bound (fuel + 4) rfl rfl, Handler.method]
  rcases Handler.guarded_or_single hne (hgenerated.unambiguous source hsource h hmem) with
    hguarded | ⟨u, hsingle, hnone⟩
  · have hbranches : (Statement.choice (h.transitions.filterMap Handler.branch?) none).exec
        (Module.ofMachine options m) ((Module.ofMachine options m).call (fuel + 4))
        (handlerLocals options source ctx) s =
          .ok (.next (handlerLocals options source ctx)) s := by
      rw [exec_branches _ _ rfl hctx hguarded, hchosen]
      rfl
    rw [Handler.body_of_guarded hne hguarded]
    exact (Statement.execAll_next hbranches).trans (Statement.execAll_raised
      (Statement.exec_simple.trans (SimpleStatement.exec_raiseUnhandled
        (eval_name hgenerated hsource rfl) Expression.eval_literal)))
  · rw [hsingle, chosen?_singleton context hnone] at hchosen
    cases hchosen

/-! ### Handling an event -/

/-- The variables of `handle`. -/
def handleLocals (options : Options) (source : State) (event : String) (ctx : Value) : Locals :=
  [("self", stateObject options source), ("machine", .dispatcher), ("event", .text event),
    ("ctx", ctx)]

theorem eval_handler (options : Options) (m : Machine) (s : Store) (source : State)
    (event : String) (ctx : Value) :
    (Expression.optionalAttribute selfReference
        (.concat (.literal "on_") (.reference "event"))).eval (Module.ofMachine options m)
        (handleLocals options source event ctx) s =
      .ok (((Module.ofMachine options m).attribute? s (stateObject options source)
        (Handler.methodName event)).getD .nothing) s :=
  Expression.eval_optionalAttribute (Expression.eval_reference rfl)
    (Expression.eval_concat Expression.eval_literal (Expression.eval_reference rfl))

/-- An event that has a handler is handled by it. -/
theorem call_handle_of_mem (hgenerated : Generated options m) {source : State}
    (hsource : source ∈ m.states) {h : Handler} (hmem : h ∈ handlers m source.name) (fuel : Nat)
    (ctx : Value) :
    (Module.ofMachine options m).call (fuel + 6) (.bound (stateObject options source) Base.handle)
        [.dispatcher, .text h.event, ctx] s =
      (Module.ofMachine options m).call (fuel + 5)
        (.bound (stateObject options source) h.method) [.dispatcher, ctx] s := by
  let program := Module.ofMachine options m
  let call := program.call (fuel + 5)
  let parameters := handleLocals options source h.event ctx
  let locals : Locals := ("handler", .bound (stateObject options source) h.method) :: parameters
  have hhandler := eval_handler options m s source h.event ctx
  rw [hgenerated.attribute?_handler hsource s hmem] at hhandler
  have hreference : (Expression.reference "handler").eval program locals s =
      .ok (.bound (stateObject options source) h.method) s :=
    Expression.eval_reference rfl
  rw [Module.call_bound (fuel + 5) rfl rfl]
  calc Statement.execAll program call Base.handle.body parameters s
    _ = Statement.execAll program call _ locals s :=
        Statement.execAll_next (Statement.exec_simple.trans
          (SimpleStatement.exec_assign hhandler))
    _ = Statement.execAll program call _ locals s :=
        Statement.execAll_next
          (Statement.exec_choice_skip (Expression.eval_isNothing hreference) rfl)
    _ = (Computation.call (.reference "handler") [.reference "machine", .reference "ctx"]).eval
          program call locals s :=
        Statement.execAll_answer
    _ = call (.bound (stateObject options source) h.method) [.dispatcher, ctx] s :=
        Computation.eval_call hreference (Expression.mapM_cons (Expression.eval_reference rfl)
          (Expression.mapM_cons (Expression.eval_reference rfl) Expression.mapM_nil))

/-- An event that has no handler is not handled. -/
theorem call_handle_of_not_mem (hgenerated : Generated options m) {source : State}
    (hsource : source ∈ m.states) {event : String} (hevent : Identifier.isValid event)
    (hnone : ∀ h ∈ handlers m source.name, h.event ≠ event) (fuel : Nat) (ctx : Value) :
    (Module.ofMachine options m).call (fuel + 1) (.bound (stateObject options source) Base.handle)
        [.dispatcher, .text event, ctx] s = .error (.unhandledEvent source.name event) s := by
  let program := Module.ofMachine options m
  let parameters := handleLocals options source event ctx
  let locals : Locals := ("handler", .nothing) :: parameters
  have hhandler := eval_handler options m s source event ctx
  rw [hgenerated.attribute?_unhandled hsource s hevent hnone] at hhandler
  have hreference : (Expression.reference "handler").eval program locals s = .ok .nothing s :=
    Expression.eval_reference rfl
  rw [Module.call_bound fuel rfl rfl]
  calc Statement.execAll program (program.call fuel) Base.handle.body parameters s
    _ = Statement.execAll program (program.call fuel) _ locals s :=
        Statement.execAll_next (Statement.exec_simple.trans
          (SimpleStatement.exec_assign hhandler))
    _ = .error (.unhandledEvent source.name event) s :=
        Statement.execAll_raised ((Statement.exec_choice_of_isTrue
          (Expression.eval_isNothing hreference) rfl).trans
            (SimpleStatement.exec_raiseUnhandled (eval_name hgenerated hsource rfl)
              (Expression.eval_reference rfl)))

/-! ### Where an event leads -/

theorem chosen?_of_destination {state event : String} {context : Members} {target : String}
    {action : Option String} (hreset : m.isResetEvent event = false)
    (h : Run.destination m state event (.object context) = .ok (target, action)) :
    ∃ t, chosen? context ((m.outgoing state).filter (·.event == event)) = some t ∧
      t.target = target ∧ t.action = action := by
  rw [Run.destination, hreset, if_neg Bool.false_ne_true] at h
  split at h
  · cases h
  · split at h
    · next t ht =>
      cases h
      exact ⟨t, ht, rfl, rfl⟩
    · cases h

theorem chosen?_of_destination_error {state event : String} {context : Members}
    {e : SimulationError} (hreset : m.isResetEvent event = false)
    (h : Run.destination m state event (.object context) = .error e) :
    chosen? context ((m.outgoing state).filter (·.event == event)) = none ∧
      (e = .invalidTransition state event ∨ e = .guardFailed state event) := by
  rw [Run.destination, hreset, if_neg Bool.false_ne_true] at h
  split at h
  · next hnil =>
    cases h
    exact ⟨by rw [hnil]; rfl, Or.inl rfl⟩
  · split at h
    · cases h
    · next hnone =>
      cases h
      exact ⟨hnone, Or.inr rfl⟩

theorem mem_handlers_of_chosen {state event : String} {context : Members} {t : Transition}
    (h : chosen? context ((m.outgoing state).filter (·.event == event)) = some t) :
    ⟨event, (m.outgoing state).filter (·.event == event)⟩ ∈ handlers m state := by
  refine Handler.mem_group_iff.mpr ⟨rfl, fun hnil ↦ ?_⟩
  dsimp only at hnil
  rw [hnil] at h
  cases h

/-- An event that leads somewhere is handled by the transition that leads there. -/
theorem call_handle_of_destination (hgenerated : Generated options m)
    (hprintable : m.Printable) (hregular : s.Regular) {source target : State}
    (hstate : s.attributes "state" = some (stateObject options source))
    (hsource : source ∈ m.states) (htarget : target ∈ m.states) {event : String}
    (hreset : m.isResetEvent event = false) {ctx : Value} {context : Members}
    (hctx : s.members? ctx = some context) {action : Option String}
    (h : Run.destination m source.name event (.object context) = .ok (target.name, action))
    (fuel : Nat) :
    (Module.ofMachine options m).call (fuel + 6) (.bound (stateObject options source) Base.handle)
        [.dispatcher, .text event, ctx] s =
      .ok (stateObject options target) (s.taken options m source target action) := by
  obtain ⟨t, hchosen, hname, rfl⟩ := chosen?_of_destination hreset h
  have hmem := mem_handlers_of_chosen hchosen
  exact (call_handle_of_mem hgenerated hsource hmem fuel ctx).trans
    (call_handler_of_chosen hgenerated hprintable hregular hstate hsource htarget hmem hctx
      hchosen hname.symm fuel)

/-- An event that leads nowhere is not handled. -/
theorem call_handle_of_error (hgenerated : Generated options m) {source : State}
    (hsource : source ∈ m.states) {event : String} (hevent : Identifier.isValid event)
    (hreset : m.isResetEvent event = false) {ctx : Value} {context : Members}
    (hctx : s.members? ctx = some context) {e : SimulationError}
    (h : Run.destination m source.name event (.object context) = .error e) (fuel : Nat) :
    (Module.ofMachine options m).call (fuel + 6) (.bound (stateObject options source) Base.handle)
        [.dispatcher, .text event, ctx] s = .error (.unhandledEvent source.name event) s := by
  obtain ⟨hchosen, -⟩ := chosen?_of_destination_error hreset h
  by_cases hnone : ∀ handler ∈ handlers m source.name, handler.event ≠ event
  · exact call_handle_of_not_mem hgenerated hsource hevent hnone (fuel + 5) ctx
  · simp only [ne_eq, Classical.not_forall, Decidable.not_not] at hnone
    obtain ⟨handler, hmem, rfl⟩ := hnone
    rw [← (Handler.mem_group_iff.mp hmem).1] at hchosen
    exact (call_handle_of_mem hgenerated hsource hmem fuel ctx).trans
      (call_handler_of_not_chosen hgenerated hsource hmem hctx hchosen fuel)

end

end StateMachine.Python
