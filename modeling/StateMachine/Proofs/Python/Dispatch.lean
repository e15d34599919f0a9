import StateMachine.Proofs.Python.Handling

/-!
Dispatching an event in a generated program. The payload is merged into a copy of the context
(`call_dispatch`), and the copy becomes the context only if the event is routed to a state
(`call_dispatch_of_destination`). If it is not, the error leaves the dispatcher as it is
(`call_dispatch_of_error`). A new dispatcher has entered the initial state (`call_construct`).
-/

set_option autoImplicit false

namespace StateMachine.Python

open Machine Execution

/-! ### Payloads -/

namespace Store

variable {s : Store} {members : Members}

/-- More dictionaries leave the ones that are there where they are. -/
theorem members?_append {v : Value} (h : s.members? v = some members) (more : List Members) :
    { s with dicts := s.dicts ++ more }.members? v = some members := by
  cases v with
  | dict address =>
    have hlt : address < s.dicts.length := (List.getElem?_eq_some_iff.mp h).1
    exact (List.getElem?_append_left hlt).trans h
  | _ => cases h

theorem members?_new (s : Store) (members : Members) :
    (s.add members).members? (.dict s.dicts.length) = some members :=
  List.getElem?_concat_length

/-- The newest dictionary is changed in place. -/
theorem set_new (s : Store) (members other : Members) :
    { s.add members with dicts := (s.add members).dicts.set s.dicts.length other } =
      s.add other := by
  have hset : (s.dicts ++ [members]).set s.dicts.length other = s.dicts ++ [other] := by
    rw [List.set_append_right _ _ (Nat.le_refl _), Nat.sub_self]
    rfl
  rw [add, add, hset]

/-- What a payload sets: nothing if there is none, and the members of a dictionary. -/
def IsPayload (s : Store) (payload : Value) (patch : Members) : Prop :=
  (payload = .nothing ∧ patch = []) ∨ s.members? payload = some patch

end Store

section

variable {options : Options} {m : Machine} {s t : Store} {locals : Locals} {program : Module}
  {call : Value → List Value → Execution Value} {event : String} {payload : Value}
  {patch base : Members}

/-- The payload changes the copy of the context and nothing else; an empty one is passed over. -/
theorem exec_mergePayload (hpayload : s.IsPayload payload patch)
    (hlookup : locals.lookup "payload" = some payload)
    (hctx : locals.lookup "ctx" = some (.dict s.dicts.length)) :
    (Statement.choice [(.reference "payload", .update "ctx" (.reference "payload"))] none).exec
        program call locals (s.add base) = .ok (.next locals) (s.add (base.update patch)) := by
  have hreference : (Expression.reference "payload").eval program locals (s.add base) =
      .ok payload (s.add base) :=
    Expression.eval_reference hlookup
  rcases hpayload with ⟨rfl, rfl⟩ | hmembers
  · exact Statement.exec_choice_skip hreference rfl
  · have hfound := Store.members?_append hmembers [base]
    cases payload with
    | dict address =>
      have htrue : (s.add base).isTrue (.dict address) = !patch.isEmpty := by
        have hdict : (s.add base).dicts[address]? = some patch := hfound
        rw [Store.isTrue, hdict, Option.any_some]
      cases patch with
      | nil => exact Statement.exec_choice_skip hreference htrue
      | cons first rest =>
        rw [Statement.exec_choice_of_isTrue hreference htrue,
          SimpleStatement.exec_update hctx hreference (Store.members?_new s base) hfound,
          Store.set_new]
    | _ => cases hmembers

/-! ### The frame of a dispatch -/

/-- The variables of `dispatch`. -/
def dispatchLocals (event : String) (payload : Value) : Locals :=
  [("self", .dispatcher), ("event", .text event), ("payload", payload)]

/-- The variables behind the copy of the context. -/
def routeLocals (s : Store) (event : String) (payload : Value) : Locals :=
  ("ctx", .dict s.dicts.length) :: dispatchLocals event payload

/-- An event is routed with the payload merged into a copy of the context. -/
theorem call_dispatch {ctx : Value} (hctx : s.attributes "ctx" = some ctx)
    (hbase : s.members? ctx = some base) (hpayload : s.IsPayload payload patch)
    {arguments : List Value}
    (hlocals : Dispatcher.dispatch.locals? .dispatcher arguments =
      some (dispatchLocals event payload)) (fuel : Nat) :
    program.call (fuel + 1) (.bound .dispatcher Dispatcher.dispatch) arguments s =
      Statement.execAll program (program.call fuel)
        [Dispatcher.route, .simple (.setAttribute "ctx" (.value (.reference "ctx"))),
          .simple (.answer (.value (.reference "state")))]
        (routeLocals s event payload) (s.add (base.update patch)) := by
  have hcopy : (Computation.value (.copy (Dispatcher.own "ctx"))).eval program
      (program.call fuel) (dispatchLocals event payload) s =
        .ok (.dict s.dicts.length) (s.add base) :=
    Expression.eval_copy (eval_own rfl (attribute?_set hctx)) hbase
  rw [Module.call_bound fuel hlocals rfl]
  calc Statement.execAll program (program.call fuel) Dispatcher.dispatch.body
        (dispatchLocals event payload) s
    _ = Statement.execAll program (program.call fuel) _ (dispatchLocals event payload) s :=
        Statement.execAll_next rfl
    _ = Statement.execAll program (program.call fuel) _ (routeLocals s event payload)
          (s.add base) :=
        Statement.execAll_next (SimpleStatement.exec_assign hcopy)
    _ = Statement.execAll program (program.call fuel) _ (routeLocals s event payload)
          (s.add (base.update patch)) :=
        Statement.execAll_next (exec_mergePayload hpayload rfl rfl)

/-- The context is replaced behind a state to go on with. -/
theorem execAll_routed {v ctx : Value} (hself : locals.lookup "self" = some .dispatcher)
    (hctx : locals.lookup "ctx" = some ctx)
    (hroute : Dispatcher.route.exec program call locals s =
      .ok (.next (("state", v) :: locals)) t) :
    Statement.execAll program call
        [Dispatcher.route, .simple (.setAttribute "ctx" (.value (.reference "ctx"))),
          .simple (.answer (.value (.reference "state")))] locals s =
      .ok v (t.setAttribute "ctx" ctx) := by
  have hvalue : (Computation.value (.reference "ctx")).eval program call
      (("state", v) :: locals) t = .ok ctx t :=
    Computation.eval_value (Expression.eval_reference hctx)
  have hstate : (Computation.value (.reference "state")).eval program call (("state", v) :: locals)
      (t.setAttribute "ctx" ctx) = .ok v (t.setAttribute "ctx" ctx) :=
    Computation.eval_value (Expression.eval_reference rfl)
  calc Statement.execAll program call _ locals s
    _ = Statement.execAll program call _ (("state", v) :: locals) t :=
        Statement.execAll_next hroute
    _ = Statement.execAll program call _ (("state", v) :: locals) (t.setAttribute "ctx" ctx) :=
        Statement.execAll_next (Statement.exec_simple.trans
          (SimpleStatement.exec_setAttribute hvalue hself))
    _ = .ok v (t.setAttribute "ctx" ctx) :=
        Statement.execAll_answered (Statement.exec_simple.trans
          (SimpleStatement.exec_answer hstate))

/-! ### Routes -/

/-- What a state machine knows as reset events is what the dispatcher has as such. -/
theorem contains_resetEvents (options : Options) (m : Machine) (event : String) :
    (Program.build options m).resetEvents.contains event = m.isResetEvent event := by
  rw [isResetEvent, List.contains_eq_any_beq, Program.build, List.any_map]
  refine congrArg (List.any m.resetEvents) (funext fun e ↦ ?_)
  exact Bool.beq_comm

theorem eval_isReset (options : Options) (m : Machine) (hregular : s.Regular)
    (hself : locals.lookup "self" = some .dispatcher)
    (hevent : locals.lookup "event" = some (.text event)) :
    (Expression.member (.reference "event") (Dispatcher.own "reset_events")).eval
        (Module.ofMachine options m) locals s = .ok (.truth (m.isResetEvent event)) s := by
  have hresets : (Module.ofMachine options m).attribute? s .dispatcher "reset_events" =
      some (.texts (Program.build options m).resetEvents) :=
    (attribute?_dispatcher hregular (by decide) (by decide)).trans rfl
  rw [← contains_resetEvents options]
  exact Expression.eval_member (Expression.eval_reference hevent) (eval_own hself hresets)

/-- The initial state is the one that the machine has. -/
theorem attribute?_initial (hregular : s.Regular) {initial : State}
    (hinitial : m.initialState? = some initial) :
    (Module.ofMachine options m).attribute? s .dispatcher "initial" =
      some (.text initial.name) := by
  have hstates : m.initialStates = [initial] := by
    unfold initialState? at hinitial
    split at hinitial
    · next found hfound =>
      cases hinitial
      exact hfound
    · cases hinitial
  have hname : (Program.build options m).initial = initial.name := by
    rw [Program.build, hstates]
    rfl
  rw [← hname]
  exact (attribute?_dispatcher hregular (by decide) (by decide)).trans rfl

/-- A reset event takes the dispatcher to the initial state; no action is passed. -/
theorem exec_route_of_reset (hgenerated : Generated options m) (hprintable : m.Printable)
    (hregular : s.Regular) {source initial : State}
    (hstate : s.attributes "state" = some (stateObject options source))
    (hsource : source ∈ m.states) (hinitial : m.initialState? = some initial)
    (hself : locals.lookup "self" = some .dispatcher)
    (hevent : locals.lookup "event" = some (.text event)) (hreset : m.isResetEvent event)
    {ctx : Value} (hctx : locals.lookup "ctx" = some ctx) (fuel : Nat) :
    Dispatcher.route.exec (Module.ofMachine options m)
        ((Module.ofMachine options m).call (fuel + 4)) locals s =
      .ok (.next (("state", stateObject options initial) :: locals))
        (s.taken options m source initial none) := by
  have hmethod : (Module.ofMachine options m).attribute? s .dispatcher "transition" =
      some (.bound .dispatcher Dispatcher.transition) :=
    attribute?_ownMethod hregular Dispatcher.transition (by simp [Dispatcher.methods])
  have htaken : (Computation.call (Dispatcher.own "transition")
      [Dispatcher.own "initial", .nothing, .reference "ctx"]).eval (Module.ofMachine options m)
        ((Module.ofMachine options m).call (fuel + 4)) locals s =
      .ok (stateObject options initial) (s.taken options m source initial none) :=
    (Computation.eval_call (eval_own hself hmethod)
      (Expression.mapM_cons (eval_own hself (attribute?_initial hregular hinitial))
        (Expression.mapM_cons Expression.eval_nothing
          (Expression.mapM_cons (Expression.eval_reference hctx) Expression.mapM_nil)))).trans
      (call_transition hgenerated hprintable hregular hstate hsource
        (mem_of_initialState? hinitial) none fuel ctx)
  have htest := eval_isReset options m hregular hself hevent
  exact (Statement.exec_choice_of_isTrue htest hreset).trans (SimpleStatement.exec_assign htaken)

/-- The current state is asked to handle an event. -/
theorem eval_handle (hgenerated : Generated options m) {source : State}
    (hstate : s.attributes "state" = some (stateObject options source))
    (hsource : source ∈ m.states) (hself : locals.lookup "self" = some .dispatcher)
    (hevent : locals.lookup "event" = some (.text event)) {ctx : Value}
    (hctx : locals.lookup "ctx" = some ctx) :
    (Computation.call (.attribute (Dispatcher.own "state") "handle")
        [selfReference, .reference "event", .reference "ctx"]).eval (Module.ofMachine options m)
          call locals s =
      call (.bound (stateObject options source) Base.handle) [.dispatcher, .text event, ctx] s :=
  Computation.eval_send (eval_own hself (attribute?_set hstate))
    (hgenerated.attribute?_handle hsource s) (Expression.mapM_cons
      (Expression.eval_reference hself) (Expression.mapM_cons (Expression.eval_reference hevent)
        (Expression.mapM_cons (Expression.eval_reference hctx) Expression.mapM_nil)))

section Route

variable (hgenerated : Generated options m) (hprintable : m.Printable) (hregular : s.Regular)
  {source : State} (hstate : s.attributes "state" = some (stateObject options source))
  (hsource : source ∈ m.states) (hself : locals.lookup "self" = some .dispatcher)
  (hevent : locals.lookup "event" = some (.text event)) {ctx : Value}
  (hctx : locals.lookup "ctx" = some ctx) {context : Members}
  (hcontext : s.members? ctx = some context)

include hgenerated hregular hstate hsource hself hevent hctx hcontext

include hprintable in
/-- An event is routed to its destination. -/
theorem exec_route_of_destination {target : State} (htarget : target ∈ m.states)
    {action : Option String}
    (h : Run.destination m source.name event (.object context) = .ok (target.name, action))
    (fuel : Nat) :
    Dispatcher.route.exec (Module.ofMachine options m)
        ((Module.ofMachine options m).call (fuel + 6)) locals s =
      .ok (.next (("state", stateObject options target) :: locals))
        (s.taken options m source target action) := by
  rcases Run.destination_eq_ok h with ⟨hreset, rfl, initial, hinitial, hname⟩ | ⟨hreset, -⟩
  · have hsame : target = initial := by
      have hfound := hgenerated.state?_eq_some htarget
      rw [hname, hgenerated.state?_eq_some (mem_of_initialState? hinitial)] at hfound
      cases hfound
      rfl
    rw [hsame]
    exact exec_route_of_reset hgenerated hprintable hregular hstate hsource hinitial hself hevent
      hreset hctx (fuel + 2)
  · have htest := eval_isReset options m hregular hself hevent
    exact (Statement.exec_choice_otherwise htest hreset).trans (SimpleStatement.exec_assign
      ((eval_handle hgenerated hstate hsource hself hevent hctx).trans
        (call_handle_of_destination hgenerated hprintable hregular hstate hsource htarget hreset
          hcontext h fuel)))

/-- An event without destination is not routed. -/
theorem exec_route_of_error (hvalid : Identifier.isValid event) {e : SimulationError}
    (h : Run.destination m source.name event (.object context) = .error e) (fuel : Nat) :
    Dispatcher.route.exec (Module.ofMachine options m)
        ((Module.ofMachine options m).call (fuel + 6)) locals s =
      .error (.unhandledEvent source.name event) s := by
  obtain ⟨initial, hinitial⟩ := hgenerated.initial
  have hreset : m.isResetEvent event = false := by
    refine Bool.eq_false_iff.mpr fun hreset ↦ ?_
    rw [Run.destination, hreset, if_pos rfl, initialState?, hinitial] at h
    cases h
  have htest := eval_isReset options m hregular hself hevent
  exact (Statement.exec_choice_otherwise htest hreset).trans (SimpleStatement.exec_assign_of_error
    ((eval_handle hgenerated hstate hsource hself hevent hctx).trans
      (call_handle_of_error hgenerated hsource hvalid hreset hcontext h fuel)))

end Route

/-! ### Dispatching -/

section Dispatching

variable (hgenerated : Generated options m) (hprintable : m.Printable) (hregular : s.Regular)
  {source : State} (hstate : s.attributes "state" = some (stateObject options source))
  (hsource : source ∈ m.states) {ctx : Value} (hctx : s.attributes "ctx" = some ctx)
  (hbase : s.members? ctx = some base) (hpayload : s.IsPayload payload patch)
  {arguments : List Value} (hlocals : Dispatcher.dispatch.locals? .dispatcher arguments =
    some (dispatchLocals event payload))

include hgenerated hregular hstate hsource hctx hbase hpayload hlocals

include hprintable in
/-- An event that leads somewhere makes the merged context the current one. -/
theorem call_dispatch_of_destination {target : State} (htarget : target ∈ m.states)
    {action : Option String}
    (h : Run.destination m source.name event (.object (base.update patch)) =
      .ok (target.name, action)) (fuel : Nat) :
    (Module.ofMachine options m).call (fuel + 7) (.bound .dispatcher Dispatcher.dispatch)
        arguments s =
      .ok (stateObject options target)
        (((s.add (base.update patch)).taken options m source target action).setAttribute "ctx"
          (.dict s.dicts.length)) :=
  (call_dispatch hctx hbase hpayload hlocals (fuel + 6)).trans (execAll_routed rfl rfl
    (exec_route_of_destination hgenerated hprintable (hregular.add _) hstate hsource rfl rfl rfl
      (Store.members?_new s _) htarget h fuel))

/-- An event that leads nowhere changes neither the state nor the context. -/
theorem call_dispatch_of_error (hvalid : Identifier.isValid event) {e : SimulationError}
    (h : Run.destination m source.name event (.object (base.update patch)) = .error e)
    (fuel : Nat) :
    (Module.ofMachine options m).call (fuel + 7) (.bound .dispatcher Dispatcher.dispatch)
        arguments s =
      .error (.unhandledEvent source.name event) (s.add (base.update patch)) :=
  (call_dispatch hctx hbase hpayload hlocals (fuel + 6)).trans (Statement.execAll_raised
    (exec_route_of_error hgenerated (hregular.add _) hstate hsource rfl rfl rfl
      (Store.members?_new s _) hvalid h fuel))

end Dispatching

/-! ### A new dispatcher -/

/-- A new dispatcher holds its context and is in the initial state. -/
theorem call_construct (hgenerated : Generated options m) (hprintable : m.Printable)
    (hregular : s.Regular) {initial : State} (hinitial : m.initialState? = some initial)
    {ctx : Value} (hctx : ctx.isNothing = false) (fuel : Nat) :
    (Module.ofMachine options m).call (fuel + 4) (.bound .dispatcher Dispatcher.construct) [ctx]
        s =
      .ok .nothing ((((s.setAttribute "ctx" ctx).setAttribute "state" .nothing).setAttribute
        "state" (stateObject options initial)).run initial.entry.toList) := by
  let program := Module.ofMachine options m
  let locals : Locals := [("self", .dispatcher), ("ctx", ctx)]
  let held := s.setAttribute "ctx" ctx
  let blank := held.setAttribute "state" .nothing
  have hblank : blank.Regular := (hregular.setContext ctx).setState .nothing
  have hreference : (Expression.reference "ctx").eval program locals s = .ok ctx s :=
    Expression.eval_reference rfl
  have hchoice : (Expression.conditional (.isNothing (.reference "ctx")) .emptyDict
      (.reference "ctx")).eval program locals s = .ok ctx s :=
    (Expression.eval_conditional_of_not_isTrue (Expression.eval_isNothing hreference) hctx).trans
      hreference
  have hmethod : program.attribute? blank .dispatcher "enter" =
      some (.bound .dispatcher Dispatcher.enter) :=
    attribute?_ownMethod hblank Dispatcher.enter (by simp [Dispatcher.methods])
  have henter : (Computation.call (Dispatcher.own "enter")
      [Dispatcher.own "initial", Dispatcher.own "ctx"]).eval program (program.call (fuel + 3))
        locals blank =
      .ok (stateObject options initial)
        ((blank.setAttribute "state" (stateObject options initial)).run initial.entry.toList) :=
    (Computation.eval_call (eval_own rfl hmethod)
      (Expression.mapM_cons (eval_own rfl (attribute?_initial hblank hinitial))
        (Expression.mapM_cons (eval_own rfl (attribute?_set rfl)) Expression.mapM_nil))).trans
      (call_enter hgenerated hprintable hblank (mem_of_initialState? hinitial) fuel ctx)
  rw [Module.call_bound (fuel + 3) rfl rfl]
  calc Statement.execAll program (program.call (fuel + 3)) Dispatcher.construct.body locals s
    _ = Statement.execAll program (program.call (fuel + 3)) _ locals held :=
        Statement.execAll_next (Statement.exec_simple.trans
          (SimpleStatement.exec_setAttribute (Computation.eval_value hchoice) rfl))
    _ = Statement.execAll program (program.call (fuel + 3)) _ locals blank :=
        Statement.execAll_next (Statement.exec_simple.trans
          (SimpleStatement.exec_setAttribute (Computation.eval_value Expression.eval_nothing) rfl))
    _ = .ok .nothing _ :=
        Statement.execAll_next (Statement.exec_simple.trans (SimpleStatement.exec_perform henter))

end

end StateMachine.Python
