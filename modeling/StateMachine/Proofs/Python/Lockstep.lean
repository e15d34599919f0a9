import StateMachine.Proofs.Machine.Printable
import StateMachine.Proofs.Python.Dispatch

/-!
A generated program runs as its machine does. The dispatcher of the program and a run of the
machine agree if they are in the same state and hold the same context (`Agree`). They agree in the
beginning (`Agree.start`), and behind every event the one has accepted exactly what the other has,
has run the same actions, and they agree again (`Agree.dispatch`). What can be seen of the program
along any row of events is therefore what can be seen of the run (`dispatch_lockstep`).
-/

set_option autoImplicit false

namespace StateMachine

/-! ### What can be seen -/

/-- What becomes of an event. It is not handled if there is no transition for it, or none whose
guard holds; nothing else should fail. -/
inductive Verdict where
  | accepted
  | unhandled (state event : String)
  | failed
deriving DecidableEq

/-- What can be seen behind an event: its verdict, the actions that were run for it, the state and
the context. -/
structure Observation where
  verdict : Verdict
  actions : List String
  state : Option String
  context : Option Json

/-- What can be seen of an event that was applied in a run. -/
def Run.Outcome.observation (outcome : Run.Outcome) : Observation :=
  match outcome.result with
  | .ok step => ⟨.accepted, step.actions, some outcome.after.state, some outcome.after.context⟩
  | .error (.invalidTransition state event) | .error (.guardFailed state event) =>
    ⟨.unhandled state event, [], some outcome.after.state, some outcome.after.context⟩
  | .error _ => ⟨.failed, [], some outcome.after.state, some outcome.after.context⟩

/-- The payload of an event in a run. -/
def Run.payload (payload : Option (List (String × Json))) : Json :=
  (payload.map Json.object).getD .null

/-- The events of a run. -/
def Run.events (events : List (String × Option (List (String × Json)))) : List (String × Json) :=
  events.map fun event ↦ (event.1, payload event.2)

namespace Python

open Machine Execution

/-- The store in which no actions are remembered. -/
def Store.forget (s : Store) : Store :=
  { s with actions := [] }

namespace Module

variable (program : Module)

/-- What can be seen of a dispatcher. -/
def observation (verdict : Verdict) (s : Store) : Observation :=
  ⟨verdict, s.actions, program.stateName? s, context? s⟩

/-- What can be seen behind an event, and the store there. -/
def settle : EStateM.Result Raised Store Unit → Observation × Store
  | .ok _ s => (program.observation .accepted s, s)
  | .error (.unhandledEvent state event) s => (program.observation (.unhandled state event) s, s)
  | .error .other s => (program.observation .failed s, s)

/-- What can be seen behind each of some events with their payloads, dispatched one after the other.
The actions are counted anew for each event. -/
def trace (limit : Nat) (s : Store) : List (String × Option Members) → List Observation
  | [] => []
  | (event, payload) :: rest =>
    let settled := program.settle (program.dispatch limit event payload s.forget)
    settled.1 :: trace limit settled.2 rest

end Module

/-- The store behind a payload that is passed. -/
def Store.receive (s : Store) (payload : Option Members) : Store :=
  { s with dicts := s.dicts ++ payload.toList }

/-- A payload is passed to `dispatch` as what it sets. -/
theorem exists_pass (s : Store) (event : String) (payload : Option Members) :
    ∃ arguments value, pass payload s = .ok arguments (s.receive payload) ∧
      (s.receive payload).IsPayload value (payload.getD []) ∧
      Dispatcher.dispatch.locals? .dispatcher (.text event :: arguments) =
        some (dispatchLocals event value) := by
  cases payload with
  | none =>
    have hsame : s.receive none = s := by
      rw [Store.receive, Option.toList_none, List.append_nil]
    rw [hsame]
    exact ⟨[], .nothing, rfl, Or.inl ⟨rfl, rfl⟩, rfl⟩
  | some members =>
    exact ⟨[.dict s.dicts.length], .dict s.dicts.length, rfl,
      Or.inr (Store.members?_new s members), rfl⟩

/-! ### Agreement -/

/-- A dispatcher is in the state of a run and holds its context. -/
structure Agree (options : Options) (m : Machine) (run : Run) (s : Store) : Prop where
  regular : s.Regular
  state : ∃ source ∈ m.states, source.name = run.state ∧
    s.attributes "state" = some (stateObject options source)
  context : ∃ ctx members, s.attributes "ctx" = some ctx ∧ s.members? ctx = some members ∧
    run.context = .object members

section

variable {options : Options} {m : Machine} {run : Run} {s : Store}

theorem Agree.observation (h : Agree options m run s) (hgenerated : Generated options m)
    (verdict : Verdict) :
    (Module.ofMachine options m).observation verdict s =
      ⟨verdict, s.actions, some run.state, some run.context⟩ := by
  obtain ⟨source, hsource, hname, hstate⟩ := h.state
  obtain ⟨ctx, members, hctx, hmembers, hcontext⟩ := h.context
  have hseen : (Module.ofMachine options m).stateName? s = some source.name := by
    rw [Module.stateName?, hstate, Option.bind_some, hgenerated.attribute?_name hsource]
    rfl
  have hheld : Module.context? s = some (.object members) := by
    rw [Module.context?, hctx, Option.bind_some, hmembers]
    rfl
  rw [Module.observation, hseen, hheld, hname, hcontext]

theorem Agree.receive (h : Agree options m run s) (payload : Option Members) :
    Agree options m run (s.receive payload) := by
  obtain ⟨ctx, members, hctx, hmembers, hcontext⟩ := h.context
  exact ⟨h.regular, h.state, ctx, members, hctx,
    Store.members?_append hmembers payload.toList, hcontext⟩

/-! ### One event -/

section Dispatch

variable {limit : Nat} {event : String} {payload : Option Members} {arguments : List Value}
  {t : Store}

theorem send_dispatch (hregular : s.Regular) (payload : Option Members) :
    (Module.ofMachine options m).send limit "dispatch" arguments (s.receive payload) =
      (Module.ofMachine options m).call limit (.bound .dispatcher Dispatcher.dispatch) arguments
        (s.receive payload) :=
  Module.send_eq limit
    (attribute?_ownMethod hregular Dispatcher.dispatch (by simp [Dispatcher.methods]))

theorem dispatch_of_ok {v : Value} (hregular : s.Regular)
    (hpass : pass payload s = .ok arguments (s.receive payload))
    (hcall : (Module.ofMachine options m).call limit (.bound .dispatcher Dispatcher.dispatch)
      (.text event :: arguments) (s.receive payload) = .ok v t) :
    (Module.ofMachine options m).dispatch limit event payload s = .ok () t := by
  rw [Module.dispatch, bind_of_ok hpass, bind_of_ok ((send_dispatch hregular payload).trans hcall)]
  rfl

theorem dispatch_of_error {raised : Raised} (hregular : s.Regular)
    (hpass : pass payload s = .ok arguments (s.receive payload))
    (hcall : (Module.ofMachine options m).call limit (.bound .dispatcher Dispatcher.dispatch)
      (.text event :: arguments) (s.receive payload) = .error raised t) :
    (Module.ofMachine options m).dispatch limit event payload s = .error raised t := by
  rw [Module.dispatch, bind_of_ok hpass,
    bind_of_error ((send_dispatch hregular payload).trans hcall)]

end Dispatch

/-- A payload changes the context of a run to what it changes the members to. -/
theorem merge_payload (base : Members) (payload : Option Members) :
    (Json.object base).merge (Run.payload payload) = .object (base.update (payload.getD [])) := by
  cases payload <;> rfl

/-- A machine with an initial state and declared targets rejects events for two reasons only. -/
theorem Generated.destination_of_apply_eq_error (hgenerated : Generated options m)
    {event : String} {payload : Json} {e : SimulationError}
    (h : run.apply m event payload = .error e) :
    Run.destination m run.state event (run.context.merge payload) = .error e ∧
      (e = .invalidTransition run.state event ∨ e = .guardFailed run.state event) := by
  obtain ⟨initial, hinitial⟩ := hgenerated.initial
  rcases Run.apply_eq_error h with herror | ⟨target, action, hok, hnone, -⟩
  · refine ⟨herror, ?_⟩
    rcases Run.destination_eq_error herror with ⟨-, -, hnone⟩ | hreason
    · rw [initialState?, hinitial] at hnone
      cases hnone
    · exact hreason
  · have hdeclared : m.hasState target := by
      rcases Run.destination_eq_ok hok with ⟨-, -, s, hs, rfl⟩ | ⟨-, t, ht, -, -, rfl, -⟩
      · exact hasState_of_mem (mem_of_initialState? hs)
      · exact hgenerated.targets t (List.mem_filter.mp ht).1
    obtain ⟨s, hs⟩ := hasState_iff.mp hdeclared
    cases hnone.symm.trans hs

section Event

variable (hgenerated : Generated options m) (hprintable : m.Printable)
  (h : Agree options m run s) {limit : Nat} (hlimit : 7 ≤ limit) {event : String}
  {payload : Option Members}

include hgenerated h hlimit

include hprintable in
/-- An event that leads somewhere leads both there, along the same actions. -/
theorem Agree.of_destination {target : State} (htarget : target ∈ m.states)
    {action : Option String}
    (hdestination : Run.destination m run.state event (run.context.merge (Run.payload payload)) =
      .ok (target.name, action)) :
    ∃ t, (Module.ofMachine options m).dispatch limit event payload s = .ok () t ∧
      t.actions = s.actions ++ Run.actionsBetween m run.state target action ∧
      Agree options m ⟨target.name, run.context.merge (Run.payload payload)⟩ t := by
  obtain ⟨fuel, rfl⟩ := Nat.exists_eq_add_of_le' hlimit
  obtain ⟨source, hsource, hname, hstate⟩ := h.state
  obtain ⟨ctx, base, hctx, hbase, hcontext⟩ := (h.receive payload).context
  obtain ⟨arguments, value, hpass, hpayload, hlocals⟩ := exists_pass s event payload
  rw [hcontext, merge_payload, ← hname] at hdestination
  have hcall := call_dispatch_of_destination hgenerated hprintable (h.receive payload).regular
    hstate hsource hctx hbase hpayload hlocals htarget hdestination fuel
  refine ⟨_, dispatch_of_ok h.regular hpass hcall, ?_, ?_⟩
  · rw [← hname]
    rfl
  · have hmerged : ((s.receive payload).add (base.update (payload.getD []))).Regular := h.regular
    rw [hcontext, merge_payload]
    exact {
      regular := (hmerged.taken source target action).setContext _
      state := ⟨target, htarget, rfl, rfl⟩
      context := ⟨_, _, rfl, Store.members?_new (s.receive payload) _, rfl⟩ }

/-- An event that leads nowhere is not handled, and nothing else happens. -/
theorem Agree.of_error (hvalid : Identifier.isValid event) {e : SimulationError}
    (hdestination : Run.destination m run.state event (run.context.merge (Run.payload payload)) =
      .error e) :
    ∃ t, (Module.ofMachine options m).dispatch limit event payload s =
        .error (.unhandledEvent run.state event) t ∧
      t.actions = s.actions ∧ Agree options m run t := by
  obtain ⟨fuel, rfl⟩ := Nat.exists_eq_add_of_le' hlimit
  obtain ⟨source, hsource, hname, hstate⟩ := h.state
  obtain ⟨ctx, base, hctx, hbase, hcontext⟩ := (h.receive payload).context
  obtain ⟨arguments, value, hpass, hpayload, hlocals⟩ := exists_pass s event payload
  rw [hcontext, merge_payload, ← hname] at hdestination
  have hcall := call_dispatch_of_error hgenerated (h.receive payload).regular
    hstate hsource hctx hbase hpayload hlocals hvalid hdestination fuel
  rw [← hname]
  exact ⟨_, dispatch_of_error h.regular hpass hcall, rfl, {
    regular := h.regular
    state := ⟨source, hsource, hname, hstate⟩
    context := ⟨ctx, base, hctx, Store.members?_append hbase [_], hcontext⟩ }⟩

include hprintable in
/-- What becomes of an event is seen alike, it does not fail, and the two agree behind it. -/
theorem Agree.dispatch (hvalid : Identifier.isValid event) :
    let outcome := run.attempt m event (Run.payload payload)
    let settled := (Module.ofMachine options m).settle
      ((Module.ofMachine options m).dispatch limit event payload s.forget)
    settled.1 = outcome.observation ∧ settled.1.verdict ≠ .failed ∧
      Agree options m outcome.after settled.2 := by
  have hfresh : Agree options m run s.forget := ⟨h.regular, h.state, h.context⟩
  dsimp only
  unfold Run.attempt
  cases happly : run.apply m event (Run.payload payload) with
  | ok result =>
    obtain ⟨step, next⟩ := result
    obtain ⟨name, action, target, hdestination, hfound, rfl, rfl⟩ := Run.apply_eq_ok_iff.mp happly
    rw [← name_of_state? hfound] at hdestination
    obtain ⟨t, hdispatch, hactions, hagree⟩ := hfresh.of_destination hgenerated hprintable hlimit
      (mem_of_state? hfound) hdestination
    rw [hdispatch]
    refine ⟨?_, fun hfailed ↦ (by cases hfailed), hagree⟩
    exact (hagree.observation hgenerated .accepted).trans (by rw [hactions]; rfl)
  | error e =>
    obtain ⟨hdestination, hreason⟩ := hgenerated.destination_of_apply_eq_error happly
    obtain ⟨t, hdispatch, hactions, hagree⟩ := hfresh.of_error hgenerated hlimit hvalid
      hdestination
    rw [hdispatch]
    refine ⟨?_, fun hfailed ↦ (by cases hfailed), hagree⟩
    refine (hagree.observation hgenerated (.unhandled run.state event)).trans ?_
    rw [hactions]
    rcases hreason with rfl | rfl <;> rfl

end Event

/-! ### Rows of events -/

/-- A new dispatcher agrees with a new run. -/
theorem Agree.start (hgenerated : Generated options m) (hprintable : m.Printable) {limit : Nat}
    (hlimit : 7 ≤ limit) (context : Members) :
    ∃ run s, Run.start m (.object context) = .ok run ∧
      (Module.ofMachine options m).start limit context Store.empty = .ok () s ∧
      Agree options m run s := by
  obtain ⟨fuel, rfl⟩ := Nat.exists_eq_add_of_le' hlimit
  obtain ⟨initial, hstates⟩ := hgenerated.initial
  have hinitial : m.initialState? = some initial := by rw [initialState?, hstates]
  let fresh := Store.empty.add context
  have hregular : fresh.Regular := Store.regular_empty.add context
  have hmade : allocate context Store.empty = .ok (.dict 0) fresh := rfl
  have hmethod : (Module.ofMachine options m).attribute? fresh .dispatcher "__init__" =
      some (.bound .dispatcher Dispatcher.construct) :=
    attribute?_ownMethod hregular Dispatcher.construct (by simp [Dispatcher.methods])
  let built := ((fresh.setAttribute "ctx" (.dict 0)).setAttribute "state" .nothing).setAttribute
    "state" (stateObject options initial)
  have hcall : (Module.ofMachine options m).call (fuel + 7)
      (.bound .dispatcher Dispatcher.construct) [.dict 0] fresh =
        .ok .nothing (built.run initial.entry.toList) :=
    call_construct hgenerated hprintable hregular hinitial rfl (fuel + 3)
  refine ⟨⟨initial.name, .object context⟩, built.run initial.entry.toList, ?_, ?_, ?_⟩
  · rw [Run.start, hinitial]
  · rw [Module.start, bind_of_ok hmade,
      bind_of_ok ((Module.send_eq (fuel + 7) hmethod).trans hcall)]
    rfl
  · exact {
      regular := (((hregular.setContext _).setState _).setState _).run _
      state := ⟨initial, mem_of_initialState? hinitial, rfl, rfl⟩
      context := ⟨.dict 0, context, rfl, rfl, rfl⟩ }

/-- By induction on the events: the two agree behind each of them. -/
theorem Agree.trace (hgenerated : Generated options m) (hprintable : m.Printable) {limit : Nat}
    (hlimit : 7 ≤ limit) (h : Agree options m run s) {events : List (String × Option Members)}
    (hvalid : ∀ event ∈ events, Identifier.isValid event.1) :
    (Module.ofMachine options m).trace limit s events =
        (run.trace m (Run.events events)).map Run.Outcome.observation ∧
      ∀ seen ∈ (Module.ofMachine options m).trace limit s events, seen.verdict ≠ .failed := by
  induction events generalizing run s with
  | nil => exact ⟨rfl, List.forall_mem_nil _⟩
  | cons first rest ih =>
    obtain ⟨event, payload⟩ := first
    obtain ⟨hevent, hrest⟩ := List.forall_mem_cons.mp hvalid
    obtain ⟨hseen, hverdict, hagree⟩ := h.dispatch hgenerated hprintable hlimit hevent
    obtain ⟨htrace, hverdicts⟩ := ih hagree hrest
    exact ⟨List.cons_eq_cons.mpr ⟨hseen, htrace⟩, List.forall_mem_cons.mpr ⟨hverdict, hverdicts⟩⟩

/-- The program that is generated for a machine runs in lockstep with it: on any context and for any
events that can be declared, an event is not handled by the program exactly if it is rejected in the
run, the actions that are run for it are the same, and so are the state and the context behind it.
Nothing else is ever raised. The names of built-in functions, such as `dict`, `getattr`, `super` and
`frozenset`, are taken to stand for these functions. They do with the standard suffix, but another
one can give such a name to the class of a state. -/
theorem dispatch_lockstep {name source text : String}
    (hparse : Machine.parseNamed name source = .ok m) (hgenerate : generate options m = .ok text)
    {limit : Nat} (hlimit : 7 ≤ limit) (context : Members) :
    text = Code.text options.indentWidth (Module.ofMachine options m).code ∧
      ∃ run s, Run.start m (.object context) = .ok run ∧
        (Module.ofMachine options m).start limit context Store.empty = .ok () s ∧
        (Module.ofMachine options m).stateName? s = some run.state ∧
        Module.context? s = some run.context ∧
        ∀ events : List (String × Option Members),
          (∀ event ∈ events, Identifier.isValid event.1) →
          (Module.ofMachine options m).trace limit s events =
              (run.trace m (Run.events events)).map Run.Outcome.observation ∧
            ∀ seen ∈ (Module.ofMachine options m).trace limit s events,
              seen.verdict ≠ .failed := by
  have hprintable := printable_of_parseNamed hparse
  obtain ⟨hgenerated, htext⟩ := generated_of_generate hgenerate
  obtain ⟨run, s, hrun, hstart, hagree⟩ := Agree.start hgenerated hprintable hlimit context
  have hseen := hagree.observation hgenerated .accepted
  rw [Module.observation, Observation.mk.injEq] at hseen
  refine ⟨?_, run, s, hrun, hstart, hseen.2.2.1, hseen.2.2.2, fun events hvalid ↦
    hagree.trace hgenerated hprintable hlimit hvalid⟩
  rw [htext, hgenerated.code_ofMachine]

/-- A switch that clicks, hums if it is pushed again, and can be cut off. -/
def switchSource : String :=
  "resetEvents\n cut\nend\ninitial state Off\n exit buzz\n push => On / click\nend\n" ++
    "state On\n entry glow\n push => On / hum\nend"

theorem dispatch_lockstep_switchSource : ∃ m text,
    Machine.parseNamed "switch" switchSource = .ok m ∧ generate .standard m = .ok text ∧
      text = Code.text 4 (Module.ofMachine .standard m).code ∧
      ∃ run s, Run.start m (.object [("load", .bool true)]) = .ok run ∧
        (Module.ofMachine .standard m).start 7 [("load", .bool true)] Store.empty = .ok () s ∧
        (Module.ofMachine .standard m).stateName? s = some run.state ∧
        Module.context? s = some run.context ∧
        ∀ events : List (String × Option Members),
          (∀ event ∈ events, Identifier.isValid event.1) →
          (Module.ofMachine .standard m).trace 7 s events =
              (run.trace m (Run.events events)).map Run.Outcome.observation ∧
            ∀ seen ∈ (Module.ofMachine .standard m).trace 7 s events,
              seen.verdict ≠ .failed := by
  have hok : ((Machine.parseNamed "switch" switchSource).toOption.bind fun m ↦
      (generate .standard m).toOption).isSome := by decide +kernel
  cases hparse : Machine.parseNamed "switch" switchSource with
  | error e => simp [hparse, Except.toOption] at hok
  | ok m =>
    cases hgenerate : generate .standard m with
    | error e => simp [hparse, hgenerate, Except.toOption] at hok
    | ok text =>
      exact ⟨m, text, rfl, hgenerate,
        dispatch_lockstep hparse hgenerate (Nat.le_refl 7) [("load", .bool true)]⟩

/-- A door that opens with a key only, and creaks. -/
def door : Machine where
  name := "Door"
  events := []
  resetEvents := [⟨"slam", none, .unplaced⟩]
  commands := []
  states := [⟨"Shut", true, some "lock", none, .unplaced⟩,
    ⟨"Open", false, none, some "wave", .unplaced⟩]
  transitions := [⟨"Shut", "Open", "push", some (.truthy "key"), some "creak", .unplaced⟩,
    ⟨"Open", "Open", "push", none, some "hum", .unplaced⟩]

/-- The key of a push that is not handled is not kept; the one of a push that is handled is. -/
example :
    let program := Module.ofMachine .standard door
    let s := (program.settle (program.start 7 [] .empty)).2
    program.trace 7 s [("push", some [("key", .bool false)]), ("push", some [("key", .bool true)]),
        ("push", none), ("slam", none)] =
      [⟨.unhandled "Shut" "push", [], some "Shut", some (.object [])⟩,
        ⟨.accepted, ["creak"], some "Open", some (.object [("key", .bool true)])⟩,
        ⟨.accepted, ["hum"], some "Open", some (.object [("key", .bool true)])⟩,
        ⟨.accepted, ["wave", "lock"], some "Shut", some (.object [("key", .bool true)])⟩] := by
  rfl

end

end Python

end StateMachine
