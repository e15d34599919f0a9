import StateMachine.Proofs.Python.Semantics

/-!
Executions step by step. What an expression comes to follows from what its operands come to
(`Expression.eval_attribute`), a call from its function and its arguments (`Computation.eval_call`),
and a body from its first statement and the rest (`Statement.execAll_next`). Nothing but calls,
copies and assignments changes the store.
-/

set_option autoImplicit false

namespace StateMachine.Python

namespace Execution

variable {α β : Type} {x : Execution α} {next : α → Execution β} {a : α} {raised : Raised}
  {s t : Store}

theorem bind_of_ok (h : x s = .ok a t) : (x >>= next) s = next a t := by
  change EStateM.bind x next s = _
  rw [EStateM.bind, h]

theorem bind_of_error (h : x s = .error raised t) : (x >>= next) s = .error raised t := by
  change EStateM.bind x next s = _
  rw [EStateM.bind, h]

theorem bind_get {next : Store → Execution β} : (get >>= next) s = next s s :=
  rfl

theorem bind_modify {f : Store → Store} {next : Unit → Execution β} :
    (modify f >>= next) s = next () (f s) :=
  rfl

theorem demand_of_some {value : Option α} (h : value = some a) : demand value s = .ok a s := by
  rw [h]
  rfl

end Execution

open Execution

namespace Store

@[simp] theorem run_nil (s : Store) : s.run [] = s := by
  rw [run, List.append_nil]

theorem run_run (s : Store) (actions more : List String) :
    (s.run actions).run more = s.run (actions ++ more) := by
  rw [run, run, run, List.append_assoc]

theorem attributes_setAttribute (s : Store) (name : String) (v : Value) (other : String) :
    (s.setAttribute name v).attributes other =
      if other = name then some v else s.attributes other :=
  rfl

end Store

section

variable {program : Module} {locals : Locals} {s t : Store} {v w : Value} {name : String}
  {e first second : Expression} {call : Value → List Value → Execution Value}

/-! ### Expressions -/

namespace Expression

theorem eval_literal {text : String} :
    (literal text).eval program locals s = .ok (.text text) s :=
  rfl

theorem eval_nothing : nothing.eval program locals s = .ok .nothing s :=
  rfl

theorem eval_reference (h : locals.lookup name = some v) :
    (reference name).eval program locals s = .ok v s :=
  demand_of_some h

theorem eval_attribute (he : e.eval program locals s = .ok v s)
    (h : program.attribute? s v name = some w) :
    (Expression.attribute e name).eval program locals s = .ok w s :=
  (bind_of_ok he).trans (demand_of_some h)

theorem eval_optionalAttribute (he : e.eval program locals s = .ok v s)
    (hname : first.eval program locals s = .ok (.text name) s) :
    (optionalAttribute e first).eval program locals s =
      .ok ((program.attribute? s v name).getD .nothing) s :=
  (bind_of_ok he).trans (bind_of_ok hname)

theorem eval_item (hfirst : first.eval program locals s = .ok v s)
    (hsecond : second.eval program locals s = .ok w s) {found : Value}
    (h : v.item? w = some found) : (item first second).eval program locals s = .ok found s :=
  (bind_of_ok hfirst).trans ((bind_of_ok hsecond).trans (demand_of_some h))

/-- A copy is a new dictionary. -/
theorem eval_copy (he : e.eval program locals s = .ok v s) {members : Members}
    (h : s.members? v = some members) :
    (copy e).eval program locals s = .ok (.dict s.dicts.length) (s.add members) :=
  (bind_of_ok he).trans (bind_get.trans (bind_of_ok (demand_of_some h)))

theorem eval_concat {a b : String} (hfirst : first.eval program locals s = .ok (.text a) s)
    (hsecond : second.eval program locals s = .ok (.text b) s) :
    (concat first second).eval program locals s = .ok (.text (a ++ b)) s :=
  (bind_of_ok hfirst).trans (bind_of_ok hsecond)

theorem eval_isNothing (he : e.eval program locals s = .ok v s) :
    (isNothing e).eval program locals s = .ok (.truth v.isNothing) s :=
  bind_of_ok he

theorem eval_isSomething (he : e.eval program locals s = .ok v s) :
    (isSomething e).eval program locals s = .ok (.truth !v.isNothing) s :=
  bind_of_ok he

theorem eval_differs {a b : String} (hfirst : first.eval program locals s = .ok (.text a) s)
    (hsecond : second.eval program locals s = .ok (.text b) s) :
    (differs first second).eval program locals s = .ok (.truth (a ≠ b)) s :=
  (bind_of_ok hfirst).trans (bind_of_ok hsecond)

theorem eval_member {a : String} {elements : List String}
    (hfirst : first.eval program locals s = .ok (.text a) s)
    (hsecond : second.eval program locals s = .ok (.texts elements) s) :
    (member first second).eval program locals s = .ok (.truth (elements.contains a)) s :=
  (bind_of_ok hfirst).trans (bind_of_ok hsecond)

theorem eval_conditional_of_not_isTrue {test : Expression}
    (htest : test.eval program locals s = .ok v s) (h : s.isTrue v = false) :
    (conditional test first second).eval program locals s = second.eval program locals s := by
  refine (bind_of_ok htest).trans (bind_get.trans ?_)
  rw [h, if_neg Bool.false_ne_true]

theorem eval_guard {g : Guard} {context : Value} {members : Members}
    (hcontext : locals.lookup "ctx" = some context) (h : s.members? context = some members) :
    (guard g).eval program locals s = .ok (.truth (g.evaluate (.object members))) s :=
  (bind_of_ok (demand_of_some hcontext)).trans
    (bind_get.trans (bind_of_ok (demand_of_some h)))

theorem mapM_nil : ([] : List Expression).mapM (eval program locals) s = .ok [] s :=
  rfl

theorem mapM_cons {es : List Expression} {vs : List Value}
    (he : e.eval program locals s = .ok v s)
    (hes : es.mapM (eval program locals) s = .ok vs s) :
    (e :: es).mapM (eval program locals) s = .ok (v :: vs) s := by
  rw [List.mapM_cons, bind_of_ok he, bind_of_ok hes]
  rfl

end Expression

/-! ### Calls and statements -/

theorem Computation.eval_value (he : e.eval program locals s = .ok v t) :
    (Computation.value e).eval program call locals s = .ok v t :=
  he

theorem Computation.eval_call {arguments : List Expression} {vs : List Value}
    (he : e.eval program locals s = .ok v s)
    (harguments : arguments.mapM (Expression.eval program locals) s = .ok vs s) :
    (Computation.call e arguments).eval program call locals s = call v vs s :=
  (bind_of_ok he).trans (bind_of_ok harguments)

/-- Calling a method of an object. -/
theorem Computation.eval_send {arguments : List Expression} {vs : List Value} {m : Method}
    (he : e.eval program locals s = .ok v s)
    (hmethod : program.attribute? s v name = some (.bound v m))
    (harguments : arguments.mapM (Expression.eval program locals) s = .ok vs s) :
    (Computation.call (.attribute e name) arguments).eval program call locals s =
      call (.bound v m) vs s :=
  eval_call (Expression.eval_attribute he hmethod) harguments

namespace SimpleStatement

variable {c : Computation}

theorem exec_assign (h : c.eval program call locals s = .ok v t) :
    (assign name c).exec program call locals s = .ok (.next ((name, v) :: locals)) t :=
  bind_of_ok h

theorem exec_setAttribute (h : c.eval program call locals s = .ok v t)
    (hself : locals.lookup "self" = some .dispatcher) :
    (setAttribute name c).exec program call locals s =
      .ok (.next locals) (t.setAttribute name v) := by
  refine (bind_of_ok h).trans ?_
  rw [hself]
  rfl

theorem exec_assign_of_error {raised : Raised}
    (h : c.eval program call locals s = .error raised t) :
    (assign name c).exec program call locals s = .error raised t :=
  bind_of_error h

theorem exec_update {address : Nat} {members patch : Members}
    (hdict : locals.lookup name = some (.dict address)) (he : e.eval program locals s = .ok v s)
    (hmembers : s.dicts[address]? = some members) (hpatch : s.members? v = some patch) :
    (update name e).exec program call locals s =
      .ok (.next locals) { s with dicts := s.dicts.set address (members.update patch) } := by
  have hdictMembers : s.members? (.dict address) = some members := hmembers
  refine (bind_of_ok (demand_of_some hdict)).trans ((bind_of_ok he).trans (bind_get.trans ?_))
  rw [hdictMembers, hpatch]
  rfl

theorem exec_perform (h : c.eval program call locals s = .ok v t) :
    (perform c).exec program call locals s = .ok (.next locals) t :=
  bind_of_ok h

theorem exec_answer (h : c.eval program call locals s = .ok v t) :
    (answer c).exec program call locals s = .ok (.answered v) t :=
  bind_of_ok h

theorem exec_answer_of_error {raised : Raised}
    (h : c.eval program call locals s = .error raised t) :
    (answer c).exec program call locals s = .error raised t :=
  bind_of_error h

theorem exec_raiseUnhandled {state event : String}
    (hfirst : first.eval program locals s = .ok (.text state) s)
    (hsecond : second.eval program locals s = .ok (.text event) s) :
    (raiseUnhandled first second).exec program call locals s =
      .error (.unhandledEvent state event) s :=
  (bind_of_ok hfirst).trans ((bind_of_ok (a := state) rfl).trans (bind_of_ok hsecond))

end SimpleStatement

namespace Statement

variable {statement : SimpleStatement} {otherwise : Option SimpleStatement}
  {branches : List (Expression × SimpleStatement)} {rest : List Statement} {raised : Raised}

theorem execChoice_of_isTrue (he : e.eval program locals s = .ok v s) (h : s.isTrue v) :
    execChoice program call locals otherwise ((e, statement) :: branches) s =
      statement.exec program call locals s := by
  refine (bind_of_ok he).trans (bind_get.trans ?_)
  rw [h, if_pos rfl]

theorem execChoice_of_not_isTrue (he : e.eval program locals s = .ok v s)
    (h : s.isTrue v = false) :
    execChoice program call locals otherwise ((e, statement) :: branches) s =
      execChoice program call locals otherwise branches s := by
  refine (bind_of_ok he).trans (bind_get.trans ?_)
  rw [h, if_neg Bool.false_ne_true]

theorem exec_choice_of_isTrue (he : e.eval program locals s = .ok v s) (h : s.isTrue v) :
    (choice ((e, statement) :: branches) otherwise).exec program call locals s =
      statement.exec program call locals s :=
  execChoice_of_isTrue he h

/-- A single branch is skipped if its condition is not true. -/
theorem exec_choice_skip (he : e.eval program locals s = .ok v s) (h : s.isTrue v = false) :
    (choice [(e, statement)] none).exec program call locals s = .ok (.next locals) s :=
  execChoice_of_not_isTrue he h

/-- The last branch is taken if the condition of the first is not true. -/
theorem exec_choice_otherwise {last : SimpleStatement} (he : e.eval program locals s = .ok v s)
    (h : s.isTrue v = false) :
    (choice [(e, statement)] (some last)).exec program call locals s =
      last.exec program call locals s :=
  execChoice_of_not_isTrue he h

theorem exec_simple : (simple statement).exec program call locals s =
    statement.exec program call locals s :=
  rfl

theorem execAll_next {first : Statement} {more : Locals}
    (h : first.exec program call locals s = .ok (.next more) t) :
    execAll program call (first :: rest) locals s = execAll program call rest more t :=
  bind_of_ok h

theorem execAll_answered {first : Statement}
    (h : first.exec program call locals s = .ok (.answered v) t) :
    execAll program call (first :: rest) locals s = .ok v t :=
  bind_of_ok h

theorem execAll_raised {first : Statement}
    (h : first.exec program call locals s = .error raised t) :
    execAll program call (first :: rest) locals s = .error raised t :=
  bind_of_error h

/-- A call that is answered as it is. -/
theorem execAll_answer {c : Computation} :
    execAll program call [.simple (.answer c)] locals s = c.eval program call locals s := by
  cases h : c.eval program call locals s with
  | ok v t => exact execAll_answered (SimpleStatement.exec_answer h)
  | error raised t => exact execAll_raised (SimpleStatement.exec_answer_of_error h)

end Statement

/-- A call of a method that runs no action itself is an execution of its body. -/
theorem Module.call_bound {m : Method} {arguments : List Value} (fuel : Nat)
    (hlocals : m.locals? v arguments = some locals) (hactions : m.actions v arguments = []) :
    program.call (fuel + 1) (.bound v m) arguments s =
      Statement.execAll program (program.call fuel) m.body locals s := by
  refine bind_modify.trans ?_
  rw [hactions, Store.run_nil]
  exact bind_of_ok (demand_of_some hlocals)

theorem Module.send_eq {arguments : List Value} (fuel : Nat)
    (h : program.attribute? s .dispatcher name = some v) :
    program.send fuel name arguments s = program.call fuel v arguments s :=
  bind_get.trans (bind_of_ok (demand_of_some h))

end

end StateMachine.Python
