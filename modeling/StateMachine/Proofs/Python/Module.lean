import Mathlib.Data.List.Basic
import StateMachine.Proofs.Python.Syntax

/-!
The program of a machine as syntax. Written down, it is the text that is generated
(`Program.code_toModule`), provided that no handler is ambiguous: the handler of an event is a chain
of conditions if its transitions have guards, and takes its only transition otherwise.
-/

set_option autoImplicit false

namespace StateMachine.Python

/-- The object whose method is called. -/
def selfReference : Expression :=
  .reference "self"

/-- The call that takes a transition. -/
def takeCall (t : Transition) : Computation :=
  .call (.attribute (.reference "machine") "transition")
    [.literal t.target, (t.action.map Expression.literal).getD .nothing, .reference "ctx"]

namespace Handler

/-- The branch of a transition that has a guard. -/
def branch? (t : Transition) : Option (Expression × SimpleStatement) :=
  t.guard.map fun g ↦ (.guard g, .answer (takeCall t))

def body (h : Handler) : List Statement :=
  if h.transitions.any (·.guard.isSome) then
    [.choice (h.transitions.filterMap branch?) none,
      .simple (.raiseUnhandled (.attribute selfReference "name") (.literal h.event))]
  else h.transitions.map fun t ↦ .simple (.answer (takeCall t))

def method (h : Handler) : Method :=
  ⟨methodName h.event, ["machine", "ctx"], none, h.body⟩

end Handler

/-! ### Classes of states -/

/-- The method of a hook that runs an action. -/
def hookMethod (name action : String) : Method :=
  ⟨name, ["machine", "ctx"], none,
    [.simple (.perform (.call (.attribute (.reference "machine") "run_action")
      [.literal action]))]⟩

def hookMembers (name : String) (action : Option String) : List Member :=
  match action with
  | none => []
  | some action => [.blank, .method (hookMethod name action)]

namespace StateClass

def definition (base : String) (c : StateClass) : ClassDefinition :=
  ⟨c.className, some base, .constant "name" (.text c.state.name) ::
    (hookMembers "on_entry" c.state.entry ++ hookMembers "on_exit" c.state.exit ++
      c.handlers.flatMap fun h ↦ [.blank, .method h.method])⟩

end StateClass

namespace Base

/-- The method of a hook without action. -/
def hook (name : String) : Method :=
  ⟨name, ["machine", "ctx"], none, [.simple .pass]⟩

/-- The method that finds the handler of an event by its name. -/
def handle : Method :=
  ⟨"handle", ["machine", "event", "ctx"], none,
    [.simple (.assign "handler" (.value (.optionalAttribute selfReference
        (.concat (.literal "on_") (.reference "event"))))),
      .choice [(.isNothing (.reference "handler"),
        .raiseUnhandled (.attribute selfReference "name") (.reference "event"))] none,
      .simple (.answer (.call (.reference "handler") [.reference "machine", .reference "ctx"]))]⟩

/-- The class from which the classes of states inherit. -/
def definition (machine : String) : ClassDefinition :=
  ⟨baseClassName machine, none,
    [.docstring ("Base class for " ++ machine ++ " states."), .blank, .constant "name" .nothing,
      .blank, .method (hook "on_entry"), .blank, .method (hook "on_exit"), .blank,
      .method handle]⟩

end Base

/-! ### The dispatcher -/

namespace Dispatcher

/-- An attribute of the dispatcher. -/
def own (name : String) : Expression :=
  .attribute selfReference name

def construct : Method :=
  ⟨"__init__", [], some "ctx",
    [.simple (.setAttribute "ctx" (.value
        (.conditional (.isNothing (.reference "ctx")) .emptyDict (.reference "ctx")))),
      .simple (.setAttribute "state" (.value .nothing)),
      .simple (.perform (.call (own "enter") [own "initial", own "ctx"]))]⟩

def enter : Method :=
  ⟨"enter", ["target", "ctx"], none,
    [.simple (.setAttribute "state" (.call (.item (own "states") (.reference "target")) [])),
      .simple (.perform (.call (.attribute (own "state") "on_entry")
        [selfReference, .reference "ctx"])),
      .simple (.answer (.value (own "state")))]⟩

/-- A reset event leads to the initial state; any other event is handled by the current one. -/
def route : Statement :=
  .choice [(.member (.reference "event") (own "reset_events"),
      .assign "state" (.call (own "transition") [own "initial", .nothing, .reference "ctx"]))]
    (some (.assign "state" (.call (.attribute (own "state") "handle")
      [selfReference, .reference "event", .reference "ctx"])))

def dispatch : Method :=
  ⟨"dispatch", ["event"], some "payload",
    [.simple (.docstring "Merges the payload into the context if the event is accepted."),
      .simple (.assign "ctx" (.value (.copy (own "ctx")))),
      .choice [(.reference "payload", .update "ctx" (.reference "payload"))] none,
      route,
      .simple (.setAttribute "ctx" (.value (.reference "ctx"))),
      .simple (.answer (.value (.reference "state")))]⟩

def exitIfChanged : Statement :=
  .choice [(.reference "changed", .perform (.call (.attribute (own "state") "on_exit")
    [selfReference, .reference "ctx"]))] none

def runIfAction : Statement :=
  .choice [(.isSomething (.reference "action"),
    .perform (.call (own "run_action") [.reference "action"]))] none

def enterIfChanged : Statement :=
  .choice [(.reference "changed",
    .perform (.call (own "enter") [.reference "target", .reference "ctx"]))] none

def transition : Method :=
  ⟨"transition", ["target", "action", "ctx"], none,
    [.simple (.assign "changed" (.value
        (.differs (.reference "target") (.attribute (own "state") "name")))),
      exitIfChanged, runIfAction, enterIfChanged, .simple (.answer (.value (own "state")))]⟩

def runAction : Method :=
  ⟨"run_action", ["action"], none,
    [.simple (.docstring "Override to perform commands; `commands` maps names to codes.")]⟩

def methods : List Method :=
  [construct, enter, dispatch, transition, runAction]

end Dispatcher

namespace Program

def dispatcherDefinition (p : Program) : ClassDefinition :=
  ⟨p.className, none,
    [.docstring ("Dispatcher for the " ++ p.machineName ++ " state machine."), .blank,
      .constant "initial" (.text p.initial),
      .constant "reset_events" (.texts p.resetEvents),
      .constant "events" (.codes p.events),
      .constant "commands" (.codes p.commands),
      .constant "states" (.classes (p.states.map fun c ↦ (c.state.name, c.className)))] ++
    Dispatcher.methods.flatMap fun m ↦ [.blank, .method m]⟩

/-- What comes before the classes. -/
def preamble (p : Program) : List Code :=
  [.line ("# Generated by smc from state machine '" ++ p.machineName ++ "'."),
    .line ("# Source checksum: " ++ p.checksum),
    .line "# Do not edit by hand.",
    .blank,
    .line "import operator",
    .blank,
    .blank,
    exceptionCode, .blank, .blank,
    fieldCode, .blank, .blank,
    equalsCode, .blank, .blank,
    compareCode]

/-- The program as syntax. -/
def toModule (p : Program) : Module :=
  ⟨p.preamble,
    Base.definition p.machineName ::
      p.states.map (StateClass.definition (baseClassName p.machineName)),
    p.dispatcherDefinition⟩

end Program

/-! ### Its text -/

theorem source_optional (action : Option String) :
    ((action.map Expression.literal).getD .nothing).source = optionalLiteral action := by
  cases action with
  | none => rfl
  | some action => exact rfl

theorem source_takeCall (t : Transition) :
    (SimpleStatement.answer (takeCall t)).source = takeLine t := by
  rw [SimpleStatement.source_answer]
  unfold takeLine
  rw [← source_optional]
  apply String.toList_inj.mp
  simp [takeCall, Computation.source, Expression.source]

namespace Handler

theorem branchCode_of_guarded {transitions : List Transition} (first : Bool)
    (h : ∀ t ∈ transitions, t.guard ≠ none) :
    Statement.branchCode first (transitions.filterMap branch?) = branches first transitions := by
  induction transitions generalizing first with
  | nil => rfl
  | cons t rest ih =>
    obtain ⟨ht, hrest⟩ := List.forall_mem_cons.mp h
    obtain ⟨g, hg⟩ := Option.ne_none_iff_exists'.mp ht
    simp only [List.filterMap_cons, branch?, hg, Option.map_some, Statement.branchCode, branches,
      ih false hrest, source_takeCall, Expression.source]

/-- The transitions of a handler that is not ambiguous have guards, or there is only one. -/
theorem guarded_or_single {h : Handler} (hne : h.transitions ≠ [])
    (hambiguous : h.isAmbiguous = false) :
    (∀ t ∈ h.transitions, t.guard ≠ none) ∨ ∃ t, h.transitions = [t] ∧ t.guard = none := by
  unfold isAmbiguous at hambiguous
  match htransitions : h.transitions with
  | [] => exact absurd htransitions hne
  | [t] =>
    cases hguard : t.guard with
    | none => exact Or.inr ⟨t, rfl, hguard⟩
    | some g => exact Or.inl (by simp [hguard])
  | t :: u :: rest =>
    rw [htransitions] at hambiguous
    refine Or.inl fun v hv hnone ↦ ?_
    have hany : (t :: u :: rest).any (·.guard.isNone) :=
      List.any_eq_true.mpr ⟨v, hv, by simp [hnone]⟩
    rw [hany] at hambiguous
    simp at hambiguous

theorem body_of_guarded {h : Handler} (hne : h.transitions ≠ [])
    (hguarded : ∀ t ∈ h.transitions, t.guard ≠ none) :
    h.body = [.choice (h.transitions.filterMap branch?) none,
      .simple (.raiseUnhandled (.attribute selfReference "name") (.literal h.event))] := by
  obtain ⟨t, ht⟩ := List.exists_mem_of_ne_nil _ hne
  refine if_pos (List.any_eq_true.mpr ⟨t, ht, ?_⟩)
  exact Option.isSome_iff_ne_none.mpr (hguarded t ht)

theorem body_of_single {h : Handler} {t : Transition} (hsingle : h.transitions = [t])
    (hnone : t.guard = none) : h.body = [.simple (.answer (takeCall t))] := by
  rw [body, hsingle, if_neg (by simp [hnone])]
  rfl

end Handler

/-- A method that is passed the dispatcher and a context. -/
theorem code_eventMethod (name : String) (body : List Statement) :
    Method.code ⟨name, ["machine", "ctx"], none, body⟩ =
      .block ("def " ++ name ++ "(self, machine, ctx):") (body.flatMap Statement.code) := by
  have hheader : "def " ++ name ++ "(" ++ ", ".intercalate ["self", "machine", "ctx"] ++ "):" =
      "def " ++ name ++ "(self, machine, ctx):" := by
    apply String.toList_inj.mp
    simp
  rw [← hheader]
  rfl

theorem Handler.code_method {h : Handler} (hne : h.transitions ≠ [])
    (hambiguous : h.isAmbiguous = false) : h.method.code = h.code := by
  have hraise : (SimpleStatement.raiseUnhandled (.attribute selfReference "name")
      (.literal h.event)).source =
        "raise UnhandledEvent(self.name, " ++ textLiteral h.event ++ ")" := by
    apply String.toList_inj.mp
    simp [SimpleStatement.source_raiseUnhandled, Expression.source, selfReference]
  rw [method, code_eventMethod, code]
  refine congrArg (Code.block _) ?_
  rcases guarded_or_single hne hambiguous with hguarded | ⟨t, hsingle, hnone⟩
  · obtain ⟨t, ht⟩ := List.exists_mem_of_ne_nil _ hne
    have hany : h.transitions.any (·.guard.isSome) :=
      List.any_eq_true.mpr ⟨t, ht, Option.isSome_iff_ne_none.mpr (hguarded t ht)⟩
    rw [body_of_guarded hne hguarded, if_pos hany]
    simp [Statement.code, branchCode_of_guarded true hguarded, hraise]
  · rw [body_of_single hsingle hnone, hsingle]
    simp [branches, hnone, Statement.code, source_takeCall]

theorem code_hookMembers (name : String) (action : Option String) :
    (hookMembers name action).flatMap Member.code = hookCode name action := by
  cases action with
  | none => rfl
  | some action =>
    have hbody : [.line ("machine.run_action(" ++ textLiteral action ++ ")")] =
        (hookMethod name action).body.flatMap Statement.code := rfl
    rw [hookCode, hbody, ← code_eventMethod]
    rfl

theorem code_baseDefinition (machine : String) :
    (Base.definition machine).code = baseCode machine := by
  have hdocstring : docstringSource ("Base class for " ++ machine ++ " states.") =
      "\"\"\"Base class for " ++ machine ++ " states.\"\"\"" := by
    apply String.toList_inj.mp
    simp [docstringSource]
  have hheader : "class " ++ baseClassName machine ++ "" ++ ":" =
      "class " ++ baseClassName machine ++ ":" := by
    rw [String.append_empty]
  unfold baseCode
  rw [← hdocstring, ← hheader]
  rfl

theorem code_definition {base : String} {c : StateClass}
    (h : ∀ handler ∈ c.handlers, handler.method.code = handler.code) :
    (c.definition base).code = c.code base := by
  have hhandlers : (c.handlers.flatMap fun h ↦ [Member.blank, .method h.method]).flatMap
      Member.code = c.handlers.flatMap fun h ↦ [.blank, h.code] := by
    rw [List.flatMap_assoc]
    refine List.flatMap_congr fun handler hmem ↦ ?_
    rw [← h handler hmem]
    rfl
  have hheader : "class " ++ c.className ++ ("(" ++ base ++ ")") ++ ":" =
      "class " ++ c.className ++ "(" ++ base ++ "):" := by
    apply String.toList_inj.mp
    simp
  rw [StateClass.code, ← hhandlers, ← code_hookMembers, ← code_hookMembers, ← hheader,
    ← List.flatMap_append, ← List.flatMap_append]
  rfl

theorem code_dispatcherMethods :
    (Dispatcher.methods.flatMap fun m ↦ [.blank, m.code]) = .blank :: dispatcherMethods := by
  rfl

namespace Program

variable (p : Program)

theorem code_dispatcherDefinition : p.dispatcherDefinition.code = p.dispatcherCode := by
  have hmethods : (Dispatcher.methods.flatMap fun m ↦ [Member.blank, .method m]).flatMap
      Member.code = .blank :: dispatcherMethods := by
    rw [List.flatMap_assoc, ← code_dispatcherMethods]
    rfl
  have hdocstring : docstringSource ("Dispatcher for the " ++ p.machineName ++ " state machine.") =
      "\"\"\"Dispatcher for the " ++ p.machineName ++ " state machine.\"\"\"" := by
    apply String.toList_inj.mp
    simp [docstringSource]
  have hresets : (Constant.texts p.resetEvents).code "reset_events" =
      [.line (resetLine p.resetEvents)] := by
    cases p.resetEvents with
    | nil => rfl
    | cons event rest => rfl
  have hstates : (Constant.classes (p.states.map fun c ↦ (c.state.name, c.className))).code
      "states" = stateTableCode p.states := by
    simp only [Constant.code, List.map_map]
    rfl
  have hheader : "class " ++ p.className ++ "" ++ ":" = "class " ++ p.className ++ ":" := by
    rw [String.append_empty]
  unfold dispatcherCode
  rw [← hdocstring, ← hheader, ← hstates]
  refine congrArg (Code.block _) ?_
  have hmembers : p.dispatcherDefinition.members.flatMap Member.code = _ :=
    List.flatMap_append.trans (congrArg _ hmethods)
  rw [hmembers]
  simp only [List.flatMap_cons, List.flatMap_nil, List.append_assoc, List.append_nil]
  rw [← List.singleton_append, ← hresets]
  rfl

/-- The program is written down as it is generated. -/
theorem code_toModule (h : ∀ c ∈ p.states, ∀ handler ∈ c.handlers, handler.transitions ≠ [] ∧
    handler.isAmbiguous = false) : p.toModule.code = p.code := by
  have hclass (c : StateClass) (hc : c ∈ p.states) :
      (c.definition (baseClassName p.machineName)).code = c.code (baseClassName p.machineName) :=
    code_definition fun handler hmem ↦
      Handler.code_method (h c hc handler hmem).1 (h c hc handler hmem).2
  have hclasses : (p.states.map (StateClass.definition (baseClassName p.machineName))).flatMap
      (fun c ↦ [.blank, .blank, c.code]) =
        p.states.flatMap fun c ↦ [.blank, .blank, c.code (baseClassName p.machineName)] := by
    rw [List.flatMap_map]
    refine List.flatMap_congr fun c hc ↦ ?_
    rw [hclass c hc]
  rw [Module.code, toModule, List.cons_append, List.flatMap_cons, List.flatMap_append, hclasses,
    code_baseDefinition, List.flatMap_singleton, code_dispatcherDefinition, Program.code,
    List.append_assoc]
  rfl

end Program

end StateMachine.Python
