import StateMachine.Proofs.Python.Attribute
import StateMachine.Proofs.Python.Binding
import StateMachine.Proofs.Python.Display

/-!
The tables of a generated dispatcher, read from the lines of its class. They have what they were
made from (`constants?_dispatcherBody`), and in a dictionary the last entry for a key counts
(`item?_map`), so that they answer as the queries of the machine do (`tables_of_generate`), with
three exceptions. Of two commands with one name the table has the code of the last one, where the
query finds the first. And a state whose name has nothing but underscores takes the name that is
chosen as suffix for its class; inside the dispatcher's class that may be the name of a constant, or
one with two underscores in front, which the reading does not follow (`isReserved`), and outside it
that of the built-in `frozenset`.
-/

set_option autoImplicit false

namespace StateMachine.Python

open Display

/-- The atom for a code. -/
def codeTree (code : Option String) : Tree :=
  (code.map Tree.text).getD .nothing

theorem isAtom_optionalLiteral (code : Option String) :
    IsAtom (optionalLiteral code).toList (codeTree code) := by
  cases code with
  | none => exact .word (by decide) rfl
  | some code => exact .text code

theorem constants?_tableCode {name : String} (hname : isName name)
    (entries : List (String × Option String)) (rest : List Code) :
    constants? (tableCode name entries ++ rest) = (constants? rest).map
      ((name, .dict (entries.map fun entry ↦ (entry.1, codeTree entry.2))) :: ·) := by
  unfold tableCode
  split
  · next hempty =>
    have hvalue : symbols? ['\x7b', '\x7d'] = some [.mark '\x7b', .mark '\x7d'] := by
      rw [symbols?_mark (by decide), symbols?_mark (by decide), symbols?_nil]
      rfl
    have hread : _ = some (name, Display.dict []) := assignment?_append hname hvalue
    rw [List.isEmpty_iff.mp hempty]
    exact constants?_line (by simpa using hread) rest
  · exact constants?_dict hname (fun entry _ ↦ isAtom_optionalLiteral entry.2) rest

theorem constants?_stateTableCode {states : List StateClass}
    (h : ∀ c ∈ states, isName c.className) (rest : List Code) :
    constants? (stateTableCode states ++ rest) = (constants? rest).map
      (("states", .dict (states.map fun c ↦ (c.state.name, .name c.className))) :: ·) := by
  have hname : isName "states" := by decide
  exact constants?_dict hname (fun c hc ↦ IsAtom.name (h c hc)) rest

namespace Program

/-- The statements of the dispatcher's class. -/
def dispatcherBody (p : Program) : List Code :=
  [.line ("\"\"\"Dispatcher for the " ++ p.machineName ++ " state machine.\"\"\""),
    .blank,
    .line ("initial = " ++ textLiteral p.initial),
    .line (resetLine p.resetEvents)] ++
    tableCode "events" p.events ++ tableCode "commands" p.commands ++
    stateTableCode p.states ++ [.blank] ++ dispatcherMethods

theorem dispatcherCode_eq (p : Program) :
    p.dispatcherCode = .block ("class " ++ p.className ++ ":") p.dispatcherBody :=
  rfl

end Program

/-- The tables of the dispatcher are read as they were written. -/
theorem constants?_dispatcherBody {p : Program} (h : ∀ c ∈ p.states, isName c.className) :
    constants? p.dispatcherBody = some
      [("initial", .atom (.text p.initial)),
        ("reset_events", .set p.resetEvents),
        ("events", .dict (p.events.map fun entry ↦ (entry.1, codeTree entry.2))),
        ("commands", .dict (p.commands.map fun entry ↦ (entry.1, codeTree entry.2))),
        ("states", .dict (p.states.map fun c ↦ (c.state.name, .name c.className)))] := by
  have hdocstring : isDocstring ("\"\"\"Dispatcher for the " ++ p.machineName ++
      " state machine.\"\"\"") := by
    rw [isDocstring, String.append_assoc, String.toList_append]
    rfl
  have hinitial : assignment? ("initial = " ++ textLiteral p.initial).toList =
      some ("initial", .atom (.text p.initial)) := by
    have hname : isName "initial" := by decide
    rw [String.toList_append]
    exact assignment?_atom hname (.text p.initial)
  have hreset : assignment? (resetLine p.resetEvents).toList =
      some ("reset_events", .set p.resetEvents) := by
    have hname : isName "reset_events" := by decide
    exact assignment?_set hname p.resetEvents
  have hmethods : constants? (.blank :: dispatcherMethods) = some [] := rfl
  simp only [Program.dispatcherBody, List.append_assoc, List.cons_append, List.nil_append]
  rw [constants?_docstring hdocstring, constants?_blank, constants?_line hinitial,
    constants?_line hreset, constants?_tableCode (by decide), constants?_tableCode (by decide),
    constants?_stateTableCode h, hmethods]
  rfl

/-! ### Dictionaries -/

/-- What a dictionary has for a key; the last entry counts. -/
def item? (entries : List (String × Tree)) (key : String) : Option Tree :=
  (entries.reverse.find? (·.1 == key)).map (·.2)

section Items

variable {α : Type} {key : α → String} {tree : α → Tree} {xs : List α}

theorem item?_map (name : String) : item? (xs.map fun x ↦ (key x, tree x)) name =
    (xs.reverse.find? (key · == name)).map tree := by
  rw [item?, ← List.map_reverse, List.find?_map, Option.map_map]
  rfl

theorem isSome_item?_map_iff {name : String} :
    (item? (xs.map fun x ↦ (key x, tree x)) name).isSome ↔ name ∈ xs.map key := by
  simp [item?_map]

/-- Where no two entries have the same key, each of them counts. -/
theorem item?_map_of_distinct (h : xs.Pairwise fun x y ↦ key x ≠ key y) {x : α} (hx : x ∈ xs) :
    item? (xs.map fun x ↦ (key x, tree x)) (key x) = some (tree x) := by
  have hreverse : xs.reverse.Pairwise fun x y ↦ key x ≠ key y :=
    List.pairwise_reverse.mpr (h.imp Ne.symm)
  rw [item?_map, find?_eq_some_of_distinct hreverse (List.mem_reverse.mpr hx), Option.map_some]

end Items

/-! ### References -/

/-- The names of the constants in front of the table of states. -/
def ownNames : List String :=
  ["initial", "reset_events", "events", "commands"]

/-- Names that start with two underscores are kept for the language: inside a class Python changes
those that do not end with two, and of the others it binds some itself, some versions more than
others. The reading follows none of them, so it also leaves out a name such as `__x__`, which Python
finds outside the class if the class does not bind it. -/
def isReserved (name : String) : Bool :=
  ['_', '_'].isPrefixOf name.toList

/-- The definition in the code before a class that a name in the class stands for, unless the class
has bound the name itself or the name is one that the reading does not follow. -/
def referent? (before : List Code) (own : List String) (name : String) : Option Code :=
  if own.contains name || isReserved name then none else Code.meaning? before name

theorem startsLow_of_isReserved {name : String} (h : isReserved name) : startsLow name.toList := by
  obtain ⟨rest, hrest⟩ := List.isPrefixOf_iff_prefix.mp h
  rw [← hrest]
  rfl

namespace Program

/-- The program up to the class of the dispatcher. -/
def beforeDispatcher (p : Program) : List Code :=
  p.preamble ++ [.blank, .blank, baseCode p.machineName] ++
    (p.states.flatMap fun c ↦ [.blank, .blank, c.code (baseClassName p.machineName)]) ++
    [.blank, .blank]

theorem code_eq (p : Program) : p.code = p.beforeDispatcher ++ [p.dispatcherCode] := by
  rw [beforeDispatcher, List.append_assoc _ [Code.blank, .blank]]
  rfl

end Program

section References

variable {options : Options} {m : Machine}

theorem boundNames_beforeDispatcher (hnames : ∀ pair ∈ generatedNames options m, isName pair.2) :
    Code.boundNames (Program.build options m).beforeDispatcher =
      leadingNames m.name ++ m.states.map (stateClassName options ·.name) := by
  have hmachine : isName (pascalCase m.name) :=
    hnames (m.name, pascalCase m.name) List.mem_cons_self
  have hdispatcher : Code.boundNames [(Program.build options m).dispatcherCode] =
      [pascalCase m.name] :=
    List.filterMap_cons_some (boundName?_dispatcherCode hmachine)
  have hall := boundNames_code hnames
  rw [Program.code_eq, Code.boundNames_append, hdispatcher, moduleNames] at hall
  exact List.append_cancel_right hall

/-- The built-in set is hidden by no class unless its name is the suffix of class names and the name
of some state has nothing but underscores. -/
theorem meaning?_frozenset_iff (hnames : ∀ pair ∈ generatedNames options m, isName pair.2) :
    Code.meaning? (Program.build options m).beforeDispatcher "frozenset" = none ↔
      ¬(options.stateSuffix = "frozenset" ∧ ∃ s ∈ m.states, ∀ c ∈ s.name.toList, c = '_') := by
  have hclass (name suffix : String) : pascalCase name ++ suffix = "frozenset" ↔
      suffix = "frozenset" ∧ ∀ c ∈ name.toList, c = '_' :=
    pascalCase_append_iff (p := (· = "frozenset")) (by simp [startsLow])
  have hleading : "frozenset" ∉ leadingNames m.name := by
    rw [mem_leadingNames_iff]
    rintro (hhelper | hexception | hbase)
    · exact absurd hhelper (by decide)
    · exact absurd hexception (by decide)
    · exact absurd ((hclass m.name "Base").mp hbase.symm).1 (by decide)
  rw [Code.meaning?_eq_none_iff, boundNames_beforeDispatcher hnames, List.mem_append,
    or_iff_right hleading, not_iff_not]
  simp only [List.mem_map, stateClassName, hclass]
  tauto

/-- The class of a state is the last definition of its name. -/
theorem meaning?_stateClass (hgenerated : Generated options m)
    (hnames : ∀ pair ∈ generatedNames options m, isName pair.2) {s : State} (hs : s ∈ m.states) :
    Code.meaning? (Program.build options m).beforeDispatcher (stateClassName options s.name) =
      some ((stateClass options m s).code (baseClassName m.name)) := by
  have hclasses := boundNames_classes (isName_className hnames) (baseClassName m.name)
  have hnodup : ((Program.build options m).states.map (·.className)).Nodup := by
    rw [classNames_build]
    exact List.pairwise_map.mpr hgenerated.classes
  have hmem : stateClass options m s ∈ (Program.build options m).states :=
    List.mem_map_of_mem hs
  have hfound := Code.meaning?_of_nodup (hclasses ▸ hnodup)
    (List.mem_flatMap.mpr ⟨_, hmem, List.mem_cons_of_mem _ (List.mem_cons_of_mem _
      (List.mem_singleton_self _))⟩)
    (boundName?_stateClass (isName_className hnames _ hmem) (baseClassName m.name))
  have hblank : Code.meaning? [.blank, .blank] (stateClassName options s.name) = none := rfl
  -- The classes come last, so it does not matter whether a helper has the same name.
  rw [Program.beforeDispatcher, Code.meaning?_append, hblank, Option.none_or,
    Code.meaning?_append]
  exact congrArg (Option.or · _) hfound

end References

/-! ### The tables of a dispatcher -/

theorem codeTree_inj {code other : Option String} : codeTree code = codeTree other ↔
    code = other := by
  cases code <;> cases other <;> simp [codeTree]

/-- A table of declarations has the code of the last one for a name. -/
theorem item?_declarations {declarations : List Declaration} {d : Declaration}
    (hd : d ∈ declarations) :
    item? (declarations.map fun d ↦ (d.name, codeTree d.code)) d.name =
      some (codeTree ((declarations.reverse.find? (·.name == d.name)).bind (·.code))) := by
  have hfound : (declarations.reverse.find? (·.name == d.name)).isSome :=
    List.find?_isSome.mpr ⟨d, List.mem_reverse.mpr hd, beq_self_eq_true d.name⟩
  obtain ⟨last, hlast⟩ := Option.isSome_iff_exists.mp hfound
  rw [item?_map, hlast]
  rfl

/-- The constants of a dispatcher. -/
structure Tables where
  initial : Tree
  resetEvents : List String
  events : List (String × Tree)
  commands : List (String × Tree)
  states : List (String × Tree)

namespace Tables

/-- The constants in the order of their statements. -/
def constants (t : Tables) : List (String × Display) :=
  [("initial", .atom t.initial), ("reset_events", .set t.resetEvents), ("events", .dict t.events),
    ("commands", .dict t.commands), ("states", .dict t.states)]

/-- The tables for a machine. -/
def ofMachine (options : Options) (m : Machine) (initial : State) : Tables where
  initial := .text initial.name
  resetEvents := m.resetEvents.map (·.name)
  events := m.events.map fun d ↦ (d.name, codeTree d.code)
  commands := m.commands.map fun d ↦ (d.name, codeTree d.code)
  states := m.states.map fun s ↦ (s.name, .name (stateClassName options s.name))

end Tables

/-- The code of the last command of a name. -/
def lastCommandCode? (m : Machine) (command : String) : Option String :=
  (m.commands.reverse.find? (·.name == command)).bind (·.code)

/-- What the tables behind some code say of a machine. -/
structure Tables.Answers (options : Options) (m : Machine) (before : List Code) (t : Tables) :
    Prop where
  initial : ∃ s, m.initialState? = some s ∧ t.initial = .text s.name
  resetEvents : ∀ event, event ∈ t.resetEvents ↔ m.isResetEvent event
  /-- The set is made by the built-in function, unless a class has its name. -/
  builtIn : Code.meaning? before "frozenset" = none ↔
    ¬(options.stateSuffix = "frozenset" ∧ ∃ s ∈ m.states, ∀ c ∈ s.name.toList, c = '_')
  eventKeys : ∀ event, (item? t.events event).isSome ↔ event ∈ m.events.map (·.name)
  commandKeys : ∀ command, (item? t.commands command).isSome ↔ command ∈ m.commands.map (·.name)
  lastCommand : ∀ d ∈ m.commands,
    item? t.commands d.name = some (codeTree (lastCommandCode? m d.name))
  /-- The table agrees with the query if the first and the last command of a name do. -/
  commandCode : ∀ d ∈ m.commands,
    item? t.commands d.name = some (codeTree (m.commandCode? d.name)) ↔
      lastCommandCode? m d.name = m.commandCode? d.name
  stateKeys : ∀ name, (item? t.states name).isSome ↔ m.hasState name
  stateName : ∀ s ∈ m.states, item? t.states s.name = some (.name (stateClassName options s.name))
  /-- The name is read as the class of the state, unless it is the suffix alone and the suffix is
  that of a constant of the class or one that the reading does not follow. -/
  stateClass : ∀ s ∈ m.states,
    referent? before ownNames (stateClassName options s.name) =
        some ((stateClass options m s).code (baseClassName m.name)) ↔
      ¬((options.stateSuffix ∈ ownNames ∨ isReserved options.stateSuffix) ∧
        ∀ c ∈ s.name.toList, c = '_')

/-- A table binds none of the names that classes and functions do. -/
theorem boundNames_tableCode {name : String}
    (h : ∀ rest, Code.boundBy? (name.toList ++ ' ' :: rest) = none)
    (entries : List (String × Option String)) : Code.boundNames (tableCode name entries) = [] := by
  have hheader (finish : String) (rest : List Char) (hfinish : finish.toList = ' ' :: rest) :
      Code.boundBy? (name ++ finish).toList = none := by
    rw [String.toList_append, hfinish, h]
  unfold tableCode
  split
  · exact List.filterMap_cons_none (hheader _ _ rfl)
  · exact List.filterMap_cons_none (hheader _ _ rfl)

/-- The class of a dispatcher defines its methods and nothing else. -/
theorem boundNames_dispatcherBody (p : Program) :
    Code.boundNames p.dispatcherBody = Dispatcher.methods.map (·.name) := by
  have hleading : Code.boundNames [.line ("\"\"\"Dispatcher for the " ++ p.machineName ++
      " state machine.\"\"\""), .blank, .line ("initial = " ++ textLiteral p.initial),
      .line (resetLine p.resetEvents)] = [] := by
    have hdocstring : Code.boundName? (.line ("\"\"\"Dispatcher for the " ++ p.machineName ++
        " state machine.\"\"\"")) = none := by
      rw [Code.boundName?, String.append_assoc, String.toList_append]
      rfl
    have hinitial : Code.boundName? (.line ("initial = " ++ textLiteral p.initial)) = none := by
      rw [Code.boundName?, String.toList_append]
      rfl
    have hreset : Code.boundName? (.line (resetLine p.resetEvents)) = none := by
      rw [Code.boundName?, resetLine]
      split
      · rfl
      · rw [String.append_assoc, String.toList_append]
        rfl
    rw [Code.boundNames, List.filterMap_cons_none hdocstring, List.filterMap_cons_none rfl,
      List.filterMap_cons_none hinitial, List.filterMap_cons_none hreset, List.filterMap_nil]
  have hmethods : Code.boundNames ([.blank] ++ dispatcherMethods) =
      Dispatcher.methods.map (·.name) := by decide +kernel
  have hstates : Code.boundNames (stateTableCode p.states) = [] := rfl
  rw [Program.dispatcherBody, List.append_assoc _ [Code.blank], Code.boundNames_append,
    Code.boundNames_append, Code.boundNames_append, Code.boundNames_append, hleading, hmethods,
    hstates, boundNames_tableCode fun _ ↦ rfl, boundNames_tableCode fun _ ↦ rfl]
  rfl

section Dispatcher

variable {options : Options} {m : Machine}

theorem constants?_build (hnames : ∀ pair ∈ generatedNames options m, isName pair.2)
    {initial : State} (hinitial : m.initialStates = [initial]) :
    Display.constants? (Program.build options m).dispatcherBody =
      some (Tables.ofMachine options m initial).constants := by
  rw [constants?_dispatcherBody (isName_className hnames)]
  simp [Program.build, Program.codeTable, hinitial, Tables.constants, Tables.ofMachine]

theorem referent?_stateClass_iff (hgenerated : Generated options m)
    (hnames : ∀ pair ∈ generatedNames options m, isName pair.2) {s : State} (hs : s ∈ m.states) :
    referent? (Program.build options m).beforeDispatcher ownNames (stateClassName options s.name) =
        some ((stateClass options m s).code (baseClassName m.name)) ↔
      ¬((options.stateSuffix ∈ ownNames ∨ isReserved options.stateSuffix) ∧
        ∀ c ∈ s.name.toList, c = '_') := by
  have hown : stateClassName options s.name ∈ ownNames ↔
      options.stateSuffix ∈ ownNames ∧ ∀ c ∈ s.name.toList, c = '_' :=
    pascalCase_append_iff (p := (· ∈ ownNames)) (by decide)
  have hreserved : isReserved (stateClassName options s.name) ↔
      isReserved options.stateSuffix ∧ ∀ c ∈ s.name.toList, c = '_' :=
    pascalCase_append_iff (p := (isReserved ·)) fun _ ↦ startsLow_of_isReserved
  rw [referent?, meaning?_stateClass hgenerated hnames hs, or_and_right, ← hown, ← hreserved]
  simp

/-- The tables of a program that is generated answer as the queries of the machine do, but for the
code of a command that is declared more than once, and for classes that are called by their suffix
alone. -/
theorem tables_of_generate {text : String} (h : generate options m = .ok text) :
    text = Code.text options.indentWidth (Program.build options m).code ∧
      ∃ before body t,
        (Program.build options m).code =
            before ++ [.block ("class " ++ pascalCase m.name ++ ":") body] ∧
          Display.constants? body = some (Tables.constants t) ∧
          (∀ name ∈ t.constants.map (·.1), name ∉ Code.boundNames body) ∧
          t.Answers options m before := by
  have hnames := isName_of_generate h
  obtain ⟨hgenerated, htext⟩ := generated_of_generate h
  obtain ⟨initial, hinitial⟩ := hgenerated.initial
  refine ⟨htext, _, (Program.build options m).dispatcherBody, _, Program.code_eq _,
    constants?_build hnames hinitial, ?_, ?_⟩
  · have hmethods : ∀ name ∈ ["initial", "reset_events", "events", "commands", "states"],
        name ∉ Dispatcher.methods.map (·.name) := by decide
    rw [boundNames_dispatcherBody]
    exact hmethods
  exact {
    initial := ⟨initial, Machine.initialState?_eq_some_iff.mpr hinitial, rfl⟩
    resetEvents := fun event ↦ by
      simp [Tables.ofMachine, Machine.isResetEvent]
    builtIn := meaning?_frozenset_iff hnames
    eventKeys := fun event ↦ isSome_item?_map_iff
    commandKeys := fun command ↦ isSome_item?_map_iff
    lastCommand := fun d hd ↦ item?_declarations hd
    commandCode := fun d hd ↦ by
      rw [Tables.ofMachine, item?_declarations hd, Option.some.injEq, codeTree_inj]
      rfl
    stateKeys := fun name ↦ isSome_item?_map_iff.trans Machine.hasState_iff_mem.symm
    stateName := fun s hs ↦
      item?_map_of_distinct (hgenerated.classes.imp fun hne heq ↦ hne (by rw [heq])) hs
    stateClass := fun s hs ↦ referent?_stateClass_iff hgenerated hnames hs }

end Dispatcher

/-- A toll gate that is lifted, sounds a horn without a code, and starts again on a reset. -/
def tollGate : Machine :=
  { Machine.empty "toll_gate" with
    resetEvents := [⟨"power_on", none, .unplaced⟩]
    commands := [⟨"lift", some "C1", .unplaced⟩, ⟨"horn", none, .unplaced⟩]
    states := [⟨"shut", true, none, none, .unplaced⟩, ⟨"_", false, none, none, .unplaced⟩]
    transitions := [⟨"shut", "_", "paid", none, some "lift", .unplaced⟩] }

theorem tables_tollGate : ∃ text, generate .standard tollGate = .ok text ∧
    ∃ before body t,
      (Program.build .standard tollGate).code = before ++ [.block "class TollGate:" body] ∧
      Display.constants? body = some (Tables.constants t) ∧
      t.initial = .text "shut" ∧ "power_on" ∈ t.resetEvents ∧ "paid" ∉ t.resetEvents ∧
      item? t.commands "lift" = some (.text "C1") ∧ item? t.commands "horn" = some .nothing ∧
      item? t.states "_" = some (.name "State") ∧
      (referent? before ownNames "State").isSome := by
  have hheader : "class " ++ pascalCase tollGate.name ++ ":" = "class TollGate:" := by
    decide +kernel
  have hstate : stateClassName .standard "_" = "State" := by decide +kernel
  obtain ⟨text, h⟩ := exists_eq_ok (x := generate .standard tollGate) (by decide +kernel)
  obtain ⟨-, before, body, t, hcode, hconstants, -, hanswers⟩ := tables_of_generate h
  obtain ⟨s, hs, hinitial⟩ := hanswers.initial
  have hlast : (⟨"_", false, none, none, .unplaced⟩ : State) ∈ tollGate.states := by decide
  have hitem := hanswers.stateName _ hlast
  have hreferent := (hanswers.stateClass _ hlast).mpr (by decide)
  dsimp only at hitem hreferent
  rw [hstate] at hitem hreferent
  rw [hheader] at hcode
  cases hs
  refine ⟨text, h, before, body, t, hcode, hconstants, hinitial,
    (hanswers.resetEvents "power_on").mpr rfl, ?_, ?_, ?_, hitem, by rw [hreferent]; rfl⟩
  · rw [hanswers.resetEvents]
    decide
  · exact (hanswers.commandCode ⟨"lift", some "C1", .unplaced⟩ (by decide)).mpr rfl
  · exact (hanswers.commandCode ⟨"horn", none, .unplaced⟩ (by decide)).mpr rfl

/-- A machine with two commands of one name. -/
def beeper : Machine :=
  { Machine.empty "beeper" with
    commands := [⟨"beep", some "B1", .unplaced⟩, ⟨"beep", some "B2", .unplaced⟩]
    states := [⟨"a", true, none, none, .unplaced⟩] }

/-- A program is generated, whose table has the code of the second command for the name, where the
query finds that of the first. -/
theorem tables_beeper : (∃ text, generate .standard beeper = .ok text) ∧
    (Program.build .standard beeper).code = (Program.build .standard beeper).beforeDispatcher ++
      [.block "class Beeper:" (Program.build .standard beeper).dispatcherBody] ∧
    Display.constants? (Program.build .standard beeper).dispatcherBody = some
      [("initial", .atom (.text "a")), ("reset_events", .set []), ("events", .dict []),
        ("commands", .dict [("beep", .text "B1"), ("beep", .text "B2")]),
        ("states", .dict [("a", .name "AState")])] ∧
    item? [("beep", .text "B1"), ("beep", .text "B2")] "beep" = some (.text "B2") ∧
    beeper.commandCode? "beep" = some "B1" := by
  have hnames : ∀ pair ∈ generatedNames .standard beeper, isName pair.2 := by decide +kernel
  refine ⟨exists_eq_ok (by decide +kernel), ?_, ?_, rfl, rfl⟩
  · have hclass : (Program.build .standard beeper).className = "Beeper" := by decide +kernel
    rw [Program.code_eq, Program.dispatcherCode_eq, hclass]
    rfl
  · have hstate : stateClassName .standard "a" = "AState" := by decide +kernel
    rw [constants?_build hnames rfl, ← hstate]
    rfl

end StateMachine.Python
