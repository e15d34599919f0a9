import StateMachine.Proofs.Python.ClassName
import StateMachine.Proofs.Python.Module
import StateMachine.Proofs.Text.Run

/-!
The names that a generated program binds at the level of its module, read off its lines: the module
that it imports, the exception and the helpers, the base of the state classes, the state classes and
the dispatcher (`boundNames_code`). They are pairwise distinct, with two exceptions: a dispatcher
may be called like the exception, and a state whose name has nothing but underscores takes the name
that is chosen as suffix, which may be the name of a helper (`boundNames_nodup_iff`).
-/

set_option autoImplicit false

namespace StateMachine

open Text (Stops stops_cons takeWhile_run)

/-! ### Names bound by lines -/

namespace Code

open Python (isNamePart)

/-- The name behind a keyword that the line starts with. -/
def nameBehind? (keyword line : List Char) : Option String :=
  if keyword.isPrefixOf line then
    some (String.ofList ((line.drop keyword.length).takeWhile isNamePart))
  else none

/-- The name that a line binds if it opens a class or a function or imports a module. -/
def boundBy? (line : List Char) : Option String :=
  nameBehind? "class ".toList line <|> nameBehind? "def ".toList line <|>
    nameBehind? "import ".toList line

/-- The name that a piece of a program binds where it stands. -/
def boundName? : Code → Option String
  | .line text => boundBy? text.toList
  | .block header _ => boundBy? header.toList
  | .blank => none

/-- The names that some pieces bind, one after the other. -/
def boundNames (code : List Code) : List String :=
  code.filterMap boundName?

theorem boundNames_append (code others : List Code) :
    boundNames (code ++ others) = boundNames code ++ boundNames others :=
  List.filterMap_append

/-- Empty lines bind nothing. -/
theorem boundNames_behindBlanks {piece : Code} {name : String}
    (h : piece.boundName? = some name) : boundNames [.blank, .blank, piece] = [name] := by
  rw [boundNames, List.filterMap_cons_none rfl, List.filterMap_cons_none rfl,
    List.filterMap_cons_some h, List.filterMap_nil]

/-- What a name stands for behind some pieces: the last one that binds it. -/
def meaning? (code : List Code) (name : String) : Option Code :=
  code.reverse.find? (·.boundName? == some name)

theorem meaning?_append (code others : List Code) (name : String) :
    meaning? (code ++ others) name = (meaning? others name).or (meaning? code name) := by
  rw [meaning?, List.reverse_append, List.find?_append]
  rfl

theorem meaning?_eq_none_iff {code : List Code} {name : String} :
    meaning? code name = none ↔ name ∉ boundNames code := by
  simp [meaning?, boundNames]

/-- Where no name is bound twice, every name stands for the piece that binds it. -/
theorem meaning?_of_nodup {code : List Code} (h : (boundNames code).Nodup) {piece : Code}
    (hmem : piece ∈ code) {name : String} (hname : piece.boundName? = some name) :
    meaning? code name = some piece := by
  unfold meaning?
  induction code with
  | nil => cases hmem
  | cons first rest ih =>
    rw [List.reverse_cons, List.find?_append]
    have hrest : (boundNames rest).Nodup :=
      h.sublist (List.Sublist.filterMap _ (List.sublist_cons_self first rest))
    rcases List.mem_cons.mp hmem with rfl | htail
    · -- The name is bound here, so it is bound by nothing that follows.
      have hfree : rest.reverse.find? (·.boundName? == some name) = none := by
        rw [List.find?_eq_none]
        intro other hother hbound
        rw [boundNames, List.filterMap_cons_some hname, List.nodup_cons] at h
        exact h.1 (List.mem_filterMap.mpr ⟨other, List.mem_reverse.mp hother, eq_of_beq hbound⟩)
      rw [hfree, Option.none_or]
      simp [hname]
    · rw [ih hrest htail, Option.some_or]

theorem nameBehind?_append {keyword rest : List Char} {name : String}
    (hname : ∀ c ∈ name.toList, isNamePart c) (hrest : Stops isNamePart rest) :
    nameBehind? keyword (keyword ++ (name.toList ++ rest)) = some name := by
  have hprefix : keyword.isPrefixOf (keyword ++ (name.toList ++ rest)) :=
    List.isPrefixOf_iff_prefix.mpr (List.prefix_append _ _)
  rw [nameBehind?, if_pos hprefix, List.drop_left, takeWhile_run hname hrest,
    String.ofList_toList]

/-- A class is bound to its name. -/
theorem boundBy?_class {name : String} (rest : List Char)
    (hname : ∀ c ∈ name.toList, isNamePart c) (hrest : Stops isNamePart rest) :
    boundBy? ("class ".toList ++ (name.toList ++ rest)) = some name := by
  rw [boundBy?, nameBehind?_append hname hrest]
  rfl

/-- A comment binds nothing. -/
theorem boundBy?_comment (text : List Char) : boundBy? ('#' :: text) = none := by
  simp [boundBy?, nameBehind?, List.isPrefixOf]

end Code

namespace Python

open Code

variable {options : Options} {m : Machine}

/-! ### Names bound by a program -/

/-- What guards are worked out with: the module that is imported, and the helpers. -/
def helperNames : List String :=
  ["operator", "_field", "_equals", "_compare"]

/-- What comes before the state classes: the names that every program binds, and their base. -/
def leadingNames (machine : String) : List String :=
  ["operator", "UnhandledEvent", "_field", "_equals", "_compare", baseClassName machine]

/-- The names at the level of the module, in the order of their definitions. -/
def moduleNames (options : Options) (m : Machine) : List String :=
  leadingNames m.name ++ m.states.map (stateClassName options ·.name) ++ [pascalCase m.name]

theorem isNamePart_baseClassName {machine : String} (h : isName (pascalCase machine)) :
    ∀ c ∈ (baseClassName machine).toList, isNamePart c := by
  have hsuffix : ∀ c ∈ "Base".toList, isNamePart c := List.all_eq_true.mp (by decide)
  rw [baseClassName, String.toList_append]
  exact List.forall_mem_append.mpr ⟨isNamePart_of_isName h, hsuffix⟩

theorem boundName?_baseCode {machine : String} (h : isName (pascalCase machine)) :
    (baseCode machine).boundName? = some (baseClassName machine) := by
  have hclass := boundBy?_class [':'] (isNamePart_baseClassName h)
    (stops_cons.mpr (by decide))
  rw [← hclass, baseCode, boundName?]
  simp only [String.toList_append, List.append_assoc]
  rfl

theorem boundName?_stateClass {c : StateClass} (h : isName c.className) (base : String) :
    (c.code base).boundName? = some c.className := by
  have hclass := boundBy?_class ('(' :: (base.toList ++ [')', ':']))
    (isNamePart_of_isName h) (stops_cons.mpr (by decide))
  rw [← hclass, StateClass.code, boundName?]
  simp only [String.toList_append, List.append_assoc]
  rfl

theorem boundName?_dispatcherCode {p : Program} (h : isName p.className) :
    p.dispatcherCode.boundName? = some p.className := by
  have hclass := boundBy?_class [':'] (isNamePart_of_isName h)
    (stops_cons.mpr (by decide))
  rw [← hclass, Program.dispatcherCode, boundName?]
  simp only [String.toList_append, List.append_assoc]
  rfl

/-- Each class binds its name, and the empty lines between classes bind nothing. -/
theorem boundNames_classes {classes : List StateClass} (h : ∀ c ∈ classes, isName c.className)
    (base : String) :
    boundNames (classes.flatMap fun c ↦ [.blank, .blank, c.code base]) =
      classes.map (·.className) := by
  induction classes with
  | nil => rfl
  | cons c rest ih =>
    obtain ⟨hc, hrest⟩ := List.forall_mem_cons.mp h
    rw [List.flatMap_cons, boundNames_append, ih hrest, List.map_cons,
      boundNames_behindBlanks (boundName?_stateClass hc base)]
    rfl

/-- What comes before the classes of a program binds the exception and what guards need. -/
theorem boundNames_preamble (p : Program) :
    boundNames p.preamble = ["operator", "UnhandledEvent", "_field", "_equals", "_compare"] := by
  have htitle : boundName? (.line ("# Generated by smc from state machine '" ++ p.machineName ++
      "'.")) = none := by
    rw [boundName?, String.append_assoc, String.toList_append]
    exact boundBy?_comment _
  have hchecksum : boundName? (.line ("# Source checksum: " ++ p.checksum)) = none := by
    rw [boundName?, String.toList_append]
    exact boundBy?_comment _
  rw [boundNames, Program.preamble, List.filterMap_cons_none htitle,
    List.filterMap_cons_none hchecksum]
  decide +kernel

/-- A program binds what comes before its classes, their base, the classes and the dispatcher. -/
theorem boundNames_programCode {p : Program} (hmachine : isName (pascalCase p.machineName))
    (hstates : ∀ c ∈ p.states, isName c.className) (hclass : isName p.className) :
    boundNames p.code =
      leadingNames p.machineName ++ p.states.map (·.className) ++ [p.className] := by
  have hcode : p.code = p.preamble ++ [.blank, .blank, baseCode p.machineName] ++
      (p.states.flatMap fun c ↦ [.blank, .blank, c.code (baseClassName p.machineName)]) ++
      [.blank, .blank, p.dispatcherCode] := rfl
  rw [hcode, boundNames_append, boundNames_append, boundNames_append, boundNames_preamble,
    boundNames_behindBlanks (boundName?_baseCode hmachine), boundNames_classes hstates,
    boundNames_behindBlanks (boundName?_dispatcherCode hclass)]
  rfl

/-- The classes of states are called by names. -/
theorem isName_className (hnames : ∀ pair ∈ generatedNames options m, isName pair.2) :
    ∀ c ∈ (Program.build options m).states, isName c.className := by
  intro c hc
  obtain ⟨s, hs, rfl⟩ := List.mem_map.mp hc
  exact hnames (s.name, stateClassName options s.name)
    (List.mem_append_left _ (List.mem_cons_of_mem _ (List.mem_map.mpr ⟨s, hs, rfl⟩)))

theorem classNames_build : (Program.build options m).states.map (·.className) =
    m.states.map (stateClassName options ·.name) := by
  simp [Program.build]

/-- What the program of a machine binds, read off its lines. -/
theorem boundNames_code (hnames : ∀ pair ∈ generatedNames options m, isName pair.2) :
    boundNames (Program.build options m).code = moduleNames options m := by
  have hmachine : isName (pascalCase m.name) :=
    hnames (m.name, pascalCase m.name) List.mem_cons_self
  have hbound := boundNames_programCode (p := Program.build options m) hmachine
    (isName_className hnames) hmachine
  rw [hbound, classNames_build]
  rfl

/-! ### When the names are distinct -/

/-- Only a class without a name of its own is called like a helper. -/
theorem mem_helperNames_iff {name suffix : String} :
    pascalCase name ++ suffix ∈ helperNames ↔
      suffix ∈ helperNames ∧ ∀ c ∈ name.toList, c = '_' :=
  pascalCase_append_iff (p := (· ∈ helperNames)) (by decide +kernel)

/-- The base and the dispatcher are called like no helper, since the machine has a name. -/
theorem not_mem_helperNames {machine : String} (h : isName (pascalCase machine))
    (suffix : String) : pascalCase machine ++ suffix ∉ helperNames := by
  intro hmem
  exact ne_empty_of_isName h (pascalCase_eq_empty_iff.mpr (mem_helperNames_iff.mp hmem).2)

theorem baseClassName_ne_unhandledEvent (machine : String) :
    baseClassName machine ≠ "UnhandledEvent" := by
  intro heq
  have hreverse := congrArg (fun name : String ↦ name.toList.reverse.head?) heq
  simp [baseClassName] at hreverse

theorem baseClassName_ne_pascalCase (machine : String) :
    baseClassName machine ≠ pascalCase machine := by
  intro heq
  have hlength := congrArg String.length heq
  simp [baseClassName] at hlength

theorem mem_leadingNames_iff {machine name : String} : name ∈ leadingNames machine ↔
    name ∈ helperNames ∨ name = "UnhandledEvent" ∨ name = baseClassName machine := by
  simp only [leadingNames, helperNames, List.mem_cons, List.not_mem_nil, or_false]
  tauto

theorem nodup_leadingNames {machine : String} (h : isName (pascalCase machine)) :
    (leadingNames machine).Nodup := by
  have hhelper : baseClassName machine ∉ helperNames := not_mem_helperNames h "Base"
  have hexception := baseClassName_ne_unhandledEvent machine
  simp only [helperNames, List.mem_cons, List.not_mem_nil, or_false, not_or] at hhelper
  obtain ⟨hoperator, hfield, hequals, hcompare⟩ := hhelper
  simp [leadingNames, Ne.symm hoperator, hexception.symm, Ne.symm hfield, Ne.symm hequals,
    Ne.symm hcompare]

/-- The names of a program that is generated are distinct unless the dispatcher is called like the
exception or a state class like a helper. -/
theorem nodup_moduleNames_iff (hgenerated : Generated options m)
    (hmachine : isName (pascalCase m.name)) :
    (moduleNames options m).Nodup ↔ pascalCase m.name ≠ "UnhandledEvent" ∧
      ∀ s ∈ m.states, stateClassName options s.name ∉ helperNames := by
  have hreserved : ∀ s ∈ m.states, stateClassName options s.name ≠ pascalCase m.name ∧
      stateClassName options s.name ≠ baseClassName m.name ∧
      stateClassName options s.name ≠ "UnhandledEvent" := by
    intro s hs
    simpa [reservedNames] using hgenerated.reserved s hs
  have hclasses : (m.states.map (stateClassName options ·.name)).Nodup :=
    List.pairwise_map.mpr hgenerated.classes
  have hdispatcher : pascalCase m.name ∉ helperNames := by
    have hfree := not_mem_helperNames hmachine ""
    rwa [String.append_empty] at hfree
  rw [moduleNames, List.nodup_append, List.nodup_append]
  constructor
  · rintro ⟨⟨-, -, hstates⟩, -, hlast⟩
    refine ⟨fun heq ↦ ?_, fun s hs hmem ↦ ?_⟩
    · have hexception : pascalCase m.name ∈ leadingNames m.name :=
        mem_leadingNames_iff.mpr (Or.inr (Or.inl heq))
      exact hlast _ (List.mem_append_left _ hexception) _ (List.mem_singleton.mpr rfl) rfl
    · exact hstates _ (mem_leadingNames_iff.mpr (Or.inl hmem)) _ (List.mem_map_of_mem hs) rfl
  · rintro ⟨hexception, hhelpers⟩
    refine ⟨⟨nodup_leadingNames hmachine, hclasses, ?_⟩, List.pairwise_singleton _ _, ?_⟩
    · rintro name hname _ hclass rfl
      obtain ⟨s, hs, rfl⟩ := List.mem_map.mp hclass
      rcases mem_leadingNames_iff.mp hname with hmem | heq | heq
      · exact hhelpers s hs hmem
      · exact (hreserved s hs).2.2 heq
      · exact (hreserved s hs).2.1 heq
    · rintro name hname _ hlast rfl
      obtain rfl := List.mem_singleton.mp hlast
      rcases List.mem_append.mp hname with hleading | hclass
      · rcases mem_leadingNames_iff.mp hleading with hmem | heq | heq
        · exact hdispatcher hmem
        · exact hexception heq
        · exact baseClassName_ne_pascalCase m.name heq.symm
      · obtain ⟨s, hs, heq⟩ := List.mem_map.mp hclass
        exact (hreserved s hs).1 heq

/-- The names that a generated program binds are pairwise distinct, and so each of them stands for
the definition that binds it, unless the dispatcher is called like the exception, or the suffix of
class names is the name of a helper and the name of some state has nothing but underscores. -/
theorem boundNames_nodup_iff {text : String} (h : generate options m = .ok text) :
    text = Code.text options.indentWidth (Program.build options m).code ∧
      boundNames (Program.build options m).code = moduleNames options m ∧
      ((boundNames (Program.build options m).code).Nodup ↔
        pascalCase m.name ≠ "UnhandledEvent" ∧
          ¬(options.stateSuffix ∈ helperNames ∧ ∃ s ∈ m.states, ∀ c ∈ s.name.toList, c = '_')) ∧
      ((boundNames (Program.build options m).code).Nodup →
        ∀ piece ∈ (Program.build options m).code, ∀ name, piece.boundName? = some name →
          meaning? (Program.build options m).code name = some piece) := by
  have hnames := isName_of_generate h
  obtain ⟨hgenerated, htext⟩ := generated_of_generate h
  refine ⟨htext, boundNames_code hnames, ?_, fun hnodup _ hmem _ hname ↦
    meaning?_of_nodup hnodup hmem hname⟩
  have hmachine : isName (pascalCase m.name) :=
    hnames (m.name, pascalCase m.name) List.mem_cons_self
  have hhelpers : (∀ s ∈ m.states, stateClassName options s.name ∉ helperNames) ↔
      ¬(options.stateSuffix ∈ helperNames ∧ ∃ s ∈ m.states, ∀ c ∈ s.name.toList, c = '_') := by
    simp only [stateClassName, mem_helperNames_iff, not_and, not_exists]
    exact ⟨fun hfree hsuffix s hs hunderscores ↦ hfree s hs hsuffix hunderscores,
      fun hfree s hs hsuffix hunderscores ↦ hfree hsuffix s hs hunderscores⟩
  rw [boundNames_code hnames, nodup_moduleNames_iff hgenerated hmachine, hhelpers]

/-- A machine whose name starts with a digit behind its underscore, with a state whose name has
nothing but underscores. -/
def calendar : Machine :=
  { Machine.empty "_2024_fsm" with
    states := [⟨"__", true, none, none, .unplaced⟩, ⟨"door_open", false, none, none, .unplaced⟩] }

theorem boundNames_nodup_calendar : ∃ text, generate .standard calendar = .ok text ∧
    text = Code.text 4 (Program.build .standard calendar).code ∧
    boundNames (Program.build .standard calendar).code = moduleNames .standard calendar ∧
    (boundNames (Program.build .standard calendar).code).Nodup := by
  obtain ⟨text, h⟩ := exists_eq_ok (x := generate .standard calendar) (by decide +kernel)
  obtain ⟨htext, hbound, hnodup, -⟩ := boundNames_nodup_iff h
  exact ⟨text, h, htext, hbound,
    hnodup.mpr ⟨by decide +kernel, fun hsuffix ↦ absurd hsuffix.1 (by decide)⟩⟩

/-- A machine whose dispatcher is called like the exception. -/
def alarm : Machine :=
  { Machine.empty "unhandled_event" with states := [⟨"a", true, none, none, .unplaced⟩] }

/-- The program of the machine binds the name of the exception twice, and the dispatcher is what it
stands for in the end. -/
theorem boundNames_not_nodup_alarm : (∃ text, generate .standard alarm = .ok text) ∧
    ¬(boundNames (Program.build .standard alarm).code).Nodup ∧
    meaning? (Program.build .standard alarm).code "UnhandledEvent" =
      some (Program.build .standard alarm).dispatcherCode :=
  ⟨exists_eq_ok (by decide +kernel), by decide +kernel, rfl⟩

end Python

end StateMachine
