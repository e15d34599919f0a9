import StateMachine.Proofs.Check.WellFormed
import StateMachine.Proofs.Machine.Printable
import StateMachine.Proofs.Python.ClassName
import StateMachine.Proofs.Text.Split

/-!
Names that a machine is refused for. A machine that was read has identifiers for names, and of an
identifier no text is made that is no name, apart from the class name of the machine itself: that of
a name without letters and digits is empty, and `none`, `true` and `false` become keywords
(`isName_pascalCase_iff`). The classes of states clash with each other or with the dispatcher, but
with nothing else that is reserved (`checkClasses_eq_ok_iff_of_nodup`). Where the rules on states,
references and duplicates are silent, there is no other reason to refuse a machine that was read
(`refused_by_name`).
-/

set_option autoImplicit false

namespace StateMachine.Python

/-! ### Names -/

theorem isNamePart_of_isValid {s : String} (h : Identifier.isValid s) :
    ∀ c ∈ s.toList, isNamePart c :=
  Identifier.isPart_of_isValid h

/-! ### Class names -/

theorem isNameStart_toUpper {c : Char} (h : c.isAlpha) : isNameStart c.toUpper := by
  have hupper : c.toUpper.isUpper := by rw [Char.isUpper_toUpper_eq_isAlpha, h]
  simp [isNameStart, Char.isAlpha, hupper]

theorem toUpper_of_not_isAlpha {c : Char} (h : ¬c.isAlpha) : c.toUpper = c :=
  Char.toUpper_eq_of_not_isLower fun hlower ↦ h (by simp [Char.isAlpha, hlower])

theorem isNamePart_toUpper {c : Char} (h : isNamePart c) : isNamePart c.toUpper := by
  by_cases halpha : c.isAlpha
  · exact isNamePart_of_isNameStart (isNameStart_toUpper halpha)
  · rwa [toUpper_of_not_isAlpha halpha]

section ClassNames

variable {name : String} (h : ∀ c ∈ name.toList, isNamePart c)

include h

theorem isNamePart_of_mem_capitalized {c : Char} (hc : c ∈ capitalized name.toList) :
    isNamePart c := by
  obtain ⟨part, hpart, hmem⟩ := List.mem_flatMap.mp hc
  have hchars : ∀ d ∈ part, isNamePart d := fun d hd ↦
    h d (Text.exists_mem_parts_iff.mp ⟨part, hpart, hd⟩).1
  cases part with
  | nil => cases hmem
  | cons d rest =>
    rcases List.mem_cons.mp hmem with rfl | hrest
    · exact isNamePart_toUpper (hchars d List.mem_cons_self)
    · exact hchars c (List.mem_cons_of_mem d hrest)

theorem isNamePart_of_mem_pascalCase {c : Char} (hc : c ∈ (pascalCase name).toList) :
    isNamePart c := by
  rcases toList_pascalCase name with hword | ⟨hword, -⟩
  · exact isNamePart_of_mem_capitalized h (hword ▸ hc)
  · rw [hword] at hc
    rcases List.mem_cons.mp hc with rfl | hmem
    · rfl
    · exact isNamePart_of_mem_capitalized h hmem

/-- A class name starts like a name unless it is empty: an underscore stands before a digit. -/
theorem isNameStart_pascalCase (hne : pascalCase name ≠ "") :
    (pascalCase name).toList.head?.any isNameStart := by
  rcases capitalized_cases name.toList with ⟨-, hall⟩ | ⟨c, more, hword, hc, hmem⟩
  · exact absurd (pascalCase_eq_empty_iff.mpr hall) hne
  · unfold pascalCase
    dsimp only
    rw [← capitalized, hword]
    split
    · rw [String.toList_ofList]
      rfl
    · next hdigit =>
      rw [String.toList_ofList]
      have hpart := h c hmem
      simp only [isNamePart, Char.isAlphanum, hc, decide_false, Bool.or_false,
        Bool.or_eq_true] at hpart
      rcases hpart with halpha | hnumeral
      · exact isNameStart_toUpper halpha
      · -- A digit is its own upper case, and an underscore would stand before it.
        have hsame : c.toUpper = c := toUpper_of_not_isAlpha fun halpha ↦ by
          have hstart := isNameStart_of_isDigit hnumeral
          simp [isNameStart, halpha] at hstart
        rw [hsame] at hdigit
        exact absurd hnumeral hdigit

/-- The texts made of identifiers that are no names. -/
def invalidWords : List String :=
  ["", "None", "True", "False"]

theorem isName_pascalCase_iff : isName (pascalCase name) ↔ pascalCase name ∉ invalidWords := by
  have hkeywords : ∀ word ∈ keywords, startsLow word.toList ∨ word ∈ invalidWords := by
    decide +kernel
  have hinvalid : ∀ word ∈ invalidWords, ¬isName word := by decide +kernel
  refine ⟨fun hname hmem ↦ hinvalid _ hmem hname, fun hnot ↦ ?_⟩
  have hne : pascalCase name ≠ "" := fun hempty ↦ hnot (by simp [hempty, invalidWords])
  refine isName_iff.mpr ⟨isNameStart_pascalCase h hne,
    fun c hc ↦ isNamePart_of_mem_pascalCase h hc, fun hkeyword ↦ ?_⟩
  rcases hkeywords _ hkeyword with hlow | hmem
  · rw [← String.append_empty (s := pascalCase name)] at hlow
    exact hne (pascalCase_eq_empty_of_startsLow hlow)
  · exact hnot hmem

end ClassNames

/-! ### Names with something added -/

/-- A class name with a suffix is a name if no keyword ends so. -/
theorem isName_append {word suffix : String} (hword : word ≠ "" → word.toList.head?.any isNameStart)
    (hparts : ∀ c ∈ word.toList, isNamePart c) (hsuffix : isName suffix)
    (hkeywords : ∀ keyword ∈ keywords, ¬suffix.toList <:+ keyword.toList) :
    isName (word ++ suffix) := by
  obtain ⟨hstart, hmore, -⟩ := isName_iff.mp hsuffix
  refine isName_iff.mpr ⟨?_, ?_, fun hkeyword ↦ hkeywords _ hkeyword ?_⟩
  · by_cases hempty : word = ""
    · rwa [hempty, String.empty_append]
    · have hhead := hword hempty
      rw [String.toList_append]
      cases hlist : word.toList with
      | nil => exact absurd (String.toList_eq_nil_iff.mp hlist) hempty
      | cons c rest => rwa [hlist] at hhead
  · rw [String.toList_append]
    exact List.forall_mem_append.mpr ⟨hparts, hmore⟩
  · rw [String.toList_append]
    exact List.suffix_append _ _

variable {options : Options} {m : Machine}

theorem isName_stateClassName (hsuffix : options.stateSuffix = "State") {state : String}
    (h : Identifier.isValid state) : isName (stateClassName options state) := by
  have hparts := isNamePart_of_isValid h
  rw [stateClassName, hsuffix]
  exact isName_append (isNameStart_pascalCase hparts)
    (fun _ hc ↦ isNamePart_of_mem_pascalCase hparts hc) (by decide) (by decide +kernel)

theorem isName_methodName {event : String} (h : Identifier.isValid event) :
    isName (Handler.methodName event) := by
  have hkeywords : ∀ keyword ∈ keywords, ¬"on_".toList <+: keyword.toList := by decide +kernel
  have hlist : (Handler.methodName event).toList = "on_".toList ++ event.toList :=
    String.toList_append
  refine isName_iff.mpr ⟨by rw [hlist]; rfl, ?_, fun hkeyword ↦ hkeywords _ hkeyword ?_⟩
  · rw [hlist]
    exact List.forall_mem_append.mpr
      ⟨List.all_eq_true.mp (by decide), isNamePart_of_isValid h⟩
  · rw [hlist]
    exact List.prefix_append _ _

/-- Of all names made of identifiers only that of the dispatcher may be no name. -/
theorem checkNames_eq (hprintable : m.Printable) (hsuffix : options.stateSuffix = "State") :
    checkNames options m =
      if pascalCase m.name ∈ invalidWords then
        .error (.invalidIdentifier m.name (pascalCase m.name))
      else .ok () := by
  have hmachine := isName_pascalCase_iff (isNamePart_of_isValid hprintable.name)
  have hothers : ∀ pair ∈ (m.states.map fun s ↦ (s.name, stateClassName options s.name)) ++
      m.transitions.map fun t ↦ (t.event, Handler.methodName t.event), isName pair.2 := by
    refine List.forall_mem_append.mpr ⟨?_, ?_⟩
    · intro pair hpair
      obtain ⟨s, hs, rfl⟩ := List.mem_map.mp hpair
      exact isName_stateClassName hsuffix
        (Bool.and_eq_true_iff.mp (hprintable.states s hs)).1
    · intro pair hpair
      obtain ⟨t, ht, rfl⟩ := List.mem_map.mp hpair
      have hvalid := hprintable.transitions t ht
      simp only [Transition.isPrintable, Bool.and_eq_true] at hvalid
      exact isName_methodName hvalid.1.1.2
  have hnone : List.find? (fun pair : String × String ↦ !isName pair.2)
      ((m.states.map fun s ↦ (s.name, stateClassName options s.name)) ++
        m.transitions.map fun t ↦ (t.event, Handler.methodName t.event)) = none :=
    List.find?_eq_none.mpr fun pair hpair ↦ by simp [hothers pair hpair]
  unfold checkNames generatedNames
  rw [List.cons_append, List.find?_cons]
  by_cases hname : isName (pascalCase m.name)
  · rw [if_neg (hmachine.mp hname)]
    simp only [hname, Bool.not_true, hnone]
  · have hmem : pascalCase m.name ∈ invalidWords := by
      by_contra hnot
      exact hname (hmachine.mpr hnot)
    rw [if_pos hmem]
    simp only [Bool.eq_false_iff.mpr hname, Bool.not_false]

/-! ### Classes -/

/-- Two states have one class, or a state has the class of the dispatcher. -/
def NamesClash (options : Options) (m : Machine) : Prop :=
  (∃ s ∈ m.states, ∃ t ∈ m.states, s.name ≠ t.name ∧ pascalCase s.name = pascalCase t.name) ∨
    ∃ s ∈ m.states, stateClassName options s.name = pascalCase m.name

/-- A class with the suffix is never called like the base or the exception. -/
theorem mem_reservedNames_iff (hsuffix : options.stateSuffix = "State") {state : String} :
    stateClassName options state ∈ reservedNames m ↔
      stateClassName options state = pascalCase m.name := by
  have hend (name : String) (heq : stateClassName options state = name) :
      "State".toList <:+ name.toList := by
    rw [← heq, stateClassName, hsuffix, String.toList_append]
    exact List.suffix_append _ _
  have hbase : stateClassName options state ≠ baseClassName m.name := by
    intro heq
    have hstate := List.reverse_prefix.mpr (hend _ heq)
    simp [baseClassName, List.cons_prefix_cons] at hstate
  have hexception : stateClassName options state ≠ "UnhandledEvent" :=
    fun heq ↦ absurd (hend _ heq) (by decide)
  simp [reservedNames, hbase, hexception]

/-- States with names of their own have classes of their own unless names clash. -/
theorem checkClasses_eq_ok_iff_of_nodup (hsuffix : options.stateSuffix = "State")
    (hnames : (m.states.map (·.name)).Nodup) :
    checkClasses options m [] (m.states.map (·.name)) = .ok () ↔ ¬NamesClash options m := by
  have hclass (first second : String) : stateClassName options first =
      stateClassName options second ↔ pascalCase first = pascalCase second := by
    rw [stateClassName, stateClassName, ← String.toList_inj, String.toList_append,
      String.toList_append, List.append_left_inj, String.toList_inj]
  have hdistinct : (m.states.map (·.name)).Pairwise
      (fun a b ↦ stateClassName options a ≠ stateClassName options b) ↔
      ¬∃ s ∈ m.states, ∃ t ∈ m.states, s.name ≠ t.name ∧ pascalCase s.name = pascalCase t.name := by
    rw [← List.pairwise_map (f := stateClassName options) (R := (· ≠ ·)), ← List.Nodup,
      List.nodup_map_iff_inj_on hnames]
    simp only [List.forall_mem_map, hclass]
    constructor
    · rintro hinjective ⟨s, hs, t, ht, hne, heq⟩
      exact hne (hinjective s hs t ht heq)
    · intro hclash s hs t ht heq
      by_contra hne
      exact hclash ⟨s, hs, t, ht, hne, heq⟩
  rw [checkClasses_eq_ok_iff, NamesClash, not_or, ← hdistinct, and_comm]
  simp [mem_reservedNames_iff hsuffix]

/-! ### Machines that were read -/

/-- The rules on the structure of a machine that the generator relies on. -/
def structuralRules : List Rule :=
  [.duplicateState, .missingInitial, .multipleInitial, .undeclaredState, .duplicateTransition]

/-- A machine whose structure is sound is examined for its names only. -/
theorem generate_eq_of_silent {checks : CheckOptions}
    (h : Silent (m.reports checks) structuralRules) :
    generate options m = (checkNames options m).bind fun _ ↦
      (checkClasses options m [] (m.states.map (·.name))).bind fun _ ↦
        .ok (Code.text options.indentWidth (Program.build options m).code) := by
  simp only [Silent, structuralRules, List.mem_cons, List.not_mem_nil, or_false, forall_eq_or_imp,
    forall_eq] at h
  obtain ⟨hduplicate, hmissing, hmultiple, hundeclared, htransition⟩ := h
  have hstates : checkStates m = .ok () := by
    rcases checkStates_cases m checks with ⟨d, rest, hreport, -⟩ | ⟨-, hok⟩
    · rw [hduplicate] at hreport
      cases hreport
    · exact hok
  have hinitial : checkInitial m = .ok () := by
    rcases checkInitial_cases m checks with ⟨hne, -, -⟩ | ⟨-, hne, -⟩ | ⟨-, -, hok⟩
    · exact absurd hmissing hne
    · exact absurd hmultiple hne
    · exact hok
  have hreferences : checkReferences m = .ok () := by
    rcases checkReferences_cases m checks with
      ⟨name, event, ⟨d, rest, source, hreport, -⟩, -⟩ | ⟨-, hok⟩
    · rw [hundeclared] at hreport
      cases hreport
    · exact hok
  have hsources : ∀ t ∈ m.transitions, m.hasState t.source := by
    rw [Machine.reports_undeclaredState, Machine.undeclaredStates_eq_nil_iff] at hundeclared
    exact fun t ht ↦ (hundeclared t ht).1
  have htransitions : checkTransitions m = .ok () := by
    rcases checkTransitions_cases checks hsources with ⟨source, event, -, d, hd, -⟩ | ⟨-, hok⟩
    · rw [htransition] at hd
      cases hd
    · exact hok
  rw [generate_eq, hstates, hinitial, hreferences, htransitions]
  rfl

/-- The result for a machine that is refused for its names only. -/
structure RefusedByName (options : Options) (m : Machine)
    (result : Except GenerationError String) : Prop where
  invalidIdentifier : (∃ name generated, result = .error (.invalidIdentifier name generated)) ↔
    pascalCase m.name ∈ ["", "None", "True", "False"]
  blamesMachine : ∀ name generated, result = .error (.invalidIdentifier name generated) →
    name = m.name ∧ generated = pascalCase m.name
  nameCollision (h : pascalCase m.name ∉ ["", "None", "True", "False"]) :
    (∃ first second className, result = .error (.nameCollision first second className)) ↔
      NamesClash options m
  otherwise (h : pascalCase m.name ∉ ["", "None", "True", "False"])
    (hclash : ¬NamesClash options m) : ∃ text, result = .ok text

/-- A machine that was read and whose structure is sound is refused if the class name made of its
own name is no name, or else if classes clash, and for nothing else. -/
theorem refused_by_name {name text : String} {checks : CheckOptions}
    (hparse : Machine.parseNamed name text = .ok m)
    (hsuffix : options.stateSuffix = Options.standard.stateSuffix)
    (hsilent : Silent (m.reports checks)
      [.duplicateState, .missingInitial, .multipleInitial, .undeclaredState,
        .duplicateTransition]) :
    RefusedByName options m (generate options m) := by
  have hnames : (m.states.map (·.name)).Nodup := by
    have hstates := hsilent .duplicateState List.mem_cons_self
    rwa [Machine.reports_duplicateState, Machine.duplicateStates_eq_nil_iff] at hstates
  have hclasses := checkClasses_eq_ok_iff_of_nodup hsuffix hnames
  rw [generate_eq_of_silent hsilent, checkNames_eq (Machine.printable_of_parseNamed hparse) hsuffix]
  by_cases hinvalid : pascalCase m.name ∈ invalidWords
  · rw [if_pos hinvalid]
    have hmem : pascalCase m.name ∈ ["", "None", "True", "False"] := hinvalid
    constructor <;> simp [Except.bind, hmem]
  · have hnot : pascalCase m.name ∉ ["", "None", "True", "False"] := hinvalid
    rw [if_neg hinvalid]
    rcases checkClasses_cases options m [] (m.states.map (·.name)) with
      ⟨first, second, className, herror⟩ | hok
    · have hclash : NamesClash options m := by
        by_contra hno
        rw [hclasses.mpr hno] at herror
        cases herror
      rw [herror]
      constructor <;> simp [Except.bind, hnot, hclash]
    · rw [hok]
      constructor <;> simp [Except.bind, hnot, hclasses.mp hok]

/-- A gate with two states that have one class name. -/
def gateSource : String :=
  "machine garden_gate\ninitial state half_open\n  push => halfOpen\nend\nstate halfOpen\nend"

theorem refused_by_name_gate : ∃ m, Machine.parseNamed Machine.defaultName gateSource = .ok m ∧
    Silent (m.reports .standard)
      [.duplicateState, .missingInitial, .multipleInitial, .undeclaredState,
        .duplicateTransition] ∧
    (m.states.map fun s ↦ pascalCase s.name) = ["HalfOpen", "HalfOpen"] ∧
    RefusedByName .standard m (generate .standard m) := by
  have hresult : ((Machine.parseNamed Machine.defaultName gateSource).toOption.map fun m ↦
      (structuralRules.map (m.reports .standard), m.states.map fun s ↦ pascalCase s.name)) =
        some ([[], [], [], [], []], ["HalfOpen", "HalfOpen"]) := by
    decide +kernel
  cases hparse : Machine.parseNamed Machine.defaultName gateSource with
  | error e =>
    rw [hparse] at hresult
    cases hresult
  | ok m =>
    rw [hparse] at hresult
    obtain ⟨hreports, hclasses⟩ := Prod.mk.inj (Option.some.inj hresult)
    have hsilent : Silent (m.reports .standard)
        [.duplicateState, .missingInitial, .multipleInitial, .undeclaredState,
          .duplicateTransition] := by
      simpa [structuralRules, Silent] using hreports
    exact ⟨m, rfl, hsilent, hclasses, refused_by_name hparse rfl hsilent⟩

end StateMachine.Python
