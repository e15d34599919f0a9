import StateMachine.Proofs.Guard.Number
import StateMachine.Proofs.Indentation
import StateMachine.Proofs.Python.ClassName
import StateMachine.Proofs.Python.Handler

/-!
The layout of generated programs. Whatever the texts of a machine are, nothing of them ends a line:
literals are escaped, and the names that stand in the program as they are have to be names, or a
name has to be made of them (`isUnbroken_of_pascalCase`). Every block has a body. So the code of a
program is well formed (`Program.areWellFormed_code`), and its text is indented as Python demands
(`isIndented_of_generate`).
-/

set_option autoImplicit false

namespace StateMachine.Python

open Code Numeric

/-! ### Texts that end no line -/

theorem isUnbroken_append (first second : List Char) :
    isUnbroken (first ++ second) = (isUnbroken first && isUnbroken second) :=
  List.all_append

theorem isUnbroken_cons {c : Char} {text : List Char} (hc : isUnbroken [c])
    (h : isUnbroken text) : isUnbroken (c :: text) := by
  rw [← List.singleton_append, isUnbroken_append, hc, h, Bool.and_self]

theorem isUnbroken_of_class {p : Char → Bool} {text : List Char} (hnewline : p '\n' = false)
    (hreturn : p '\r' = false) (h : ∀ c ∈ text, p c) : isUnbroken text :=
  isUnbroken_iff.mpr ⟨fun hmem ↦ Bool.false_ne_true (hnewline.symm.trans (h _ hmem)),
    fun hmem ↦ Bool.false_ne_true (hreturn.symm.trans (h _ hmem))⟩

theorem isUnbroken_flatMap {α : Type} {f : α → List Char} {xs : List α}
    (h : ∀ x ∈ xs, isUnbroken (f x)) : isUnbroken (xs.flatMap f) := by
  induction xs with
  | nil => rfl
  | cons x xs ih =>
    obtain ⟨hx, hxs⟩ := List.forall_mem_cons.mp h
    rw [List.flatMap_cons, isUnbroken_append, hx, ih hxs, Bool.and_self]

theorem isUnbroken_digitChar (n : Nat) : isUnbroken [Nat.digitChar (n % 16)] := by
  have hdigit : ∀ d < 16, isUnbroken [Nat.digitChar d] := by decide
  exact hdigit _ (Nat.mod_lt n (by decide))

theorem isUnbroken_escaped (c : Char) : isUnbroken (Json.escaped c) := by
  unfold Json.escaped
  split_ifs with _ _ _ _ hnewline hreturn
  any_goals rfl
  · have hhex (n : Nat) : isUnbroken [Json.hexDigit n] := isUnbroken_digitChar n
    have hhexes : isUnbroken [Json.hexDigit (c.toNat / 16), Json.hexDigit c.toNat] :=
      isUnbroken_cons (hhex _) (hhex _)
    exact (isUnbroken_append ['\\', 'u', '0', '0'] _).trans hhexes
  · simp [isUnbroken, hnewline, hreturn]

theorem isUnbroken_quoted (s : String) : isUnbroken (Json.quoted s) := by
  have hescaped : isUnbroken (s.toList.flatMap Json.escaped) :=
    isUnbroken_flatMap fun c _ ↦ isUnbroken_escaped c
  have hsplit : Json.quoted s = ['"'] ++ s.toList.flatMap Json.escaped ++ ['"'] := rfl
  rw [hsplit, isUnbroken_append, isUnbroken_append, hescaped]
  rfl

theorem isUnbroken_textLiteral (s : String) : isUnbroken (textLiteral s).toList := by
  rw [textLiteral, String.toList_ofList]
  exact isUnbroken_quoted s

theorem isUnbroken_optionalLiteral (s : Option String) :
    isUnbroken (optionalLiteral s).toList := by
  cases s with
  | none => decide
  | some s => exact isUnbroken_textLiteral s

theorem isUnbroken_numberText {n : Guard.NumberText} (h : n.WellFormed) : isUnbroken n.chars :=
  isUnbroken_of_class (by decide) (by decide) (Guard.NumberText.isNumberChar_of_mem h)

theorem isUnbroken_finiteText (style : NumeralStyle) (x : FiniteDouble) :
    isUnbroken (style.finiteText x) := by
  rw [← Guard.NumberText.chars_ofNumeral]
  exact isUnbroken_numberText (Guard.NumberText.ofNumeral_wellFormed style x)

theorem isUnbroken_numeral (style : NumeralStyle) (x : Double) : isUnbroken (style.text x) := by
  cases x with
  | finite x => exact isUnbroken_finiteText style x
  | infinite negative => cases negative <;> rfl
  | notANumber => rfl

theorem isUnbroken_jsonNumber (n : JsonNumber) : isUnbroken (Json.numberText n) := by
  cases n with
  | integer n inRange =>
    rw [Json.numberText, ← Guard.NumberText.chars_ofInteger]
    exact isUnbroken_numberText (Guard.NumberText.ofInteger_wellFormed n)
  | double x => exact isUnbroken_finiteText NumeralStyle.json x

mutual

theorem isUnbroken_compact (value : Json) : isUnbroken value.compact := by
  cases value with
  | null => decide
  | bool b => cases b <;> decide
  | number n => exact isUnbroken_jsonNumber n
  | string s => exact isUnbroken_quoted s
  | array items =>
    cases items with
    | nil => rfl
    | cons item items =>
      have hitems := isUnbroken_compactItems items
      rw [Json.compact]
      refine isUnbroken_cons rfl ?_
      rw [isUnbroken_append, isUnbroken_compact item, hitems, Bool.and_self]
  | object members =>
    cases members with
    | nil => rfl
    | cons member members =>
      obtain ⟨key, value⟩ := member
      rw [Json.compact]
      refine isUnbroken_cons rfl ?_
      rw [isUnbroken_append, isUnbroken_quoted, Bool.true_and]
      refine isUnbroken_cons rfl ?_
      rw [isUnbroken_append, isUnbroken_compact value, isUnbroken_compactMembers members,
        Bool.and_self]

theorem isUnbroken_compactItems (items : List Json) : isUnbroken (Json.compactItems items) := by
  cases items with
  | nil => rfl
  | cons item items =>
    rw [Json.compactItems]
    refine isUnbroken_cons rfl ?_
    rw [isUnbroken_append, isUnbroken_compact item, isUnbroken_compactItems items, Bool.and_self]

theorem isUnbroken_compactMembers (members : List (String × Json)) :
    isUnbroken (Json.compactMembers members) := by
  cases members with
  | nil => rfl
  | cons member members =>
    obtain ⟨key, value⟩ := member
    rw [Json.compactMembers]
    refine isUnbroken_cons rfl ?_
    rw [isUnbroken_append, isUnbroken_quoted, Bool.true_and]
    refine isUnbroken_cons rfl ?_
    rw [isUnbroken_append, isUnbroken_compact value, isUnbroken_compactMembers members,
      Bool.and_self]

end

theorem isUnbroken_literal (value : Json) : isUnbroken (literal value).toList := by
  have hcompact : isUnbroken (String.ofList value.compact).toList := by
    rw [String.toList_ofList]
    exact isUnbroken_compact value
  unfold literal
  split
  · decide
  · decide
  · decide
  · exact hcompact

theorem isUnbroken_enclosed {demand : Nat} {operand : Condition} {text : String}
    (h : isUnbroken text.toList) : isUnbroken (Condition.enclosed demand operand text).toList := by
  unfold Condition.enclosed
  split
  · rw [String.toList_append, String.toList_append, isUnbroken_append, isUnbroken_append, h]
    decide
  · exact h

theorem isUnbroken_condition (c : Condition) : isUnbroken c.text.toList := by
  induction c with
  | truth f =>
    simp only [Condition.text_truth, String.toList_append, isUnbroken_append,
      isUnbroken_textLiteral]
    rfl
  | equal f value =>
    simp only [Condition.text_equal, String.toList_append, isUnbroken_append,
      isUnbroken_textLiteral, isUnbroken_literal]
    rfl
  | compare f c operand =>
    simp only [Condition.text_compare, String.toList_append, String.toList_ofList,
      isUnbroken_append, isUnbroken_textLiteral, isUnbroken_numeral]
    cases c <;> rfl
  | conjunction a b iha ihb =>
    simp only [Condition.text_conjunction, String.toList_append, isUnbroken_append,
      isUnbroken_enclosed iha, isUnbroken_enclosed ihb]
    rfl
  | disjunction a b iha ihb =>
    simp only [Condition.text_disjunction, String.toList_append, isUnbroken_append,
      isUnbroken_enclosed iha, isUnbroken_enclosed ihb]
    rfl
  | negation a ih =>
    simp only [Condition.text_negation, String.toList_append, isUnbroken_append,
      isUnbroken_enclosed ih]
    rfl

theorem isUnbroken_of_isName {s : String} (h : isName s) : isUnbroken s.toList :=
  isUnbroken_of_class (by decide) (by decide) (isNamePart_of_isName h)

/-- A character that is its own upper case stands in the word made of a text that it stands in. -/
theorem mem_capitalized {c : Char} {text : List Char} (h : c ∈ text) (hc : c ≠ '_')
    (hupper : c.toUpper = c) : c ∈ capitalized text := by
  obtain ⟨part, hpart, hmem⟩ := Text.exists_mem_parts_iff.mpr ⟨h, hc⟩
  refine List.mem_flatMap.mpr ⟨part, hpart, ?_⟩
  cases part with
  | nil => cases hmem
  | cons d rest =>
    rcases List.mem_cons.mp hmem with rfl | hrest
    · rw [capitalize, hupper]
      exact List.mem_cons_self
    · exact List.mem_cons_of_mem _ hrest

/-- A text ends no line if a name is made of it. -/
theorem isUnbroken_of_pascalCase {s : String} (h : isName (pascalCase s)) :
    isUnbroken s.toList := by
  obtain ⟨hnewline, hreturn⟩ := isUnbroken_iff.mp (isUnbroken_of_isName h)
  have hmem {c : Char} (hc : c ∈ capitalized s.toList) : c ∈ (pascalCase s).toList := by
    rcases toList_pascalCase s with hword | ⟨hword, -⟩
    · rw [hword]
      exact hc
    · rw [hword]
      exact List.mem_cons_of_mem '_' hc
  exact isUnbroken_iff.mpr ⟨fun hs ↦ hnewline (hmem (mem_capitalized hs (by decide) (by decide))),
    fun hs ↦ hreturn (hmem (mem_capitalized hs (by decide) (by decide)))⟩

theorem isUnbroken_intercalate {separator : String} {texts : List String}
    (hseparator : isUnbroken separator.toList) (h : ∀ text ∈ texts, isUnbroken text.toList) :
    isUnbroken (separator.intercalate texts).toList := by
  induction texts with
  | nil => rfl
  | cons text texts ih =>
    obtain ⟨htext, htexts⟩ := List.forall_mem_cons.mp h
    cases texts with
    | nil => exact htext
    | cons next more =>
      rw [String.intercalate_cons_of_ne_nil (List.cons_ne_nil next more), String.toList_append,
        String.toList_append, isUnbroken_append, isUnbroken_append, htext, hseparator, ih htexts]
      rfl

/-! ### Lines and headers -/

/-- A line may end with this text, and does not open a block then. -/
def isLineEnd (text : String) : Bool :=
  !text.isEmpty && isUnbroken text.toList && !opens text.toList

/-- A header may end with this text. -/
def isHeaderEnd (text : String) : Bool :=
  isUnbroken text.toList && opens text.toList

theorem opens_append {first second : List Char} (h : second ≠ []) :
    opens (first ++ second) = opens second := by
  rw [opens, List.getLast?_append_of_ne_nil first h, opens]

theorem isLine_append {first second : String} (hfirst : isLine first.toList)
    (hsecond : isUnbroken second.toList) : isLine (first ++ second).toList := by
  obtain ⟨hhead, hunbroken⟩ := Bool.and_eq_true_iff.mp hfirst
  rw [String.toList_append, isLine, isUnbroken_append, hunbroken, hsecond, Bool.and_self,
    Bool.and_true, List.head?_append]
  cases hlist : first.toList.head? with
  | none =>
    rw [hlist] at hhead
    cases hhead
  | some c => rwa [hlist] at hhead

theorem isWellFormed_line {start finish : String} (hstart : isLine start.toList)
    (hfinish : isLineEnd finish) : (Code.line (start ++ finish)).isWellFormed := by
  simp only [isLineEnd, Bool.and_eq_true, Bool.not_eq_true'] at hfinish
  obtain ⟨⟨hne, hunbroken⟩, hopens⟩ := hfinish
  have hlist : finish.toList ≠ [] := by
    rw [ne_eq, String.toList_eq_nil_iff]
    rintro rfl
    cases hne
  rw [isWellFormed, isLine_append hstart hunbroken, String.toList_append, opens_append hlist,
    hopens]
  rfl

theorem isWellFormed_block {start finish : String} {body : List Code}
    (hstart : isLine start.toList) (hfinish : isHeaderEnd finish)
    (hfirst : body.head?.any (!·.isBlank)) (hbody : areWellFormed body) :
    (Code.block (start ++ finish) body).isWellFormed := by
  obtain ⟨hunbroken, hopens⟩ := Bool.and_eq_true_iff.mp hfinish
  have hlist : finish.toList ≠ [] := by
    intro heq
    rw [heq] at hopens
    cases hopens
  rw [isWellFormed, isLine_append hstart hunbroken, String.toList_append, opens_append hlist,
    hopens, hfirst, hbody]
  rfl

theorem isLine_textLiteral (s : String) : isLine (textLiteral s).toList := by
  rw [isLine, isUnbroken_textLiteral, textLiteral, String.toList_ofList]
  rfl

theorem isLineEnd_textLiteral (s : String) : isLineEnd (textLiteral s) := by
  have hlist : (textLiteral s).toList = ('"' :: s.toList.flatMap Json.escaped) ++ ['"'] := by
    rw [textLiteral, String.toList_ofList]
    rfl
  have hne : (textLiteral s).isEmpty = false := by
    rw [← Bool.not_eq_true, String.isEmpty_iff, ← String.toList_eq_nil_iff, hlist]
    exact List.cons_ne_nil _ _
  rw [isLineEnd, hne, isUnbroken_textLiteral, hlist, opens_append (List.cons_ne_nil _ _)]
  rfl

theorem isLineEnd_checksum (m : Machine) : isLineEnd m.checksum := by
  obtain ⟨remainder, hlist⟩ : ∃ remainder, m.checksum.toList = Checksum.hexText remainder :=
    ⟨_, String.toList_ofList⟩
  have hunbroken : isUnbroken (Checksum.hexText remainder) := by
    rw [Checksum.hexText, List.map_eq_flatMap]
    exact isUnbroken_flatMap fun _ _ ↦ isUnbroken_digitChar _
  have hlast : ∀ digit < 16, opens [Nat.digitChar digit] = false := by decide
  have hopens : opens (Checksum.hexText remainder) = false :=
    hlast _ (Nat.mod_lt _ (by decide))
  have hne : m.checksum.isEmpty = false := by
    rw [← Bool.not_eq_true, String.isEmpty_iff, ← String.toList_eq_nil_iff, hlist]
    exact List.cons_ne_nil _ _
  rw [isLineEnd, hne, hlist, hunbroken, hopens]
  rfl

theorem areWellFormed_cons {c : Code} {rest : List Code} (hc : c.isWellFormed)
    (hrest : areWellFormed rest) : areWellFormed (c :: rest) := by
  rw [areWellFormed, hc, hrest, Bool.and_self]

theorem areWellFormed_append {first second : List Code} (hfirst : areWellFormed first)
    (hsecond : areWellFormed second) : areWellFormed (first ++ second) :=
  areWellFormed_iff.mpr (List.forall_mem_append.mpr
    ⟨areWellFormed_iff.mp hfirst, areWellFormed_iff.mp hsecond⟩)

theorem areWellFormed_flatMap {α : Type} {f : α → List Code} {xs : List α}
    (h : ∀ x ∈ xs, areWellFormed (f x)) : areWellFormed (xs.flatMap f) := by
  refine areWellFormed_iff.mpr fun c hc ↦ ?_
  obtain ⟨x, hx, hmem⟩ := List.mem_flatMap.mp hc
  exact areWellFormed_iff.mp (h x hx) c hmem

theorem areWellFormed_map {α : Type} {f : α → Code} {xs : List α}
    (h : ∀ x ∈ xs, (f x).isWellFormed) : areWellFormed (xs.map f) := by
  refine areWellFormed_iff.mpr fun c hc ↦ ?_
  obtain ⟨x, hx, rfl⟩ := List.mem_map.mp hc
  exact h x hx

/-! ### Handlers -/

theorem isWellFormed_takeLine (t : Transition) : (Code.line (takeLine t)).isWellFormed := by
  have htarget : isLine ("return machine.transition(" ++ textLiteral t.target).toList :=
    isLine_append rfl (isUnbroken_textLiteral t.target)
  have haction : isLine ("return machine.transition(" ++ textLiteral t.target ++ ", " ++
      optionalLiteral t.action).toList :=
    isLine_append (isLine_append htarget rfl) (isUnbroken_optionalLiteral t.action)
  exact isWellFormed_line haction rfl

theorem areWellFormed_branches (first : Bool) (transitions : List Transition) :
    areWellFormed (branches first transitions) := by
  induction transitions generalizing first with
  | nil => rfl
  | cons t rest ih =>
    refine areWellFormed_cons ?_ (ih false)
    split
    · next guard _ =>
      have hword : isLine (if first then "if " else "elif ").toList := by cases first <;> rfl
      exact isWellFormed_block (isLine_append hword (isUnbroken_condition (.ofGuard guard))) rfl rfl
        (areWellFormed_cons (isWellFormed_takeLine t) rfl)
    · exact isWellFormed_takeLine t

theorem exists_branches_eq_cons {first : Bool} {transitions : List Transition}
    (h : transitions ≠ []) :
    ∃ c more, branches first transitions = c :: more ∧ c.isBlank = false := by
  cases transitions with
  | nil => exact absurd rfl h
  | cons t rest =>
    refine ⟨_, _, rfl, ?_⟩
    split <;> rfl

theorem Handler.isWellFormed_code {h : Handler} (hname : isName (methodName h.event))
    (hne : h.transitions ≠ []) : h.code.isWellFormed := by
  have hheader : isLine ("def " ++ methodName h.event).toList :=
    isLine_append rfl (isUnbroken_of_isName hname)
  have hfirst : ∃ c more, branches true h.transitions = c :: more ∧ c.isBlank = false :=
    exists_branches_eq_cons hne
  obtain ⟨c, more, hbranches, hblank⟩ := hfirst
  refine isWellFormed_block hheader rfl ?_ (areWellFormed_append (areWellFormed_branches _ _) ?_)
  · rw [hbranches, List.cons_append, List.head?_cons, Option.any_some, hblank]
    rfl
  · split
    · refine areWellFormed_cons (isWellFormed_line ?_ rfl) rfl
      exact isLine_append rfl (isUnbroken_textLiteral h.event)
    · rfl

theorem areWellFormed_hookCode {method : String} (hmethod : isUnbroken method.toList)
    (action : Option String) : areWellFormed (hookCode method action) := by
  cases action with
  | none => rfl
  | some name =>
    have hcall : (Code.line ("machine.run_action(" ++ textLiteral name ++ ")")).isWellFormed :=
      isWellFormed_line (isLine_append rfl (isUnbroken_textLiteral name)) rfl
    exact areWellFormed_cons rfl (areWellFormed_cons
      (isWellFormed_block (isLine_append rfl hmethod) rfl rfl (areWellFormed_cons hcall rfl)) rfl)

/-! ### Classes -/

/-- What is asked of the class of a state: its name and those of its methods are names, and each
method has something to do. -/
structure StateClass.Proper (c : StateClass) : Prop where
  className : isName c.className
  methods : ∀ h ∈ c.handlers, isName (Handler.methodName h.event)
  bodies : ∀ h ∈ c.handlers, h.transitions ≠ []

theorem StateClass.isWellFormed_code {base : String} {c : StateClass}
    (hbase : isUnbroken base.toList) (hc : c.Proper) : (c.code base).isWellFormed := by
  have hheader : isLine ("class " ++ c.className ++ "(" ++ base).toList :=
    isLine_append (isLine_append (isLine_append rfl (isUnbroken_of_isName hc.className)) rfl) hbase
  have hname : (Code.line ("name = " ++ textLiteral c.state.name)).isWellFormed :=
    isWellFormed_line rfl (isLineEnd_textLiteral c.state.name)
  have hhandlers : areWellFormed (c.handlers.flatMap fun h ↦ [.blank, h.code]) :=
    areWellFormed_flatMap fun h hh ↦ areWellFormed_cons rfl
      (areWellFormed_cons (Handler.isWellFormed_code (hc.methods h hh) (hc.bodies h hh)) rfl)
  exact isWellFormed_block hheader rfl rfl (areWellFormed_cons hname
    (areWellFormed_append (areWellFormed_append (areWellFormed_hookCode rfl c.state.entry)
      (areWellFormed_hookCode rfl c.state.exit)) hhandlers))

theorem isWellFormed_baseCode {machine : String} (hmachine : isUnbroken machine.toList)
    (hbase : isUnbroken (baseClassName machine).toList) : (baseCode machine).isWellFormed := by
  have hcomment :
      (Code.line ("\"\"\"Base class for " ++ machine ++ " states.\"\"\"")).isWellFormed :=
    isWellFormed_line (isLine_append rfl hmachine) rfl
  exact isWellFormed_block (isLine_append rfl hbase) rfl rfl (areWellFormed_cons hcomment rfl)

/-! ### The dispatcher -/

theorem areWellFormed_tableCode {name : String} (hname : isLine name.toList)
    (entries : List (String × Option String)) : areWellFormed (tableCode name entries) := by
  unfold tableCode
  split
  · exact areWellFormed_cons (isWellFormed_line hname rfl) rfl
  · next hentries =>
    refine areWellFormed_cons (isWellFormed_block hname rfl ?_ (areWellFormed_map ?_)) rfl
    · cases entries with
      | nil => exact absurd rfl hentries
      | cons entry rest => rfl
    · intro entry _
      exact isWellFormed_line (isLine_append (isLine_append (isLine_textLiteral entry.1) rfl)
        (isUnbroken_optionalLiteral entry.2)) rfl

theorem isWellFormed_resetLine (events : List String) :
    (Code.line (resetLine events)).isWellFormed := by
  have htexts : ∀ text ∈ events.map textLiteral, isUnbroken text.toList := by
    intro text htext
    obtain ⟨event, -, rfl⟩ := List.mem_map.mp htext
    exact isUnbroken_textLiteral event
  unfold resetLine
  split
  · rfl
  · exact isWellFormed_line (isLine_append rfl (isUnbroken_intercalate rfl htexts)) rfl

theorem areWellFormed_stateTableCode {states : List StateClass} (hne : states ≠ [])
    (h : ∀ c ∈ states, c.Proper) : areWellFormed (stateTableCode states) := by
  have hheader : "states = \x7b" = "states = " ++ "\x7b" := rfl
  rw [stateTableCode, hheader]
  refine areWellFormed_cons (isWellFormed_block rfl rfl ?_ (areWellFormed_map fun c hc ↦ ?_)) rfl
  · cases states with
    | nil => exact absurd rfl hne
    | cons c rest => rfl
  · have hclass : isUnbroken c.className.toList := isUnbroken_of_isName (h c hc).className
    exact isWellFormed_line
      (isLine_append (isLine_append (isLine_textLiteral c.state.name) rfl) hclass) rfl

/-! ### Whole programs -/

theorem areWellFormed_helpers : areWellFormed
    [exceptionCode, .blank, .blank, fieldCode, .blank, .blank, equalsCode, .blank, .blank,
      compareCode] := by
  decide +kernel

theorem areWellFormed_dispatcherMethods : areWellFormed dispatcherMethods := by
  decide +kernel

namespace Program

/-- What is asked of a program: what stands in it as it is ends no line, and it has states. -/
structure Proper (p : Program) : Prop where
  machineName : isUnbroken p.machineName.toList
  baseClassName : isUnbroken (baseClassName p.machineName).toList
  className : isUnbroken p.className.toList
  checksum : isLineEnd p.checksum
  nonempty : p.states ≠ []
  states : ∀ c ∈ p.states, c.Proper

variable {p : Program}

theorem isWellFormed_dispatcherCode (hp : p.Proper) : p.dispatcherCode.isWellFormed := by
  have hcomment : (Code.line
      ("\"\"\"Dispatcher for the " ++ p.machineName ++ " state machine.\"\"\"")).isWellFormed :=
    isWellFormed_line (isLine_append rfl hp.machineName) rfl
  have hinitial : (Code.line ("initial = " ++ textLiteral p.initial)).isWellFormed :=
    isWellFormed_line rfl (isLineEnd_textLiteral p.initial)
  have hfields : areWellFormed
      [.line ("\"\"\"Dispatcher for the " ++ p.machineName ++ " state machine.\"\"\""),
        .blank,
        .line ("initial = " ++ textLiteral p.initial),
        .line (resetLine p.resetEvents)] :=
    areWellFormed_cons hcomment (areWellFormed_cons rfl (areWellFormed_cons hinitial
      (areWellFormed_cons (isWellFormed_resetLine p.resetEvents) rfl)))
  have htables : areWellFormed (tableCode "events" p.events) ∧
      areWellFormed (tableCode "commands" p.commands) ∧
      areWellFormed (stateTableCode p.states) :=
    ⟨areWellFormed_tableCode rfl p.events, areWellFormed_tableCode rfl p.commands,
      areWellFormed_stateTableCode hp.nonempty hp.states⟩
  obtain ⟨hevents, hcommands, hstates⟩ := htables
  have hbody := areWellFormed_append (areWellFormed_append (areWellFormed_append
    (areWellFormed_append (areWellFormed_append hfields hevents) hcommands) hstates)
    (rfl : areWellFormed [.blank])) areWellFormed_dispatcherMethods
  exact isWellFormed_block (isLine_append rfl hp.className) rfl rfl hbody

theorem areWellFormed_code (hp : p.Proper) : areWellFormed p.code := by
  have htitle : (Code.line
      ("# Generated by smc from state machine '" ++ p.machineName ++ "'.")).isWellFormed :=
    isWellFormed_line (isLine_append rfl hp.machineName) rfl
  have hchecksum : (Code.line ("# Source checksum: " ++ p.checksum)).isWellFormed :=
    isWellFormed_line rfl hp.checksum
  have hbase : areWellFormed [baseCode p.machineName] :=
    areWellFormed_cons (isWellFormed_baseCode hp.machineName hp.baseClassName) rfl
  have himport : areWellFormed
      [.line "# Do not edit by hand.", .blank, .line "import operator", .blank, .blank] := rfl
  have hclasses : areWellFormed
      (p.states.flatMap fun c ↦ [.blank, .blank, c.code (Python.baseClassName p.machineName)]) :=
    areWellFormed_flatMap fun c hc ↦ areWellFormed_cons rfl (areWellFormed_cons rfl
      (areWellFormed_cons (StateClass.isWellFormed_code hp.baseClassName (hp.states c hc)) rfl))
  have hdispatcher : areWellFormed [.blank, .blank, p.dispatcherCode] :=
    areWellFormed_cons rfl (areWellFormed_cons rfl
      (areWellFormed_cons (isWellFormed_dispatcherCode hp) rfl))
  have hhead := areWellFormed_cons htitle (areWellFormed_cons hchecksum
    (areWellFormed_append (areWellFormed_append himport areWellFormed_helpers)
      (areWellFormed_append (rfl : areWellFormed [.blank, .blank]) hbase)))
  exact areWellFormed_append (areWellFormed_append hhead hclasses) hdispatcher

end Program

/-- The program of a machine that is not refused is proper. -/
theorem proper_build {options : Options} {m : Machine} {text : String}
    (h : generate options m = .ok text) : (Program.build options m).Proper := by
  have hnames := isName_of_generate h
  simp only [generatedNames, List.forall_mem_append, List.forall_mem_cons, List.forall_mem_map]
    at hnames
  obtain ⟨⟨hmachine, hclass⟩, hmethod⟩ := hnames
  obtain ⟨⟨first, hinitial⟩, -⟩ := (generated_of_generate h).1
  constructor
  case machineName => exact isUnbroken_of_pascalCase hmachine
  case baseClassName =>
    have hbase : isUnbroken (pascalCase m.name ++ "Base").toList := by
      rw [String.toList_append, isUnbroken_append, isUnbroken_of_isName hmachine]
      rfl
    exact hbase
  case className => exact isUnbroken_of_isName hmachine
  case checksum => exact isLineEnd_checksum m
  case nonempty =>
    have hfirst : first ∈ m.initialStates := hinitial ▸ List.mem_singleton_self first
    have hstates : m.states ≠ [] := List.ne_nil_of_mem (List.mem_filter.mp hfirst).1
    simpa [Program.build] using hstates
  case states =>
    intro c hc
    obtain ⟨s, hs, rfl⟩ := List.mem_map.mp hc
    refine ⟨hclass s hs, fun handler hhandler ↦ ?_, fun handler hhandler ↦ ?_⟩
    · obtain ⟨htransitions, hne⟩ := Handler.mem_group_iff.mp hhandler
      obtain ⟨t, ht⟩ := List.exists_mem_of_ne_nil _ hne
      rw [htransitions, List.mem_filter, beq_iff_eq] at ht
      rw [← ht.2]
      exact hmethod t (List.mem_filter.mp ht.1).1
    · exact (Handler.mem_group_iff.mp hhandler).2

/-- The text of a generated program is indented as its blocks demand, whatever the texts of the
machine are: none of them ends a line. -/
theorem isIndented_of_generate {options : Options} {m : Machine} {text : String}
    (h : generate options m = .ok text) :
    (∀ line ∈ allTexts (Program.build options m).code,
        '\n' ∉ line.toList ∧ '\r' ∉ line.toList) ∧
      IsIndented options.indentWidth (Text.parts '\n' text.toList) := by
  have hcode := Program.areWellFormed_code (proper_build h)
  refine ⟨fun line hline ↦ ?_, ?_⟩
  · have hclean := isLine_of_mem_allTexts _ hcode line hline
    exact isUnbroken_iff.mp (Bool.and_eq_true_iff.mp hclean).2
  · rw [(generated_of_generate h).2]
    exact isIndented_text hcode options.indentWidth

/-- A siren whose actions, codes, declarations and literals hold line breaks. -/
def siren : Machine where
  name := "siren"
  events := [⟨"wake", some "A:\nB", .unplaced⟩, ⟨"snooze\r\n", none, .unplaced⟩]
  resetEvents := [⟨"power\ncut", none, .unplaced⟩]
  commands := [⟨"ring\nloud", some "C\r", .unplaced⟩]
  states := [⟨"idle", true, none, none, .unplaced⟩,
    ⟨"ringing", false, some "ring\nloud", some "hush:\r", .unplaced⟩]
  transitions := [
    ⟨"idle", "ringing", "wake", some (.equals "tone" (.string "\n  pass\n")), none, .unplaced⟩,
    ⟨"idle", "idle", "wake", some (.truthy "a\nb"), some "skip:\n", .unplaced⟩,
    ⟨"ringing", "idle", "stop", none, some "hush:\r", .unplaced⟩]

theorem isIndented_siren :
    ∃ text, generate ⟨2, "State"⟩ siren = .ok text ∧
      "machine.run_action(\"ring\\nloud\")" ∈ allTexts (Program.build ⟨2, "State"⟩ siren).code ∧
      (∀ line ∈ allTexts (Program.build ⟨2, "State"⟩ siren).code,
        '\n' ∉ line.toList ∧ '\r' ∉ line.toList) ∧
      IsIndented 2 (Text.parts '\n' text.toList) := by
  obtain ⟨text, h⟩ := exists_eq_ok (x := generate ⟨2, "State"⟩ siren) (by decide +kernel)
  exact ⟨text, h, by decide +kernel, isIndented_of_generate h⟩

end StateMachine.Python
