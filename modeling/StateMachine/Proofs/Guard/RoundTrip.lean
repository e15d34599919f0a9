import StateMachine.Proofs.Guard.Reading
import StateMachine.Proofs.Guard.Rounded

/-!
Reading what was printed. The canonical text of a guard is read as the guard with its integers
rounded (`parse_text_rounded`); a printable guard has none and is read back (`parse_text`). The
induction on the guard says of each level of the grammar what it reads from the guard's text,
printed as an operand of that level, in front of whatever may follow an operand.
-/

set_option autoImplicit false

namespace StateMachine.Guard

open Numeric
open Text (Stops stops_nil stops_cons stops_append skipBlanks skipBlanks_of_stops skipBlanks_append
  skipBlanks_blank takeWhile_run dropWhile_run isBlank)

/-! ### What follows an operand -/

/-- What may follow an operand in a canonical text. -/
inductive Follows : List Char → Prop
  | finish : Follows []
  | close (rest : List Char) : Follows (')' :: rest)
  | conjunct (rest : List Char) : Follows (" && ".toList ++ rest)
  | disjunct (rest : List Char) : Follows (" || ".toList ++ rest)

/-- No further operand of a conjunction follows. -/
def EndsConjunction (rest : List Char) : Prop :=
  ∀ more, skipBlanks rest ≠ '&' :: '&' :: more

/-- No further operand of a disjunction follows. -/
def EndsDisjunction (rest : List Char) : Prop :=
  ∀ more, skipBlanks rest ≠ '|' :: '|' :: more

theorem endsConjunction_nil : EndsConjunction [] := by
  intro more h
  cases h

theorem endsDisjunction_nil : EndsDisjunction [] := by
  intro more h
  cases h

theorem skipBlanks_close (rest : List Char) : skipBlanks (')' :: rest) = ')' :: rest :=
  skipBlanks_of_stops (stops_cons.mpr (by decide))

theorem skipBlanks_conjunct (rest : List Char) :
    skipBlanks (" && ".toList ++ rest) = '&' :: '&' :: ' ' :: rest :=
  skipBlanks_blank.trans (skipBlanks_of_stops (stops_cons.mpr (by decide)))

theorem skipBlanks_disjunct (rest : List Char) :
    skipBlanks (" || ".toList ++ rest) = '|' :: '|' :: ' ' :: rest :=
  skipBlanks_blank.trans (skipBlanks_of_stops (stops_cons.mpr (by decide)))

theorem endsConjunction_close (rest : List Char) : EndsConjunction (')' :: rest) := by
  intro more h
  rw [skipBlanks_close] at h
  cases h

theorem endsDisjunction_close (rest : List Char) : EndsDisjunction (')' :: rest) := by
  intro more h
  rw [skipBlanks_close] at h
  cases h

theorem endsConjunction_disjunct (rest : List Char) :
    EndsConjunction (" || ".toList ++ rest) := by
  intro more h
  rw [skipBlanks_disjunct] at h
  cases h

namespace Follows

variable {rest : List Char}

/-- An operand is followed by nothing, by a blank or by a parenthesis. -/
theorem stops (h : Follows rest) {p : Char → Bool} (hblank : p ' ' = false)
    (hclose : p ')' = false) : Stops p rest := by
  cases h with
  | finish => exact stops_nil
  | close rest => exact stops_cons.mpr hclose
  | conjunct rest => exact stops_cons.mpr hblank
  | disjunct rest => exact stops_cons.mpr hblank

theorem operator?_eq_none (h : Follows rest) : operator? (skipBlanks rest) = none := by
  cases h with
  | finish => rfl
  | close rest => rw [skipBlanks_close]; rfl
  | conjunct rest => rw [skipBlanks_conjunct]; rfl
  | disjunct rest => rw [skipBlanks_disjunct]; rfl

end Follows

/-! ### Fields -/

theorem isPathChar_of_isFieldPath {f : String} (h : isFieldPath f) :
    ∀ c ∈ f.toList, isPathChar c := by
  intro c hc
  simp only [isFieldPath, List.all_eq_true, Bool.and_eq_true] at h
  by_cases hdot : c = '.'
  · rw [hdot]
    decide
  · obtain ⟨part, hpart, hmem⟩ := Text.exists_mem_parts_iff.mpr ⟨hc, hdot⟩
    have hchar := (h part hpart).2 c hmem
    simp only [Identifier.isPart, Bool.or_eq_true] at hchar
    simp only [isPathChar, Bool.or_eq_true]
    exact Or.inl hchar

/-- Letters and digits lie between `0` and `z`. -/
theorem bounds_of_isAlphanum {c : Char} (h : c.isAlphanum) : 48 ≤ c.toNat ∧ c.toNat ≤ 122 := by
  have hranges : (decide (c.val ≥ 65 ∧ c.val ≤ 90) ||
      (decide (c.val ≥ 97) && decide (c.val ≤ 122)) ||
        (decide (c.val ≥ 48) && decide (c.val ≤ 57))) = true := h
  simp only [Bool.or_eq_true, Bool.and_eq_true, decide_eq_true_eq, ge_iff_le,
    UInt32.le_iff_toNat_le, UInt32.reduceToNat] at hranges
  rw [Char.toNat]
  omega

theorem not_isPathChar_of_isBlank {c : Char} (h : isBlank c) : isPathChar c = false := by
  refine Bool.eq_false_iff.mpr fun hpath ↦ ?_
  simp only [isPathChar, Bool.or_eq_true, decide_eq_true_eq] at hpath
  rcases hpath with (hword | rfl) | rfl
  · have hbounds := bounds_of_isAlphanum hword
    simp only [isBlank, Text.blankRanges, List.any_cons, List.any_nil, Bool.or_false,
      Bool.or_eq_true, Bool.and_eq_true, decide_eq_true_eq] at h
    omega
  · exact absurd h (by decide)
  · exact absurd h (by decide)

theorem toList_ne_nil_of_isFieldPath {f : String} (h : isFieldPath f) : f.toList ≠ [] := by
  intro hnil
  rw [isFieldPath, hnil] at h
  cases h

/-- A field is read up to the end of its path. -/
theorem outcome_field_fieldText {f : String} (h : isFieldPath f) {rest : List Char}
    (hrest : Stops isPathChar rest) : outcome (field (fieldText f ++ rest)) = .ok (f, rest) := by
  have htake := takeWhile_run (isPathChar_of_isFieldPath h) hrest
  have hdrop := dropWhile_run (isPathChar_of_isFieldPath h) hrest
  have hparts : (Text.parts '.' f.toList).any List.isEmpty = false := by
    rw [List.any_eq_false]
    intro part hpart
    have hall := List.all_eq_true.mp h part hpart
    simp only [Bool.and_eq_true, Bool.not_eq_true'] at hall
    simp [hall.1]
  have htext : fieldText f ++ rest = 'c' :: 't' :: 'x' :: '.' :: (f.toList ++ rest) := rfl
  rw [htext]
  simp only [field, htake, hdrop, toList_ne_nil_of_isFieldPath h, hparts, if_false, outcome_ok,
    String.ofList_toList, Bool.false_eq_true]

/-! ### Literals and bounds -/

/-- A number with a finite value is read in front of a text that does not go on with it. -/
theorem outcome_number_chars {n : NumberText} (h : n.WellFormed) {x : FiniteDouble}
    (hvalue : n.toDouble = .finite x) {rest : List Char} (hrest : Stops continuesNumber rest) :
    outcome (number (n.chars ++ rest)) = .ok (x, rest) := by
  have hsplit := NumberText.split_chars_append h hrest
  unfold number
  split
  next found left hfound =>
  rw [hsplit] at hfound
  cases hfound
  rw [dif_pos h.isValid]
  split
  · next y hy =>
    rw [hvalue] at hy
    cases hy
    rfl
  · next hnone => exact absurd hvalue (hnone x)

/-- A numeral of any style is read as the double that was written. -/
theorem outcome_number_finiteText (style : NumeralStyle) (x : FiniteDouble) {rest : List Char}
    (hrest : Stops continuesNumber rest) :
    outcome (number (style.finiteText x ++ rest)) = .ok (x, rest) := by
  rw [← NumberText.chars_ofNumeral]
  exact outcome_number_chars (NumberText.ofNumeral_wellFormed style x)
    (NumberText.toDouble_ofNumeral style x) hrest

/-- May a number start with this character? -/
def startsNumber (c : Char) : Bool :=
  c.isDigit || c = '-' || c = '.'

theorem NumberText.exists_cons_startsNumber {n : NumberText} (h : n.WellFormed) :
    ∃ c more, n.chars = c :: more ∧ startsNumber c := by
  obtain ⟨c, more, hhead, hc⟩ := exists_cons_chars h
  refine ⟨c, more, hhead, ?_⟩
  rcases hc with hdigit | rfl | rfl
  · simp [startsNumber, hdigit]
  · decide
  · decide

theorem not_isBlank_of_startsNumber {c : Char} (h : startsNumber c) : isBlank c = false := by
  simp only [startsNumber, Bool.or_eq_true, decide_eq_true_eq] at h
  rcases h with (hdigit | rfl) | rfl
  · exact Text.isBlank_of_isDigit hdigit
  · decide
  · decide

theorem NumberText.stops_chars {n : NumberText} (h : n.WellFormed) (rest : List Char) :
    Stops isBlank (n.chars ++ rest) := by
  obtain ⟨c, more, hhead, hc⟩ := exists_cons_startsNumber h
  rw [hhead, List.cons_append]
  exact stops_cons.mpr (not_isBlank_of_startsNumber hc)

theorem stops_finiteText (style : NumeralStyle) (x : FiniteDouble) (rest : List Char) :
    Stops isBlank (style.finiteText x ++ rest) := by
  rw [← NumberText.chars_ofNumeral]
  exact NumberText.stops_chars (NumberText.ofNumeral_wellFormed style x) rest

theorem afterWord?_append (word : List Char) {rest : List Char}
    (hrest : Stops Identifier.isPart rest) : afterWord? word (word ++ rest) = some rest := by
  have hprefix : word.isPrefixOf (word ++ rest) := List.isPrefixOf_iff_prefix.mpr ⟨rest, rfl⟩
  have hboundary : rest.head?.all fun c ↦ !(c.isAlphanum || c = '_') := by
    cases rest with
    | nil => rfl
    | cons c rest =>
      have hc : (c.isAlphanum || decide (c = '_')) = false := stops_cons.mp hrest
      simp only [List.head?_cons, Option.all_some, hc, Bool.not_false]
  rw [afterWord?, List.drop_left, hprefix, hboundary, Bool.and_self, if_pos rfl]

theorem afterWord?_eq_none {c d : Char} (h : c ≠ d) (word text : List Char) :
    afterWord? (c :: word) (d :: text) = none := by
  have hprefix : (c :: word).isPrefixOf (d :: text) = false := by
    simp [List.isPrefixOf, h]
  rw [afterWord?, hprefix, Bool.false_and, if_neg (by decide)]

/-- A character other than the first letters of the words starts none of them. -/
theorem outcome_literal_cons {c : Char} (htrue : c ≠ 't') (hfalse : c ≠ 'f') (hnull : c ≠ 'n')
    (text : List Char) : outcome (literal (c :: text)) = valueOutcome (c :: text) := by
  have hisTrue : afterWord? "true".toList (c :: text) = none :=
    afterWord?_eq_none htrue.symm ['r', 'u', 'e'] text
  have hisFalse : afterWord? "false".toList (c :: text) = none :=
    afterWord?_eq_none hfalse.symm ['a', 'l', 's', 'e'] text
  have hisNull : afterWord? "null".toList (c :: text) = none :=
    afterWord?_eq_none hnull.symm ['u', 'l', 'l'] text
  simp only [outcome_literal, hisTrue, hisFalse, hisNull]

/-- A character of a text as it is written: itself, or an escape that stands for it. -/
theorem escaped_cases (c : Char) :
    (escaped c = [c] ∧ c ≠ '"' ∧ c ≠ '\\' ∧ c ≠ '\n') ∨
      ∃ d, escaped c = ['\\', d] ∧ unescape? d = some c := by
  unfold escaped
  split
  · exact Or.inr ⟨'"', rfl, rfl⟩
  · exact Or.inr ⟨'\\', rfl, rfl⟩
  · exact Or.inr ⟨'n', rfl, rfl⟩
  · exact Or.inr ⟨'t', rfl, rfl⟩
  · exact Or.inr ⟨'r', rfl, rfl⟩
  · next hquote hslash hnewline _ _ => exact Or.inl ⟨rfl, hquote, hslash, hnewline⟩

/-- A text between quotes is read up to its closing quote. -/
theorem literalBody_escaped (s rest : List Char) :
    ∃ h, literalBody (s.flatMap escaped ++ '"' :: rest) = .ok (s, ⟨rest, h⟩) := by
  induction s with
  | nil => exact ⟨_, rfl⟩
  | cons c s ih =>
    obtain ⟨h, hbody⟩ := ih
    rw [List.flatMap_cons, List.append_assoc]
    rcases escaped_cases c with ⟨hescaped, hquote, hslash, -⟩ | ⟨d, hescaped, hplain⟩
    · rw [hescaped]
      exact literalBody_plain hquote hslash hbody
    · rw [hescaped]
      exact literalBody_escape hplain hbody

section Literal

variable {text rest : List Char}

theorem outcome_literal_true (hrest : Stops Identifier.isPart rest) :
    outcome (literal ("true".toList ++ rest)) = .ok (.bool true, rest) := by
  have htrue := afterWord?_append "true".toList hrest
  simp only [outcome_literal, htrue]

theorem outcome_literal_false (hrest : Stops Identifier.isPart rest) :
    outcome (literal ("false".toList ++ rest)) = .ok (.bool false, rest) := by
  have htrue : afterWord? "true".toList ("false".toList ++ rest) = none :=
    afterWord?_eq_none (by decide) _ _
  have hfalse := afterWord?_append "false".toList hrest
  simp only [outcome_literal, htrue, hfalse]

theorem outcome_literal_null (hrest : Stops Identifier.isPart rest) :
    outcome (literal ("null".toList ++ rest)) = .ok (.null, rest) := by
  have htrue : afterWord? "true".toList ("null".toList ++ rest) = none :=
    afterWord?_eq_none (by decide) _ _
  have hfalse : afterWord? "false".toList ("null".toList ++ rest) = none :=
    afterWord?_eq_none (by decide) _ _
  have hnull := afterWord?_append "null".toList hrest
  simp only [outcome_literal, htrue, hfalse, hnull]

theorem outcome_literal_text {body s : List Char}
    (h : ∃ hrest, literalBody body = .ok (s, ⟨rest, hrest⟩)) :
    outcome (literal ('"' :: body)) = .ok (.string (String.ofList s), rest) := by
  obtain ⟨hrest, hbody⟩ := h
  rw [outcome_literal_cons (by decide) (by decide) (by decide), valueOutcome, textOutcome, hbody]

theorem outcome_literal_number {x : FiniteDouble}
    (hhead : ∃ c more, text = c :: more ∧ startsNumber c)
    (hnumber : outcome (number text) = .ok (x, rest)) :
    outcome (literal text) = .ok (.number (.double x), rest) := by
  obtain ⟨c, more, rfl, hc⟩ := hhead
  have hne {d : Char} (hd : startsNumber d = false) : c ≠ d := by
    rintro rfl
    rw [hc] at hd
    cases hd
  have hquote : ∀ body, c :: more ≠ '"' :: body := by
    intro body heq
    exact hne (d := '"') (by decide) (List.cons.inj heq).1
  rw [outcome_literal_cons (hne (by decide)) (hne (by decide)) (hne (by decide)),
    valueOutcome_of_number hquote, numberOutcome, hnumber]
  rfl

end Literal

/-- A literal is read back from its text, a number as a double. -/
theorem outcome_literal_literalText {value : Json} (h : isScalar value) {rest : List Char}
    (hrest : Follows rest) :
    outcome (literal (literalText value ++ rest)) = .ok (value.rounded, rest) := by
  have hword : Stops Identifier.isPart rest := hrest.stops (by decide) (by decide)
  cases value with
  | null => exact outcome_literal_null hword
  | bool b =>
    cases b with
    | true => exact outcome_literal_true hword
    | false => exact outcome_literal_false hword
  | string s =>
    have htext : literalText (.string s) ++ rest =
        '"' :: (s.toList.flatMap escaped ++ '"' :: rest) := by
      simp [literalText]
    rw [htext, outcome_literal_text (literalBody_escaped s.toList rest), String.ofList_toList]
    rfl
  | number n =>
    obtain ⟨t, hwellFormed, hchars, hvalue⟩ := n.exists_numberText
    obtain ⟨x, hx⟩ := n.exists_toDouble
    obtain ⟨c, more, hhead, hc⟩ := NumberText.exists_cons_startsNumber hwellFormed
    have hnumber := outcome_number_chars hwellFormed (hvalue.trans hx)
      (hrest.stops (p := continuesNumber) (by decide) (by decide))
    have htext : literalText (.number n) ++ rest = t.chars ++ rest := by
      rw [hchars]
      rfl
    rw [htext, Json.rounded, JsonNumber.rounded_eq hx]
    exact outcome_literal_number ⟨c, more ++ rest, congrArg (· ++ rest) hhead, hc⟩ hnumber
  | array items => cases h
  | object members => cases h

/-- No literal starts with a blank. -/
theorem stops_literalText {value : Json} (h : isScalar value) (rest : List Char) :
    Stops isBlank (literalText value ++ rest) := by
  cases value with
  | null => exact stops_cons.mpr (by decide : isBlank 'n' = false)
  | bool b =>
    cases b with
    | true => exact stops_cons.mpr (by decide : isBlank 't' = false)
    | false => exact stops_cons.mpr (by decide : isBlank 'f' = false)
  | string s => exact stops_cons.mpr (by decide : isBlank '"' = false)
  | number n =>
    obtain ⟨t, hwellFormed, hchars, -⟩ := n.exists_numberText
    have htext : literalText (.number n) = t.chars := hchars.symm
    rw [htext]
    exact NumberText.stops_chars hwellFormed rest
  | array items => cases h
  | object members => cases h

/-! ### Atoms -/

/-- An operator as it is written. -/
def Operator.symbol : Operator → List Char
  | .equals => "==".toList
  | .differs => "!=".toList
  | .compares comparison => comparison.symbol

theorem operator?_symbol (operator : Operator) {more : List Char}
    (hmore : Stops (fun c ↦ c = '=') more) :
    ∃ h, operator? (operator.symbol ++ more) = some (operator, ⟨more, h⟩) := by
  cases operator with
  | equals => exact ⟨_, rfl⟩
  | differs => exact ⟨_, rfl⟩
  | compares comparison =>
    cases comparison with
    | atLeast => exact ⟨_, rfl⟩
    | atMost => exact ⟨_, rfl⟩
    | greater =>
      refine ⟨Nat.lt_succ_self _, ?_⟩
      cases more with
      | nil => rfl
      | cons c more =>
        have hc : c ≠ '=' := by simpa using stops_cons.mp hmore
        simp [operator?, Operator.symbol, Comparison.symbol, hc]
    | less =>
      refine ⟨Nat.lt_succ_self _, ?_⟩
      cases more with
      | nil => rfl
      | cons c more =>
        have hc : c ≠ '=' := by simpa using stops_cons.mp hmore
        simp [operator?, Operator.symbol, Comparison.symbol, hc]

/-- An operator starts with one of four characters. -/
theorem stops_symbol {p : Char → Bool} (hp : ['=', '!', '>', '<'].any p = false)
    (operator : Operator) (more : List Char) : Stops p (operator.symbol ++ more) := by
  simp only [List.any_cons, List.any_nil, Bool.or_eq_false_iff] at hp
  obtain ⟨hequal, hbang, hgreater, hless, -⟩ := hp
  cases operator with
  | equals => exact stops_cons.mpr hequal
  | differs => exact stops_cons.mpr hbang
  | compares comparison =>
    cases comparison with
    | greater => exact stops_cons.mpr hgreater
    | atLeast => exact stops_cons.mpr hgreater
    | less => exact stops_cons.mpr hless
    | atMost => exact stops_cons.mpr hless

section Atom

variable {f : String}

theorem outcome_atom_truthy (h : isFieldPath f) {rest : List Char} (hrest : Follows rest) :
    outcome (atom (fieldText f ++ rest)) = .ok (.truthy f, rest) := by
  have hfield := outcome_field_fieldText h (hrest.stops (p := isPathChar) (by decide) (by decide))
  exact outcome_atom_of_none hfield hrest.operator?_eq_none

/-- Behind a field and an operator, with blanks around it, the operand is read. -/
theorem outcome_atom_operator (h : isFieldPath f) (operator : Operator)
    {before after text : List Char} (hbefore : ∀ c ∈ before, isBlank c)
    (hafter : ∀ c ∈ after, isBlank c) (htext : Stops isBlank text)
    (hequals : Stops (fun c ↦ c = '=') (after ++ text)) :
    outcome (atom (fieldText f ++ (before ++ (operator.symbol ++ (after ++ text))))) =
      outcome (operand f operator text) := by
  have hpath : Stops isPathChar (before ++ (operator.symbol ++ (after ++ text))) :=
    stops_append (fun c hc ↦ not_isPathChar_of_isBlank (hbefore c hc))
      (stops_symbol (by decide) operator _)
  obtain ⟨hshorter, hoperator⟩ := operator?_symbol operator hequals
  have hskip : skipBlanks (before ++ (operator.symbol ++ (after ++ text))) =
      operator.symbol ++ (after ++ text) := by
    rw [skipBlanks_append hbefore, skipBlanks_of_stops (stops_symbol (by decide) operator _)]
  have hfield := outcome_field_fieldText h hpath
  generalize hrest : before ++ (operator.symbol ++ (after ++ text)) = rest at hfield hskip ⊢
  have hsome : ∃ hleft, operator? (skipBlanks rest) = some (operator, ⟨after ++ text, hleft⟩) := by
    rw [hskip]
    exact ⟨hshorter, hoperator⟩
  obtain ⟨hleft, hsome⟩ := hsome
  rw [outcome_atom_of_some hfield hsome, skipBlanks_append hafter, skipBlanks_of_stops htext]

/-- The canonical text has one blank on each side of the operator. -/
theorem outcome_atom_spaced (h : isFieldPath f) (operator : Operator) {text : List Char}
    (htext : Stops isBlank text) :
    outcome (atom (fieldText f ++ ' ' :: (operator.symbol ++ ' ' :: text))) =
      outcome (operand f operator text) := by
  have hblank : ∀ c ∈ [' '], isBlank c := List.forall_mem_singleton.mpr (by decide)
  exact outcome_atom_operator h operator hblank hblank htext (stops_cons.mpr (by decide))

theorem outcome_atom_equals (h : isFieldPath f) {value : Json} (hvalue : isScalar value)
    {rest : List Char} (hrest : Follows rest) :
    outcome (atom ((Guard.equals f value).chars ++ rest)) =
      .ok (.equals f value.rounded, rest) := by
  have htext : (Guard.equals f value).chars ++ rest =
      fieldText f ++ ' ' :: (Operator.equals.symbol ++ ' ' :: (literalText value ++ rest)) := by
    simp [chars, Operator.symbol]
  rw [htext, outcome_atom_spaced h _ (stops_literalText hvalue rest), outcome_operand_equals,
    outcome_literal_literalText hvalue hrest]
  rfl

theorem outcome_atom_differs (h : isFieldPath f) {value : Json} (hvalue : isScalar value)
    {rest : List Char} (hrest : Follows rest) :
    outcome (atom ((Guard.differs f value).chars ++ rest)) =
      .ok (.differs f value.rounded, rest) := by
  have htext : (Guard.differs f value).chars ++ rest =
      fieldText f ++ ' ' :: (Operator.differs.symbol ++ ' ' :: (literalText value ++ rest)) := by
    simp [chars, Operator.symbol]
  rw [htext, outcome_atom_spaced h _ (stops_literalText hvalue rest), outcome_operand_differs,
    outcome_literal_literalText hvalue hrest]
  rfl

theorem outcome_atom_compares (h : isFieldPath f) (comparison : Comparison) (x : FiniteDouble)
    {rest : List Char} (hrest : Follows rest) :
    outcome (atom ((Guard.compares f comparison (.finite x)).chars ++ rest)) =
      .ok (.compares f comparison (.finite x), rest) := by
  have htext : (Guard.compares f comparison (.finite x)).chars ++ rest =
      fieldText f ++ ' ' :: ((Operator.compares comparison).symbol ++
        ' ' :: (NumeralStyle.plain.finiteText x ++ rest)) := by
    simp [chars, Operator.symbol, NumeralStyle.text]
  rw [htext, outcome_atom_spaced h _ (stops_finiteText NumeralStyle.plain x rest),
    outcome_operand_compares, outcome_number_finiteText NumeralStyle.plain x
      (hrest.stops (p := continuesNumber) (by decide) (by decide))]
  rfl

end Atom

/-! ### Connectives -/

section Blanks

variable {text other : List Char}

/-- Blanks in front of an operand do not count. -/
theorem outcome_unary_congr (h : skipBlanks text = skipBlanks other) :
    outcome (unary text) = outcome (unary other) := by
  by_cases hnegation : ∃ rest, skipBlanks other = '!' :: rest
  · obtain ⟨rest, hrest⟩ := hnegation
    rw [outcome_unary_of_negation hrest, outcome_unary_of_negation (h.trans hrest)]
  by_cases hparenthesis : ∃ rest, skipBlanks other = '(' :: rest
  · obtain ⟨rest, hrest⟩ := hparenthesis
    rw [outcome_unary_of_parenthesis hrest, outcome_unary_of_parenthesis (h.trans hrest)]
  · have hno := not_exists.mp hnegation
    have hnoParenthesis := not_exists.mp hparenthesis
    rw [outcome_unary_of_atom hno hnoParenthesis,
      outcome_unary_of_atom (h ▸ hno) (h ▸ hnoParenthesis), h]

theorem outcome_unary_blank : outcome (unary (' ' :: text)) = outcome (unary text) :=
  outcome_unary_congr skipBlanks_blank

theorem outcome_conjunction_blank :
    outcome (conjunction (' ' :: text)) = outcome (conjunction text) := by
  rw [outcome_conjunction, outcome_conjunction, outcome_unary_blank]

end Blanks

/-- Each level of the grammar reads the second guard from the text of the first one, printed as an
operand of that level, in front of whatever may follow an operand. -/
structure ReadsAs (g read : Guard) : Prop where
  unary {rest : List Char} (hrest : Follows rest) :
    outcome (unary (enclosed 3 g g.chars ++ rest)) = .ok (read, rest)
  conjunction {rest : List Char} (hrest : Follows rest) :
    outcome (conjunction (enclosed 2 g g.chars ++ rest)) = outcome (conjunctionTail read rest)
  disjunction {rest : List Char} (hrest : Follows rest) (hend : EndsConjunction rest) :
    outcome (disjunction (enclosed 1 g g.chars ++ rest)) = outcome (disjunctionTail read rest)

section Levels

variable {g : Guard} {text rest : List Char}

theorem enclosed_of_le {demand : Nat} (h : demand ≤ g.precedence) :
    enclosed demand g text = text :=
  if_neg (Nat.not_lt.mpr h)

theorem enclosed_of_lt {demand : Nat} (h : g.precedence < demand) :
    enclosed demand g text = '(' :: (text ++ [')']) :=
  if_pos h

theorem precedence_pos (g : Guard) : 1 ≤ g.precedence := by
  cases g <;> simp [precedence]

theorem outcome_conjunction_of_unary (h : outcome (unary text) = .ok (g, rest)) :
    outcome (conjunction text) = outcome (conjunctionTail g rest) := by
  rw [outcome_conjunction, h]
  rfl

theorem outcome_disjunction_of_conjunction
    (h : outcome (conjunction text) = outcome (conjunctionTail g rest))
    (hend : EndsConjunction rest) :
    outcome (disjunction text) = outcome (disjunctionTail g rest) := by
  rw [outcome_disjunction, h, outcome_conjunctionTail_of_none hend]
  rfl

theorem outcome_unary_parenthesised
    (h : outcome (disjunction (text ++ ')' :: rest)) = outcome (disjunctionTail g (')' :: rest))) :
    outcome (unary ('(' :: (text ++ [')']) ++ rest)) = .ok (g, rest) := by
  have htext : '(' :: (text ++ [')']) ++ rest = '(' :: (text ++ ')' :: rest) := by simp
  have hskip : skipBlanks ('(' :: (text ++ ')' :: rest)) = '(' :: (text ++ ')' :: rest) :=
    skipBlanks_of_stops (stops_cons.mpr (by decide))
  rw [htext, outcome_unary_of_parenthesis hskip, h,
    outcome_disjunctionTail_of_none (endsDisjunction_close rest)]
  simp only [bind, Except.bind, skipBlanks_close, pure, Except.pure]

end Levels

namespace ReadsAs

variable {a b c d g read : Guard}

/-- A guard that needs parentheses nowhere. -/
theorem of_unary (hprecedence : 3 ≤ g.precedence)
    (h : ∀ {rest : List Char}, Follows rest →
      outcome (Guard.unary (g.chars ++ rest)) = .ok (read, rest)) :
    ReadsAs g read where
  unary hrest := by
    rw [enclosed_of_le hprecedence]
    exact h hrest
  conjunction hrest := by
    rw [enclosed_of_le (Nat.le_trans (by decide) hprecedence)]
    exact outcome_conjunction_of_unary (h hrest)
  disjunction hrest hend := by
    rw [enclosed_of_le (Nat.le_trans (by decide) hprecedence)]
    exact outcome_disjunction_of_conjunction (outcome_conjunction_of_unary (h hrest)) hend

/-- An atom starts with the first letter of its field. -/
theorem of_atom (hprecedence : 3 ≤ g.precedence) (hhead : ∃ more, g.chars = 'c' :: more)
    (h : ∀ {rest : List Char}, Follows rest →
      outcome (atom (g.chars ++ rest)) = .ok (read, rest)) :
    ReadsAs g read := by
  refine of_unary hprecedence fun {rest} hrest ↦ ?_
  obtain ⟨more, hmore⟩ := hhead
  have hlast : g.chars ++ rest = 'c' :: (more ++ rest) := by rw [hmore, List.cons_append]
  have hskip : skipBlanks (g.chars ++ rest) = g.chars ++ rest := by
    rw [hlast]
    exact skipBlanks_of_stops (stops_cons.mpr (by decide))
  have hnegation : ∀ other, skipBlanks (g.chars ++ rest) ≠ '!' :: other := by
    intro other hother
    rw [hskip, hlast] at hother
    exact absurd (List.cons.inj hother).1 (by decide)
  have hparenthesis : ∀ other, skipBlanks (g.chars ++ rest) ≠ '(' :: other := by
    intro other hother
    rw [hskip, hlast] at hother
    exact absurd (List.cons.inj hother).1 (by decide)
  rw [outcome_unary_of_atom hnegation hparenthesis, hskip]
  exact h hrest

theorem negated (h : ReadsAs a b) : ReadsAs (.negated a) (.negated b) := by
  refine of_unary (Nat.le_refl 3) fun {rest} hrest ↦ ?_
  have hskip : skipBlanks ('!' :: (enclosed 3 a a.chars ++ rest)) =
      '!' :: (enclosed 3 a a.chars ++ rest) :=
    skipBlanks_of_stops (stops_cons.mpr (by decide))
  have hread := outcome_unary_of_negation hskip
  rw [h.unary hrest] at hread
  exact hread

/-- Behind its left operand, a conjunction is read on. -/
theorem both (ha : ReadsAs a c) (hb : ReadsAs b d) : ReadsAs (.both a b) (.both c d) := by
  have hconjunction {rest : List Char} (hrest : Follows rest) :
      outcome (Guard.conjunction ((Guard.both a b).chars ++ rest)) =
        outcome (conjunctionTail (.both c d) rest) := by
    have htext : (Guard.both a b).chars ++ rest = enclosed 2 a a.chars ++
        (" && ".toList ++ (enclosed 3 b b.chars ++ rest)) := by
      simp [chars]
    rw [htext, ha.conjunction (.conjunct _),
      outcome_conjunctionTail_of_and (skipBlanks_conjunct _), outcome_unary_blank, hb.unary hrest]
    rfl
  have hparenthesised {rest : List Char} :
      outcome (Guard.unary ('(' :: ((Guard.both a b).chars ++ [')']) ++ rest)) =
        .ok (.both c d, rest) :=
    outcome_unary_parenthesised
      (outcome_disjunction_of_conjunction (hconjunction (.close rest)) (endsConjunction_close rest))
  refine ⟨fun hrest ↦ ?_, fun hrest ↦ ?_, fun hrest hend ↦ ?_⟩
  · rw [enclosed_of_lt (Nat.lt_succ_self 2)]
    exact hparenthesised
  · rw [enclosed_of_le (Nat.le_refl 2)]
    exact hconjunction hrest
  · rw [enclosed_of_le (precedence_pos _)]
    exact outcome_disjunction_of_conjunction (hconjunction hrest) hend

/-- Behind its left operand, a disjunction is read on. -/
theorem either (ha : ReadsAs a c) (hb : ReadsAs b d) : ReadsAs (.either a b) (.either c d) := by
  have hdisjunction {rest : List Char} (hrest : Follows rest) (hend : EndsConjunction rest) :
      outcome (Guard.disjunction ((Guard.either a b).chars ++ rest)) =
        outcome (disjunctionTail (.either c d) rest) := by
    have htext : (Guard.either a b).chars ++ rest = enclosed 1 a a.chars ++
        (" || ".toList ++ (enclosed 2 b b.chars ++ rest)) := by
      simp [chars]
    rw [htext, ha.disjunction (.disjunct _) (endsConjunction_disjunct _),
      outcome_disjunctionTail_of_or (skipBlanks_disjunct _), outcome_conjunction_blank,
      hb.conjunction hrest, outcome_conjunctionTail_of_none hend]
    rfl
  have hparenthesised {rest : List Char} :
      outcome (Guard.unary ('(' :: ((Guard.either a b).chars ++ [')']) ++ rest)) =
        .ok (.either c d, rest) :=
    outcome_unary_parenthesised (hdisjunction (.close rest) (endsConjunction_close rest))
  refine ⟨fun hrest ↦ ?_, fun hrest ↦ ?_, fun hrest hend ↦ ?_⟩
  · rw [enclosed_of_lt (Nat.lt_succ_of_lt (Nat.lt_succ_self 1))]
    exact hparenthesised
  · rw [enclosed_of_lt (Nat.lt_succ_self 1)]
    exact outcome_conjunction_of_unary hparenthesised
  · rw [enclosed_of_le (Nat.le_refl 1)]
    exact hdisjunction hrest hend

end ReadsAs

/-- Induction on the guard; the place of each operand decides what follows it. -/
theorem readsAs_rounded {g : Guard} (h : g.isExpressible) : ReadsAs g g.rounded := by
  induction g with
  | truthy f => exact .of_atom (Nat.le_succ 3) ⟨_, rfl⟩ (outcome_atom_truthy h)
  | equals f value =>
    obtain ⟨hfield, hvalue⟩ := Bool.and_eq_true_iff.mp h
    exact .of_atom (Nat.le_succ 3) ⟨_, rfl⟩ (outcome_atom_equals hfield hvalue)
  | differs f value =>
    obtain ⟨hfield, hvalue⟩ := Bool.and_eq_true_iff.mp h
    exact .of_atom (Nat.le_succ 3) ⟨_, rfl⟩ (outcome_atom_differs hfield hvalue)
  | compares f comparison bound =>
    obtain ⟨hfield, hfinite⟩ := Bool.and_eq_true_iff.mp h
    cases bound with
    | finite x =>
      exact .of_atom (Nat.le_succ 3) ⟨_, rfl⟩ (outcome_atom_compares hfield comparison x)
    | infinite negative => cases hfinite
    | notANumber => cases hfinite
  | both a b iha ihb =>
    obtain ⟨ha, hb⟩ := Bool.and_eq_true_iff.mp h
    exact .both (iha ha) (ihb hb)
  | either a b iha ihb =>
    obtain ⟨ha, hb⟩ := Bool.and_eq_true_iff.mp h
    exact .either (iha ha) (ihb hb)
  | negated a ih => exact .negated (ih h)

/-! ### Whole texts -/

/-- A canonical text starts with a field, an exclamation mark or a parenthesis. -/
theorem exists_cons_chars (g : Guard) :
    ∃ c more, g.chars = c :: more ∧ (c = 'c' ∨ c = '!' ∨ c = '(') := by
  have henclosed {g : Guard} (demand : Nat)
      (h : ∃ c more, g.chars = c :: more ∧ (c = 'c' ∨ c = '!' ∨ c = '(')) :
      ∃ c more, enclosed demand g g.chars = c :: more ∧ (c = 'c' ∨ c = '!' ∨ c = '(') := by
    unfold enclosed
    split
    · exact ⟨'(', _, rfl, by simp⟩
    · exact h
  induction g with
  | truthy f => exact ⟨'c', _, rfl, by simp⟩
  | equals f value => exact ⟨'c', _, rfl, by simp⟩
  | differs f value => exact ⟨'c', _, rfl, by simp⟩
  | compares f comparison bound => exact ⟨'c', _, rfl, by simp⟩
  | both a b iha _ =>
    obtain ⟨c, more, hhead, hc⟩ := henclosed 2 iha
    exact ⟨c, _, by rw [chars, hhead]; rfl, hc⟩
  | either a b iha _ =>
    obtain ⟨c, more, hhead, hc⟩ := henclosed 1 iha
    exact ⟨c, _, by rw [chars, hhead]; rfl, hc⟩
  | negated a _ => exact ⟨'!', _, rfl, by simp⟩

/-- The canonical text of a guard is read as the guard with its integers rounded. -/
theorem parse_text_rounded {g : Guard} (h : g.isExpressible) : parse g.text = .ok g.rounded := by
  have hread := (readsAs_rounded h).disjunction .finish endsConjunction_nil
  rw [outcome_disjunctionTail_of_none endsDisjunction_nil, enclosed_of_le (precedence_pos g),
    List.append_nil] at hread
  obtain ⟨hrest, hdisjunction⟩ := exists_of_outcome hread
  obtain ⟨c, more, hhead, hc⟩ := exists_cons_chars g
  have hskip : skipBlanks g.chars ≠ [] := by
    have hstops : Stops isBlank g.chars := by
      rw [hhead]
      rcases hc with rfl | rfl | rfl <;> exact stops_cons.mpr (by decide)
    rw [skipBlanks_of_stops hstops, hhead]
    exact List.cons_ne_nil c more
  have hchars : parseChars g.chars = .ok g.rounded := by
    have hnil : skipBlanks ([] : List Char) = [] := rfl
    simp only [parseChars, hskip, if_false, hdisjunction, hnil]
  simp only [parse, text, String.toList_ofList, hchars]

/-- A printable guard is read back from its canonical text. -/
theorem parse_text {g : Guard} (h : g.isPrintable) : parse g.text = .ok g := by
  rw [parse_text_rounded (isExpressible_of_isPrintable h), rounded_of_isPrintable h]

/-- Writing a guard down does not change its meaning: its text is read, and the guard that is read
holds in the same contexts, whatever integers the guard holds. -/
theorem exists_parse_text_evaluate_eq {g : Guard} (h : g.isExpressible) :
    ∃ read, parse g.text = .ok read ∧ ∀ context, read.evaluate context = g.evaluate context :=
  ⟨g.rounded, parse_text_rounded h, g.evaluate_rounded⟩

/-- Integers that are no doubles, and a text literal with brackets and escapes. -/
def oversized : Guard :=
  .negated (.both (.negated (.equals "n" (.number (.integer 9007199254740993 (by decide)))))
    (.either (.differs "a.b" (.number (.integer (-9223372036854775807) (by decide))))
      (.equals "s" (.string "]\"\\\n"))))

theorem exists_parse_text_oversized :
    oversized.text = "!(!ctx.n == 9007199254740993 && (ctx.a.b != -9223372036854775807 || " ++
      "ctx.s == \"]\\\"\\\\\\n\"))" ∧
    oversized.isExpressible ∧ ∃ read, parse oversized.text = .ok read ∧
      ∀ context, read.evaluate context = oversized.evaluate context :=
  ⟨by decide +kernel, by decide, exists_parse_text_evaluate_eq (by decide)⟩

end StateMachine.Guard
