import StateMachine.Proofs.Guard.Grammar
import StateMachine.Proofs.Text.Split

/-!
What the grammar of guards derives is read. Each reader takes from the text of a derivation, in
front of whatever may follow one, exactly that text, and gives what the derivation denotes: for
lexical elements `outcome_field_chars`, `outcome_literal_chars` and `outcome_number_chars`, for
atoms `outcome_atom_chars`, and for the levels of the grammar `Tree.reads`, by induction on the
tree.
-/

set_option autoImplicit false

namespace StateMachine

namespace Guard

open Numeric
open Text (Stops stops_nil stops_cons stops_append skipBlanks skipBlanks_of_stops skipBlanks_append
  isBlank)

/-! ### What may follow an operand -/

/-- The text ends, or behind blanks comes a parenthesis or the first half of a connective. -/
def EndsOperand (rest : List Char) : Prop :=
  ∀ c ∈ (skipBlanks rest).head?, c = ')' ∨ c = '&' ∨ c = '|'

namespace EndsOperand

variable {rest : List Char}

theorem nil : EndsOperand [] := by
  intro c hc
  cases hc

theorem of_blanks (blanks : Blanks) (h : EndsOperand rest) :
    EndsOperand (blanks.val ++ rest) := by
  rw [EndsOperand, skipBlanks_append blanks.2]
  exact h

theorem of_cons {c : Char} (h : c = ')' ∨ c = '&' ∨ c = '|') (rest : List Char) :
    EndsOperand (c :: rest) := by
  have hblank : isBlank c = false := by rcases h with rfl | rfl | rfl <;> decide
  intro d hd
  rw [skipBlanks_of_stops (stops_cons.mpr hblank)] at hd
  rw [← Option.some.inj hd]
  exact h

/-- What follows an operand continues none of its lexical elements. -/
theorem stops (h : EndsOperand rest) : Stops isPathChar rest := by
  cases rest with
  | nil => exact stops_nil
  | cons c rest =>
    refine stops_cons.mpr ?_
    by_cases hblank : isBlank c
    · exact not_isPathChar_of_isBlank hblank
    · rw [EndsOperand, skipBlanks_of_stops (stops_cons.mpr (by simpa using hblank))] at h
      rcases h c rfl with rfl | rfl | rfl <;> decide

theorem stops_continuesNumber (h : EndsOperand rest) : Stops continuesNumber rest :=
  h.stops.mono fun c hc ↦ by
    simp only [continuesNumber, Bool.or_eq_true, decide_eq_true_eq] at hc
    rcases hc with ((hdigit | rfl) | rfl) | rfl
    · simp [isPathChar, Char.isAlphanum, hdigit]
    · decide
    · decide
    · decide

theorem operator?_eq_none (h : EndsOperand rest) : operator? (skipBlanks rest) = none := by
  rw [EndsOperand] at h
  cases hskip : skipBlanks rest with
  | nil => rfl
  | cons c more =>
    rw [hskip] at h
    rcases h c rfl with rfl | rfl | rfl <;> rfl

end EndsOperand

/-! ### Lexical elements -/

theorem FieldPath.parts_name (p : FieldPath) : Text.parts '.' p.name.toList = p.parts := by
  rw [name, String.toList_ofList]
  refine Text.parts_join p.parts_ne_nil fun part hpart hdot ↦ ?_
  exact absurd (p.isPart part hpart '.' hdot) (by decide)

theorem FieldPath.isFieldPath_name (p : FieldPath) : isFieldPath p.name := by
  rw [isFieldPath, p.parts_name, List.all_eq_true]
  intro part hpart
  rw [Bool.and_eq_true, Bool.not_eq_true', List.isEmpty_eq_false_iff, List.all_eq_true]
  exact ⟨p.part_ne_nil part hpart, p.isPart part hpart⟩

/-- A field is read up to the end of its path. -/
theorem outcome_field_chars (p : FieldPath) {rest : List Char} (hrest : Stops isPathChar rest) :
    outcome (field (p.chars ++ rest)) = .ok (p.name, rest) :=
  outcome_field_fieldText p.isFieldPath_name hrest

theorem NumberLiteral.exists_chars_eq_cons (n : NumberLiteral) :
    ∃ c more, n.chars = c :: more ∧ startsNumber c := by
  obtain ⟨c, more, hcons, hc⟩ := NumberText.exists_cons_chars n.wellFormed
  refine ⟨c, more, hcons, ?_⟩
  rcases hc with hdigit | rfl | rfl
  · simp [startsNumber, hdigit]
  · decide
  · decide

/-- The characters between the quotes are read as the characters that are meant. -/
theorem literalBody_items (items : List TextItem) (rest : List Char) :
    ∃ h, literalBody (items.flatMap TextItem.chars ++ '"' :: rest) =
      .ok (items.map TextItem.char, ⟨rest, h⟩) := by
  induction items with
  | nil => exact ⟨_, rfl⟩
  | cons item items ih =>
    obtain ⟨h, hbody⟩ := ih
    rw [List.flatMap_cons, List.append_assoc]
    cases item with
    | plain c hquote hslash => exact literalBody_plain hquote hslash hbody
    | escape c stands hstands => exact literalBody_escape hstands hbody

/-- A literal is read in front of what may follow an operand. -/
theorem outcome_literal_chars (value : Value) {rest : List Char} (hrest : EndsOperand rest) :
    outcome (literal (value.chars ++ rest)) = .ok (value.json, rest) := by
  have hword : Stops Identifier.isPart rest := hrest.stops.mono fun c hc ↦ by
    simp only [Identifier.isPart] at hc
    simp [isPathChar, hc]
  cases value with
  | bool b =>
    cases b with
    | true => exact outcome_literal_true hword
    | false => exact outcome_literal_false hword
  | null => exact outcome_literal_null hword
  | text items =>
    have htext : (Value.text items).chars ++ rest =
        '"' :: (items.flatMap TextItem.chars ++ '"' :: rest) := by
      simp [Value.chars]
    rw [htext]
    exact outcome_literal_text (literalBody_items items rest)
  | number n =>
    obtain ⟨c, more, hcons, hc⟩ := n.exists_chars_eq_cons
    exact outcome_literal_number ⟨c, more ++ rest, congrArg (· ++ rest) hcons, hc⟩
      (outcome_number_chars n.wellFormed n.toDouble_eq hrest.stops_continuesNumber)

/-! ### Atoms -/

/-- What an operator is applied to starts neither with a blank nor with the rest of an operator. -/
def startsOperand (c : Char) : Bool :=
  !isBlank c && c ≠ '='

theorem startsOperand_of_startsNumber {c : Char} (h : startsNumber c) : startsOperand c := by
  have hequals : c ≠ '=' := by
    rintro rfl
    exact absurd h (by decide)
  simp [startsOperand, not_isBlank_of_startsNumber h, hequals]

theorem Value.exists_chars_eq_cons (value : Value) :
    ∃ c more, value.chars = c :: more ∧ startsOperand c := by
  cases value with
  | bool b => cases b <;> exact ⟨_, _, rfl, by decide⟩
  | null => exact ⟨'n', _, rfl, by decide⟩
  | text items => exact ⟨'"', _, rfl, by decide⟩
  | number n =>
    obtain ⟨c, more, hcons, hc⟩ := n.exists_chars_eq_cons
    exact ⟨c, more, hcons, startsOperand_of_startsNumber hc⟩

theorem outcome_atom_comparisonChars (field : FieldPath) (before : Blanks) (operator : Operator)
    (after : Blanks) {text : List Char} (h : ∃ c more, text = c :: more ∧ startsOperand c)
    (rest : List Char) :
    outcome (atom (Atom.comparisonChars field before operator after text ++ rest)) =
      outcome (operand field.name operator (text ++ rest)) := by
  obtain ⟨c, more, rfl, hc⟩ := h
  simp only [startsOperand, Bool.and_eq_true, Bool.not_eq_true', decide_eq_true_eq] at hc
  have hafter : ∀ c ∈ after.val, decide (c = '=') = false := fun c hmem ↦
    decide_eq_false fun hequals ↦ absurd (after.2 c hmem) (by rw [hequals]; decide)
  have hblank : Stops isBlank (c :: more ++ rest) := stops_cons.mpr hc.1
  have hequals : Stops (fun c ↦ c = '=') (after.val ++ (c :: more ++ rest)) :=
    stops_append hafter (stops_cons.mpr (decide_eq_false hc.2))
  have htext : Atom.comparisonChars field before operator after (c :: more) ++ rest =
      fieldText field.name ++
        (before.val ++ (operator.symbol ++ (after.val ++ (c :: more ++ rest)))) := by
    simp only [Atom.comparisonChars, FieldPath.chars, List.append_assoc]
  rw [htext, outcome_atom_operator field.isFieldPath_name operator before.2 after.2 hblank hequals]

/-- An atom is read in front of what may follow an operand. -/
theorem outcome_atom_chars (a : Atom) {rest : List Char} (hrest : EndsOperand rest) :
    outcome (atom (a.chars ++ rest)) = .ok (a.guard, rest) := by
  cases a with
  | truthy field =>
    exact outcome_atom_of_none (outcome_field_chars field hrest.stops) hrest.operator?_eq_none
  | equals field before after value =>
    rw [Atom.chars, outcome_atom_comparisonChars _ _ _ _ value.exists_chars_eq_cons,
      outcome_operand_equals, outcome_literal_chars value hrest]
    rfl
  | differs field before after value =>
    rw [Atom.chars, outcome_atom_comparisonChars _ _ _ _ value.exists_chars_eq_cons,
      outcome_operand_differs, outcome_literal_chars value hrest]
    rfl
  | compares field before comparison after bound =>
    obtain ⟨c, more, hcons, hc⟩ := bound.exists_chars_eq_cons
    rw [Atom.chars, outcome_atom_comparisonChars _ _ _ _
      ⟨c, more, hcons, startsOperand_of_startsNumber hc⟩, outcome_operand_compares,
      NumberLiteral.chars, outcome_number_chars bound.wellFormed bound.toDouble_eq
        hrest.stops_continuesNumber]
    rfl

theorem Atom.exists_chars_eq_cons (a : Atom) : ∃ more, a.chars = 'c' :: more := by
  cases a <;> exact ⟨_, rfl⟩

/-! ### Levels -/

/-- What may follow a derivation of a level: nothing that the level itself would go on with. -/
def Level.Ends : Level → List Char → Prop
  | .unary, rest => EndsOperand rest
  | .conjunction, rest | .conjunctionTail, rest => EndsOperand rest ∧ EndsConjunction rest
  | .disjunction, rest | .disjunctionTail, rest =>
    EndsOperand rest ∧ EndsConjunction rest ∧ EndsDisjunction rest

/-- The reader of the level takes the text of the tree and gives its meaning. -/
def Tree.Reads : {level : Level} → Tree level → Prop
  | .unary, t => ∀ rest, Level.unary.Ends rest →
    outcome (Guard.unary (t.chars ++ rest)) = .ok (t.meaning, rest)
  | .conjunction, t => ∀ rest, Level.conjunction.Ends rest →
    outcome (Guard.conjunction (t.chars ++ rest)) = .ok (t.meaning, rest)
  | .conjunctionTail, t => ∀ left rest, Level.conjunctionTail.Ends rest →
    outcome (Guard.conjunctionTail left (t.chars ++ rest)) = .ok (t.meaning left, rest)
  | .disjunction, t => ∀ rest, Level.disjunction.Ends rest →
    outcome (Guard.disjunction (t.chars ++ rest)) = .ok (t.meaning, rest)
  | .disjunctionTail, t => ∀ left rest, Level.disjunctionTail.Ends rest →
    outcome (Guard.disjunctionTail left (t.chars ++ rest)) = .ok (t.meaning left, rest)

section Ends

variable {rest : List Char}

theorem skipBlanks_append_cons (blanks : Blanks) {c : Char} (hc : isBlank c = false)
    (rest : List Char) : skipBlanks (blanks.val ++ c :: rest) = c :: rest := by
  rw [skipBlanks_append blanks.2, skipBlanks_of_stops (stops_cons.mpr hc)]

theorem skipBlanks_blanks (blanks : Blanks) : skipBlanks blanks.val = [] := by
  rw [← List.append_nil blanks.val, skipBlanks_append blanks.2]
  rfl

theorem ends_close (close : Blanks) (rest : List Char) :
    Level.disjunction.Ends (close.val ++ ')' :: rest) := by
  have hskip := skipBlanks_append_cons close (by decide : isBlank ')' = false) rest
  refine ⟨(EndsOperand.of_cons (by decide) rest).of_blanks close, ?_, ?_⟩ <;>
  · intro more hmore
    rw [hskip] at hmore
    cases hmore

theorem ends_blanks (after : Blanks) : Level.disjunction.Ends after.val := by
  have hskip := skipBlanks_blanks after
  refine ⟨?_, ?_, ?_⟩
  · intro c hc
    rw [hskip] at hc
    cases hc
  · intro more hmore
    rw [hskip] at hmore
    cases hmore
  · intro more hmore
    rw [hskip] at hmore
    cases hmore

/-- Further conjuncts may follow an operand. -/
theorem Tree.endsOperand_conjuncts (t : Tree .conjunctionTail) (hrest : EndsOperand rest) :
    EndsOperand (t.chars ++ rest) := by
  cases t with
  | noConjunct => exact hrest
  | conjunct before next more =>
    rw [chars, List.append_assoc]
    exact (EndsOperand.of_cons (by decide) _).of_blanks before

/-- Further disjuncts may follow a conjunction. -/
theorem Tree.ends_disjuncts (t : Tree .disjunctionTail) (hrest : Level.conjunction.Ends rest) :
    Level.conjunction.Ends (t.chars ++ rest) := by
  cases t with
  | noDisjunct => exact hrest
  | disjunct before next more =>
    rw [chars, List.append_assoc]
    refine ⟨(EndsOperand.of_cons (by decide) _).of_blanks before, ?_⟩
    intro more hmore
    rw [List.cons_append, skipBlanks_append_cons before (by decide)] at hmore
    cases hmore

end Ends

/-- By induction on the tree, each reader takes exactly the text of a derivation of its level. -/
theorem Tree.reads {level : Level} (t : Tree level) : t.Reads := by
  induction t with
  | atom before content =>
    intro rest hrest
    obtain ⟨more, hcons⟩ := content.exists_chars_eq_cons
    have hskip : skipBlanks (chars (.atom before content) ++ rest) = 'c' :: (more ++ rest) := by
      rw [chars, List.append_assoc, hcons]
      exact skipBlanks_append_cons before (by decide) _
    have hnegation : ∀ other, skipBlanks (chars (.atom before content) ++ rest) ≠ '!' :: other := by
      intro other hother
      rw [hskip] at hother
      cases hother
    have hgroup : ∀ other, skipBlanks (chars (.atom before content) ++ rest) ≠ '(' :: other := by
      intro other hother
      rw [hskip] at hother
      cases hother
    rw [outcome_unary_of_atom hnegation hgroup, hskip, ← List.cons_append, ← hcons]
    exact outcome_atom_chars content hrest
  | negated before inner ih =>
    intro rest hrest
    have hskip : skipBlanks (chars (.negated before inner) ++ rest) =
        '!' :: (inner.chars ++ rest) := by
      rw [chars, List.append_assoc]
      exact skipBlanks_append_cons before (by decide) _
    rw [outcome_unary_of_negation hskip, ih rest hrest]
    rfl
  | group before inner close ih =>
    intro rest hrest
    have hskip : skipBlanks (chars (.group before inner close) ++ rest) =
        '(' :: (inner.chars ++ (close.val ++ ')' :: rest)) := by
      simp only [chars, List.append_assoc, List.cons_append, List.nil_append]
      exact skipBlanks_append_cons before (by decide) _
    rw [outcome_unary_of_parenthesis hskip, ih _ (ends_close close rest)]
    simp only [bind, Except.bind, skipBlanks_append_cons close (by decide : isBlank ')' = false)]
    rfl
  | conjunction first more ihfirst ihmore =>
    intro rest hrest
    rw [chars, List.append_assoc, outcome_conjunction,
      ihfirst _ (more.endsOperand_conjuncts hrest.1)]
    exact ihmore _ rest hrest
  | noConjunct =>
    intro left rest hrest
    exact outcome_conjunctionTail_of_none hrest.2
  | conjunct before next more ihnext ihmore =>
    intro left rest hrest
    have hskip : skipBlanks (chars (.conjunct before next more) ++ rest) =
        '&' :: '&' :: (next.chars ++ (more.chars ++ rest)) := by
      simp only [chars, List.append_assoc, List.cons_append]
      exact skipBlanks_append_cons before (by decide) _
    rw [outcome_conjunctionTail_of_and hskip, ihnext _ (more.endsOperand_conjuncts hrest.1)]
    exact ihmore _ rest hrest
  | disjunction first more ihfirst ihmore =>
    intro rest hrest
    rw [chars, List.append_assoc, outcome_disjunction,
      ihfirst _ (more.ends_disjuncts ⟨hrest.1, hrest.2.1⟩)]
    exact ihmore _ rest hrest
  | noDisjunct =>
    intro left rest hrest
    exact outcome_disjunctionTail_of_none hrest.2.2
  | disjunct before next more ihnext ihmore =>
    intro left rest hrest
    have hskip : skipBlanks (chars (.disjunct before next more) ++ rest) =
        '|' :: '|' :: (next.chars ++ (more.chars ++ rest)) := by
      simp only [chars, List.append_assoc, List.cons_append]
      exact skipBlanks_append_cons before (by decide) _
    rw [outcome_disjunctionTail_of_or hskip, ihnext _ (more.ends_disjuncts ⟨hrest.1, hrest.2.1⟩)]
    exact ihmore _ rest hrest

end Guard

end StateMachine
