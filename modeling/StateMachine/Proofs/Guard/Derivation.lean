import StateMachine.Proofs.Guard.Accepted
import StateMachine.Proofs.Guard.Grammar

/-!
What is read as a guard has a derivation. Whatever a reader takes from a text is the text of a
derivation of its level, and what it gives is what that derivation denotes: `exists_fieldPath`,
`exists_value` and `exists_atom` for the parts without connectives, then `exists_disjunction` and
the other levels together, as the readers call each other.
-/

set_option autoImplicit false

namespace StateMachine.Guard

open Numeric
open Text (skipBlanks isBlank lt_of_dropWhile_eq_cons)

variable {text rest : List Char} {f : String} {g : Guard}

/-! ### Blanks -/

/-- The blanks that a text starts with. -/
def Blanks.leading (text : List Char) : Blanks :=
  ⟨text.takeWhile isBlank, List.all_eq_true.mp List.all_takeWhile⟩

theorem Blanks.leading_append (text : List Char) :
    (Blanks.leading text).val ++ skipBlanks text = text :=
  List.takeWhile_append_dropWhile

theorem Blanks.leading_append_of_eq (h : skipBlanks text = rest) :
    (Blanks.leading text).val ++ rest = text := by
  rw [← h, leading_append]

/-! ### Lexical elements -/

theorem text_of_field (h : outcome (field text) = .ok (f, rest)) : fieldText f ++ rest = text := by
  unfold field at h
  split at h
  · next tail =>
    dsimp only at h
    split at h
    · cases h
    · split at h
      · cases h
      · cases h
        have hpath : (String.ofList (tail.takeWhile isPathChar)).toList =
            tail.takeWhile isPathChar := String.toList_ofList
        rw [fieldText, List.append_assoc, hpath]
        exact congrArg ("ctx.".toList ++ ·) List.takeWhile_append_dropWhile
  · cases h

/-- The path that a name is made of. -/
def FieldPath.ofName (f : String) (h : isFieldPath f) : FieldPath where
  parts := Text.parts '.' f.toList
  parts_ne_nil := Text.parts_ne_nil '.' f.toList
  part_ne_nil := fun part hpart ↦ by
    have hall := List.all_eq_true.mp h part hpart
    rw [Bool.and_eq_true, Bool.not_eq_true', List.isEmpty_eq_false_iff] at hall
    exact hall.1
  isPart := fun part hpart ↦ by
    have hall := List.all_eq_true.mp h part hpart
    rw [Bool.and_eq_true, List.all_eq_true] at hall
    exact hall.2

theorem exists_fieldPath (h : outcome (field text) = .ok (f, rest)) :
    ∃ p : FieldPath, p.name = f ∧ p.chars ++ rest = text := by
  have hname : (FieldPath.ofName f (isFieldPath_of_field h)).name = f := by
    rw [FieldPath.name, FieldPath.ofName, Text.join_parts, String.ofList_toList]
  refine ⟨_, hname, ?_⟩
  rw [FieldPath.chars, hname]
  exact text_of_field h

theorem exists_numberLiteral {x : FiniteDouble} (h : outcome (number text) = .ok (x, rest)) :
    ∃ n : NumberLiteral, n.value = x ∧ n.chars ++ rest = text := by
  unfold number at h
  split at h
  next n left hsplit =>
  split at h
  · next hvalid =>
    split at h
    · next y hy =>
      cases h
      have happend := NumberText.chars_split_append text
      have hwellFormed := @NumberText.wellFormed_split text
      rw [hsplit] at happend hwellFormed
      exact ⟨⟨n, hwellFormed hvalid, _, hy⟩, rfl, happend⟩
    · cases h
  · cases h

theorem exists_items {s : List Char} {last : Text.Shorter text}
    (h : literalBody text = .ok (s, last)) :
    ∃ items : List TextItem, items.map TextItem.char = s ∧
      items.flatMap TextItem.chars ++ '"' :: last.1 = text := by
  fun_induction literalBody text generalizing s with
  | case1 => cases h
  | case2 rest =>
    cases h
    exact ⟨[], rfl, rfl⟩
  | case3 => cases h
  | case4 => cases h
  | case5 => cases h
  | case6 c rest stands hstands body after hbody ih =>
    cases h
    obtain ⟨items, hchars, htext⟩ := ih hbody
    refine ⟨.escape c stands hstands :: items, ?_, ?_⟩
    · rw [List.map_cons, hchars]
      rfl
    · rw [List.flatMap_cons, List.append_assoc, htext]
      rfl
  | case7 => cases h
  | case8 c rest hquote hlone hescape body after hbody ih =>
    cases h
    obtain ⟨items, hchars, htext⟩ := ih hbody
    have hslash : c ≠ '\\' := by
      rintro rfl
      cases rest with
      | nil => exact hlone rfl rfl
      | cons d more => exact hescape d more rfl rfl
    refine ⟨.plain c hquote hslash :: items, ?_, ?_⟩
    · rw [List.map_cons, hchars]
      rfl
    · rw [List.flatMap_cons, List.append_assoc, htext]
      rfl

theorem text_of_afterWord? {word : List Char} (h : afterWord? word text = some rest) :
    word ++ rest = text := by
  unfold afterWord? at h
  split at h
  · next hcondition =>
    cases h
    rw [Bool.and_eq_true] at hcondition
    exact List.prefix_iff_eq_append.mp (List.isPrefixOf_iff_prefix.mp hcondition.1)
  · cases h

theorem exists_value {v : Json} (h : outcome (literal text) = .ok (v, rest)) :
    ∃ value : Value, value.json = v ∧ value.chars ++ rest = text := by
  rw [outcome_literal] at h
  split at h
  · next hword =>
    cases h
    exact ⟨.bool true, rfl, text_of_afterWord? hword⟩
  · next hword =>
    cases h
    exact ⟨.bool false, rfl, text_of_afterWord? hword⟩
  · next hword =>
    cases h
    exact ⟨.null, rfl, text_of_afterWord? hword⟩
  · unfold valueOutcome textOutcome numberOutcome at h
    split at h
    · split at h
      · next body s last hbody =>
        cases h
        obtain ⟨items, hchars, htext⟩ := exists_items hbody
        refine ⟨.text items, by rw [Value.json, hchars], ?_⟩
        have hquoted : (Value.text items).chars ++ last.1 =
            '"' :: (items.flatMap TextItem.chars ++ '"' :: last.1) := by
          simp [Value.chars]
        exact hquoted.trans (congrArg ('"' :: ·) htext)
      · cases h
      · cases h
    · obtain ⟨⟨x, last⟩, hnumber, hresult⟩ := bind_eq_ok.mp h
      cases hresult
      obtain ⟨n, rfl, htext⟩ := exists_numberLiteral hnumber
      exact ⟨.number n, rfl, htext⟩

/-! ### Atoms -/

theorem symbol_of_operator? {operator : Operator} {after : Text.Shorter text}
    (h : operator? text = some (operator, after)) : operator.symbol ++ after.1 = text := by
  unfold operator? at h
  split at h <;> cases h <;> rfl

/-- A field, an operator and an operand are the text they were read from. -/
theorem comparisonChars_append (field : FieldPath) {operator : Operator} {last operand : List Char}
    {after : Text.Shorter (skipBlanks last)} (htext : field.chars ++ last = text)
    (hoperator : operator? (skipBlanks last) = some (operator, after))
    (hoperand : operand ++ rest = skipBlanks after.1) :
    Atom.comparisonChars field (.leading last) operator (.leading after.1) operand ++ rest =
      text := by
  simp only [Atom.comparisonChars, List.append_assoc, hoperand, Blanks.leading_append,
    symbol_of_operator? hoperator, htext]

theorem exists_atom (h : outcome (atom text) = .ok (g, rest)) :
    ∃ a : Atom, a.guard = g ∧ a.chars ++ rest = text := by
  cases hfield : outcome (field text) with
  | error failure =>
    rw [outcome_atom_of_error hfield] at h
    cases h
  | ok result =>
    obtain ⟨name, last⟩ := result
    obtain ⟨p, rfl, htext⟩ := exists_fieldPath hfield
    cases hoperator : operator? (skipBlanks last) with
    | none =>
      rw [outcome_atom_of_none hfield hoperator] at h
      cases h
      exact ⟨.truthy p, rfl, htext⟩
    | some found =>
      obtain ⟨operator, after⟩ := found
      rw [outcome_atom_of_some hfield hoperator] at h
      cases operator with
      | equals =>
        rw [outcome_operand_equals] at h
        obtain ⟨⟨v, final⟩, hliteral, hresult⟩ := bind_eq_ok.mp h
        cases hresult
        obtain ⟨value, rfl, hvalue⟩ := exists_value hliteral
        exact ⟨.equals p (.leading last) (.leading after.1) value, rfl,
          comparisonChars_append p htext hoperator hvalue⟩
      | differs =>
        rw [outcome_operand_differs] at h
        obtain ⟨⟨v, final⟩, hliteral, hresult⟩ := bind_eq_ok.mp h
        cases hresult
        obtain ⟨value, rfl, hvalue⟩ := exists_value hliteral
        exact ⟨.differs p (.leading last) (.leading after.1) value, rfl,
          comparisonChars_append p htext hoperator hvalue⟩
      | compares comparison =>
        rw [outcome_operand_compares] at h
        obtain ⟨⟨x, final⟩, hnumber, hresult⟩ := bind_eq_ok.mp h
        cases hresult
        obtain ⟨n, rfl, hbound⟩ := exists_numberLiteral hnumber
        exact ⟨.compares p (.leading last) comparison (.leading after.1) n, rfl,
          comparisonChars_append p htext hoperator hbound⟩

/-! ### Levels -/

mutual

theorem exists_unary {text : List Char} {g : Guard} {rest}
    (h : unary text = .ok (g, rest)) :
    ∃ t : Tree .unary, t.meaning = g ∧ t.chars ++ rest.1 = text := by
  rw [unary] at h
  split at h
  · next tail hskip =>
    have hshorter : tail.length < text.length := lt_of_dropWhile_eq_cons hskip
    split at h
    · cases h
    · next inner last hinner =>
      cases h
      obtain ⟨t, rfl, htext⟩ := exists_unary hinner
      refine ⟨.negated (.leading text) t, rfl, ?_⟩
      rw [Tree.chars, List.append_assoc, List.cons_append, htext]
      exact Blanks.leading_append_of_eq hskip
  · next tail hskip =>
    have hshorter : tail.length < text.length := lt_of_dropWhile_eq_cons hskip
    split at h
    · cases h
    · next inner last hinner =>
      split at h
      · next after hclose =>
        cases h
        obtain ⟨t, rfl, htext⟩ := exists_disjunction hinner
        refine ⟨.group (.leading text) t (.leading last.1), rfl, ?_⟩
        have hlast : (Blanks.leading last.1).val ++ ')' :: after = last.1 :=
          Blanks.leading_append_of_eq hclose
        simp only [Tree.chars, List.append_assoc, List.cons_append, List.nil_append, hlast, htext]
        exact Blanks.leading_append_of_eq hskip
      · cases h
  · have hatom := congrArg outcome h
    rw [outcome_widen] at hatom
    obtain ⟨a, rfl, htext⟩ := exists_atom hatom
    refine ⟨.atom (.leading text) a, rfl, ?_⟩
    rw [Tree.chars, List.append_assoc, htext, Blanks.leading_append]
termination_by (text.length, 0)

theorem exists_conjunction {text : List Char} {g : Guard} {rest}
    (h : conjunction text = .ok (g, rest)) :
    ∃ t : Tree .conjunction, t.meaning = g ∧ t.chars ++ rest.1 = text := by
  rw [conjunction] at h
  split at h
  · cases h
  · next first last hfirst =>
    have hshorter := last.2
    split at h
    · cases h
    · next guard final hfinal =>
      cases h
      obtain ⟨t, rfl, htext⟩ := exists_unary hfirst
      obtain ⟨more, rfl, hmore⟩ := exists_conjunctionTail hfinal
      refine ⟨.conjunction t more, rfl, ?_⟩
      rw [Tree.chars, List.append_assoc, hmore, htext]
termination_by (text.length, 1)

theorem exists_conjunctionTail {left : Guard} {text : List Char} {g : Guard} {rest}
    (h : conjunctionTail left text = .ok (g, rest)) :
    ∃ t : Tree .conjunctionTail, t.meaning left = g ∧ t.chars ++ rest.1 = text := by
  rw [conjunctionTail] at h
  split at h
  · next tail hskip =>
    have hshorter : tail.length + 1 < text.length := lt_of_dropWhile_eq_cons hskip
    split at h
    · cases h
    · next right after hright =>
      have hafter := after.2
      split at h
      · cases h
      · next guard final hfinal =>
        cases h
        obtain ⟨next, rfl, hnext⟩ := exists_unary hright
        obtain ⟨more, rfl, hmore⟩ := exists_conjunctionTail hfinal
        refine ⟨.conjunct (.leading text) next more, rfl, ?_⟩
        simp only [Tree.chars, List.append_assoc, List.cons_append, hmore, hnext]
        exact Blanks.leading_append_of_eq hskip
  · cases h
    exact ⟨.noConjunct, rfl, rfl⟩
termination_by (text.length, 1)

theorem exists_disjunction {text : List Char} {g : Guard} {rest}
    (h : disjunction text = .ok (g, rest)) :
    ∃ t : Tree .disjunction, t.meaning = g ∧ t.chars ++ rest.1 = text := by
  rw [disjunction] at h
  split at h
  · cases h
  · next first last hfirst =>
    have hshorter := last.2
    split at h
    · cases h
    · next guard final hfinal =>
      cases h
      obtain ⟨t, rfl, htext⟩ := exists_conjunction hfirst
      obtain ⟨more, rfl, hmore⟩ := exists_disjunctionTail hfinal
      refine ⟨.disjunction t more, rfl, ?_⟩
      rw [Tree.chars, List.append_assoc, hmore, htext]
termination_by (text.length, 2)

theorem exists_disjunctionTail {left : Guard} {text : List Char} {g : Guard} {rest}
    (h : disjunctionTail left text = .ok (g, rest)) :
    ∃ t : Tree .disjunctionTail, t.meaning left = g ∧ t.chars ++ rest.1 = text := by
  rw [disjunctionTail] at h
  split at h
  · next tail hskip =>
    have hshorter : tail.length + 1 < text.length := lt_of_dropWhile_eq_cons hskip
    split at h
    · cases h
    · next right after hright =>
      have hafter := after.2
      split at h
      · cases h
      · next guard final hfinal =>
        cases h
        obtain ⟨next, rfl, hnext⟩ := exists_conjunction hright
        obtain ⟨more, rfl, hmore⟩ := exists_disjunctionTail hfinal
        refine ⟨.disjunct (.leading text) next more, rfl, ?_⟩
        simp only [Tree.chars, List.append_assoc, List.cons_append, hmore, hnext]
        exact Blanks.leading_append_of_eq hskip
  · cases h
    exact ⟨.noDisjunct, rfl, rfl⟩
termination_by (text.length, 2)

end

/-- A text that is read has a derivation of what was read. -/
theorem exists_derivation {s : String} (h : parse s = .ok g) :
    ∃ d : Derivation, d.text = s ∧ d.guard = g := by
  unfold parse parseChars at h
  split at h
  · next guard hchars =>
    cases h
    split at hchars
    · cases hchars
    · split at hchars
      · cases hchars
      · next guard last hguard =>
        split at hchars
        · next hend =>
          cases hchars
          obtain ⟨t, rfl, htext⟩ := exists_disjunction hguard
          refine ⟨⟨t, .leading last.1⟩, ?_, rfl⟩
          have hlast : (Blanks.leading last.1).val = last.1 := by
            rw [← List.append_nil (Blanks.leading last.1).val]
            exact Blanks.leading_append_of_eq hend
          rw [Derivation.text, hlast, htext, String.ofList_toList]
        · cases hchars
  · cases h

end StateMachine.Guard
