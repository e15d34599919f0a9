import StateMachine.Proofs.Guard.Derivation
import StateMachine.Proofs.Guard.Recognition
import StateMachine.Proofs.Token.Scan

/-!
Guards between brackets. Where a guard ends is decided twice: the scanner stops at the first bracket
outside quotes, and the reader of guards goes by its grammar. Whatever the grammar derives is
balanced (`Derivation.isBalanced`), so both agree: a text of one line that is read as a guard is
what the scanner takes from between brackets (`isGuardText_of_parse`). The canonical text of a
printable guard is one of them (`guardBody_chars`).
-/

set_option autoImplicit false

namespace StateMachine.Guard

open Numeric
open Token (IsBalanced IsGuardText QuotedItem guardBody guardBody_eq_some_iff)

/-! ### Lexical elements -/

theorem Blanks.isBalanced (blanks : Blanks) : IsBalanced blanks.val :=
  .of_class (by decide) (by decide) blanks.property

theorem FieldPath.isBalanced (p : FieldPath) : IsBalanced p.chars :=
  .append (.of_class (by decide) (by decide)
      (List.all_eq_true.mp (by decide : "ctx.".toList.all isPathChar)))
    (.of_class (by decide) (by decide) (isPathChar_of_isFieldPath p.isFieldPath_name))

theorem NumberLiteral.isBalanced (n : NumberLiteral) : IsBalanced n.chars :=
  .of_class (by decide) (by decide) (NumberText.isNumberChar_of_mem n.wellFormed)

/-- The scanner knows no list of escapes, so it passes over those of a guard too. -/
def TextItem.quotedItem : TextItem → QuotedItem
  | .plain c hquote hslash => .plain c hquote hslash
  | .escape c _ _ => .escape c

theorem TextItem.chars_quotedItem (item : TextItem) : item.quotedItem.chars = item.chars := by
  cases item <;> rfl

theorem Value.isBalanced (value : Value) : IsBalanced value.chars := by
  have hword {word : List Char} (h : word.all isPathChar) : IsBalanced word :=
    .of_class (by decide) (by decide) (List.all_eq_true.mp h)
  cases value with
  | bool b => cases b <;> exact hword (by decide)
  | null => exact hword (by decide)
  | text items =>
    refine ⟨[.quoted (items.map TextItem.quotedItem)], ?_⟩
    simp [Token.GuardItem.chars, Value.chars, List.flatMap_map, TextItem.chars_quotedItem]
  | number n => exact n.isBalanced

theorem Operator.isBalanced (operator : Operator) : IsBalanced operator.symbol := by
  have hsymbol : operator.symbol.all fun c ↦ c ≠ '"' && c ≠ ']' := by
    cases operator with
    | equals | differs => decide
    | compares comparison => cases comparison <;> decide
  exact .of_class (by decide) (by decide) (List.all_eq_true.mp hsymbol)

/-! ### Trees -/

theorem Atom.isBalanced (a : Atom) : IsBalanced a.chars := by
  have hcomparison (field : FieldPath) (before : Blanks) (operator : Operator) (after : Blanks)
      {operand : List Char} (h : IsBalanced operand) :
      IsBalanced (comparisonChars field before operator after operand) :=
    field.isBalanced.append (before.isBalanced.append
      (operator.isBalanced.append (after.isBalanced.append h)))
  cases a with
  | truthy field => exact field.isBalanced
  | equals field before after value => exact hcomparison field before _ after value.isBalanced
  | differs field before after value => exact hcomparison field before _ after value.isBalanced
  | compares field before comparison after bound =>
    exact hcomparison field before _ after bound.isBalanced

theorem Tree.isBalanced {level : Level} (t : Tree level) : IsBalanced t.chars := by
  induction t with
  | atom before content => exact before.isBalanced.append content.isBalanced
  | negated before _ ih => exact before.isBalanced.append (ih.plain (by decide) (by decide))
  | group before _ close ih =>
    have hclose : IsBalanced [')'] := IsBalanced.nil.plain (by decide) (by decide)
    exact before.isBalanced.append
      ((ih.append (close.isBalanced.append hclose)).plain (by decide) (by decide))
  | conjunction _ _ ih ihmore => exact ih.append ihmore
  | noConjunct => exact .nil
  | conjunct before _ _ ih ihmore =>
    exact before.isBalanced.append
      (((ih.append ihmore).plain (by decide) (by decide)).plain (by decide) (by decide))
  | disjunction _ _ ih ihmore => exact ih.append ihmore
  | noDisjunct => exact .nil
  | disjunct before _ _ ih ihmore =>
    exact before.isBalanced.append
      (((ih.append ihmore).plain (by decide) (by decide)).plain (by decide) (by decide))

theorem Derivation.isBalanced (d : Derivation) : IsBalanced d.text.toList := by
  rw [text, String.toList_ofList]
  exact d.tree.isBalanced.append d.after.isBalanced

/-- A text of one line that is read as a guard may stand between brackets. -/
theorem isGuardText_of_parse {t : String} {g : Guard} (hline : '\n' ∉ t.toList)
    (h : parse t = .ok g) : IsGuardText t.toList := by
  obtain ⟨d, rfl, -⟩ := exists_derivation h
  exact ⟨hline, d.isBalanced⟩

/-! ### Canonical texts -/

theorem newline_notMem_of_class {p : Char → Bool} {text : List Char} (hp : p '\n' = false)
    (h : ∀ c ∈ text, p c) : '\n' ∉ text := fun hmem ↦
  Bool.false_ne_true (hp.symm.trans (h '\n' hmem))

theorem newline_notMem_finiteText (style : NumeralStyle) (x : FiniteDouble) :
    '\n' ∉ style.finiteText x := by
  rw [← NumberText.chars_ofNumeral]
  exact newline_notMem_of_class (by decide)
    (NumberText.isNumberChar_of_mem (NumberText.ofNumeral_wellFormed style x))

theorem newline_notMem_fieldText {f : String} (h : isFieldPath f) : '\n' ∉ fieldText f :=
  List.not_mem_append (by decide)
    (newline_notMem_of_class (by decide) (isPathChar_of_isFieldPath h))

theorem newline_notMem_escaped (c : Char) : '\n' ∉ escaped c := by
  rcases escaped_cases c with ⟨hescaped, -, -, hnewline⟩ | ⟨d, hescaped, hplain⟩
  · rw [hescaped, List.mem_singleton]
    exact hnewline.symm
  · have hnewline : d ≠ '\n' := by
      rintro rfl
      cases hplain
    simp [hescaped, hnewline.symm]

theorem newline_notMem_literalText {value : Json} (h : isLiteral value) :
    '\n' ∉ literalText value := by
  cases value with
  | null => decide
  | bool b => cases b <;> decide
  | string s =>
    simp [literalText, newline_notMem_escaped]
  | number n =>
    cases n with
    | integer value inRange => cases h
    | double x => exact newline_notMem_finiteText NumeralStyle.json x
  | array items => cases h
  | object members => cases h

theorem newline_notMem_enclosed {g : Guard} {text : List Char} (h : '\n' ∉ text) (demand : Nat) :
    '\n' ∉ enclosed demand g text := by
  unfold enclosed
  split
  · simpa using h
  · exact h

/-- A canonical text is one line. -/
theorem newline_notMem_chars {g : Guard} (h : g.isPrintable) : '\n' ∉ g.chars := by
  induction g with
  | truthy f => exact newline_notMem_fieldText h
  | equals f value =>
    obtain ⟨hfield, hvalue⟩ := Bool.and_eq_true_iff.mp h
    simp [chars, newline_notMem_fieldText hfield, newline_notMem_literalText hvalue]
  | differs f value =>
    obtain ⟨hfield, hvalue⟩ := Bool.and_eq_true_iff.mp h
    simp [chars, newline_notMem_fieldText hfield, newline_notMem_literalText hvalue]
  | compares f comparison bound =>
    obtain ⟨hfield, hfinite⟩ := Bool.and_eq_true_iff.mp h
    have hsymbol : '\n' ∉ comparison.symbol := by cases comparison <;> decide
    cases bound with
    | finite x =>
      simp [chars, NumeralStyle.text, newline_notMem_fieldText hfield, hsymbol,
        newline_notMem_finiteText]
    | infinite negative => cases hfinite
    | notANumber => cases hfinite
  | both a b iha ihb =>
    obtain ⟨ha, hb⟩ := Bool.and_eq_true_iff.mp h
    simp [chars, newline_notMem_enclosed (iha ha), newline_notMem_enclosed (ihb hb)]
  | either a b iha ihb =>
    obtain ⟨ha, hb⟩ := Bool.and_eq_true_iff.mp h
    simp [chars, newline_notMem_enclosed (iha ha), newline_notMem_enclosed (ihb hb)]
  | negated a ih => simp [chars, newline_notMem_enclosed (ih h)]

/-- The text of a printable guard is read up to the bracket behind it. -/
theorem guardBody_chars {g : Guard} (h : g.isPrintable) (rest : List Char) :
    guardBody false (g.chars ++ ']' :: rest) = some (g.chars, rest) := by
  have htext : g.text.toList = g.chars := String.toList_ofList
  have hline : '\n' ∉ g.text.toList := by
    rw [htext]
    exact newline_notMem_chars h
  have hguard := isGuardText_of_parse hline (parse_text h)
  rw [htext] at hguard
  exact guardBody_eq_some_iff.mpr ⟨hguard, rfl⟩

end StateMachine.Guard
