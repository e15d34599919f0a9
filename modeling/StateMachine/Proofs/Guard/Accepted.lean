import StateMachine.Proofs.Except
import StateMachine.Proofs.Guard.Printable
import StateMachine.Proofs.Guard.Reading

/-!
What the reader of guards accepts can be written down again (`isPrintable_of_parse`): a field is a
path of non-empty parts, a bound is finite, and a literal is of a kind that a guard may hold. The
connectives add nothing to that, so the readers that call each other preserve it together.
-/

set_option autoImplicit false

namespace StateMachine.Guard

open Numeric
open Text (skipBlanks lt_of_dropWhile_eq_cons)

variable {text rest : List Char} {f : String} {g left : Guard}

/-! ### Atoms -/

theorem isFieldPath_of_path {path : List Char} (hpath : ∀ c ∈ path, isPathChar c)
    (hparts : ¬(Text.parts '.' path).any List.isEmpty) : isFieldPath (String.ofList path) := by
  rw [isFieldPath, String.toList_ofList, List.all_eq_true]
  intro part hpart
  have hne : part.isEmpty = false := by
    rw [Bool.not_eq_true, List.any_eq_false] at hparts
    exact Bool.eq_false_iff.mpr (hparts part hpart)
  have hchars : part.all Identifier.isPart := by
    rw [List.all_eq_true]
    intro c hc
    obtain ⟨hmem, hdot⟩ := Text.exists_mem_parts_iff.mp ⟨part, hpart, hc⟩
    have hchar := hpath c hmem
    simp only [isPathChar, hdot, decide_false, Bool.or_false] at hchar
    exact hchar
  rw [hne, hchars]
  rfl

theorem isFieldPath_of_field (h : outcome (field text) = .ok (f, rest)) : isFieldPath f := by
  unfold field at h
  split at h
  · next tail =>
    dsimp only at h
    split at h
    · cases h
    · split at h
      · cases h
      · next hparts =>
        cases h
        exact isFieldPath_of_path (List.all_eq_true.mp List.all_takeWhile) hparts
  · cases h

theorem isLiteral_of_literal {value : Json} (h : outcome (literal text) = .ok (value, rest)) :
    isLiteral value := by
  rw [outcome_literal] at h
  split at h
  · cases h
    rfl
  · cases h
    rfl
  · cases h
    rfl
  · unfold valueOutcome textOutcome numberOutcome at h
    split at h
    · split at h
      · cases h
        rfl
      · cases h
      · cases h
    · obtain ⟨⟨x, last⟩, -, hresult⟩ := bind_eq_ok.mp h
      cases hresult
      rfl

theorem isPrintable_of_operand {operator : Operator} (hf : isFieldPath f)
    (h : outcome (operand f operator text) = .ok (g, rest)) : g.isPrintable := by
  cases operator with
  | equals =>
    rw [outcome_operand_equals] at h
    obtain ⟨⟨value, last⟩, hliteral, hresult⟩ := bind_eq_ok.mp h
    cases hresult
    exact Bool.and_eq_true_iff.mpr ⟨hf, isLiteral_of_literal hliteral⟩
  | differs =>
    rw [outcome_operand_differs] at h
    obtain ⟨⟨value, last⟩, hliteral, hresult⟩ := bind_eq_ok.mp h
    cases hresult
    exact Bool.and_eq_true_iff.mpr ⟨hf, isLiteral_of_literal hliteral⟩
  | compares comparison =>
    rw [outcome_operand_compares] at h
    obtain ⟨⟨bound, last⟩, -, hresult⟩ := bind_eq_ok.mp h
    cases hresult
    exact Bool.and_eq_true_iff.mpr ⟨hf, rfl⟩

theorem isPrintable_of_atom (h : outcome (atom text) = .ok (g, rest)) : g.isPrintable := by
  cases hfield : outcome (field text) with
  | error failure =>
    rw [outcome_atom_of_error hfield] at h
    cases h
  | ok result =>
    obtain ⟨name, last⟩ := result
    have hf := isFieldPath_of_field hfield
    cases hoperator : operator? (skipBlanks last) with
    | none =>
      rw [outcome_atom_of_none hfield hoperator] at h
      cases h
      exact hf
    | some found =>
      rw [outcome_atom_of_some hfield hoperator] at h
      exact isPrintable_of_operand hf h

/-! ### Connectives -/

mutual

theorem isPrintable_of_unary {text : List Char} {g : Guard} {rest}
    (h : unary text = .ok (g, rest)) : g.isPrintable := by
  rw [unary] at h
  split at h
  · next tail hskip =>
    have hshorter : tail.length < text.length := lt_of_dropWhile_eq_cons hskip
    split at h
    · cases h
    · next inner last hinner =>
      have hprintable := isPrintable_of_unary hinner
      cases h
      exact hprintable
  · next tail hskip =>
    have hshorter : tail.length < text.length := lt_of_dropWhile_eq_cons hskip
    split at h
    · cases h
    · next inner last hinner =>
      split at h
      · cases h
        exact isPrintable_of_disjunction hinner
      · cases h
  · have hatom := congrArg outcome h
    rw [outcome_widen] at hatom
    exact isPrintable_of_atom hatom
termination_by (text.length, 0)

theorem isPrintable_of_conjunction {text : List Char} {g : Guard} {rest}
    (h : conjunction text = .ok (g, rest)) : g.isPrintable := by
  rw [conjunction] at h
  split at h
  · cases h
  · next first last hfirst =>
    have hshorter := last.2
    split at h
    · cases h
    · next guard final hfinal =>
      cases h
      exact isPrintable_of_conjunctionTail (isPrintable_of_unary hfirst) hfinal
termination_by (text.length, 1)

theorem isPrintable_of_conjunctionTail {left : Guard} {text : List Char} {g : Guard} {rest}
    (hleft : left.isPrintable) (h : conjunctionTail left text = .ok (g, rest)) :
    g.isPrintable := by
  rw [conjunctionTail] at h
  split at h
  · next tail hskip =>
    have hshorter : tail.length + 1 < text.length := lt_of_dropWhile_eq_cons hskip
    split at h
    · cases h
    · next right after hright =>
      have hafter := after.2
      split at h
      · cases h
      · next guard final hfinal =>
        cases h
        have hboth : (Guard.both left right).isPrintable :=
          Bool.and_eq_true_iff.mpr ⟨hleft, isPrintable_of_unary hright⟩
        exact isPrintable_of_conjunctionTail hboth hfinal
  · cases h
    exact hleft
termination_by (text.length, 1)

theorem isPrintable_of_disjunction {text : List Char} {g : Guard} {rest}
    (h : disjunction text = .ok (g, rest)) : g.isPrintable := by
  rw [disjunction] at h
  split at h
  · cases h
  · next first last hfirst =>
    have hshorter := last.2
    split at h
    · cases h
    · next guard final hfinal =>
      cases h
      exact isPrintable_of_disjunctionTail (isPrintable_of_conjunction hfirst) hfinal
termination_by (text.length, 2)

theorem isPrintable_of_disjunctionTail {left : Guard} {text : List Char} {g : Guard} {rest}
    (hleft : left.isPrintable) (h : disjunctionTail left text = .ok (g, rest)) :
    g.isPrintable := by
  rw [disjunctionTail] at h
  split at h
  · next tail hskip =>
    have hshorter : tail.length + 1 < text.length := lt_of_dropWhile_eq_cons hskip
    split at h
    · cases h
    · next right after hright =>
      have hafter := after.2
      split at h
      · cases h
      · next guard final hfinal =>
        cases h
        have heither : (Guard.either left right).isPrintable :=
          Bool.and_eq_true_iff.mpr ⟨hleft, isPrintable_of_conjunction hright⟩
        exact isPrintable_of_disjunctionTail heither hfinal
  · cases h
    exact hleft
termination_by (text.length, 2)

end

/-- A guard that was read can be written down. -/
theorem isPrintable_of_parse {s : String} (h : parse s = .ok g) : g.isPrintable := by
  unfold parse parseChars at h
  split at h
  · next guard hchars =>
    cases h
    split at hchars
    · cases hchars
    · split at hchars
      · cases hchars
      · next guard last hguard =>
        split at hchars
        · cases hchars
          exact isPrintable_of_disjunction hguard
        · cases hchars
  · cases h

end StateMachine.Guard
