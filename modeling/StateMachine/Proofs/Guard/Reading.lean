import Mathlib.Data.Nat.Init
import StateMachine.Guard.Parser

/-!
The steps of reading a guard, without the evidence that they shorten the text. `outcome` forgets
that evidence, and each step has equations for its outcome in terms of the outcomes of the steps it
is made of.
-/

set_option autoImplicit false

namespace StateMachine.Guard

open Numeric
open Text (Shorter NotLonger skipBlanks)

/-- What a step reads and what it leaves, or its failure. -/
def outcome {α : Type} {p : List Char → Prop} :
    Except Failure (α × { rest : List Char // p rest }) → Except Failure (α × List Char)
  | .error failure => .error failure
  | .ok (a, rest) => .ok (a, rest.1)

section Outcome

variable {α : Type} {p : List Char → Prop}

@[simp] theorem outcome_error (failure : Failure) :
    outcome (.error failure : Except Failure (α × { rest : List Char // p rest })) =
      .error failure :=
  rfl

@[simp] theorem outcome_ok (a : α) (rest : { rest : List Char // p rest }) :
    outcome (.ok (a, rest)) = .ok (a, rest.1) :=
  rfl

/-- A step that reads something comes with the evidence that its outcome forgets. -/
theorem exists_of_outcome {step : Except Failure (α × { rest : List Char // p rest })} {a : α}
    {rest : List Char} (h : outcome step = .ok (a, rest)) :
    ∃ hrest, step = .ok (a, ⟨rest, hrest⟩) := by
  cases step with
  | error failure => cases h
  | ok result =>
    obtain ⟨b, last, hlast⟩ := result
    cases h
    exact ⟨hlast, rfl⟩

end Outcome

@[simp] theorem outcome_widen {α : Type} {text longer : List Char}
    (h : text.length ≤ longer.length) (step : Step α text) :
    outcome (step.widen h) = outcome step := by
  cases step <;> rfl

/-! ### Literals -/

section LiteralBody

variable {c : Char} {body text rest : List Char} {h : rest.length < text.length}

theorem literalBody_plain (hquote : c ≠ '"') (hslash : c ≠ '\\')
    (htext : literalBody text = .ok (body, ⟨rest, h⟩)) :
    ∃ hrest, literalBody (c :: text) = .ok (c :: body, ⟨rest, hrest⟩) := by
  refine ⟨Nat.lt_succ_of_lt h, ?_⟩
  rw [literalBody]
  · simp only [htext]
  · exact hquote
  · exact fun hc _ ↦ hslash hc
  · exact fun _ _ hc _ ↦ hslash hc

theorem literalBody_escape {plain : Char} (hplain : unescape? c = some plain)
    (htext : literalBody text = .ok (body, ⟨rest, h⟩)) :
    ∃ hrest, literalBody ('\\' :: c :: text) = .ok (plain :: body, ⟨rest, hrest⟩) := by
  refine ⟨Nat.lt_succ_of_lt (Nat.lt_succ_of_lt h), ?_⟩
  rw [literalBody]
  simp only [hplain, htext]

end LiteralBody

/-- The outcome of a text between quotes. -/
def textOutcome (body : List Char) : Except Failure (Json × List Char) :=
  match literalBody body with
  | .ok (s, rest) => .ok (.string (String.ofList s), rest.1)
  | .error .unterminated => .error ⟨.unterminatedText, body.length + 1⟩
  | .error (.unknownEscape c left) => .error ⟨.unknownEscape c, left⟩

/-- The outcome of a number that is a literal. -/
def numberOutcome (text : List Char) : Except Failure (Json × List Char) := do
  let (x, rest) ← outcome (number text)
  return (.number (.double x), rest)

/-- The outcome of a literal that is no word: a text if it starts with a quote, else a number. -/
def valueOutcome : List Char → Except Failure (Json × List Char)
  | '"' :: body => textOutcome body
  | text => numberOutcome text

theorem valueOutcome_of_number {text : List Char} (h : ∀ body, text ≠ '"' :: body) :
    valueOutcome text = numberOutcome text := by
  unfold valueOutcome
  split
  · next body => exact absurd rfl (h body)
  · rfl

theorem outcome_literal (text : List Char) :
    outcome (literal text) =
      match afterWord? "true".toList text, afterWord? "false".toList text,
        afterWord? "null".toList text with
      | some rest, _, _ => .ok (.bool true, rest)
      | none, some rest, _ => .ok (.bool false, rest)
      | none, none, some rest => .ok (.null, rest)
      | none, none, none => valueOutcome text := by
  unfold literal
  split
  · next rest htrue => simp only [htrue, outcome_ok]
  · next htrue =>
    split
    · next rest hfalse => simp only [htrue, hfalse, outcome_ok]
    · next hfalse =>
      split
      · next rest hnull => simp only [htrue, hfalse, hnull, outcome_ok]
      · next hnull =>
        simp only [htrue, hfalse, hnull]
        split
        · next _ _ _ _ body _ _ _ =>
          rw [valueOutcome, textOutcome]
          cases literalBody body with
          | error flaw => cases flaw <;> rfl
          | ok result => rfl
        · next hother =>
          have hquote : ∀ body, text ≠ '"' :: body := by
            rintro body rfl
            exact hother body htrue hfalse hnull rfl HEq.rfl HEq.rfl HEq.rfl
          rw [valueOutcome_of_number hquote, numberOutcome]
          cases number text <;> rfl

/-! ### Atoms -/

section Atom

variable {text rest : List Char} {name : String}

theorem outcome_operand_equals (name : String) (text : List Char) :
    outcome (operand name .equals text) = (do
      let (value, rest) ← outcome (literal text)
      return (.equals name value, rest)) := by
  unfold operand
  cases literal text <;> rfl

theorem outcome_operand_differs (name : String) (text : List Char) :
    outcome (operand name .differs text) = (do
      let (value, rest) ← outcome (literal text)
      return (.differs name value, rest)) := by
  unfold operand
  cases literal text <;> rfl

theorem outcome_operand_compares (name : String) (comparison : Comparison) (text : List Char) :
    outcome (operand name (.compares comparison) text) = (do
      let (bound, rest) ← outcome (number text)
      return (.compares name comparison (.finite bound), rest)) := by
  unfold operand
  cases number text <;> rfl

theorem outcome_atom_of_error {failure : Failure} (h : outcome (field text) = .error failure) :
    outcome (atom text) = .error failure := by
  unfold atom
  cases hfield : field text with
  | error other =>
    rw [hfield] at h
    cases h
    rfl
  | ok result =>
    rw [hfield] at h
    cases h

theorem outcome_atom_of_none (h : outcome (field text) = .ok (name, rest))
    (hoperator : operator? (skipBlanks rest) = none) :
    outcome (atom text) = .ok (.truthy name, rest) := by
  obtain ⟨hrest, hfield⟩ := exists_of_outcome h
  unfold atom
  simp only [hfield, hoperator, outcome_ok]

theorem outcome_atom_of_some {operator : Operator} {after : Shorter (skipBlanks rest)}
    (h : outcome (field text) = .ok (name, rest))
    (hoperator : operator? (skipBlanks rest) = some (operator, after)) :
    outcome (atom text) = outcome (operand name operator (skipBlanks after.1)) := by
  obtain ⟨hrest, hfield⟩ := exists_of_outcome h
  unfold atom
  simp only [hfield, hoperator, outcome_widen]

end Atom

/-! ### Operands -/

section Unary

variable {text rest : List Char}

theorem outcome_unary_of_negation (h : skipBlanks text = '!' :: rest) :
    outcome (unary text) = (do
      let (inner, last) ← outcome (unary rest)
      return (.negated inner, last)) := by
  rw [unary]
  split
  · next found hfound =>
    rw [h] at hfound
    cases hfound
    cases unary rest <;> rfl
  · next found hfound =>
    rw [h] at hfound
    cases hfound
  · next hnegation _ => exact absurd h (hnegation rest)

theorem outcome_unary_of_parenthesis (h : skipBlanks text = '(' :: rest) :
    outcome (unary text) = (do
      let (inner, last) ← outcome (disjunction rest)
      match skipBlanks last with
      | ')' :: after => return (inner, after)
      | left => .error ⟨.missingParenthesis, left.length⟩) := by
  rw [unary]
  split
  · next found hfound =>
    rw [h] at hfound
    cases hfound
  · next found hfound =>
    rw [h] at hfound
    cases hfound
    cases hinner : disjunction rest with
    | error failure => rfl
    | ok result =>
      obtain ⟨inner, last⟩ := result
      simp only [outcome_ok, bind, Except.bind]
      split
      · next after hclose =>
        simp only [hclose]
        rfl
      · next hclose =>
        split
        · next after hafter => exact absurd hafter (hclose after)
        · rfl
  · next _ hparenthesis => exact absurd h (hparenthesis rest)

theorem outcome_unary_of_atom (hnegation : ∀ rest, skipBlanks text ≠ '!' :: rest)
    (hparenthesis : ∀ rest, skipBlanks text ≠ '(' :: rest) :
    outcome (unary text) = outcome (atom (skipBlanks text)) := by
  rw [unary]
  split
  · next rest h => exact absurd h (hnegation rest)
  · next rest h => exact absurd h (hparenthesis rest)
  · rw [outcome_widen]

end Unary

/-! ### Connectives -/

section Connectives

variable {text rest : List Char} {left : Guard}

theorem outcome_conjunction (text : List Char) :
    outcome (conjunction text) = (do
      let (left, rest) ← outcome (unary text)
      outcome (conjunctionTail left rest)) := by
  rw [conjunction]
  cases unary text with
  | error failure => rfl
  | ok result =>
    obtain ⟨left, rest⟩ := result
    simp only [outcome_ok, bind, Except.bind]
    cases conjunctionTail left rest.1 <;> rfl

theorem outcome_disjunction (text : List Char) :
    outcome (disjunction text) = (do
      let (left, rest) ← outcome (conjunction text)
      outcome (disjunctionTail left rest)) := by
  rw [disjunction]
  cases conjunction text with
  | error failure => rfl
  | ok result =>
    obtain ⟨left, rest⟩ := result
    simp only [outcome_ok, bind, Except.bind]
    cases disjunctionTail left rest.1 <;> rfl

theorem outcome_conjunctionTail_of_and (h : skipBlanks text = '&' :: '&' :: rest) :
    outcome (conjunctionTail left text) = (do
      let (right, after) ← outcome (unary rest)
      outcome (conjunctionTail (.both left right) after)) := by
  rw [conjunctionTail]
  split
  · next found hfound =>
    rw [h] at hfound
    cases hfound
    cases unary rest with
    | error failure => rfl
    | ok result =>
      obtain ⟨right, after⟩ := result
      simp only [outcome_ok, bind, Except.bind]
      cases conjunctionTail (.both left right) after.1 <;> rfl
  · next hnone => exact absurd h (hnone rest)

theorem outcome_conjunctionTail_of_none (h : ∀ rest, skipBlanks text ≠ '&' :: '&' :: rest) :
    outcome (conjunctionTail left text) = .ok (left, text) := by
  rw [conjunctionTail]
  split
  · next rest hrest => exact absurd hrest (h rest)
  · rfl

theorem outcome_disjunctionTail_of_or (h : skipBlanks text = '|' :: '|' :: rest) :
    outcome (disjunctionTail left text) = (do
      let (right, after) ← outcome (conjunction rest)
      outcome (disjunctionTail (.either left right) after)) := by
  rw [disjunctionTail]
  split
  · next found hfound =>
    rw [h] at hfound
    cases hfound
    cases conjunction rest with
    | error failure => rfl
    | ok result =>
      obtain ⟨right, after⟩ := result
      simp only [outcome_ok, bind, Except.bind]
      cases disjunctionTail (.either left right) after.1 <;> rfl
  · next hnone => exact absurd h (hnone rest)

theorem outcome_disjunctionTail_of_none (h : ∀ rest, skipBlanks text ≠ '|' :: '|' :: rest) :
    outcome (disjunctionTail left text) = .ok (left, text) := by
  rw [disjunctionTail]
  split
  · next rest hrest => exact absurd hrest (h rest)
  · rfl

end Connectives

end StateMachine.Guard
