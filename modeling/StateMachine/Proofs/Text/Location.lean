import Mathlib.Data.List.DropRight
import StateMachine.Text.Location

/-!
Places by counting. The place behind a text is found by counting its line breaks and the characters
behind the last of them (`Location.behind`), and that is where stepping over the text leads
(`Location.after_behind`). Places are ordered by line and column, and a longer text ends further on
(`Location.behind_lt_append`).
-/

set_option autoImplicit false

namespace StateMachine.Location

/-- The place behind a text: the lines are counted by the line breaks before it, the columns by the
characters since the last one. -/
def behind (before : List Char) : Location where
  line := 1 + before.count '\n'
  column := 1 + (before.rtakeWhile (· ≠ '\n')).length

/-- The place in a text behind so many characters. -/
def atOffset (text : String) (offset : Nat) : Location :=
  behind (text.toList.take offset)

theorem next_behind (before : List Char) (c : Char) :
    (behind before).next c = behind (before ++ [c]) := by
  unfold next behind
  by_cases hc : c = '\n'
  · rw [if_pos hc, List.rtakeWhile_concat_neg _ _ _ (by simp [hc]), hc]
    simp [Nat.add_assoc]
  · rw [if_neg hc, List.rtakeWhile_concat_pos _ _ _ (by simp [hc])]
    simp [hc, Nat.add_assoc]

/-- Stepping over a text leads to the place behind it. -/
theorem after_behind (before text : List Char) :
    (behind before).after text = behind (before ++ text) := by
  induction text generalizing before with
  | nil => rw [after_nil, List.append_nil]
  | cons c text ih =>
    rw [after_cons, next_behind, ih, List.append_assoc, List.singleton_append]

/-- Without a line break the line stays the same. -/
theorem after_of_notMem (location : Location) {text : List Char} (h : '\n' ∉ text) :
    location.after text = ⟨location.line, location.column + text.length⟩ := by
  induction text generalizing location with
  | nil => rfl
  | cons c text ih =>
    rw [List.mem_cons, not_or] at h
    rw [after_cons, ih _ h.2, next, if_neg fun heq ↦ h.1 heq.symm, List.length_cons,
      Nat.add_assoc, Nat.add_comm 1]

/-- Each line break in a text leads one line further down. -/
theorem line_after (location : Location) (text : List Char) :
    (location.after text).line = location.line + text.count '\n' := by
  induction text generalizing location with
  | nil => rfl
  | cons c text ih =>
    rw [after_cons, ih, next]
    split
    · next h =>
      rw [h, List.count_cons_self, Nat.add_right_comm, Nat.add_assoc]
    · next h => rw [List.count_cons_of_ne h]

/-! ### Order -/

/-- One place is before another: on an earlier line, or on the same line further left. -/
instance : LT Location where
  lt a b := a.line < b.line ∨ a.line = b.line ∧ a.column < b.column

theorem lt_iff {a b : Location} :
    a < b ↔ a.line < b.line ∨ a.line = b.line ∧ a.column < b.column :=
  Iff.rfl

theorem lt_irrefl (a : Location) : ¬a < a := by
  rw [lt_iff]
  omega

theorem lt_trans {a b c : Location} (hab : a < b) (hbc : b < c) : a < c := by
  rw [lt_iff] at hab hbc ⊢
  omega

theorem lt_next (location : Location) (c : Char) : location < location.next c := by
  rw [lt_iff, next]
  split
  · exact Or.inl (Nat.lt_add_one _)
  · exact Or.inr ⟨rfl, Nat.lt_add_one _⟩

theorem lt_after (location : Location) {text : List Char} (h : text ≠ []) :
    location < location.after text := by
  induction text generalizing location with
  | nil => exact absurd rfl h
  | cons c text ih =>
    rw [after_cons]
    by_cases htext : text = []
    · rw [htext, after_nil]
      exact lt_next location c
    · exact lt_trans (lt_next location c) (ih (location.next c) htext)

/-- A longer text ends further on. -/
theorem behind_lt_append (before : List Char) {text : List Char} (h : text ≠ []) :
    behind before < behind (before ++ text) := by
  rw [← after_behind]
  exact lt_after _ h

end StateMachine.Location
