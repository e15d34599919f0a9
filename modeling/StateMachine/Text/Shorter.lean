/-!
What is left of a text after a step that read something of it. A reader whose steps return it
needs no other reason to end.
-/

set_option autoImplicit false

namespace StateMachine.Text

/-- A text with fewer characters than the given one. -/
abbrev Shorter (text : List Char) := { rest : List Char // rest.length < text.length }

/-- A text with at most as many characters as the given one. -/
abbrev NotLonger (text : List Char) := { rest : List Char // rest.length ≤ text.length }

theorem length_dropWhile_le {α : Type} (p : α → Bool) (l : List α) :
    (l.dropWhile p).length ≤ l.length :=
  (List.dropWhile_suffix p).length_le

theorem lt_of_dropWhile_eq_cons {α : Type} {p : α → Bool} {l rest : List α} {a : α}
    (h : l.dropWhile p = a :: rest) : rest.length < l.length := by
  have hle := length_dropWhile_le p l
  rw [h, List.length_cons] at hle
  omega

end StateMachine.Text
