/-!
Splitting a text at a separator. There is one part more than there are separators, so parts may be
empty, and joining the parts with the separator gives the text back (`join_parts`).
-/

set_option autoImplicit false

namespace StateMachine.Text

/-- The parts between the separators. -/
def parts (separator : Char) : List Char → List (List Char)
  | [] => [[]]
  | c :: rest =>
    if c = separator then [] :: parts separator rest
    else
      match parts separator rest with
      | [] => [[c]]
      | part :: more => (c :: part) :: more

/-- The parts with the separator between them. -/
def join (separator : List Char) : List (List Char) → List Char
  | [] => []
  | [part] => part
  | part :: more => part ++ separator ++ join separator more

theorem parts_ne_nil (separator : Char) (text : List Char) : parts separator text ≠ [] := by
  cases text with
  | nil => simp [parts]
  | cons c rest =>
    simp only [parts]
    split
    · simp
    · split <;> simp

theorem join_parts (separator : Char) (text : List Char) :
    join [separator] (parts separator text) = text := by
  induction text with
  | nil => rfl
  | cons c rest ih =>
    cases hparts : parts separator rest with
    | nil => exact absurd hparts (parts_ne_nil separator rest)
    | cons part more =>
      rw [hparts] at ih
      by_cases hc : c = separator
      · simp only [parts, hc, if_true, hparts, join, List.nil_append, ih]
        rfl
      · simp only [parts, hc, if_false, hparts]
        cases more with
        | nil => simpa [join] using ih
        | cons second others => simpa [join] using ih

/-- Parts of a string, as strings. -/
def splitString (separator : Char) (s : String) : List String :=
  (parts separator s.toList).map String.ofList

end StateMachine.Text
