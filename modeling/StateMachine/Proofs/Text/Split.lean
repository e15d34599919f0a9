import StateMachine.Text.Split

/-!
Parts of a text and what they hold. A text is read part by part (`Text.parts_append`), and parts
without the separator are found again where it joins them (`Text.parts_join`).
-/

set_option autoImplicit false

namespace StateMachine.Text

theorem parts_of_not_mem {separator : Char} {segment : List Char} (h : separator ∉ segment) :
    parts separator segment = [segment] := by
  induction segment with
  | nil => rfl
  | cons c segment ih =>
    obtain ⟨hc, hsegment⟩ := not_or.mp fun hmem ↦ h (List.mem_cons.mpr hmem)
    rw [parts, if_neg (Ne.symm hc), ih hsegment]

theorem parts_append {separator : Char} {segment : List Char} (h : separator ∉ segment)
    (rest : List Char) :
    parts separator (segment ++ separator :: rest) = segment :: parts separator rest := by
  induction segment with
  | nil => rw [List.nil_append, parts, if_pos rfl]
  | cons c segment ih =>
    obtain ⟨hc, hsegment⟩ := not_or.mp fun hmem ↦ h (List.mem_cons.mpr hmem)
    rw [List.cons_append, parts, if_neg (Ne.symm hc), ih hsegment]

/-- Parts without the separator are found again where the separator joins them. -/
theorem parts_join {separator : Char} {segments : List (List Char)} (hne : segments ≠ [])
    (h : ∀ segment ∈ segments, separator ∉ segment) :
    parts separator (join [separator] segments) = segments := by
  induction segments with
  | nil => exact absurd rfl hne
  | cons segment segments ih =>
    obtain ⟨hsegment, hsegments⟩ := List.forall_mem_cons.mp h
    cases segments with
    | nil => exact parts_of_not_mem hsegment
    | cons next more =>
      rw [join, List.append_assoc, List.singleton_append, parts_append hsegment,
        ih (List.cons_ne_nil next more) hsegments]
      exact List.cons_ne_nil next more

/-- A character stands in a part exactly if it stands in the text and separates nothing. -/
theorem exists_mem_parts_iff {separator c : Char} {text : List Char} :
    (∃ part ∈ parts separator text, c ∈ part) ↔ c ∈ text ∧ c ≠ separator := by
  induction text with
  | nil => simp [parts]
  | cons d rest ih =>
    cases hparts : parts separator rest with
    | nil => exact absurd hparts (parts_ne_nil separator rest)
    | cons part more =>
      rw [hparts] at ih
      simp only [List.mem_cons, exists_eq_or_imp] at ih
      by_cases hd : d = separator
      · simp only [parts, hd, if_true, hparts, List.mem_cons, exists_eq_or_imp, List.not_mem_nil,
          false_or, ih]
        constructor
        · rintro ⟨hmem, hne⟩
          exact ⟨Or.inr hmem, hne⟩
        · rintro ⟨hc | hmem, hne⟩
          · exact absurd hc hne
          · exact ⟨hmem, hne⟩
      · simp only [parts, hd, if_false, hparts, List.mem_cons, exists_eq_or_imp, or_assoc, ih]
        constructor
        · rintro (rfl | ⟨hmem, hne⟩)
          · exact ⟨Or.inl rfl, hd⟩
          · exact ⟨Or.inr hmem, hne⟩
        · rintro ⟨hc | hmem, hne⟩
          · exact Or.inl hc
          · exact Or.inr ⟨hmem, hne⟩

end StateMachine.Text
