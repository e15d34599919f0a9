import Mathlib.Data.List.Induction

/-!
Elements grouped by a key. The keys are listed in the order of their first appearance, each of them
once (`nodup_eraseDups`), and a further key is put at the end unless it is there already
(`eraseDups_concat`). The groups of distinct keys that cover all elements hold every element as
often as the whole list does (`perm_flatMap_filter`).
-/

set_option autoImplicit false

namespace StateMachine

variable {α : Type}

/-! ### Keys in the order of their first appearance -/

theorem eraseDups_concat (keys : List String) (key : String) :
    (keys ++ [key]).eraseDups =
      if key ∈ keys then keys.eraseDups else keys.eraseDups ++ [key] := by
  rw [List.eraseDups_append]
  by_cases hkey : key ∈ keys
  · simp [hkey, List.removeAll]
  · simp [hkey, List.removeAll, List.eraseDups_cons]

theorem nodup_eraseDups (keys : List String) : keys.eraseDups.Nodup := by
  induction keys using List.reverseRecOn with
  | nil => exact List.nodup_nil
  | append_singleton keys key ih =>
    rw [eraseDups_concat]
    split
    · exact ih
    · next hnew =>
      refine List.nodup_append.mpr ⟨ih, List.pairwise_singleton _ _, ?_⟩
      rintro other hother _ hkey rfl
      rw [List.mem_singleton.mp hkey] at hother
      exact hnew (List.mem_eraseDups.mp hother)

/-! ### Groups -/

/-- Without the elements of one key, the groups of other keys are the same. -/
theorem filter_filter_of_ne {key : α → String} {first other : String} (hne : other ≠ first)
    (elements : List α) :
    (elements.filter fun a ↦ !key a == first).filter (key · == other) =
      elements.filter (key · == other) := by
  rw [List.filter_filter]
  refine List.filter_congr fun a _ ↦ ?_
  by_cases hkey : key a = other
  · simp [hkey, hne]
  · simp [hkey]

/-- Groups by distinct keys rearrange the elements if every element has one of the keys. -/
theorem perm_flatMap_filter {key : α → String} {keys : List String} (hkeys : keys.Nodup)
    {elements : List α} (hcover : ∀ a ∈ elements, key a ∈ keys) :
    (keys.flatMap fun k ↦ elements.filter (key · == k)).Perm elements := by
  induction keys generalizing elements with
  | nil =>
    rw [List.eq_nil_iff_forall_not_mem.mpr fun a ha ↦ List.not_mem_nil (hcover a ha)]
    exact .nil
  | cons first rest ih =>
    obtain ⟨hfirst, hrest⟩ := List.nodup_cons.mp hkeys
    have hothers : (rest.flatMap fun k ↦ elements.filter (key · == k)) =
        rest.flatMap fun k ↦ (elements.filter fun a ↦ !key a == first).filter (key · == k) := by
      simp only [List.flatMap_def]
      refine congrArg List.flatten (List.map_congr_left fun k hk ↦ ?_)
      have hne : k ≠ first := fun heq ↦ hfirst (heq ▸ hk)
      exact (filter_filter_of_ne hne elements).symm
    have hleft : ∀ a ∈ elements.filter fun a ↦ !key a == first, key a ∈ rest := by
      intro a ha
      obtain ⟨hmem, hne⟩ := List.mem_filter.mp ha
      exact (List.mem_cons.mp (hcover a hmem)).resolve_left (by simpa using hne)
    rw [List.flatMap_cons, hothers]
    exact ((ih hrest hleft).append_left _).trans
      (List.filter_append_perm (key · == first) elements)

end StateMachine
