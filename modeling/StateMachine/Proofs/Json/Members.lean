import Mathlib.Data.String.Basic
import StateMachine.Json.Basic

/-!
The members of an object. `Json.ofMembers` keeps them in the order of their keys
(`inOrder_foldl_insertMember`), leaves members alone that are in order (`ofMembers_of_inOrder`), and
of two members with one key the later is found (`get?_ofMembers`).
-/

set_option autoImplicit false

namespace StateMachine.Json

/-- The keys go up, so no key occurs twice. -/
def InOrder (members : List (String × Json)) : Prop :=
  members.Pairwise (·.1 < ·.1)

variable {key : String} {value : Json} {members : List (String × Json)}

theorem mem_insertMember {member : String × Json}
    (h : member ∈ insertMember key value members) : member = (key, value) ∨ member ∈ members := by
  fun_induction insertMember key value members with
  | case1 => exact .inl (List.mem_singleton.mp h)
  | case2 => exact (List.mem_cons.mp h).imp_right (List.mem_cons_of_mem _)
  | case3 => exact List.mem_cons.mp h
  | case4 other old rest _ _ ih =>
    obtain rfl | h := List.mem_cons.mp h
    · exact .inr List.mem_cons_self
    · exact (ih h).imp_right (List.mem_cons_of_mem _)

theorem inOrder_insertMember (h : InOrder members) : InOrder (insertMember key value members) := by
  fun_induction insertMember key value members with
  | case1 => exact List.pairwise_singleton _ _
  | case2 => exact List.pairwise_cons.mpr (List.pairwise_cons.mp h)
  | case3 other old rest _ hlt =>
    refine List.pairwise_cons.mpr ⟨?_, h⟩
    intro member hmember
    obtain rfl | hmember := List.mem_cons.mp hmember
    · exact hlt
    · exact lt_trans hlt ((List.pairwise_cons.mp h).1 member hmember)
  | case4 other old rest hne hlt ih =>
    obtain ⟨hhead, htail⟩ := List.pairwise_cons.mp h
    refine List.pairwise_cons.mpr ⟨?_, ih htail⟩
    intro member hmember
    obtain rfl | hmember := mem_insertMember hmember
    · exact lt_of_le_of_ne (not_lt.mp hlt) (Ne.symm hne)
    · exact hhead member hmember

/-- Putting members one after the other into members in order keeps the order. -/
theorem inOrder_foldl_insertMember (added : List (String × Json)) (h : InOrder members) :
    InOrder (added.foldl (fun sorted member ↦ insertMember member.1 member.2 sorted) members) := by
  induction added generalizing members with
  | nil => exact h
  | cons member added ih => exact ih (inOrder_insertMember h)

theorem mem_foldl_insertMember {added : List (String × Json)} {member : String × Json}
    (h : member ∈ added.foldl (fun sorted member ↦ insertMember member.1 member.2 sorted) members) :
    member ∈ added ∨ member ∈ members := by
  induction added generalizing members with
  | nil => exact .inr h
  | cons first added ih =>
    obtain h | h := ih h
    · exact .inl (List.mem_cons_of_mem _ h)
    · exact (mem_insertMember h).imp_left fun h ↦ List.mem_cons.mpr (.inl h)

/-- A key that is greater than all others comes last. -/
theorem insertMember_of_forall_lt (h : ∀ member ∈ members, member.1 < key) :
    insertMember key value members = members ++ [(key, value)] := by
  induction members with
  | nil => rfl
  | cons member members ih =>
    obtain ⟨hhead, htail⟩ := List.forall_mem_cons.mp h
    rw [insertMember, if_neg hhead.ne', if_neg hhead.not_gt, ih htail, List.cons_append]

theorem foldl_insertMember_of_inOrder {added : List (String × Json)}
    (h : InOrder (members ++ added)) :
    added.foldl (fun sorted member ↦ insertMember member.1 member.2 sorted) members =
      members ++ added := by
  induction added generalizing members with
  | nil => rw [List.foldl_nil, List.append_nil]
  | cons member added ih =>
    have hlast : ∀ other ∈ members, other.1 < member.1 := fun other hother ↦
      (List.pairwise_append.mp h).2.2 other hother member List.mem_cons_self
    rw [List.foldl_cons, insertMember_of_forall_lt hlast, ih (by simpa using h),
      List.append_assoc, List.singleton_append]

theorem ofMembers_of_inOrder (h : InOrder members) : ofMembers members = .object members := by
  rw [ofMembers, foldl_insertMember_of_inOrder (by simpa using h), List.nil_append]

theorem lookup_cons (wanted : String) :
    ((key, value) :: members).lookup wanted =
      if wanted = key then some value else members.lookup wanted := by
  by_cases h : wanted = key
  · rw [h, List.lookup_cons_self, if_pos rfl]
  · rw [List.lookup_cons, beq_false_of_ne h, if_neg h]

theorem lookup_insertMember (wanted : String) :
    (insertMember key value members).lookup wanted =
      if wanted = key then some value else members.lookup wanted := by
  fun_induction insertMember key value members with
  | case1 => exact lookup_cons wanted
  | case2 =>
    rw [lookup_cons, lookup_cons]
    split <;> rfl
  | case3 => exact lookup_cons wanted
  | case4 other old rest hne _ ih =>
    rw [lookup_cons, lookup_cons, ih]
    by_cases hother : wanted = other
    · rw [if_pos hother, if_pos hother, if_neg fun h ↦ hne (h.symm.trans hother)]
    · rw [if_neg hother, if_neg hother]

/-- Of the members with a key the last one is found. -/
theorem get?_ofMembers (members : List (String × Json)) (wanted : String) :
    (ofMembers members).get? wanted = members.reverse.lookup wanted := by
  have hfold : ∀ sorted : List (String × Json),
      (members.foldl (fun sorted member ↦ insertMember member.1 member.2 sorted) sorted).lookup
          wanted = (members.reverse.lookup wanted).or (sorted.lookup wanted) := by
    induction members with
    | nil => exact fun _ ↦ rfl
    | cons member members ih =>
      intro sorted
      rw [List.foldl_cons, ih, lookup_insertMember, List.reverse_cons, List.lookup_append,
        Option.or_assoc]
      rw [lookup_cons, List.lookup_nil]
      by_cases hwanted : wanted = member.1
      · rw [if_pos hwanted, if_pos hwanted, Option.some_or]
      · rw [if_neg hwanted, if_neg hwanted, Option.none_or]
  rw [ofMembers, get?, hfold, List.lookup_nil, Option.or_none]

end StateMachine.Json
