import StateMachine.Token.Scan

/-!
Texts between brackets. The bracket that closes a guard is the first one outside quotes, and between
quotes a backslash takes the next character with it. So what a guard may hold are the texts of one
line that are made of other characters and of whole runs between quotes (`IsGuardText`): such a text
is what the scanner takes in front of a bracket, and it takes no other (`guardBody_eq_some_iff`).
-/

set_option autoImplicit false

namespace StateMachine.Token

/-- What stands between quotes: a character, or a backslash with the character behind it. -/
inductive QuotedItem where
  | plain (c : Char) (hquote : c ≠ '"') (hslash : c ≠ '\\')
  | escape (c : Char)

namespace QuotedItem

def chars : QuotedItem → List Char
  | .plain c _ _ => [c]
  | .escape c => ['\\', c]

end QuotedItem

/-- What the text of a guard is made of: characters outside quotes, and whole runs between them. -/
inductive GuardItem where
  | plain (c : Char) (hquote : c ≠ '"') (hclose : c ≠ ']')
  | quoted (items : List QuotedItem)

namespace GuardItem

def chars : GuardItem → List Char
  | .plain c _ _ => [c]
  | .quoted items => '"' :: (items.flatMap QuotedItem.chars ++ ['"'])

end GuardItem

/-- The text is made of characters outside quotes and of whole runs between quotes; a closing
bracket stands between quotes only. -/
def IsBalanced (text : List Char) : Prop :=
  ∃ items : List GuardItem, items.flatMap GuardItem.chars = text

/-- May the text stand between the brackets of a guard? -/
structure IsGuardText (text : List Char) : Prop where
  newline_notMem : '\n' ∉ text
  isBalanced : IsBalanced text

variable {c : Char} {text rest body : List Char}

/-! ### What is taken in front of a bracket -/

/-- What is found behind a text, with the text in front of it. -/
def prepend (text : List Char) (found : Option (List Char × List Char)) :
    Option (List Char × List Char) :=
  found.map fun (body, last) ↦ (text ++ body, last)

theorem prepend_nil (found : Option (List Char × List Char)) : prepend [] found = found := by
  cases found <;> rfl

theorem prepend_prepend (first second : List Char) (found : Option (List Char × List Char)) :
    prepend first (prepend second found) = prepend (first ++ second) found := by
  cases found with
  | none => rfl
  | some pair => simp [prepend]

theorem guardBody_close (rest : List Char) : guardBody false (']' :: rest) = some ([], rest) := by
  rw [guardBody.eq_def]
  simp

theorem guardBody_quote (quoted : Bool) (rest : List Char) :
    guardBody quoted ('"' :: rest) = prepend ['"'] (guardBody (!quoted) rest) := by
  rw [guardBody.eq_def]
  simp [prepend]

theorem guardBody_plain (hnewline : c ≠ '\n') (hquote : c ≠ '"') (hclose : c ≠ ']')
    (rest : List Char) : guardBody false (c :: rest) = prepend [c] (guardBody false rest) := by
  rw [guardBody.eq_def]
  simp [prepend, hnewline, hquote, hclose]

theorem guardBody_quoted (hnewline : c ≠ '\n') (hquote : c ≠ '"') (hslash : c ≠ '\\')
    (rest : List Char) : guardBody true (c :: rest) = prepend [c] (guardBody true rest) := by
  rw [guardBody.eq_def]
  simp [prepend, hnewline, hquote, hslash]

theorem guardBody_escape (hnewline : c ≠ '\n') (rest : List Char) :
    guardBody true ('\\' :: c :: rest) = prepend ['\\', c] (guardBody true rest) := by
  rw [guardBody.eq_def]
  simp [prepend, hnewline]

/-- Between quotes the scanner passes over every item. -/
theorem guardBody_quotedItems (items : List QuotedItem)
    (h : '\n' ∉ items.flatMap QuotedItem.chars) (rest : List Char) :
    guardBody true (items.flatMap QuotedItem.chars ++ rest) =
      prepend (items.flatMap QuotedItem.chars) (guardBody true rest) := by
  induction items with
  | nil => exact (prepend_nil _).symm
  | cons item items ih =>
    rw [List.flatMap_cons, List.mem_append, not_or] at h
    rw [List.flatMap_cons, List.append_assoc, ← prepend_prepend, ← ih h.2]
    cases item with
    | plain c hquote hslash =>
      have hnewline : c ≠ '\n' := fun hc ↦ h.1 (List.mem_singleton.mpr hc.symm)
      exact guardBody_quoted hnewline hquote hslash _
    | escape c =>
      have hnewline : c ≠ '\n' := fun hc ↦ h.1 (hc ▸ List.mem_cons_of_mem _ List.mem_cons_self)
      exact guardBody_escape hnewline _

/-- Outside quotes the scanner passes over every item. -/
theorem guardBody_items (items : List GuardItem) (h : '\n' ∉ items.flatMap GuardItem.chars)
    (rest : List Char) :
    guardBody false (items.flatMap GuardItem.chars ++ rest) =
      prepend (items.flatMap GuardItem.chars) (guardBody false rest) := by
  induction items with
  | nil => exact (prepend_nil _).symm
  | cons item items ih =>
    rw [List.flatMap_cons, List.mem_append, not_or] at h
    rw [List.flatMap_cons, List.append_assoc, ← prepend_prepend, ← ih h.2]
    cases item with
    | plain c hquote hclose =>
      have hnewline : c ≠ '\n' := fun hc ↦ h.1 (List.mem_singleton.mpr hc.symm)
      exact guardBody_plain hnewline hquote hclose _
    | quoted inner =>
      have hinner : '\n' ∉ inner.flatMap QuotedItem.chars := fun hmem ↦
        h.1 (List.mem_cons_of_mem _ (List.mem_append_left _ hmem))
      rw [GuardItem.chars, List.cons_append, List.append_assoc, List.singleton_append]
      rw [guardBody_quote, Bool.not_false, guardBody_quotedItems inner hinner, guardBody_quote,
        Bool.not_true, prepend_prepend, prepend_prepend]
      rfl

/-! ### What is taken is balanced -/

/-- What is left of a balanced text, outside quotes or between them. -/
def Completes : Bool → List Char → Prop
  | false, text => IsBalanced text
  | true, text => ∃ (inner : List QuotedItem) (rest : List Char),
    inner.flatMap QuotedItem.chars ++ '"' :: rest = text ∧ IsBalanced rest

theorem IsBalanced.cons (item : GuardItem) (h : IsBalanced rest) :
    IsBalanced (item.chars ++ rest) := by
  obtain ⟨items, rfl⟩ := h
  exact ⟨item :: items, rfl⟩

theorem IsBalanced.nil : IsBalanced [] :=
  ⟨[], rfl⟩

theorem IsBalanced.append (h : IsBalanced text) (hrest : IsBalanced rest) :
    IsBalanced (text ++ rest) := by
  obtain ⟨items, rfl⟩ := h
  obtain ⟨more, rfl⟩ := hrest
  exact ⟨items ++ more, List.flatMap_append⟩

theorem IsBalanced.plain (hquote : c ≠ '"') (hclose : c ≠ ']') (h : IsBalanced rest) :
    IsBalanced (c :: rest) :=
  .cons (.plain c hquote hclose) h

/-- A text of characters of a class that has neither quotes nor closing brackets. -/
theorem IsBalanced.of_class {p : Char → Bool} (hquote : p '"' = false) (hclose : p ']' = false)
    (h : ∀ c ∈ text, p c) : IsBalanced text := by
  induction text with
  | nil => exact nil
  | cons c text ih =>
    obtain ⟨hc, hmore⟩ := List.forall_mem_cons.mp h
    refine (ih hmore).plain ?_ ?_
    · rintro rfl
      exact Bool.false_ne_true (hquote.symm.trans hc)
    · rintro rfl
      exact Bool.false_ne_true (hclose.symm.trans hc)

theorem Completes.quote {quoted : Bool} (h : Completes (!quoted) rest) :
    Completes quoted ('"' :: rest) := by
  cases quoted with
  | true => exact ⟨[], rest, rfl, h⟩
  | false =>
    obtain ⟨inner, last, rfl, hlast⟩ := h
    have htext : '"' :: (inner.flatMap QuotedItem.chars ++ '"' :: last) =
        (GuardItem.quoted inner).chars ++ last := by
      simp [GuardItem.chars]
    rw [htext]
    exact .cons (.quoted inner) hlast

theorem Completes.quoted (item : QuotedItem) (h : Completes true rest) :
    Completes true (item.chars ++ rest) := by
  obtain ⟨inner, last, rfl, hlast⟩ := h
  exact ⟨item :: inner, last, by simp, hlast⟩

theorem completes_of_guardBody {quoted : Bool} (h : guardBody quoted text = some (body, rest)) :
    '\n' ∉ body ∧ Completes quoted body := by
  fun_induction guardBody quoted text generalizing body with
  | case1 => cases h
  | case2 => cases h
  | case3 quoted c after hnewline hclose =>
    cases h
    obtain ⟨-, hquoted⟩ := Bool.and_eq_true_iff.mp hclose
    rw [Bool.not_eq_true'] at hquoted
    rw [hquoted]
    exact ⟨List.not_mem_nil, [], rfl⟩
  | case4 => cases h
  | case5 => cases h
  | case6 quoted c hnewline hclose hescape d more hd ih =>
    obtain ⟨⟨inner, last⟩, hinner, heq⟩ := Option.map_eq_some_iff.mp h
    cases heq
    obtain ⟨hmem, hcompletes⟩ := ih hinner
    obtain ⟨hslash, rfl⟩ := Bool.and_eq_true_iff.mp hescape
    rw [decide_eq_true_eq] at hslash
    subst hslash
    refine ⟨?_, hcompletes.quoted (.escape d)⟩
    simp only [List.mem_cons, not_or]
    exact ⟨by decide, fun heq ↦ hd heq.symm, hmem⟩
  | case7 quoted c after hnewline hclose hescape ih =>
    obtain ⟨⟨inner, last⟩, hinner, heq⟩ := Option.map_eq_some_iff.mp h
    cases heq
    obtain ⟨hmem, hcompletes⟩ := ih hinner
    refine ⟨?_, ?_⟩
    · simp only [List.mem_cons, not_or]
      exact ⟨fun heq ↦ hnewline heq.symm, hmem⟩
    · by_cases hquote : c = '"'
      · subst hquote
        exact hcompletes.quote
      · rw [if_neg hquote] at hcompletes
        cases quoted with
        | true =>
          have hslash : c ≠ '\\' := by simpa using hescape
          exact hcompletes.quoted (.plain c hquote hslash)
        | false =>
          have hbracket : c ≠ ']' := by simpa using hclose
          exact IsBalanced.plain hquote hbracket hcompletes

/-- The scanner takes a text in front of a bracket exactly if it may stand between brackets. -/
theorem guardBody_eq_some_iff :
    guardBody false text = some (body, rest) ↔ IsGuardText body ∧ body ++ ']' :: rest = text := by
  constructor
  · intro h
    obtain ⟨hnewline, hbalanced⟩ := completes_of_guardBody h
    exact ⟨⟨hnewline, hbalanced⟩, append_of_guardBody h⟩
  · rintro ⟨⟨hnewline, items, rfl⟩, rfl⟩
    rw [guardBody_items items hnewline, guardBody_close]
    simp [prepend]

end StateMachine.Token
