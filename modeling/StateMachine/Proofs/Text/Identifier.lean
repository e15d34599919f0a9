import Mathlib.Data.List.Forall2
import StateMachine.Text.Identifier

/-!
Repaired names. Whatever a text holds, what `Identifier.repair` makes of it is an identifier
(`Identifier.isValid_repair`), and identifiers are all that it leaves as it is
(`Identifier.repair_eq_self_iff`). The characters of the text are kept or become underscores, one by
one, and one more underscore stands in front of them exactly if they are no name without it
(`Identifier.repair_eq_iff`).
-/

set_option autoImplicit false

namespace StateMachine

namespace Keyword

/-- No keyword starts with an underscore. -/
theorem ofWord?_underscore (rest : List Char) : ofWord? (String.ofList ('_' :: rest)) = none := by
  cases hfound : ofWord? (String.ofList ('_' :: rest)) with
  | none => rfl
  | some keyword =>
    have hspelling := congrArg String.toList (spelling_of_ofWord? hfound)
    rw [String.toList_ofList] at hspelling
    cases keyword <;> exact absurd (List.cons.inj hspelling).1 (by decide)

theorem isNone_ofWord?_iff {word : String} :
    (ofWord? word).isNone ↔ ∀ keyword : Keyword, keyword.spelling ≠ word := by
  rw [Option.isNone_iff_eq_none]
  constructor
  · rintro hnone keyword rfl
    rw [ofWord?_spelling] at hnone
    cases hnone
  · intro hother
    cases hfound : ofWord? word with
    | none => rfl
    | some keyword => exact absurd (spelling_of_ofWord? hfound) (hother keyword)

end Keyword

namespace Identifier

/-! ### Characters -/

/-- The characters that stand in names: `A` to `Z`, `a` to `z`, `0` to `9` and the underscore. -/
def InNames (c : Char) : Prop :=
  'A' ≤ c ∧ c ≤ 'Z' ∨ 'a' ≤ c ∧ c ≤ 'z' ∨ '0' ≤ c ∧ c ≤ '9' ∨ c = '_'

section Ranges

variable {c : Char}

theorem isUpper_iff : c.isUpper ↔ 'A' ≤ c ∧ c ≤ 'Z' :=
  decide_eq_true_iff

theorem isLower_iff : c.isLower ↔ 'a' ≤ c ∧ c ≤ 'z' :=
  Bool.and_eq_true_iff.trans (and_congr decide_eq_true_iff decide_eq_true_iff)

theorem isDigit_iff : c.isDigit ↔ '0' ≤ c ∧ c ≤ '9' :=
  Bool.and_eq_true_iff.trans (and_congr decide_eq_true_iff decide_eq_true_iff)

theorem isAlpha_iff : c.isAlpha ↔ 'A' ≤ c ∧ c ≤ 'Z' ∨ 'a' ≤ c ∧ c ≤ 'z' :=
  Bool.or_eq_true_iff.trans (or_congr isUpper_iff isLower_iff)

theorem isStart_iff : isStart c ↔ 'A' ≤ c ∧ c ≤ 'Z' ∨ 'a' ≤ c ∧ c ≤ 'z' ∨ c = '_' := by
  rw [isStart, Bool.or_eq_true, decide_eq_true_eq, isAlpha_iff, or_assoc]

theorem isPart_iff : isPart c ↔ InNames c := by
  rw [isPart, Char.isAlphanum, Bool.or_eq_true, Bool.or_eq_true, decide_eq_true_eq, isAlpha_iff,
    isDigit_iff, or_assoc, or_assoc, InNames]

end Ranges

theorem isPart_of_isStart {c : Char} (h : isStart c) : isPart c := by
  rw [isStart, Bool.or_eq_true] at h
  rw [isPart, Bool.or_eq_true, Char.isAlphanum, Bool.or_eq_true]
  exact h.imp_left Or.inl

/-- Of the characters of names only the digits start none. -/
theorem isStart_iff_of_isPart {c : Char} (h : isPart c) : isStart c ↔ ¬('0' ≤ c ∧ c ≤ '9') := by
  rw [isStart_iff]
  constructor
  · rintro (hupper | hlower | rfl) hdigit
    · exact absurd (Char.le_trans hupper.1 hdigit.2) (by decide)
    · exact absurd (Char.le_trans hlower.1 hdigit.2) (by decide)
    · exact absurd hdigit.2 (by decide)
  · intro hdigit
    rcases isPart_iff.mp h with hupper | hlower | hfound | hunderscore
    · exact Or.inl hupper
    · exact Or.inr (Or.inl hlower)
    · exact absurd hfound hdigit
    · exact Or.inr (Or.inr hunderscore)

theorem isPart_of_isValid {s : String} (h : isValid s) : ∀ c ∈ s.toList, isPart c := by
  have hword := (Bool.and_eq_true_iff.mp h).1
  cases hlist : s.toList with
  | nil => exact List.forall_mem_nil _
  | cons c rest =>
    rw [hlist] at hword
    obtain ⟨hstart, hparts⟩ := Bool.and_eq_true_iff.mp hword
    exact List.forall_mem_cons.mpr ⟨isPart_of_isStart hstart, List.all_eq_true.mp hparts⟩

/-! ### Replaced characters -/

/-- What becomes of a character. -/
inductive Replaces : Char → Char → Prop
  | kept {c : Char} (h : InNames c) : Replaces c c
  | underscore {c : Char} (h : ¬InNames c) : Replaces c '_'

/-- A text with underscores for the characters that stand in no name. -/
def replaced (text : List Char) : List Char :=
  text.map fun c ↦ if isPart c then c else '_'

theorem replaces_iff {c d : Char} : Replaces c d ↔ (if isPart c then c else '_') = d := by
  constructor
  · rintro (h | h)
    · rw [if_pos (isPart_iff.mpr h)]
    · rw [if_neg fun hpart ↦ h (isPart_iff.mp hpart)]
  · rintro rfl
    split
    · next h => exact .kept (isPart_iff.mp h)
    · next h => exact .underscore fun hname ↦ h (isPart_iff.mpr hname)

theorem forall₂_replaces_iff {text body : List Char} :
    List.Forall₂ Replaces text body ↔ replaced text = body := by
  have hreplaces : Replaces = fun c d ↦ (if isPart c then c else '_') = d := by
    funext c d
    exact propext replaces_iff
  rw [hreplaces, ← List.forall₂_map_left_iff, List.forall₂_eq_eq_eq, replaced]

theorem isPart_of_mem_replaced {text : List Char} : ∀ c ∈ replaced text, isPart c := by
  intro c hc
  obtain ⟨d, -, rfl⟩ := List.mem_map.mp hc
  split
  · next h => exact h
  · decide

theorem replaced_eq_self {text : List Char} (h : ∀ c ∈ text, isPart c) : replaced text = text := by
  have hkept : replaced text = text.map id := List.map_congr_left fun c hc ↦ if_pos (h c hc)
  rw [hkept, List.map_id]

/-! ### Names without a further underscore -/

/-- Characters of names are no name if there are none, if a digit comes first or if they spell a
keyword. -/
inductive NeedsUnderscore : List Char → Prop
  | empty : NeedsUnderscore []
  | digit {c : Char} {rest : List Char} (h : '0' ≤ c ∧ c ≤ '9') : NeedsUnderscore (c :: rest)
  | keyword {keyword : Keyword} {body : List Char} (h : keyword.spelling.toList = body) :
    NeedsUnderscore body

theorem needsUnderscore_cons_iff {c : Char} {rest : List Char} :
    NeedsUnderscore (c :: rest) ↔
      '0' ≤ c ∧ c ≤ '9' ∨ ∃ keyword : Keyword, keyword.spelling.toList = c :: rest := by
  constructor
  · rintro (_ | h | h)
    · exact Or.inl h
    · exact Or.inr ⟨_, h⟩
  · rintro (h | ⟨keyword, h⟩)
    · exact .digit h
    · exact .keyword h

theorem isValid_ofList_iff {body : List Char} (h : ∀ c ∈ body, isPart c) :
    isValid (String.ofList body) ↔ ¬NeedsUnderscore body := by
  cases body with
  | nil => exact iff_of_false (by decide) (not_not_intro .empty)
  | cons c rest =>
    obtain ⟨hc, hrest⟩ := List.forall_mem_cons.mp h
    have hkeyword (keyword : Keyword) :
        keyword.spelling = String.ofList (c :: rest) ↔ keyword.spelling.toList = c :: rest := by
      rw [← String.toList_inj, String.toList_ofList]
    rw [isValid, String.toList_ofList, isWord, List.all_eq_true.mpr hrest, Bool.and_true,
      Bool.and_eq_true, isStart_iff_of_isPart hc, Keyword.isNone_ofWord?_iff,
      needsUnderscore_cons_iff, not_or, not_exists]
    simp only [ne_eq, hkeyword]

/-- Behind an underscore, characters of names are always a name. -/
theorem isValid_underscore {body : List Char} (h : ∀ c ∈ body, isPart c) :
    isValid (String.ofList ('_' :: body)) := by
  rw [isValid, String.toList_ofList, isWord, List.all_eq_true.mpr h, Keyword.ofWord?_underscore]
  rfl

/-! ### Repair -/

theorem repair_of_not_needsUnderscore {s : String} (h : ¬NeedsUnderscore (replaced s.toList)) :
    repair s = String.ofList (replaced s.toList) :=
  if_pos ((isValid_ofList_iff isPart_of_mem_replaced).mpr h)

theorem repair_of_needsUnderscore {s : String} (h : NeedsUnderscore (replaced s.toList)) :
    repair s = String.ofList ('_' :: replaced s.toList) :=
  if_neg fun hvalid ↦ (isValid_ofList_iff isPart_of_mem_replaced).mp hvalid h

/-- What a text is repaired to is an identifier. -/
theorem isValid_repair (s : String) : isValid (repair s) := by
  by_cases h : NeedsUnderscore (replaced s.toList)
  · rw [repair_of_needsUnderscore h]
    exact isValid_underscore isPart_of_mem_replaced
  · rw [repair_of_not_needsUnderscore h]
    exact (isValid_ofList_iff isPart_of_mem_replaced).mpr h

/-- Repair leaves identifiers as they are, and nothing else. -/
theorem repair_eq_self_iff {s : String} : repair s = s ↔ isValid s := by
  constructor
  · intro h
    rw [← h]
    exact isValid_repair s
  · intro h
    -- nothing is replaced in an identifier, and what is an identifier needs no underscore
    have hparts := isPart_of_isValid h
    have hsame := replaced_eq_self hparts
    rw [← String.ofList_toList (s := s), isValid_ofList_iff hparts, ← hsame] at h
    rw [repair_of_not_needsUnderscore h, hsame, String.ofList_toList]

/-- A text and the name that is made of it: each character is kept or becomes an underscore, and one
more underscore comes first if it is needed, and only then. -/
inductive Repairs (s : String) : String → Prop
  | plain {body : List Char} (h : List.Forall₂ Replaces s.toList body)
    (hneeds : ¬NeedsUnderscore body) : Repairs s (String.ofList body)
  | underscored {body : List Char} (h : List.Forall₂ Replaces s.toList body)
    (hneeds : NeedsUnderscore body) : Repairs s (String.ofList ('_' :: body))

theorem repair_eq_iff {s name : String} : repair s = name ↔ Repairs s name := by
  have hbody := forall₂_replaces_iff.mpr (Eq.refl (replaced s.toList))
  constructor
  · rintro rfl
    by_cases hneeds : NeedsUnderscore (replaced s.toList)
    · rw [repair_of_needsUnderscore hneeds]
      exact .underscored hbody hneeds
    · rw [repair_of_not_needsUnderscore hneeds]
      exact .plain hbody hneeds
  · rintro (⟨hfound, hneeds⟩ | ⟨hfound, hneeds⟩)
    · cases forall₂_replaces_iff.mp hfound
      exact repair_of_not_needsUnderscore hneeds
    · cases forall₂_replaces_iff.mp hfound
      exact repair_of_needsUnderscore hneeds

example : ["my-machine", "2024_fsm", "state", "tür", ""].map repair =
    ["my_machine", "_2024_fsm", "_state", "t_r", "_"] := by decide

end Identifier

end StateMachine
