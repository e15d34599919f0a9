import Mathlib
import StateMachine.Proofs.Python.Accepted
import StateMachine.Python.Name

/-!
The names of classes. A word made of the parts of a name is empty exactly if the name has nothing
but underscores (`pascalCase_eq_empty_iff`). Otherwise it starts with a character that is no
lower-case letter, and an underscore at its start is followed by a digit, so that it can be no name
of another fashion (`pascalCase_eq_empty_of_startsLow`).

What a program is generated for has names that are names (`isName_of_generate`).
-/

set_option autoImplicit false

namespace StateMachine.Python

/-! ### Words made of parts -/

/-- The parts of a text between underscores, each with its first letter in upper case. -/
def capitalized (text : List Char) : List Char :=
  (Text.parts '_' text).flatMap capitalize

theorem capitalized_nil : capitalized [] = [] :=
  rfl

theorem capitalized_underscore (rest : List Char) :
    capitalized ('_' :: rest) = capitalized rest := by
  simp [capitalized, Text.parts, capitalize]

/-- A word starts with the first character of its text that is no underscore, in upper case. -/
theorem exists_capitalized_cons {c : Char} (hc : c ≠ '_') (rest : List Char) :
    ∃ more, capitalized (c :: rest) = c.toUpper :: more := by
  unfold capitalized
  cases hparts : Text.parts '_' rest with
  | nil => exact absurd hparts (Text.parts_ne_nil '_' rest)
  | cons part others =>
    refine ⟨part ++ others.flatMap capitalize, ?_⟩
    simp [Text.parts, hc, hparts, capitalize]

/-- The word is empty, or it starts with a letter in upper case or another character that is
neither a letter nor an underscore. -/
theorem capitalized_cases (text : List Char) :
    (capitalized text = [] ∧ ∀ c ∈ text, c = '_') ∨
      ∃ c more, capitalized text = c.toUpper :: more ∧ c ≠ '_' ∧ c ∈ text := by
  induction text with
  | nil => exact Or.inl ⟨capitalized_nil, List.forall_mem_nil _⟩
  | cons c rest ih =>
    by_cases hc : c = '_'
    · subst hc
      rw [capitalized_underscore]
      rcases ih with ⟨hnil, hall⟩ | ⟨d, more, hword, hd, hmem⟩
      · exact Or.inl ⟨hnil, List.forall_mem_cons.mpr ⟨rfl, hall⟩⟩
      · exact Or.inr ⟨d, more, hword, hd, List.mem_cons_of_mem _ hmem⟩
    · obtain ⟨more, hword⟩ := exists_capitalized_cons hc rest
      exact Or.inr ⟨c, more, hword, hc, List.mem_cons_self⟩

/-- A class name is a word, behind an underscore if the word starts with a digit. -/
theorem toList_pascalCase (name : String) :
    (pascalCase name).toList = capitalized name.toList ∨
      (pascalCase name).toList = '_' :: capitalized name.toList ∧
        (capitalized name.toList).head?.any Char.isDigit := by
  unfold pascalCase
  dsimp only
  split
  · next hdigit => exact Or.inr ⟨String.toList_ofList, hdigit⟩
  · exact Or.inl String.toList_ofList

/-- Of a name that has nothing but underscores no word is left. -/
theorem pascalCase_eq_empty_iff {name : String} :
    pascalCase name = "" ↔ ∀ c ∈ name.toList, c = '_' := by
  rw [← String.toList_inj, String.toList_empty]
  rcases capitalized_cases name.toList with ⟨hnil, hall⟩ | ⟨c, more, hword, hc, hmem⟩
  · rcases toList_pascalCase name with hname | ⟨-, hdigit⟩
    · exact iff_of_true (hname.trans hnil) hall
    · rw [hnil] at hdigit
      cases hdigit
  · refine iff_of_false (fun hempty ↦ ?_) fun hall ↦ hc (hall c hmem)
    rcases toList_pascalCase name with hname | ⟨hname, -⟩
    · rw [hname, hword] at hempty
      cases hempty
    · rw [hname] at hempty
      cases hempty

/-! ### Names of another fashion -/

/-- The text starts with a lower-case letter, or with an underscore and a character that is no
digit. -/
def startsLow : List Char → Bool
  | '_' :: c :: _ => !c.isDigit
  | c :: _ => c.isLower
  | [] => false

theorem startsLow_cons {c : Char} (hc : c ≠ '_') (rest : List Char) :
    startsLow (c :: rest) = c.isLower := by
  unfold startsLow
  split
  · next heq => exact absurd (List.cons.inj heq).1 hc
  · next heq =>
    obtain ⟨rfl, -⟩ := List.cons.inj heq
    rfl
  · next heq => cases heq

/-- No character has the underscore for its upper case, except itself. -/
theorem toUpper_ne_underscore {c : Char} (hc : c ≠ '_') : c.toUpper ≠ '_' := by
  intro heq
  have halpha : c.isAlpha = false := by
    rw [← Char.isUpper_toUpper_eq_isAlpha, heq]
    rfl
  have hlower : ¬c.isLower := by
    rw [(Bool.or_eq_false_iff.mp halpha).2]
    exact Bool.false_ne_true
  exact hc ((Char.toUpper_eq_of_not_isLower hlower).symm.trans heq)

/-- A class name only starts like a name of another fashion if there is nothing of the name that it
is made from. -/
theorem pascalCase_eq_empty_of_startsLow {name more : String}
    (h : startsLow (pascalCase name ++ more).toList) : pascalCase name = "" := by
  rw [String.toList_append] at h
  rcases capitalized_cases name.toList with ⟨-, hall⟩ | ⟨c, others, hword, hc, -⟩
  · exact pascalCase_eq_empty_iff.mpr hall
  · rcases toList_pascalCase name with hname | ⟨hname, hdigit⟩
    · rw [hname, hword, List.cons_append, startsLow_cons (toUpper_ne_underscore hc),
        Char.isLower_toUpper_eq_false] at h
      cases h
    · rw [hword, List.head?_cons, Option.any_some] at hdigit
      rw [hname, hword] at h
      simp [startsLow, hdigit] at h

/-- What only holds of names of another fashion holds of a class name if it is the suffix alone. -/
theorem pascalCase_append_iff {p : String → Prop} (hlow : ∀ word, p word → startsLow word.toList)
    {name suffix : String} :
    p (pascalCase name ++ suffix) ↔ p suffix ∧ ∀ c ∈ name.toList, c = '_' := by
  rw [← pascalCase_eq_empty_iff]
  constructor
  · intro h
    have hempty := pascalCase_eq_empty_of_startsLow (hlow _ h)
    rw [hempty, String.empty_append] at h
    exact ⟨h, hempty⟩
  · rintro ⟨h, hempty⟩
    rwa [hempty, String.empty_append]

/-! ### Names of a program -/

theorem isNamePart_of_isNameStart {c : Char} (h : isNameStart c) : isNamePart c := by
  simp only [isNameStart, isNamePart, Char.isAlphanum, Bool.or_eq_true] at h ⊢
  exact h.imp_left Or.inl

theorem isName_iff {s : String} : isName s ↔
    s.toList.head?.any isNameStart ∧ (∀ c ∈ s.toList, isNamePart c) ∧ s ∉ keywords := by
  unfold isName
  split
  · next hnil => simp [hnil]
  · next c rest hlist =>
    rw [hlist, List.forall_mem_cons]
    simp only [List.head?_cons, Option.any_some, Bool.and_eq_true, List.all_eq_true,
      Bool.not_eq_true', List.contains_eq_mem, decide_eq_false_iff_not]
    constructor
    · rintro ⟨⟨hstart, hparts⟩, hkeyword⟩
      exact ⟨hstart, ⟨isNamePart_of_isNameStart hstart, hparts⟩, hkeyword⟩
    · rintro ⟨hstart, ⟨-, hparts⟩, hkeyword⟩
      exact ⟨⟨hstart, hparts⟩, hkeyword⟩

theorem isNamePart_of_isName {s : String} (h : isName s) : ∀ c ∈ s.toList, isNamePart c :=
  (isName_iff.mp h).2.1

theorem isNameStart_of_isDigit {c : Char} (h : c.isDigit) : isNameStart c = false := by
  have hne : c ≠ '_' := by
    rintro rfl
    cases h
  simp only [Char.isDigit, Bool.and_eq_true, decide_eq_true_eq, ge_iff_le,
    UInt32.le_iff_toNat_le] at h
  simp only [isNameStart, Char.isAlpha, Char.isUpper, Char.isLower, hne, decide_false,
    Bool.or_false, Bool.or_eq_false_iff, Bool.and_eq_false_iff, decide_eq_false_iff_not,
    ge_iff_le, UInt32.le_iff_toNat_le]
  have hnine : '9'.val.toNat = 57 := rfl
  have hupper : 'A'.val.toNat = 65 := rfl
  have hlower : 'a'.val.toNat = 97 := rfl
  omega

theorem ne_empty_of_isName {s : String} (h : isName s) : s ≠ "" := by
  rintro rfl
  cases h

/-- All names that the program is to define are names. -/
theorem isName_of_generate {options : Options} {m : Machine} {text : String}
    (h : generate options m = .ok text) : ∀ pair ∈ generatedNames options m, isName pair.2 := by
  obtain ⟨_, hprogram, -⟩ := bind_eq_ok.mp h
  obtain ⟨_, hvalidate, -⟩ := bind_eq_ok.mp hprogram
  obtain ⟨_, -, hmore⟩ := bind_eq_ok.mp hvalidate
  obtain ⟨_, -, hmore⟩ := bind_eq_ok.mp hmore
  obtain ⟨_, -, hmore⟩ := bind_eq_ok.mp hmore
  obtain ⟨_, -, hmore⟩ := bind_eq_ok.mp hmore
  obtain ⟨_, hnames, -⟩ := bind_eq_ok.mp hmore
  unfold checkNames at hnames
  split at hnames
  · cases hnames
  · next hnone =>
    intro pair hpair
    simpa using List.find?_eq_none.mp hnone pair hpair

end StateMachine.Python
