import StateMachine.Text.Blank

/-!
Runs of characters of one class. A run ends where the text does not go on with the class, so a
reader that takes as many characters of the class as there are takes exactly the run.
-/

set_option autoImplicit false

namespace StateMachine.Text

/-- The text does not start with a character of the class. -/
def Stops (p : Char → Bool) (text : List Char) : Prop :=
  ∀ c ∈ text.head?, p c = false

variable {p q : Char → Bool} {run rest : List Char}

theorem stops_nil : Stops p [] := by
  simp [Stops]

theorem stops_cons {c : Char} : Stops p (c :: rest) ↔ p c = false := by
  simp [Stops]

theorem Stops.mono (h : Stops q rest) (hsub : ∀ c, p c → q c) : Stops p rest := by
  intro c hc
  have hq := h c hc
  rw [Bool.eq_false_iff] at hq ⊢
  exact fun hp ↦ hq (hsub c hp)

theorem Stops.append (h : Stops p run) (hrest : Stops p rest) : Stops p (run ++ rest) := by
  cases run with
  | nil => exact hrest
  | cons c run => exact stops_cons.mpr (stops_cons.mp h)

/-- A run of characters of another class does not go on with the class either. -/
theorem stops_append (hrun : ∀ c ∈ run, p c = false) (hrest : Stops p rest) :
    Stops p (run ++ rest) :=
  .append (fun c hc ↦ hrun c (List.mem_of_mem_head? hc)) hrest

theorem takeWhile_of_stops (h : Stops p rest) : rest.takeWhile p = [] := by
  cases rest with
  | nil => rfl
  | cons c rest => rw [List.takeWhile_cons_of_neg (by simp [stops_cons.mp h])]

theorem dropWhile_of_stops (h : Stops p rest) : rest.dropWhile p = rest := by
  cases rest with
  | nil => rfl
  | cons c rest => rw [List.dropWhile_cons_of_neg (by simp [stops_cons.mp h])]

theorem takeWhile_run (hrun : ∀ c ∈ run, p c) (hrest : Stops p rest) :
    (run ++ rest).takeWhile p = run := by
  rw [List.takeWhile_append_of_pos hrun, takeWhile_of_stops hrest, List.append_nil]

theorem dropWhile_run (hrun : ∀ c ∈ run, p c) (hrest : Stops p rest) :
    (run ++ rest).dropWhile p = rest := by
  rw [List.dropWhile_append_of_pos hrun, dropWhile_of_stops hrest]

/-! ### Blanks -/

theorem skipBlanks_of_stops (h : Stops isBlank rest) : skipBlanks rest = rest :=
  dropWhile_of_stops h

theorem skipBlanks_append {blanks : List Char} (h : ∀ c ∈ blanks, isBlank c) :
    skipBlanks (blanks ++ rest) = skipBlanks rest :=
  List.dropWhile_append_of_pos h

@[simp] theorem skipBlanks_blank : skipBlanks (' ' :: rest) = skipBlanks rest := by
  rw [skipBlanks, List.dropWhile_cons_of_pos (by decide), ← skipBlanks]

theorem isBlank_of_isDigit {c : Char} (h : c.isDigit) : isBlank c = false := by
  have hzero : '0'.val.toNat = 48 := rfl
  have hnine : '9'.val.toNat = 57 := rfl
  simp only [Char.isDigit, Bool.and_eq_true, decide_eq_true_eq, ge_iff_le,
    UInt32.le_iff_toNat_le] at h
  simp only [isBlank, blankRanges, List.any_cons, List.any_nil, Bool.or_false, Char.toNat,
    Bool.or_eq_false_iff, Bool.and_eq_false_iff, decide_eq_false_iff_not]
  omega

end StateMachine.Text
