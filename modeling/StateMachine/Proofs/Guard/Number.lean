import StateMachine.Guard.Number
import StateMachine.Numeric.Numeral
import StateMachine.Proofs.Numeric.ReadBack
import StateMachine.Proofs.Text.Run

/-!
Numerals are numbers of guards. A numeral of any style has the parts of a number
(`chars_ofNumeral`), taking such a number from the head of a text takes exactly the numeral
(`split_chars_append`), and its value is the double that was written (`toDouble_ofNumeral`).
-/

set_option autoImplicit false

namespace StateMachine.Guard

open Numeric
open Text (Stops stops_nil stops_cons takeWhile_run dropWhile_run dropWhile_of_stops
  takeWhile_of_stops)

/-- May a number go on with this character? -/
def continuesNumber (c : Char) : Bool :=
  c.isDigit || c = '.' || c = 'e' || c = 'E'

theorem continuesNumber_of_isDigit {c : Char} (h : c.isDigit) : continuesNumber c := by
  simp [continuesNumber, h]

/-- The characters of numbers. -/
def isNumberChar (c : Char) : Bool :=
  c.isDigit || ['-', '+', '.', 'e', 'E'].contains c

/-! ### Taking a number from a text -/

/-- An exponent that a number may have: a letter, at most a sign, and at least one digit. -/
structure ExponentText.WellFormed (e : ExponentText) : Prop where
  letter : e.letter = 'e' ∨ e.letter = 'E'
  sign : ∀ c ∈ e.sign, c = '+' ∨ c = '-'
  isDigit : ∀ c ∈ e.digits, c.isDigit
  digits_ne_nil : e.digits ≠ []

/-- A number whose rows of digits hold digits only. -/
structure NumberText.WellFormed (n : NumberText) : Prop where
  whole : ∀ c ∈ n.whole, c.isDigit
  fraction : ∀ digits ∈ n.fraction, ∀ c ∈ digits, c.isDigit
  exponent : ∀ e ∈ n.exponent, e.WellFormed
  isValid : n.isValid

theorem ExponentText.split_chars_append {e : ExponentText} (h : e.WellFormed) {rest : List Char}
    (hrest : Stops Char.isDigit rest) : ExponentText.split (e.chars ++ rest) = (some e, rest) := by
  obtain ⟨letter, sign, digits⟩ := e
  obtain ⟨hletter, hsign, hdigits, hne⟩ := h
  simp only at hletter hsign hdigits hne
  obtain ⟨d, more, rfl⟩ := List.exists_cons_of_ne_nil hne
  have htake := takeWhile_run hdigits hrest
  have hdrop := dropWhile_run hdigits hrest
  have hd : ¬(d = '+' ∨ d = '-') := by
    have hdigit := hdigits d List.mem_cons_self
    rintro (rfl | rfl) <;> revert hdigit <;> decide
  cases sign with
  | none =>
    simp only [List.cons_append] at htake hdrop
    simp only [ExponentText.chars, Option.toList_none, List.nil_append, List.cons_append,
      ExponentText.split, hletter, hd, if_true, if_false, htake, hdrop]
  | some c =>
    have hc := hsign c rfl
    simp only [ExponentText.chars, Option.toList_some, List.cons_append, List.nil_append,
      ExponentText.split, hletter, hc, if_true]
    rw [← List.cons_append, htake, hdrop]

/-- An exponent with a digit that is taken from a text is well-formed. -/
theorem ExponentText.wellFormed_split {text : List Char} {e : ExponentText}
    (h : e ∈ (ExponentText.split text).1) (hne : e.digits ≠ []) : e.WellFormed := by
  have hdigits (text : List Char) : ∀ c ∈ text.takeWhile Char.isDigit, c.isDigit :=
    List.all_eq_true.mp List.all_takeWhile
  unfold split at h
  split at h
  · cases h
  · next c text =>
    split at h
    · next hletter =>
      split at h
      · cases h
        exact absurd rfl hne
      · next d rest =>
        split at h
        · next hsign =>
          cases h
          exact ⟨hletter, by rintro _ ⟨⟩; exact hsign, hdigits _, hne⟩
        · cases h
          exact ⟨hletter, by rintro _ ⟨⟩, hdigits _, hne⟩
    · cases h

theorem ExponentText.isNumberChar_of_mem {e : ExponentText} (h : e.WellFormed) :
    ∀ c ∈ e.chars, isNumberChar c := by
  intro c hc
  simp only [chars, List.mem_cons, List.mem_append, Option.mem_toList] at hc
  rcases hc with rfl | hsign | hdigit
  · rcases h.letter with hletter | hletter <;> rw [hletter] <;> decide
  · rcases h.sign c hsign with rfl | rfl <;> decide
  · simp [isNumberChar, h.isDigit c hdigit]

theorem ExponentText.split_of_stops {rest : List Char} (h : Stops continuesNumber rest) :
    ExponentText.split rest = (none, rest) := by
  cases rest with
  | nil => rfl
  | cons c rest =>
    have hc : ¬(c = 'e' ∨ c = 'E') := by
      rintro (rfl | rfl) <;> exact absurd (stops_cons.mp h) (by decide)
    simp only [ExponentText.split, hc, if_false]

namespace NumberText

variable {rest : List Char}

theorem splitExponent_append {exponent : Option ExponentText}
    (h : ∀ e ∈ exponent, e.WellFormed) (hrest : Stops continuesNumber rest) :
    ExponentText.split ((exponent.map ExponentText.chars).getD [] ++ rest) = (exponent, rest) := by
  cases exponent with
  | none => exact ExponentText.split_of_stops hrest
  | some e =>
    exact ExponentText.split_chars_append (h e rfl)
      (hrest.mono fun _ hc ↦ continuesNumber_of_isDigit hc)

/-- An exponent, or what follows a number, starts with no digit and no point. -/
theorem stops_exponent {exponent : Option ExponentText} (h : ∀ e ∈ exponent, e.WellFormed)
    (hrest : Stops continuesNumber rest) :
    Stops (fun c ↦ c.isDigit || c = '.') ((exponent.map ExponentText.chars).getD [] ++ rest) := by
  cases exponent with
  | none =>
    exact hrest.mono fun c hc ↦ by
      simp only [Bool.or_eq_true] at hc
      simp only [continuesNumber, Bool.or_eq_true]
      exact Or.inl (Or.inl hc)
  | some e =>
    simp only [Option.map_some, Option.getD_some, ExponentText.chars, List.cons_append, stops_cons]
    rcases (h e rfl).letter with hletter | hletter <;> rw [hletter] <;> decide

theorem splitFraction_fraction_append {fraction : Option (List Char)}
    (h : ∀ digits ∈ fraction, ∀ c ∈ digits, c.isDigit)
    (hrest : Stops (fun c ↦ c.isDigit || c = '.') rest) :
    splitFraction ((fraction.map ('.' :: ·)).getD [] ++ rest) = (fraction, rest) := by
  have hdigit : Stops Char.isDigit rest := hrest.mono fun c hc ↦ by simp [hc]
  cases fraction with
  | none =>
    cases rest with
    | nil => rfl
    | cons c rest =>
      have hc : c ≠ '.' := by
        rintro rfl
        exact absurd (stops_cons.mp hrest) (by decide)
      simp [splitFraction, hc]
  | some digits =>
    simp only [Option.map_some, Option.getD_some, List.cons_append, splitFraction, if_true]
    rw [takeWhile_run (h digits rfl) hdigit, dropWhile_run (h digits rfl) hdigit]

theorem isDigit_of_mem_splitFraction {text digits : List Char}
    (h : digits ∈ (splitFraction text).1) : ∀ c ∈ digits, c.isDigit := by
  unfold splitFraction at h
  split at h
  · cases h
  · split at h
    · cases h
      exact List.all_eq_true.mp List.all_takeWhile
    · cases h

/-- A point, or what follows a number without fraction, is no digit. -/
theorem stops_fraction (fraction : Option (List Char))
    (hrest : Stops (fun c ↦ c.isDigit || c = '.') rest) :
    Stops Char.isDigit ((fraction.map ('.' :: ·)).getD [] ++ rest) := by
  cases fraction with
  | none => exact hrest.mono fun c hc ↦ by simp [hc]
  | some digits =>
    simp only [Option.map_some, Option.getD_some, List.cons_append, stops_cons]
    decide

/-- The part of a number behind its sign starts with a digit or a point. -/
theorem exists_cons_of_isValid {n : NumberText} (h : n.WellFormed) :
    ∃ c more, n.whole ++ (n.fraction.map ('.' :: ·)).getD [] = c :: more ∧
      (c.isDigit ∨ c = '.') := by
  have hvalid := h.isValid
  simp only [isValid, Bool.and_eq_true, Bool.not_eq_true', List.isEmpty_eq_false_iff] at hvalid
  cases hwhole : n.whole with
  | cons c more => exact ⟨c, _, rfl, Or.inl (h.whole c (by simp [hwhole]))⟩
  | nil =>
    cases hfraction : n.fraction with
    | none => simp [hwhole, hfraction] at hvalid
    | some digits => exact ⟨'.', digits, by simp, Or.inr rfl⟩

theorem isNumberChar_of_mem {n : NumberText} (h : n.WellFormed) :
    ∀ c ∈ n.chars, isNumberChar c := by
  intro c hc
  simp only [chars, List.mem_append] at hc
  rcases hc with ((hminus | hwhole) | hfraction) | hexponent
  · have hsign : c = '-' := by
      revert hminus
      cases n.minus <;> simp
    rw [hsign]
    decide
  · simp [isNumberChar, h.whole c hwhole]
  · cases hdigits : n.fraction with
    | none => simp [hdigits] at hfraction
    | some digits =>
      simp only [hdigits, Option.map_some, Option.getD_some, List.mem_cons] at hfraction
      rcases hfraction with rfl | hdigit
      · decide
      · simp [isNumberChar, h.fraction digits hdigits c hdigit]
  · cases he : n.exponent with
    | none => simp [he] at hexponent
    | some e =>
      simp only [he, Option.map_some, Option.getD_some] at hexponent
      exact ExponentText.isNumberChar_of_mem (h.exponent e he) c hexponent

theorem exists_cons_chars {n : NumberText} (h : n.WellFormed) :
    ∃ c more, n.chars = c :: more ∧ (c.isDigit ∨ c = '-' ∨ c = '.') := by
  obtain ⟨c, more, hhead, hc⟩ := exists_cons_of_isValid h
  cases hminus : n.minus with
  | true => exact ⟨'-', _, by simp only [chars, hminus]; rfl, Or.inr (Or.inl rfl)⟩
  | false =>
    refine ⟨c, more ++ (n.exponent.map ExponentText.chars).getD [], ?_, hc.imp_right Or.inr⟩
    simp only [chars, hminus, Bool.false_eq_true, if_false, List.nil_append, hhead,
      List.cons_append]

theorem splitSign_append_of_isValid {n : NumberText} (h : n.WellFormed) (rest : List Char) :
    splitSign ((if n.minus then ['-'] else []) ++
      (n.whole ++ (n.fraction.map ('.' :: ·)).getD [] ++ rest)) =
      (n.minus, n.whole ++ (n.fraction.map ('.' :: ·)).getD [] ++ rest) := by
  obtain ⟨c, more, hhead, hc⟩ := exists_cons_of_isValid h
  have hminus : c ≠ '-' := by
    rintro rfl
    revert hc
    decide
  rw [hhead]
  cases n.minus with
  | true => simp [splitSign]
  | false => simp [splitSign, hminus]

/-- Of a number and a text that does not go on with it, exactly the number is taken. -/
theorem split_chars_append {n : NumberText} (h : n.WellFormed)
    (hrest : Stops continuesNumber rest) : split (n.chars ++ rest) = (n, rest) := by
  have hexponent := splitExponent_append h.exponent hrest
  have hafter := stops_exponent h.exponent hrest
  have hfraction := splitFraction_fraction_append h.fraction hafter
  have hstop := stops_fraction n.fraction hafter
  have hsign := splitSign_append_of_isValid h
    ((n.exponent.map ExponentText.chars).getD [] ++ rest)
  have hwhole := takeWhile_run h.whole hstop
  have hbehind := dropWhile_run h.whole hstop
  simp only [List.append_assoc] at hsign
  simp only [split, chars, List.append_assoc, hsign, hwhole, hbehind, hfraction, hexponent]

/-- A valid number that is taken from a text is well-formed. -/
theorem wellFormed_split {text : List Char} (h : (split text).1.isValid) :
    (split text).1.WellFormed where
  whole := List.all_eq_true.mp List.all_takeWhile
  fraction := fun digits hdigits ↦
    isDigit_of_mem_splitFraction hdigits
  exponent := fun e he ↦ by
    simp only [isValid, Bool.and_eq_true] at h
    have hne := h.2
    rw [Option.all_eq_true] at hne
    exact ExponentText.wellFormed_split he (by simpa using hne e he)
  isValid := h

end NumberText

/-! ### Numerals -/

namespace NumberText

/-- The digits before and behind the point of `digits * 10 ^ exponent`. -/
def positionalParts (showsPoint : Bool) (digits : List Char) (exponent : Int) :
    List Char × Option (List Char) :=
  if 0 ≤ exponent then
    (digits ++ List.replicate exponent.toNat '0', if showsPoint then some ['0'] else none)
  else
    let places := (-exponent).toNat
    if digits.length ≤ places then
      (['0'], some (List.replicate (places - digits.length) '0' ++ digits))
    else
      (digits.take (digits.length - places), some (digits.drop (digits.length - places)))

/-- The digits before and behind the point of `d.ddd`. -/
def scientificParts (digits : List Char) : List Char × Option (List Char) :=
  match digits with
  | d :: e :: rest => ([d], some (e :: rest))
  | _ => (digits, none)

/-- The exponent of a numeral with this exponent of its leading digit. -/
def scientificExponent (marksPositive : Bool) (lead : Int) : ExponentText where
  letter := 'e'
  sign := if lead < 0 then some '-' else if marksPositive && 0 < lead then some '+' else none
  digits := naturalText lead.natAbs

/-- The numeral of a finite double, part by part. -/
def ofNumeral (style : NumeralStyle) (x : FiniteDouble) : NumberText :=
  let decimal := Decimal.shortest style.tie x.units
  let digits := naturalText decimal.digits
  let lead := decimal.scientificExponent
  if style.positional lead then
    let parts := positionalParts style.showsPoint digits decimal.exponent
    ⟨x.negative, parts.1, parts.2, none⟩
  else
    let parts := scientificParts digits
    ⟨x.negative, parts.1, parts.2, some (scientificExponent style.marksPositive lead)⟩

theorem positionalText_eq (showsPoint : Bool) (digits : List Char) (exponent : Int) :
    NumeralStyle.positionalText showsPoint digits exponent =
      (positionalParts showsPoint digits exponent).1 ++
        ((positionalParts showsPoint digits exponent).2.map ('.' :: ·)).getD [] := by
  simp only [NumeralStyle.positionalText, positionalParts]
  split
  · cases showsPoint <;> simp
  · split <;> simp

theorem scientificText_eq (marksPositive : Bool) (digits : List Char) (lead : Int) :
    NumeralStyle.scientificText marksPositive digits lead =
      (scientificParts digits).1 ++ ((scientificParts digits).2.map ('.' :: ·)).getD [] ++
        (scientificExponent marksPositive lead).chars := by
  have hmark : (if marksPositive && 0 < lead then ['+'] else []) ++ integerText lead =
      (scientificExponent marksPositive lead).sign.toList ++ naturalText lead.natAbs := by
    simp only [scientificExponent, integerText]
    by_cases hneg : lead < 0
    · have hpos : ¬ 0 < lead := by omega
      simp [hneg, hpos]
    · by_cases hmarked : marksPositive && 0 < lead <;> simp [hneg, hmarked]
  simp only [NumeralStyle.scientificText, ExponentText.chars, hmark]
  simp only [scientificParts]
  split <;> simp [scientificExponent]

theorem chars_ofNumeral (style : NumeralStyle) (x : FiniteDouble) :
    (ofNumeral style x).chars = style.finiteText x := by
  simp only [ofNumeral, NumeralStyle.finiteText, NumeralStyle.magnitudeText]
  split
  · rw [positionalText_eq]
    cases x.negative <;> simp [chars]
  · rw [scientificText_eq]
    cases x.negative <;> simp [chars]

/-! #### Their digits -/

theorem positionalParts_isDigit (showsPoint : Bool) {digits : List Char} (exponent : Int)
    (h : ∀ c ∈ digits, c.isDigit) :
    (∀ c ∈ (positionalParts showsPoint digits exponent).1, c.isDigit) ∧
      ∀ fraction ∈ (positionalParts showsPoint digits exponent).2, ∀ c ∈ fraction, c.isDigit := by
  have hzeros (n : Nat) : ∀ c ∈ List.replicate n '0', c.isDigit := by
    intro c hc
    rw [(List.mem_replicate.mp hc).2]
    decide
  have hzero : ∀ c ∈ ['0'], c.isDigit := List.forall_mem_singleton.mpr (by decide)
  simp only [positionalParts]
  split
  · refine ⟨fun c hc ↦ (List.mem_append.mp hc).elim (h c) (hzeros _ c), ?_⟩
    cases showsPoint <;> simp
  · split
    · refine ⟨hzero, fun fraction hfraction c hc ↦ ?_⟩
      cases hfraction
      exact (List.mem_append.mp hc).elim (hzeros _ c) (h c)
    · refine ⟨fun c hc ↦ h c (List.mem_of_mem_take hc), fun fraction hfraction c hc ↦ ?_⟩
      cases hfraction
      exact h c (List.mem_of_mem_drop hc)

theorem scientificParts_isDigit {digits : List Char} (h : ∀ c ∈ digits, c.isDigit) :
    (∀ c ∈ (scientificParts digits).1, c.isDigit) ∧
      ∀ fraction ∈ (scientificParts digits).2, ∀ c ∈ fraction, c.isDigit := by
  unfold scientificParts
  split
  · refine ⟨fun c hc ↦ ?_, fun fraction hfraction c hc ↦ ?_⟩
    · rw [List.mem_singleton.mp hc]
      exact h _ List.mem_cons_self
    · cases hfraction
      exact h c (List.mem_cons_of_mem _ hc)
  · exact ⟨h, by simp⟩

theorem scientificExponent_wellFormed (marksPositive : Bool) (lead : Int) :
    (scientificExponent marksPositive lead).WellFormed where
  letter := Or.inl rfl
  sign c hc := by
    simp only [scientificExponent] at hc
    split_ifs at hc
    · exact Or.inr (Option.mem_some_iff.mp hc).symm
    · exact Or.inl (Option.mem_some_iff.mp hc).symm
    · cases hc
  isDigit := isDigit_of_mem_naturalText
  digits_ne_nil := naturalText_ne_nil _

theorem positionalParts_ne_nil (showsPoint : Bool) {digits : List Char} (exponent : Int)
    (h : digits ≠ []) : (positionalParts showsPoint digits exponent).1 ≠ [] := by
  simp only [positionalParts]
  split
  · simp [h]
  · split
    · simp
    · simp only [ne_eq, List.take_eq_nil_iff, h, or_false]
      omega

theorem scientificParts_ne_nil {digits : List Char} (h : digits ≠ []) :
    (scientificParts digits).1 ≠ [] := by
  unfold scientificParts
  split
  · simp
  · exact h

/-- A numeral is a number. -/
theorem ofNumeral_wellFormed (style : NumeralStyle) (x : FiniteDouble) :
    (ofNumeral style x).WellFormed := by
  have hdigits := isDigit_of_mem_naturalText (n := (Decimal.shortest style.tie x.units).digits)
  have hne := naturalText_ne_nil (Decimal.shortest style.tie x.units).digits
  simp only [ofNumeral]
  split
  · obtain ⟨hwhole, hfraction⟩ := positionalParts_isDigit style.showsPoint
      (Decimal.shortest style.tie x.units).exponent hdigits
    have hwholeNe := positionalParts_ne_nil style.showsPoint
      (Decimal.shortest style.tie x.units).exponent hne
    exact ⟨hwhole, hfraction, by simp, by simp [isValid, hwholeNe]⟩
  · obtain ⟨hwhole, hfraction⟩ := scientificParts_isDigit hdigits
    have hexponent := scientificExponent_wellFormed style.marksPositive
      (Decimal.shortest style.tie x.units).scientificExponent
    refine ⟨hwhole, hfraction, ?_, ?_⟩
    · rintro e ⟨⟩
      exact hexponent
    · simp [isValid, scientificParts_ne_nil hne, hexponent.digits_ne_nil]

/-! #### Their value -/

theorem value_scientificExponent (marksPositive : Bool) (lead : Int) :
    (scientificExponent marksPositive lead).value = lead := by
  simp only [ExponentText.value, scientificExponent, naturalValue_naturalText]
  by_cases hneg : lead < 0
  · rw [if_pos hneg, if_pos rfl]
    omega
  · have hsign : (if marksPositive && 0 < lead then some '+' else none) ≠ some '-' := by
      split_ifs <;> simp
    rw [if_neg hneg, if_neg hsign]
    omega

theorem ofDecimal_positionalParts (negative showsPoint : Bool) (digits : List Char)
    (exponent : Int) :
    Double.ofDecimal negative
        (naturalValue ((positionalParts showsPoint digits exponent).1 ++
          (positionalParts showsPoint digits exponent).2.getD []))
        (0 - ((positionalParts showsPoint digits exponent).2.getD []).length) =
      Double.ofDecimal negative (naturalValue digits) exponent := by
  simp only [positionalParts]
  split
  · next hexponent =>
    cases showsPoint with
    | true =>
      have hzeros : List.replicate exponent.toNat '0' ++ ['0'] =
          List.replicate (exponent.toNat + 1) '0' := List.replicate_succ'.symm
      simp only [if_true, Option.getD_some, List.length_singleton, List.append_assoc]
      rw [hzeros, naturalValue_append_zeros, Double.ofDecimal_mul_pow]
      congr 1
      omega
    | false =>
      simp only [Bool.false_eq_true, if_false, Option.getD_none, List.append_nil, List.length_nil]
      rw [naturalValue_append_zeros, Double.ofDecimal_mul_pow]
      congr 1
      omega
  · next hexponent =>
    split
    · next hplaces =>
      have hzero : naturalValue (['0'] ++ (List.replicate ((-exponent).toNat - digits.length) '0' ++
          digits)) = naturalValue digits := by
        have hone : ['0'] = List.replicate 1 '0' := rfl
        rw [hone, naturalValue_zeros_append, naturalValue_zeros_append]
      rw [Option.getD_some, hzero, List.length_append, List.length_replicate]
      congr 1
      omega
    · next hplaces =>
      rw [Option.getD_some, List.take_append_drop, List.length_drop]
      congr 1
      omega

theorem scientificParts_append (digits : List Char) :
    (scientificParts digits).1 ++ (scientificParts digits).2.getD [] = digits := by
  unfold scientificParts
  split <;> simp

theorem length_scientificParts {digits : List Char} (h : digits ≠ []) :
    ((scientificParts digits).2.getD []).length + 1 = digits.length := by
  unfold scientificParts
  split
  · simp
  · next hshort =>
    match digits, h, hshort with
    | [_], _, _ => rfl
    | d :: e :: rest, _, hshort => exact absurd rfl (hshort d e rest)

/-- A numeral denotes the double that it was written for. -/
theorem toDouble_ofNumeral (style : NumeralStyle) (x : FiniteDouble) :
    (ofNumeral style x).toDouble = .finite x := by
  rw [← Decimal.ofDecimal_shortest style.tie x]
  simp only [ofNumeral]
  split
  · simp only [toDouble, Option.map_none, Option.getD_none]
    rw [ofDecimal_positionalParts, naturalValue_naturalText]
  · have hlength := length_scientificParts
      (naturalText_ne_nil (Decimal.shortest style.tie x.units).digits)
    simp only [toDouble, Option.map_some, Option.getD_some, value_scientificExponent,
      scientificParts_append, naturalValue_naturalText]
    congr 1
    simp only [Decimal.scientificExponent, decimalLength]
    omega

/-! ### Integers -/

/-- An integer as it is written. -/
def ofInteger (n : Int) : NumberText :=
  ⟨n < 0, naturalText n.natAbs, none, none⟩

theorem chars_ofInteger (n : Int) : (ofInteger n).chars = integerText n := by
  by_cases hneg : n < 0 <;> simp [ofInteger, chars, integerText, hneg]

theorem ofInteger_wellFormed (n : Int) : (ofInteger n).WellFormed where
  whole := isDigit_of_mem_naturalText
  fraction := by simp [ofInteger]
  exponent := by simp [ofInteger]
  isValid := by simp [ofInteger, isValid, naturalText_ne_nil]

/-- An integer of at most 64 bits is read as the double nearest to it. -/
theorem toDouble_ofInteger {n : Int} (h : n.natAbs ≤ 2 ^ (64 : Nat)) :
    (ofInteger n).toDouble = .ofInt n := by
  simp only [ofInteger, toDouble, Option.getD_none, List.append_nil, List.length_nil,
    Option.map_none, naturalValue_naturalText]
  exact Double.ofDecimal_natAbs h

end NumberText

end StateMachine.Guard
