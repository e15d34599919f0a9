import StateMachine.Numeric.Double

/-!
Numbers in guards: an optional minus sign, digits with an optional point among, before or after
them, and an optional exponent. `NumberText.split` takes as much of a text as may belong to a
number and loses nothing (`chars_split_append`); whether that is a number is `NumberText.isValid`.
-/

set_option autoImplicit false

namespace StateMachine.Guard

open Numeric

/-- The exponent of a number as it is written. -/
structure ExponentText where
  letter : Char
  sign : Option Char
  digits : List Char

/-- A number as it is written, part by part. -/
structure NumberText where
  minus : Bool
  whole : List Char
  fraction : Option (List Char)
  exponent : Option ExponentText

namespace ExponentText

def chars (e : ExponentText) : List Char :=
  e.letter :: (e.sign.toList ++ e.digits)

def value (e : ExponentText) : Int :=
  if e.sign = some '-' then -(naturalValue e.digits : Int) else naturalValue e.digits

/-- The exponent that a text starts with, and the rest. -/
def split : List Char → Option ExponentText × List Char
  | [] => (none, [])
  | c :: text =>
    if c = 'e' ∨ c = 'E' then
      match text with
      | [] => (some ⟨c, none, []⟩, [])
      | d :: rest =>
        if d = '+' ∨ d = '-' then
          (some ⟨c, some d, rest.takeWhile Char.isDigit⟩, rest.dropWhile Char.isDigit)
        else
          (some ⟨c, none, (d :: rest).takeWhile Char.isDigit⟩,
            (d :: rest).dropWhile Char.isDigit)
    else (none, c :: text)

theorem chars_split_append (text : List Char) :
    ((split text).1.map chars).getD [] ++ (split text).2 = text := by
  cases text with
  | nil => rfl
  | cons c text =>
    simp only [split]
    split
    · cases text with
      | nil => simp [chars]
      | cons d rest =>
        dsimp only
        split <;> simp [chars]
    · rfl

end ExponentText

namespace NumberText

/-- The number as it is written. -/
def chars (n : NumberText) : List Char :=
  (if n.minus then ['-'] else []) ++ n.whole ++
    (n.fraction.map ('.' :: ·)).getD [] ++ (n.exponent.map ExponentText.chars).getD []

/-- The part after the point that a text starts with, and the rest. -/
def splitFraction : List Char → Option (List Char) × List Char
  | [] => (none, [])
  | c :: rest =>
    if c = '.' then (some (rest.takeWhile Char.isDigit), rest.dropWhile Char.isDigit)
    else (none, c :: rest)

/-- The sign that a text starts with, and the rest. -/
def splitSign : List Char → Bool × List Char
  | [] => (false, [])
  | c :: rest => if c = '-' then (true, rest) else (false, c :: rest)

/-- As much of a text as may belong to a number, and the rest. -/
def split (text : List Char) : NumberText × List Char :=
  let (minus, unsigned) := splitSign text
  let (fraction, afterFraction) := splitFraction (unsigned.dropWhile Char.isDigit)
  let (exponent, rest) := ExponentText.split afterFraction
  (⟨minus, unsigned.takeWhile Char.isDigit, fraction, exponent⟩, rest)

theorem splitSign_append (text : List Char) :
    (if (splitSign text).1 then ['-'] else []) ++ (splitSign text).2 = text := by
  cases text with
  | nil => rfl
  | cons c rest =>
    simp only [splitSign]
    split <;> simp_all

theorem splitFraction_append (text : List Char) :
    ((splitFraction text).1.map ('.' :: ·)).getD [] ++ (splitFraction text).2 = text := by
  cases text with
  | nil => rfl
  | cons c rest =>
    simp only [splitFraction]
    split <;> simp_all

/-- Splitting loses nothing. -/
theorem chars_split_append (text : List Char) :
    (split text).1.chars ++ (split text).2 = text := by
  have hexponent := ExponentText.chars_split_append
    (splitFraction ((splitSign text).2.dropWhile Char.isDigit)).2
  have hfraction := splitFraction_append ((splitSign text).2.dropWhile Char.isDigit)
  have hwhole : (splitSign text).2.takeWhile Char.isDigit ++
      (splitSign text).2.dropWhile Char.isDigit = (splitSign text).2 :=
    List.takeWhile_append_dropWhile
  have hsign := splitSign_append text
  simp only [split, chars, List.append_assoc]
  rw [hexponent, hfraction, hwhole]
  exact hsign

/-- There is a digit before or after the point, and one in the exponent if there is an exponent. -/
def isValid (n : NumberText) : Bool :=
  !(n.whole ++ n.fraction.getD []).isEmpty && n.exponent.all fun e ↦ !e.digits.isEmpty

theorem length_chars_pos {n : NumberText} (h : n.isValid) : 0 < n.chars.length := by
  simp only [isValid, Bool.and_eq_true, Bool.not_eq_true', List.isEmpty_eq_false_iff] at h
  have hdigits : 0 < (n.whole ++ n.fraction.getD []).length := List.length_pos_iff.2 h.1
  rw [List.length_append] at hdigits
  cases hfraction : n.fraction with
  | none =>
    simp only [hfraction, Option.getD_none, List.length_nil] at hdigits
    simp only [chars, List.length_append]
    omega
  | some digits =>
    simp only [hfraction, Option.getD_some] at hdigits
    simp only [chars, hfraction, Option.map_some, Option.getD_some, List.length_append,
      List.length_cons]
    omega

/-- The double nearest to the number. -/
def toDouble (n : NumberText) : Double :=
  let fraction := n.fraction.getD []
  Double.ofDecimal n.minus (naturalValue (n.whole ++ fraction))
    ((n.exponent.map ExponentText.value).getD 0 - fraction.length)

end NumberText

end StateMachine.Guard
