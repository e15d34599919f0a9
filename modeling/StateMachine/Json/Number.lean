import StateMachine.Json.Basic

/-!
Reading the numbers of JSON text. A number without point and exponent is an integer if it fits;
minus zero and every other number is a double.

A double is read quickly rather than exactly: as many leading digits as fit into 64 bits form a
significand, the digits left out count as places only, and the significand, rounded to a double,
is multiplied or divided by the double nearest to a power of ten. For numbers of few digits this
is the nearest double; for long ones it may be a neighbour.
-/

set_option autoImplicit false

namespace StateMachine.Json

open Numeric

/-- The digits read so far: `significand * 10 ^ exponent`, and whether the significand is full. -/
structure Significand where
  significand : Nat
  exponent : Int
  full : Bool

namespace Significand

def empty : Significand :=
  ⟨0, 0, false⟩

/-- A digit before the point. Once a digit does not fit, it and all later ones count as places. -/
def wholeDigit (s : Significand) (c : Char) : Significand :=
  let next := s.significand * 10 + digitValue c
  if !s.full && next < 2 ^ (64 : Nat) then { s with significand := next }
  else { s with exponent := s.exponent + 1, full := true }

/-- A digit after the point. Once a digit does not fit, it and all later ones are dropped. -/
def fractionDigit (s : Significand) (c : Char) : Significand :=
  let next := s.significand * 10 + digitValue c
  if !s.full && next < 2 ^ (64 : Nat) then
    { s with significand := next, exponent := s.exponent - 1 }
  else { s with full := true }

def ofDigits (whole fraction : List Char) : Significand :=
  let before := whole.foldl wholeDigit empty
  fraction.foldl fractionDigit { before with full := false }

end Significand

/-- The double nearest to `10 ^ n`, for `n` at most 308. -/
def powerOfTen? (n : Nat) : Option FiniteDouble :=
  (Double.ofDecimal false 1 n).finite?

/-- `± significand * 10 ^ exponent` by one multiplication, or by at most two divisions. There is
no result beyond the range of doubles. -/
def scaled? (negative : Bool) (significand : Nat) (exponent : Int) : Option FiniteDouble := do
  let magnitude ← (Double.ofInt significand).finite?
  let start : FiniteDouble := if negative then magnitude.negate else magnitude
  if significand = 0 then return start
  else if 308 < exponent then none
  else if 0 ≤ exponent then (Double.scaleUp start (← powerOfTen? exponent.toNat)).finite?
  else if -308 ≤ exponent then
    (Double.scaleDown start (← powerOfTen? (-exponent).toNat)).finite?
  else if exponent < -616 then return .zero negative
  else
    let halfway ← (Double.scaleDown start (← powerOfTen? 308)).finite?
    (Double.scaleDown halfway (← powerOfTen? (-exponent - 308).toNat)).finite?

/-- The parts of a number: its sign, the digits before and after the point, and the exponent. -/
structure NumberText where
  negative : Bool
  whole : List Char
  fraction : Option (List Char)
  exponent : Option Int

namespace NumberText

/-- The number as a double. -/
def double? (t : NumberText) : Option JsonNumber :=
  let digits := Significand.ofDigits t.whole (t.fraction.getD [])
  (scaled? t.negative digits.significand (digits.exponent + t.exponent.getD 0)).map .double

/-- The number, if it is in range. -/
def value? (t : NumberText) : Option JsonNumber :=
  if t.fraction.isSome || t.exponent.isSome then t.double?
  else
    let magnitude := naturalValue t.whole
    if t.negative then
      if h : 0 < magnitude ∧ magnitude ≤ 2 ^ (63 : Nat) then
        some (.integer (-(magnitude : Int)) ⟨by omega, by omega⟩)
      else t.double?
    else
      if h : magnitude < 2 ^ (64 : Nat) then some (.integer magnitude ⟨by omega, by omega⟩)
      else t.double?

end NumberText

end StateMachine.Json
