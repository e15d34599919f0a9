import StateMachine.Numeric.Digits
import StateMachine.Numeric.Rounding

/-!
Double precision numbers, exactly. A finite double is a sign and a whole number of units of
`2 ^ -1074`, of which at most 53 binary digits count; a `Double` is a finite one, an infinity or
the value that is no number. Arithmetic computes the exact result and rounds it once.

Zero has two signs that compare as equal; the value that is no number is equal to nothing, itself
included, and neither below nor above anything.
-/

set_option autoImplicit false

namespace StateMachine.Numeric

/-- One, in units of `2 ^ -1074`. -/
def unitsPerOne : Nat := 2 ^ (1074 : Nat)

/-- The number of units from which on a magnitude is infinite: `2 ^ 1024` in units. -/
def unitsLimit : Nat := 2 ^ (2098 : Nat)

theorem unitsLimit_pos : 0 < unitsLimit := by
  rw [unitsLimit]
  apply Nat.two_pow_pos

/-- A finite double: `± units * 2 ^ -1074`. -/
structure FiniteDouble where
  negative : Bool
  units : Nat
  units_lt : units < unitsLimit
  significant : Significant units
deriving DecidableEq

inductive Double where
  | finite (value : FiniteDouble)
  | infinite (negative : Bool)
  | notANumber
deriving DecidableEq

namespace FiniteDouble

def zero (negative : Bool) : FiniteDouble :=
  ⟨negative, 0, unitsLimit_pos, significant_of_lt (Nat.two_pow_pos 53)⟩

/-- The signed number of units. -/
def value (x : FiniteDouble) : Int :=
  if x.negative then -(x.units : Int) else x.units

def negate (x : FiniteDouble) : FiniteDouble :=
  { x with negative := !x.negative }

/-- Equality as numbers: the sign of zero does not count. -/
def sameValue (x y : FiniteDouble) : Bool :=
  x.value == y.value

def isZero (x : FiniteDouble) : Bool :=
  x.units == 0

/-- The rounded distance of two doubles is below `2 ^ -52`. -/
def closeTo (x y : FiniteDouble) : Bool :=
  roundToPrecision (x.value - y.value).natAbs 1 < 2 ^ (1022 : Nat)

end FiniteDouble

namespace Double

/-- The double nearest to `± numerator / denominator` units; a magnitude of `2 ^ 1024` or more
after rounding is infinite. -/
def ofQuotient (negative : Bool) (numerator denominator : Nat) : Double :=
  if h : roundToPrecision numerator denominator < unitsLimit then
    .finite ⟨negative, roundToPrecision numerator denominator, h,
      significant_roundToPrecision numerator denominator⟩
  else .infinite negative

/-- The double nearest to an integer. -/
def ofInt (n : Int) : Double :=
  ofQuotient (n < 0) (n.natAbs * unitsPerOne) 1

def finite? : Double → Option FiniteDouble
  | .finite x => some x
  | _ => none

/-- Equality as numbers. -/
def sameValue : Double → Double → Bool
  | .finite x, .finite y => x.sameValue y
  | .infinite s, .infinite t => s == t
  | _, _ => false

/-- Strictly below, as numbers. -/
def below : Double → Double → Bool
  | .finite x, .finite y => x.value < y.value
  | .finite _, .infinite negative => !negative
  | .infinite negative, .finite _ => negative
  | .infinite s, .infinite t => s && !t
  | _, _ => false

/-- Below or equal, as numbers. -/
def atMost (x y : Double) : Bool :=
  x.below y || x.sameValue y

/-- The exact product, rounded once. -/
def scaleUp (x y : FiniteDouble) : Double :=
  ofQuotient (x.negative != y.negative) (x.units * y.units) unitsPerOne

/-- The exact quotient, rounded once; meant for a divisor other than zero. -/
def scaleDown (x y : FiniteDouble) : Double :=
  ofQuotient (x.negative != y.negative) (x.units * unitsPerOne) y.units

/-- The double nearest to `± digits * 10 ^ exponent`. From `10 ^ 309` on every magnitude is
infinite and below `10 ^ -325` every one is zero, so the power is only computed in between. -/
def ofDecimal (negative : Bool) (digits : Nat) (exponent : Int) : Double :=
  if digits = 0 then .finite (.zero negative)
  else if 309 < decimalLength digits + exponent then .infinite negative
  else if decimalLength digits + exponent < -324 then .finite (.zero negative)
  else if 0 ≤ exponent then
    ofQuotient negative (digits * 10 ^ exponent.toNat * unitsPerOne) 1
  else
    ofQuotient negative (digits * unitsPerOne) (10 ^ (-exponent).toNat)

/-! ### The 64 bits of a double -/

/-- The bits of a magnitude: the biased exponent above 52 bits of fraction. -/
def magnitudeBits (units : Nat) : Nat :=
  if units < 2 ^ (52 : Nat) then units
  else (units.log2 - 51) * 2 ^ (52 : Nat) + (units / 2 ^ (units.log2 - 52) - 2 ^ (52 : Nat))

/-- The 64 bits, the sign uppermost. The value that is no number has many patterns; this is the
quiet one without payload. -/
def bits : Double → Nat
  | .finite x => (if x.negative then 2 ^ (63 : Nat) else 0) + magnitudeBits x.units
  | .infinite negative => (if negative then 2 ^ (63 : Nat) else 0) + 2047 * 2 ^ (52 : Nat)
  | .notANumber => 2047 * 2 ^ (52 : Nat) + 2 ^ (51 : Nat)

end Double

end StateMachine.Numeric
