import StateMachine.Numeric.Double

/-!
The shortest decimal of a double. Of the decimals with the fewest significant digits that read
back as the same double, `shortest` takes the nearest. It looks, for one digit, two digits and so
on, at the two neighbours of the number on the grid of decimals with so many digits. Seventeen
digits are always enough; were they not, the exact expansion would serve, so that the result reads
back in any case.
-/

set_option autoImplicit false

namespace StateMachine.Numeric

/-- Which neighbour is taken when both are equally near. -/
inductive TieRule where
  | toEven
  | upward
deriving DecidableEq

/-- The decimal `digits * 10 ^ exponent`. -/
structure Decimal where
  digits : Nat
  exponent : Int
deriving DecidableEq

namespace Decimal

/-- Drops the zeros at the end of the digits. -/
def trimmed (d : Decimal) : Decimal :=
  if h : d.digits ≠ 0 ∧ d.digits % 10 = 0 then
    trimmed ⟨d.digits / 10, d.exponent + 1⟩
  else d
termination_by d.digits
decreasing_by exact Nat.div_lt_self (Nat.pos_of_ne_zero h.1) (by decide)

/-- The exponent of the leading digit, as in `d.ddd * 10 ^ e`. -/
def scientificExponent (d : Decimal) : Int :=
  d.exponent + decimalLength d.digits - 1

/-- The decimal reads back as so many units. -/
def readsAs (d : Decimal) (units : Nat) : Bool :=
  match Double.ofDecimal false d.digits d.exponent with
  | .finite x => x.units == units
  | _ => false

/-- The exponent of the leading decimal digit of a positive number of units. -/
def leadingExponent (units : Nat) : Int :=
  (decimalLength (units * 10 ^ (324 : Nat) / unitsPerOne) : Int) - 325

/-- The number in steps of `10 ^ exponent`, as a quotient. -/
def inSteps (units : Nat) (exponent : Int) : Nat × Nat :=
  if 0 ≤ exponent then (units, unitsPerOne * 10 ^ exponent.toNat)
  else (units * 10 ^ (-exponent).toNat, unitsPerOne)

/-- The nearer of the two neighbours on the grid of multiples of `10 ^ exponent` that read back,
if one does. -/
def onGrid? (tie : TieRule) (units : Nat) (exponent : Int) : Option Decimal :=
  let (numerator, denominator) := inSteps units exponent
  let floor := numerator / denominator
  let remainder := numerator % denominator
  let lower : Decimal := ⟨floor, exponent⟩
  let upper : Decimal := ⟨floor + 1, exponent⟩
  let preferLower :=
    2 * remainder < denominator ||
      (2 * remainder == denominator && tie == .toEven && floor % 2 == 0)
  if lower.readsAs units && (preferLower || !upper.readsAs units) then some lower
  else if upper.readsAs units then some upper
  else none

/-- Every digit of the exact value. -/
def exact (units : Nat) : Decimal :=
  ⟨units * 5 ^ (1074 : Nat), -1074⟩

/-- The shortest decimal of a number of units; zero is the single digit `0`. -/
def shortest (tie : TieRule) (units : Nat) : Decimal :=
  if units = 0 then ⟨0, 0⟩
  else
    let lead := leadingExponent units
    let hit := (List.range 17).findSome? fun more ↦ onGrid? tie units (lead - (more : Nat))
    (hit.getD (exact units)).trimmed

end Decimal

end StateMachine.Numeric
