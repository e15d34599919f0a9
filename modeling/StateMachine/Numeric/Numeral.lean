import StateMachine.Numeric.Shortest

/-!
Numerals: how a double is written. Every style writes the shortest digits that read back and
differs from the others in where it is positional, whether a whole number shows its point, and how
it marks an exponent. The styles in use are the records at the end.
-/

set_option autoImplicit false

namespace StateMachine.Numeric

/-- How a numeral is laid out. -/
structure NumeralStyle where
  tie : TieRule
  /-- Is a number with this exponent of its leading digit written without an exponent? -/
  positional : Int → Bool
  /-- Whole numbers in positional notation end in `.0`. -/
  showsPoint : Bool
  /-- Positive exponents carry a plus sign. -/
  marksPositive : Bool

namespace NumeralStyle

/-- `digits * 10 ^ exponent` with its point in place. -/
def positionalText (showsPoint : Bool) (digits : List Char) (exponent : Int) : List Char :=
  if 0 ≤ exponent then
    digits ++ List.replicate exponent.toNat '0' ++ (if showsPoint then ['.', '0'] else [])
  else
    let places := (-exponent).toNat
    if digits.length ≤ places then
      '0' :: '.' :: (List.replicate (places - digits.length) '0' ++ digits)
    else
      digits.take (digits.length - places) ++ '.' :: digits.drop (digits.length - places)

/-- `d.ddd` and the exponent of the leading digit. -/
def scientificText (marksPositive : Bool) (digits : List Char) (lead : Int) : List Char :=
  let mantissa := match digits with
    | d :: e :: rest => d :: '.' :: e :: rest
    | _ => digits
  let mark := if marksPositive && 0 < lead then ['+'] else []
  mantissa ++ 'e' :: (mark ++ integerText lead)

/-- The text of a magnitude. -/
def magnitudeText (style : NumeralStyle) (units : Nat) : List Char :=
  let decimal := Decimal.shortest style.tie units
  let digits := naturalText decimal.digits
  let lead := decimal.scientificExponent
  if style.positional lead then positionalText style.showsPoint digits decimal.exponent
  else scientificText style.marksPositive digits lead

def finiteText (style : NumeralStyle) (x : FiniteDouble) : List Char :=
  if x.negative then '-' :: style.magnitudeText x.units else style.magnitudeText x.units

def text (style : NumeralStyle) : Double → List Char
  | .finite x => style.finiteText x
  | .infinite false => ['i', 'n', 'f']
  | .infinite true => ['-', 'i', 'n', 'f']
  | .notANumber => ['N', 'a', 'N']

/-- Numbers in JSON: positional from `10 ^ -5` up to `10 ^ 16`, always with a point or an
exponent, and a plus sign before a positive exponent. -/
def json : NumeralStyle where
  tie := .toEven
  positional lead := -5 ≤ lead && lead ≤ 15
  showsPoint := true
  marksPositive := true

/-- Bounds of comparisons: always positional, whole numbers without a point. -/
def plain : NumeralStyle where
  tie := .upward
  positional _ := true
  showsPoint := false
  marksPositive := false

/-- Operands in generated code: positional from `10 ^ -4` up to `10 ^ 16`, always with a point or
an exponent, positive exponents unmarked. -/
def operand : NumeralStyle where
  tie := .upward
  positional lead := -4 ≤ lead && lead ≤ 15
  showsPoint := true
  marksPositive := false

end NumeralStyle

end StateMachine.Numeric
