/-!
Decimal digits: the digits of a number and the number of some digits.
-/

set_option autoImplicit false

namespace StateMachine

-- Whole numbers have the powers of the core library, also where other powers are known.
attribute [scoped instance (2000)] instPowNat

end StateMachine

namespace StateMachine.Numeric

/-- The value of a decimal digit. -/
def digitValue (c : Char) : Nat :=
  c.toNat - '0'.toNat

/-- The value of a row of decimal digits; no digits are worth zero. -/
def naturalValue (digits : List Char) : Nat :=
  digits.foldl (fun n c ↦ n * 10 + digitValue c) 0

/-- The digits of a natural in base ten. -/
def naturalText (n : Nat) : List Char :=
  Nat.toDigits 10 n

/-- The digits of an integer in base ten, after a minus sign if it is negative. -/
def integerText (n : Int) : List Char :=
  if n < 0 then '-' :: naturalText n.natAbs else naturalText n.natAbs

/-- The number of decimal digits of a natural; zero has one. -/
def decimalLength (n : Nat) : Nat :=
  (naturalText n).length

end StateMachine.Numeric
