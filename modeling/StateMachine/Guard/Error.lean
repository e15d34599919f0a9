import StateMachine.Numeric.Digits

/-!
Why a text is no guard, and where that shows: the offset counts the characters before the place.
-/

set_option autoImplicit false

namespace StateMachine.Guard

/-- What is wrong with a text. -/
inductive Flaw where
  | empty
  | trailingInput
  | missingParenthesis
  | noField
  | emptyField
  | malformedPath (path : String)
  | unterminatedText
  | unknownEscape (c : Char)
  | numberOutOfRange (number : String)
  | invalidNumber (number : String)
deriving DecidableEq, Repr

namespace Flaw

def message : Flaw → String
  | .empty => "empty guard expression"
  | .trailingInput => "unexpected trailing input"
  | .missingParenthesis => "expected ')'"
  | .noField => "field must start with 'ctx.'"
  | .emptyField => "empty field name"
  | .malformedPath path => "malformed field path '" ++ path ++ "'"
  | .unterminatedText => "unterminated string"
  | .unknownEscape c => "unknown escape '\\" ++ String.singleton c ++ "'"
  | .numberOutOfRange number => "number out of range: '" ++ number ++ "'"
  | .invalidNumber number => "invalid number: '" ++ number ++ "'"

end Flaw

structure ParseError where
  flaw : Flaw
  offset : Nat
deriving DecidableEq, Repr

namespace ParseError

def message (error : ParseError) : String :=
  error.flaw.message ++ " (at offset " ++ Nat.repr error.offset ++ ")"

end ParseError

end StateMachine.Guard
