import StateMachine.Guard.Error
import StateMachine.Token.Basic

/-!
Why a text is no machine description, and where that shows.
-/

set_option autoImplicit false

namespace StateMachine

/-- What a description demanded at some place. -/
inductive Expectation where
  | keyword (word : Keyword)
  | arrow
  | fatArrow
  | machineName
  | stateName
  | sourceState
  | targetState
  | eventName
  | actionName
  | eventOrEnd
  | commandOrEnd
  | stateClause
  | declaration
  | endOfLine
deriving DecidableEq, Repr

namespace Expectation

def description : Expectation → String
  | .keyword word => "'" ++ word.spelling ++ "'"
  | .arrow => "'->'"
  | .fatArrow => "'=>'"
  | .machineName => "machine name"
  | .stateName => "state name"
  | .sourceState => "source state"
  | .targetState => "target state"
  | .eventName => "event name"
  | .actionName => "action name"
  | .eventOrEnd => "event name or 'end'"
  | .commandOrEnd => "command name or 'end'"
  | .stateClause => "'entry', 'exit', a transition or 'end'"
  | .declaration => "a declaration"
  | .endOfLine => "end of line"

end Expectation

/-- The two actions that a state may have. -/
inductive Hook where
  | entry
  | exit
deriving DecidableEq, Repr

namespace Hook

def keyword : Hook → Keyword
  | .entry => .entry
  | .exit => .exit

end Hook

namespace SyntaxError

inductive Cause where
  | unexpectedCharacter (c : Char)
  | unterminatedGuard
  | unexpectedToken (expected : Expectation) (found : Lexeme)
  | duplicateClause (hook : Hook) (state : String)
  | misplacedHeader
  | invalidGuard (flaw : Guard.Flaw)
deriving DecidableEq, Repr

namespace Cause

def message : Cause → String
  | .unexpectedCharacter c => "unexpected character '" ++ String.singleton c ++ "'"
  | .unterminatedGuard => "unterminated guard, expected ']'"
  | .unexpectedToken expected found =>
    "expected " ++ expected.description ++ ", found " ++ found.description
  | .duplicateClause hook state =>
    "state '" ++ state ++ "' already has an " ++ hook.keyword.spelling ++ " action"
  | .misplacedHeader => "'machine' header must be the first declaration"
  | .invalidGuard flaw => "invalid guard expression: " ++ flaw.message

/-- A stable name of the kind of error. -/
def code : Cause → String
  | .unexpectedCharacter _ => "UNEXPECTED_CHARACTER"
  | .unterminatedGuard => "UNTERMINATED_GUARD"
  | .unexpectedToken _ _ => "UNEXPECTED_TOKEN"
  | .duplicateClause _ _ => "DUPLICATE_CLAUSE"
  | .misplacedHeader => "MISPLACED_HEADER"
  | .invalidGuard _ => "INVALID_GUARD"

end Cause

end SyntaxError

structure SyntaxError where
  location : Location
  cause : SyntaxError.Cause
deriving DecidableEq, Repr

namespace SyntaxError

def message (error : SyntaxError) : String :=
  error.location.text ++ ": " ++ error.cause.message

end SyntaxError

end StateMachine
