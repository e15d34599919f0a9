import StateMachine.CommandLine.Report

/-!
What the program says about its own use.
-/

set_option autoImplicit false

namespace StateMachine.CommandLine

def versionText : String :=
  "smc 0.1.0\n"

def helpText : String :=
  "Compiler for textual state machine specifications\n\n" ++
  "Usage: smc [--config FILE] COMMAND\n\n" ++
  "  check FILE... [--dump] [--format text|json] [--no-summary]\n" ++
  "  dump FILE [--format sm|json]\n" ++
  "  generate FILE [--output FILE]\n" ++
  "  visit FILE\n" ++
  "  simulate FILE --events LIST [--ctx JSON|@FILE]\n"

namespace UsageError

def message : UsageError → String
  | .noArguments | .missingCommand => "a command is missing"
  | .missingArgument => "a required argument is missing"
  | .unknownCommand => "there is no such command"
  | .unknownArgument => "an argument is not known here"
  | .invalidValue => "the value of an argument is missing or not valid"
  | .repeatedArgument => "an argument is given more than once"
  | .surplusValue => "an argument that takes no value has one"
  | .helpWanted => "help"
  | .versionWanted => "version"

/-- Help and the version go to the output stream; a mistake goes to the error stream, followed by
help. -/
def report (e : UsageError) : Report :=
  match e with
  | .helpWanted => ⟨helpText, "", e.exitCode⟩
  | .versionWanted => ⟨versionText, "", e.exitCode⟩
  | _ => ⟨"", "error: " ++ e.message ++ "\n\n" ++ helpText, e.exitCode⟩

end UsageError

def styleVariables : List String :=
  ["CLICOLOR_FORCE", "NO_COLOR", "CLICOLOR"]

/-- Are texts styled? They are on a terminal, unless the environment says otherwise. -/
def stylesWanted (environment : String → Option String) (terminal : Bool) : Bool :=
  if (environment "CLICOLOR_FORCE").any (· ≠ "0") then true
  else if (environment "NO_COLOR").isSome then false
  else terminal && (environment "CLICOLOR").all (· ≠ "0")

end StateMachine.CommandLine
