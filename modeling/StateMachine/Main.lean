import StateMachine.CommandLine.Run
import StateMachine.CommandLine.Usage

/-!
The program: it reads its arguments and its environment, carries out the command on the files of
the system and prints the report.
-/

set_option autoImplicit false

namespace StateMachine

/-- The number of a system's error, which comes with either sign. -/
def errorNumber (code : UInt32) : Nat :=
  min code.toNat (0 - code).toNat

/-- The error of the file system as the library names it. -/
def FileError.ofSystem : IO.Error → FileError
  | .noFileOrDirectory _ _ _ => .notFound
  | .inappropriateType _ code details =>
    match errorNumber code with
    | 20 => .notDirectory
    | 21 => .isDirectory
    | n => .other (details ++ " (os error " ++ Nat.repr n ++ ")")
  | .permissionDenied _ code details =>
    .other (details ++ " (os error " ++ Nat.repr (errorNumber code) ++ ")")
  | e => .other (toString e)

/-- The files of the system. -/
def systemDisk : Disk IO where
  read path := do
    match ← (IO.FS.readBinFile path).toBaseIO with
    | .error e => return .error (.ofSystem e)
    | .ok content => return FileError.textOf content
  write path text := do
    match ← (IO.FS.writeFile path text).toBaseIO with
    | .error e => return .error (.ofSystem e)
    | .ok () => return .ok ()

/-- The variables of the environment that the program looks at. -/
def systemEnvironment : IO (String → Option String) := do
  let names := CommandLine.settingsVariable :: Settings.variableNames ++ CommandLine.styleVariables
  let values ← names.mapM fun name ↦ do return (name, ← IO.getEnv name)
  return fun name ↦ (values.lookup name).join

end StateMachine

open StateMachine in
def main (arguments : List String) : IO UInt32 := do
  let environment ← systemEnvironment
  let styled := CommandLine.stylesWanted environment (← (← IO.getStdout).isTty)
  let report ← CommandLine.respond systemDisk environment styled arguments
  IO.print report.output
  IO.eprint report.errors
  (← IO.getStdout).flush
  return report.exitCode.toUInt32
