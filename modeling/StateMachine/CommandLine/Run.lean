import StateMachine.CommandLine.Usage
import StateMachine.Json.Reader
import StateMachine.Python.Code
import StateMachine.Settings

/-!
Carrying out commands on a disk.
-/

set_option autoImplicit false

namespace StateMachine.CommandLine

/-- Why a command gives no report. -/
inductive CommandError where
  | load (error : LoadError)
  | settings (error : SettingsError)
  | generation (path : String) (error : Python.GenerationError)
  | simulation (error : SimulationError)
  | write (path : String) (error : FileError)
  | json
  | unreadableContext (path : String) (error : FileError)
deriving DecidableEq, Repr

namespace CommandError

def message : CommandError → String
  | .load error => error.message
  | .settings error => error.message
  | .generation path error => "cannot generate code for '" ++ path ++ "': " ++ error.message
  | .simulation error => "simulation failed: " ++ error.message
  | .write path error => "failed to write '" ++ path ++ "': " ++ error.message
  | .json => "JSON error"
  | .unreadableContext path error =>
    "invalid argument: cannot read '" ++ path ++ "': " ++ error.message

def exitCode : CommandError → Nat
  | .load error => error.exitCode
  | _ => exitFailure

def report (styled : Bool) (e : CommandError) : Report :=
  ⟨"", Style.red.paint styled "Error" ++ ": " ++ e.message ++ "\n", e.exitCode⟩

end CommandError

variable {m : Type → Type} [Monad m]

def loadFile (disk : Disk m) (path : String) : m (Except LoadError Machine) := do
  return machineOf path (← disk.read path)

/-- The context that a JSON text gives. -/
def contextOfText (text : String) : Except CommandError Json :=
  match Json.parse? text with
  | some value => .ok value
  | none => .error .json

/-- The context that an argument gives: JSON text, or after an `@` the path of a file with it.
Without an argument it is an empty object. -/
def context (disk : Disk m) : Option String → m (Except CommandError Json)
  | none => return .ok (.object [])
  | some argument =>
    match argument.toList with
    | '@' :: path => do
      match ← disk.read (String.ofList path) with
      | .error e => return .error (.unreadableContext (String.ofList path) e)
      | .ok text => return contextOfText text
    | _ => return contextOfText argument

/-- The report of `generate` on a program text. -/
def deliver (disk : Disk m) (styled : Bool) (machine : Machine) (program : String) :
    Option String → m (Except CommandError Report)
  | none => return .ok ⟨program, "", exitOk⟩
  | some path => do
    match ← disk.write path program with
    | .error e => return .error (.write path e)
    | .ok () =>
      return .ok ⟨"", Style.green.paint styled "Generated" ++ " " ++
        Style.cyan.paint styled machine.name ++ " -> " ++ path ++ "\n", exitOk⟩

/-- Carries out a command. -/
def execute (disk : Disk m) (styled : Bool) (settings : Settings) :
    Command → m (Except CommandError Report)
  | .check files dump format summary => do
    let loaded ← files.mapM fun path ↦ do
      return (⟨path, ← loadFile disk path⟩ : LoadedFile)
    return .ok (checkReport settings.check.options settings.check.warningsAsErrors
      ⟨dump, format, summary, styled⟩ loaded)
  | .dump file format => do
    match ← loadFile disk file with
    | .error e => return .error (.load e)
    | .ok machine =>
      let output := match format with
        | .source => machine.text
        | .json => String.ofList machine.toJson.pretty ++ "\n"
      return .ok ⟨output, "", exitOk⟩
  | .generate file output => do
    match ← loadFile disk file with
    | .error e => return .error (.load e)
    | .ok machine =>
      match Python.generate settings.codegen machine with
      | .error e => return .error (.generation file e)
      | .ok program => deliver disk styled machine program output
  | .visit file => do
    match ← loadFile disk file with
    | .error e => return .error (.load e)
    | .ok machine => return .ok ⟨(Summary.ofMachine machine).text, "", exitOk⟩
  | .simulate file events argument => do
    match ← loadFile disk file with
    | .error e => return .error (.load e)
    | .ok machine =>
      match ← context disk argument with
      | .error e => return .error e
      | .ok value =>
        match simulationReport styled machine value events with
        | .error e => return .error (.simulation e)
        | .ok report => return .ok report

/-- Loads the settings and carries out a command. -/
def perform (disk : Disk m) (environment : String → Option String) (styled : Bool)
    (invocation : Invocation) : m (Except CommandError Report) := do
  match ← Settings.load disk environment invocation.settings with
  | .error e => return .error (.settings e)
  | .ok settings => execute disk styled settings invocation.command

/-- The variable that names a file of settings. -/
def settingsVariable : String := "SMC_CONFIG"

/-- The report of the whole program. -/
def respond (disk : Disk m) (environment : String → Option String) (styled : Bool)
    (arguments : List String) : m Report := do
  match read (environment settingsVariable) arguments with
  | .error e => return e.report
  | .ok invocation =>
    match ← perform disk environment styled invocation with
    | .error e => return e.report styled
    | .ok report => return report

end StateMachine.CommandLine
