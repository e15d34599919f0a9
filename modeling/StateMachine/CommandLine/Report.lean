import StateMachine.CommandLine.Arguments
import StateMachine.Disk
import StateMachine.Machine.Encoding
import StateMachine.Machine.Summary
import StateMachine.Check.Rules
import StateMachine.Simulation

/-!
What commands report: texts for the two output streams and an exit status. Diagnostics, summaries
and errors go to the error stream, results to the output stream. An exit status only ever rises.
-/

set_option autoImplicit false

namespace StateMachine.CommandLine

/-- The result of a command. -/
structure Report where
  output : String
  errors : String
  exitCode : Nat
deriving DecidableEq, Repr

/-- Success. -/
def exitOk : Nat := 0

/-- A check found errors, or warnings that count as errors. -/
def exitDiagnostics : Nat := 1

/-- A file is no machine description. -/
def exitSyntax : Nat := 2

/-- A file cannot be read or written, or the command cannot be carried out. -/
def exitFailure : Nat := 3

/-! ### Styles -/

inductive Style where
  | red
  | boldRed
  | boldYellow
  | green
  | cyan
  | yellow
  | dimmed
  | bold
deriving DecidableEq, Repr

namespace Style

/-- The code of the style on a terminal. -/
def code : Style → String
  | .red => "31"
  | .boldRed => "1;31"
  | .boldYellow => "1;33"
  | .green => "32"
  | .cyan => "36"
  | .yellow => "33"
  | .dimmed => "2"
  | .bold => "1"

/-- The text in the style, if there are styles. -/
def paint (style : Style) (styled : Bool) (text : String) : String :=
  if styled then "\x1b[" ++ style.code ++ "m" ++ text ++ "\x1b[0m" else text

end Style

/-! ### Loading machines -/

/-- Why there is no machine in a file. -/
inductive LoadError where
  | unreadable (path : String) (error : FileError)
  | malformed (path : String) (error : SyntaxError)
deriving DecidableEq, Repr

namespace LoadError

def message : LoadError → String
  | .unreadable path error => "failed to read '" ++ path ++ "': " ++ error.message
  | .malformed path error => path ++ ":" ++ error.message

def code : LoadError → String
  | .unreadable _ _ => "IO_ERROR"
  | .malformed _ error => error.cause.code

def exitCode : LoadError → Nat
  | .unreadable _ _ => exitFailure
  | .malformed _ _ => exitSyntax

end LoadError

/-- The last part of a path without its extension. A name that starts with its only dot has no
extension. -/
def fileStem (path : String) : String :=
  let name := ((Text.parts '/' path.toList).getLast?).getD []
  let reversed := name.reverse
  let extension := reversed.takeWhile (· ≠ '.')
  match reversed.drop (extension.length + 1) with
  | [] => String.ofList name
  | stem => String.ofList stem.reverse

/-- The machine that a file describes, named after the file if it has no header. -/
def machineOf (path : String) (content : Except FileError String) : Except LoadError Machine :=
  match content with
  | .error e => .error (.unreadable path e)
  | .ok text =>
    match Machine.parseNamed (fileStem path) text with
    | .ok m => .ok m
    | .error e => .error (.malformed path e)

/-! ### Checks -/

/-- How a check is reported. -/
structure CheckStyle where
  dump : Bool
  format : CheckFormat
  summary : Bool
  styled : Bool

/-- A file with what became of it. -/
structure LoadedFile where
  path : String
  result : Except LoadError Machine

/-- A line about an error. -/
def errorLine (styled : Bool) (message : String) : String :=
  Style.boldRed.paint styled "error" ++ ": " ++ message ++ "\n"

/-- A line about a diagnostic of a file. -/
def diagnosticLine (styled : Bool) (path : String) (d : Diagnostic) : String :=
  let style := match d.severity with
    | .error => Style.boldRed
    | .warning => Style.boldYellow
  path ++ ":" ++ d.location.text ++ ": " ++ style.paint styled d.label ++ ": " ++
    d.problem.message ++ "\n"

/-- What a check of one file says on the error stream. -/
def fileErrors (options : CheckOptions) (style : CheckStyle) (file : LoadedFile) : String :=
  match file.result with
  | .error e => errorLine style.styled e.message
  | .ok m =>
    match style.format with
    | .json => ""
    | .text =>
      (if style.summary then (Summary.ofMachine m).text else "") ++
        String.join ((m.check options).map (diagnosticLine style.styled file.path))

/-- The entry of a file in the JSON report; a file without a machine has none. -/
def fileEntry (options : CheckOptions) (dump : Bool) (file : LoadedFile) : Option Json :=
  match file.result with
  | .error _ => none
  | .ok m =>
    some (.ofMembers
      ([("file", .string file.path), ("machine", .string m.name),
        ("checksum", .string m.checksum),
        ("diagnostics", .array ((m.check options).map Diagnostic.toJson))] ++
        if dump then [("source", .string m.text)] else []))

/-- What a check of some files says on the output stream. -/
def checkOutput (options : CheckOptions) (style : CheckStyle) (files : List LoadedFile) : String :=
  match style.format with
  | .json =>
    String.ofList (Json.pretty (.array (files.filterMap (fileEntry options style.dump)))) ++ "\n"
  | .text =>
    if style.dump then
      String.join (files.map fun file ↦
        match file.result with
        | .ok m => m.text
        | .error _ => "")
    else ""

/-- The diagnostics of all files that have a machine. -/
def allDiagnostics (options : CheckOptions) (files : List LoadedFile) : List Diagnostic :=
  files.flatMap fun file ↦
    match file.result with
    | .ok m => m.check options
    | .error _ => []

/-- The line that counts files, errors and warnings. -/
def totalsLine (styled : Bool) (files : Nat) (diagnostics : List Diagnostic) : String :=
  Style.bold.paint styled "summary" ++ ": " ++ Nat.repr files ++ " file(s), " ++
    Nat.repr (diagnostics.countP Diagnostic.isError) ++ " error(s), " ++
    Nat.repr (diagnostics.countP fun d ↦ !d.isError) ++ " warning(s)\n"

/-- The exit status that diagnostics call for. -/
def diagnosticsExit (warningsAsErrors : Bool) (diagnostics : List Diagnostic) : Nat :=
  if hasErrors diagnostics || (warningsAsErrors && !diagnostics.isEmpty) then exitDiagnostics
  else exitOk

/-- The exit status that files call for that have no machine. -/
def loadExit (files : List LoadedFile) : Nat :=
  files.foldl
    (fun exit file ↦
      match file.result with
      | .ok _ => exit
      | .error e => max exit e.exitCode)
    exitOk

/-- The report on some files. -/
def checkReport (options : CheckOptions) (warningsAsErrors : Bool) (style : CheckStyle)
    (files : List LoadedFile) : Report :=
  let diagnostics := allDiagnostics options files
  { output := checkOutput options style files
    errors := String.join (files.map (fileErrors options style)) ++
      if style.summary then totalsLine style.styled files.length diagnostics else ""
    exitCode := max (loadExit files) (diagnosticsExit warningsAsErrors diagnostics) }

/-! ### Runs -/

/-- A line about an accepted event. -/
def stepLine (styled : Bool) (s : SimulationStep) : String :=
  Style.cyan.paint styled s.event ++ " " ++ s.source ++ " -> " ++
    Style.yellow.paint styled s.target ++
    (if s.actions.isEmpty then "" else " [" ++ ", ".intercalate s.actions ++ "]") ++ "\n"

/-- A line about the state at one end of a run. -/
def stateLine (styled : Bool) (word state : String) : String :=
  Style.dimmed.paint styled word ++ " " ++ Style.yellow.paint styled state ++ "\n"

/-- The report on the events of a run; the first rejected event ends it. -/
def runReport (styled : Bool) (m : Machine) (run : Run) : List String → Report
  | [] => ⟨stateLine styled "final" run.state, "", exitOk⟩
  | event :: rest =>
    match run.apply m event .null with
    | .ok (step, next) =>
      let report := runReport styled m next rest
      { report with output := stepLine styled step ++ report.output }
    | .error e =>
      ⟨stateLine styled "final" run.state, errorLine styled (e.message ++ " (" ++ e.code ++ ")"),
        exitFailure⟩

/-- The report on a run from its start. -/
def simulationReport (styled : Bool) (m : Machine) (context : Json) (events : List String) :
    Except SimulationError Report := do
  let run ← Run.start m context
  let report := runReport styled m run events
  return { report with output := stateLine styled "start" run.state ++ report.output }

end StateMachine.CommandLine
