import StateMachine.Disk
import StateMachine.Python.Program
import StateMachine.Yaml.Reader

/-!
Settings of checks and of generated programs. The standard settings are changed first by a
document, then by the environment, and the result has to be valid.
-/

set_option autoImplicit false

namespace StateMachine

structure CheckSettings where
  /-- Warnings count as errors in the exit status of a check. -/
  warningsAsErrors : Bool
  unreachableStates : Bool
deriving DecidableEq, Repr

structure Settings where
  check : CheckSettings
  codegen : Python.Options
deriving DecidableEq, Repr

inductive SettingsError where
  | unreadable (path : String) (error : FileError)
  | malformed (path : String)
  | indentWidth (width : Nat)
  | stateSuffix (suffix : String)
deriving DecidableEq, Repr

namespace SettingsError

def message : SettingsError → String
  | .unreadable path error => "failed to read config file '" ++ path ++ "': " ++ error.message
  | .malformed path => "failed to parse config file '" ++ path ++ "'"
  | .indentWidth width =>
    "configuration validation failed: codegen.indent_width must be between 1 and 16, got " ++
      Nat.repr width
  | .stateSuffix suffix =>
    "configuration validation failed: codegen.state_suffix '" ++ suffix ++
      "' is not a valid identifier suffix"

end SettingsError

namespace CheckSettings

def standard : CheckSettings :=
  ⟨false, true⟩

def options (s : CheckSettings) : CheckOptions :=
  ⟨s.unreachableStates⟩

end CheckSettings

/-! ### Documents -/

/-- Changes one field by the document at its value. -/
abbrev FieldReader (α : Type) := Yaml.Document → α → Option α

/-- Reads the entries of a mapping into the fields they name. The keys have to be texts. An unknown
field is passed over, a known one may be named once. -/
def readEntries {α : Type} (fields : List (String × FieldReader α)) (d : Yaml.Document)
    (seen : List String) : List (Yaml.Node × Yaml.Node) → α → Option α
  | [], a => some a
  | (key, value) :: rest, a =>
    match (d.focus key).root.text? with
    | none => none
    | some name =>
      match fields.lookup name with
      | none => readEntries fields d seen rest a
      | some read =>
        if seen.contains name then none
        else (read (d.focus value) a).bind (readEntries fields d (name :: seen) rest)

/-- Reads a mapping into fields; nothing changes nothing. -/
def readFields {α : Type} (fields : List (String × FieldReader α)) : FieldReader α :=
  fun d a ↦
    match d.root with
    | .mapping entries => readEntries fields d [] entries a
    | node => if node.isNothing then some a else none

namespace CheckSettings

def fields : List (String × FieldReader CheckSettings) :=
  [("warnings_as_errors", fun d s ↦
      d.root.bool?.map fun b ↦ { s with warningsAsErrors := b }),
    ("unreachable_states", fun d s ↦
      d.root.bool?.map fun b ↦ { s with unreachableStates := b })]

end CheckSettings

namespace Python.Options

def fields : List (String × FieldReader Options) :=
  [("indent_width", fun d o ↦ d.root.natural?.map fun n ↦ { o with indentWidth := n }),
    ("state_suffix", fun d o ↦ d.root.text?.map fun s ↦ { o with stateSuffix := s })]

end Python.Options

namespace Settings

def standard : Settings :=
  ⟨.standard, .standard⟩

def fields : List (String × FieldReader Settings) :=
  [("check", fun d s ↦
      (readFields CheckSettings.fields d s.check).map fun check ↦ { s with check := check }),
    ("codegen", fun d s ↦
      (readFields Python.Options.fields d s.codegen).map fun codegen ↦
        { s with codegen := codegen })]

/-- The standard settings changed by a document. -/
def ofDocument? (text : String) : Option Settings :=
  (Yaml.parse? text).bind fun d ↦ readFields fields d standard

/-! ### The environment -/

/-- The variables that change settings. -/
def variableNames : List String :=
  ["SMC_WARNINGS_AS_ERRORS", "SMC_CHECK_UNREACHABLE", "SMC_INDENT_WIDTH", "SMC_STATE_SUFFIX"]

/-- Does the value of a variable switch something on? -/
def switchesOn (value : String) : Bool :=
  value = "1" || value.toList.map Char.toLower = "true".toList

/-- The width that a variable gives: decimal digits after an optional plus sign, below `2 ^ 64`. -/
def width? (value : String) : Option Nat :=
  let digits := match value.toList with
    | '+' :: rest => rest
    | rest => rest
  if digits.isEmpty || !digits.all Char.isDigit then none
  else
    let width := Numeric.naturalValue digits
    if width < 2 ^ (64 : Nat) then some width else none

/-- The settings changed by the variables of an environment. A width that is no number changes
nothing. -/
def override (environment : String → Option String) (s : Settings) : Settings where
  check :=
    { warningsAsErrors :=
        ((environment "SMC_WARNINGS_AS_ERRORS").map switchesOn).getD s.check.warningsAsErrors
      unreachableStates :=
        ((environment "SMC_CHECK_UNREACHABLE").map switchesOn).getD s.check.unreachableStates }
  codegen :=
    { indentWidth := ((environment "SMC_INDENT_WIDTH").bind width?).getD s.codegen.indentWidth
      stateSuffix := (environment "SMC_STATE_SUFFIX").getD s.codegen.stateSuffix }

/-! ### Loading -/

/-- The settings, if they are valid. -/
def validate (s : Settings) : Except SettingsError Settings :=
  if s.codegen.indentWidth < 1 || 16 < s.codegen.indentWidth then
    .error (.indentWidth s.codegen.indentWidth)
  else if !s.codegen.stateSuffix.toList.all Python.isNamePart then
    .error (.stateSuffix s.codegen.stateSuffix)
  else .ok s

/-- The settings that a file says, before the environment. -/
def ofFile (path : String) (content : Except FileError String) : Except SettingsError Settings :=
  match content with
  | .error e => .error (.unreadable path e)
  | .ok text =>
    match ofDocument? text with
    | none => .error (.malformed path)
    | some s => .ok s

/-- The settings that result from a document's settings and an environment. -/
def complete (environment : String → Option String) (base : Except SettingsError Settings) :
    Except SettingsError Settings :=
  base.bind fun s ↦ (s.override environment).validate

/-- The settings of a file, if one is given, and of an environment. -/
def load {m : Type → Type} [Monad m] (disk : Disk m) (environment : String → Option String) :
    Option String → m (Except SettingsError Settings)
  | none => return complete environment (.ok standard)
  | some path => return complete environment (ofFile path (← disk.read path))

end Settings

end StateMachine
