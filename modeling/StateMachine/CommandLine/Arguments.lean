import StateMachine.Text.Split

/-!
Reading the arguments of the program: options, then a command with options and files of its own.

An option's value is the rest of its argument or the next argument. A value is looked at only when
something else is recognised after it, so of two mistakes the one that is recognised first is
reported. The file of settings may be named before the command and after it; the later one counts,
and either counts before the environment.
-/

set_option autoImplicit false

namespace StateMachine.CommandLine

inductive CheckFormat where
  | text
  | json
deriving DecidableEq, Repr

inductive DumpFormat where
  | source
  | json
deriving DecidableEq, Repr

/-- What the program is to do. -/
inductive Command where
  | check (files : List String) (dump : Bool) (format : CheckFormat) (summary : Bool)
  | dump (file : String) (format : DumpFormat)
  | generate (file : String) (output : Option String)
  | visit (file : String)
  | simulate (file : String) (events : List String) (context : Option String)
deriving DecidableEq, Repr

/-- A command and the file of settings. -/
structure Invocation where
  settings : Option String
  command : Command
deriving DecidableEq, Repr

/-- Why there is nothing to do. -/
inductive UsageError where
  | noArguments
  | missingCommand
  | missingArgument
  | unknownCommand
  | unknownArgument
  | invalidValue
  | repeatedArgument
  | surplusValue
  | helpWanted
  | versionWanted
deriving DecidableEq, Repr

namespace UsageError

/-- Asking for help or for the version is no failure. -/
def exitCode : UsageError → Nat
  | .helpWanted | .versionWanted => 0
  | _ => 2

end UsageError

inductive CommandName where
  | check
  | dump
  | generate
  | visit
  | simulate
deriving DecidableEq, Repr

namespace CommandName

def ofText? : String → Option CommandName
  | "check" => some .check
  | "dump" => some .dump
  | "generate" => some .generate
  | "visit" => some .visit
  | "simulate" => some .simulate
  | _ => none

end CommandName

inductive OptionName where
  | help
  | version
  | config
  | dump
  | noSummary
  | checkFormat
  | dumpFormat
  | output
  | events
  | context
deriving DecidableEq, Repr

namespace OptionName

/-- The name after two dashes. -/
def long : OptionName → String
  | .help => "help"
  | .version => "version"
  | .config => "config"
  | .dump => "dump"
  | .noSummary => "no-summary"
  | .checkFormat | .dumpFormat => "format"
  | .output => "output"
  | .events => "events"
  | .context => "ctx"

/-- The letter after one dash. -/
def short? : OptionName → Option Char
  | .help => some 'h'
  | .version => some 'V'
  | .config => some 'c'
  | .output => some 'o'
  | .events => some 'e'
  | _ => none

def takesValue : OptionName → Bool
  | .help | .version | .dump | .noSummary => false
  | _ => true

/-- May the option be given more than once? -/
def repeatable : OptionName → Bool
  | .events => true
  | _ => false

/-- Is the value one that the option takes? A path is not empty. -/
def accepts (name : OptionName) (value : String) : Bool :=
  match name with
  | .config | .output => value ≠ ""
  | .checkFormat => value = "text" || value = "json"
  | .dumpFormat => value = "sm" || value = "json"
  | _ => true

end OptionName

/-- The options and the files that are understood at some place. -/
structure Grammar where
  options : List OptionName
  files : Option Nat

namespace Grammar

/-- Before the command. -/
def leading : Grammar :=
  ⟨[.config, .help, .version], some 0⟩

/-- After a command: its own options, and how many files it takes at most. -/
def ofCommand : CommandName → Grammar
  | .check => ⟨[.config, .help, .dump, .checkFormat, .noSummary], none⟩
  | .dump => ⟨[.config, .help, .dumpFormat], some 1⟩
  | .generate => ⟨[.config, .help, .output], some 1⟩
  | .visit => ⟨[.config, .help], some 1⟩
  | .simulate => ⟨[.config, .help, .events, .context], some 1⟩

def long? (g : Grammar) (name : String) : Option OptionName :=
  g.options.find? (·.long == name)

def short? (g : Grammar) (letter : Char) : Option OptionName :=
  g.options.find? (·.short? == some letter)

end Grammar

/-- What has been recognised last and not been looked at yet. -/
inductive Pending where
  | nothing
  | option (name : OptionName) (value : Option String)
  | files (paths : List String)

/-- What has been read: options with their values, files, and what is pending. -/
structure Reading where
  options : List (OptionName × String)
  files : List String
  pending : Pending

namespace Reading

def empty : Reading :=
  ⟨[], [], .nothing⟩

def has (r : Reading) (name : OptionName) : Bool :=
  r.options.any (·.1 == name)

def value? (r : Reading) (name : OptionName) : Option String :=
  r.options.lookup name

/-- All values of an option, in order. -/
def values (r : Reading) (name : OptionName) : List String :=
  (r.options.filter (·.1 == name)).map (·.2)

/-- Records an option with its value. -/
def record (r : Reading) (name : OptionName) (value : String) : Except UsageError Reading :=
  if r.has name && !name.repeatable then .error .repeatedArgument
  else if !name.accepts value then .error .invalidValue
  else .ok { r with options := r.options ++ [(name, value)] }

/-- Looks at what is pending. -/
def settle (r : Reading) : Except UsageError Reading :=
  let settled := { r with pending := .nothing }
  match r.pending with
  | .nothing => .ok settled
  | .option _ none => .error .invalidValue
  | .option name (some value) => settled.record name value
  | .files paths =>
    if paths.contains "" then .error .invalidValue
    else .ok { settled with files := settled.files ++ paths }

/-- Is the next argument the value of an option? -/
def awaitsValue (r : Reading) : Bool :=
  match r.pending with
  | .option _ none => true
  | _ => false

/-- The files recognised so far. -/
def fileCount (r : Reading) : Nat :=
  r.files.length +
    match r.pending with
    | .files paths => paths.length
    | _ => 0

/-- An option that takes no value. -/
def flag (r : Reading) (name : OptionName) : Except UsageError Reading := do
  let settled ← r.settle
  match name with
  | .help => .error .helpWanted
  | .version => .error .versionWanted
  | _ => settled.record name ""

/-- An option that takes a value, with the value if it is attached. -/
def valued (r : Reading) (name : OptionName) (attached : Option String) :
    Except UsageError Reading := do
  let settled ← r.settle
  match attached with
  | some value => settled.record name value
  | none => return { settled with pending := .option name none }

/-- An argument that starts with two dashes. -/
def longArgument (g : Grammar) (r : Reading) (text : List Char) : Except UsageError Reading :=
  let name := text.takeWhile (· ≠ '=')
  let attached := match text.dropWhile (· ≠ '=') with
    | _ :: value => some (String.ofList value)
    | [] => none
  match g.long? (String.ofList name) with
  | none => .error .unknownArgument
  | some option =>
    if option.takesValue then r.valued option attached
    else if attached.isSome then .error .surplusValue
    else r.flag option

/-- The letters of an argument that starts with one dash. -/
def shortArgument (g : Grammar) (r : Reading) : List Char → Except UsageError Reading
  | [] => .ok r
  | letter :: rest =>
    match g.short? letter with
    | none => .error .unknownArgument
    | some option =>
      if option.takesValue then
        r.valued option <|
          match rest with
          | [] => none
          | '=' :: value => some (String.ofList value)
          | value => some (String.ofList value)
      else do
        shortArgument g (← r.flag option) rest

/-- A file, if one more may be given. -/
def file (g : Grammar) (surplus : UsageError) (r : Reading) (path : String) :
    Except UsageError Reading :=
  if g.files.any (· ≤ r.fileCount) then .error surplus
  else
    match r.pending, g.files with
    | .files paths, none => .ok { r with pending := .files (paths ++ [path]) }
    | _, _ => do return { (← r.settle) with pending := .files [path] }

/-- An argument in front of which no `--` stands. -/
def argument (g : Grammar) (surplus : UsageError) (r : Reading) (text : String) :
    Except UsageError Reading :=
  match text.toList with
  | '-' :: '-' :: rest => r.longArgument g rest
  | '-' :: letter :: rest => r.shortArgument g (letter :: rest)
  | _ =>
    match r.pending with
    | .option name none => .ok { r with pending := .option name (some text) }
    | _ => r.file g surplus text

/-- The arguments after a command. -/
def arguments (g : Grammar) (r : Reading) : List String → Except UsageError Reading
  | [] => r.settle
  | "--" :: rest => do
    let last ← rest.foldlM (fun r text ↦ r.file g .unknownArgument text) r
    last.settle
  | text :: rest => do
    arguments g (← r.argument g .unknownArgument text) rest

/-- The file of settings that the environment names counts if none has been named here. -/
def withEnvironment (inherited : Option String) (r : Reading) : Except UsageError Reading :=
  match inherited with
  | none => .ok r
  | some path => if r.has .config then .ok r else r.record .config path

end Reading

open Reading

/-- What the options and files of a command amount to. -/
def command (name : CommandName) (r : Reading) : Except UsageError Command :=
  match name, r.files with
  | .check, [] => .error .missingArgument
  | .check, files =>
    .ok (.check files (r.has .dump)
      (if r.value? .checkFormat = some "json" then .json else .text) (!r.has .noSummary))
  | .dump, [file] =>
    .ok (.dump file (if r.value? .dumpFormat = some "json" then .json else .source))
  | .generate, [file] => .ok (.generate file (r.value? .output))
  | .visit, [file] => .ok (.visit file)
  | .simulate, [file] =>
    if r.has .events then
      .ok (.simulate file ((r.values .events).flatMap (Text.splitString ',')) (r.value? .context))
    else .error .missingArgument
  | _, _ => .error .missingArgument

/-- Help on a command, or on the program. -/
def helpOn : List String → UsageError
  | [] => .helpWanted
  | [name] => if (CommandName.ofText? name).isSome || name = "help" then .helpWanted
    else .unknownCommand
  | _ => .unknownCommand

/-- The end of the arguments without a command. -/
def withoutCommand (inherited : Option String) (r : Reading) : Except UsageError Invocation := do
  let settled ← (← r.settle).withEnvironment inherited
  if settled.options.isEmpty then .error .noArguments else .error .missingCommand

/-- The command and the arguments after it, with what was read before it. -/
def afterCommand (inherited : Option String) (before : Reading) (name : CommandName)
    (rest : List String) : Except UsageError Invocation := do
  let r ← Reading.empty.arguments (.ofCommand name) rest
  let own := r.value? .config
  let _ ← r.withEnvironment inherited
  let result ← command name r
  let earlier ← (← before.settle).withEnvironment inherited
  return ⟨own.or (earlier.value? .config), result⟩

/-- The arguments before the command, the command and the arguments after it. -/
def leading (inherited : Option String) (r : Reading) :
    List String → Except UsageError Invocation
  | [] => withoutCommand inherited r
  | text :: rest =>
    if !r.awaitsValue && text = "help" then .error (helpOn rest)
    else
      match if r.awaitsValue then none else CommandName.ofText? text with
      | some name => afterCommand inherited r name rest
      | none =>
        if text = "--" then
          match rest with
          | [] => withoutCommand inherited r
          | next :: _ =>
            .error (if next = "help" || (CommandName.ofText? next).isSome then .unknownArgument
              else .unknownCommand)
        else do
          leading inherited (← r.argument .leading .unknownCommand text) rest

/-- What the arguments ask for; `inherited` is the file of settings that the environment names. -/
def read (inherited : Option String) (arguments : List String) : Except UsageError Invocation :=
  leading inherited .empty arguments

end StateMachine.CommandLine
