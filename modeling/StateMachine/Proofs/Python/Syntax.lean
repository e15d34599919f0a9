import StateMachine.Python.Code

/-!
Generated programs as syntax: classes with constants and methods, methods with statements, and
statements with expressions, as far as generated programs use them. Syntax is written down line by
line as `Code`; no expression of a generated program needs parentheses, so none are written. What
comes before the classes of a program, the exception and the helpers of conditions, stays text.
-/

set_option autoImplicit false

namespace StateMachine.Python

/-- Expressions without calls of methods. -/
inductive Expression where
  | nothing
  | literal (text : String)
  | emptyDict
  | reference (name : String)
  | attribute (object : Expression) (name : String)
  /-- The attribute whose name is the value of an expression, or nothing. -/
  | optionalAttribute (object name : Expression)
  | item (table key : Expression)
  | copy (dict : Expression)
  | concat (first second : Expression)
  | isNothing (operand : Expression)
  | isSomething (operand : Expression)
  | differs (first second : Expression)
  | member (element set : Expression)
  | conditional (test positive negative : Expression)
  /-- The condition that a guard becomes. -/
  | guard (g : Guard)

/-- What a statement works out: the value of an expression, or a call. -/
inductive Computation where
  | value (e : Expression)
  | call (function : Expression) (arguments : List Expression)

/-- Statements of one line. -/
inductive SimpleStatement where
  | docstring (text : String)
  | pass
  | assign (name : String) (c : Computation)
  /-- Sets an attribute of `self`. -/
  | setAttribute (name : String) (c : Computation)
  /-- Merges a dictionary into the one that a name stands for. -/
  | update (name : String) (patch : Expression)
  | perform (c : Computation)
  | answer (c : Computation)
  | raiseUnhandled (state event : Expression)

inductive Statement where
  | simple (s : SimpleStatement)
  /-- Branches with conditions, and perhaps a last one without. -/
  | choice (branches : List (Expression × SimpleStatement)) (otherwise : Option SimpleStatement)

structure Method where
  name : String
  /-- The parameters behind `self`. -/
  parameters : List String
  /-- A last parameter, which is nothing unless it is passed. -/
  optional : Option String
  body : List Statement

/-- Constants of classes. -/
inductive Constant where
  | nothing
  | text (s : String)
  | texts (elements : List String)
  | codes (entries : List (String × Option String))
  /-- Texts, each with the name of a class. -/
  | classes (entries : List (String × String))

inductive Member where
  | blank
  | docstring (text : String)
  | constant (name : String) (value : Constant)
  | method (m : Method)

structure ClassDefinition where
  name : String
  base : Option String
  members : List Member

/-- A program: text, the classes of states with their base first, and the dispatcher. -/
structure Module where
  preamble : List Code
  classes : List ClassDefinition
  dispatcher : ClassDefinition

/-! ### Writing -/

def Expression.source : Expression → String
  | .nothing => "None"
  | .literal text => textLiteral text
  | .emptyDict => "\x7b\x7d"
  | .reference name => name
  | .attribute object name => object.source ++ "." ++ name
  | .optionalAttribute object name =>
    "getattr(" ++ object.source ++ ", " ++ name.source ++ ", None)"
  | .item table key => table.source ++ "[" ++ key.source ++ "]"
  | .copy dict => "dict(" ++ dict.source ++ ")"
  | .concat first second => first.source ++ " + " ++ second.source
  | .isNothing operand => operand.source ++ " is None"
  | .isSomething operand => operand.source ++ " is not None"
  | .differs first second => first.source ++ " != " ++ second.source
  | .member element set => element.source ++ " in " ++ set.source
  | .conditional test positive negative =>
    positive.source ++ " if " ++ test.source ++ " else " ++ negative.source
  | .guard g => (Condition.ofGuard g).text

def Computation.source : Computation → String
  | .value e => e.source
  | .call function arguments =>
    function.source ++ "(" ++ ", ".intercalate (arguments.map Expression.source) ++ ")"

/-- A text between triple quotes. -/
def docstringSource (text : String) : String :=
  "\"\"\"" ++ text ++ "\"\"\""

def SimpleStatement.source : SimpleStatement → String
  | .docstring text => docstringSource text
  | .pass => "pass"
  | .assign name c => name ++ " = " ++ c.source
  | .setAttribute name c => "self." ++ name ++ " = " ++ c.source
  | .update name patch => name ++ ".update(" ++ patch.source ++ ")"
  | .perform c => c.source
  | .answer c => "return " ++ c.source
  | .raiseUnhandled state event =>
    "raise UnhandledEvent(" ++ state.source ++ ", " ++ event.source ++ ")"

namespace SimpleStatement

theorem source_answer (c : Computation) : (answer c).source = "return " ++ c.source :=
  rfl

theorem source_raiseUnhandled (state event : Expression) :
    (raiseUnhandled state event).source =
      "raise UnhandledEvent(" ++ state.source ++ ", " ++ event.source ++ ")" :=
  rfl

end SimpleStatement

namespace Statement

/-- Branches with conditions; the first one opens the chain. -/
def branchCode (first : Bool) : List (Expression × SimpleStatement) → List Code
  | [] => []
  | (condition, s) :: rest =>
    .block ((if first then "if " else "elif ") ++ condition.source ++ ":") [.line s.source] ::
      branchCode false rest

def code : Statement → List Code
  | .simple s => [.line s.source]
  | .choice branches otherwise =>
    branchCode true branches ++
      (otherwise.map fun s ↦ .block "else:" [.line s.source]).toList

end Statement

namespace Method

/-- The names of all parameters behind `self`. -/
def names (m : Method) : List String :=
  m.parameters ++ m.optional.toList

def code (m : Method) : Code :=
  let parameters := "self" :: m.parameters ++ (m.optional.map (· ++ "=None")).toList
  .block ("def " ++ m.name ++ "(" ++ ", ".intercalate parameters ++ "):")
    (m.body.flatMap Statement.code)

end Method

/-- A constant under its name. -/
def Constant.code (name : String) : Constant → List Code
  | .nothing => [.line (name ++ " = None")]
  | .text s => [.line (name ++ " = " ++ textLiteral s)]
  | .texts elements =>
    [.line (if elements.isEmpty then name ++ " = frozenset()"
      else name ++ " = frozenset([" ++ ", ".intercalate (elements.map textLiteral) ++ "])")]
  | .codes entries => tableCode name entries
  | .classes entries =>
    [.block (name ++ " = \x7b")
        (entries.map fun entry ↦ .line (textLiteral entry.1 ++ ": " ++ entry.2 ++ ",")),
      .line "\x7d"]

def Member.code : Member → List Code
  | .blank => [.blank]
  | .docstring text => [.line (docstringSource text)]
  | .constant name value => value.code name
  | .method m => [m.code]

namespace ClassDefinition

def code (c : ClassDefinition) : Code :=
  let base := (c.base.map fun base ↦ "(" ++ base ++ ")").getD ""
  .block ("class " ++ c.name ++ base ++ ":") (c.members.flatMap Member.code)

end ClassDefinition

namespace Module

/-- The text of the program. -/
def code (program : Module) : List Code :=
  program.preamble ++
    (program.classes ++ [program.dispatcher]).flatMap fun c ↦ [.blank, .blank, c.code]

end Module

end StateMachine.Python
