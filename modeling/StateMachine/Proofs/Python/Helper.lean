import StateMachine.Proofs.Guard.Number
import StateMachine.Python.Code

/-!
The helpers of generated programs, and the conditions that call them, as syntax. Written down, the
helpers are the text that comes before the classes of a program (`Helper.code_all`). A condition is
read from its text by the grammar of expressions, in which `or` binds weakest, then `and`, then
`not`, and operators of one kind group to the left (`Condition.reads_text`).
-/

set_option autoImplicit false

namespace StateMachine.Python

open Numeric

/-- The types that values are asked for. -/
inductive Kind where
  | dict
  | bool
  | int
  | float

/-- Expressions of helpers and conditions. -/
inductive Term where
  | variable (name : String)
  | nothing
  | truth (b : Bool)
  | text (s : String)
  | numeral (n : Guard.NumberText)
  /-- The function of the operator module that compares so. -/
  | operator (c : Comparison)
  /-- The parts of a text between its dots. -/
  | split (operand : Term)
  | get (table key : Term)
  | isInstance (operand : Term) (kinds : List Kind)
  | identical (first second : Term)
  | equal (first second : Term)
  /-- The call of a function that is not a variable. -/
  | call (function : String) (arguments : List Term)
  /-- The call of a function that an expression stands for. -/
  | apply (function first second : Term)
  | negation (operand : Term)
  | conjunction (first second : Term)
  | disjunction (first second : Term)

/-- Statements inside a loop or a function. -/
inductive Instruction where
  | assign (name : String) (t : Term)
  | answer (t : Term)
  | answerIf (test t : Term)

inductive HelperStatement where
  | simple (i : Instruction)
  /-- Runs the body with each item of a row in turn. -/
  | loop (item : String) (row : Term) (body : List Instruction)

structure Helper where
  name : String
  parameters : List String
  body : List HelperStatement

/-! ### Writing -/

namespace Kind

def name : Kind → String
  | .dict => "dict"
  | .bool => "bool"
  | .int => "int"
  | .float => "float"

/-- One type, or several between parentheses. -/
def source : List Kind → String
  | [kind] => kind.name
  | kinds => "(" ++ ", ".intercalate (kinds.map name) ++ ")"

end Kind

namespace Term

mutual

/-- Operands are written without parentheses, which no expression of a helper needs. -/
def source : Term → String
  | .variable name => name
  | .nothing => "None"
  | .truth b => if b then "True" else "False"
  | .text s => textLiteral s
  | .numeral n => String.ofList n.chars
  | .operator c => "operator." ++ operatorName c
  | .split operand => operand.source ++ ".split(\".\")"
  | .get table key => table.source ++ ".get(" ++ key.source ++ ")"
  | .isInstance operand kinds =>
    "isinstance(" ++ operand.source ++ ", " ++ Kind.source kinds ++ ")"
  | .identical first second => first.source ++ " is " ++ second.source
  | .equal first second => first.source ++ " == " ++ second.source
  | .call function arguments =>
    function ++ "(" ++ ", ".intercalate (sources arguments) ++ ")"
  | .apply function first second =>
    function.source ++ "(" ++ first.source ++ ", " ++ second.source ++ ")"
  | .negation operand => "not " ++ operand.source
  | .conjunction first second => first.source ++ " and " ++ second.source
  | .disjunction first second => first.source ++ " or " ++ second.source

def sources : List Term → List String
  | [] => []
  | t :: rest => t.source :: sources rest

end

theorem source_call (function : String) (arguments : List Term) :
    (call function arguments).source =
      function ++ "(" ++ ", ".intercalate (sources arguments) ++ ")" :=
  rfl

theorem sources_nil : sources [] = [] :=
  rfl

theorem sources_cons (t : Term) (rest : List Term) :
    sources (t :: rest) = t.source :: sources rest :=
  rfl

end Term

def Instruction.code : Instruction → Code
  | .assign name t => .line (name ++ " = " ++ t.source)
  | .answer t => .line ("return " ++ t.source)
  | .answerIf test t => .block ("if " ++ test.source ++ ":") [.line ("return " ++ t.source)]

def HelperStatement.code : HelperStatement → Code
  | .simple i => i.code
  | .loop item row body =>
    .block ("for " ++ item ++ " in " ++ row.source ++ ":") (body.map Instruction.code)

def Helper.code (h : Helper) : Code :=
  .block ("def " ++ h.name ++ "(" ++ ", ".intercalate h.parameters ++ "):")
    (h.body.map HelperStatement.code)

/-! ### The helpers -/

namespace Helper

/-- One step along a path. -/
def follow : List Instruction :=
  [.answerIf (.negation (.isInstance (.variable "value") [.dict])) .nothing,
    .assign "value" (.get (.variable "value") (.variable "part"))]

/-- The value at the end of a path, or nothing if the path leads nowhere. -/
def field : Helper :=
  ⟨"_field", ["ctx", "path"],
    [.simple (.assign "value" (.variable "ctx")),
      .loop "part" (.split (.variable "path")) follow,
      .simple (.answer (.variable "value"))]⟩

/-- Equality that tells truth values from numbers. -/
def equals : Helper :=
  ⟨"_equals", ["value", "expected"],
    [.simple (.answerIf
        (.disjunction (.isInstance (.variable "value") [.bool])
          (.isInstance (.variable "expected") [.bool]))
        (.identical (.variable "value") (.variable "expected"))),
      .simple (.answer (.equal (.variable "value") (.variable "expected")))]⟩

/-- A comparison that holds of numbers only. -/
def compare : Helper :=
  ⟨"_compare", ["ctx", "path", "op", "operand"],
    [.simple (.assign "value" (.call "_field" [.variable "ctx", .variable "path"])),
      .simple (.answerIf
        (.disjunction (.isInstance (.variable "value") [.bool])
          (.negation (.isInstance (.variable "value") [.int, .float])))
        (.truth false)),
      .simple (.answer (.apply (.variable "op") (.variable "value") (.variable "operand")))]⟩

def all : List Helper :=
  [field, equals, compare]

/-- The helpers are written down as every program has them. -/
theorem code_all : all.map code = [fieldCode, equalsCode, compareCode] := by
  rfl

end Helper

/-! ### Conditions -/

/-- A double as a numeral; the values that are no numbers are written as names, which nothing
has. -/
def numeralTerm (style : NumeralStyle) : Double → Term
  | .finite x => .numeral (.ofNumeral style x)
  | x => .variable (String.ofList (style.text x))

/-- A literal; a value that no guard is written with is written as it is. -/
def literalTerm : Json → Term
  | .null => .nothing
  | .bool b => .truth b
  | .string s => .text s
  | .number (.double x) => numeralTerm .json (.finite x)
  | value => .variable (String.ofList value.compact)

theorem source_numeralTerm (style : NumeralStyle) (x : Double) :
    (numeralTerm style x).source = String.ofList (style.text x) := by
  cases x with
  | finite x => exact congrArg String.ofList (Guard.NumberText.chars_ofNumeral style x)
  | infinite negative => rfl
  | notANumber => rfl

theorem source_literalTerm (value : Json) : (literalTerm value).source = literal value := by
  cases value with
  | bool b => cases b <;> rfl
  | number n =>
    cases n with
    | integer value inRange => rfl
    | double x => exact source_numeralTerm .json (.finite x)
  | null | string | array | object => rfl

namespace Condition

/-- The expression that a condition is. -/
def term : Condition → Term
  | .truth f => .call "bool" [.call "_field" [.variable "ctx", .text f]]
  | .equal f value =>
    .call "_equals" [.call "_field" [.variable "ctx", .text f], literalTerm value]
  | .compare f c operand =>
    .call "_compare" [.variable "ctx", .text f, .operator c, numeralTerm .operand operand]
  | .conjunction a b => .conjunction a.term b.term
  | .disjunction a b => .disjunction a.term b.term
  | .negation a => .negation a.term

/-- The functions that conditions call. -/
def functions : List String :=
  "bool" :: Helper.all.map Helper.name

/-- At a level of the grammar, a text is read as an expression. The levels are those of `or`, `and`,
`not` and of what stands between them, which is a call or is enclosed in parentheses. -/
inductive Reads : Nat → String → Term → Prop
  | call {function : String} (h : function ∈ functions) (arguments : List Term) :
    Reads 4 (Term.call function arguments).source (.call function arguments)
  | enclosed {text : String} {t : Term} (h : Reads 1 text t) : Reads 4 ("(" ++ text ++ ")") t
  | negation {text : String} {t : Term} (h : Reads 3 text t) :
    Reads 3 ("not " ++ text) (.negation t)
  | conjunction {first second : String} {t u : Term} (ht : Reads 2 first t)
    (hu : Reads 3 second u) : Reads 2 (first ++ " and " ++ second) (.conjunction t u)
  | disjunction {first second : String} {t u : Term} (ht : Reads 1 first t)
    (hu : Reads 2 second u) : Reads 1 (first ++ " or " ++ second) (.disjunction t u)
  | loosen {level : Nat} {text : String} {t : Term} (h : Reads (level + 1) text t) :
    Reads level text t

theorem Reads.mono {level lower : Nat} {text : String} {t : Term} (h : Reads level text t)
    (hle : lower ≤ level) : Reads lower text t := by
  induction hle using Nat.decreasingInduction with
  | self => exact h
  | of_succ k hk ih => exact ih.loosen

theorem precedence_pos (c : Condition) : 1 ≤ c.precedence := by
  cases c <;> simp [precedence]

/-- An operand is read at the level that its place demands. -/
theorem Reads.operand {c : Condition} (h : Reads c.precedence c.text c.term) {demand : Nat}
    (hdemand : demand ≤ 4) : Reads demand (Condition.enclosed demand c c.text) c.term := by
  unfold Condition.enclosed
  split
  · exact (Reads.enclosed (h.mono c.precedence_pos)).mono hdemand
  · next hle => exact h.mono (Nat.not_lt.mp hle)

theorem source_fieldCall (f : String) :
    (Term.call "_field" [.variable "ctx", .text f]).source =
      "_field(ctx, " ++ textLiteral f ++ ")" := by
  apply String.toList_inj.mp
  simp [Term.source, Term.sources]

theorem source_truth (f : String) : (truth f).term.source = (truth f).text := by
  rw [text_truth, term, Term.source_call, Term.sources_cons, Term.sources_nil, source_fieldCall]
  apply String.toList_inj.mp
  simp

theorem source_equal (f : String) (value : Json) :
    (equal f value).term.source = (equal f value).text := by
  rw [text_equal, term, Term.source_call, Term.sources_cons, Term.sources_cons, Term.sources_nil,
    source_fieldCall, source_literalTerm]
  apply String.toList_inj.mp
  simp

theorem source_compare (f : String) (c : Comparison) (operand : Double) :
    (compare f c operand).term.source = (compare f c operand).text := by
  rw [text_compare, term, Term.source_call, Term.sources_cons, Term.sources_cons, Term.sources_cons,
    Term.sources_cons, Term.sources_nil, source_numeralTerm]
  apply String.toList_inj.mp
  simp [Term.source]

/-- A condition is read from its text. -/
theorem reads_text (c : Condition) : Reads c.precedence c.text c.term := by
  induction c with
  | truth f =>
    rw [← source_truth]
    exact Reads.call (by decide) _
  | equal f value =>
    rw [← source_equal]
    exact Reads.call (by decide) _
  | compare f c operand =>
    rw [← source_compare]
    exact Reads.call (by decide) _
  | conjunction a b iha ihb =>
    exact Reads.conjunction (iha.operand (by decide)) (ihb.operand (by decide))
  | disjunction a b iha ihb =>
    exact Reads.disjunction (iha.operand (by decide)) (ihb.operand (by decide))
  | negation a ih => exact Reads.negation (ih.operand (by decide))

end Condition

end StateMachine.Python
