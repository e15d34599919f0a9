import StateMachine.Numeric.Digits

/-!
Documents of settings: trees of scalars, sequences and mappings, parts of which may stand for nodes
that have been named elsewhere in the document. A scalar is a truth value or a number only if it is
plain, or a block that is tagged as such; as a text every scalar counts.
-/

set_option autoImplicit false

namespace StateMachine.Yaml

/-- How a scalar is written. -/
inductive ScalarStyle where
  | plain
  | quoted
  /-- A block that keeps its lines. -/
  | literal
  /-- A block that joins its lines. -/
  | folded
deriving DecidableEq, Repr

inductive Node where
  | scalar (style : ScalarStyle) (tag : Option String) (text : String)
  | sequence (items : List Node)
  | mapping (entries : List (Node × Node))
  /-- The node with the anchor of this number. -/
  | reference (index : Nat)
deriving Inhabited

/-- A node together with the nodes that have anchors. -/
structure Document where
  root : Node
  anchored : List (Nat × Node)

namespace Document

/-- The document at another node, or at the node that it refers to. -/
def focus (d : Document) (node : Node) : Document :=
  match node with
  | .reference index => { d with root := (d.anchored.lookup index).getD node }
  | _ => { d with root := node }

end Document

namespace Node

/-- The node where nothing is written. -/
def nothing : Node :=
  .scalar .plain none ""

/-- Is nothing written for the node, except perhaps a tag? -/
def isNothing : Node → Bool
  | .scalar .plain _ text => text.isEmpty
  | _ => false

def tagPrefix : String :=
  "tag:yaml.org,2002:"

/-- The text of a scalar that may be a value of a kind: it is plain, or a literal block with the tag
of the kind. -/
def valueText? (kind : String) : Node → Option String
  | .scalar .plain _ text => some text
  | .scalar .literal tag text => if tag = some (tagPrefix ++ kind) then some text else none
  | _ => none

/-- The truth value of a scalar. -/
def bool? (node : Node) : Option Bool :=
  (node.valueText? "bool").bind fun text ↦
    if ["true", "True", "TRUE"].contains text then some true
    else if ["false", "False", "FALSE"].contains text then some false
    else none

/-- The text of a scalar. -/
def text? : Node → Option String
  | .scalar _ _ text => some text
  | _ => none

/-- The value of a digit in any base up to sixteen. -/
def digitIn? (base : Nat) (c : Char) : Option Nat :=
  let value :=
    if c.isDigit then c.toNat - '0'.toNat
    else if 'a' ≤ c && c ≤ 'f' then c.toNat - 'a'.toNat + 10
    else if 'A' ≤ c && c ≤ 'F' then c.toNat - 'A'.toNat + 10
    else base
  if value < base then some value else none

/-- The number that some digits are in a base, below `2 ^ 64`. -/
def naturalIn? (base : Nat) (digits : List Char) : Option Nat :=
  if digits.isEmpty then none
  else do
    let value ← digits.foldlM (fun n c ↦ do return n * base + (← digitIn? base c)) 0
    if value < 2 ^ (64 : Nat) then some value else none

/-- The natural that a text is: decimal digits without a leading zero, or digits after a mark of
base 16, 8 or 2, each after an optional plus sign. -/
def naturalOf? (text : List Char) : Option Nat :=
  let digits := match text with
    | '+' :: rest => rest
    | rest => rest
  match digits with
  | '0' :: 'x' :: rest => naturalIn? 16 rest
  | '0' :: 'o' :: rest => naturalIn? 8 rest
  | '0' :: 'b' :: rest => naturalIn? 2 rest
  | ['0'] => some 0
  | '0' :: _ => none
  | _ => naturalIn? 10 digits

/-- The natural that a scalar is. -/
def natural? (node : Node) : Option Nat :=
  (node.valueText? "int").bind fun text ↦ naturalOf? text.toList

end Node

end StateMachine.Yaml
