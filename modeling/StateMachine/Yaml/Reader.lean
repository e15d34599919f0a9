import StateMachine.Yaml.Token

/-!
Reading documents of settings: nodes are read from tokens, and a text is one document between
optional markers. Everything malformed is refused.

The `fuel` of a reader bounds the number of nested and consecutive steps. Of five steps in a row,
one takes a token, so five times the number of tokens is always enough.
-/

set_option autoImplicit false

namespace StateMachine.Yaml

/-- The tokens that are left, what the handles of tags stand for, and what is known of anchors: the
number of each name, the latest first, and the nodes that are complete. -/
structure Source where
  tokens : List Token
  handles : List (String × String)
  names : List (String × Nat)
  anchored : List (Nat × Node)

abbrev Reader := StateT Source Option

namespace Token

/-- Does the token end an item of a block? -/
def endsItem : Token → Bool
  | .dash | .key | .colon | .blockEnd => true
  | _ => false

/-- Does the token end the key or the value of an entry of a block? A dash does not, because the
items of a sequence need not be deeper than its key. -/
def endsEntryPart : Token → Bool
  | .key | .colon | .blockEnd => true
  | _ => false

/-- Does the token end a part of a mapping in a flow? -/
def endsMappingPart : Token → Bool
  | .colon | .comma | .flowMappingEnd => true
  | _ => false

/-- Does the token end a part of a sequence in a flow? -/
def endsSequencePart : Token → Bool
  | .colon | .comma | .flowSequenceEnd => true
  | _ => false

end Token

namespace Reader

/-- The next token, which stays. -/
def peek : Reader (Option Token) :=
  return (← get).tokens.head?

/-- Is the next token of a kind? -/
def nextIs (p : Token → Bool) : Reader Bool :=
  return (← peek).any p

/-- Passes a token. -/
def pass : Reader Unit :=
  modify fun s ↦ { s with tokens := s.tokens.tail }

/-- Passes the token if it is the next one, and says whether it is. -/
def passIf (t : Token) : Reader Bool := do
  if ← nextIs (· == t) then
    pass
    return true
  else return false

/-- Passes the token, which has to be the next one. -/
def expect (t : Token) : Reader Unit := do
  if !(← passIf t) then failure

/-! ### Properties -/

/-- The anchor that comes next, if one does. -/
def anchor? : Reader (Option String) := do
  match ← peek with
  | some (.anchor name) =>
    pass
    return some name
  | _ => return none

/-- The tag that comes next, if one does, with what its handle stands for. -/
def tag? : Reader (Option String) := do
  match ← peek with
  | some (.tag handle suffix) =>
    pass
    if handle = "" then return some suffix
    else
      match (← get).handles.lookup handle with
      | some meaning => return some (meaning ++ suffix)
      | none => failure
  | _ => return none

/-- An anchor and a tag, in either order. -/
def properties : Reader (Option String × Option String) := do
  match ← anchor? with
  | some name => return (some name, ← tag?)
  | none =>
    match ← tag? with
    | some tag => return (← anchor?, some tag)
    | none => return (none, none)

/-- Gives the name of an anchor a number. -/
def declare (name : String) : Reader Nat := do
  let index := (← get).names.length
  modify fun s ↦ { s with names := (name, index) :: s.names }
  return index

/-- The number of an anchor that has been given a name. -/
def known (name : String) : Reader Nat := do
  match (← get).names.lookup name with
  | some index => return index
  | none => failure

/-- Keeps the node of an anchor. -/
def keep (index : Nat) (node : Node) : Reader Unit :=
  modify fun s ↦ { s with anchored := (index, node) :: s.anchored }

end Reader

open Reader

mutual

/-- A node. Blocks are nodes only inside blocks, and a dash starts a sequence only under a key. -/
def node (fuel : Nat) (inBlock underKey : Bool) : Reader Node :=
  match fuel with
  | 0 => failure
  | fuel + 1 => do
    match ← peek with
    | some (.reference name) =>
      pass
      return .reference (← known name)
    | _ =>
      let (anchor, tag) ← properties
      match anchor with
      | none => content fuel inBlock underKey tag tag.isSome
      | some name =>
        let index ← declare name
        let result ← content fuel inBlock underKey tag true
        keep index result
        return result

/-- What a node is apart from its properties; if it has any, nothing may be written. -/
def content (fuel : Nat) (inBlock underKey : Bool) (tag : Option String) (mayBeNothing : Bool) :
    Reader Node :=
  match fuel with
  | 0 => failure
  | fuel + 1 => do
    match ← peek, inBlock, underKey with
    | some (.scalar style text), _, _ =>
      pass
      return .scalar style tag text
    | some .flowSequence, _, _ =>
      pass
      return .sequence (← flowItems fuel true)
    | some .flowMapping, _, _ =>
      pass
      return .mapping (← flowEntries fuel true)
    | some .blockSequence, true, _ =>
      pass
      return .sequence (← blockItems fuel)
    | some .blockMapping, true, _ =>
      pass
      return .mapping (← blockEntries fuel)
    | some .dash, _, true => return .sequence (← itemsUnderKey fuel)
    | _, _, _ => if mayBeNothing then return .scalar .plain tag "" else failure

/-- A node, or nothing if the next token ends the part that it would be. -/
def nodeOrNothing (fuel : Nat) (inBlock underKey : Bool) (ends : Token → Bool) : Reader Node :=
  match fuel with
  | 0 => failure
  | fuel + 1 => do
    if ← nextIs ends then return .nothing else node fuel inBlock underKey

/-- The items of a block up to its end. -/
def blockItems (fuel : Nat) : Reader (List Node) :=
  match fuel with
  | 0 => failure
  | fuel + 1 => do
    if ← passIf .blockEnd then return []
    else
      expect .dash
      let item ← nodeOrNothing fuel true false Token.endsItem
      return item :: (← blockItems fuel)

/-- The items of a sequence that is no deeper than its key, as long as dashes come. -/
def itemsUnderKey (fuel : Nat) : Reader (List Node) :=
  match fuel with
  | 0 => failure
  | fuel + 1 => do
    if ← passIf .dash then
      let item ← nodeOrNothing fuel true false Token.endsItem
      return item :: (← itemsUnderKey fuel)
    else return []

/-- The entries of a block up to its end. -/
def blockEntries (fuel : Nat) : Reader (List (Node × Node)) :=
  match fuel with
  | 0 => failure
  | fuel + 1 => do
    if ← passIf .blockEnd then return []
    else
      expect .key
      let key ← nodeOrNothing fuel true true Token.endsEntryPart
      let value ← entryValue fuel true Token.endsEntryPart
      return (key, value) :: (← blockEntries fuel)

/-- The value of an entry after its key: what follows a colon, or nothing. -/
def entryValue (fuel : Nat) (inBlock : Bool) (ends : Token → Bool) : Reader Node :=
  match fuel with
  | 0 => failure
  | fuel + 1 => do
    if ← passIf .colon then nodeOrNothing fuel inBlock inBlock ends else return .nothing

/-- The entries of a mapping in a flow up to its closing brace, with commas between them. -/
def flowEntries (fuel : Nat) (isFirst : Bool) : Reader (List (Node × Node)) :=
  match fuel with
  | 0 => failure
  | fuel + 1 => do
    if ← passIf .flowMappingEnd then return []
    else
      if !isFirst then expect .comma
      if ← passIf .flowMappingEnd then return []
      else
        let entry ← flowEntry fuel
        return entry :: (← flowEntries fuel false)

/-- An entry of a mapping in a flow: a key with its value, or a node without a value. -/
def flowEntry (fuel : Nat) : Reader (Node × Node) :=
  match fuel with
  | 0 => failure
  | fuel + 1 => do
    if ← passIf .key then
      let key ← nodeOrNothing fuel false false Token.endsMappingPart
      return (key, ← entryValue fuel false Token.endsMappingPart)
    else return (← node fuel false false, .nothing)

/-- The items of a sequence in a flow up to its closing bracket, with commas between them. -/
def flowItems (fuel : Nat) (isFirst : Bool) : Reader (List Node) :=
  match fuel with
  | 0 => failure
  | fuel + 1 => do
    if ← passIf .flowSequenceEnd then return []
    else
      if !isFirst then expect .comma
      if ← passIf .flowSequenceEnd then return []
      else
        let item ← flowItem fuel
        return item :: (← flowItems fuel false)

/-- An item of a sequence in a flow: a node or a single entry. Where the key of the entry has been
announced and nothing is written for it, the token that ends it is taken in its place. -/
def flowItem (fuel : Nat) : Reader Node :=
  match fuel with
  | 0 => failure
  | fuel + 1 => do
    if ← passIf .key then
      if ← nextIs Token.endsSequencePart then
        pass
        return .mapping [(.nothing, ← entryValue fuel false Token.endsSequencePart)]
      else
        let key ← node fuel false false
        return .mapping [(key, ← entryValue fuel false Token.endsSequencePart)]
    else node fuel false false

end

/-! ### Documents -/

/-- What handles stand for if no directive says otherwise. -/
def standardHandles : List (String × String) :=
  [("!", "!"), ("!!", Node.tagPrefix)]

/-- The handles that the directives at the head of some tokens give a meaning, and the tokens after
them. The version may be stated once, and each handle given one meaning. -/
def directives? (hasVersion : Bool) (handles : List (String × String)) :
    List Token → Option (List (String × String) × List Token)
  | .directive .version :: rest => if hasVersion then none else directives? true handles rest
  | .directive (.handle name meaning) :: rest =>
    if (handles.lookup name).isSome then none
    else directives? hasVersion ((name, meaning) :: handles) rest
  | rest => some (handles, rest)

/-- The one document that some tokens are; no tokens at all are a document without content. After
directives a document has to be started by its marker. -/
def document? (tokens : List Token) : Option Document := do
  let (handles, rest) ← directives? false [] tokens
  let isMarked := rest.head? == some .documentStart
  if !isMarked && rest.length < tokens.length then none
  else
    let body := if isMarked then rest.tail else rest
    let isNothing := body.isEmpty || (isMarked && body.head? == some .documentEnd)
    let root : Reader Node :=
      if isNothing then pure .nothing else node (5 * tokens.length + 5) true false
    let (root, last) ← root.run ⟨body, handles ++ standardHandles, [], []⟩
    if last.tokens.all (· == .documentEnd) then some ⟨root, last.anchored⟩ else none

/-- The one document that a text is. -/
def parse? (text : String) : Option Document :=
  if text.toList.all isAllowed then (Token.scan? (unifyBreaks text.toList)).bind document?
  else none

end StateMachine.Yaml
