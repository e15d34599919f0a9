import StateMachine.SyntaxError
import StateMachine.Text.Shorter

/-!
Splitting a text into tokens. A step reads blanks, a comment or one lexeme and says what it took;
what it took and what is left make up the text (`Piece.append`).
-/

set_option autoImplicit false

namespace StateMachine

open Text (length_dropWhile_le)

/-- A piece at the head of a text: a lexeme, or none if the piece carries no meaning. -/
structure Piece (text : List Char) where
  lexeme : Option Lexeme
  taken : List Char
  rest : List Char
  append : taken ++ rest = text
  taken_ne_nil : taken ≠ []

/-- The tokens of a text up to its end, and where the end is. -/
structure TokenStream where
  tokens : List Token
  finish : Location

namespace Token

def isSpace (c : Char) : Bool :=
  c = ' ' || c = '\t' || c = '\r'

/-- The text of a guard up to its closing bracket, and what follows the bracket. A bracket inside
a text literal does not close the guard, nor does a line go on. -/
def guardBody (quoted : Bool) : List Char → Option (List Char × List Char)
  | [] => none
  | c :: rest =>
    if c = '\n' then none
    else if c = ']' && !quoted then some ([], rest)
    else if c = '\\' && quoted then
      match rest with
      | [] => none
      | d :: more =>
        if d = '\n' then none
        else (guardBody quoted more).map fun (body, last) ↦ (c :: d :: body, last)
    else
      (guardBody (if c = '"' then !quoted else quoted) rest).map
        fun (body, last) ↦ (c :: body, last)

theorem append_of_guardBody {quoted : Bool} {text body rest : List Char}
    (h : guardBody quoted text = some (body, rest)) : body ++ ']' :: rest = text := by
  fun_induction guardBody quoted text generalizing body rest with
  | case1 => simp at h
  | case2 => simp at h
  | case3 _ c _ _ hclose =>
    simp only [Bool.and_eq_true, decide_eq_true_eq] at hclose
    simp only [Option.some.injEq, Prod.mk.injEq] at h
    rw [← h.1, ← h.2, hclose.1, List.nil_append]
  | case4 => simp at h
  | case5 => simp at h
  | case6 quoted c hc hclose hescape d more hd ih =>
    obtain ⟨⟨inner, last⟩, hinner, heq⟩ := Option.map_eq_some_iff.1 h
    simp only [Prod.mk.injEq] at heq
    rw [← heq.1, ← heq.2, List.cons_append, List.cons_append, ih hinner]
  | case7 quoted c rest hc hclose hescape ih =>
    obtain ⟨⟨inner, last⟩, hinner, heq⟩ := Option.map_eq_some_iff.1 h
    simp only [Prod.mk.injEq] at heq
    rw [← heq.1, ← heq.2, List.cons_append, ih hinner]

/-- The piece that a text starts with. -/
def piece (c : Char) (rest : List Char) : Except SyntaxError.Cause (Piece (c :: rest)) :=
  if isSpace c then .ok ⟨none, [c], rest, rfl, by simp⟩
  else if c = '\n' then .ok ⟨some .newline, [c], rest, rfl, by simp⟩
  else if c = '#' then
    .ok ⟨none, c :: rest.takeWhile (· ≠ '\n'), rest.dropWhile (· ≠ '\n'), by simp, by simp⟩
  else if c = '-' || c = '=' then
    match rest with
    | '>' :: more =>
      .ok ⟨some (if c = '-' then .arrow else .fatArrow), [c, '>'], more, rfl, by simp⟩
    | _ => .error (.unexpectedCharacter c)
  else if c = '/' then .ok ⟨some .slash, [c], rest, rfl, by simp⟩
  else if c = '[' then
    match h : guardBody false rest with
    | none => .error .unterminatedGuard
    | some (body, more) =>
      .ok ⟨some (.guard (String.ofList body)), c :: (body ++ [']']), more, by
        simp [append_of_guardBody h], by simp⟩
  else if Identifier.isStart c then
    .ok ⟨some (.ofWord (String.ofList (c :: rest.takeWhile Identifier.isPart))),
      c :: rest.takeWhile Identifier.isPart, rest.dropWhile Identifier.isPart, by simp, by simp⟩
  else .error (.unexpectedCharacter c)

end Token

theorem Piece.length_rest_lt {text : List Char} (p : Piece text) :
    p.rest.length < text.length := by
  have happend := congrArg List.length p.append
  have hpos : 0 < p.taken.length := List.length_pos_iff.2 p.taken_ne_nil
  rw [List.length_append] at happend
  omega

namespace TokenStream

/-- The same stream behind one more token, if there is one. -/
def push (lexeme : Option Lexeme) (location : Location) (stream : TokenStream) : TokenStream :=
  match lexeme with
  | none => stream
  | some lexeme => ⟨⟨lexeme, location⟩ :: stream.tokens, stream.finish⟩

/-- The tokens of a text that starts at a location. -/
def scanFrom (location : Location) (text : List Char) : Except SyntaxError TokenStream :=
  match text with
  | [] => .ok ⟨[], location⟩
  | c :: rest =>
    match Token.piece c rest with
    | .error cause => .error ⟨location, cause⟩
    | .ok p =>
      match scanFrom (location.after p.taken) p.rest with
      | .error error => .error error
      | .ok stream => .ok (stream.push p.lexeme location)
termination_by text.length
decreasing_by exact p.length_rest_lt

/-- The tokens of a text. -/
def scan (text : String) : Except SyntaxError TokenStream :=
  scanFrom Location.start text.toList

/-- The token that stands for the end of the text. -/
def finishToken (stream : TokenStream) : Token :=
  ⟨.endOfFile, stream.finish⟩

/-- All tokens, the one for the end of the text last. -/
def all (stream : TokenStream) : List Token :=
  stream.tokens ++ [stream.finishToken]

end TokenStream

end StateMachine
