import StateMachine.Proofs.Text.Location
import StateMachine.Proofs.Token.Piece

/-!
Texts below other texts. Scanning a text that starts further down finds the same tokens further
down, or the same error (`TokenStream.scanFrom_down`). Where a text is scanned to its end, a line
break and another text may follow: their tokens follow its own (`TokenStream.scanFrom_append`).
Hence a text below another one, on a line of its own, is scanned as if it stood alone
(`TokenStream.scan_append`).
-/

set_option autoImplicit false

namespace StateMachine

open Text (Stops stops_cons)

/-! ### Places further down -/

/-- The location so many lines further down. -/
def Location.down (location : Location) (lines : Nat) : Location :=
  ⟨location.line + lines, location.column⟩

def SyntaxError.down (error : SyntaxError) (lines : Nat) : SyntaxError :=
  ⟨error.location.down lines, error.cause⟩

def Token.down (token : Token) (lines : Nat) : Token :=
  ⟨token.lexeme, token.location.down lines⟩

def TokenStream.down (stream : TokenStream) (lines : Nat) : TokenStream :=
  ⟨stream.tokens.map (·.down lines), stream.finish.down lines⟩

/-- The outcome of reading the same further down: what was read is changed as given, an error is
found further down. -/
def outcomeBelow {α β : Type} (lines : Nat) (f : α → β) :
    Except SyntaxError α → Except SyntaxError β
  | .ok a => .ok (f a)
  | .error e => .error (e.down lines)

@[simp] theorem outcomeBelow_ok {α β : Type} (lines : Nat) (f : α → β) (a : α) :
    outcomeBelow lines f (.ok a) = .ok (f a) :=
  rfl

@[simp] theorem outcomeBelow_error {α β : Type} (lines : Nat) (f : α → β) (e : SyntaxError) :
    outcomeBelow lines f (.error e) = .error (e.down lines) :=
  rfl

/-- Of two computations in a row, the second one starts from what the first one found below. -/
theorem outcomeBelow_bind {α β γ δ : Type} {lines : Nat} {f : α → β} {g : γ → δ}
    {x : Except SyntaxError α} {y : Except SyntaxError β} {next : α → Except SyntaxError γ}
    {nextBelow : β → Except SyntaxError δ} (hx : y = outcomeBelow lines f x)
    (hnext : ∀ a, nextBelow (f a) = outcomeBelow lines g (next a)) :
    (y >>= nextBelow) = outcomeBelow lines g (x >>= next) := by
  subst hx
  cases x with
  | error e => rfl
  | ok a => exact hnext a

namespace Location

variable (location : Location) (lines : Nat)

theorem next_down (c : Char) : (location.down lines).next c = (location.next c).down lines := by
  unfold next
  split
  · rw [down, down, Nat.add_right_comm]
  · rfl

theorem after_down (text : List Char) :
    (location.down lines).after text = (location.after text).down lines := by
  induction text generalizing location with
  | nil => rfl
  | cons c text ih => rw [after_cons, after_cons, next_down, ih]

end Location

namespace TokenStream

theorem push_down (stream : TokenStream) (lexeme : Option Lexeme) (location : Location)
    (lines : Nat) :
    (stream.down lines).push lexeme (location.down lines) =
      (stream.push lexeme location).down lines := by
  cases lexeme <;> rfl

/-- A text that starts further down has the same tokens, or the same error, further down. -/
theorem scanFrom_down (location : Location) (text : List Char) (lines : Nat) :
    scanFrom (location.down lines) text =
      outcomeBelow lines (·.down lines) (scanFrom location text) := by
  fun_induction scanFrom location text with
  | case1 location => rw [scanFrom]; rfl
  | case2 location c rest cause hpiece =>
    rw [scanFrom]
    simp only [hpiece]
    rfl
  | case3 location c rest p hpiece error herror ih =>
    rw [herror] at ih
    rw [scanFrom]
    simp only [hpiece, location.after_down, ih]
    rfl
  | case4 location c rest p hpiece stream hstream ih =>
    rw [hstream] at ih
    rw [scanFrom]
    simp only [hpiece, location.after_down, ih, outcomeBelow_ok, push_down]

end TokenStream

/-! ### A text in front of a line break -/

/-- A line break behind a text ends no piece before its end and goes on with none. -/
theorem IsPiece.append_newline {lexeme : Option Lexeme} {taken rest : List Char}
    (h : IsPiece lexeme taken rest) (more : List Char) :
    IsPiece lexeme taken (rest ++ '\n' :: more) := by
  cases h with
  | space h => exact .space h
  | comment hbody hrest => exact .comment hbody (hrest.append (stops_cons.mpr (by decide)))
  | lexeme h hrest =>
    exact .lexeme h fun hword ↦ (hrest hword).append (stops_cons.mpr (by decide))

namespace TokenStream

/-- A token and a stream behind a stream. -/
def append (stream : TokenStream) (token : Token) (more : TokenStream) : TokenStream :=
  ⟨stream.tokens ++ token :: more.tokens, more.finish⟩

@[simp] theorem finish_push (stream : TokenStream) (lexeme : Option Lexeme)
    (location : Location) : (stream.push lexeme location).finish = stream.finish := by
  cases lexeme <;> rfl

theorem push_append (stream : TokenStream) (lexeme : Option Lexeme) (location : Location)
    (token : Token) (more : TokenStream) :
    (stream.push lexeme location).append token more =
      (stream.append token more).push lexeme location := by
  cases lexeme <;> rfl

/-- What stands behind a text and a line break is scanned as if nothing stood before it. -/
theorem scanFrom_append {location : Location} {text : List Char} {stream : TokenStream}
    (more : List Char) (h : scanFrom location text = .ok stream) :
    scanFrom location (text ++ '\n' :: more) =
      (stream.append ⟨.newline, stream.finish⟩ ·) <$> scanFrom (stream.finish.next '\n') more := by
  fun_induction scanFrom location text generalizing stream with
  | case1 location =>
    cases h
    have hnewline : IsPiece (some .newline) ['\n'] more := .lexeme (l := .newline) trivial nofun
    exact scanFrom_of_isPiece hnewline location
  | case2 => cases h
  | case3 => cases h
  | case4 location c rest p hpiece middle hmiddle ih =>
    cases h
    have htaken := (Token.isPiece_of_piece hpiece).append_newline more
    have htext : c :: rest ++ '\n' :: more = p.taken ++ (p.rest ++ '\n' :: more) := by
      rw [← List.append_assoc, p.append]
    rw [htext, scanFrom_of_isPiece htaken, ih hmiddle, finish_push]
    simp only [push_append]
    cases scanFrom (middle.finish.next '\n') more <;> rfl

/-- A text is scanned to its end. -/
theorem finish_of_scanFrom {location : Location} {text : List Char} {stream : TokenStream}
    (h : scanFrom location text = .ok stream) : stream.finish = location.after text := by
  fun_induction scanFrom location text generalizing stream with
  | case1 location =>
    cases h
    rfl
  | case2 => cases h
  | case3 => cases h
  | case4 location c rest p hpiece middle hmiddle ih =>
    cases h
    have hafter := location.after_append p.taken p.rest
    rw [p.append] at hafter
    rw [finish_push, ih hmiddle, hafter]

/-- A text on the lines below another one is scanned as if it stood alone. -/
theorem scan_append {first : String} {stream : TokenStream} (second : String)
    (h : scan first = .ok stream) :
    scan (first ++ "\n" ++ second) =
      outcomeBelow (first.toList.count '\n' + 1)
        (fun more ↦ stream.append ⟨.newline, stream.finish⟩
          (more.down (first.toList.count '\n' + 1)))
        (scan second) := by
  have htext : (first ++ "\n" ++ second).toList = first.toList ++ '\n' :: second.toList := by simp
  have hbelow : stream.finish.next '\n' =
      Location.start.down (first.toList.count '\n' + 1) := by
    have hline : stream.finish.line = 1 + first.toList.count '\n' := by
      rw [finish_of_scanFrom h, Location.line_after]
      rfl
    rw [Location.next, if_pos rfl, hline]
    rfl
  rw [scan, htext, scanFrom_append _ h, hbelow, scanFrom_down, scan]
  cases scanFrom Location.start second.toList <;> rfl

end TokenStream

end StateMachine
