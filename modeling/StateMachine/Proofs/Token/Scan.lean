import StateMachine.Proofs.Token.Piece

/-!
Scanning what was written. Lexemes with blanks between them and a line break behind them are
scanned back, wherever the text starts (`Written.line`), and what is written so can be put together
(`Written.append`). In the other direction, every name that the scanner finds is an identifier
(`namesValid_of_scan`).
-/

set_option autoImplicit false

namespace StateMachine

open Text (Stops stops_cons)

namespace TokenStream

/-- The lexemes of the tokens. -/
def lexemes (stream : TokenStream) : List Lexeme :=
  stream.tokens.map (·.lexeme)

theorem map_lexeme_all (stream : TokenStream) :
    stream.all.map (·.lexeme) = stream.lexemes ++ [.endOfFile] := by
  rw [all, List.map_append]
  rfl

@[simp] theorem lexemes_push (stream : TokenStream) (lexeme : Option Lexeme)
    (location : Location) :
    (stream.push lexeme location).lexemes = lexeme.toList ++ stream.lexemes := by
  cases lexeme <;> rfl

end TokenStream

/-- Wherever it starts, the text has these lexemes. -/
def Scans (text : List Char) (lexemes : List Lexeme) : Prop :=
  ∀ location, ∃ stream, TokenStream.scanFrom location text = .ok stream ∧ stream.lexemes = lexemes

section Pieces

variable {text rest : List Char} {more : List Lexeme}

theorem scans_nil : Scans [] [] := by
  intro location
  exact ⟨⟨[], location⟩, by rw [TokenStream.scanFrom], rfl⟩

/-- A text has the lexeme of the piece it starts with, and then those of the rest. -/
theorem Scans.of_isPiece {lexeme : Option Lexeme} {taken : List Char} (h : Scans rest more)
    (hpiece : IsPiece lexeme taken rest) : Scans (taken ++ rest) (lexeme.toList ++ more) := by
  intro location
  obtain ⟨stream, hstream, hmore⟩ := h (location.after taken)
  refine ⟨stream.push lexeme location, ?_, ?_⟩
  · rw [TokenStream.scanFrom_of_isPiece hpiece, hstream]
    rfl
  · rw [TokenStream.lexemes_push, hmore]

theorem Scans.space (h : Scans rest more) : Scans (' ' :: rest) more :=
  h.of_isPiece (.space rfl)

/-- A lexeme is scanned back in front of what no word goes on with. -/
theorem Scans.lexical {lexeme : Lexeme} (h : Scans rest more) (hlexeme : lexeme.IsLexical)
    (hrest : lexeme.isWord → Stops Identifier.isPart rest) :
    Scans (lexeme.chars ++ rest) (lexeme :: more) :=
  h.of_isPiece (.lexeme hlexeme hrest)

theorem Scans.newline (h : Scans rest more) : Scans ('\n' :: rest) (.newline :: more) :=
  h.of_isPiece (.lexeme (l := .newline) trivial nofun)

/-- A text that is scanned somewhere has the same lexemes everywhere. -/
theorem Scans.of_scanFrom {location : Location} {stream : TokenStream}
    (h : TokenStream.scanFrom location text = .ok stream) : Scans text stream.lexemes := by
  fun_induction TokenStream.scanFrom location text generalizing stream with
  | case1 location =>
    cases h
    exact scans_nil
  | case2 => cases h
  | case3 => cases h
  | case4 location c rest p hpiece stream hstream ih =>
    cases h
    have hscans := (ih hstream).of_isPiece (Token.isPiece_of_piece hpiece)
    rw [p.append] at hscans
    rw [TokenStream.lexemes_push]
    exact hscans

end Pieces

/-! ### Lines -/

namespace Lexeme

/-- May the lexeme be written inside a line? A guard must not hold a bracket that would close it. -/
def IsWritable : Lexeme → Prop
  | .identifier name => Identifier.isValid name
  | .guard text => ∀ rest,
    Token.guardBody false (text.toList ++ ']' :: rest) = some (text.toList, rest)
  | .newline | .endOfFile => False
  | _ => True

/-- Lexemes in one line, with blanks between them. -/
def spaced : List Lexeme → List Char
  | [] => []
  | [lexeme] => lexeme.chars
  | lexeme :: more => lexeme.chars ++ ' ' :: spaced more

end Lexeme

/-- Every lexeme of the line may be written. -/
def Writable (lexemes : List Lexeme) : Prop :=
  ∀ lexeme ∈ lexemes, lexeme.IsWritable

section Lines

variable {text rest : List Char} {lexemes others more : List Lexeme}

theorem writable_nil : Writable [] := by
  simp [Writable]

theorem Writable.cons {lexeme : Lexeme} (h : lexeme.IsWritable) (hothers : Writable others) :
    Writable (lexeme :: others) :=
  List.forall_mem_cons.mpr ⟨h, hothers⟩

theorem Writable.append (h : Writable lexemes) (hothers : Writable others) :
    Writable (lexemes ++ others) :=
  List.forall_mem_append.mpr ⟨h, hothers⟩

theorem Lexeme.IsWritable.isLexical {lexeme : Lexeme} (h : lexeme.IsWritable) :
    lexeme.IsLexical := by
  cases lexeme with
  | guard text => exact (Token.guardBody_eq_some_iff.mp (h [])).1
  | newline => exact h.elim
  | endOfFile => exact h.elim
  | _ => exact h

/-- A lexeme that may be written is scanned back in front of a blank or a line break. -/
theorem Scans.lexeme {lexeme : Lexeme} (h : Scans rest more) (hlexeme : lexeme.IsWritable)
    (hrest : Stops Identifier.isPart rest) : Scans (lexeme.chars ++ rest) (lexeme :: more) :=
  h.lexical hlexeme.isLexical fun _ ↦ hrest

/-- A line of lexemes is scanned back. -/
theorem Scans.spaced (h : Scans rest more) (hlexemes : Writable lexemes) :
    Scans (Lexeme.spaced lexemes ++ '\n' :: rest) (lexemes ++ .newline :: more) := by
  induction lexemes with
  | nil => exact h.newline
  | cons lexeme lexemes ih =>
    have hfirst := hlexemes lexeme List.mem_cons_self
    have hothers := ih fun other hother ↦ hlexemes other (List.mem_cons_of_mem lexeme hother)
    cases lexemes with
    | nil => exact h.newline.lexeme hfirst (stops_cons.mpr (by decide))
    | cons next lexemes =>
      rw [Lexeme.spaced, List.append_assoc]
      · exact hothers.space.lexeme hfirst (stops_cons.mpr (by decide))
      · exact List.cons_ne_nil next lexemes

/-- The lines of lexemes as the scanner finds them. -/
def lexemesOfLines (lines : List (List Lexeme)) : List Lexeme :=
  lines.flatMap (· ++ [.newline])

/-- In front of any text, the text has these lines of lexemes, each in one line. -/
structure Written (text : List Char) (lines : List (List Lexeme)) : Prop where
  scans_append {rest : List Char} {more : List Lexeme} (h : Scans rest more) :
    Scans (text ++ rest) (lexemesOfLines lines ++ more)
  newline_notMem : ∀ lexemes ∈ lines, .newline ∉ lexemes

namespace Written

variable {lines others : List (List Lexeme)} {other : List Char}

theorem nil : Written [] [] :=
  ⟨id, by simp⟩

theorem append (h : Written text lines) (hother : Written other others) :
    Written (text ++ other) (lines ++ others) where
  scans_append hrest := by
    rw [List.append_assoc, lexemesOfLines, List.flatMap_append, List.append_assoc]
    exact h.scans_append (hother.scans_append hrest)
  newline_notMem := List.forall_mem_append.mpr ⟨h.newline_notMem, hother.newline_notMem⟩

/-- An empty line. -/
theorem blank : Written ['\n'] [[]] :=
  ⟨Scans.newline, by simp⟩

theorem line (h : Writable lexemes) : Written (Lexeme.spaced lexemes ++ ['\n']) [lexemes] where
  scans_append hrest := by
    have hline := hrest.spaced h
    simpa [lexemesOfLines] using hline
  newline_notMem := by
    rw [List.forall_mem_singleton]
    exact fun hmem ↦ h .newline hmem

theorem indented (h : Written text lines) : Written ("    ".toList ++ text) lines :=
  ⟨fun hrest ↦ (h.scans_append hrest).space.space.space.space, h.newline_notMem⟩

theorem flatMap {α : Type} {items : List α} {text : α → List Char}
    {lines : α → List (List Lexeme)} (h : ∀ a ∈ items, Written (text a) (lines a)) :
    Written (items.flatMap text) (items.flatMap lines) := by
  induction items with
  | nil => exact nil
  | cons a items ih =>
    exact append (h a List.mem_cons_self) (ih fun b hb ↦ h b (List.mem_cons_of_mem a hb))

/-- One line for each item. -/
theorem map {α : Type} {items : List α} {text : α → List Char} {lexemes : α → List Lexeme}
    (h : ∀ a ∈ items, Written (text a) [lexemes a]) :
    Written (items.flatMap text) (items.map lexemes) := by
  rw [List.map_eq_flatMap]
  exact flatMap h

/-- A text that was written as lines has their lexemes. -/
theorem scans (h : Written text lines) : Scans text (lexemesOfLines lines) := by
  have hscans := h.scans_append scans_nil
  rw [List.append_nil, List.append_nil] at hscans
  exact hscans

end Written

end Lines

/-! ### Names -/

/-- Every name among the lexemes is an identifier. -/
def NamesValid (lexemes : List Lexeme) : Prop :=
  ∀ name, .identifier name ∈ lexemes → Identifier.isValid name

/-- A name that a piece holds is an identifier: the scanner takes whole words. -/
theorem Token.isValid_of_piece {c : Char} {text : List Char} {p : Piece (c :: text)}
    {name : String} (h : Token.piece c text = .ok p)
    (hname : p.lexeme = some (.identifier name)) : Identifier.isValid name := by
  have hpiece := isPiece_of_piece h
  rw [hname] at hpiece
  exact hpiece.isLexical

theorem namesValid_of_scanFrom {location : Location} {text : List Char} {stream : TokenStream}
    (h : TokenStream.scanFrom location text = .ok stream) : NamesValid stream.lexemes := by
  fun_induction TokenStream.scanFrom location text generalizing stream with
  | case1 location =>
    cases h
    simp [NamesValid, TokenStream.lexemes]
  | case2 => cases h
  | case3 => cases h
  | case4 location c rest p hpiece more hmore ih =>
    cases h
    intro name hname
    rw [TokenStream.lexemes_push, List.mem_append, Option.mem_toList] at hname
    rcases hname with hfirst | hothers
    · exact Token.isValid_of_piece hpiece hfirst
    · exact ih hmore name hothers

/-- The scanner finds no name that is not an identifier. -/
theorem namesValid_of_scan {text : String} {stream : TokenStream}
    (h : TokenStream.scan text = .ok stream) : NamesValid stream.lexemes :=
  namesValid_of_scanFrom h

end StateMachine
