import Mathlib.Data.List.Chain
import StateMachine.Proofs.Text.Identifier
import StateMachine.Proofs.Text.Location
import StateMachine.Proofs.Token.Piece

/-!
Texts cut into tokens. A row of segments is a row of lexemes with the trivia in front of each, and
the trivia in front of the end (`Segmentation`). The scanner finds the lexemes of such a row, each
of them where it stands (`Segmentation.scanFrom_chars`), and every text that it gets through is such
a row (`TokenStream.exists_segmentation`). So scanning is cutting a text into segments, and nothing
of the text is lost (`TokenStream.all_scan_eq_ok_iff`).
-/

set_option autoImplicit false

namespace StateMachine

open Text (Stops stops_nil stops_cons)

/-! ### Segments -/

/-- What may stand before a lexeme or the end: blanks, and a comment behind them. -/
structure Trivia where
  blanks : List Char
  comment : Option (List Char)
  isSpace : ∀ c ∈ blanks, Token.isSpace c
  newline_notMem : ∀ body ∈ comment, '\n' ∉ body

def Trivia.chars (trivia : Trivia) : List Char :=
  trivia.blanks ++ trivia.comment.elim [] ('#' :: ·)

/-- A lexeme and what stands before it. A comment goes on up to a line break, so no other lexeme
stands behind one. -/
structure Segment where
  trivia : Trivia
  lexeme : Lexeme
  isLexical : lexeme.IsLexical
  eq_newline : trivia.comment.isSome → lexeme = .newline

namespace Segment

def chars (segment : Segment) : List Char :=
  segment.trivia.chars ++ segment.lexeme.chars

/-- Something stands between two words. -/
def KeptApart (segment next : Segment) : Prop :=
  segment.lexeme.isWord → next.lexeme.isWord → next.trivia.chars ≠ []

/-- The tokens of segments that stand behind a text. -/
def tokensBehind (before : List Char) : List Segment → List Token
  | [] => []
  | segment :: segments =>
    ⟨segment.lexeme, .behind (before ++ segment.trivia.chars)⟩ ::
      tokensBehind (before ++ segment.chars) segments

end Segment

/-- A text cut into segments, and what is left behind the last one. -/
structure Segmentation where
  segments : List Segment
  last : Trivia
  keptApart : segments.IsChain Segment.KeptApart

namespace Segmentation

def chars (s : Segmentation) : List Char :=
  s.segments.flatMap Segment.chars ++ s.last.chars

def text (s : Segmentation) : String :=
  String.ofList s.chars

/-- The lexemes of the segments where they stand, and the end of the text behind them. -/
def tokens (s : Segmentation) : List Token :=
  Segment.tokensBehind [] s.segments ++ [⟨.endOfFile, .behind s.chars⟩]

/-- No word goes on behind its end. -/
def WordsMaximal (s : Segmentation) : Prop :=
  ∀ before segment after, s.segments = before ++ segment :: after → segment.lexeme.isWord →
    Stops Identifier.isPart (after.flatMap Segment.chars ++ s.last.chars)

end Segmentation

/-! ### Where words end -/

theorem Lexeme.exists_isPart_of_isWord {lexeme : Lexeme} (h : lexeme.IsLexical)
    (hword : lexeme.isWord) : ∃ c rest, lexeme.chars = c :: rest ∧ Identifier.isPart c := by
  have hchars : Identifier.isWord lexeme.chars := by
    cases lexeme with
    | identifier name => exact (Bool.and_eq_true_iff.mp h).1
    | keyword word => exact word.isWord_spelling
    | _ => cases hword
  cases hc : lexeme.chars with
  | nil =>
    rw [hc] at hchars
    cases hchars
  | cons c rest =>
    rw [hc] at hchars
    exact ⟨c, rest, rfl, Identifier.isPart_of_isStart (Bool.and_eq_true_iff.mp hchars).1⟩

/-- A word does not go on with a lexeme that is none. -/
theorem Lexeme.stops_of_not_isWord {lexeme : Lexeme} (h : lexeme.IsLexical)
    (hword : ¬ lexeme.isWord) (rest : List Char) :
    Stops Identifier.isPart (lexeme.chars ++ rest) := by
  cases lexeme with
  | identifier name => exact absurd rfl hword
  | keyword word => exact absurd rfl hword
  | endOfFile => exact h.elim
  | _ => exact stops_cons.mpr (by decide)

theorem Token.isPart_of_isSpace {c : Char} (h : isSpace c) : Identifier.isPart c = false := by
  simp only [isSpace, Bool.or_eq_true, decide_eq_true_eq] at h
  obtain (rfl | rfl) | rfl := h <;> decide

/-- A word does not go on with trivia, unless they are empty and it goes on behind them. -/
theorem Trivia.stops_append (trivia : Trivia) {rest : List Char}
    (h : trivia.chars = [] → Stops Identifier.isPart rest) :
    Stops Identifier.isPart (trivia.chars ++ rest) := by
  obtain ⟨blanks, comment, hspace, hcomment⟩ := trivia
  match blanks, comment with
  | c :: blanks, comment =>
    exact stops_cons.mpr (Token.isPart_of_isSpace (hspace c List.mem_cons_self))
  | [], none => exact h rfl
  | [], some body => exact stops_cons.mpr (by decide)

namespace Segment

/-- A word is at its end where segments follow that are kept apart from it. -/
theorem stops_of_keptApart {segment : Segment} {segments : List Segment} (last : Trivia)
    (h : (segment :: segments).IsChain KeptApart) (hword : segment.lexeme.isWord) :
    Stops Identifier.isPart (segments.flatMap chars ++ last.chars) := by
  cases segments with
  | nil =>
    have hlast := last.stops_append fun _ ↦ stops_nil
    rw [List.append_nil] at hlast
    exact hlast
  | cons next segments =>
    rw [List.flatMap_cons, chars, List.append_assoc, List.append_assoc]
    refine next.trivia.stops_append fun hempty ↦ ?_
    refine Lexeme.stops_of_not_isWord next.isLexical (fun hnext ↦ ?_) _
    exact (List.isChain_cons_cons.mp h).1 hword hnext hempty

end Segment

theorem Segmentation.wordsMaximal (s : Segmentation) : s.WordsMaximal := by
  intro before segment after hsegments hword
  have hchain := s.keptApart
  rw [hsegments] at hchain
  exact Segment.stops_of_keptApart s.last hchain.right_of_append hword

/-! ### Segments are scanned -/

namespace TokenStream

/-- Trivia are scanned without a trace. -/
theorem scanFrom_trivia (trivia : Trivia) {rest : List Char} (location : Location)
    (hrest : trivia.comment.isSome → Stops (· ≠ '\n') rest) :
    scanFrom location (trivia.chars ++ rest) =
      scanFrom (location.after trivia.chars) rest := by
  obtain ⟨blanks, comment, hspace, hcomment⟩ := trivia
  induction blanks generalizing location with
  | nil =>
    cases comment with
    | none => rfl
    | some body =>
      have hpiece : IsPiece none ('#' :: body) rest := .comment (hcomment body rfl) (hrest rfl)
      exact (scanFrom_of_isPiece hpiece location).trans (id_map _)
  | cons c blanks ih =>
    obtain ⟨hc, hblanks⟩ := List.forall_mem_cons.mp hspace
    have hpiece {more : List Char} : IsPiece none [c] more := .space hc
    exact ((scanFrom_of_isPiece hpiece location).trans (id_map _)).trans
      (ih (location.next c) hblanks hrest)

/-- Segments that stand behind a text are scanned up to the end. -/
theorem scanFrom_segments (before : List Char) {segments : List Segment} (last : Trivia)
    (h : segments.IsChain Segment.KeptApart) :
    scanFrom (.behind before) (segments.flatMap Segment.chars ++ last.chars) =
      .ok ⟨Segment.tokensBehind before segments,
        .behind (before ++ (segments.flatMap Segment.chars ++ last.chars))⟩ := by
  induction segments generalizing before with
  | nil =>
    have hlast := scanFrom_trivia last (.behind before) fun _ ↦ stops_nil
    rw [List.append_nil, Location.after_behind] at hlast
    rw [List.flatMap_nil, List.nil_append, hlast, scanFrom, Segment.tokensBehind]
  | cons segment segments ih =>
    let rest := segments.flatMap Segment.chars ++ last.chars
    have hlexeme : IsPiece (some segment.lexeme) segment.lexeme.chars rest :=
      .lexeme segment.isLexical (Segment.stops_of_keptApart last h)
    have hcomment : segment.trivia.comment.isSome →
        Stops (· ≠ '\n') (segment.lexeme.chars ++ rest) := by
      intro hsome
      rw [segment.eq_newline hsome]
      exact stops_cons.mpr (by decide)
    have htext : (segment :: segments).flatMap Segment.chars ++ last.chars =
        segment.trivia.chars ++ (segment.lexeme.chars ++ rest) := by
      simp [rest, Segment.chars]
    have hrest := ih (before ++ segment.chars) h.tail
    rw [htext, scanFrom_trivia _ _ hcomment, scanFrom_of_isPiece hlexeme, Location.after_behind,
      Location.after_behind, List.append_assoc, ← Segment.chars, hrest]
    simp [push, Segment.tokensBehind, Segment.chars, rest]

end TokenStream

theorem Segmentation.scanFrom_chars (s : Segmentation) :
    TokenStream.scanFrom .start s.chars =
      .ok ⟨Segment.tokensBehind [] s.segments, .behind s.chars⟩ :=
  TokenStream.scanFrom_segments [] s.last s.keptApart

/-! ### What is scanned is cut into segments -/

namespace Trivia

def empty : Trivia where
  blanks := []
  comment := none
  isSpace := by simp
  newline_notMem := by simp

def ofComment (body : List Char) (h : '\n' ∉ body) : Trivia where
  blanks := []
  comment := some body
  isSpace := by simp
  newline_notMem := by simpa using h

def cons (c : Char) (h : Token.isSpace c) (trivia : Trivia) : Trivia where
  blanks := c :: trivia.blanks
  comment := trivia.comment
  isSpace := List.forall_mem_cons.mpr ⟨h, trivia.isSpace⟩
  newline_notMem := trivia.newline_notMem

@[simp] theorem chars_empty : empty.chars = [] :=
  rfl

@[simp] theorem chars_ofComment {body : List Char} (h : '\n' ∉ body) :
    (ofComment body h).chars = '#' :: body :=
  rfl

/-- Trivia that start at a line break, or at the end, are empty. -/
theorem chars_eq_nil {trivia : Trivia} {rest : List Char}
    (h : Stops (· ≠ '\n') (trivia.chars ++ rest)) : trivia.chars = [] := by
  obtain ⟨blanks, comment, hspace, hcomment⟩ := trivia
  match blanks, comment with
  | c :: blanks, comment =>
    have hc : c = '\n' := by simpa using stops_cons.mp h
    have hblank := hspace c List.mem_cons_self
    rw [hc] at hblank
    cases hblank
  | [], none => rfl
  | [], some body => cases stops_cons.mp h

end Trivia

/-- The only lexeme that starts with a line break. -/
theorem Lexeme.eq_newline_of_stops {lexeme : Lexeme} {rest : List Char} (h : lexeme.IsLexical)
    (hstop : Stops (· ≠ '\n') (lexeme.chars ++ rest)) : lexeme = .newline := by
  by_cases hword : lexeme.isWord
  · obtain ⟨c, more, hchars, hc⟩ := exists_isPart_of_isWord h hword
    rw [hchars] at hstop
    have hnewline : c = '\n' := by simpa using stops_cons.mp hstop
    rw [hnewline] at hc
    cases hc
  · cases lexeme with
    | identifier name => exact absurd rfl hword
    | keyword word => exact absurd rfl hword
    | endOfFile => exact h.elim
    | newline => rfl
    | _ => cases stops_cons.mp hstop

namespace Segmentation

variable (s : Segmentation)

theorem exists_space {c : Char} (h : Token.isSpace c) :
    ∃ s' : Segmentation, s'.chars = [c] ++ s.chars := by
  obtain ⟨segments, last, hchain⟩ := s
  cases segments with
  | nil => exact ⟨⟨[], last.cons c h, hchain⟩, rfl⟩
  | cons segment segments =>
    let first : Segment := { segment with trivia := segment.trivia.cons c h }
    have hfirst : (first :: segments).IsChain Segment.KeptApart := by
      rw [List.isChain_cons] at hchain ⊢
      exact hchain
    exact ⟨⟨first :: segments, last, hfirst⟩, rfl⟩

/-- A comment stands in front of a line break or the end, so there is nothing else to keep. -/
theorem exists_comment {body : List Char} (hbody : '\n' ∉ body)
    (hrest : Stops (· ≠ '\n') s.chars) :
    ∃ s' : Segmentation, s'.chars = '#' :: body ++ s.chars := by
  obtain ⟨segments, last, hchain⟩ := s
  cases segments with
  | nil =>
    have hstop : Stops (· ≠ '\n') (last.chars ++ []) := by simpa [chars] using hrest
    have hlast : last.chars = [] := Trivia.chars_eq_nil hstop
    refine ⟨⟨[], .ofComment body hbody, hchain⟩, ?_⟩
    simp [chars, hlast]
  | cons segment segments =>
    rw [chars, List.flatMap_cons, Segment.chars, List.append_assoc, List.append_assoc] at hrest
    have htrivia : segment.trivia.chars = [] := Trivia.chars_eq_nil hrest
    rw [htrivia] at hrest
    have hnewline : segment.lexeme = .newline :=
      Lexeme.eq_newline_of_stops segment.isLexical hrest
    let first : Segment := ⟨.ofComment body hbody, .newline, trivial, fun _ ↦ rfl⟩
    have hfirst : (first :: segments).IsChain Segment.KeptApart := by
      rw [List.isChain_cons] at hchain ⊢
      exact ⟨fun _ _ hword ↦ absurd hword Bool.false_ne_true, hchain.2⟩
    refine ⟨⟨first :: segments, last, hfirst⟩, ?_⟩
    simp [chars, Segment.chars, htrivia, hnewline, first]

/-- A word in front of a word takes it in, unless something stands between them. -/
theorem exists_lexeme {lexeme : Lexeme} (h : lexeme.IsLexical)
    (hrest : lexeme.isWord → Stops Identifier.isPart s.chars) :
    ∃ s' : Segmentation, s'.chars = lexeme.chars ++ s.chars := by
  obtain ⟨segments, last, hchain⟩ := s
  let first : Segment := ⟨.empty, lexeme, h, fun hcomment ↦ absurd hcomment Bool.false_ne_true⟩
  have hfirst : (first :: segments).IsChain Segment.KeptApart := by
    refine List.isChain_cons.mpr ⟨fun next hnext hword hnextWord hempty ↦ ?_, hchain⟩
    obtain ⟨c, rest, hchars, hc⟩ := Lexeme.exists_isPart_of_isWord next.isLexical hnextWord
    have hstop : Stops Identifier.isPart (segments.flatMap Segment.chars ++ last.chars) :=
      hrest hword
    rw [List.eq_cons_of_mem_head? hnext, List.flatMap_cons, Segment.chars, hempty,
      hchars] at hstop
    rw [stops_cons.mp hstop] at hc
    cases hc
  refine ⟨⟨first :: segments, last, hfirst⟩, ?_⟩
  simp [chars, Segment.chars, first]

theorem exists_of_isPiece {lexeme : Option Lexeme} {taken : List Char}
    (h : IsPiece lexeme taken s.chars) : ∃ s' : Segmentation, s'.chars = taken ++ s.chars := by
  cases h with
  | space h => exact s.exists_space h
  | comment hbody hrest => exact s.exists_comment hbody hrest
  | lexeme h hrest => exact s.exists_lexeme h hrest

end Segmentation

/-- A text that can be scanned can be cut into segments. -/
theorem TokenStream.exists_segmentation {location : Location} {text : List Char}
    {stream : TokenStream} (h : scanFrom location text = .ok stream) :
    ∃ s : Segmentation, s.chars = text := by
  fun_induction scanFrom location text generalizing stream with
  | case1 location => exact ⟨⟨[], .empty, .nil⟩, rfl⟩
  | case2 => cases h
  | case3 => cases h
  | case4 location c rest p hpiece stream hstream ih =>
    obtain ⟨s, hs⟩ := ih hstream
    have hp := Token.isPiece_of_piece hpiece
    rw [← hs] at hp
    rw [← p.append, ← hs]
    exact s.exists_of_isPiece hp

/-- Every lexeme of a row of segments stands at its place among their characters. -/
theorem Segment.exists_of_mem_tokensBehind {before : List Char} {segments : List Segment}
    {token : Token} (h : token ∈ tokensBehind before segments) :
    ∃ first rest, before ++ segments.flatMap chars = first ++ (token.lexeme.chars ++ rest) ∧
      token.location = .behind first ∧ token.lexeme.IsLexical := by
  induction segments generalizing before with
  | nil => exact absurd h List.not_mem_nil
  | cons segment segments ih =>
    rcases List.mem_cons.mp h with rfl | hmore
    · exact ⟨before ++ segment.trivia.chars, segments.flatMap chars, by simp [chars], rfl,
        segment.isLexical⟩
    · obtain ⟨first, rest, htext, hplace⟩ := ih hmore
      refine ⟨first, rest, ?_, hplace⟩
      rw [← htext, List.flatMap_cons, List.append_assoc]

/-- Every token of a text stands at its place in it, the end of the text behind everything. -/
theorem TokenStream.exists_place_of_mem {text : String} {stream : TokenStream} {token : Token}
    (hscan : scan text = .ok stream) (h : token ∈ stream.all) :
    ∃ before after, text.toList = before ++ (token.lexeme.chars ++ after) ∧
      token.location = .behind before ∧ (token.lexeme ≠ .endOfFile → token.lexeme.IsLexical) := by
  obtain ⟨s, hs⟩ := exists_segmentation hscan
  have hstream := s.scanFrom_chars
  rw [hs, ← scan, hscan] at hstream
  cases hstream
  rcases List.mem_append.mp h with htoken | hfinish
  · obtain ⟨before, rest, htext, hplace, hlexical⟩ := Segment.exists_of_mem_tokensBehind htoken
    refine ⟨before, rest ++ s.last.chars, ?_, hplace, fun _ ↦ hlexical⟩
    rw [← hs, Segmentation.chars, ← List.nil_append (s.segments.flatMap Segment.chars), htext]
    simp
  · cases List.mem_singleton.mp hfinish
    exact ⟨text.toList, [], by simp [finishToken, Lexeme.chars], rfl, fun hne ↦ absurd rfl hne⟩

/-- The tokens of a text are those of the ways to cut it into segments, with each lexeme at its
place in the text; and wherever it is cut, words are taken whole. -/
theorem TokenStream.all_scan_eq_ok_iff (text : String) :
    (∀ tokens, all <$> scan text = .ok tokens ↔
      ∃ s : Segmentation, s.text = text ∧ s.tokens = tokens) ∧
    ∀ s : Segmentation, s.text = text → s.WordsMaximal := by
  have htokens (s : Segmentation) : all <$> scan s.text = .ok s.tokens := by
    rw [scan, Segmentation.text, String.toList_ofList, s.scanFrom_chars]
    rfl
  refine ⟨fun tokens ↦ ⟨fun h ↦ ?_, ?_⟩, fun s _ ↦ s.wordsMaximal⟩
  · cases hscan : scan text with
    | error e =>
      rw [hscan] at h
      cases h
    | ok stream =>
      obtain ⟨s, hs⟩ := exists_segmentation hscan
      have htext : s.text = text := by rw [Segmentation.text, hs, String.ofList_toList]
      have hall := htokens s
      rw [htext, h] at hall
      exact ⟨s, htext, (Except.ok.inj hall).symm⟩
  · rintro ⟨s, rfl, rfl⟩
    exact htokens s

end StateMachine
