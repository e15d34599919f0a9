import Mathlib.Tactic.SplitIfs
import StateMachine.Proofs.Text.Run
import StateMachine.Proofs.Token.GuardText

/-!
What a text may start with. A piece is a blank, a comment up to the end of its line, or a lexeme; a
word goes on as far as it can (`IsPiece`). The scanner takes such a piece from the head of a text
(`TokenStream.scanFrom_of_isPiece`) and takes nothing else (`Token.isPiece_of_piece`). Where it
takes nothing, it has met a character that starts no piece, or a bracket that is not closed
(`Token.cause_of_piece`).
-/

set_option autoImplicit false

namespace StateMachine

open Text (Stops stops_nil stops_cons takeWhile_run dropWhile_run)

namespace Lexeme

def isWord : Lexeme → Bool
  | .identifier _ | .keyword _ => true
  | _ => false

/-- Is the lexeme one that stands in a text? The end of the text does not. -/
def IsLexical : Lexeme → Prop
  | .identifier name => Identifier.isValid name
  | .guard text => Token.IsGuardText text.toList
  | .endOfFile => False
  | _ => True

theorem ofWord_of_isValid {name : String} (h : Identifier.isValid name) :
    ofWord name = .identifier name := by
  have hnone := (Bool.and_eq_true_iff.mp h).2
  rw [Option.isNone_iff_eq_none] at hnone
  simp only [ofWord, hnone]

theorem ofWord_spelling (word : Keyword) : ofWord word.spelling = .keyword word := by
  simp only [ofWord, Keyword.ofWord?_spelling]

end Lexeme

theorem Keyword.isWord_spelling (word : Keyword) : Identifier.isWord word.spelling.toList := by
  cases word <;> decide

/-- The word that the characters of a word make is a lexeme with these characters. -/
theorem Lexeme.isLexical_ofWord {word : List Char} (h : Identifier.isWord word) :
    (ofWord (String.ofList word)).IsLexical ∧ (ofWord (String.ofList word)).isWord ∧
      (ofWord (String.ofList word)).chars = word := by
  unfold ofWord
  split
  · next reserved hreserved =>
    refine ⟨trivial, rfl, ?_⟩
    rw [chars, Keyword.spelling_of_ofWord? hreserved, String.toList_ofList]
  · next hnone =>
    refine ⟨?_, rfl, ?_⟩
    · rw [IsLexical, Identifier.isValid, String.toList_ofList, h, hnone]
      rfl
    · rw [chars, String.toList_ofList]

/-- A piece with this lexeme, if it has one, and these characters may stand in front of a text. -/
inductive IsPiece : Option Lexeme → List Char → List Char → Prop
  | space {c : Char} {rest : List Char} (h : Token.isSpace c) : IsPiece none [c] rest
  | comment {body rest : List Char} (hbody : '\n' ∉ body) (hrest : Stops (· ≠ '\n') rest) :
    IsPiece none ('#' :: body) rest
  | lexeme {l : Lexeme} {rest : List Char} (h : l.IsLexical)
    (hrest : l.isWord → Stops Identifier.isPart rest) : IsPiece (some l) l.chars rest

theorem IsPiece.isLexical {l : Lexeme} {taken rest : List Char} (h : IsPiece (some l) taken rest) :
    l.IsLexical := by
  cases h with
  | lexeme h _ => exact h

/-! ### Pieces that stand there are taken -/

namespace Token

/-- The piece that the scanner takes from the text. -/
def Takes (text : List Char) (lexeme : Option Lexeme) (taken rest : List Char) : Prop :=
  ∃ (c : Char) (more : List Char) (happend : taken ++ rest = c :: more) (htaken : taken ≠ []),
    text = c :: more ∧ piece c more = .ok ⟨lexeme, taken, rest, happend, htaken⟩

variable {body rest : List Char}

theorem takes_space {c : Char} (h : isSpace c) : Takes (c :: rest) none [c] rest := by
  refine ⟨c, rest, rfl, List.cons_ne_nil c [], rfl, ?_⟩
  simp only [piece, h, if_true]

theorem takes_comment (hbody : '\n' ∉ body) (hrest : Stops (· ≠ '\n') rest) :
    Takes ('#' :: body ++ rest) none ('#' :: body) rest := by
  have hline : ∀ c ∈ body, decide (c ≠ '\n') := by
    intro c hc
    exact decide_eq_true fun heq ↦ hbody (heq ▸ hc)
  have htake := takeWhile_run hline hrest
  have hdrop := dropWhile_run hline hrest
  refine ⟨'#', body ++ rest, rfl, List.cons_ne_nil '#' body, rfl, ?_⟩
  unfold piece
  rw [if_neg (by decide), if_neg (by decide), if_pos rfl]
  simp only [htake, hdrop]

theorem takes_guard (h : IsGuardText body) :
    Takes ('[' :: (body ++ ']' :: rest)) (some (.guard (String.ofList body)))
      ('[' :: (body ++ [']'])) rest := by
  have hbody : guardBody false (body ++ ']' :: rest) = some (body, rest) :=
    guardBody_eq_some_iff.mpr ⟨h, rfl⟩
  refine ⟨'[', body ++ ']' :: rest, by simp, List.cons_ne_nil _ _, rfl, ?_⟩
  unfold piece
  rw [if_neg (by decide), if_neg (by decide), if_neg (by decide), if_neg (by decide),
    if_neg (by decide), if_pos rfl]
  split
  · next hnone =>
    rw [hbody] at hnone
    cases hnone
  · next found last hfound =>
    rw [hbody] at hfound
    cases hfound
    rfl

theorem ne_of_isStart {c d : Char} (h : Identifier.isStart c) (hd : Identifier.isStart d = false) :
    c ≠ d := by
  rintro rfl
  rw [h] at hd
  cases hd

/-- A word is taken up to a character that no word goes on with. -/
theorem takes_word {word : List Char} (hword : Identifier.isWord word)
    (hrest : Stops Identifier.isPart rest) :
    Takes (word ++ rest) (some (.ofWord (String.ofList word))) word rest := by
  cases word with
  | nil => cases hword
  | cons c body =>
    obtain ⟨hstart, hbody⟩ := Bool.and_eq_true_iff.mp hword
    have hspace : isSpace c = false := by
      have hblank : c ≠ ' ' := ne_of_isStart hstart (by decide)
      have htab : c ≠ '\t' := ne_of_isStart hstart (by decide)
      have hreturn : c ≠ '\r' := ne_of_isStart hstart (by decide)
      simp [isSpace, hblank, htab, hreturn]
    have hnewline : c ≠ '\n' := ne_of_isStart hstart (by decide)
    have hhash : c ≠ '#' := ne_of_isStart hstart (by decide)
    have hminus : c ≠ '-' := ne_of_isStart hstart (by decide)
    have hequals : c ≠ '=' := ne_of_isStart hstart (by decide)
    have hslash : c ≠ '/' := ne_of_isStart hstart (by decide)
    have hbracket : c ≠ '[' := ne_of_isStart hstart (by decide)
    have htake := takeWhile_run (List.all_eq_true.mp hbody) hrest
    have hdrop := dropWhile_run (List.all_eq_true.mp hbody) hrest
    refine ⟨c, body ++ rest, rfl, List.cons_ne_nil c body, rfl, ?_⟩
    simp only [piece, hspace, hnewline, hhash, hminus, hequals, hslash, hbracket, hstart,
      htake, hdrop, decide_false, Bool.or_self, Bool.false_eq_true, if_false, if_true]

theorem takes_lexeme {l : Lexeme} (h : l.IsLexical)
    (hrest : l.isWord → Stops Identifier.isPart rest) :
    Takes (l.chars ++ rest) (some l) l.chars rest := by
  cases l with
  | identifier name =>
    have hword := takes_word (Bool.and_eq_true_iff.mp h).1 (hrest rfl)
    rw [String.ofList_toList, Lexeme.ofWord_of_isValid h] at hword
    exact hword
  | keyword word =>
    have hword := takes_word word.isWord_spelling (hrest rfl)
    rw [String.ofList_toList, Lexeme.ofWord_spelling] at hword
    exact hword
  | guard text =>
    have htext : (Lexeme.guard text).chars ++ rest = '[' :: (text.toList ++ ']' :: rest) := by
      simp [Lexeme.chars]
    have hguard : Takes ('[' :: (text.toList ++ ']' :: rest)) _ (Lexeme.guard text).chars rest :=
      takes_guard h
    rw [String.ofList_toList, ← htext] at hguard
    exact hguard
  | arrow => exact ⟨'-', '>' :: rest, rfl, List.cons_ne_nil _ _, rfl, rfl⟩
  | fatArrow => exact ⟨'=', '>' :: rest, rfl, List.cons_ne_nil _ _, rfl, rfl⟩
  | slash => exact ⟨'/', rest, rfl, List.cons_ne_nil _ _, rfl, rfl⟩
  | newline => exact ⟨'\n', rest, rfl, List.cons_ne_nil _ _, rfl, rfl⟩
  | endOfFile => exact h.elim

theorem takes_of_isPiece {lexeme : Option Lexeme} {taken : List Char}
    (h : IsPiece lexeme taken rest) : Takes (taken ++ rest) lexeme taken rest := by
  cases h with
  | space h => exact takes_space h
  | comment hbody hrest => exact takes_comment hbody hrest
  | lexeme h hrest => exact takes_lexeme h hrest

end Token

/-- A piece is scanned in front of any text, wherever it starts. -/
theorem TokenStream.scanFrom_of_isPiece {lexeme : Option Lexeme} {taken rest : List Char}
    (h : IsPiece lexeme taken rest) (location : Location) :
    scanFrom location (taken ++ rest) =
      (·.push lexeme location) <$> scanFrom (location.after taken) rest := by
  obtain ⟨c, more, happend, htaken, htext, hpiece⟩ := Token.takes_of_isPiece h
  rw [htext, scanFrom]
  simp only [hpiece]
  cases scanFrom (location.after taken) rest <;> rfl

/-! ### What is taken is a piece -/

namespace Token

variable {c : Char} {text : List Char}

theorem stops_dropWhile (p : Char → Bool) (text : List Char) : Stops p (text.dropWhile p) := by
  intro d hd
  have hnot := List.head?_dropWhile_not p text
  rw [Option.mem_def.mp hd] at hnot
  simpa using hnot

theorem isPiece_of_piece {p : Piece (c :: text)} (h : piece c text = .ok p) :
    IsPiece p.lexeme p.taken p.rest := by
  unfold piece at h
  split_ifs at h with hspace hnewline hhash hdash hminus hslash hbracket hstart
  · cases h
    exact .space hspace
  · cases h
    subst hnewline
    exact .lexeme (l := .newline) trivial (by simp [Lexeme.isWord])
  · cases h
    subst hhash
    refine .comment (fun hmem ↦ ?_) (stops_dropWhile _ text)
    simpa using List.all_eq_true.mp List.all_takeWhile '\n' hmem
  · split at h
    · cases h
      subst hminus
      exact .lexeme (l := .arrow) trivial (by simp [Lexeme.isWord])
    · cases h
  · split at h
    · cases h
      have hequals : c = '=' := by simpa [hminus] using hdash
      subst hequals
      exact .lexeme (l := .fatArrow) trivial (by simp [Lexeme.isWord])
    · cases h
  · cases h
    subst hslash
    exact .lexeme (l := .slash) trivial (by simp [Lexeme.isWord])
  · split at h
    · cases h
    · next body more hbody =>
      cases h
      subst hbracket
      have hguard := (guardBody_eq_some_iff.mp hbody).1
      have hchars : '[' :: (body ++ [']']) = (Lexeme.guard (String.ofList body)).chars := by
        rw [Lexeme.chars, String.toList_ofList]
      have hlexical : (Lexeme.guard (String.ofList body)).IsLexical := by
        rw [Lexeme.IsLexical, String.toList_ofList]
        exact hguard
      simp only [hchars]
      exact .lexeme hlexical (by simp [Lexeme.isWord])
  · cases h
    have hword : Identifier.isWord (c :: text.takeWhile Identifier.isPart) :=
      Bool.and_eq_true_iff.mpr ⟨hstart, List.all_takeWhile⟩
    obtain ⟨hlexical, -, hchars⟩ := Lexeme.isLexical_ofWord hword
    have hpiece := IsPiece.lexeme hlexical fun _ ↦ stops_dropWhile Identifier.isPart text
    rw [hchars] at hpiece
    exact hpiece

/-- Where no piece is taken, the character starts none, or it is a bracket that is not closed. -/
theorem cause_of_piece {cause : SyntaxError.Cause} (h : piece c text = .error cause) :
    cause = .unexpectedCharacter c ∨ cause = .unterminatedGuard ∧ c = '[' := by
  unfold piece at h
  split_ifs at h with hspace hnewline hhash hdash hminus hslash hbracket hstart
  · split at h
    · cases h
    · cases h
      exact Or.inl rfl
  · split at h
    · cases h
    · cases h
      exact Or.inl rfl
  · split at h
    · cases h
      exact Or.inr ⟨rfl, hbracket⟩
    · cases h
  · cases h
    exact Or.inl rfl

end Token

end StateMachine
