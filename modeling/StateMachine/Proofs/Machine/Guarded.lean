import StateMachine.Proofs.Guard.Bracketed
import StateMachine.Proofs.Machine.Acceptance

/-!
Guards in descriptions. A text of one line that is read as a guard is one token where it stands
between brackets, whatever follows, and a line with a transition may hold it
(`Guard.exists_scan_bracketed`).
-/

set_option autoImplicit false

namespace StateMachine

/-- A line with a transition is read as this transition, if its guard can be read. -/
theorem Machine.exists_parse_transition {source : String} {arc : Arc}
    (hwritable : Writable (arc.lexemes source)) (hguards : GuardsReadable (arc.lexemes source)) :
    ∃ m location, parse (String.ofList (Lexeme.spaced (arc.lexemes source) ++ ['\n'])) = .ok m ∧
      m.transitions = [{ arc.transition source with location := location }] := by
  obtain ⟨stream, hstream, hlexemes⟩ := (Written.line hwritable).scans .start
  have hscan : TokenStream.scan (String.ofList (Lexeme.spaced (arc.lexemes source) ++ ['\n'])) =
      .ok stream := by
    rw [TokenStream.scan, String.toList_ofList, hstream]
  rw [lexemesOfLines, List.flatMap_singleton] at hlexemes
  obtain ⟨tokens, last, htokens, hline, hlast⟩ := List.map_eq_append_iff.mp hlexemes
  obtain ⟨token, more, rfl, -, -⟩ := List.map_eq_cons_iff.mp hline
  obtain ⟨newline, rfl, hnewline⟩ := List.map_eq_singleton_iff.mp hlast
  let placed : Arc := { arc with location := token.location }
  have hitem : Grammar.ItemOf stream.tokens (.transition source placed) [] := by
    rw [htokens]
    exact .transition (.line hline rfl (.newline hnewline))
  have hreadable : GuardsReadable stream.lexemes := by
    intro text hmem
    rw [hlexemes, List.mem_append] at hmem
    exact hguards text (hmem.resolve_right (by simp))
  have hdistinct : Description.HooksDistinct ⟨none, [.transition source placed]⟩ := by
    intro item hitem
    cases List.mem_singleton.mp hitem
    trivial
  exact ⟨_, token.location, (parseNamed_eq_ok_iff_fileOf hscan).mpr
    ⟨_, .unheaded (.item hitem (.done (by simp))), hreadable, hdistinct, rfl⟩, rfl⟩

namespace Guard

open Token (IsGuardText)
open TokenStream (scan)

variable {t : String} {g : Guard}

/-- Between brackets the text is one token, and what follows is scanned as if it stood alone. -/
theorem exists_scan_of_isGuardText (h : IsGuardText t.toList) {r : String} {stream : TokenStream}
    (hscan : scan r = .ok stream) :
    ∃ bracketed, scan ("[" ++ t ++ "]" ++ r) = .ok bracketed ∧
      bracketed.all.map (·.lexeme) = .guard t :: stream.all.map (·.lexeme) := by
  have hlexical : (Lexeme.guard t).IsLexical := h
  have hchars : ("[" ++ t ++ "]" ++ r).toList = (Lexeme.guard t).chars ++ r.toList := by
    simp [Lexeme.chars]
  obtain ⟨bracketed, hbracketed, hlexemes⟩ :=
    (Scans.of_scanFrom hscan).lexical hlexical (by simp [Lexeme.isWord]) .start
  refine ⟨bracketed, ?_, ?_⟩
  · rw [scan, hchars, hbracketed]
  · rw [TokenStream.map_lexeme_all, TokenStream.map_lexeme_all, hlexemes, List.cons_append]

/-- The line of a transition with the text as its guard. -/
def guardedLine (source target event t : String) : String :=
  "transition " ++ source ++ " -> " ++ target ++ " on " ++ event ++ " [" ++ t ++ "]\n"

theorem toList_guardedLine (source target event t : String) :
    (guardedLine source target event t).toList =
      Keyword.transition.spelling.toList ++ ' ' :: (source.toList ++ ' ' :: '-' :: '>' :: ' ' ::
        (target.toList ++ ' ' :: (Keyword.on.spelling.toList ++ ' ' :: (event.toList ++
          ' ' :: '[' :: (t.toList ++ [']', '\n']))))) := by
  unfold guardedLine
  simp [Keyword.spelling]

/-- The transition of a line with a guard, the guard still a text. -/
def guardedArc (target event t : String) : Arc :=
  ⟨event, target, some t, none, .start⟩

theorem lexemes_guardedArc (source target event t : String) :
    (guardedArc target event t).lexemes source =
      [.keyword .transition, .identifier source, .arrow, .identifier target, .keyword .on,
        .identifier event, .guard t] :=
  rfl

theorem guardedLine_eq (source target event t : String) :
    guardedLine source target event t =
      String.ofList (Lexeme.spaced ((guardedArc target event t).lexemes source) ++ ['\n']) := by
  rw [← String.toList_inj, String.toList_ofList, toList_guardedLine, lexemes_guardedArc]
  simp [Lexeme.spaced, Lexeme.chars]

/-- The line is read as the transition with the guard that the text is read as. -/
theorem exists_parse_guardedLine (hguard : IsGuardText t.toList) (h : parse t = .ok g)
    {source target event : String} (hsource : Identifier.isValid source)
    (htarget : Identifier.isValid target) (hevent : Identifier.isValid event) :
    ∃ m location, Machine.parse (guardedLine source target event t) = .ok m ∧
      m.transitions = [⟨source, target, event, some g, none, location⟩] := by
  let arc := guardedArc target event t
  have hbody : (Lexeme.guard t).IsWritable := fun rest ↦
    Token.guardBody_eq_some_iff.mpr ⟨hguard, rfl⟩
  have hwritable : Writable (arc.lexemes source) :=
    .cons trivial (.cons hsource (.cons trivial (.cons htarget (.cons trivial
      (.cons hevent (.cons hbody writable_nil))))))
  have hguards : GuardsReadable (arc.lexemes source) := by
    intro text hmem
    have htext : text = t := by simpa [arc, lexemes_guardedArc] using hmem
    exact ⟨g, htext ▸ h⟩
  have htransition : arc.transition source = ⟨source, target, event, some g, none, .start⟩ := by
    simp [Arc.transition, arc, guardedArc, h, Except.toOption]
  obtain ⟨m, location, hparse, htransitions⟩ := Machine.exists_parse_transition hwritable hguards
  rw [htransition] at htransitions
  refine ⟨m, location, ?_, htransitions⟩
  rw [guardedLine_eq]
  exact hparse

/-- The scanner and the reader of guards agree on where a guard ends. A text of one line that is
read as a guard is scanned back from between brackets, whatever follows; so a transition may be
written down with it, whatever its names are. -/
theorem exists_scan_bracketed (hline : '\n' ∉ t.toList) (h : parse t = .ok g) :
    (∀ r stream, scan r = .ok stream → ∃ bracketed, scan ("[" ++ t ++ "]" ++ r) = .ok bracketed ∧
      bracketed.all.map (·.lexeme) = .guard t :: stream.all.map (·.lexeme)) ∧
    ∀ source target event, Identifier.isValid source → Identifier.isValid target →
      Identifier.isValid event → ∃ m location, Machine.parse (guardedLine source target event t) =
        .ok m ∧ m.transitions = [⟨source, target, event, some g, none, location⟩] := by
  have hguard := isGuardText_of_parse hline h
  constructor
  · intro r stream hscan
    exact exists_scan_of_isGuardText hguard hscan
  · intro source target event hsource htarget hevent
    exact exists_parse_guardedLine hguard h hsource htarget hevent

/-- A guard with a literal that is full of what might end it. -/
def crowded : Guard :=
  .negated (.equals "label" (.string "]\"#[\\"))

theorem exists_scan_bracketed_crowded :
    crowded.text = "!ctx.label == \"]\\\"#[\\\\\"" ∧
    (∃ stream, scan ("[" ++ crowded.text ++ "]" ++ "") = .ok stream ∧
      stream.all.map (·.lexeme) = [.guard crowded.text, .endOfFile]) ∧
    ∃ m location, Machine.parse (guardedLine "Idle" "Busy" "go" crowded.text) = .ok m ∧
      m.transitions = [⟨"Idle", "Busy", "go", some crowded, none, location⟩] := by
  have hline : '\n' ∉ crowded.text.toList := by decide
  have hempty : scan "" = .ok ⟨[], .start⟩ := by
    rw [scan, String.toList_empty, TokenStream.scanFrom]
  obtain ⟨hscan, hread⟩ := exists_scan_bracketed hline (parse_text (by decide))
  exact ⟨by decide, hscan "" _ hempty, hread "Idle" "Busy" "go" (by decide) (by decide) (by decide)⟩

end Guard

end StateMachine
