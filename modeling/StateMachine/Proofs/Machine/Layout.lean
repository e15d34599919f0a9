import Mathlib.Data.List.DropRight
import StateMachine.Proofs.Machine.Derivation
import StateMachine.Proofs.Machine.Located

/-!
Layout. What a description says stands in its filled lines: blank ones are steps that change
nothing (`Steps.filter_filled_iff`), and line breaks at the beginning, at the end and in a row make
blank lines only (`filledLines_layout`). So two descriptions whose lexemes differ in such line
breaks are both read or both refused, and they are read as the same machine
(`Machine.parse_of_layout_eq`).
-/

set_option autoImplicit false

namespace StateMachine

namespace Lexeme

def isNewline (lexeme : Lexeme) : Bool :=
  lexeme = .newline

/-- The lexemes with one line break for each row of them. -/
def collapseNewlines : List Lexeme → List Lexeme
  | first :: second :: rest =>
    if first.isNewline && second.isNewline then collapseNewlines (second :: rest)
    else first :: collapseNewlines (second :: rest)
  | lexemes => lexemes

/-- The lexemes without line breaks at either end and with one for each row of them. -/
def layout (lexemes : List Lexeme) : List Lexeme :=
  collapseNewlines ((lexemes.dropWhile isNewline).rdropWhile isNewline)

/-- The lines that are not blank. -/
def filledLines (lexemes : List Lexeme) : List (List Lexeme) :=
  (lexemes.splitOnP isNewline).filter (!·.isEmpty)

variable {lexeme : Lexeme} {lexemes : List Lexeme}

theorem filledLines_append_newline (before after : List Lexeme) (h : lexeme.isNewline) :
    filledLines (before ++ lexeme :: after) = filledLines before ++ filledLines after := by
  rw [filledLines, List.splitOnP_append_cons _ _ h, List.filter_append]
  rfl

theorem filledLines_newline (h : lexeme.isNewline) :
    filledLines (lexeme :: lexemes) = filledLines lexemes :=
  filledLines_append_newline [] lexemes h

theorem filledLines_dropWhile (lexemes : List Lexeme) :
    filledLines (lexemes.dropWhile isNewline) = filledLines lexemes := by
  induction lexemes with
  | nil => rfl
  | cons lexeme lexemes ih =>
    by_cases h : lexeme.isNewline
    · rw [List.dropWhile_cons_of_pos h, ih, filledLines_newline h]
    · rw [List.dropWhile_cons_of_neg h]

theorem filledLines_rdropWhile (lexemes : List Lexeme) :
    filledLines (lexemes.rdropWhile isNewline) = filledLines lexemes := by
  induction lexemes using List.reverseRecOn with
  | nil => rfl
  | append_singleton lexemes lexeme ih =>
    rw [List.rdropWhile_concat]
    split
    · next h =>
      rw [ih, filledLines_append_newline lexemes [] h]
      exact (List.append_nil _).symm
    · rfl

/-- Of two line breaks in a row, the second one only ends a blank line, whatever stands before. -/
theorem filledLines_append_collapseNewlines (before lexemes : List Lexeme) :
    filledLines (before ++ collapseNewlines lexemes) = filledLines (before ++ lexemes) := by
  fun_induction collapseNewlines lexemes generalizing before with
  | case1 first second rest h ih =>
    obtain ⟨hfirst, hsecond⟩ := Bool.and_eq_true_iff.mp h
    rw [ih, filledLines_append_newline before rest hsecond,
      filledLines_append_newline before (second :: rest) hfirst, filledLines_newline hsecond]
  | case2 first second rest h ih =>
    have hbehind := ih (before ++ [first])
    rw [List.append_assoc, List.append_assoc] at hbehind
    exact hbehind
  | case3 => rfl

theorem filledLines_layout (lexemes : List Lexeme) :
    filledLines (layout lexemes) = filledLines lexemes := by
  have hcollapse := filledLines_append_collapseNewlines []
  simp only [List.nil_append] at hcollapse
  rw [layout, hcollapse, filledLines_rdropWhile, filledLines_dropWhile]

end Lexeme

/-! ### Filled lines of a text -/

def Line.isFilled (l : Line) : Bool :=
  !l.lexemes.isEmpty

namespace TokenStream

theorem map_lexemes_linesOf_eq_splitOnP (last : Token) (tokens : List Token) :
    (linesOf last tokens).map Line.lexemes =
      (tokens.map (·.lexeme)).splitOnP Lexeme.isNewline := by
  induction tokens with
  | nil => rfl
  | cons token rest ih =>
    rw [List.map_cons, List.splitOnP_cons_eq_if_modifyHead, ← ih]
    by_cases h : token.lexeme = .newline
    · rw [linesOf_newline h, if_pos (by simpa [Lexeme.isNewline] using h)]
      rfl
    · obtain ⟨l, more, hmore, hcons⟩ := @linesOf_cons last _ rest h
      rw [hcons, hmore, if_neg (by simpa [Lexeme.isNewline] using h)]
      rfl

/-- The filled lines of a text are those of its lexemes. -/
theorem map_lexemes_filter_isFilled (stream : TokenStream) :
    (stream.lines.filter Line.isFilled).map Line.lexemes = Lexeme.filledLines stream.lexemes := by
  have hfilled : Line.isFilled = (fun lexemes ↦ !lexemes.isEmpty) ∘ Line.lexemes := rfl
  rw [hfilled, ← List.filter_map, lines, map_lexemes_linesOf_eq_splitOnP]
  rfl

end TokenStream

/-- Blank lines are steps that change nothing. -/
theorem Steps.filter_filled_iff {lines : List Line} {p q : Progress} :
    Steps (lines.filter Line.isFilled) p q ↔ Steps lines p q := by
  induction lines generalizing p with
  | nil => rfl
  | cons l lines ih =>
    by_cases h : l.lexemes = []
    · rw [List.filter_cons_of_neg (by simp [Line.isFilled, h]), ih]
      constructor
      · exact .cons (.blank h)
      · intro hsteps
        cases hsteps with
        | cons hstep hrest =>
          cases hstep.eq_of_blank h
          exact hrest
    · rw [List.filter_cons_of_pos (by simp [Line.isFilled, h])]
      constructor
      · intro hsteps
        cases hsteps with
        | cons hstep hrest => exact .cons hstep (ih.mp hrest)
      · intro hsteps
        cases hsteps with
        | cons hstep hrest => exact .cons hstep (ih.mpr hrest)

/-! ### Machines -/

namespace Machine

variable {s t : String} {m n : Machine}

/-- A description with the same filled lines is read as a machine that differs in its locations at
most. -/
theorem exists_parse_of_layout_eq {first second : TokenStream}
    (hs : TokenStream.scan s = .ok first) (ht : TokenStream.scan t = .ok second)
    (hlayout : Lexeme.layout first.lexemes = Lexeme.layout second.lexemes)
    (hm : parse s = .ok m) : ∃ n, parse t = .ok n ∧ n.unlocated = m.unlocated := by
  obtain ⟨stream, block, hscan, hclosed, hsteps⟩ := parseNamed_eq_ok_iff.mp hm
  cases hs.symm.trans hscan
  have hlines : (second.lines.filter Line.isFilled).map Line.lexemes =
      (first.lines.filter Line.isFilled).map Line.lexemes := by
    rw [TokenStream.map_lexemes_filter_isFilled, TokenStream.map_lexemes_filter_isFilled,
      ← Lexeme.filledLines_layout, ← hlayout, Lexeme.filledLines_layout]
  obtain ⟨⟨n, final⟩, hfinal, hn⟩ := (Steps.filter_filled_iff.mpr hsteps).transfer hlines rfl
  obtain ⟨hmachine, hblock⟩ := Progress.mk.inj hn
  refine ⟨n, parseNamed_eq_ok_iff.mpr ⟨second, final, ht, ?_, ?_⟩, hmachine⟩
  · exact Block.isClosed_of_unlocated_eq hblock hclosed
  · exact Steps.filter_filled_iff.mp hfinal

/-- Layout does not change meaning. Of two texts whose lexemes are the same but for line breaks at
the ends and in rows, one can be read if and only if the other one can, and then the machines are
the same and have the same checksum. -/
theorem parse_of_layout_eq {first second : TokenStream}
    (hs : TokenStream.scan s = .ok first) (ht : TokenStream.scan t = .ok second)
    (hlayout : Lexeme.layout first.lexemes = Lexeme.layout second.lexemes) :
    ((parse s).isOk ↔ (parse t).isOk) ∧
      ∀ m n, parse s = .ok m → parse t = .ok n → m.sameAs n ∧ m.checksum = n.checksum := by
  refine ⟨⟨fun h ↦ ?_, fun h ↦ ?_⟩, fun m n hm hn ↦ ?_⟩
  · obtain ⟨m, hm⟩ := exists_eq_ok h
    obtain ⟨n, hn, -⟩ := exists_parse_of_layout_eq hs ht hlayout hm
    rw [hn]
    rfl
  · obtain ⟨n, hn⟩ := exists_eq_ok h
    obtain ⟨m, hm, -⟩ := exists_parse_of_layout_eq ht hs hlayout.symm hn
    rw [hm]
    rfl
  · obtain ⟨n', hn', hunlocated⟩ := exists_parse_of_layout_eq hs ht hlayout hm
    cases hn.symm.trans hn'
    refine ⟨sameAs_of_unlocated_eq hunlocated.symm (printable_of_parseNamed hn), ?_⟩
    rw [checksum, checksum, ← text_unlocated m, ← hunlocated, text_unlocated]

/-- A description with comments and blank lines, and one without. -/
def blindSources : String × String :=
  ("\n\n# by day\nevents\n\n  sun  S1 # bright\n\n\nend\n\ninitial state Up\n\n" ++
      "\tsun=>Down/lower\n\nend\n\n\nstate Down\nend\n\n",
    "events\nsun S1\nend\ninitial state Up\nsun => Down / lower\nend\nstate Down\nend")

theorem parse_of_layout_eq_blind : ∃ first second,
    TokenStream.scan blindSources.1 = .ok first ∧ TokenStream.scan blindSources.2 = .ok second ∧
      Lexeme.layout first.lexemes = Lexeme.layout second.lexemes ∧
      ∃ m n, parse blindSources.1 = .ok m ∧ parse blindSources.2 = .ok n ∧ m.sameAs n ∧
        m.checksum = n.checksum := by
  obtain ⟨first, hs⟩ := exists_eq_ok (by decide +kernel : (TokenStream.scan blindSources.1).isOk)
  obtain ⟨second, ht⟩ := exists_eq_ok (by decide +kernel : (TokenStream.scan blindSources.2).isOk)
  have hlayout : Lexeme.layout first.lexemes = Lexeme.layout second.lexemes := by
    have hsame : (TokenStream.scan blindSources.1).toOption.map (Lexeme.layout ·.lexemes) =
        (TokenStream.scan blindSources.2).toOption.map (Lexeme.layout ·.lexemes) := by
      decide +kernel
    rw [hs, ht] at hsame
    exact Option.some.inj hsame
  obtain ⟨m, hm⟩ := exists_eq_ok (by decide +kernel : (parse blindSources.1).isOk)
  obtain ⟨hiff, hsame⟩ := parse_of_layout_eq hs ht hlayout
  obtain ⟨n, hn⟩ := exists_eq_ok (hiff.mp (by rw [hm]; rfl))
  exact ⟨first, second, hs, ht, hlayout, m, n, hm, hn, hsame m n hm hn⟩

end Machine

end StateMachine
