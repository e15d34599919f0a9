import StateMachine.Proofs.Machine.Line
import StateMachine.Proofs.Token.Segmentation

/-!
The order of tokens. Tokens stand at strictly increasing places (`TokenStream.pairwise_tokens`), so
what one line starts with stands before everything that the later lines hold
(`TokenStream.pairwise_lines`).
-/

set_option autoImplicit false

namespace StateMachine

theorem Lexeme.chars_ne_nil {lexeme : Lexeme} (h : lexeme.IsLexical) : lexeme.chars ≠ [] := by
  by_cases hword : lexeme.isWord
  · obtain ⟨c, rest, hchars, -⟩ := exists_isPart_of_isWord h hword
    rw [hchars]
    exact List.cons_ne_nil c rest
  · cases lexeme with
    | identifier name => exact absurd rfl hword
    | keyword word => exact absurd rfl hword
    | endOfFile => exact h.elim
    | _ => exact List.cons_ne_nil _ _

namespace Segment

theorem exists_place_of_mem {before : List Char} {segments : List Segment} {token : Token}
    (h : token ∈ tokensBehind before segments) :
    ∃ passed, token.location = .behind (before ++ passed) := by
  induction segments generalizing before with
  | nil => exact absurd h List.not_mem_nil
  | cons segment segments ih =>
    rcases List.mem_cons.mp h with rfl | hmore
    · exact ⟨segment.trivia.chars, rfl⟩
    · obtain ⟨passed, hplace⟩ := ih hmore
      exact ⟨segment.chars ++ passed, by rw [hplace, List.append_assoc]⟩

theorem pairwise_tokensBehind (before : List Char) (segments : List Segment) :
    (tokensBehind before segments).Pairwise fun t u ↦ t.location < u.location := by
  induction segments generalizing before with
  | nil => exact .nil
  | cons segment segments ih =>
    refine List.pairwise_cons.mpr ⟨fun token htoken ↦ ?_, ih _⟩
    obtain ⟨passed, hplace⟩ := exists_place_of_mem htoken
    have hne : segment.lexeme.chars ++ passed ≠ [] :=
      List.append_ne_nil_of_left_ne_nil (Lexeme.chars_ne_nil segment.isLexical) passed
    have hlt := Location.behind_lt_append (before ++ segment.trivia.chars) hne
    rw [hplace, chars, ← List.append_assoc before, List.append_assoc (before ++ _)]
    exact hlt

end Segment

namespace TokenStream

variable {text : String} {stream : TokenStream}

/-- Each token stands before all later ones. -/
theorem pairwise_tokens (h : scan text = .ok stream) :
    stream.tokens.Pairwise fun t u ↦ t.location < u.location := by
  obtain ⟨s, hs⟩ := exists_segmentation h
  have hscan := s.scanFrom_chars
  rw [hs, ← scan, h] at hscan
  cases hscan
  exact Segment.pairwise_tokensBehind [] s.segments

/-- Lines hold all tokens but the line breaks, in their order. -/
theorem flatMap_tokens_linesOf (last : Token) (tokens : List Token) :
    (linesOf last tokens).flatMap Line.tokens =
      tokens.filter fun t ↦ decide (t.lexeme ≠ .newline) := by
  induction tokens with
  | nil => rfl
  | cons token tokens ih =>
    by_cases hnewline : token.lexeme = .newline
    · rw [linesOf_newline hnewline, List.flatMap_cons, ih]
      simp [hnewline]
    · obtain ⟨l, more, hmore, hcons⟩ := linesOf_cons hnewline
      rw [hmore] at ih
      rw [hcons, List.flatMap_cons, List.filter_cons_of_pos (by simp [hnewline]), ← ih,
        List.flatMap_cons]
      rfl

/-- The tokens of a line stand in their order, before those of later lines. -/
theorem pairwise_lines (h : scan text = .ok stream) :
    (∀ l ∈ stream.lines, l.tokens.Pairwise fun t u ↦ t.location < u.location) ∧
      stream.lines.Pairwise fun l k ↦
        ∀ t ∈ l.tokens, ∀ u ∈ k.tokens, t.location < u.location := by
  rw [← List.pairwise_flatMap, lines, flatMap_tokens_linesOf]
  exact (pairwise_tokens h).filter _

end TokenStream

end StateMachine
