import StateMachine.Proofs.Machine.Located
import StateMachine.Proofs.Machine.Relocation

/-!
Descriptions in two parts. Where a description is complete, another one without header may follow
on the lines below: it is read as if it stood alone, and what it declares comes behind what was
declared before (`Machine.parseNamed_below`). In particular it fails where it would fail alone, the
lines above it counted (`Machine.parse_append`).
-/

set_option autoImplicit false

namespace StateMachine

open TokenStream (linesOf linesOf_newline linesOf_cons linesOf_ne_nil)

/-! ### Lines in two parts -/

namespace TokenStream

variable {last token : Token} {tokens rest : List Token} {lines : Nat}

/-- A line break ends the last line of what stands before it. -/
theorem linesOf_append_newline (h : token.lexeme = .newline) :
    linesOf last (tokens ++ token :: rest) = linesOf token tokens ++ linesOf last rest := by
  induction tokens with
  | nil => exact linesOf_newline h
  | cons first tokens ih =>
    by_cases hbreak : first.lexeme = .newline
    · rw [List.cons_append, linesOf_newline hbreak, linesOf_newline hbreak, ih, List.cons_append]
    · obtain ⟨l, more, hmore, hcons⟩ := @linesOf_cons token _ tokens hbreak
      obtain ⟨l', more', hmore', hcons'⟩ :=
        @linesOf_cons last _ (tokens ++ token :: rest) hbreak
      rw [ih, hmore, List.cons_append] at hmore'
      cases hmore'
      rw [List.cons_append, hcons', hcons, List.cons_append]

/-- What ends the last line makes no difference to what stands in the lines. -/
theorem map_tokens_linesOf (last other : Token) (tokens : List Token) :
    (linesOf last tokens).map Line.tokens = (linesOf other tokens).map Line.tokens := by
  induction tokens with
  | nil => rfl
  | cons token rest ih =>
    by_cases hbreak : token.lexeme = .newline
    · rw [linesOf_newline hbreak, linesOf_newline hbreak, List.map_cons, List.map_cons, ih]
    · obtain ⟨l, more, hmore, hcons⟩ := @linesOf_cons last _ rest hbreak
      obtain ⟨l', more', hmore', hcons'⟩ := @linesOf_cons other _ rest hbreak
      rw [hmore, hmore', List.map_cons, List.map_cons, List.cons.injEq] at ih
      rw [hcons, hcons', List.map_cons, List.map_cons, Line.push, Line.push, ih.1, ih.2]

theorem linesOf_down (last : Token) (tokens : List Token) (lines : Nat) :
    linesOf (last.down lines) (tokens.map (·.down lines)) =
      (linesOf last tokens).map (·.down lines) := by
  induction tokens with
  | nil => rfl
  | cons token rest ih =>
    by_cases hbreak : token.lexeme = .newline
    · rw [List.map_cons, linesOf_newline hbreak, linesOf_newline (by exact hbreak), ih]
      rfl
    · obtain ⟨l, more, hmore, hcons⟩ := @linesOf_cons last _ rest hbreak
      obtain ⟨l', more', hmore', hcons'⟩ :=
        @linesOf_cons (last.down lines) (token.down lines) (rest.map (·.down lines)) hbreak
      rw [ih, hmore, List.map_cons] at hmore'
      cases hmore'
      rw [List.map_cons, hcons', hcons, List.map_cons]
      rfl

end TokenStream

/-- A line does what its tokens say, whatever ends it. -/
theorem Step.of_tokens {l l' : Line} {p q : Progress} (h : Step l p q)
    (htokens : l'.tokens = l.tokens) : Step l' p q := by
  have hlexemes : l'.lexemes = l.lexemes := congrArg (List.map Token.lexeme) htokens
  have hpeek {lexeme : Lexeme} {more : List Lexeme} (hl : l.lexemes = lexeme :: more) :
      l.peek.location = l'.peek.location := by
    obtain ⟨location, rest, rfl, -⟩ := Line.lexemes_eq_cons_iff.mp hl
    rw [Line.peek, Line.peek, htokens]
    rfl
  cases h with
  | blank h => exact .blank (hlexemes.trans h)
  | header h => exact .header (hlexemes.trans h)
  | declarations hclosed h => exact .declarations hclosed (hlexemes.trans h)
  | declaration hcode hlocation h =>
    exact .declaration hcode (hlocation.trans (hpeek h)) (hlexemes.trans h)
  | endDeclarations h => exact .endDeclarations (hlexemes.trans h)
  | @state m b name initial hclosed h =>
    have hlocation : l.peek.location = l'.peek.location := by cases initial <;> exact hpeek h
    rw [hlocation]
    exact .state hclosed (hlexemes.trans h)
  | hook hfree h => exact .hook hfree (hlexemes.trans h)
  | nested hsource hlocation hguard h =>
    exact .nested hsource (hlocation.trans (hpeek h)) hguard (hlexemes.trans h)
  | endState h => exact .endState (hlexemes.trans h)
  | transition hclosed hlocation hguard h =>
    exact .transition hclosed (hlocation.trans (hpeek h)) hguard (hlexemes.trans h)

theorem Steps.of_tokens {lines lines' : List Line} {p q : Progress} (h : Steps lines p q)
    (htokens : lines'.map Line.tokens = lines.map Line.tokens) : Steps lines' p q := by
  induction h generalizing lines' with
  | nil =>
    rw [List.map_eq_nil_iff.mp htokens]
    exact .nil
  | cons hstep _ ih =>
    obtain ⟨l', rest', rfl, hl, hrest⟩ := List.map_eq_cons_iff.mp htokens
    exact .cons (hstep.of_tokens hl) (ih hrest)

/-! ### Descriptions without header -/

/-- The first token that is no line break; at the latest it is the end of the text. -/
def TokenStream.first? (stream : TokenStream) : Option Token :=
  stream.all.find? (·.lexeme ≠ .newline)

/-- Does the text start with a header, blank lines aside? One that cannot be scanned does not. -/
def startsWithHeader (text : String) : Bool :=
  match TokenStream.scan text with
  | .error _ => false
  | .ok stream => stream.first?.any (·.lexeme = .keyword .machine)

/-- The first line that is not blank is no header. -/
def Unheaded (lines : List Line) : Prop :=
  ∀ l ∈ lines.find? (!·.tokens.isEmpty), l.peek.lexeme ≠ .keyword .machine

theorem Unheaded.down {ls : List Line} (h : Unheaded ls) (lines : Nat) :
    Unheaded (ls.map (·.down lines)) := by
  intro l hl
  have hempty : (fun l : Line ↦ !l.tokens.isEmpty) ∘ (·.down lines) =
      fun l : Line ↦ !l.tokens.isEmpty :=
    funext fun l ↦ by simp [Line.down]
  rw [List.find?_map, hempty] at hl
  obtain ⟨first, hfirst, rfl⟩ := Option.map_eq_some_iff.mp hl
  rw [Line.peek_down]
  exact h first hfirst

theorem TokenStream.peek_of_find? {last : Token} {tokens : List Token} {l : Line}
    (h : (linesOf last tokens).find? (!·.tokens.isEmpty) = some l) :
    tokens.find? (·.lexeme ≠ .newline) = some l.peek := by
  induction tokens with
  | nil => cases h
  | cons token rest ih =>
    by_cases hbreak : token.lexeme = .newline
    · rw [linesOf_newline hbreak] at h
      rw [List.find?_cons_of_neg (by simpa using hbreak)]
      exact ih h
    · obtain ⟨first, more, -, hcons⟩ := @linesOf_cons last _ rest hbreak
      rw [hcons] at h
      cases h
      rw [List.find?_cons_of_pos (by simpa using hbreak)]
      rfl

theorem TokenStream.unheaded_lines {text : String} {stream : TokenStream}
    (hscan : scan text = .ok stream) (h : startsWithHeader text = false) :
    Unheaded stream.lines := by
  intro l hl hmachine
  have hfirst : stream.first? = some l.peek := by
    rw [first?, all, List.find?_append, peek_of_find? hl, Option.some_or]
  simp [startsWithHeader, hscan, hfirst, hmachine] at h

namespace Progress

/-- What lines lead to, no block being open behind them. -/
def readLines (p : Progress) (lines : List Line) (finish : Token) : Except SyntaxError Machine :=
  lines.foldlM step p >>= close finish

theorem readLines_behind (m : Machine) {p : Progress} (hp : p.block ≠ .beginning)
    (ls : List Line) (finish : Token) (lines : Nat) :
    (p.behind m lines).readLines (ls.map (·.down lines)) (finish.down lines) =
      outcomeBelow lines (fun n ↦ m.followedBy (n.down lines)) (p.readLines ls finish) :=
  outcomeBelow_bind (foldlM_step_behind m hp ls) fun q ↦ close_behind m q finish

/-- Without a header it makes no difference whether anything was read before. -/
theorem readLines_of_isClosed {m : Machine} {b : Block} {ls : List Line} (hclosed : b.isClosed)
    (h : Unheaded ls) (finish : Token) :
    readLines ⟨m, b⟩ ls finish = readLines ⟨m, .none⟩ ls finish := by
  induction ls with
  | nil =>
    cases b with
    | beginning | none => rfl
    | declarations kind => cases hclosed
    | state s => cases hclosed
  | cons l ls ih =>
    by_cases hblank : l.tokens = []
    · have hstep (q : Progress) : q.step l = .ok q := by
        rw [step, List.isEmpty_iff.mpr hblank, if_pos rfl]
      have hrest : Unheaded ls := by
        intro first hfirst
        refine h first ?_
        rw [List.find?_cons_of_neg (by simp [hblank])]
        exact hfirst
      rw [readLines, readLines, List.foldlM_cons, List.foldlM_cons, hstep, hstep]
      exact ih hrest
    · have hmachine : l.peek.lexeme ≠ .keyword .machine := by
        refine h l ?_
        rw [List.find?_cons_of_pos (by simpa using hblank)]
        rfl
      have hstep : step ⟨m, b⟩ l = step ⟨m, .none⟩ l := by
        rw [step, step, if_neg (by simpa using hblank), if_neg (by simpa using hblank),
          next_of_isClosed hclosed hmachine, next_of_isClosed rfl hmachine]
      rw [readLines, readLines, List.foldlM_cons, List.foldlM_cons, hstep]

end Progress

/-! ### Descriptions in two parts -/

namespace Machine

variable {name first second : String} {m n : Machine}

/-- Complete lines, a line break and lines without header are read like the latter alone. -/
theorem ofTokens_append {stream more : TokenStream} {token : Token} {block : Block}
    (hclosed : block.isClosed) (hnewline : token.lexeme = .newline)
    (hsteps : Steps stream.lines ⟨empty name, .beginning⟩ ⟨m, block⟩)
    (hmore : Unheaded more.lines) (lines : Nat) :
    ofTokens name (stream.append token (more.down lines)) =
      outcomeBelow lines (fun n ↦ m.followedBy (n.down lines)) (ofTokens name more) := by
  have hlines : (stream.append token (more.down lines)).lines =
      linesOf token stream.tokens ++ more.lines.map (·.down lines) := by
    have hdown := TokenStream.linesOf_down more.finishToken more.tokens lines
    rw [TokenStream.lines, TokenStream.append, TokenStream.lines, ← hdown]
    exact TokenStream.linesOf_append_newline hnewline
  have hfirst : (linesOf token stream.tokens).foldlM Progress.step ⟨empty name, .beginning⟩ =
      .ok ⟨m, block⟩ :=
    Progress.foldlM_step_eq_ok_iff.mpr
      (hsteps.of_tokens (TokenStream.map_tokens_linesOf token _ stream.tokens))
  have hbehind : Progress.behind ⟨empty name, .none⟩ m lines = ⟨m, .none⟩ := by
    rw [Progress.behind, followedBy_empty]
    rfl
  calc ofTokens name (stream.append token (more.down lines))
      = Progress.readLines ⟨m, block⟩ (more.lines.map (·.down lines))
          (more.finishToken.down lines) := by
        rw [ofTokens, hlines, List.foldlM_append, hfirst]
        rfl
    _ = Progress.readLines ⟨m, .none⟩ (more.lines.map (·.down lines))
          (more.finishToken.down lines) :=
        Progress.readLines_of_isClosed hclosed (hmore.down lines) _
    _ = outcomeBelow lines (fun n ↦ m.followedBy (n.down lines))
          (Progress.readLines ⟨empty name, .none⟩ more.lines more.finishToken) := by
        rw [← hbehind]
        exact Progress.readLines_behind m Block.noConfusion more.lines more.finishToken lines
    _ = outcomeBelow lines (fun n ↦ m.followedBy (n.down lines)) (ofTokens name more) := by
        rw [← Progress.readLines_of_isClosed (b := .beginning) rfl hmore]
        rfl

/-- A description without header below a complete one is read as it is read alone, behind the
machine of the complete one. -/
theorem parseNamed_below (hfirst : parseNamed name first = .ok m)
    (hsecond : startsWithHeader second = false) :
    parseNamed name (first ++ "\n" ++ second) =
      outcomeBelow (first.toList.count '\n' + 1)
        (fun n ↦ m.followedBy (n.down (first.toList.count '\n' + 1))) (parseNamed name second) := by
  obtain ⟨stream, block, hscan, hclosed, hsteps⟩ := parseNamed_eq_ok_iff.mp hfirst
  have hboth := TokenStream.scan_append second hscan
  rw [parseNamed, parseNamed, hboth]
  cases hmore : TokenStream.scan second with
  | error e => rfl
  | ok more =>
    exact ofTokens_append hclosed rfl hsteps (TokenStream.unheaded_lines hmore hsecond) _

theorem unlocated_down (m : Machine) (lines : Nat) : (m.down lines).unlocated = m.unlocated := by
  have hdeclaration : Declaration.unlocated ∘ (·.down lines) = Declaration.unlocated := rfl
  have hstate : State.unlocated ∘ (·.down lines) = State.unlocated := rfl
  have htransition : Transition.unlocated ∘ (·.down lines) = Transition.unlocated := rfl
  simp only [unlocated, down, List.map_map, hdeclaration, hstate, htransition]

theorem unlocated_followedBy (m n : Machine) :
    (m.followedBy n).unlocated = m.unlocated.followedBy n.unlocated := by
  simp only [unlocated, followedBy, List.map_append]

/-- A machine that was read is the same as one that differs from it in locations at most. -/
theorem sameAs_of_parse {text : String} (h : parse text = .ok m)
    (hn : m.unlocated = n.unlocated) : m.sameAs n := by
  rw [← sameAs_unlocated, ← hn, sameAs_unlocated]
  exact (printable_of_parseNamed h).sameAs_self

/-- Reading is compositional. Below a complete description, a description without header is read
if and only if it is read alone. What it declares then comes behind what was declared above; and
an error is the one that it has alone, found as many lines further down as there are above. -/
theorem parse_append (hfirst : parse first = .ok m) (hsecond : startsWithHeader second = false) :
    ((parse (first ++ "\n" ++ second)).isOk ↔ (parse second).isOk) ∧
      (∀ n, parse second = .ok n →
        ∃ r, parse (first ++ "\n" ++ second) = .ok r ∧
          r = m.followedBy (n.down (first.toList.count '\n' + 1)) ∧ r.sameAs (m.followedBy n)) ∧
      ∀ e, parse second = .error e →
        parse (first ++ "\n" ++ second) =
          .error ⟨⟨e.location.line + (first.toList.count '\n' + 1), e.location.column⟩,
            e.cause⟩ := by
  have hbelow := parseNamed_below hfirst hsecond
  refine ⟨?_, fun n hn ↦ ?_, fun e he ↦ ?_⟩
  · rw [parse, hbelow, parse]
    cases parseNamed defaultName second <;> rfl
  · have hread : parse (first ++ "\n" ++ second) =
        .ok (m.followedBy (n.down (first.toList.count '\n' + 1))) := by
      rw [parse] at hn ⊢
      rw [hbelow, hn, outcomeBelow_ok]
    refine ⟨_, hread, rfl, sameAs_of_parse hread ?_⟩
    rw [unlocated_followedBy, unlocated_followedBy, unlocated_down]
  · rw [parse] at he ⊢
    rw [hbelow, he, outcomeBelow_error]
    rfl

/-- A complete description that ends inside a comment. -/
def hatchSource : String :=
  "machine Hatch\ninitial state Shut\n  open => Ajar\nend # no [state yet"

/-- The first of these descriptions can be read, the second one gives two actions to one hook. -/
def hatchLines : String × String :=
  ("\nstate Ajar\nend", "state Ajar\n  exit push\n  exit pull\nend")

theorem parse_append_hatch : ∃ m n, parse hatchSource = .ok m ∧ parse hatchLines.1 = .ok n ∧
    (∃ r, parse (hatchSource ++ "\n" ++ hatchLines.1) = .ok r ∧ r = m.followedBy (n.down 4) ∧
      r.sameAs (m.followedBy n)) ∧
    parse (hatchSource ++ "\n" ++ hatchLines.2) =
      .error ⟨⟨7, 3⟩, .duplicateClause .exit "Ajar"⟩ := by
  obtain ⟨m, hm⟩ := exists_eq_ok (by decide +kernel : (parse hatchSource).isOk)
  obtain ⟨n, hn⟩ := exists_eq_ok (by decide +kernel : (parse hatchLines.1).isOk)
  have herror : parse hatchLines.2 = .error ⟨⟨3, 3⟩, .duplicateClause .exit "Ajar"⟩ := by
    have hfound : (match parse hatchLines.2 with
      | .error e => some e
      | .ok _ => none) = some ⟨⟨3, 3⟩, .duplicateClause .exit "Ajar"⟩ := by decide +kernel
    cases h : parse hatchLines.2 with
    | error e =>
      rw [h] at hfound
      rw [Option.some.inj hfound]
    | ok m =>
      rw [h] at hfound
      cases hfound
  have hread := (parse_append hm (by decide +kernel)).2.1 n hn
  have hfail := (parse_append hm (by decide +kernel)).2.2 _ herror
  exact ⟨m, n, hm, hn, hread, hfail⟩

end Machine

end StateMachine
