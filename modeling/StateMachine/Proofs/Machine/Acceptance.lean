import StateMachine.Proofs.Guard.RoundTrip
import StateMachine.Proofs.Machine.Derivation

/-!
What is derived is read. Each production is a row of lines, and each line takes the reading one
step further (`Grammar.Entries.steps`, `Grammar.Clauses.steps`, `Grammar.Items.steps`), provided
that its guard can be read and its hook is still free. Hence a text is read exactly if its tokens
are derived from the grammar, its guards can be read and no state has two clauses for one hook, and
what is read is the machine of the derivation (`Machine.parse_eq_ok_iff`).
-/

set_option autoImplicit false

namespace StateMachine

open TokenStream (linesOf linesOf_newline linesOf_cons)

/-! ### Guards of a text -/

theorem guard_mem_tail_iff {text : String} {body action : Option String} :
    .guard text ∈ guardLexemes body ++ actionLexemes action ↔ body = some text := by
  cases body <;> cases action <;> simp [guardLexemes, actionLexemes, eq_comm]

theorem newline_not_mem_tail {body action : Option String} :
    .newline ∉ guardLexemes body ++ actionLexemes action := by
  cases body <;> cases action <;> simp [guardLexemes, actionLexemes]

/-- The text of every guard is one. -/
def GuardsReadable (lexemes : List Lexeme) : Prop :=
  ∀ text, .guard text ∈ lexemes → ∃ guard, Guard.parse text = .ok guard

namespace GuardsReadable

theorem of_step {l : Line} {p q : Progress} (h : Step l p q) : GuardsReadable l.lexemes := by
  intro text hmem
  have hread {body action : Option String} {guard : Option Guard} (hguard : ReadsGuard body guard)
      (hbody : .guard text ∈ guardLexemes body ++ actionLexemes action) :
      ∃ guard, Guard.parse text = .ok guard := by
    cases guard_mem_tail_iff.mp hbody
    cases hguard with
    | some hparse => exact ⟨_, hparse⟩
  cases h with
  | blank h | header h | declarations _ h | endDeclarations h | hook _ h | endState h =>
    simp [h] at hmem
  | declaration _ _ h => simp [h] at hmem
  | state _ h =>
    rw [h] at hmem
    split at hmem <;> simp at hmem
  | nested _ _ hguard h =>
    rw [h, List.append_assoc] at hmem
    exact hread hguard (by simpa using hmem)
  | transition _ _ hguard h =>
    rw [h, List.append_assoc] at hmem
    exact hread hguard (by simpa using hmem)

theorem of_steps {lines : List Line} {p q : Progress} (h : Steps lines p q) :
    ∀ l ∈ lines, GuardsReadable l.lexemes := by
  induction h with
  | nil => exact fun l hl ↦ absurd hl List.not_mem_nil
  | cons hstep _ ih => exact List.forall_mem_cons.mpr ⟨of_step hstep, ih⟩

end GuardsReadable

/-- Every token but a line break belongs to a line. -/
theorem TokenStream.exists_mem_linesOf (last : Token) {token : Token} {tokens : List Token}
    (h : token ∈ tokens) (hne : token.lexeme ≠ .newline) :
    ∃ l ∈ linesOf last tokens, token ∈ l.tokens := by
  induction tokens with
  | nil => exact absurd h List.not_mem_nil
  | cons first rest ih =>
    by_cases hbreak : first.lexeme = .newline
    · have hrest : token ∈ rest := by
        rcases List.mem_cons.mp h with rfl | hrest
        · exact absurd hbreak hne
        · exact hrest
      obtain ⟨l, hl, htoken⟩ := ih hrest
      rw [linesOf_newline hbreak]
      exact ⟨l, List.mem_cons_of_mem _ hl, htoken⟩
    · obtain ⟨line, more, hmore, hcons⟩ := linesOf_cons hbreak
      rw [hcons]
      rcases List.mem_cons.mp h with rfl | hrest
      · exact ⟨_, List.mem_cons_self, List.mem_cons_self⟩
      · obtain ⟨l, hl, htoken⟩ := ih hrest
        rw [hmore] at hl
        rcases List.mem_cons.mp hl with rfl | hl
        · exact ⟨_, List.mem_cons_self, List.mem_cons_of_mem _ htoken⟩
        · exact ⟨l, List.mem_cons_of_mem _ hl, htoken⟩

theorem GuardsReadable.of_linesOf {last : Token} {tokens : List Token} {p q : Progress}
    (h : Steps (linesOf last tokens) p q) : GuardsReadable (tokens.map (·.lexeme)) := by
  intro text hmem
  obtain ⟨token, htoken, heq⟩ := List.mem_map.mp hmem
  have hne : token.lexeme ≠ .newline := by
    rw [heq]
    exact Lexeme.noConfusion
  obtain ⟨l, hl, hline⟩ := TokenStream.exists_mem_linesOf last htoken hne
  exact of_steps h l hl text (List.mem_map.mpr ⟨token, hline, heq⟩)

theorem Arc.readsGuard (a : Arc) (source : String)
    (h : GuardsReadable (guardLexemes a.guard ++ actionLexemes a.action)) :
    ReadsGuard a.guard (a.transition source).guard := by
  obtain ⟨event, target, body, action, location⟩ := a
  cases body with
  | none => exact .none
  | some text =>
    obtain ⟨guard, hparse⟩ := h text (guard_mem_tail_iff.mpr rfl)
    simp only [transition, Option.bind_some, hparse, Except.toOption]
    exact .some hparse

namespace Grammar

variable {lexemes : List Lexeme} {location : Location} {last : Token} {tokens rest : List Token}
  {n : Machine} {q : Progress}

theorem LineOf.suffix (h : LineOf lexemes location tokens rest) :
    ∃ first, tokens = first ++ rest ∧ ∀ lexeme ∈ lexemes, lexeme ∈ first.map (·.lexeme) := by
  induction h with
  | blank _ _ ih =>
    obtain ⟨first, rfl, hfirst⟩ := ih
    exact ⟨_ :: first, rfl, fun lexeme h ↦ List.mem_cons_of_mem _ (hfirst lexeme h)⟩
  | @line token more after rest hlexemes _ hend =>
    cases hend with
    | @newline newline _ hbreak =>
      refine ⟨token :: more ++ [newline], by simp, fun lexeme h ↦ ?_⟩
      rw [List.map_append, hlexemes]
      exact List.mem_append_left _ h
    | endOfText =>
      refine ⟨token :: more, rfl, fun lexeme h ↦ ?_⟩
      rw [hlexemes]
      exact h

/-- Guards of the line, and guards behind it, are guards of the text. -/
theorem LineOf.guardsReadable (h : LineOf lexemes location tokens rest)
    (hguards : GuardsReadable (tokens.map (·.lexeme))) :
    GuardsReadable lexemes ∧ GuardsReadable (rest.map (·.lexeme)) := by
  obtain ⟨first, rfl, hfirst⟩ := h.suffix
  rw [List.map_append] at hguards
  exact ⟨fun text hmem ↦ hguards text (List.mem_append_left _ (hfirst _ hmem)),
    fun text hmem ↦ hguards text (List.mem_append_right _ hmem)⟩

theorem Entries.guardsReadable {kind : DeclarationKind} {entries : List Declaration}
    (h : Entries kind tokens entries rest) (hguards : GuardsReadable (tokens.map (·.lexeme))) :
    GuardsReadable (rest.map (·.lexeme)) := by
  induction h with
  | done h => exact (h.guardsReadable hguards).2
  | entry _ h _ ih => exact ih (h.guardsReadable hguards).2

theorem Clauses.guardsReadable {clauses : List Clause} (h : Clauses tokens clauses rest)
    (hguards : GuardsReadable (tokens.map (·.lexeme))) :
    GuardsReadable (rest.map (·.lexeme)) := by
  induction h with
  | done h => exact (h.guardsReadable hguards).2
  | hook h _ ih | arc h _ ih => exact ih (h.guardsReadable hguards).2

theorem ItemOf.guardsReadable {item : Item} (h : ItemOf tokens item rest)
    (hguards : GuardsReadable (tokens.map (·.lexeme))) :
    GuardsReadable (rest.map (·.lexeme)) := by
  cases h with
  | declarations h hentries => exact hentries.guardsReadable (h.guardsReadable hguards).2
  | state h hclauses => exact hclauses.guardsReadable (h.guardsReadable hguards).2
  | transition h => exact (h.guardsReadable hguards).2

theorem steps_of_blank {p : Progress} (h : ∀ t ∈ tokens, t.lexeme = .newline) :
    Steps (linesOf last tokens) p p := by
  induction tokens with
  | nil => exact .cons (.blank rfl) .nil
  | cons token tokens ih =>
    rw [linesOf_newline (h token List.mem_cons_self)]
    exact .cons (.blank rfl) (ih fun t ht ↦ h t (List.mem_cons_of_mem token ht))

theorem Entries.steps {kind : DeclarationKind} {entries : List Declaration}
    (h : Entries kind tokens entries rest)
    (hrest : Steps (linesOf last rest) ⟨n.extend [.declarations kind entries], .none⟩ q) :
    Steps (linesOf last tokens) ⟨n, .declarations kind⟩ q := by
  induction h generalizing n with
  | done h =>
    rw [Machine.extend_noDeclarations, Machine.extend_nil] at hrest
    exact h.steps (by simp) (fun l hl _ ↦ .endDeclarations hl) hrest
  | @entry d entries tokens after rest hcode h _ ih =>
    rw [← Machine.extend_declarations] at hrest
    have hkind : kind.withCode = false → d.code = none := by
      cases kind with
      | resetEvent => exact fun _ ↦ hcode rfl
      | event | command => exact fun hfalse ↦ absurd hfalse (by decide)
    exact h.steps (by simp) (fun l hl hlocation ↦ .declaration hkind hlocation.symm hl)
      (ih hrest)

theorem Clauses.steps {clauses : List Clause} {s : State} (h : Clauses tokens clauses rest)
    (hguards : GuardsReadable (tokens.map (·.lexeme)))
    (hhooks : ∀ hook, (s.actionsWith clauses hook).length ≤ 1)
    (hrest : Steps (linesOf last rest) ⟨n.extendFrom s clauses [], .none⟩ q) :
    Steps (linesOf last tokens) ⟨n, .state s⟩ q := by
  induction h generalizing n s with
  | done h =>
    rw [Machine.extendFrom_nil, Machine.extend_nil] at hrest
    exact h.steps (by simp) (fun l hl _ ↦ .endState hl) hrest
  | @hook hook action _ _ _ _ _ h _ ih =>
    have hfree : s.action? hook = none := State.free_of_length_le (hhooks hook)
    rw [← Machine.extendFrom_hook hfree] at hrest
    have hmore (other : Hook) := State.actionsWith_withAction hfree other ▸ hhooks other
    exact h.steps (by simp) (fun l hl _ ↦ .hook hfree hl)
      (ih (h.guardsReadable hguards).2 hmore hrest)
  | @arc arc _ _ _ _ h _ ih =>
    obtain ⟨hline, hafter⟩ := h.guardsReadable hguards
    have hguard : ReadsGuard arc.guard (arc.transition s.name).guard :=
      arc.readsGuard s.name fun text hmem ↦ hline text (List.mem_append_right _ hmem)
    have hnewline : .newline ∉ arc.nestedLexemes := by
      simpa [Arc.nestedLexemes, Arc.tailLexemes] using newline_not_mem_tail
    rw [← Machine.extendFrom_arc] at hrest
    refine h.steps hnewline (fun l hl hlocation ↦ ?_) (ih hafter hhooks hrest)
    rw [Arc.nestedLexemes, Arc.tailLexemes, ← List.append_assoc] at hl
    exact .nested rfl hlocation.symm hguard hl

theorem ItemOf.steps {b : Block} {item : Item} (h : ItemOf tokens item rest)
    (hclosed : b.isClosed) (hguards : GuardsReadable (tokens.map (·.lexeme)))
    (hdistinct : item.HooksDistinct)
    (hrest : Steps (linesOf last rest) ⟨n.extend [item], .none⟩ q) :
    Steps (linesOf last tokens) ⟨n, b⟩ q := by
  cases h with
  | @declarations kind _ _ _ _ _ h hentries =>
    exact h.steps (by cases kind <;> simp) (fun l hl _ ↦ .declarations hclosed hl)
      (hentries.steps hrest)
  | @state block _ _ _ h hclauses =>
    have hhooks (hook : Hook) : (block.opened.actionsWith block.clauses hook).length ≤ 1 := by
      rw [block.actionsWith_opened]
      exact hdistinct hook
    have hnewline : .newline ∉ block.headerLexemes := by
      unfold StateBlock.headerLexemes
      split <;> simp
    rw [← Machine.extendFrom_opened] at hrest
    refine h.steps hnewline (fun l hl hlocation ↦ ?_)
      (hclauses.steps (h.guardsReadable hguards).2 hhooks hrest)
    rw [StateBlock.opened, ← hlocation]
    exact .state hclosed hl
  | @transition source arc _ _ h =>
    obtain ⟨hline, -⟩ := h.guardsReadable hguards
    have hguard : ReadsGuard arc.guard (arc.transition source).guard :=
      arc.readsGuard source fun text hmem ↦ hline text (List.mem_append_right _ hmem)
    have hnewline : .newline ∉ arc.lexemes source := by
      simpa [Arc.lexemes, Arc.tailLexemes] using newline_not_mem_tail
    rw [← Machine.extend_transition, Machine.extend_nil] at hrest
    refine h.steps hnewline (fun l hl hlocation ↦ ?_) hrest
    rw [Arc.lexemes, Arc.tailLexemes, ← List.append_assoc] at hl
    exact .transition hclosed hlocation.symm hguard hl

theorem Items.steps {b : Block} {items : List Item} (h : Items tokens items)
    (hclosed : b.isClosed) (hguards : GuardsReadable (tokens.map (·.lexeme)))
    (hdistinct : ∀ item ∈ items, item.HooksDistinct) :
    ∃ last', last'.isClosed ∧ Steps (linesOf last tokens) ⟨n, b⟩ ⟨n.extend items, last'⟩ := by
  induction h generalizing n b with
  | done h =>
    rw [Machine.extend_nil]
    exact ⟨b, hclosed, steps_of_blank h⟩
  | @item item items _ _ h _ ih =>
    obtain ⟨hitem, hitems⟩ := List.forall_mem_cons.mp hdistinct
    obtain ⟨final, hfinal, hsteps⟩ := ih (n := n.extend [item]) (b := .none) rfl
      (h.guardsReadable hguards) hitems
    rw [Machine.extend_append] at hsteps
    exact ⟨final, hfinal, h.steps hclosed hguards hitem hsteps⟩

theorem FileOf.steps {d : Description} (h : FileOf tokens d)
    (hguards : GuardsReadable (tokens.map (·.lexeme))) (hdistinct : d.HooksDistinct) :
    ∃ final, final.isClosed ∧ Steps (linesOf last tokens) ⟨n, .beginning⟩
      ⟨Machine.extend { n with name := d.header.getD n.name } d.items, final⟩ := by
  cases h with
  | headed h hitems =>
    obtain ⟨final, hfinal, hsteps⟩ := hitems.steps (b := .none) rfl (h.guardsReadable hguards).2
      hdistinct
    exact ⟨final, hfinal, h.steps (by simp) (fun l hl _ ↦ .header hl) hsteps⟩
  | unheaded hitems => exact hitems.steps rfl hguards hdistinct

end Grammar

/-! ### Descriptions -/

namespace Machine

theorem extend_empty (d : Description) (name : String) :
    extend { empty name with name := d.header.getD name } d.items = d.machine name := by
  simp [extend, empty, Description.machine]

/-- A text is read exactly if its tokens are derived from the grammar, its guards can be read and
no state has two clauses for one hook; what is read is the machine of the derivation. -/
theorem parseNamed_eq_ok_iff_fileOf {text name : String} {stream : TokenStream} {m : Machine}
    (hscan : TokenStream.scan text = .ok stream) :
    parseNamed name text = .ok m ↔
      ∃ d, Grammar.FileOf stream.tokens d ∧ GuardsReadable stream.lexemes ∧ d.HooksDistinct ∧
        d.machine (Identifier.repair name) = m := by
  rw [parseNamed_eq_ok_iff]
  constructor
  · rintro ⟨found, block, hfound, hclosed, hsteps⟩
    cases hscan.symm.trans hfound
    cases Grammar.Completes.of_steps hclosed stream.tokens hsteps with
    | @file _ _ d h hdistinct hm =>
      exact ⟨d, h, .of_linesOf hsteps, hdistinct, by rw [← hm, ← extend_empty]; rfl⟩
  · rintro ⟨d, hfile, hguards, hdistinct, rfl⟩
    obtain ⟨block, hclosed, hsteps⟩ := hfile.steps (n := empty (Identifier.repair name))
      hguards hdistinct
    refine ⟨stream, block, hscan, hclosed, ?_⟩
    rw [← extend_empty]
    exact hsteps

/-- A text is read exactly if its tokens are derived from the grammar, its guards can be read and
no state has two clauses for one hook; what is read is the machine of the derivation, which is
called `Machine` if it has no header. -/
theorem parse_eq_ok_iff {text : String} {stream : TokenStream} {m : Machine}
    (hscan : TokenStream.scan text = .ok stream) :
    parse text = .ok m ↔
      ∃ d, Grammar.FileOf stream.tokens d ∧
        (∀ guard, .guard guard ∈ stream.lexemes → ∃ g, Guard.parse guard = .ok g) ∧
        d.HooksDistinct ∧ d.machine defaultName = m := by
  have hname : Identifier.repair defaultName = defaultName := by decide
  rw [parse, parseNamed_eq_ok_iff_fileOf hscan, hname]
  rfl

/-- A description without header whose last line ends where the text ends. -/
def lampSource : String :=
  "initial state Lit\n  press => Lit [ctx.on]\nend"

/-- The tokens of the first line and of the second line. -/
def lampLines : List Token × List Token :=
  ([⟨.keyword .initial, ⟨1, 1⟩⟩, ⟨.keyword .state, ⟨1, 9⟩⟩, ⟨.identifier "Lit", ⟨1, 15⟩⟩],
    [⟨.identifier "press", ⟨2, 3⟩⟩, ⟨.fatArrow, ⟨2, 9⟩⟩, ⟨.identifier "Lit", ⟨2, 12⟩⟩,
      ⟨.guard "ctx.on", ⟨2, 16⟩⟩])

def lampTokens : List Token :=
  lampLines.1 ++ ⟨.newline, ⟨1, 18⟩⟩ ::
    (lampLines.2 ++ ⟨.newline, ⟨2, 24⟩⟩ :: [⟨.keyword .endBlock, ⟨3, 1⟩⟩])

/-- The derivation of the tokens. -/
def lamp : Description :=
  ⟨none, [.state ⟨"Lit", true, [.arc ⟨"press", "Lit", some "ctx.on", none, ⟨2, 3⟩⟩], ⟨1, 1⟩⟩]⟩

theorem scan_lampSource : TokenStream.scan lampSource = .ok ⟨lampTokens, ⟨3, 4⟩⟩ := by
  have htokens : ((TokenStream.scan lampSource).toOption.map fun s ↦ (s.tokens, s.finish)) =
      some (lampTokens, ⟨3, 4⟩) := by decide +kernel
  cases h : TokenStream.scan lampSource with
  | error e => simp [h, Except.toOption] at htokens
  | ok stream =>
    obtain ⟨tokens, finish⟩ := stream
    simp only [h, Except.toOption, Option.map_some, Option.some.injEq, Prod.mk.injEq] at htokens
    rw [htokens.1, htokens.2]

theorem fileOf_lampTokens : Grammar.FileOf lampTokens lamp := by
  have hend : Grammar.LineOf [.keyword .endBlock] ⟨3, 1⟩ [⟨.keyword .endBlock, ⟨3, 1⟩⟩] [] :=
    @Grammar.LineOf.line _ _ _ [] [] [] rfl rfl .endOfText
  have hpress {after rest : List Token} (h : Grammar.EndOfLine after rest) :
      Grammar.LineOf (Arc.nestedLexemes ⟨"press", "Lit", some "ctx.on", none, ⟨2, 3⟩⟩) ⟨2, 3⟩
        (lampLines.2 ++ after) rest :=
    .line rfl rfl h
  have hstate {after rest : List Token} (h : Grammar.EndOfLine after rest) :
      Grammar.LineOf [.keyword .initial, .keyword .state, .identifier "Lit"] ⟨1, 1⟩
        (lampLines.1 ++ after) rest :=
    .line rfl rfl h
  have hbreak : Grammar.EndOfLine (⟨.newline, ⟨2, 24⟩⟩ :: [⟨.keyword .endBlock, ⟨3, 1⟩⟩]) _ :=
    .newline rfl
  have hclauses := Grammar.Clauses.arc (hpress hbreak) (.done hend)
  exact .unheaded (.item (.state (hstate (.newline rfl)) hclauses) (.done (by simp)))

theorem parse_lampSource : TokenStream.scan lampSource = .ok ⟨lampTokens, ⟨3, 4⟩⟩ ∧
    parse lampSource = .ok (lamp.machine defaultName) := by
  have hguard : ∀ guard, .guard guard ∈ lampTokens.map (·.lexeme) →
      ∃ g, Guard.parse guard = .ok g := by
    intro guard hmem
    have htext : guard = "ctx.on" := by simpa [lampTokens, lampLines] using hmem
    rw [htext]
    exact ⟨_, Guard.parse_text (g := .truthy "on") (by decide)⟩
  have hdistinct : lamp.HooksDistinct := by
    intro item hitem
    cases List.mem_singleton.mp hitem
    exact fun hook ↦ Nat.zero_le 1
  exact ⟨scan_lampSource, (parse_eq_ok_iff scan_lampSource).mpr
    ⟨lamp, fileOf_lampTokens, hguard, hdistinct, rfl⟩⟩

end Machine

end StateMachine
