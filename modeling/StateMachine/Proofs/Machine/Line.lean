import StateMachine.Machine.Parser
import StateMachine.Proofs.Token.Scan

/-!
Lines and what their readers accept. A text that was written as lines has these lines and an empty
one at its end (`TokenStream.map_lexemes_lines`). Each kind of line is read exactly if its lexemes
are those of the kind, and what is read depends on the lexemes alone, but for the location of its
first token (`read_header`, `read_declaration`, `read_transition`).
-/

set_option autoImplicit false

namespace StateMachine

namespace Line

/-- The lexemes of the tokens of a line. -/
def lexemes (l : Line) : List Lexeme :=
  l.tokens.map (·.lexeme)

/-- The line behind one more token. -/
def push (token : Token) (l : Line) : Line :=
  ⟨token :: l.tokens, l.finish⟩

variable {l : Line} {lexeme : Lexeme} {more : List Lexeme}

@[simp] theorem lexemes_push (token : Token) (l : Line) :
    (l.push token).lexemes = token.lexeme :: l.lexemes :=
  rfl

@[simp] theorem peek_push (token : Token) (l : Line) : (l.push token).peek = token :=
  rfl

theorem lexemes_eq_nil_iff : l.lexemes = [] ↔ l.tokens = [] :=
  List.map_eq_nil_iff

theorem lexemes_eq_cons_iff :
    l.lexemes = lexeme :: more ↔
      ∃ location rest, l = push ⟨lexeme, location⟩ rest ∧ rest.lexemes = more := by
  constructor
  · intro h
    obtain ⟨⟨found, location⟩, tokens, htokens, rfl, hmore⟩ := List.map_eq_cons_iff.mp h
    refine ⟨location, ⟨tokens, l.finish⟩, ?_, hmore⟩
    cases l
    cases htokens
    rfl
  · rintro ⟨location, rest, rfl, rfl⟩
    rfl

theorem peek_lexeme (h : l.lexemes = lexeme :: more) : l.peek.lexeme = lexeme := by
  obtain ⟨location, rest, rfl, -⟩ := lexemes_eq_cons_iff.mp h
  rfl

end Line

/-! ### The lines of a stream -/

namespace TokenStream

variable {last token : Token} {tokens first rest : List Token}

theorem linesOf_ne_nil (last : Token) (tokens : List Token) : linesOf last tokens ≠ [] := by
  cases tokens with
  | nil => exact List.cons_ne_nil _ _
  | cons token rest =>
    simp only [linesOf]
    split
    · exact List.cons_ne_nil _ _
    · split
      · exact List.cons_ne_nil _ _
      · exact List.cons_ne_nil _ _

theorem linesOf_newline (h : token.lexeme = .newline) :
    linesOf last (token :: rest) = ⟨[], token⟩ :: linesOf last rest := by
  rw [linesOf, if_pos h]

/-- A token belongs to the line that the tokens behind it start with. -/
theorem linesOf_cons (h : token.lexeme ≠ .newline) :
    ∃ l more, linesOf last rest = l :: more ∧
      linesOf last (token :: rest) = l.push token :: more := by
  obtain ⟨l, more, hrest⟩ := List.exists_cons_of_ne_nil (linesOf_ne_nil last rest)
  refine ⟨l, more, hrest, ?_⟩
  rw [linesOf, if_neg h, hrest]
  rfl

/-- The tokens up to a line break are a line. -/
theorem linesOf_append (hfirst : ∀ t ∈ first, t.lexeme ≠ .newline)
    (h : token.lexeme = .newline) :
    linesOf last (first ++ token :: rest) = ⟨first, token⟩ :: linesOf last rest := by
  induction first with
  | nil => exact linesOf_newline h
  | cons t first ih =>
    obtain ⟨l, more, hmore, hcons⟩ := linesOf_cons (hfirst t List.mem_cons_self)
    rw [ih fun u hu ↦ hfirst u (List.mem_cons_of_mem t hu)] at hmore
    cases hmore
    exact hcons

theorem map_lexemes_linesOf {lines : List (List Lexeme)}
    (hlines : ∀ lexemes ∈ lines, .newline ∉ lexemes)
    (h : tokens.map Token.lexeme = lexemesOfLines lines) :
    (linesOf last tokens).map Line.lexemes = lines ++ [[]] := by
  induction lines generalizing tokens with
  | nil =>
    rw [List.map_eq_nil_iff.mp h]
    rfl
  | cons lexemes lines ih =>
    rw [lexemesOfLines, List.flatMap_cons, List.append_assoc] at h
    obtain ⟨first, others, rfl, hfirst, hothers⟩ := List.map_eq_append_iff.mp h
    obtain ⟨token, rest, rfl, hbreak, hrest⟩ := List.map_eq_cons_iff.mp hothers
    have hno : ∀ t ∈ first, t.lexeme ≠ .newline := by
      intro t ht hnewline
      refine hlines lexemes List.mem_cons_self ?_
      rw [← hfirst, ← hnewline]
      exact List.mem_map_of_mem ht
    rw [linesOf_append hno hbreak, List.map_cons,
      ih (fun more hmore ↦ hlines more (List.mem_cons_of_mem lexemes hmore)) hrest]
    rw [Line.lexemes, hfirst]
    rfl

/-- The lines of a stream that was written as lines. -/
theorem map_lexemes_lines {stream : TokenStream} {lines : List (List Lexeme)}
    (hlines : ∀ lexemes ∈ lines, .newline ∉ lexemes)
    (h : stream.lexemes = lexemesOfLines lines) :
    stream.lines.map Line.lexemes = lines ++ [[]] :=
  map_lexemes_linesOf hlines h

theorem mem_of_mem_linesOf {l : Line} (h : l ∈ linesOf last tokens) :
    ∀ t ∈ l.tokens, t ∈ tokens := by
  induction tokens generalizing l with
  | nil =>
    rw [List.mem_singleton.mp h]
    exact fun t ht ↦ ht
  | cons token tokens ih =>
    by_cases hnewline : token.lexeme = .newline
    · rw [linesOf_newline hnewline] at h
      rcases List.mem_cons.mp h with rfl | hrest
      · exact fun t ht ↦ absurd ht List.not_mem_nil
      · exact fun t ht ↦ List.mem_cons_of_mem token (ih hrest t ht)
    · obtain ⟨first, more, hmore, hcons⟩ := linesOf_cons hnewline
      rw [hcons] at h
      rw [hmore] at ih
      rcases List.mem_cons.mp h with rfl | hrest
      · intro t ht
        rcases List.mem_cons.mp ht with rfl | htail
        · exact List.mem_cons_self
        · exact List.mem_cons_of_mem token (ih List.mem_cons_self t htail)
      · exact fun t ht ↦ List.mem_cons_of_mem token (ih (List.mem_cons_of_mem first hrest) t ht)

/-- The names of a line are names of the stream. -/
theorem namesValid_of_mem_lines {stream : TokenStream} {l : Line}
    (hnames : NamesValid stream.lexemes) (h : l ∈ stream.lines) : NamesValid l.lexemes := by
  intro name hname
  obtain ⟨t, ht, heq⟩ := List.mem_map.mp hname
  exact hnames name (List.mem_map.mpr ⟨t, mem_of_mem_linesOf h t ht, heq⟩)

end TokenStream

/-- A text that is a guard, or neither of both. -/
abbrev ReadsGuard : Option String → Option Guard → Prop :=
  Option.Rel fun text guard ↦ Guard.parse text = .ok guard

def guardLexemes (body : Option String) : List Lexeme :=
  (body.map Lexeme.guard).toList

def actionLexemes (action : Option String) : List Lexeme :=
  (action.map fun name ↦ [Lexeme.slash, .identifier name]).getD []

namespace LineReader

open Line

variable {l rest : Line}

/-! ### Steps of readers -/

theorem bind_eq_ok {α β : Type} {reader : LineReader α} {next : α → LineReader β} {b : β} :
    (reader >>= next) l = .ok (b, rest) ↔
      ∃ a middle, reader l = .ok (a, middle) ∧ next a middle = .ok (b, rest) := by
  cases hreader : reader l with
  | error e => simp [bind, StateT.bind, Except.bind, hreader]
  | ok result =>
    obtain ⟨a, middle⟩ := result
    simp [bind, StateT.bind, Except.bind, hreader, and_assoc]

theorem pure_eq_ok {α : Type} {a b : α} :
    (pure a : LineReader α) l = .ok (b, rest) ↔ b = a ∧ rest = l := by
  change Except.ok (a, l) = _ ↔ _
  simp [eq_comm]

theorem read_eq_ok {α : Type} {reader : LineReader α} {a : α} :
    read reader l = .ok a ↔ ∃ rest, reader l = .ok (a, rest) := by
  cases hreader : reader l with
  | error e => simp [read, hreader, Functor.map, Except.map]
  | ok result =>
    obtain ⟨b, last⟩ := result
    simp [read, hreader, Functor.map, Except.map]

theorem exactly_eq_ok {lexeme : Lexeme} {expected : Expectation} {location : Location} :
    exactly lexeme expected l = .ok (location, rest) ↔ l = rest.push ⟨lexeme, location⟩ := by
  obtain ⟨tokens, finish⟩ := l
  obtain ⟨others, last⟩ := rest
  cases tokens with
  | nil => simp [exactly, push]
  | cons token tokens =>
    obtain ⟨found, place⟩ := token
    by_cases h : found = lexeme
    · simp [exactly, push, h, and_assoc]
    · simp [exactly, push, h]

theorem placedName_eq_ok {expected : Expectation} {name : String} {location : Location} :
    placedName expected l = .ok ((name, location), rest) ↔
      l = rest.push ⟨.identifier name, location⟩ := by
  obtain ⟨tokens, finish⟩ := l
  obtain ⟨others, last⟩ := rest
  unfold placedName
  split
  · simp_all [push, and_assoc]
  · next hother => simpa [push] using fun h ↦ absurd h (hother name location others)

theorem name_eq_ok {expected : Expectation} {result : String} :
    name expected l = .ok (result, rest) ↔
      ∃ location, l = rest.push ⟨.identifier result, location⟩ := by
  simp only [name, bind_eq_ok, pure_eq_ok, Prod.exists, placedName_eq_ok]
  constructor
  · rintro ⟨_, location, _, h, rfl, rfl⟩
    exact ⟨location, h⟩
  · rintro ⟨location, h⟩
    exact ⟨result, location, rest, h, rfl, rfl⟩

theorem finished_eq_ok {u : Unit} : finished l = .ok (u, rest) ↔ rest = l ∧ l.lexemes = [] := by
  rw [lexemes_eq_nil_iff, ← List.isEmpty_iff]
  by_cases h : l.tokens.isEmpty
  · simp [finished, h, eq_comm]
  · simp [finished, h]

/-! ### Optional parts -/

theorem optionalName_of_ne (h : ∀ name more, l.lexemes ≠ .identifier name :: more) :
    optionalName l = .ok (none, l) := by
  unfold optionalName
  split
  · next name location tokens htokens =>
    exact absurd (congrArg (List.map Token.lexeme) htokens) (h name _)
  · rfl

theorem optionalGuard_of_ne (h : ∀ text more, l.lexemes ≠ .guard text :: more) :
    optionalGuard l = .ok (none, l) := by
  unfold optionalGuard
  split
  · next text location tokens htokens =>
    exact absurd (congrArg (List.map Token.lexeme) htokens) (h text _)
  · rfl

theorem optionalAction_of_ne (h : ∀ more, l.lexemes ≠ .slash :: more) :
    optionalAction l = .ok (none, l) := by
  unfold optionalAction
  split
  · next location tokens htokens =>
    exact absurd (congrArg (List.map Token.lexeme) htokens) (h _)
  · rfl

theorem optionalName_eq_ok {result : Option String} :
    optionalName l = .ok (result, rest) ↔
      (∃ name location, result = some name ∧ l = rest.push ⟨.identifier name, location⟩) ∨
        (result = none ∧ rest = l ∧ ∀ name more, l.lexemes ≠ .identifier name :: more) := by
  constructor
  · intro h
    by_cases hname : ∃ name more, l.lexemes = .identifier name :: more
    · obtain ⟨name, more, hlexemes⟩ := hname
      obtain ⟨location, others, rfl, -⟩ := lexemes_eq_cons_iff.mp hlexemes
      cases h
      exact Or.inl ⟨name, location, rfl, rfl⟩
    · have hne : ∀ name more, l.lexemes ≠ .identifier name :: more :=
        fun name more hlexemes ↦ hname ⟨name, more, hlexemes⟩
      rw [optionalName_of_ne hne] at h
      cases h
      exact Or.inr ⟨rfl, rfl, hne⟩
  · rintro (⟨name, location, rfl, rfl⟩ | ⟨rfl, rfl, hne⟩)
    · rfl
    · exact optionalName_of_ne hne

theorem lexemes_of_optionalGuard {guard : Option Guard} (h : optionalGuard l = .ok (guard, rest)) :
    ∃ body, ReadsGuard body guard ∧ l.lexemes = guardLexemes body ++ rest.lexemes ∧
      rest.finish = l.finish := by
  by_cases hguard : ∃ text more, l.lexemes = .guard text :: more
  · obtain ⟨text, more, hlexemes⟩ := hguard
    obtain ⟨location, others, rfl, -⟩ := lexemes_eq_cons_iff.mp hlexemes
    unfold optionalGuard push at h
    cases hparse : Guard.parse text with
    | error e =>
      simp only [hparse] at h
      cases h
    | ok found =>
      simp only [hparse] at h
      cases h
      exact ⟨some text, .some hparse, rfl, rfl⟩
  · rw [optionalGuard_of_ne fun text more hlexemes ↦ hguard ⟨text, more, hlexemes⟩] at h
    cases h
    exact ⟨none, .none, rfl, rfl⟩

theorem exists_optionalGuard {body : Option String} {guard : Option Guard} {more : List Lexeme}
    (hguard : ReadsGuard body guard) (h : l.lexemes = guardLexemes body ++ more)
    (hmore : ∀ text others, more ≠ .guard text :: others) :
    ∃ rest, optionalGuard l = .ok (guard, rest) ∧ rest.lexemes = more ∧
      rest.finish = l.finish := by
  cases hguard with
  | none =>
    have hlexemes : l.lexemes = more := h
    exact ⟨l, optionalGuard_of_ne (hlexemes ▸ hmore), hlexemes, rfl⟩
  | some hparse =>
    obtain ⟨location, rest, rfl, hrest⟩ := lexemes_eq_cons_iff.mp h
    refine ⟨rest, ?_, hrest, rfl⟩
    simp only [optionalGuard, push, hparse]

theorem lexemes_of_optionalAction {action : Option String}
    (h : optionalAction l = .ok (action, rest)) :
    l.lexemes = actionLexemes action ++ rest.lexemes ∧ rest.finish = l.finish := by
  by_cases hslash : ∃ more, l.lexemes = .slash :: more
  · obtain ⟨more, hlexemes⟩ := hslash
    obtain ⟨location, others, rfl, -⟩ := lexemes_eq_cons_iff.mp hlexemes
    change (name .actionName >>= fun action ↦ pure (some action)) others = _ at h
    obtain ⟨action, middle, haction, hresult⟩ := bind_eq_ok.mp h
    obtain ⟨rfl, rfl⟩ := pure_eq_ok.mp hresult
    obtain ⟨place, rfl⟩ := name_eq_ok.mp haction
    exact ⟨rfl, rfl⟩
  · rw [optionalAction_of_ne fun more hlexemes ↦ hslash ⟨more, hlexemes⟩] at h
    cases h
    exact ⟨rfl, rfl⟩

theorem optionalAction_of_lexemes {action : Option String} (h : l.lexemes = actionLexemes action) :
    optionalAction l = .ok (action, ⟨[], l.finish⟩) := by
  cases action with
  | none =>
    have hnone : optionalAction l = .ok (none, l) := optionalAction_of_ne fun more hslash ↦ by
      rw [h] at hslash
      cases hslash
    have hempty : l = ⟨[], l.finish⟩ := by
      rw [← lexemes_eq_nil_iff.mp h]
    rw [hnone, ← hempty]
  | some name =>
    obtain ⟨_, _, rfl, hname⟩ := lexemes_eq_cons_iff.mp h
    obtain ⟨_, rest, rfl, hend⟩ := lexemes_eq_cons_iff.mp hname
    have hempty : rest = ⟨[], rest.finish⟩ := by
      rw [← lexemes_eq_nil_iff.mp hend]
    rw [hempty]
    rfl

/-! ### The kinds of lines -/

theorem read_header {name : String} :
    read header l = .ok name ↔ l.lexemes = [.keyword .machine, .identifier name] := by
  simp only [read_eq_ok, header, keyword, bind_eq_ok, exactly_eq_ok, name_eq_ok, finished_eq_ok,
    pure_eq_ok]
  constructor
  · rintro ⟨_, _, _, rfl, _, _, ⟨_, rfl⟩, _, _, ⟨rfl, hend⟩, rfl, rfl⟩
    simp [hend]
  · intro h
    obtain ⟨_, _, rfl, hname⟩ := lexemes_eq_cons_iff.mp h
    obtain ⟨_, _, rfl, hend⟩ := lexemes_eq_cons_iff.mp hname
    exact ⟨_, _, _, rfl, _, _, ⟨_, rfl⟩, (), _, ⟨rfl, hend⟩, rfl, rfl⟩

theorem read_lone {word : Keyword} {u : Unit} :
    read (lone word) l = .ok u ↔ l.lexemes = [.keyword word] := by
  simp only [read_eq_ok, lone, keyword, bind_eq_ok, exactly_eq_ok, finished_eq_ok]
  constructor
  · rintro ⟨_, _, _, rfl, rfl, hend⟩
    simp [hend]
  · intro h
    obtain ⟨_, _, rfl, hend⟩ := lexemes_eq_cons_iff.mp h
    exact ⟨_, _, _, rfl, rfl, hend⟩

theorem read_declaration {expected : Expectation} {withCode : Bool} {d : Declaration} :
    read (declaration expected withCode) l = .ok d ↔
      l.lexemes = .identifier d.name :: (d.code.map Lexeme.identifier).toList ∧
        (withCode = false → d.code = none) ∧ d.location = l.peek.location := by
  obtain ⟨name, code, location⟩ := d
  cases withCode with
  | true =>
    simp only [read_eq_ok, declaration, if_true, bind_eq_ok, Prod.exists, placedName_eq_ok,
      finished_eq_ok, pure_eq_ok]
    constructor
    · rintro ⟨_, _, _, _, rfl, _, _, hcode, _, _, ⟨rfl, hend⟩, ⟨rfl, rfl, rfl⟩, rfl⟩
      rcases optionalName_eq_ok.mp hcode with ⟨_, _, rfl, rfl⟩ | ⟨rfl, rfl, -⟩
      · simp [hend]
      · simp [hend]
    · rintro ⟨h, -, rfl⟩
      obtain ⟨_, _, rfl, htail⟩ := lexemes_eq_cons_iff.mp h
      cases code with
      | none =>
        have hcode := optionalName_of_ne fun name more hname ↦ by
          rw [htail] at hname
          cases hname
        exact ⟨_, _, _, _, rfl, _, _, hcode, (), _, ⟨rfl, htail⟩, rfl, rfl⟩
      | some code =>
        obtain ⟨_, _, rfl, hend⟩ := lexemes_eq_cons_iff.mp htail
        exact ⟨_, _, _, _, rfl, _, _, rfl, (), _, ⟨rfl, hend⟩, rfl, rfl⟩
  | false =>
    simp only [read_eq_ok, declaration, Bool.false_eq_true, if_false, bind_eq_ok, Prod.exists,
      placedName_eq_ok, finished_eq_ok, pure_eq_ok]
    constructor
    · rintro ⟨_, _, _, _, rfl, _, _, ⟨rfl, rfl⟩, _, _, ⟨rfl, hend⟩, ⟨rfl, rfl, rfl⟩, rfl⟩
      simp [hend]
    · rintro ⟨h, hnone, rfl⟩
      cases hnone trivial
      obtain ⟨_, _, rfl, hend⟩ := lexemes_eq_cons_iff.mp h
      exact ⟨_, _, _, _, rfl, _, _, ⟨rfl, rfl⟩, (), _, ⟨rfl, hend⟩, rfl, rfl⟩

theorem read_hookClause {hook : Hook} {action : String} {location : Location} :
    read (hookClause hook) l = .ok (action, location) ↔
      l.lexemes = [.keyword hook.keyword, .identifier action] ∧ location = l.peek.location := by
  simp only [read_eq_ok, hookClause, keyword, bind_eq_ok, exactly_eq_ok, name_eq_ok,
    finished_eq_ok, pure_eq_ok]
  constructor
  · rintro ⟨_, _, _, rfl, _, _, ⟨_, rfl⟩, _, _, ⟨rfl, hend⟩, ⟨rfl, rfl⟩, rfl⟩
    simp [hend]
  · rintro ⟨h, rfl⟩
    obtain ⟨_, _, rfl, hname⟩ := lexemes_eq_cons_iff.mp h
    obtain ⟨_, _, rfl, hend⟩ := lexemes_eq_cons_iff.mp hname
    exact ⟨_, _, _, rfl, _, _, ⟨_, rfl⟩, (), _, ⟨rfl, hend⟩, rfl, rfl⟩

/-- The line that opens a state, behind the mark of an initial state. -/
def unmarkedStateHeader (initial : Bool) (location : Location) : LineReader State := do
  let _ ← keyword .state
  let name ← name .stateName
  finished
  return ⟨name, initial, none, none, location⟩

theorem stateHeader_eq (l : Line) :
    stateHeader l =
      if l.peek.lexeme = .keyword .initial then
        (keyword .initial >>= fun _ ↦ unmarkedStateHeader true l.peek.location) l
      else unmarkedStateHeader false l.peek.location l := by
  unfold stateHeader
  split
  · next h =>
    simp only [h, decide_true, if_true, unmarkedStateHeader]
  · next h =>
    simp only [h, decide_false, if_false, unmarkedStateHeader]

theorem read_stateHeader {s : State} :
    read stateHeader l = .ok s ↔
      l.lexemes = (if s.initial then [.keyword .initial] else []) ++
          [.keyword .state, .identifier s.name] ∧
        s.entry = none ∧ s.exit = none ∧ s.location = l.peek.location := by
  obtain ⟨name, initial, entry, exit, location⟩ := s
  by_cases hinitial : l.peek.lexeme = .keyword .initial
  · simp only [read_eq_ok, stateHeader, hinitial, if_true, keyword, bind_eq_ok, exactly_eq_ok,
      name_eq_ok, finished_eq_ok, pure_eq_ok]
    constructor
    · rintro ⟨_, _, _, rfl, _, _, rfl, _, _, ⟨_, rfl⟩, _, _, ⟨rfl, hend⟩,
        ⟨rfl, rfl, rfl, rfl, rfl⟩, rfl⟩
      simp [hend]
    · rintro ⟨h, rfl, rfl, rfl⟩
      cases initial with
      | true =>
        obtain ⟨_, _, rfl, hstate⟩ := lexemes_eq_cons_iff.mp h
        obtain ⟨_, _, rfl, hname⟩ := lexemes_eq_cons_iff.mp hstate
        obtain ⟨_, _, rfl, hend⟩ := lexemes_eq_cons_iff.mp hname
        exact ⟨_, _, _, rfl, _, _, rfl, _, _, ⟨_, rfl⟩, (), _, ⟨rfl, hend⟩, rfl, rfl⟩
      | false =>
        rw [peek_lexeme h] at hinitial
        cases hinitial
  · simp only [read_eq_ok, stateHeader, hinitial, if_false, keyword, bind_eq_ok, exactly_eq_ok,
      name_eq_ok, finished_eq_ok, pure_eq_ok]
    constructor
    · rintro ⟨_, _, _, rfl, _, _, ⟨_, rfl⟩, _, _, ⟨rfl, hend⟩, ⟨rfl, rfl, rfl, rfl, rfl⟩, rfl⟩
      simp [hend]
    · rintro ⟨h, rfl, rfl, rfl⟩
      cases initial with
      | true => exact absurd (peek_lexeme h) hinitial
      | false =>
        obtain ⟨_, _, rfl, hname⟩ := lexemes_eq_cons_iff.mp h
        obtain ⟨_, _, rfl, hend⟩ := lexemes_eq_cons_iff.mp hname
        exact ⟨_, _, _, rfl, _, _, ⟨_, rfl⟩, (), _, ⟨rfl, hend⟩, rfl, rfl⟩

/-- A guard and an action may follow, and then the line ends. -/
theorem transitionTail_eq_ok {source target event : String} {location : Location}
    {t : Transition} :
    transitionTail source target event location l = .ok (t, rest) ↔
      ∃ body guard action, ReadsGuard body guard ∧
        l.lexemes = guardLexemes body ++ actionLexemes action ∧
        t = ⟨source, target, event, guard, action, location⟩ ∧ rest = ⟨[], l.finish⟩ := by
  simp only [transitionTail, bind_eq_ok, finished_eq_ok, pure_eq_ok]
  constructor
  · rintro ⟨guard, _, hguard, action, _, haction, _, _, ⟨rfl, hend⟩, rfl, rfl⟩
    obtain ⟨body, hbody, hlexemes, hfinish⟩ := lexemes_of_optionalGuard hguard
    obtain ⟨hmore, hlast⟩ := lexemes_of_optionalAction haction
    have hempty : rest = ⟨[], l.finish⟩ := by
      rw [← hfinish, ← hlast, ← lexemes_eq_nil_iff.mp hend]
    rw [hmore, hend, List.append_nil] at hlexemes
    exact ⟨body, guard, action, hbody, hlexemes, rfl, hempty⟩
  · rintro ⟨body, guard, action, hbody, hlexemes, rfl, rfl⟩
    have hne : ∀ text others, actionLexemes action ≠ .guard text :: others := by
      intro text others h
      cases action with
      | none => cases h
      | some name => cases h
    obtain ⟨middle, hguard, hmore, hfinish⟩ := exists_optionalGuard hbody hlexemes hne
    have haction := optionalAction_of_lexemes hmore
    rw [hfinish] at haction
    exact ⟨guard, middle, hguard, action, _, haction, (), _, ⟨rfl, rfl⟩, rfl, rfl⟩

theorem read_nestedTransition {source : String} {t : Transition} :
    read (nestedTransition source) l = .ok t ↔
      t.source = source ∧ t.location = l.peek.location ∧ ∃ body, ReadsGuard body t.guard ∧
        l.lexemes = [.identifier t.event, .fatArrow, .identifier t.target] ++
          guardLexemes body ++ actionLexemes t.action := by
  simp only [read_eq_ok, nestedTransition, bind_eq_ok, Prod.exists, placedName_eq_ok,
    exactly_eq_ok, name_eq_ok, transitionTail_eq_ok]
  constructor
  · rintro ⟨_, _, _, _, rfl, _, _, rfl, _, _, ⟨_, rfl⟩, body, _, _, hbody, hlexemes, rfl, rfl⟩
    exact ⟨rfl, rfl, body, hbody, by simp [hlexemes]⟩
  · rintro ⟨rfl, hlocation, body, hbody, h⟩
    obtain ⟨_, _, rfl, harrow⟩ := lexemes_eq_cons_iff.mp h
    obtain ⟨_, _, rfl, htarget⟩ := lexemes_eq_cons_iff.mp harrow
    obtain ⟨_, _, rfl, htail⟩ := lexemes_eq_cons_iff.mp htarget
    obtain ⟨_, target, event, guard, action, location⟩ := t
    cases hlocation
    exact ⟨_, _, _, _, rfl, _, _, rfl, _, _, ⟨_, rfl⟩, body, guard, action, hbody, htail, rfl, rfl⟩

theorem read_transition {t : Transition} :
    read transition l = .ok t ↔
      t.location = l.peek.location ∧ ∃ body, ReadsGuard body t.guard ∧
        l.lexemes = [.keyword .transition, .identifier t.source, .arrow, .identifier t.target,
          .keyword .on, .identifier t.event] ++ guardLexemes body ++ actionLexemes t.action := by
  simp only [read_eq_ok, transition, keyword, bind_eq_ok, exactly_eq_ok, name_eq_ok,
    transitionTail_eq_ok]
  constructor
  · rintro ⟨_, _, _, rfl, _, _, ⟨_, rfl⟩, _, _, rfl, _, _, ⟨_, rfl⟩, _, _, rfl, _, _, ⟨_, rfl⟩,
      body, _, _, hbody, hlexemes, rfl, rfl⟩
    exact ⟨rfl, body, hbody, by simp [hlexemes]⟩
  · rintro ⟨hlocation, body, hbody, h⟩
    obtain ⟨_, _, rfl, hsource⟩ := lexemes_eq_cons_iff.mp h
    obtain ⟨_, _, rfl, harrow⟩ := lexemes_eq_cons_iff.mp hsource
    obtain ⟨_, _, rfl, htarget⟩ := lexemes_eq_cons_iff.mp harrow
    obtain ⟨_, _, rfl, hon⟩ := lexemes_eq_cons_iff.mp htarget
    obtain ⟨_, _, rfl, hevent⟩ := lexemes_eq_cons_iff.mp hon
    obtain ⟨_, _, rfl, htail⟩ := lexemes_eq_cons_iff.mp hevent
    obtain ⟨source, target, event, guard, action, location⟩ := t
    cases hlocation
    exact ⟨_, _, _, rfl, _, _, ⟨_, rfl⟩, _, _, rfl, _, _, ⟨_, rfl⟩, _, _, rfl, _, _, ⟨_, rfl⟩,
      body, guard, action, hbody, htail, rfl, rfl⟩

end LineReader

end StateMachine
