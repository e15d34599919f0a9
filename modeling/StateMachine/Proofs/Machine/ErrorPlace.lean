import StateMachine.Proofs.Except
import StateMachine.Proofs.Machine.Line
import StateMachine.Proofs.Token.Segmentation

/-!
Places of syntax errors. What the scanner rejects stands where the error points to
(`TokenStream.exists_of_scanFrom`). The reader of lines blames a token of the line that it reads, or
a place inside a guard of that line (`SyntaxError.Blames`). This holds of each reader of a part of
a line, and of readers in a row (`LineReader.Blames`), hence of lines, and of lines in a row. As the
tokens stand where they say, every error points into the text (`Machine.pointsInto_of_parseNamed`).
-/

set_option autoImplicit false

namespace StateMachine

open TokenStream (linesOf mem_of_mem_linesOf)

/-! ### Errors of the scanner -/

/-- The scanner stops in front of a character that starts no piece, or of a bracket that is not
closed. -/
theorem TokenStream.exists_of_scanFrom {before text : List Char} {e : SyntaxError}
    (h : scanFrom (.behind before) text = .error e) :
    ∃ taken c rest, text = taken ++ c :: rest ∧ e.location = .behind (before ++ taken) ∧
      (e.cause = .unexpectedCharacter c ∨ e.cause = .unterminatedGuard ∧ c = '[') := by
  generalize hlocation : Location.behind before = location at h
  fun_induction scanFrom location text generalizing before with
  | case1 => cases h
  | case2 location c rest cause hpiece =>
    cases h
    exact ⟨[], c, rest, rfl, by rw [List.append_nil, hlocation], Token.cause_of_piece hpiece⟩
  | case3 location c rest p hpiece error herror ih =>
    cases h
    have hafter : Location.behind (before ++ p.taken) = location.after p.taken := by
      rw [← hlocation, Location.after_behind]
    obtain ⟨taken, d, more, htext, hplace, hcause⟩ := ih hafter herror
    refine ⟨p.taken ++ taken, d, more, ?_, by rw [hplace, List.append_assoc], hcause⟩
    calc
      c :: rest = p.taken ++ p.rest := p.append.symm
      _ = p.taken ++ taken ++ d :: more := by rw [htext, List.append_assoc]
  | case4 => cases h

/-! ### What an error blames -/

/-- The error is about one of these tokens, and points to it or into it. -/
def SyntaxError.Blames (tokens : List Token) (e : SyntaxError) : Prop :=
  match e.cause with
  | .unexpectedToken _ found => ⟨found, e.location⟩ ∈ tokens
  | .duplicateClause hook _ => ⟨.keyword hook.keyword, e.location⟩ ∈ tokens
  | .misplacedHeader => ⟨.keyword .machine, e.location⟩ ∈ tokens
  | .invalidGuard flaw => ∃ text place error, ⟨.guard text, place⟩ ∈ tokens ∧
    Guard.parse text = .error error ∧ flaw = error.flaw ∧
      e.location = ⟨place.line, place.column + 1 + error.offset⟩
  | .unexpectedCharacter _ | .unterminatedGuard => False

theorem SyntaxError.Blames.mono {tokens others : List Token} {e : SyntaxError}
    (h : e.Blames tokens) (hsub : tokens ⊆ others) : e.Blames others := by
  obtain ⟨location, cause⟩ := e
  cases cause with
  | unexpectedCharacter c => exact h.elim
  | unterminatedGuard => exact h.elim
  | unexpectedToken expected found => exact hsub h
  | duplicateClause hook state => exact hsub h
  | misplacedHeader => exact hsub h
  | invalidGuard flaw =>
    obtain ⟨text, place, error, hmem, hrest⟩ := h
    exact ⟨text, place, error, hsub hmem, hrest⟩

/-- If there is an error, it is about one of these tokens. -/
def Blaming {α : Type} (tokens : List Token) (outcome : Except SyntaxError α) : Prop :=
  ∀ e, outcome = .error e → e.Blames tokens

namespace Blaming

variable {α β : Type} {tokens : List Token}

theorem ok (a : α) : Blaming tokens (.ok a) :=
  nofun

theorem error {e : SyntaxError} (h : e.Blames tokens) :
    Blaming tokens (.error e : Except SyntaxError α) := by
  rintro _ ⟨⟩
  exact h

theorem bind {x : Except SyntaxError α} {next : α → Except SyntaxError β}
    (h : Blaming tokens x) (hnext : ∀ a, x = .ok a → Blaming tokens (next a)) :
    Blaming tokens (x >>= next) := by
  cases x with
  | error e => exact error (h e rfl)
  | ok a => exact hnext a rfl

end Blaming

/-! ### Readers -/

namespace Line

/-- The tokens of a line and the one that ends it. -/
def all (l : Line) : List Token :=
  l.tokens ++ [l.finish]

theorem peek_mem (l : Line) : l.peek ∈ l.all := by
  obtain ⟨tokens, finish⟩ := l
  cases tokens with
  | nil => exact List.mem_singleton_self finish
  | cons token rest => exact List.mem_cons_self

theorem mem_of_peek {l : Line} {lexeme : Lexeme} (h : l.peek.lexeme = lexeme) :
    ⟨lexeme, l.peek.location⟩ ∈ l.all := by
  subst h
  exact l.peek_mem

theorem blames_unexpected (l : Line) (expected : Expectation) :
    (l.unexpected expected).Blames l.all :=
  l.peek_mem

end Line

namespace LineReader

/-- The reader blames tokens of the line that it reads, and leaves no others. -/
structure Blames {α : Type} (reader : LineReader α) : Prop where
  blaming : ∀ l, Blaming l.all (reader l)
  subset : ∀ l a rest, reader l = .ok (a, rest) → rest.all ⊆ l.all

variable {α β : Type}

theorem Blames.pure (a : α) : Blames (Pure.pure a) where
  blaming _ := .ok _
  subset l b rest h := by
    obtain ⟨-, rfl⟩ := pure_eq_ok.mp h
    exact List.Subset.refl _

theorem Blames.bind {reader : LineReader α} {next : α → LineReader β} (h : Blames reader)
    (hnext : ∀ a, Blames (next a)) : Blames (reader >>= next) where
  blaming l := by
    refine (h.blaming l).bind fun result hresult e he ↦ ?_
    exact ((hnext result.1).blaming result.2 e he).mono (h.subset l result.1 result.2 hresult)
  subset l b rest hb := by
    obtain ⟨a, middle, ha, hrest⟩ := bind_eq_ok.mp hb
    exact List.Subset.trans ((hnext a).subset middle b rest hrest) (h.subset l a middle ha)

theorem Blames.read {reader : LineReader α} (h : Blames reader) (l : Line) :
    Blaming l.all (LineReader.read reader l) :=
  (h.blaming l).bind fun _ _ ↦ .ok _

/-- Without its first token a line has no others. -/
theorem all_subset_cons (token : Token) (tokens : List Token) (finish : Token) :
    Line.all ⟨tokens, finish⟩ ⊆ Line.all ⟨token :: tokens, finish⟩ :=
  List.subset_cons_self _ _

theorem blames_exactly (lexeme : Lexeme) (expected : Expectation) :
    Blames (exactly lexeme expected) where
  blaming l := by
    unfold exactly
    split
    · split
      · exact .ok _
      · exact .error (l.blames_unexpected expected)
    · exact .error (l.blames_unexpected expected)
  subset l location rest h := by
    rw [exactly_eq_ok.mp h]
    exact all_subset_cons _ _ _

theorem blames_placedName (expected : Expectation) : Blames (placedName expected) where
  blaming l := by
    unfold placedName
    split
    · exact .ok _
    · exact .error (l.blames_unexpected expected)
  subset l result rest h := by
    rw [placedName_eq_ok.mp h]
    exact all_subset_cons _ _ _

theorem blames_name (expected : Expectation) : Blames (name expected) :=
  (blames_placedName expected).bind fun _ ↦ .pure _

theorem blames_optionalName : Blames optionalName where
  blaming l := by
    unfold optionalName
    split <;> exact .ok _
  subset l result rest h := by
    obtain ⟨tokens, finish⟩ := l
    unfold optionalName at h
    split at h
    · next htokens =>
      cases h
      cases htokens
      exact all_subset_cons _ _ _
    · cases h
      exact List.Subset.refl _

/-- A flaw in a guard is blamed on its token. -/
theorem blames_optionalGuard : Blames optionalGuard where
  blaming l := by
    obtain ⟨tokens, finish⟩ := l
    unfold optionalGuard
    split
    · next text place rest htokens =>
      cases htokens
      split
      · exact .ok _
      · next error hparse =>
        exact .error ⟨text, place, error, List.mem_cons_self, hparse, rfl, rfl⟩
    · exact .ok _
  subset l result rest h := by
    obtain ⟨tokens, finish⟩ := l
    unfold optionalGuard at h
    split at h
    · next text place more htokens =>
      cases htokens
      split at h
      · cases h
        exact all_subset_cons _ _ _
      · cases h
    · cases h
      exact List.Subset.refl _

theorem blames_optionalAction : Blames optionalAction := by
  have haction : Blames (some <$> name .actionName) :=
    (blames_name .actionName).bind fun name ↦ .pure (some name)
  constructor
  · intro l e h
    obtain ⟨tokens, finish⟩ := l
    unfold optionalAction at h
    split at h
    · next place rest htokens =>
      cases htokens
      exact (haction.blaming _ e h).mono (all_subset_cons _ _ _)
    · cases h
  · intro l result rest h
    obtain ⟨tokens, finish⟩ := l
    unfold optionalAction at h
    split at h
    · next place more htokens =>
      cases htokens
      exact List.Subset.trans (haction.subset _ _ _ h) (all_subset_cons _ _ _)
    · cases h
      exact List.Subset.refl _

theorem blames_finished : Blames finished where
  blaming l := by
    unfold finished
    split
    · exact .ok _
    · exact .error (l.blames_unexpected .endOfLine)
  subset l u rest h := by
    obtain ⟨rfl, -⟩ := finished_eq_ok.mp h
    exact List.Subset.refl _

/-! ### Kinds of lines -/

theorem blames_header : Blames header :=
  (blames_exactly _ _).bind fun _ ↦ (blames_name _).bind fun _ ↦ blames_finished.bind fun _ ↦
    .pure _

theorem blames_lone (word : Keyword) : Blames (lone word) :=
  (blames_exactly _ _).bind fun _ ↦ blames_finished

theorem blames_declaration (expected : Expectation) (withCode : Bool) :
    Blames (declaration expected withCode) := by
  refine (blames_placedName expected).bind fun found ↦ ?_
  cases withCode with
  | true => exact blames_optionalName.bind fun _ ↦ blames_finished.bind fun _ ↦ .pure _
  | false => exact (Blames.pure none).bind fun _ ↦ blames_finished.bind fun _ ↦ .pure _

theorem blames_unmarkedStateHeader (initial : Bool) (location : Location) :
    Blames (unmarkedStateHeader initial location) :=
  (blames_exactly _ _).bind fun _ ↦ (blames_name _).bind fun _ ↦ blames_finished.bind fun _ ↦
    .pure _

theorem blaming_stateHeader (l : Line) : Blaming l.all (read stateHeader l) := by
  have hheader : Blaming l.all (stateHeader l) := by
    rw [stateHeader_eq]
    split
    · exact ((blames_exactly _ _).bind fun _ ↦ blames_unmarkedStateHeader true _).blaming l
    · exact (blames_unmarkedStateHeader false _).blaming l
  exact hheader.bind fun _ _ ↦ .ok _

theorem blames_hookClause (hook : Hook) : Blames (hookClause hook) :=
  (blames_exactly _ _).bind fun _ ↦ (blames_name _).bind fun _ ↦ blames_finished.bind fun _ ↦
    .pure _

theorem blames_transitionTail (source target event : String) (location : Location) :
    Blames (transitionTail source target event location) :=
  blames_optionalGuard.bind fun _ ↦ blames_optionalAction.bind fun _ ↦ blames_finished.bind fun _ ↦
    .pure _

theorem blames_nestedTransition (source : String) : Blames (nestedTransition source) :=
  (blames_placedName _).bind fun event ↦ (blames_exactly _ _).bind fun _ ↦
    (blames_name _).bind fun target ↦ blames_transitionTail source target event.1 event.2

theorem blames_transition : Blames transition :=
  (blames_exactly _ _).bind fun location ↦ (blames_name _).bind fun source ↦
    (blames_exactly _ _).bind fun _ ↦ (blames_name _).bind fun target ↦
      (blames_exactly _ _).bind fun _ ↦ (blames_name _).bind fun event ↦
        blames_transitionTail source target event location

end LineReader

/-! ### Lines in a row -/

namespace Progress

open LineReader

theorem blaming_item (m : Machine) (l : Line) : Blaming l.all (item m l) := by
  unfold item
  dsimp only
  split
  · next hlexeme => exact .error (Line.mem_of_peek hlexeme)
  · exact ((blames_lone _).read l).bind fun _ _ ↦ .ok _
  · exact ((blames_lone _).read l).bind fun _ _ ↦ .ok _
  · exact ((blames_lone _).read l).bind fun _ _ ↦ .ok _
  · exact (blaming_stateHeader l).bind fun _ _ ↦ .ok _
  · exact (blaming_stateHeader l).bind fun _ _ ↦ .ok _
  · exact (blames_transition.read l).bind fun _ _ ↦ .ok _
  · exact .error (l.blames_unexpected .declaration)

/-- A second clause for a hook is blamed on its keyword, with which the line starts. -/
theorem blaming_hook (l : Line) (hook : Hook) (s : State) (m : Machine) :
    Blaming l.all (do
      let (action, location) ← read (hookClause hook) l
      match s.action? hook with
      | some _ => .error ⟨location, .duplicateClause hook s.name⟩
      | none => return (⟨m, .state (s.withAction hook action)⟩ : Progress)) := by
  refine ((blames_hookClause hook).read l).bind fun found hfound ↦ ?_
  obtain ⟨action, location⟩ := found
  obtain ⟨hlexemes, rfl⟩ := read_hookClause.mp hfound
  dsimp only
  split
  · exact .error (Line.mem_of_peek (Line.peek_lexeme hlexemes))
  · exact .ok _

theorem blaming_next (p : Progress) (l : Line) : Blaming l.all (p.next l) := by
  obtain ⟨m, block⟩ := p
  unfold next
  cases block with
  | beginning =>
    dsimp only
    split
    · exact (blames_header.read l).bind fun _ _ ↦ .ok _
    · exact blaming_item m l
  | none => exact blaming_item m l
  | declarations kind =>
    dsimp only
    split
    · exact ((blames_lone _).read l).bind fun _ _ ↦ .ok _
    · exact ((blames_declaration _ _).read l).bind fun _ _ ↦ .ok _
  | state s =>
    dsimp only
    split
    · exact ((blames_lone _).read l).bind fun _ _ ↦ .ok _
    · exact blaming_hook l .entry s m
    · exact blaming_hook l .exit s m
    · exact ((blames_nestedTransition s.name).read l).bind fun _ _ ↦ .ok _
    · exact .error (l.blames_unexpected .stateClause)

theorem blaming_step (p : Progress) (l : Line) : Blaming l.all (p.step l) := by
  unfold step
  split
  · exact .ok p
  · exact p.blaming_next l

theorem blaming_foldlM {tokens : List Token} {lines : List Line}
    (h : ∀ l ∈ lines, l.all ⊆ tokens) (p : Progress) : Blaming tokens (lines.foldlM step p) := by
  induction lines generalizing p with
  | nil => exact .ok p
  | cons l lines ih =>
    obtain ⟨hl, hlines⟩ := List.forall_mem_cons.mp h
    rw [List.foldlM_cons]
    refine Blaming.bind (fun e he ↦ ?_) fun q _ ↦ ih hlines q
    exact (p.blaming_step l e he).mono hl

theorem blaming_close {tokens : List Token} {finish : Token} (h : finish ∈ tokens) (p : Progress) :
    Blaming tokens (p.close finish) := by
  unfold close
  split
  · exact .ok _
  · exact .ok _
  · exact .error h
  · exact .error h

end Progress

/-- A line of a stream has no tokens but those of the stream. -/
theorem TokenStream.all_subset_of_mem_linesOf {last : Token} {tokens : List Token} {l : Line}
    (h : l ∈ linesOf last tokens) : l.all ⊆ tokens ++ [last] := by
  have hfinish : l.finish ∈ tokens ++ [last] := by
    induction tokens generalizing l with
    | nil =>
      rw [List.mem_singleton.mp h]
      exact List.mem_singleton_self last
    | cons token tokens ih =>
      by_cases hnewline : token.lexeme = .newline
      · rw [linesOf_newline hnewline] at h
        rcases List.mem_cons.mp h with rfl | hrest
        · exact List.mem_cons_self
        · exact List.mem_cons_of_mem token (ih hrest)
      · obtain ⟨first, more, hmore, hcons⟩ := linesOf_cons hnewline
        rw [hcons] at h
        rw [hmore] at ih
        rcases List.mem_cons.mp h with rfl | hrest
        · exact List.mem_cons_of_mem token (ih (l := first) List.mem_cons_self)
        · exact List.mem_cons_of_mem token (ih (List.mem_cons_of_mem first hrest))
  intro t ht
  rcases List.mem_append.mp ht with htoken | hlast
  · exact List.mem_append_left _ (mem_of_mem_linesOf h t htoken)
  · rw [List.mem_singleton.mp hlast]
    exact hfinish

theorem Machine.blaming_ofTokens (name : String) (stream : TokenStream) :
    Blaming stream.all (ofTokens name stream) :=
  (Progress.blaming_foldlM (fun _ ↦ TokenStream.all_subset_of_mem_linesOf) _).bind fun p _ ↦
    p.blaming_close (List.mem_append_right _ (List.mem_singleton_self _))

/-! ### Places in the text -/

/-- A flaw in a guard shows inside its text, or at the end of it. -/
theorem Guard.offset_le_of_parse {text : String} {error : Guard.ParseError}
    (h : Guard.parse text = .error error) : error.offset ≤ text.toList.length := by
  unfold Guard.parse at h
  split at h
  · cases h
  · cases h
    exact Nat.sub_le _ _

/-- A token with this lexeme starts behind so many characters of the text. -/
def TokenStream.StartsAt (text : String) (offset : Nat) (lexeme : Lexeme) : Prop :=
  ∃ stream, scan text = .ok stream ∧ ⟨lexeme, .atOffset text offset⟩ ∈ stream.all ∧
    lexeme.chars <+: text.toList.drop offset

namespace SyntaxError

open TokenStream (StartsAt)

/-- What an error with this cause says about the place behind so many characters of the text. A
flaw in a guard shows at the place in the guard that the reader of guards gives. -/
def Cause.ShowsAt (text : String) (offset : Nat) : Cause → Prop
  | .unexpectedCharacter c => text.toList[offset]? = some c
  | .unterminatedGuard => text.toList[offset]? = some '['
  | .unexpectedToken _ found => StartsAt text offset found
  | .duplicateClause hook _ => StartsAt text offset (.keyword hook.keyword)
  | .misplacedHeader => StartsAt text offset (.keyword .machine)
  | .invalidGuard flaw => ∃ opening body error, StartsAt text opening (.guard body) ∧
    Guard.parse body = .error error ∧ error.flaw = flaw ∧ offset = opening + 1 + error.offset ∧
      offset ≤ opening + 1 + body.toList.length ∧
      (Location.atOffset text offset).line = (Location.atOffset text opening).line

/-- The error points to a place of the text, the end included, and says what is there. -/
def PointsInto (text : String) (e : SyntaxError) : Prop :=
  ∃ offset ≤ text.toList.length, e.location = .atOffset text offset ∧ e.cause.ShowsAt text offset

variable {text : String} {e : SyntaxError}

theorem atOffset_of_append {before after : List Char} (h : text.toList = before ++ after) :
    Location.atOffset text before.length = .behind before := by
  rw [Location.atOffset, h, List.take_left]

theorem pointsInto_of_scan (h : TokenStream.scan text = .error e) : e.PointsInto text := by
  have hstart : TokenStream.scanFrom (.behind []) text.toList = .error e := h
  obtain ⟨before, c, rest, htext, hplace, hcause⟩ := TokenStream.exists_of_scanFrom hstart
  have hchar : text.toList[before.length]? = some c := by simp [htext]
  refine ⟨before.length, by simp [htext], ?_, ?_⟩
  · rw [hplace, List.nil_append, atOffset_of_append htext]
  · rcases hcause with hcause | ⟨hcause, rfl⟩
    · rw [hcause]
      exact hchar
    · rw [hcause]
      exact hchar

variable {stream : TokenStream}

theorem exists_startsAt {lexeme : Lexeme} {location : Location}
    (hscan : TokenStream.scan text = .ok stream) (h : ⟨lexeme, location⟩ ∈ stream.all) :
    ∃ offset ≤ text.toList.length, location = .atOffset text offset ∧
      StartsAt text offset lexeme := by
  obtain ⟨before, after, htext, rfl, -⟩ := TokenStream.exists_place_of_mem hscan h
  have hplace := atOffset_of_append htext
  refine ⟨before.length, by simp [htext], hplace.symm, stream, hscan, ?_, ?_⟩
  · rw [hplace]
    exact h
  · rw [htext, List.drop_left]
    exact List.prefix_append _ _

/-- Places in a guard are on the line of its bracket, and as many columns further as characters. -/
theorem exists_place_of_guard {body : String} {location : Location} {shift : Nat}
    (hscan : TokenStream.scan text = .ok stream) (h : ⟨.guard body, location⟩ ∈ stream.all)
    (hshift : shift ≤ body.toList.length) :
    ∃ opening, opening + 1 + shift ≤ text.toList.length ∧ StartsAt text opening (.guard body) ∧
      location = .atOffset text opening ∧
      Location.atOffset text (opening + 1 + shift) =
        ⟨location.line, location.column + 1 + shift⟩ := by
  obtain ⟨before, after, htext, rfl, hlexical⟩ := TokenStream.exists_place_of_mem hscan h
  let passed := '[' :: body.toList.take shift
  have hpassed : '\n' ∉ passed := by
    have hbody := (hlexical nofun : Token.IsGuardText body.toList).newline_notMem
    rw [List.mem_cons, not_or]
    exact ⟨by decide, fun hmem ↦ hbody (List.mem_of_mem_take hmem)⟩
  have hlength : passed.length = 1 + shift := by
    rw [List.length_cons, List.length_take_of_le hshift, Nat.add_comm]
  have hsplit : text.toList = (before ++ passed) ++ (body.toList.drop shift ++ ']' :: after) := by
    calc
      text.toList = before ++ '[' :: (body.toList ++ ']' :: after) := by
        rw [htext, Lexeme.chars]
        simp
      _ = before ++ '[' :: (body.toList.take shift ++ body.toList.drop shift ++ ']' :: after) := by
        rw [List.take_append_drop]
      _ = (before ++ passed) ++ (body.toList.drop shift ++ ']' :: after) := by
        rw [List.append_assoc, List.append_assoc, List.cons_append]
  have hopening : Location.atOffset text before.length = .behind before := atOffset_of_append htext
  refine ⟨before.length, ?_, ⟨stream, hscan, ?_, ?_⟩, hopening.symm, ?_⟩
  · rw [hsplit, List.length_append, List.length_append, hlength]
    omega
  · rw [hopening]
    exact h
  · rw [htext, List.drop_left]
    exact List.prefix_append _ _
  · have hplace := atOffset_of_append hsplit
    rw [List.length_append, hlength, ← Nat.add_assoc, ← Location.after_behind,
      Location.after_of_notMem _ hpassed, hlength, ← Nat.add_assoc] at hplace
    exact hplace

theorem Blames.pointsInto (hscan : TokenStream.scan text = .ok stream) (h : e.Blames stream.all) :
    e.PointsInto text := by
  obtain ⟨location, cause⟩ := e
  cases cause with
  | unexpectedCharacter c => exact h.elim
  | unterminatedGuard => exact h.elim
  | unexpectedToken expected found => exact exists_startsAt hscan h
  | duplicateClause hook state => exact exists_startsAt hscan h
  | misplacedHeader => exact exists_startsAt hscan h
  | invalidGuard flaw =>
    obtain ⟨body, place, error, hmem, hparse, hflaw, hlocation⟩ := h
    have hshift : error.offset ≤ body.toList.length := Guard.offset_le_of_parse hparse
    obtain ⟨opening, hle, hstarts, hplace, hinside⟩ := exists_place_of_guard hscan hmem hshift
    refine ⟨opening + 1 + error.offset, hle, hlocation.trans hinside.symm, opening, body, error,
      hstarts, hparse, hflaw.symm, rfl, Nat.add_le_add_left hshift _, ?_⟩
    rw [hinside, hplace]

end SyntaxError

namespace Machine

/-- A syntax error points into the text, to what it is about. -/
theorem pointsInto_of_parseNamed {name text : String} {e : SyntaxError}
    (h : parseNamed name text = .error e) : e.PointsInto text := by
  cases hscan : TokenStream.scan text with
  | error found =>
    rw [parseNamed, hscan] at h
    cases h
    exact SyntaxError.pointsInto_of_scan hscan
  | ok stream =>
    rw [parseNamed, hscan] at h
    exact (blaming_ofTokens _ stream e h).pointsInto hscan

/-- A description with a guard of two blanks, the first of which takes several bytes. -/
def flawedSource : String :=
  "# Tür\ntransition A -> B on go [\u3000 ]"

theorem pointsInto_of_parseNamed_flawed :
    parseNamed defaultName flawedSource = .error ⟨⟨2, 28⟩, .invalidGuard .empty⟩ ∧
      SyntaxError.PointsInto flawedSource ⟨⟨2, 28⟩, .invalidGuard .empty⟩ := by
  have hparse : parseNamed defaultName flawedSource =
      .error ⟨⟨2, 28⟩, .invalidGuard .empty⟩ := failure?_eq_some.mp (by decide +kernel)
  exact ⟨hparse, pointsInto_of_parseNamed hparse⟩

end Machine

end StateMachine
