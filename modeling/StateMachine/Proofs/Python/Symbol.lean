import StateMachine.Proofs.Guard.Number
import StateMachine.Proofs.Json.ReadBack
import StateMachine.Proofs.Python.ClassName

/-!
The symbols of expressions of Python programs. A text is taken apart from left to right, every
symbol being as long as it can be, and blanks between symbols are dropped. A text is one row of
symbols at most (`Lexes.unique`). Symbols that were written one after the other are found again
where each ends before a mark or a blank (`Spells`); this is so of names, of numerals, and of texts
with the escapes that JSON uses.
-/

set_option autoImplicit false

namespace StateMachine.Python

open Text (Stops stops_cons takeWhile_run dropWhile_run)

/-- A symbol of an expression. -/
inductive Symbol where
  | word (s : String)
  | text (s : String)
  | numeral (n : Guard.NumberText)
  | mark (c : Char)

namespace Symbol

/-! ### Words and marks -/

/-- Does a character right behind a word or a numeral belong to it? Quotes make a word the prefix of
a literal, and there are names with letters that are not ASCII. -/
def isAdherent (c : Char) : Bool :=
  isNamePart c || c = '"' || c = '\x27' || 127 < c.toNat

/-- A name or a keyword, and the text behind it. -/
def word? (text : List Char) : Option (Symbol × List Char) :=
  let rest := text.dropWhile isNamePart
  if rest.head?.any isAdherent then none
  else some (.word (String.ofList (text.takeWhile isNamePart)), rest)

def marks : List Char :=
  ['(', ')', ',', '.', '-']

/-! ### Literals -/

/-- What a literal stands for, up to its closing quote. The escapes are those of JSON, but a slash
is not escaped and no surrogate is. A literal of one line holds no line breaks. -/
def textBody? : List Char → Option (List Char × List Char)
  | '"' :: rest => some ([], rest)
  | '\\' :: 'u' :: a :: b :: c :: d :: rest =>
    match Json.unit? a b c d with
    | none => none
    | some n =>
      if Json.isHighSurrogate n || Json.isLowSurrogate n then none
      else (textBody? rest).map fun (body, rest) ↦ (Char.ofNat n :: body, rest)
  | '\\' :: c :: rest =>
    match Json.simpleEscape? c with
    | none => none
    | some plain =>
      if c = '/' then none
      else (textBody? rest).map fun (body, rest) ↦ (plain :: body, rest)
  | c :: rest =>
    if ['\\', '\n', '\r', '\x00'].contains c then none
    else (textBody? rest).map fun (body, rest) ↦ (c :: body, rest)
  | [] => none

/-- A literal behind its opening quote. Three quotes would open a literal of several lines. -/
def text? (body : List Char) : Option (Symbol × List Char) :=
  if ['"', '"'].isPrefixOf body then none
  else (textBody? body).map fun (body, rest) ↦ (.text (String.ofList body), rest)

/-- Is a numeral one of Python's? An integer has no zeros in front. -/
def isNumeral (n : Guard.NumberText) : Bool :=
  n.isValid && (n.fraction.isSome || n.exponent.isSome || n.whole = ['0'] ||
    n.whole.head? ≠ some '0')

def numeral? (text : List Char) : Option (Symbol × List Char) :=
  let (n, rest) := Guard.NumberText.split text
  if !isNumeral n || rest.head?.any isAdherent then none else some (.numeral n, rest)

/-! ### Rows of symbols -/

/-- The symbol that a text starts with, and the text behind it. -/
def next? : List Char → Option (Symbol × List Char)
  | [] => none
  | c :: rest =>
    if isNameStart c then word? (c :: rest)
    else if c = '"' then text? rest
    else if c.isDigit || (c = '.' && rest.head?.any Char.isDigit) then numeral? (c :: rest)
    else if marks.contains c then some (.mark c, rest)
    else none

/-- A literal behind its opening quote has a closing one. -/
theorem length_lt_of_textBody? {text body rest : List Char}
    (h : textBody? text = some (body, rest)) : rest.length < text.length := by
  fun_induction textBody? text generalizing body with
  | case1 =>
    cases h
    simp
  | case4 _ _ _ _ _ _ _ _ ih | case7 _ _ _ _ _ _ ih | case9 _ _ _ _ _ _ ih =>
    obtain ⟨⟨_, _⟩, hmore, heq⟩ := Option.map_eq_some_iff.mp h
    cases heq
    have hshorter := ih hmore
    simp only [List.length_cons]
    omega
  | case2 | case3 | case5 | case6 | case8 | case10 => cases h

theorem length_lt_of_next? {text rest : List Char} {s : Symbol}
    (h : next? text = some (s, rest)) : rest.length < text.length := by
  unfold next? at h
  split at h
  · cases h
  · next c more =>
    split_ifs at h with hstart hquote hnumeral hmark
    · -- A word has its first character.
      unfold word? at h
      dsimp only at h
      rw [List.dropWhile_cons_of_pos (isNamePart_of_isNameStart hstart)] at h
      split_ifs at h
      cases h
      exact Nat.lt_succ_of_le (Text.length_dropWhile_le _ _)
    · unfold text? at h
      split_ifs at h
      obtain ⟨⟨_, _⟩, hbody, heq⟩ := Option.map_eq_some_iff.mp h
      cases heq
      exact (length_lt_of_textBody? hbody).trans (Nat.lt_succ_self _)
    · have happend := congrArg List.length (Guard.NumberText.chars_split_append (c :: more))
      unfold numeral? at h
      dsimp only at h
      split_ifs at h with hrefused
      cases h
      have hvalid : (Guard.NumberText.split (c :: more)).1.isValid := by
        simp only [isNumeral, Bool.or_eq_true, Bool.not_eq_true', not_or, Bool.not_eq_false,
          Bool.and_eq_true] at hrefused
        exact hrefused.1.1
      have hchars := Guard.NumberText.length_chars_pos hvalid
      rw [List.length_append] at happend
      omega
    · cases h
      exact Nat.lt_succ_self _

end Symbol

/-- A text is a row of symbols. -/
inductive Lexes : List Char → List Symbol → Prop
  | nil : Lexes [] []
  | blank {text : List Char} {symbols : List Symbol} (h : Lexes text symbols) :
    Lexes (' ' :: text) symbols
  | cons {text rest : List Char} {s : Symbol} {symbols : List Symbol}
    (hnext : Symbol.next? text = some (s, rest)) (h : Lexes rest symbols) :
    Lexes text (s :: symbols)

/-- A text is not taken apart in two ways. -/
theorem Lexes.unique {text : List Char} {symbols others : List Symbol} (h : Lexes text symbols)
    (hother : Lexes text others) : symbols = others := by
  induction h generalizing others with
  | nil =>
    cases hother with
    | nil => rfl
    | cons hnext _ => cases hnext
  | blank _ ih =>
    cases hother with
    | blank hother => exact ih hother
    | cons hnext _ => cases hnext
  | cons hnext _ ih =>
    cases hother with
    | nil => cases hnext
    | blank _ => cases hnext
    | cons hsame hother =>
      cases hnext.symm.trans hsame
      rw [ih hother]

/-! ### Symbols that were written -/

/-- What may stand behind any operand. -/
def breakMarks : List Char :=
  ['(', ')', ',', ' ']

/-- The text ends, or goes on with a mark or a blank, as it does behind every operand. -/
def Breaks (rest : List Char) : Prop :=
  Stops (fun c ↦ !breakMarks.contains c) rest

theorem breaks_cons {c : Char} {rest : List Char} (h : c ∈ breakMarks) : Breaks (c :: rest) :=
  stops_cons.mpr (by simpa using h)

theorem Breaks.stops {p : Char → Bool} {rest : List Char} (h : Breaks rest)
    (hp : breakMarks.all fun c ↦ !p c) : Stops p rest := by
  intro c hc
  have hmark := h c hc
  rw [Bool.not_eq_false', List.contains_iff_mem] at hmark
  simpa using List.all_eq_true.mp hp c hmark

namespace Symbol

theorem any_isAdherent_of_stops {rest : List Char} (h : Stops isAdherent rest) :
    rest.head?.any isAdherent = false := by
  cases rest with
  | nil => rfl
  | cons c rest => exact stops_cons.mp h

/-! #### Words -/

/-- A name or a keyword. -/
def isWord (s : String) : Bool :=
  s.toList.head?.any isNameStart && s.toList.all isNamePart

theorem isWord_of_isName {s : String} (h : isName s) : isWord s := by
  obtain ⟨hstart, hpart, -⟩ := isName_iff.mp h
  exact Bool.and_eq_true_iff.mpr ⟨hstart, List.all_eq_true.mpr hpart⟩

theorem exists_cons_of_isWord {s : String} (h : isWord s) :
    ∃ c more, s.toList = c :: more ∧ isNameStart c := by
  have hstart := (Bool.and_eq_true_iff.mp h).1
  cases hlist : s.toList with
  | nil => simp [hlist] at hstart
  | cons c more => exact ⟨c, more, rfl, by simpa [hlist] using hstart⟩

theorem next?_word {s : String} (hs : isWord s) {rest : List Char}
    (hrest : Stops isAdherent rest) : next? (s.toList ++ rest) = some (.word s, rest) := by
  obtain ⟨c, more, hlist, hstart⟩ := exists_cons_of_isWord hs
  have hpart := (Bool.and_eq_true_iff.mp hs).2
  have hstops : Stops isNamePart rest := hrest.mono fun c hc ↦ by simp [isAdherent, hc]
  have htake := takeWhile_run (List.all_eq_true.mp hpart) hstops
  have hdrop := dropWhile_run (List.all_eq_true.mp hpart) hstops
  have hhead := any_isAdherent_of_stops hrest
  have hword : word? (s.toList ++ rest) = some (.word s, rest) := by
    simp only [word?, htake, hdrop, hhead, Bool.false_eq_true, if_false, String.ofList_toList]
  rw [hlist, List.cons_append] at hword ⊢
  rw [next?, if_pos hstart, hword]

/-! #### Texts -/

/-- One escaped character is read as that character. -/
theorem textBody?_escaped_append (c : Char) (rest : List Char) :
    textBody? (Json.escaped c ++ rest) =
      (textBody? rest).map fun (body, rest) ↦ (c :: body, rest) := by
  unfold Json.escaped
  split_ifs with hquote hback hb hf hn hr ht hcontrol
  · subst hquote; rfl
  · subst hback; rfl
  · subst hb; rfl
  · subst hf; rfl
  · subst hn; rfl
  · subst hr; rfl
  · subst ht; rfl
  · have hunit := @Json.unit?_hexDigits c.toNat (by omega)
    have hpair : (Json.isHighSurrogate c.toNat || Json.isLowSurrogate c.toNat) = false := by
      simp [Json.isHighSurrogate, Json.isLowSurrogate]
      omega
    simp only [List.cons_append, List.nil_append]
    rw [textBody?]
    simp only [hunit, hpair, Bool.false_eq_true, if_false, Char.ofNat_toNat]
  · have hnull : c ≠ '\x00' := by
      rintro rfl
      exact hcontrol (by decide)
    rw [List.singleton_append, textBody?]
    · rw [if_neg (by simp [hback, hn, hr, hnull])]
    all_goals simp_all

theorem textBody?_escaped (body rest : List Char) :
    textBody? (body.flatMap Json.escaped ++ '"' :: rest) = some (body, rest) := by
  induction body with
  | nil => rfl
  | cons c body ih =>
    rw [List.flatMap_cons, List.append_assoc, textBody?_escaped_append, ih, Option.map_some]

/-- What is escaped does not begin with a quote. -/
theorem head?_escaped_ne (c : Char) (rest : List Char) :
    (Json.escaped c ++ rest).head? ≠ some '"' := by
  unfold Json.escaped
  split_ifs with hquote <;> simp_all

theorem next?_quoted (s : String) {rest : List Char} (hrest : rest.head? ≠ some '"') :
    next? (Json.quoted s ++ rest) = some (.text s, rest) := by
  have hquoted : Json.quoted s ++ rest =
      '"' :: (s.toList.flatMap Json.escaped ++ '"' :: rest) := by
    simp [Json.quoted]
  -- An empty text has no quote behind it, and any other one does not begin with a quote.
  have hsingle : ['"', '"'].isPrefixOf (s.toList.flatMap Json.escaped ++ '"' :: rest) = false := by
    cases s.toList with
    | nil =>
      cases rest with
      | nil => rfl
      | cons c rest =>
        have hc : c ≠ '"' := fun h ↦ hrest (congrArg some h)
        simp [List.isPrefixOf, hc.symm]
    | cons c more =>
      rw [List.flatMap_cons, List.append_assoc]
      have hhead := head?_escaped_ne c (more.flatMap Json.escaped ++ '"' :: rest)
      cases hlist : Json.escaped c ++ (more.flatMap Json.escaped ++ '"' :: rest) with
      | nil => rfl
      | cons d others =>
        rw [hlist, List.head?_cons] at hhead
        have hd : d ≠ '"' := fun h ↦ hhead (congrArg some h)
        simp [List.isPrefixOf, hd.symm]
  have htext : text? (s.toList.flatMap Json.escaped ++ '"' :: rest) = some (.text s, rest) := by
    simp only [text?, hsingle, Bool.false_eq_true, if_false, textBody?_escaped, Option.map_some,
      String.ofList_toList]
  rw [hquoted, next?, if_neg (by decide), if_pos rfl, htext]

/-! #### Numerals -/

theorem next?_digit {c : Char} (h : c.isDigit) (rest : List Char) :
    next? (c :: rest) = numeral? (c :: rest) := by
  have hquote : c ≠ '"' := by
    rintro rfl
    cases h
  rw [next?, isNameStart_of_isDigit h, if_neg Bool.false_ne_true, if_neg hquote, h, Bool.true_or,
    if_pos rfl]

theorem next?_point {c : Char} (h : c.isDigit) (rest : List Char) :
    next? ('.' :: c :: rest) = numeral? ('.' :: c :: rest) := by
  rw [next?, if_neg (by decide), if_neg (by decide), List.head?_cons, Option.any_some, h,
    if_pos (by decide)]

/-- A numeral without a sign starts with a digit, or with a point and a digit. -/
theorem next?_of_wellFormed {n : Guard.NumberText} (h : n.WellFormed) (hminus : n.minus = false)
    (rest : List Char) : next? (n.chars ++ rest) = numeral? (n.chars ++ rest) := by
  have hchars : n.chars = n.whole ++ ((n.fraction.map ('.' :: ·)).getD [] ++
      (n.exponent.map Guard.ExponentText.chars).getD []) := by
    simp [Guard.NumberText.chars, hminus]
  cases hwhole : n.whole with
  | cons c more =>
    have hc : c.isDigit := h.whole c (by simp [hwhole])
    have hhead : n.chars ++ rest = c :: (n.chars ++ rest).tail := by simp [hchars, hwhole]
    rw [hhead, next?_digit hc]
  | nil =>
    obtain ⟨c, more, hfraction⟩ : ∃ c more, n.fraction = some (c :: more) := by
      have hdigits : n.fraction.getD [] ≠ [] := by
        have hvalid := h.isValid
        simp only [Guard.NumberText.isValid, hwhole, List.nil_append, Bool.and_eq_true,
          Bool.not_eq_true', List.isEmpty_eq_false_iff] at hvalid
        exact hvalid.1
      obtain ⟨c, more, hcons⟩ := List.exists_cons_of_ne_nil hdigits
      cases hfraction : n.fraction with
      | none => simp [hfraction] at hcons
      | some digits =>
        rw [hfraction, Option.getD_some] at hcons
        exact ⟨c, more, hcons ▸ rfl⟩
    have hc : c.isDigit := h.fraction _ hfraction c List.mem_cons_self
    have hhead : n.chars ++ rest = '.' :: c :: (n.chars ++ rest).tail.tail := by
      simp [hchars, hwhole, hfraction]
    rw [hhead, next?_point hc]

theorem next?_numeral {n : Guard.NumberText} (h : n.WellFormed) (hminus : n.minus = false)
    (hpoint : n.fraction.isSome || n.exponent.isSome) {rest : List Char} (hrest : Breaks rest) :
    next? (n.chars ++ rest) = some (.numeral n, rest) := by
  have hsplit := Guard.NumberText.split_chars_append h (hrest.stops (by decide))
  have hhead := any_isAdherent_of_stops (hrest.stops (by decide))
  have hnumeral : isNumeral n = true := by
    rw [isNumeral, h.isValid, hpoint]
    rfl
  rw [next?_of_wellFormed h hminus]
  simp only [numeral?, hsplit, hnumeral, hhead, Bool.not_true, Bool.or_self,
    Bool.false_eq_true, if_false]

end Symbol

/-! #### Rows -/

/-- In front of a text that breaks off so, these characters are these symbols. -/
def Spells (chars : List Char) (symbols : List Symbol) : Prop :=
  ∀ rest more, Breaks rest → Lexes rest more → Lexes (chars ++ rest) (symbols ++ more)

namespace Spells

variable {chars others : List Char} {symbols more : List Symbol}

theorem lexes (h : Spells chars symbols) : Lexes chars symbols := by
  have hnil := h [] [] Text.stops_nil .nil
  rwa [List.append_nil, List.append_nil] at hnil

protected theorem nil : Spells [] [] :=
  fun _ _ _ hlexes ↦ hlexes

theorem blank (h : Spells chars symbols) : Spells (' ' :: chars) symbols :=
  fun rest more hrest hlexes ↦ .blank (h rest more hrest hlexes)

/-- A mark stands before anything, but a point before a digit would be part of a numeral. -/
theorem mark {c : Char} (hc : c ∈ ['(', ')', ',', '-']) (h : Spells chars symbols) :
    Spells (c :: chars) (.mark c :: symbols) := by
  intro rest more hrest hlexes
  have hnext : Symbol.next? (c :: (chars ++ rest)) = some (.mark c, chars ++ rest) := by
    simp only [List.mem_cons, List.not_mem_nil, or_false] at hc
    rcases hc with rfl | rfl | rfl | rfl <;> rfl
  exact .cons hnext (h rest more hrest hlexes)

/-- A mark or a blank that an operand ends before may follow it. -/
theorem append_cons {c : Char} (hc : c ∈ breakMarks) (h : Spells chars symbols)
    (hmore : Spells (c :: others) more) : Spells (chars ++ c :: others) (symbols ++ more) := by
  intro rest last hrest hlexes
  rw [List.append_assoc, List.append_assoc]
  exact h _ _ (breaks_cons hc) (hmore rest last hrest hlexes)

theorem word {s : String} (h : Symbol.isWord s) : Spells s.toList [.word s] :=
  fun _ _ hrest hlexes ↦ .cons (Symbol.next?_word h (hrest.stops (by decide))) hlexes

theorem quoted (s : String) : Spells (Json.quoted s) [.text s] := by
  intro rest more hrest hlexes
  have hhead : rest.head? ≠ some '"' := fun h ↦ absurd (hrest '"' h) (by decide)
  exact .cons (Symbol.next?_quoted s hhead) hlexes

theorem numeral {n : Guard.NumberText} (h : n.WellFormed) (hminus : n.minus = false)
    (hpoint : n.fraction.isSome || n.exponent.isSome) : Spells n.chars [.numeral n] :=
  fun _ _ hrest hlexes ↦ .cons (Symbol.next?_numeral h hminus hpoint hrest) hlexes

/-- A name of a module and a name in it, with a point between them. -/
theorem dotted {s name : String} (hs : Symbol.isWord s) (hname : Symbol.isWord name) :
    Spells (s.toList ++ '.' :: name.toList) [.word s, .mark '.', .word name] := by
  intro rest more hrest hlexes
  have hword := Symbol.next?_word hname (hrest.stops (by decide))
  have hpoint : Symbol.next? ('.' :: (name.toList ++ rest)) =
      some (.mark '.', name.toList ++ rest) := by
    obtain ⟨c, others, hlist, hstart⟩ := Symbol.exists_cons_of_isWord hname
    have hc : c.isDigit = false := by
      rw [Bool.eq_false_iff]
      intro hdigit
      rw [isNameStart_of_isDigit hdigit] at hstart
      cases hstart
    rw [hlist, List.cons_append, Symbol.next?, if_neg (by decide), if_neg (by decide),
      List.head?_cons, Option.any_some, hc, if_neg (by decide), if_pos (by decide)]
  have hfirst : Symbol.next? (s.toList ++ '.' :: (name.toList ++ rest)) =
      some (.word s, '.' :: (name.toList ++ rest)) :=
    Symbol.next?_word hs (stops_cons.mpr (by decide))
  rw [List.append_assoc]
  exact .cons hfirst (.cons hpoint (.cons hword hlexes))

end Spells

end StateMachine.Python
