import StateMachine.Proofs.Indentation
import StateMachine.Proofs.Python.ConditionReading

/-!
The constants of a class of a generated program, read from its lines: atoms, sets and dictionaries.
A statement is one line, or the lines from one that opens a brace to the one behind its block, and
it binds a constant if it gives a name the text of one (`Display.assignment?`). A class is read if
it has constants, methods and documentation only (`Display.constants?`). Constants that were written
down are read back, whatever characters there are in their texts (`Display.assignment?_set`,
`Display.assignment?_dict`).
-/

set_option autoImplicit false

namespace StateMachine.Python

open Text (Stops stops_cons)

/-- What the name of a constant is bound to. -/
inductive Display where
  | atom (t : Tree)
  | set (elements : List String)
  | dict (entries : List (String × Tree))

namespace Display

/-! ### Symbols -/

/-- The marks of lists, dictionaries and assignments. -/
def marks : List Char :=
  ['[', ']', '\x7b', '\x7d', ':', '=']

/-- The symbol that a text starts with, and the text behind it. -/
def next? : List Char → Option (Symbol × List Char)
  | [] => none
  | c :: rest => if marks.contains c then some (.mark c, rest) else Symbol.next? (c :: rest)

theorem length_lt_of_next? {text rest : List Char} {s : Symbol}
    (h : next? text = some (s, rest)) : rest.length < text.length := by
  unfold next? at h
  split at h
  · cases h
  · split_ifs at h
    · cases h
      exact Nat.lt_succ_self _
    · exact Symbol.length_lt_of_next? h

/-- The row of symbols that a text is. Line breaks count as blanks, as they do inside brackets. -/
def symbols? : List Char → Option (List Symbol)
  | [] => some []
  | c :: rest =>
    if c = ' ' || c = '\n' then symbols? rest
    else
      match _hnext : next? (c :: rest) with
      | none => none
      | some (s, more) => (symbols? more).map (s :: ·)
termination_by text => text.length
decreasing_by
  · exact Nat.lt_succ_self _
  · exact length_lt_of_next? ‹_›

theorem symbols?_nil : symbols? [] = some [] := by
  rw [symbols?]

theorem symbols?_blank {c : Char} (hc : c ∈ [' ', '\n']) (rest : List Char) :
    symbols? (c :: rest) = symbols? rest := by
  rw [symbols?, if_pos (by simpa using hc)]

theorem symbols?_of_next? {c : Char} {rest more : List Char} {s : Symbol}
    (hc : c ∉ [' ', '\n']) (h : next? (c :: rest) = some (s, more)) :
    symbols? (c :: rest) = (symbols? more).map (s :: ·) := by
  rw [symbols?, if_neg (by simpa using hc)]
  split
  · next hnone => simp [hnone] at h
  · next hsome =>
    cases hsome.symm.trans h
    rfl

/-! #### Symbols that were written -/

theorem symbols?_mark {c : Char} (hc : c ∈ marks ++ ['(', ')', ',']) (rest : List Char) :
    symbols? (c :: rest) = (symbols? rest).map (.mark c :: ·) := by
  have hblank : ∀ d ∈ marks ++ ['(', ')', ','], d ∉ [' ', '\n'] := by simp [marks]
  refine symbols?_of_next? (hblank c hc) ?_
  rcases List.mem_append.mp hc with hmark | hbreak
  · exact if_pos (List.contains_iff_mem.mpr hmark)
  · simp only [List.mem_cons, List.not_mem_nil, or_false] at hbreak
    rcases hbreak with rfl | rfl | rfl <;> rfl

theorem symbols?_word {s : String} (hs : Symbol.isWord s) {rest : List Char}
    (hrest : Stops Symbol.isAdherent rest) :
    symbols? (s.toList ++ rest) = (symbols? rest).map (.word s :: ·) := by
  have hother : (' ' :: '\n' :: marks).all fun d ↦ !isNameStart d := by decide
  have hword := Symbol.next?_word hs hrest
  obtain ⟨c, more, hlist, hstart⟩ := Symbol.exists_cons_of_isWord hs
  have hc : c ∉ ' ' :: '\n' :: marks := fun hmem ↦ by
    simpa [hstart] using List.all_eq_true.mp hother c hmem
  simp only [List.mem_cons, not_or] at hc
  rw [hlist, List.cons_append] at hword ⊢
  refine symbols?_of_next? (by simp [hc]) ?_
  rw [next?, if_neg (by simpa using hc.2.2), hword]

theorem symbols?_text (s : String) {rest : List Char} (hrest : rest.head? ≠ some '"') :
    symbols? ((textLiteral s).toList ++ rest) = (symbols? rest).map (.text s :: ·) := by
  rw [textLiteral, String.toList_ofList]
  exact symbols?_of_next? (by decide) (Symbol.next?_quoted s hrest)

/-- In front of a comma or at the end of a text, the characters are one symbol, which stands for the
tree. -/
def IsAtom (chars : List Char) (t : Tree) : Prop :=
  ∃ s : Symbol, s.atom? = some t ∧ ∀ rest, Breaks rest →
    symbols? (chars ++ rest) = (symbols? rest).map (s :: ·)

namespace IsAtom

theorem text (s : String) : IsAtom (textLiteral s).toList (.text s) := by
  refine ⟨.text s, rfl, fun rest hrest ↦ symbols?_text s fun hquote ↦ ?_⟩
  exact absurd (hrest '"' hquote) (by decide)

theorem word {s : String} {t : Tree} (hs : Symbol.isWord s)
    (hatom : (Symbol.word s).atom? = some t) : IsAtom s.toList t :=
  ⟨.word s, hatom, fun _ hrest ↦ symbols?_word hs (hrest.stops (by decide))⟩

theorem name {s : String} (h : isName s) : IsAtom s.toList (.name s) :=
  word (Symbol.isWord_of_isName h) (Symbol.atom?_of_isName h)

end IsAtom

/-! ### Constants -/

/-- Entries up to the closing brace. -/
def entries? : List Symbol → Option (List (String × Tree))
  | [.mark '\x7d'] => some []
  | .text key :: .mark ':' :: s :: .mark ',' :: rest => do
    let value ← s.atom?
    let entries ← entries? rest
    return (key, value) :: entries
  | _ => none

/-- Elements up to the closing brackets. -/
def elements? : List Symbol → Option (List String)
  | [.text s, .mark ']', .mark ')'] => some [s]
  | .text s :: .mark ',' :: rest => (elements? rest).map (s :: ·)
  | _ => none

/-- A dictionary is written with braces, and a set as a call with a list or without argument. -/
def ofSymbols? : List Symbol → Option Display
  | .mark '\x7b' :: rest => (entries? rest).map .dict
  | [.word "frozenset", .mark '(', .mark ')'] => some (.set [])
  | .word "frozenset" :: .mark '(' :: .mark '[' :: rest => (elements? rest).map .set
  | [s] => s.atom?.map .atom
  | _ => none

/-- The name that a statement binds, and the constant that it is bound to. -/
def assignment? (text : List Char) : Option (String × Display) :=
  match symbols? text with
  | some (.word name :: .mark '=' :: value) =>
    if isName name then (ofSymbols? value).map (name, ·) else none
  | _ => none

theorem assignment?_append {name : String} (hname : isName name) {text : List Char}
    {value : List Symbol} (hvalue : symbols? text = some value) :
    assignment? (name.toList ++ ' ' :: '=' :: ' ' :: text) = (ofSymbols? value).map (name, ·) := by
  have hsymbols : symbols? (name.toList ++ ' ' :: '=' :: ' ' :: text) =
      some (.word name :: .mark '=' :: value) := by
    rw [symbols?_word (Symbol.isWord_of_isName hname) (stops_cons.mpr (by decide)),
      symbols?_blank (by decide), symbols?_mark (by decide), symbols?_blank (by decide), hvalue]
    rfl
  rw [assignment?, hsymbols]
  exact if_pos hname

/-! #### Constants that were written -/

theorem assignment?_atom {name : String} (hname : isName name) {chars : List Char} {t : Tree}
    (h : IsAtom chars t) : assignment? (name.toList ++ ' ' :: '=' :: ' ' :: chars) =
      some (name, .atom t) := by
  obtain ⟨s, hatom, hsymbols⟩ := h
  have hvalue : symbols? chars = some [s] := by
    have hend := hsymbols [] Text.stops_nil
    rwa [List.append_nil, symbols?_nil] at hend
  rw [assignment?_append hname hvalue]
  cases s with
  | mark c => cases hatom
  | word s => simp [ofSymbols?, hatom]
  | text s => simp [ofSymbols?, hatom]
  | numeral n => simp [ofSymbols?, hatom]

/-- The elements of a set and the brackets behind them are read back. -/
theorem exists_symbols?_elements {elements : List String} (hne : elements ≠ []) :
    ∃ symbols, symbols? ((", ".intercalate (elements.map textLiteral)).toList ++ [']', ')']) =
      some symbols ∧ elements? symbols = some elements := by
  induction elements with
  | nil => exact absurd rfl hne
  | cons s rest ih =>
    cases rest with
    | nil =>
      refine ⟨[.text s, .mark ']', .mark ')'], ?_, rfl⟩
      rw [List.map_singleton, String.intercalate_singleton, symbols?_text s (by decide),
        symbols?_mark (by decide), symbols?_mark (by decide), symbols?_nil]
      rfl
    | cons next more =>
      obtain ⟨symbols, hsymbols, helements⟩ := ih (List.cons_ne_nil next more)
      refine ⟨.text s :: .mark ',' :: symbols, ?_, ?_⟩
      · have hcomma : ", ".toList = [',', ' '] := rfl
        rw [List.map_cons, String.intercalate_cons_of_ne_nil (by simp), String.toList_append,
          String.toList_append, List.append_assoc, List.append_assoc, hcomma, List.cons_append,
          symbols?_text s (by simp), symbols?_mark (by decide), List.singleton_append,
          symbols?_blank (by decide), hsymbols]
        rfl
      · cases symbols with
        | nil => cases helements
        | cons first others =>
          rw [elements?, helements]
          rfl

theorem assignment?_set {name : String} (hname : isName name) (elements : List String) :
    assignment? ((if elements.isEmpty then name ++ " = frozenset()"
        else name ++ " = frozenset([" ++ ", ".intercalate (elements.map textLiteral) ++
          "])").toList) = some (name, .set elements) := by
  have hword : Symbol.isWord "frozenset" := by decide
  cases elements with
  | nil =>
    have hvalue : symbols? ("frozenset".toList ++ ['(', ')']) =
        some [.word "frozenset", .mark '(', .mark ')'] := by
      rw [symbols?_word hword (stops_cons.mpr (by decide)), symbols?_mark (by decide),
        symbols?_mark (by decide), symbols?_nil]
      rfl
    have hread : _ = some (name, Display.set []) := assignment?_append hname hvalue
    simpa using hread
  | cons s rest =>
    obtain ⟨symbols, hsymbols, helements⟩ := exists_symbols?_elements (List.cons_ne_nil s rest)
    have hvalue : symbols? ("frozenset".toList ++ '(' :: '[' ::
        ((", ".intercalate ((s :: rest).map textLiteral)).toList ++ [']', ')'])) =
          some (.word "frozenset" :: .mark '(' :: .mark '[' :: symbols) := by
      rw [symbols?_word hword (stops_cons.mpr (by decide)), symbols?_mark (by decide),
        symbols?_mark (by decide), hsymbols]
      rfl
    have hread := assignment?_append hname hvalue
    rw [ofSymbols?, helements] at hread
    simpa using hread

/-! #### Dictionaries -/

/-- The lines of some pieces, one behind the other. -/
def lines (code : List Code) : List Char :=
  (Code.allRows 0 code).flatMap fun r ↦ r.text ++ ['\n']

section Entries

variable {α : Type} {key text : α → String} {tree : α → Tree} {xs : List α}

/-- The lines of entries, each with a comma behind it. -/
def entryLines (key text : α → String) (xs : List α) : List Code :=
  xs.map fun x ↦ .line (textLiteral (key x) ++ ": " ++ text x ++ ",")

def entryChars (key text : α → String) (x : α) : List Char :=
  (textLiteral (key x)).toList ++ ':' :: ' ' :: ((text x).toList ++ [',', '\n'])

/-- The lines of a dictionary, one behind the other. -/
theorem lines_dict (name : String) :
    lines [.block (name ++ " = \x7b") (entryLines key text xs), .line "\x7d"] =
      name.toList ++ ' ' :: '=' :: ' ' :: '\x7b' :: '\n' ::
        (xs.flatMap (entryChars key text) ++ ['\x7d', '\n']) := by
  have hentries : (Code.allRows 1 (entryLines key text xs)).flatMap (fun r ↦ r.text ++ ['\n']) =
      xs.flatMap (entryChars key text) := by
    induction xs with
    | nil => rfl
    | cons x rest ih =>
      rw [entryLines, List.map_cons, Code.allRows, List.flatMap_append, List.flatMap_cons, ← ih]
      simp [Code.rows, entryLines, entryChars]
  rw [← hentries]
  simp [lines, Code.allRows, Code.rows]

variable (key) in
/-- The entries of a dictionary and the brace behind them are read back. -/
theorem exists_symbols?_entries (h : ∀ x ∈ xs, IsAtom (text x).toList (tree x)) :
    ∃ symbols, symbols? (xs.flatMap (entryChars key text) ++ ['\x7d', '\n']) = some symbols ∧
      entries? symbols = some (xs.map fun x ↦ (key x, tree x)) := by
  induction xs with
  | nil =>
    refine ⟨[.mark '\x7d'], ?_, rfl⟩
    rw [List.flatMap_nil, List.nil_append, symbols?_mark (by decide), symbols?_blank (by decide),
      symbols?_nil]
    rfl
  | cons x rest ih =>
    obtain ⟨⟨s, hatom, hvalue⟩, hrest⟩ := List.forall_mem_cons.mp h
    obtain ⟨symbols, hsymbols, hentries⟩ := ih hrest
    refine ⟨.text (key x) :: .mark ':' :: s :: .mark ',' :: symbols, ?_, ?_⟩
    · simp only [List.flatMap_cons, entryChars, List.append_assoc, List.cons_append,
        List.nil_append]
      rw [symbols?_text (key x) (by simp), symbols?_mark (by decide), symbols?_blank (by decide),
        hvalue _ (breaks_cons (by decide)), symbols?_mark (by decide), symbols?_blank (by decide),
        hsymbols]
      rfl
    · rw [entries?, hatom, hentries]
      rfl

theorem assignment?_dict {name : String} (hname : isName name)
    (h : ∀ x ∈ xs, IsAtom (text x).toList (tree x)) :
    assignment? (lines [.block (name ++ " = \x7b") (entryLines key text xs), .line "\x7d"]) =
      some (name, .dict (xs.map fun x ↦ (key x, tree x))) := by
  obtain ⟨symbols, hsymbols, hentries⟩ := exists_symbols?_entries key h
  have hvalue : symbols? ('\x7b' :: '\n' :: (xs.flatMap (entryChars key text) ++ ['\x7d', '\n'])) =
      some (.mark '\x7b' :: symbols) := by
    rw [symbols?_mark (by decide), symbols?_blank (by decide), hsymbols]
    rfl
  rw [lines_dict, assignment?_append hname hvalue, ofSymbols?, hentries]
  rfl

end Entries

/-! ### Classes -/

/-- Does the line hold a documentation text? -/
def isDocstring (line : String) : Bool :=
  ['"', '"', '"'].isPrefixOf line.toList

/-- Does the line open a function? -/
def opensFunction (header : String) : Bool :=
  "def ".toList.isPrefixOf header.toList

/-- The constants that the statements of a class bind, one after the other. Other than constants a
class has methods and documentation only. -/
def constants? : List Code → Option (List (String × Display))
  | [] => some []
  | .blank :: rest => constants? rest
  | .line text :: rest =>
    match assignment? text.toList with
    | some constant => (constants? rest).map (constant :: ·)
    | none => if isDocstring text then constants? rest else none
  | .block header body :: .line close :: rest =>
    match assignment? (lines [.block header body, .line close]) with
    | some constant => (constants? rest).map (constant :: ·)
    | none => if opensFunction header then constants? (.line close :: rest) else none
  | .block header _ :: rest => if opensFunction header then constants? rest else none

theorem constants?_blank (rest : List Code) : constants? (.blank :: rest) = constants? rest :=
  rfl

theorem constants?_line {text : String} {constant : String × Display}
    (h : assignment? text.toList = some constant) (rest : List Code) :
    constants? (.line text :: rest) = (constants? rest).map (constant :: ·) := by
  rw [constants?, h]

theorem constants?_dict {α : Type} {key text : α → String} {tree : α → Tree} {xs : List α}
    {name : String} (hname : isName name) (h : ∀ x ∈ xs, IsAtom (text x).toList (tree x))
    (rest : List Code) :
    constants? (.block (name ++ " = \x7b") (entryLines key text xs) :: .line "\x7d" :: rest) =
      (constants? rest).map ((name, .dict (xs.map fun x ↦ (key x, tree x))) :: ·) := by
  rw [constants?, assignment?_dict hname h]

/-- A documentation text is no constant: it starts with no symbol. -/
theorem constants?_docstring {line : String} (h : isDocstring line) (rest : List Code) :
    constants? (.line line :: rest) = constants? rest := by
  obtain ⟨text, htext⟩ := List.isPrefixOf_iff_prefix.mp h
  have hnone : next? ('"' :: '"' :: '"' :: text) = none := by
    rw [next?, if_neg (by decide)]
    rfl
  have hsymbols : symbols? line.toList = none := by
    rw [← htext, List.cons_append, symbols?, if_neg (by decide)]
    split
    · rfl
    · next hsome => exact absurd (hnone.symm.trans hsome) (by simp)
  rw [constants?, assignment?, hsymbols]
  exact if_pos h

end Display

end StateMachine.Python
