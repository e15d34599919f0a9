import Mathlib.Data.List.Chain
import StateMachine.CodeWriter
import StateMachine.Proofs.Text.Split

/-!
The layout of written code. Code is well formed if each of its texts is one line that starts with no
blank, and if a text ends in a colon or an opening brace exactly where it is the header of a block,
whose body then starts with a line. Such code is written as rows at levels (`Code.toList_text`), and
a row is one level deeper than the row before it if that one opens a block, and no deeper otherwise
(`Code.nested_rows`). So the lines of the text are indented as their blocks demand
(`Code.isIndented_text`).
-/

set_option autoImplicit false

namespace StateMachine.Code

/-! ### Well-formed code -/

/-- Nothing in the text ends a line. -/
def isUnbroken (text : List Char) : Bool :=
  text.all fun c ↦ c ≠ '\n' && c ≠ '\r'

/-- The text is one line, and it starts with something else than a blank. -/
def isLine (text : List Char) : Bool :=
  text.head?.any (· ≠ ' ') && isUnbroken text

theorem isUnbroken_iff {text : List Char} :
    isUnbroken text ↔ '\n' ∉ text ∧ '\r' ∉ text := by
  simp only [isUnbroken, List.all_eq_true, Bool.and_eq_true, decide_eq_true_eq]
  constructor
  · exact fun h ↦ ⟨fun hmem ↦ (h _ hmem).1 rfl, fun hmem ↦ (h _ hmem).2 rfl⟩
  · rintro ⟨hnewline, hreturn⟩ c hc
    exact ⟨fun heq ↦ hnewline (heq ▸ hc), fun heq ↦ hreturn (heq ▸ hc)⟩

/-- Does the line open a block? -/
def opens (text : List Char) : Bool :=
  text.getLast?.any fun c ↦ c = ':' || c = '\x7b'

def isBlank : Code → Bool
  | .blank => true
  | _ => false

mutual

/-- The texts of lines and headers are lines, and exactly headers open a block. A body starts with
a line. -/
def isWellFormed : Code → Bool
  | .line text => isLine text.toList && !opens text.toList
  | .blank => true
  | .block header body =>
    isLine header.toList && opens header.toList && body.head?.any (!·.isBlank) &&
      areWellFormed body

def areWellFormed : List Code → Bool
  | [] => true
  | code :: rest => code.isWellFormed && areWellFormed rest

end

mutual

/-- The texts that are given to the writer as lines. -/
def texts : Code → List String
  | .line text => [text]
  | .blank => []
  | .block header body => header :: allTexts body

def allTexts : List Code → List String
  | [] => []
  | code :: rest => code.texts ++ allTexts rest

end

theorem areWellFormed_iff {code : List Code} :
    areWellFormed code ↔ ∀ c ∈ code, c.isWellFormed := by
  induction code with
  | nil => simp [areWellFormed]
  | cons c rest ih => simp [areWellFormed, ih]

mutual

/-- In well-formed code every text that is written is a line. -/
theorem isLine_of_mem_texts (c : Code) (h : c.isWellFormed) :
    ∀ text ∈ c.texts, isLine text.toList := by
  cases c with
  | line text =>
    simp only [isWellFormed, Bool.and_eq_true] at h
    simpa [texts] using h.1
  | blank => exact List.forall_mem_nil _
  | block header body =>
    simp only [isWellFormed, Bool.and_eq_true] at h
    exact List.forall_mem_cons.mpr ⟨h.1.1.1, isLine_of_mem_allTexts body h.2⟩

theorem isLine_of_mem_allTexts (code : List Code) (h : areWellFormed code) :
    ∀ text ∈ allTexts code, isLine text.toList := by
  cases code with
  | nil => exact List.forall_mem_nil _
  | cons c rest =>
    simp only [areWellFormed, Bool.and_eq_true] at h
    exact List.forall_mem_append.mpr
      ⟨isLine_of_mem_texts c h.1, isLine_of_mem_allTexts rest h.2⟩

end

/-! ### Rows -/

/-- A line at its level; a blank line has no text. -/
structure Row where
  level : Nat
  text : List Char

namespace Row

def isBlank (r : Row) : Bool :=
  r.text.isEmpty

/-- The line as it is written. -/
def chars (width : Nat) (r : Row) : List Char :=
  if r.isBlank then [] else List.replicate (r.level * width) ' ' ++ r.text

/-- A row may come behind another: one level deeper if that one opens a block, else no deeper. -/
def MayFollow (a b : Row) : Prop :=
  if opens a.text then b.isBlank = false ∧ b.level = a.level + 1 else b.level ≤ a.level

end Row

mutual

/-- The rows of some code at a level. -/
def rows (level : Nat) : Code → List Row
  | .line text => [⟨level, text.toList⟩]
  | .blank => [⟨level, []⟩]
  | .block header body => ⟨level, header.toList⟩ :: allRows (level + 1) body

def allRows (level : Nat) : List Code → List Row
  | [] => []
  | code :: rest => code.rows level ++ allRows level rest

end

/-- The text of rows, each with a line break behind it. -/
def rowsText (width : Nat) (rows : List Row) : List Char :=
  rows.flatMap fun r ↦ r.chars width ++ ['\n']

theorem rowsText_append (width : Nat) (rows more : List Row) :
    rowsText width (rows ++ more) = rowsText width rows ++ rowsText width more :=
  List.flatMap_append

theorem toList_line (w : CodeWriter) (text : String) :
    (w.line text).text.toList = w.text.toList ++ rowsText w.width [⟨w.level, text.toList⟩] := by
  simp only [CodeWriter.line, CodeWriter.indentation, rowsText, Row.chars, Row.isBlank]
  by_cases hempty : text.isEmpty
  · simp [String.isEmpty_iff.mp hempty]
  · have hne : text.toList ≠ [] := by
      rw [ne_eq, String.toList_eq_nil_iff]
      exact fun heq ↦ hempty (String.isEmpty_iff.mpr heq)
    simp [hempty, hne, List.isEmpty_iff]

mutual

/-- Writing code adds its rows to the text; the level is as before. -/
theorem write_eq (w : CodeWriter) (c : Code) :
    (write w c).width = w.width ∧ (write w c).level = w.level ∧
      (write w c).text.toList = w.text.toList ++ rowsText w.width (c.rows w.level) := by
  cases c with
  | line text => exact ⟨rfl, rfl, toList_line w text⟩
  | blank =>
    exact ⟨rfl, rfl, by simp [write, CodeWriter.blank, rows, rowsText, Row.chars, Row.isBlank]⟩
  | block header body =>
    obtain ⟨hwidth, hlevel, htext⟩ := writeAll_eq (w.line header).indent body
    refine ⟨hwidth, ?_, ?_⟩
    · rw [write, CodeWriter.block, CodeWriter.dedent, hlevel]
      rfl
    · have hheader : (w.line header).indent.text.toList =
          w.text.toList ++ rowsText w.width [⟨w.level, header.toList⟩] := toList_line w header
      rw [write, CodeWriter.block, CodeWriter.dedent, htext, hheader, List.append_assoc]
      exact congrArg (w.text.toList ++ ·) (rowsText_append w.width _ _).symm

theorem writeAll_eq (w : CodeWriter) (code : List Code) :
    (writeAll w code).width = w.width ∧ (writeAll w code).level = w.level ∧
      (writeAll w code).text.toList = w.text.toList ++ rowsText w.width (allRows w.level code) := by
  cases code with
  | nil => exact ⟨rfl, rfl, by simp [writeAll, allRows, rowsText]⟩
  | cons c rest =>
    obtain ⟨hwidth, hlevel, htext⟩ := write_eq w c
    obtain ⟨hrestWidth, hrestLevel, hrestText⟩ := writeAll_eq (write w c) rest
    rw [writeAll, allRows, rowsText_append]
    refine ⟨hrestWidth.trans hwidth, hrestLevel.trans hlevel, ?_⟩
    rw [hrestText, htext, hwidth, hlevel, List.append_assoc]

end

/-- The text of some code is that of its rows. -/
theorem toList_text (width : Nat) (code : List Code) :
    (text width code).toList = rowsText width (allRows 0 code) :=
  (writeAll_eq (.ofWidth width) code).2.2

/-! ### Levels -/

/-- Rows that may follow one another, from a level on and not above it. The last one opens no
block. -/
structure Nested (level : Nat) (rows : List Row) : Prop where
  start : ∀ r ∈ rows.head?, r.level = level
  deep : ∀ r ∈ rows, level ≤ r.level
  chain : rows.IsChain Row.MayFollow
  close : ∀ r ∈ rows.getLast?, opens r.text = false

namespace Nested

variable {level : Nat} {rows more : List Row}

theorem nil (level : Nat) : Nested level [] :=
  ⟨nofun, List.forall_mem_nil _, .nil, nofun⟩

theorem singleton {text : List Char} (h : opens text = false) : Nested level [⟨level, text⟩] :=
  ⟨by simp, by simp, .singleton _, by simpa using h⟩

theorem append (h : Nested level rows) (hmore : Nested level more) :
    Nested level (rows ++ more) where
  start := by
    cases rows with
    | nil => exact hmore.start
    | cons first rest => exact h.start
  deep := List.forall_mem_append.mpr ⟨h.deep, hmore.deep⟩
  chain := by
    refine List.isChain_append.mpr ⟨h.chain, hmore.chain, fun a ha b hb ↦ ?_⟩
    rw [Row.MayFollow, h.close a ha, if_neg Bool.false_ne_true, hmore.start b hb]
    exact h.deep a (List.mem_of_getLast? ha)
  close := by
    cases more with
    | nil =>
      rw [List.append_nil]
      exact h.close
    | cons next others =>
      rw [List.getLast?_append_cons]
      exact hmore.close

/-- A header and what is written one level deeper. -/
theorem block {header : List Char} {first : Row} (hopens : opens header)
    (hfirst : first.isBlank = false) (h : Nested (level + 1) (first :: rows)) :
    Nested level (⟨level, header⟩ :: first :: rows) where
  start := by simp
  deep := List.forall_mem_cons.mpr
    ⟨Nat.le_refl level, fun r hr ↦ Nat.le_of_succ_le (h.deep r hr)⟩
  chain := by
    refine List.isChain_cons_cons.mpr ⟨?_, h.chain⟩
    rw [Row.MayFollow, hopens, if_pos rfl]
    exact ⟨hfirst, h.start first rfl⟩
  close := h.close

end Nested

/-- A written line starts with a row that is not blank. -/
theorem exists_rows_eq_cons {c : Code} (h : c.isWellFormed) (hc : c.isBlank = false)
    (level : Nat) : ∃ first rest, c.rows level = first :: rest ∧ first.isBlank = false := by
  have hne {text : List Char} (hline : isLine text) : text.isEmpty = false := by
    cases text with
    | nil => cases hline
    | cons d rest => rfl
  cases c with
  | line text =>
    simp only [isWellFormed, Bool.and_eq_true] at h
    exact ⟨_, _, rfl, hne h.1⟩
  | blank => cases hc
  | block header body =>
    simp only [isWellFormed, Bool.and_eq_true] at h
    exact ⟨_, _, rfl, hne h.1.1.1⟩

mutual

/-- The rows of well-formed code stand at their levels. -/
theorem nested_rows (level : Nat) (c : Code) (h : c.isWellFormed) :
    Nested level (c.rows level) := by
  cases c with
  | line text =>
    simp only [isWellFormed, Bool.and_eq_true, Bool.not_eq_true'] at h
    exact .singleton h.2
  | blank => exact .singleton rfl
  | block header body =>
    simp only [isWellFormed, Bool.and_eq_true] at h
    obtain ⟨⟨⟨-, hopens⟩, hfirst⟩, hbody⟩ := h
    have hnested := nested_allRows (level + 1) body hbody
    cases body with
    | nil => cases hfirst
    | cons c others =>
      have hc : c.isBlank = false := by simpa using hfirst
      obtain ⟨first, rest, hrows, hblank⟩ :=
        exists_rows_eq_cons (areWellFormed_iff.mp hbody c List.mem_cons_self) hc (level + 1)
      rw [allRows, hrows, List.cons_append] at hnested
      rw [rows, allRows, hrows, List.cons_append]
      exact hnested.block hopens hblank

theorem nested_allRows (level : Nat) (code : List Code) (h : areWellFormed code) :
    Nested level (allRows level code) := by
  cases code with
  | nil => exact .nil level
  | cons c rest =>
    simp only [areWellFormed, Bool.and_eq_true] at h
    exact (nested_rows level c h.1).append (nested_allRows level rest h.2)

end

mutual

/-- Rows that are not blank hold what is given to the writer. -/
theorem exists_text_of_mem_rows {level : Nat} {r : Row} (c : Code) (h : r ∈ c.rows level)
    (hr : r.isBlank = false) : ∃ text ∈ c.texts, r.text = text.toList := by
  cases c with
  | line text =>
    rw [List.mem_singleton.mp h]
    exact ⟨text, List.mem_singleton_self text, rfl⟩
  | blank =>
    rw [List.mem_singleton.mp h] at hr
    cases hr
  | block header body =>
    rcases List.mem_cons.mp h with rfl | hbody
    · exact ⟨header, List.mem_cons_self, rfl⟩
    · obtain ⟨text, htext, heq⟩ := exists_text_of_mem_allRows body hbody hr
      exact ⟨text, List.mem_cons_of_mem header htext, heq⟩

theorem exists_text_of_mem_allRows {level : Nat} {r : Row} (code : List Code)
    (h : r ∈ allRows level code) (hr : r.isBlank = false) :
    ∃ text ∈ allTexts code, r.text = text.toList := by
  cases code with
  | nil => cases h
  | cons c rest =>
    rcases List.mem_append.mp h with hfirst | hrest
    · obtain ⟨text, htext, heq⟩ := exists_text_of_mem_rows c hfirst hr
      exact ⟨text, List.mem_append_left _ htext, heq⟩
    · obtain ⟨text, htext, heq⟩ := exists_text_of_mem_allRows rest hrest hr
      exact ⟨text, List.mem_append_right _ htext, heq⟩

end

/-! ### Lines -/

/-- How far a line is indented. -/
def indentation (l : List Char) : Nat :=
  (l.takeWhile (· = ' ')).length

/-- The lines are indented by whole levels of this width. The next line goes one level deeper
exactly behind a line that opens a block, and such a line has its next line right behind it; all
other lines stand no deeper than the one before them. Blank lines are empty. -/
structure IsIndented (width : Nat) (lines : List (List Char)) : Prop where
  clean : ∀ l ∈ lines, '\n' ∉ l ∧ '\r' ∉ l
  blank : ∀ l ∈ lines, (∀ c ∈ l, c = ' ') → l = []
  whole : ∀ l ∈ lines, width ∣ indentation l
  start : ∀ l ∈ (lines.filter (!·.isEmpty)).head?, indentation l = 0
  levels : (lines.filter (!·.isEmpty)).IsChain fun a b ↦
    if opens a then indentation b = indentation a + width else indentation b ≤ indentation a
  bodies {before after : List (List Char)} {a : List Char} (h : lines = before ++ a :: after)
    (hopens : opens a) :
    ∃ b more, after = b :: more ∧ b ≠ [] ∧ indentation b = indentation a + width

namespace Row

variable {width : Nat} {a b r : Row} {rows : List Row}

/-- The row is blank, or its text is a line. -/
def IsClean (r : Row) : Prop :=
  r.isBlank = false → isLine r.text

theorem opens_of_isBlank (h : r.isBlank) : opens r.text = false := by
  rw [List.isEmpty_iff.mp h]
  rfl

theorem isBlank_of_opens (h : opens r.text) : r.isBlank = false :=
  Bool.eq_false_iff.mpr fun hblank ↦ by simp [opens_of_isBlank hblank] at h

theorem chars_of_isBlank (h : r.isBlank) : r.chars width = [] :=
  if_pos h

theorem chars_of_isBlank_eq_false (h : r.isBlank = false) :
    r.chars width = List.replicate (r.level * width) ' ' ++ r.text := by
  rw [chars, h, if_neg Bool.false_ne_true]

theorem isEmpty_chars (width : Nat) (r : Row) : (r.chars width).isEmpty = r.isBlank := by
  cases h : r.isBlank with
  | true => rw [chars_of_isBlank h, List.isEmpty_nil]
  | false =>
    rw [chars_of_isBlank_eq_false h, List.isEmpty_eq_false_iff]
    exact List.append_ne_nil_of_right_ne_nil _ (List.isEmpty_eq_false_iff.mp h)

theorem opens_chars (width : Nat) (r : Row) : opens (r.chars width) = opens r.text := by
  cases h : r.isBlank with
  | true => rw [chars_of_isBlank h, List.isEmpty_iff.mp h]
  | false =>
    have hne : r.text ≠ [] := by
      rw [ne_eq, ← List.isEmpty_iff]
      exact Bool.eq_false_iff.mp h
    rw [chars_of_isBlank_eq_false h, opens, List.getLast?_append_of_ne_nil _ hne, opens]

/-- The first character of a line that is not blank is no blank. -/
theorem IsClean.exists_text_eq_cons (h : r.IsClean) (hr : r.isBlank = false) :
    ∃ c rest, r.text = c :: rest ∧ c ≠ ' ' := by
  have hline := h hr
  rw [isLine, Bool.and_eq_true] at hline
  cases htext : r.text with
  | nil =>
    rw [htext] at hline
    cases hline.1
  | cons c rest =>
    rw [htext] at hline
    exact ⟨c, rest, rfl, by simpa using hline.1⟩

theorem IsClean.notMem_chars (h : r.IsClean) : '\n' ∉ r.chars width ∧ '\r' ∉ r.chars width := by
  cases hr : r.isBlank with
  | true =>
    rw [chars_of_isBlank hr]
    exact ⟨List.not_mem_nil, List.not_mem_nil⟩
  | false =>
    have hline := h hr
    obtain ⟨hnewline, hreturn⟩ := isUnbroken_iff.mp (Bool.and_eq_true_iff.mp hline).2
    rw [chars_of_isBlank_eq_false hr]
    simp only [List.mem_append, List.mem_replicate, not_or, not_and]
    exact ⟨⟨fun _ ↦ by decide, hnewline⟩, ⟨fun _ ↦ by decide, hreturn⟩⟩

theorem IsClean.indentation_chars (h : r.IsClean) (hr : r.isBlank = false) :
    indentation (r.chars width) = r.level * width := by
  obtain ⟨c, rest, htext, hc⟩ := h.exists_text_eq_cons hr
  have hblanks : ∀ d ∈ List.replicate (r.level * width) ' ', decide (d = ' ') := fun d hd ↦
    decide_eq_true (List.eq_of_mem_replicate hd)
  rw [chars_of_isBlank_eq_false hr, indentation, List.takeWhile_append_of_pos hblanks, htext,
    List.takeWhile_cons_of_neg (by simpa using hc), List.append_nil, List.length_replicate]

/-- Rows with blank ones between them may follow one another too. -/
theorem MayFollow.trans (hab : a.MayFollow b) (hb : b.isBlank) (hbr : b.MayFollow r) :
    a.MayFollow r := by
  rw [MayFollow, opens_of_isBlank hb, if_neg Bool.false_ne_true] at hbr
  unfold MayFollow at hab ⊢
  split
  · next hopens =>
    rw [if_pos hopens] at hab
    exact absurd (hb.symm.trans hab.1) (by decide)
  · next hopens =>
    rw [if_neg hopens] at hab
    exact Nat.le_trans hbr hab

theorem mayFollow_of_mem_head? (h : (a :: rows).IsChain MayFollow) :
    ∀ r ∈ (rows.filter (!·.isBlank)).head?, a.MayFollow r := by
  induction rows generalizing a with
  | nil => nofun
  | cons b rest ih =>
    obtain ⟨hab, hrest⟩ := List.isChain_cons_cons.mp h
    intro r hr
    cases hb : b.isBlank with
    | true =>
      rw [List.filter_cons_of_neg (by simp [hb])] at hr
      exact hab.trans hb (ih hrest r hr)
    | false =>
      rw [List.filter_cons_of_pos (by simp [hb]), List.head?_cons, Option.mem_some_iff] at hr
      rw [← hr]
      exact hab

/-- Without the blank rows the others may follow one another as well. -/
theorem isChain_filter (h : rows.IsChain MayFollow) :
    (rows.filter (!·.isBlank)).IsChain MayFollow := by
  induction rows with
  | nil => exact .nil
  | cons r rest ih =>
    have hrest := ih (List.isChain_cons.mp h).2
    rw [List.filter_cons]
    split
    · exact List.isChain_cons.mpr ⟨mayFollow_of_mem_head? h, hrest⟩
    · exact hrest

end Row

variable {code : List Code} {width : Nat}

/-- The lines of some code are its rows, with an empty line at the end. -/
theorem parts_rowsText {rows : List Row} (h : ∀ r ∈ rows, r.IsClean) :
    Text.parts '\n' (rowsText width rows) = rows.map (Row.chars width) ++ [[]] := by
  induction rows with
  | nil => rfl
  | cons r rest ih =>
    obtain ⟨hr, hrest⟩ := List.forall_mem_cons.mp h
    have hsplit : rowsText width (r :: rest) = r.chars width ++ '\n' :: rowsText width rest := by
      simp [rowsText]
    rw [hsplit, Text.parts_append hr.notMem_chars.1, ih hrest]
    rfl

theorem isClean_of_mem_allRows {level : Nat} {r : Row} (hcode : areWellFormed code)
    (h : r ∈ allRows level code) : r.IsClean := by
  intro hr
  obtain ⟨text, htext, heq⟩ := exists_text_of_mem_allRows code h hr
  rw [heq]
  exact isLine_of_mem_allTexts code hcode text htext

/-- Lines made of rows that may follow one another are indented as the rows say. -/
theorem isIndented_rows {rows : List Row} (h : Nested 0 rows) (hclean : ∀ r ∈ rows, r.IsClean)
    (width : Nat) : IsIndented width (rows.map (Row.chars width) ++ [[]]) := by
  have hmem {l : List Char} (hl : l ∈ rows.map (Row.chars width) ++ [[]]) :
      l = [] ∨ ∃ r ∈ rows, r.isBlank = false ∧ r.chars width = l := by
    rcases List.mem_append.mp hl with hrow | hlast
    · obtain ⟨r, hr, rfl⟩ := List.mem_map.mp hrow
      cases hblank : r.isBlank with
      | true => exact Or.inl (Row.chars_of_isBlank hblank)
      | false => exact Or.inr ⟨r, hr, hblank, rfl⟩
    · exact Or.inl (List.mem_singleton.mp hlast)
  have hfilter : (rows.map (Row.chars width) ++ [[]]).filter (!·.isEmpty) =
      (rows.filter (!·.isBlank)).map (Row.chars width) := by
    simp [List.filter_map, Function.comp_def, Row.isEmpty_chars]
  have hwritten {r : Row} (hr : r ∈ rows.filter (!·.isBlank)) :
      indentation (r.chars width) = r.level * width := by
    obtain ⟨hrow, hblank⟩ := List.mem_filter.mp hr
    exact (hclean r hrow).indentation_chars (by simpa using hblank)
  constructor
  case clean =>
    intro l hl
    rcases hmem hl with rfl | ⟨r, hr, -, rfl⟩
    · exact ⟨List.not_mem_nil, List.not_mem_nil⟩
    · exact (hclean r hr).notMem_chars
  case blank =>
    intro l hl hblanks
    rcases hmem hl with rfl | ⟨r, hr, hblank, rfl⟩
    · rfl
    · obtain ⟨c, rest, htext, hc⟩ := (hclean r hr).exists_text_eq_cons hblank
      refine absurd (hblanks c ?_) hc
      rw [Row.chars_of_isBlank_eq_false hblank, htext]
      exact List.mem_append_right _ List.mem_cons_self
  case whole =>
    intro l hl
    rcases hmem hl with rfl | ⟨r, hr, hblank, rfl⟩
    · exact Nat.dvd_zero width
    · rw [(hclean r hr).indentation_chars hblank]
      exact Nat.dvd_mul_left width r.level
  case start =>
    rw [hfilter, List.head?_map]
    intro l hl
    obtain ⟨r, hr, rfl⟩ := Option.map_eq_some_iff.mp hl
    -- The first row stands as if an empty one at the outermost level were in front of it.
    have hchain : ((⟨0, []⟩ : Row) :: rows).IsChain Row.MayFollow :=
      List.isChain_cons.mpr ⟨fun first hfirst ↦ (h.start first hfirst).le, h.chain⟩
    have hlevel : r.level ≤ 0 := Row.mayFollow_of_mem_head? hchain r hr
    rw [hwritten (List.mem_of_head? hr), Nat.le_zero.mp hlevel, Nat.zero_mul]
  case levels =>
    rw [hfilter, List.isChain_map]
    refine (Row.isChain_filter h.chain).imp_of_mem_imp fun a b ha hb hab ↦ ?_
    rw [Row.opens_chars, hwritten ha, hwritten hb]
    unfold Row.MayFollow at hab
    split
    · next hopens =>
      rw [if_pos hopens] at hab
      rw [hab.2, Nat.succ_mul]
    · next hopens =>
      rw [if_neg hopens] at hab
      exact Nat.mul_le_mul_right width hab
  case bodies =>
    intro before after a hsplit hopens
    have hlines : (rows.map (Row.chars width) ++ [[]]).IsChain fun a b ↦
        opens a → b ≠ [] ∧ indentation b = indentation a + width := by
      refine List.isChain_append.mpr ⟨?_, .singleton [], fun l hl _ _ hlast ↦ ?_⟩
      · refine (List.isChain_map _).mpr (h.chain.imp_of_mem_imp fun a b ha hb hab hopens ↦ ?_)
        rw [Row.opens_chars] at hopens
        rw [Row.MayFollow, if_pos hopens] at hab
        obtain ⟨hblank, hlevel⟩ := hab
        rw [(hclean a ha).indentation_chars (Row.isBlank_of_opens hopens),
          (hclean b hb).indentation_chars hblank, hlevel, Nat.succ_mul]
        exact ⟨List.isEmpty_eq_false_iff.mp ((Row.isEmpty_chars width b).trans hblank), rfl⟩
      · rw [List.getLast?_map, Option.mem_def, Option.map_eq_some_iff] at hl
        obtain ⟨r, hr, rfl⟩ := hl
        rw [Row.opens_chars, h.close r hr] at hlast
        cases hlast
    cases after with
    | nil =>
      obtain ⟨-, hlast⟩ := List.append_inj' hsplit rfl
      cases hlast
      cases hopens
    | cons b more =>
      rw [hsplit] at hlines
      have hab := (List.isChain_append_cons_cons.mp hlines).2.1 hopens
      exact ⟨b, more, rfl, hab⟩

/-- Well-formed code is written on lines that are indented as its blocks demand. -/
theorem isIndented_text (h : areWellFormed code) (width : Nat) :
    IsIndented width (Text.parts '\n' (text width code).toList) := by
  have hclean : ∀ r ∈ allRows 0 code, r.IsClean := fun r hr ↦ isClean_of_mem_allRows h hr
  rw [toList_text, parts_rowsText hclean]
  exact isIndented_rows (nested_allRows 0 code h) hclean width

end StateMachine.Code
