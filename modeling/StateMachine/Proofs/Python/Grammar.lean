import StateMachine.Proofs.Python.Symbol

/-!
The grammar of expressions of Python programs, as far as conditions use it. `or` binds weakest, then
`and`, then `not`, then the sign of a number, then attributes and calls; operators of one kind group
to the left (`Derives`). A reader that goes from left to right and looks one symbol ahead finds what
the grammar derives (`Derives.leads`) and is never free to choose (`Reads.unique`), so a row of
symbols has one tree at most (`Derives.unique`), and so has a text (`ReadAs.unique`).
-/

set_option autoImplicit false

namespace StateMachine.Python

/-- The operators between two conditions. -/
inductive Connective where
  | or
  | and

namespace Connective

def word : Connective → String
  | or => "or"
  | and => "and"

end Connective

/-- The tree of an expression. -/
inductive Tree where
  | name (s : String)
  | nothing
  | truth (b : Bool)
  | text (s : String)
  | numeral (n : Guard.NumberText)
  | negative (operand : Tree)
  | member (owner : Tree) (name : String)
  | call (function : Tree) (arguments : List Tree)
  | negation (operand : Tree)
  | connected (c : Connective) (left right : Tree)

/-! ### The grammar -/

/-- What a symbol stands for on its own. -/
def Symbol.atom? : Symbol → Option Tree
  | .word "None" => some .nothing
  | .word "True" => some (.truth true)
  | .word "False" => some (.truth false)
  | .word s => if isName s then some (.name s) else none
  | .text s => some (.text s)
  | .numeral n => some (.numeral n)
  | .mark _ => none

/-- How tightly the outermost part of an expression binds, at least. -/
inductive Level where
  /-- Operands with an operator between any two. -/
  | chain (c : Connective)
  | inversion
  | signed
  | primary
  /-- A call without its closing parenthesis. -/
  | opened

/-- The level of the operands of an operator. -/
def Connective.operand : Connective → Level
  | or => .chain and
  | and => .inversion

/-- An expression of any kind. -/
abbrev Level.expression : Level :=
  .chain .or

/-- At a level of the grammar, symbols are derived as a tree. -/
inductive Derives : Level → List Symbol → Tree → Prop
  | operand {c : Connective} {ts : List Symbol} {t : Tree} (h : Derives c.operand ts t) :
    Derives (.chain c) ts t
  | connected {c : Connective} {ts us : List Symbol} {t u : Tree} (ht : Derives (.chain c) ts t)
    (hu : Derives c.operand us u) :
    Derives (.chain c) (ts ++ .word c.word :: us) (.connected c t u)
  | positive {ts : List Symbol} {t : Tree} (h : Derives .signed ts t) : Derives .inversion ts t
  | negation {ts : List Symbol} {t : Tree} (h : Derives .inversion ts t) :
    Derives .inversion (.word "not" :: ts) (.negation t)
  | unsigned {ts : List Symbol} {t : Tree} (h : Derives .primary ts t) : Derives .signed ts t
  | negative {ts : List Symbol} {t : Tree} (h : Derives .signed ts t) :
    Derives .signed (.mark '-' :: ts) (.negative t)
  | atom {s : Symbol} {t : Tree} (h : s.atom? = some t) : Derives .primary [s] t
  | enclosed {ts : List Symbol} {t : Tree} (h : Derives .expression ts t) :
    Derives .primary (.mark '(' :: (ts ++ [.mark ')'])) t
  | member {ts : List Symbol} {t : Tree} {name : String} (h : Derives .primary ts t)
    (hname : isName name) : Derives .primary (ts ++ [.mark '.', .word name]) (.member t name)
  | first {ts us : List Symbol} {t u : Tree} (ht : Derives .primary ts t)
    (hu : Derives .expression us u) : Derives .opened (ts ++ .mark '(' :: us) (.call t [u])
  | next {ts us : List Symbol} {t u : Tree} {arguments : List Tree}
    (ht : Derives .opened ts (.call t arguments)) (hu : Derives .expression us u) :
    Derives .opened (ts ++ .mark ',' :: us) (.call t (arguments ++ [u]))
  | closed {ts : List Symbol} {t : Tree} (h : Derives .opened ts t) :
    Derives .primary (ts ++ [.mark ')']) t

/-- A text is an expression with this tree. -/
def ReadAs (text : String) (t : Tree) : Prop :=
  ∃ symbols, Lexes text.toList symbols ∧ Derives .expression symbols t

/-! ### Reading from left to right -/

/-- What is to be read. -/
inductive Goal where
  /-- An expression of a level. -/
  | start (level : Level)
  /-- The rest of an expression of a level, which is this tree so far. -/
  | behind (level : Level) (t : Tree)

/-- From the head of a row of symbols a tree is read, and some symbols are left. -/
inductive Reads : Goal → List Symbol → Tree → List Symbol → Prop
  | chain {c : Connective} {ts more rest : List Symbol} {t u : Tree}
    (hfirst : Reads (.start c.operand) ts t more)
    (hrest : Reads (.behind (.chain c) t) more u rest) : Reads (.start (.chain c)) ts u rest
  | connected {c : Connective} {ts more rest : List Symbol} {t u v : Tree}
    (hnext : Reads (.start c.operand) ts u more)
    (hrest : Reads (.behind (.chain c) (.connected c t u)) more v rest) :
    Reads (.behind (.chain c) t) (.word c.word :: ts) v rest
  | chainEnd {c : Connective} {ts : List Symbol} {t : Tree}
    (h : ts.head? ≠ some (.word c.word)) : Reads (.behind (.chain c) t) ts t ts
  | positive {ts rest : List Symbol} {t : Tree} (hhead : ts.head? ≠ some (.word "not"))
    (h : Reads (.start .signed) ts t rest) : Reads (.start .inversion) ts t rest
  | negation {ts rest : List Symbol} {t : Tree} (h : Reads (.start .inversion) ts t rest) :
    Reads (.start .inversion) (.word "not" :: ts) (.negation t) rest
  | unsigned {ts rest : List Symbol} {t : Tree} (hhead : ts.head? ≠ some (.mark '-'))
    (h : Reads (.start .primary) ts t rest) : Reads (.start .signed) ts t rest
  | negative {ts rest : List Symbol} {t : Tree} (h : Reads (.start .signed) ts t rest) :
    Reads (.start .signed) (.mark '-' :: ts) (.negative t) rest
  | atom {s : Symbol} {ts rest : List Symbol} {t u : Tree} (h : s.atom? = some t)
    (hrest : Reads (.behind .primary t) ts u rest) : Reads (.start .primary) (s :: ts) u rest
  | enclosed {ts more rest : List Symbol} {t u : Tree}
    (h : Reads (.start .expression) ts t (.mark ')' :: more))
    (hrest : Reads (.behind .primary t) more u rest) :
    Reads (.start .primary) (.mark '(' :: ts) u rest
  | member {name : String} {ts rest : List Symbol} {t u : Tree} (hname : isName name)
    (hrest : Reads (.behind .primary (.member t name)) ts u rest) :
    Reads (.behind .primary t) (.mark '.' :: .word name :: ts) u rest
  | first {ts more rest : List Symbol} {t u v : Tree} (hu : Reads (.start .expression) ts u more)
    (hrest : Reads (.behind .opened (.call t [u])) more v rest) :
    Reads (.behind .primary t) (.mark '(' :: ts) v rest
  | primaryEnd {ts : List Symbol} {t : Tree} (hpoint : ts.head? ≠ some (.mark '.'))
    (hopening : ts.head? ≠ some (.mark '(')) : Reads (.behind .primary t) ts t ts
  | next {ts more rest : List Symbol} {t u v : Tree} {arguments : List Tree}
    (hu : Reads (.start .expression) ts u more)
    (hrest : Reads (.behind .opened (.call t (arguments ++ [u]))) more v rest) :
    Reads (.behind .opened (.call t arguments)) (.mark ',' :: ts) v rest
  | closed {ts rest : List Symbol} {t u : Tree} (h : Reads (.behind .primary t) ts u rest) :
    Reads (.behind .opened t) (.mark ')' :: ts) u rest

section Derivation

variable {ts more rest others : List Symbol} {s : Symbol} {t u : Tree} {level : Level}
  {c : Connective}

/-- The reader is never free to choose. -/
theorem Reads.unique {goal : Goal} (h : Reads goal ts t rest)
    (hother : Reads goal ts u others) : t = u ∧ rest = others := by
  -- No other rule has the same goal and takes the same first symbol, so the two agree rule by rule.
  induction h generalizing u others with
  | chain _ _ ihfirst ihrest =>
    cases hother with
    | chain hfirst hrest =>
      obtain ⟨rfl, rfl⟩ := ihfirst hfirst
      exact ihrest hrest
  | connected _ _ ihnext ihrest =>
    cases hother with
    | connected hnext hrest =>
      obtain ⟨rfl, rfl⟩ := ihnext hnext
      exact ihrest hrest
    | chainEnd h => exact absurd rfl h
  | chainEnd h =>
    cases hother with
    | connected hnext hrest => exact absurd rfl h
    | chainEnd _ => exact ⟨rfl, rfl⟩
  | positive hhead _ ih =>
    cases hother with
    | positive _ hother => exact ih hother
    | negation _ => exact absurd rfl hhead
  | negation _ ih =>
    cases hother with
    | positive hhead _ => exact absurd rfl hhead
    | negation hother =>
      obtain ⟨rfl, rfl⟩ := ih hother
      exact ⟨rfl, rfl⟩
  | unsigned hhead _ ih =>
    cases hother with
    | unsigned _ hother => exact ih hother
    | negative _ => exact absurd rfl hhead
  | negative _ ih =>
    cases hother with
    | unsigned hhead _ => exact absurd rfl hhead
    | negative hother =>
      obtain ⟨rfl, rfl⟩ := ih hother
      exact ⟨rfl, rfl⟩
  | atom h _ ih =>
    cases hother with
    | atom hsame hrest =>
      cases h.symm.trans hsame
      exact ih hrest
    | enclosed _ _ => cases h
  | enclosed _ _ ih ihrest =>
    cases hother with
    | atom h _ => cases h
    | enclosed hother hrest =>
      obtain ⟨rfl, hmore⟩ := ih hother
      cases hmore
      exact ihrest hrest
  | member _ _ ih =>
    cases hother with
    | member _ hrest => exact ih hrest
    | primaryEnd hpoint _ => exact absurd rfl hpoint
  | first _ _ ih ihrest =>
    cases hother with
    | first hu hrest =>
      obtain ⟨rfl, rfl⟩ := ih hu
      exact ihrest hrest
    | primaryEnd _ hopening => exact absurd rfl hopening
  | primaryEnd hpoint hopening =>
    cases hother with
    | member _ _ => exact absurd rfl hpoint
    | first _ _ => exact absurd rfl hopening
    | primaryEnd _ _ => exact ⟨rfl, rfl⟩
  | next _ _ ih ihrest =>
    cases hother with
    | next hu hrest =>
      obtain ⟨rfl, rfl⟩ := ih hu
      exact ihrest hrest
  | closed _ ih =>
    cases hother with
    | closed hother => exact ih hother

/-! ### What is derived is read -/

/-- The symbols that go on with an expression of a level. -/
def Level.extensions : Level → List Symbol
  | .chain .or => [.word "or", .word "and", .mark '.', .mark '(']
  | .chain .and => [.word "and", .mark '.', .mark '(']
  | _ => [.mark '.', .mark '(']

/-- An expression of the level ends before these symbols. -/
def Level.Ends (level : Level) (ts : List Symbol) : Prop :=
  ∀ s ∈ level.extensions, ts.head? ≠ some s

theorem Level.ends_chain_iff :
    (chain c).Ends ts ↔ ts.head? ≠ some (.word c.word) ∧ c.operand.Ends ts := by
  cases c <;> exact List.forall_mem_cons

theorem Level.ends_nil : level.Ends [] := by
  simp [Ends]

/-- An operator ends its operands. -/
theorem Level.ends_word : c.operand.Ends (.word c.word :: ts) := by
  cases c <;> simp [Ends, extensions, Connective.operand, Connective.word]

theorem Level.ends_closing : level.Ends (.mark ')' :: ts) := by
  unfold Ends extensions
  split <;> simp

/-- A comma or a parenthesis ends an argument. -/
theorem Reads.ends_opened (h : Reads (.behind .opened t) ts u rest) :
    Level.expression.Ends ts := by
  cases h with
  | next _ _ => simp [Level.Ends, Level.extensions]
  | closed _ => exact Level.ends_closing

/-- The symbols that are read as such expressions, and then as what is behind them. -/
def Level.Leads (level : Level) (ts : List Symbol) (t : Tree) : Prop :=
  match level with
  | .chain c => ∀ ⦃more u rest⦄, c.operand.Ends more → Reads (.behind (.chain c) t) more u rest →
      Reads (.start (.chain c)) (ts ++ more) u rest
  | .primary => ∀ ⦃more u rest⦄, Reads (.behind .primary t) more u rest →
      Reads (.start .primary) (ts ++ more) u rest
  | .opened => ∀ ⦃more u rest⦄, Reads (.behind .opened t) more u rest →
      Reads (.start .primary) (ts ++ more) u rest
  | level => ∀ ⦃more⦄, level.Ends more → Reads (.start level) (ts ++ more) t more

/-- An expression is read as a whole. -/
theorem Level.Leads.reads (h : level.Leads ts t) (hlevel : level ≠ .opened)
    (hends : level.Ends more) : Reads (.start level) (ts ++ more) t more := by
  cases level with
  | chain c =>
    obtain ⟨hword, hends⟩ := Level.ends_chain_iff.mp hends
    exact h hends (.chainEnd hword)
  | inversion => exact h hends
  | signed => exact h hends
  | primary =>
    obtain ⟨hpoint, hopening⟩ := List.forall_mem_cons.mp hends
    exact h (.primaryEnd hpoint (hopening _ List.mem_cons_self))
  | opened => exact absurd rfl hlevel

/-- May an expression of the level begin with the symbol? -/
def Level.Begins : Level → Symbol → Prop
  | .chain _, _ | .inversion, _ => True
  | .signed, s => s ≠ .word "not"
  | _, s => s ≠ .word "not" ∧ s ≠ .mark '-'

theorem Level.begins_of_atom? (h : s.atom? = some t) : Level.primary.Begins s := by
  constructor <;> rintro rfl <;> cases h

theorem Derives.begins (h : Derives level ts t) : ∃ s more, ts = s :: more ∧ level.Begins s := by
  induction h with
  | operand h ih =>
    obtain ⟨s, more, rfl, -⟩ := ih
    exact ⟨s, more, rfl, trivial⟩
  | connected _ _ ih _ =>
    obtain ⟨s, more, rfl, -⟩ := ih
    exact ⟨s, _, rfl, trivial⟩
  | positive _ ih =>
    obtain ⟨s, more, rfl, -⟩ := ih
    exact ⟨s, more, rfl, trivial⟩
  | negation _ _ => exact ⟨_, _, rfl, trivial⟩
  | unsigned _ ih =>
    obtain ⟨s, more, rfl, hs⟩ := ih
    exact ⟨s, more, rfl, hs.1⟩
  | negative _ _ => exact ⟨_, _, rfl, by simp [Level.Begins]⟩
  | atom h => exact ⟨_, _, rfl, Level.begins_of_atom? h⟩
  | enclosed _ _ => exact ⟨_, _, rfl, by simp [Level.Begins]⟩
  | member _ _ ih | first _ _ ih _ | next _ _ ih _ | closed _ ih =>
    obtain ⟨s, more, rfl, hs⟩ := ih
    exact ⟨s, _, rfl, hs⟩

/-- The reader finds what the grammar derives. -/
theorem Derives.leads (h : Derives level ts t) : level.Leads ts t := by
  -- The grammar groups to the left and the reader goes to the right: what was derived on the left
  -- is read in front of the operator, the point or the argument that makes it part of a larger
  -- tree.
  induction h with
  | @operand c ts t _ ih =>
    intro more u rest hends hbehind
    exact .chain (ih.reads (by cases c <;> simp [Connective.operand]) hends) hbehind
  | @connected c ts us t u _ _ iht ihu =>
    intro more v rest hends hbehind
    rw [List.append_assoc]
    have hnext := ihu.reads (by cases c <;> simp [Connective.operand]) hends
    exact iht Level.ends_word (.connected hnext hbehind)
  | positive h ih =>
    intro more hends
    obtain ⟨s, others, rfl, hs⟩ := h.begins
    exact .positive (by simpa [Level.Begins] using hs) (ih hends)
  | negation _ ih =>
    intro more hends
    exact .negation (ih hends)
  | unsigned h ih =>
    intro more hends
    obtain ⟨s, others, rfl, hs⟩ := h.begins
    exact .unsigned (by simpa [Level.Begins] using hs.2) (ih.reads (by simp) hends)
  | negative _ ih =>
    intro more hends
    exact .negative (ih hends)
  | atom h =>
    intro more u rest hbehind
    exact .atom h hbehind
  | enclosed _ ih =>
    intro more u rest hbehind
    have hclosing : Level.expression.Ends (.mark ')' :: more) := Level.ends_closing
    rw [List.cons_append, List.append_assoc]
    exact .enclosed (ih.reads (by simp) hclosing) hbehind
  | member _ hname ih =>
    intro more u rest hbehind
    rw [List.append_assoc]
    exact ih (.member hname hbehind)
  | first _ _ iht ihu =>
    intro more v rest hbehind
    rw [List.append_assoc]
    exact iht (.first (ihu.reads (by simp) hbehind.ends_opened) hbehind)
  | next _ _ iht ihu =>
    intro more v rest hbehind
    rw [List.append_assoc]
    exact iht (.next (ihu.reads (by simp) hbehind.ends_opened) hbehind)
  | closed _ ih =>
    intro more u rest hbehind
    rw [List.append_assoc]
    exact ih (.closed hbehind)

/-- A row of symbols is not derived as two expressions. -/
theorem Derives.unique (h : Derives .expression ts t) (hother : Derives .expression ts u) :
    t = u := by
  have hends : Level.expression.Ends [] := Level.ends_nil
  have hread := h.leads.reads (by simp) hends
  have hsame := hother.leads.reads (by simp) hends
  exact (hread.unique hsame).1

/-- A text is not read as two expressions. -/
theorem ReadAs.unique {text : String} (h : ReadAs text t) (hother : ReadAs text u) : t = u := by
  obtain ⟨symbols, hlexes, hderives⟩ := h
  obtain ⟨others, hsame, hderived⟩ := hother
  rw [← hlexes.unique hsame] at hderived
  exact hderives.unique hderived

end Derivation

end StateMachine.Python
