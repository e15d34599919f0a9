import StateMachine.Proofs.Python.ConditionTruth
import StateMachine.Proofs.Python.Grammar

/-!
Conditions are read as the guards that they are written for. Every part of a condition is the text
of an expression (`IsPhrase`): calls and literals by themselves, and operands at the level that
their place demands. The tree of a condition has the operators of the guard, and its atoms are calls
of helpers with the fields, the comparisons and the values of the guard (`Renders`). The condition
of a guard that was read has no other tree (`readAs_ofGuard_iff`), and no other guard has that
condition, unless it writes inequalities in another way (`withoutDiffers_eq_of_text_eq`).
-/

set_option autoImplicit false

namespace StateMachine.Python

open Numeric

/-! ### Trees of guards -/

/-- The value of a literal. -/
def Tree.value? : Tree → Option Json
  | .nothing => some .null
  | .truth b => some (.bool b)
  | .text s => some (.string s)
  | .numeral n => numeralValue? n
  | .negative operand =>
    match operand.value? with
    | some (.number (.double x)) => some (.number (.double x.negate))
    | _ => none
  | _ => none

/-- What a function of the operator module compares by. -/
def comparison? : String → Option Comparison
  | "gt" => some .greater
  | "ge" => some .atLeast
  | "lt" => some .less
  | "le" => some .atMost
  | _ => none

/-- The call that looks up a field of the context. -/
def fieldTree (f : String) : Tree :=
  .call (.name "_field") [.name "ctx", .text f]

/-- The trees of a guard: its connectives are operators, and its atoms are calls of helpers. -/
inductive Renders : Guard → Tree → Prop
  | truthy (f : String) : Renders (.truthy f) (.call (.name "bool") [fieldTree f])
  | equals {f : String} {v : Json} {t : Tree} (hvalue : t.value? = some v) :
    Renders (.equals f v) (.call (.name "_equals") [fieldTree f, t])
  | differs {f : String} {v : Json} {t : Tree} (hvalue : t.value? = some v) :
    Renders (.differs f v) (.negation (.call (.name "_equals") [fieldTree f, t]))
  | compares {f operator : String} {c : Comparison} {x : FiniteDouble} {t : Tree}
    (hoperator : comparison? operator = some c) (hvalue : t.value? = some (.number (.double x))) :
    Renders (.compares f c (.finite x))
      (.call (.name "_compare")
        [.name "ctx", .text f, .member (.name "operator") operator, t])
  | both {a b : Guard} {t u : Tree} (ha : Renders a t) (hb : Renders b u) :
    Renders (.both a b) (.connected .and t u)
  | either {a b : Guard} {t u : Tree} (ha : Renders a t) (hb : Renders b u) :
    Renders (.either a b) (.connected .or t u)
  | negated {a : Guard} {t : Tree} (ha : Renders a t) : Renders (.negated a) (.negation t)

/-! ### Texts of expressions -/

/-- In front of a mark or a blank, the characters are an expression of the level. -/
def IsPhrase (level : Level) (chars : List Char) (t : Tree) : Prop :=
  ∃ symbols, Spells chars symbols ∧ Derives level symbols t

/-- The level of expressions that bind at least as tightly as a condition of this precedence. -/
def levelAt : Nat → Level
  | 0 | 1 => .expression
  | 2 => .chain .and
  | 3 => .inversion
  | _ => .primary

theorem Derives.loosen {n : Nat} {symbols : List Symbol} {t : Tree}
    (h : Derives (levelAt (n + 1)) symbols t) : Derives (levelAt n) symbols t :=
  match n with
  | 0 => h
  | 1 => .operand h
  | 2 => .operand h
  | 3 => .positive (.unsigned h)
  | _ + 4 => h

theorem Symbol.atom?_of_isName {s : String} (h : isName s) : atom? (.word s) = some (.name s) := by
  unfold atom?
  split
  · next heq => cases heq; cases h
  · next heq => cases heq; cases h
  · next heq => cases heq; cases h
  · next heq =>
    cases heq
    exact if_pos h
  · next heq => cases heq
  · next heq => cases heq
  · next heq => cases heq

namespace IsPhrase

variable {level : Level} {chars others : List Char} {t u : Tree} {arguments : List Tree}
  {c : Connective}

theorem readAs {text : String} (h : IsPhrase .expression text.toList t) : ReadAs text t := by
  obtain ⟨symbols, hspells, hderives⟩ := h
  exact ⟨symbols, hspells.lexes, hderives⟩

theorem mono {n m : Nat} (h : IsPhrase (levelAt n) chars t) (hle : m ≤ n) :
    IsPhrase (levelAt m) chars t := by
  obtain ⟨symbols, hspells, hderives⟩ := h
  refine ⟨symbols, hspells, ?_⟩
  induction hle using Nat.decreasingInduction with
  | self => exact hderives
  | of_succ k hk ih => exact ih.loosen

theorem signed (h : IsPhrase .primary chars t) : IsPhrase .signed chars t :=
  h.imp fun _ h ↦ ⟨h.1, .unsigned h.2⟩

/-- A literal, with a sign or without, is an expression. -/
theorem expression (h : IsPhrase .signed chars t) : IsPhrase .expression chars t :=
  h.imp fun _ h ↦ ⟨h.1, .operand (.operand (.positive h.2))⟩

/-! #### Atoms -/

theorem name {s : String} (h : isName s) : IsPhrase .primary s.toList (.name s) :=
  ⟨_, .word (Symbol.isWord_of_isName h), .atom (Symbol.atom?_of_isName h)⟩

theorem dotted {s name : String} (hs : isName s) (hname : isName name) :
    IsPhrase .primary (s.toList ++ '.' :: name.toList) (.member (.name s) name) := by
  refine ⟨_, .dotted (Symbol.isWord_of_isName hs) (Symbol.isWord_of_isName hname), ?_⟩
  exact .member (.atom (Symbol.atom?_of_isName hs)) hname

theorem text (s : String) : IsPhrase .primary (textLiteral s).toList (.text s) := by
  rw [textLiteral, String.toList_ofList]
  exact ⟨_, .quoted s, .atom rfl⟩

theorem negative (h : IsPhrase .signed chars t) :
    IsPhrase .signed ('-' :: chars) (.negative t) := by
  obtain ⟨symbols, hspells, hderives⟩ := h
  exact ⟨_, hspells.mark (by decide), .negative hderives⟩

theorem numeral {style : NumeralStyle} (h : style.showsPoint) {x : FiniteDouble}
    (hx : x.negative = false) :
    IsPhrase .primary (style.finiteText x) (.numeral (.ofNumeral style x)) := by
  have hminus : (Guard.NumberText.ofNumeral style x).minus = false := by
    unfold Guard.NumberText.ofNumeral
    dsimp only
    split <;> exact hx
  rw [← Guard.NumberText.chars_ofNumeral]
  exact ⟨_, .numeral (Guard.NumberText.ofNumeral_wellFormed style x) hminus
    (isSome_ofNumeral h x), .atom rfl⟩

/-- A numeral has its value; a negative number is written as the opposite of a numeral. -/
theorem exists_numeral {style : NumeralStyle} (h : style.showsPoint) (x : FiniteDouble) :
    ∃ t, t.value? = some (.number (.double x)) ∧ IsPhrase .signed (style.finiteText x) t := by
  cases hx : x.negative with
  | false =>
    exact ⟨.numeral (.ofNumeral style x), numeralValue?_ofNumeral h x, (numeral h hx).signed⟩
  | true =>
    have hmagnitude : x.negate.negative = false := by rw [FiniteDouble.negate, hx, Bool.not_true]
    have hchars : style.finiteText x = '-' :: style.finiteText x.negate := by
      simp [NumeralStyle.finiteText, hx, FiniteDouble.negate]
    refine ⟨.negative (.numeral (.ofNumeral style x.negate)), ?_, ?_⟩
    · have htwice : x.negate.negate = x := by
        cases x
        simp [FiniteDouble.negate]
      simp only [Tree.value?, numeralValue?_ofNumeral h, htwice]
    · rw [hchars]
      exact (numeral h hmagnitude).signed.negative

/-- A literal that a guard may be written with has its value. -/
theorem exists_literal {v : Json} (h : Guard.isLiteral v) :
    ∃ t, t.value? = some v ∧ IsPhrase .signed (literal v).toList t := by
  cases v with
  | null => exact ⟨.nothing, rfl, signed ⟨_, .word (by decide), .atom rfl⟩⟩
  | bool b =>
    refine ⟨.truth b, rfl, signed ?_⟩
    cases b
    · exact ⟨_, .word (by decide), .atom rfl⟩
    · exact ⟨_, .word (by decide), .atom rfl⟩
  | string s => exact ⟨.text s, rfl, (text s).signed⟩
  | number n =>
    cases n with
    | integer n hn => cases h
    | double x =>
      have hpoint : NumeralStyle.json.showsPoint := rfl
      have hchars : (literal (.number (.double x))).toList = NumeralStyle.json.finiteText x :=
        String.toList_ofList
      rw [hchars]
      exact exists_numeral hpoint x
  | array items => cases h
  | object members => cases h

/-! #### Calls -/

theorem first (ht : IsPhrase .primary chars t) (hu : IsPhrase .expression others u) :
    IsPhrase .opened (chars ++ '(' :: others) (.call t [u]) := by
  obtain ⟨_, hspells, hderives⟩ := ht
  obtain ⟨_, hothers, hargument⟩ := hu
  exact ⟨_, hspells.append_cons (by decide) (hothers.mark (by decide)),
    hderives.first hargument⟩

theorem next (ht : IsPhrase .opened chars (.call t arguments))
    (hu : IsPhrase .expression others u) :
    IsPhrase .opened (chars ++ ',' :: ' ' :: others) (.call t (arguments ++ [u])) := by
  obtain ⟨_, hspells, hderives⟩ := ht
  obtain ⟨_, hothers, hargument⟩ := hu
  exact ⟨_, hspells.append_cons (by decide) (hothers.blank.mark (by decide)),
    hderives.next hargument⟩

theorem closed (h : IsPhrase .opened chars t) : IsPhrase .primary (chars ++ [')']) t := by
  obtain ⟨_, hspells, hderives⟩ := h
  exact ⟨_, hspells.append_cons (by decide) (Spells.nil.mark (by decide)), hderives.closed⟩

/-! #### Operators -/

theorem enclosed (h : IsPhrase .expression chars t) :
    IsPhrase .primary ('(' :: (chars ++ [')'])) t := by
  obtain ⟨_, hspells, hderives⟩ := h
  have hclosing := hspells.append_cons (by decide) (Spells.nil.mark (c := ')') (by decide))
  exact ⟨_, hclosing.mark (by decide), hderives.enclosed⟩

theorem negation (h : IsPhrase .inversion chars t) :
    IsPhrase .inversion ("not".toList ++ ' ' :: chars) (.negation t) := by
  obtain ⟨_, hspells, hderives⟩ := h
  have hword : Spells "not".toList [.word "not"] := .word (by decide)
  exact ⟨_, hword.append_cons (by decide) hspells.blank, hderives.negation⟩

theorem connected (ht : IsPhrase (.chain c) chars t) (hu : IsPhrase c.operand others u) :
    IsPhrase (.chain c) (chars ++ ' ' :: (c.word.toList ++ ' ' :: others)) (.connected c t u) := by
  obtain ⟨_, hspells, hderives⟩ := ht
  obtain ⟨_, hothers, hoperand⟩ := hu
  have hword : Spells c.word.toList [.word c.word] := .word (by cases c <;> decide)
  have htail := (hword.append_cons (by decide) hothers.blank).blank
  exact ⟨_, hspells.append_cons (by decide) htail, hderives.connected hoperand⟩

end IsPhrase

/-! ### Conditions -/

section Conditions

open IsPhrase

theorem isPhrase_fieldCall (f : String) :
    IsPhrase .primary ("_field(ctx, " ++ textLiteral f ++ ")").toList (fieldTree f) := by
  have hname : IsPhrase .primary "_field".toList (.name "_field") := name (by decide)
  have hcontext : IsPhrase .primary "ctx".toList (.name "ctx") := name (by decide)
  have hcall := ((hname.first hcontext.signed.expression).next (text f).signed.expression).closed
  simpa [fieldTree] using hcall

theorem isPhrase_truth (f : String) : IsPhrase .primary (Condition.truth f).text.toList
    (.call (.name "bool") [fieldTree f]) := by
  have hname : IsPhrase .primary "bool".toList (.name "bool") := name (by decide)
  have hcall := (hname.first (isPhrase_fieldCall f).signed.expression).closed
  rw [Condition.text_truth]
  simpa using hcall

theorem isPhrase_equal (f : String) {v : Json} {t : Tree}
    (h : IsPhrase .signed (literal v).toList t) :
    IsPhrase .primary (Condition.equal f v).text.toList
      (.call (.name "_equals") [fieldTree f, t]) := by
  have hname : IsPhrase .primary "_equals".toList (.name "_equals") := name (by decide)
  have hcall := ((hname.first (isPhrase_fieldCall f).signed.expression).next h.expression).closed
  rw [Condition.text_equal]
  simpa using hcall

theorem isPhrase_compare (f : String) (c : Comparison) {x : Double} {t : Tree}
    (h : IsPhrase .signed (NumeralStyle.operand.text x) t) :
    IsPhrase .primary (Condition.compare f c x).text.toList
      (.call (.name "_compare")
        [.name "ctx", .text f, .member (.name "operator") (operatorName c), t]) := by
  have hname : IsPhrase .primary "_compare".toList (.name "_compare") := name (by decide)
  have hcontext : IsPhrase .primary "ctx".toList (.name "ctx") := name (by decide)
  have hoperator : IsPhrase .primary ("operator".toList ++ '.' :: (operatorName c).toList)
      (.member (.name "operator") (operatorName c)) :=
    dotted (by decide) (by cases c <;> decide)
  have hcall := ((((hname.first hcontext.signed.expression).next
    (text f).signed.expression).next hoperator.signed.expression).next h.expression).closed
  rw [Condition.text_compare]
  simpa using hcall

theorem comparison?_operatorName (c : Comparison) : comparison? (operatorName c) = some c := by
  cases c <;> rfl

/-- An operand is an expression of the level that its place demands. -/
theorem isPhrase_operand {c : Condition} {t : Tree}
    (h : IsPhrase (levelAt c.precedence) c.text.toList t) {demand : Nat} (hdemand : demand ≤ 4) :
    IsPhrase (levelAt demand) (Condition.enclosed demand c c.text).toList t := by
  unfold Condition.enclosed
  split
  · have hinner : IsPhrase .expression c.text.toList t := h.mono (Nat.zero_le _)
    have henclosed : IsPhrase (levelAt 4) ("(" ++ c.text ++ ")").toList t := by
      simpa [levelAt] using hinner.enclosed
    exact henclosed.mono hdemand
  · next hle => exact h.mono (Nat.not_lt.mp hle)

section Connectives

variable {a b : Condition} {t u : Tree} (ht : IsPhrase (levelAt a.precedence) a.text.toList t)

include ht

theorem isPhrase_negation :
    IsPhrase .inversion (Condition.negation a).text.toList (.negation t) := by
  have hoperand : IsPhrase .inversion (Condition.enclosed 3 a a.text).toList t :=
    isPhrase_operand ht (by decide)
  rw [Condition.text_negation]
  simpa using hoperand.negation

theorem isPhrase_conjunction (hu : IsPhrase (levelAt b.precedence) b.text.toList u) :
    IsPhrase (.chain .and) (Condition.conjunction a b).text.toList (.connected .and t u) := by
  have hleft : IsPhrase (.chain .and) (Condition.enclosed 2 a a.text).toList t :=
    isPhrase_operand ht (by decide)
  have hright : IsPhrase .inversion (Condition.enclosed 3 b b.text).toList u :=
    isPhrase_operand hu (by decide)
  rw [Condition.text_conjunction]
  simpa [Connective.word] using hleft.connected hright

theorem isPhrase_disjunction (hu : IsPhrase (levelAt b.precedence) b.text.toList u) :
    IsPhrase .expression (Condition.disjunction a b).text.toList (.connected .or t u) := by
  have hleft : IsPhrase .expression (Condition.enclosed 1 a a.text).toList t :=
    isPhrase_operand ht (by decide)
  have hright : IsPhrase (.chain .and) (Condition.enclosed 2 b b.text).toList u :=
    isPhrase_operand hu (by decide)
  rw [Condition.text_disjunction]
  simpa [Connective.word] using hleft.connected hright

end Connectives

/-- The condition of a guard that can be written down has a tree of the guard. -/
theorem exists_renders {g : Guard} (h : g.isPrintable) : ∃ t, Renders g t ∧
    IsPhrase (levelAt (Condition.ofGuard g).precedence) (Condition.ofGuard g).text.toList t := by
  induction g with
  | truthy f => exact ⟨_, .truthy f, isPhrase_truth f⟩
  | equals f v =>
    obtain ⟨t, hvalue, hphrase⟩ := exists_literal (Bool.and_eq_true_iff.mp h).2
    exact ⟨_, .equals hvalue, isPhrase_equal f hphrase⟩
  | differs f v =>
    obtain ⟨t, hvalue, hphrase⟩ := exists_literal (Bool.and_eq_true_iff.mp h).2
    exact ⟨_, .differs hvalue, isPhrase_negation (isPhrase_equal f hphrase)⟩
  | compares f c bound =>
    cases bound with
    | finite x =>
      have hpoint : NumeralStyle.operand.showsPoint := rfl
      obtain ⟨t, hvalue, hphrase⟩ := exists_numeral hpoint x
      exact ⟨_, .compares (comparison?_operatorName c) hvalue, isPhrase_compare f c hphrase⟩
    | infinite negative => exact absurd h (by simp [Guard.isPrintable, Double.finite?])
    | notANumber => exact absurd h (by simp [Guard.isPrintable, Double.finite?])
  | both a b iha ihb =>
    obtain ⟨ha, hb⟩ := Bool.and_eq_true_iff.mp h
    obtain ⟨t, hleft, ht⟩ := iha ha
    obtain ⟨u, hright, hu⟩ := ihb hb
    exact ⟨_, .both hleft hright, isPhrase_conjunction ht hu⟩
  | either a b iha ihb =>
    obtain ⟨ha, hb⟩ := Bool.and_eq_true_iff.mp h
    obtain ⟨t, hleft, ht⟩ := iha ha
    obtain ⟨u, hright, hu⟩ := ihb hb
    exact ⟨_, .either hleft hright, isPhrase_disjunction ht hu⟩
  | negated a ih =>
    obtain ⟨t, hinner, ht⟩ := ih h
    exact ⟨_, .negated hinner, isPhrase_negation ht⟩

theorem exists_readAs {source : String} {g : Guard} (h : Guard.parse source = .ok g) :
    ∃ t, Renders g t ∧ ReadAs (Condition.ofGuard g).text t := by
  obtain ⟨t, hrenders, hphrase⟩ := exists_renders (Guard.isPrintable_of_parse h)
  have hexpression : IsPhrase .expression (Condition.ofGuard g).text.toList t :=
    hphrase.mono (Nat.zero_le _)
  exact ⟨t, hrenders, hexpression.readAs⟩

/-- The condition of a guard that was read is one expression, and its tree is one of the guard. -/
theorem readAs_ofGuard_iff {source : String} {g : Guard} (h : Guard.parse source = .ok g) :
    ∃ t, Renders g t ∧ ∀ u, ReadAs (Condition.ofGuard g).text u ↔ u = t := by
  obtain ⟨t, hrenders, hread⟩ := exists_readAs h
  refine ⟨t, hrenders, fun u ↦ ⟨fun hother ↦ hother.unique hread, ?_⟩⟩
  rintro rfl
  exact hread

/-- A guard with operands of every kind. -/
def crossing : Guard :=
  .either (.negated (.both (.truthy "a") (.differs "b" (.string "x\n\"y"))))
    (.both
      (.compares "n" .greater
        (.finite ⟨true, 3 * 2 ^ 1073, by decide +kernel, by decide +kernel⟩))
      (.either (.truthy "c") (.equals "d" .null)))

def crossingText : String :=
  "!(ctx.a && ctx.b != \"x\\n\\\"y\") || ctx.n > -1.5 && (ctx.c || ctx.d == null)"

theorem readAs_ofGuard_crossing : Guard.parse crossingText = .ok crossing ∧
    (Condition.ofGuard crossing).text =
      "not (bool(_field(ctx, \"a\")) and " ++
      "not _equals(_field(ctx, \"b\"), \"x\\n\\\"y\")) or " ++
      "_compare(ctx, \"n\", operator.gt, -1.5) and " ++
      "(bool(_field(ctx, \"c\")) or _equals(_field(ctx, \"d\"), None))" ∧
    ∃ t, Renders crossing t ∧ ∀ u, ReadAs (Condition.ofGuard crossing).text u ↔ u = t := by
  have htext : crossing.text = crossingText := by decide +kernel
  have hparse := Guard.parse_text (g := crossing) (by decide +kernel)
  rw [htext] at hparse
  exact ⟨hparse, by decide +kernel, readAs_ofGuard_iff hparse⟩

/-! ### Guards of trees -/

/-- The guard with every `!=` as the negation of `==`, which its condition makes of it. -/
def withoutDiffers : Guard → Guard
  | .differs f v => .negated (.equals f v)
  | .both a b => .both (withoutDiffers a) (withoutDiffers b)
  | .either a b => .either (withoutDiffers a) (withoutDiffers b)
  | .negated a => .negated (withoutDiffers a)
  | g => g

/-- The field that a tree looks up. -/
def Tree.field? : Tree → Option String
  | .call (.name "_field") [.name "ctx", .text f] => some f
  | _ => none

/-- The guard without `!=` that a tree is of. -/
def Tree.guard? : Tree → Option Guard
  | .call (.name "bool") [field] => field.field?.map .truthy
  | .call (.name "_equals") [field, operand] => do
    return .equals (← field.field?) (← operand.value?)
  | .call (.name "_compare") [.name "ctx", .text f, .member (.name "operator") operator, operand] =>
    match comparison? operator, operand.value? with
    | some c, some (.number (.double x)) => some (.compares f c (.finite x))
    | _, _ => none
  | .connected .and left right => do return .both (← left.guard?) (← right.guard?)
  | .connected .or left right => do return .either (← left.guard?) (← right.guard?)
  | .negation operand => operand.guard?.map .negated
  | _ => none

theorem Renders.guard?_eq {g : Guard} {t : Tree} (h : Renders g t) :
    t.guard? = some (withoutDiffers g) := by
  induction h with
  | truthy f => rfl
  | equals hvalue | differs hvalue =>
    simp [Tree.guard?, fieldTree, Tree.field?, hvalue, withoutDiffers]
  | compares hoperator hvalue => simp [Tree.guard?, hoperator, hvalue, withoutDiffers]
  | both _ _ iha ihb | either _ _ iha ihb => simp [Tree.guard?, iha, ihb, withoutDiffers]
  | negated _ ih => simp [Tree.guard?, ih, withoutDiffers]

/-- Guards that were read have one condition only if they are one guard, apart from how their
inequalities are written. -/
theorem withoutDiffers_eq_of_text_eq {first second : String} {g k : Guard}
    (hg : Guard.parse first = .ok g) (hk : Guard.parse second = .ok k)
    (htext : (Condition.ofGuard g).text = (Condition.ofGuard k).text) :
    withoutDiffers g = withoutDiffers k := by
  obtain ⟨t, hrenders, hread⟩ := exists_readAs hg
  obtain ⟨u, hother, hsame⟩ := exists_readAs hk
  rw [htext] at hread
  rw [hread.unique hsame] at hrenders
  exact Option.some.inj (hrenders.guard?_eq.symm.trans hother.guard?_eq)

end Conditions

end StateMachine.Python
