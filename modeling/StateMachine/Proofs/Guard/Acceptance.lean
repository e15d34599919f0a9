import StateMachine.Proofs.Guard.Derivation
import StateMachine.Proofs.Guard.Recognition

/-!
Guards are read exactly as their grammar says (`parse_iff_derives`): a text is read as a guard if
and only if it has a derivation that denotes the guard, and no text has two derivations.

A text does not have two derivations because reading tells where each part of it ends
(`eq_of_reads`): trees with the same text split it at the same places, down to the lexical elements.
-/

set_option autoImplicit false

namespace StateMachine.Guard

open Numeric
open Text (Stops stops_cons skipBlanks isBlank takeWhile_run dropWhile_run)

/-! ### Whole texts -/

theorem outcome_disjunction_of_blank {text : List Char} (h : skipBlanks text = []) :
    outcome (disjunction text) = .error ⟨.noField, 0⟩ := by
  have hnone : ∀ c rest, skipBlanks text ≠ c :: rest := by
    intro c rest hcons
    rw [h] at hcons
    cases hcons
  rw [outcome_disjunction, outcome_conjunction, outcome_unary_of_atom (hnone '!') (hnone '('), h]
  rfl

/-- A text with a derivation is read as what the derivation denotes. -/
theorem parse_of_derivation (d : Derivation) : parse d.text = .ok d.guard := by
  have hread := d.tree.reads d.after.val (ends_blanks d.after)
  obtain ⟨hlast, hdisjunction⟩ := exists_of_outcome hread
  have hskip : skipBlanks (d.tree.chars ++ d.after.val) ≠ [] := by
    intro hblank
    rw [outcome_disjunction_of_blank hblank] at hread
    cases hread
  have hchars : parseChars (d.tree.chars ++ d.after.val) = .ok d.guard := by
    simp only [parseChars, hskip, if_false, hdisjunction, skipBlanks_blanks]
    rfl
  simp only [parse, Derivation.text, String.toList_ofList, hchars]

/-! ### Where parts end -/

/-- Two texts that a reader takes from the same text are the same. -/
theorem eq_of_reads {α : Type} (read : List Char → Except Failure (α × List Char)) {a b : α}
    {first second rest others : List Char} (hfirst : read (first ++ rest) = .ok (a, rest))
    (hsecond : read (second ++ others) = .ok (b, others))
    (h : first ++ rest = second ++ others) : first = second ∧ rest = others := by
  rw [h, hsecond] at hfirst
  cases hfirst
  exact ⟨List.append_cancel_right h, rfl⟩

theorem Blanks.append_inj {before blanks : Blanks} {rest others : List Char}
    (h : before.val ++ rest = blanks.val ++ others) (hrest : Stops isBlank rest)
    (hothers : Stops isBlank others) : before = blanks ∧ rest = others := by
  have htake := congrArg (List.takeWhile isBlank) h
  have hdrop := congrArg (List.dropWhile isBlank) h
  rw [takeWhile_run before.2 hrest, takeWhile_run blanks.2 hothers] at htake
  rw [dropWhile_run before.2 hrest, dropWhile_run blanks.2 hothers] at hdrop
  exact ⟨Subtype.ext htake, hdrop⟩

/-! ### Lexical elements -/

theorem FieldPath.name_injective : Function.Injective FieldPath.name := by
  intro p q h
  have hparts : p.parts = q.parts := by rw [← p.parts_name, ← q.parts_name, h]
  cases p
  cases q
  cases hparts
  rfl

theorem NumberLiteral.chars_injective : Function.Injective NumberLiteral.chars := by
  intro m n h
  have hm := NumberText.split_chars_append m.wellFormed Text.stops_nil
  have hn := NumberText.split_chars_append n.wellFormed Text.stops_nil
  have hwritten : m.written = n.written := by
    have hsame : m.written.chars = n.written.chars := h
    rw [hsame, hn] at hm
    exact (congrArg Prod.fst hm).symm
  obtain ⟨written, wellFormed, x, hx⟩ := m
  obtain ⟨other, otherWellFormed, y, hy⟩ := n
  cases hwritten
  cases hx.symm.trans hy
  rfl

theorem TextItem.flatMap_chars_injective :
    Function.Injective fun items : List TextItem ↦ items.flatMap TextItem.chars := by
  intro items others h
  simp only at h
  induction items generalizing others with
  | nil =>
    cases others with
    | nil => rfl
    | cons item others => cases item <;> cases h
  | cons item items ih =>
    cases others with
    | nil => cases item <;> cases h
    | cons other others =>
      rw [List.flatMap_cons, List.flatMap_cons] at h
      cases item with
      | plain c hquote hslash =>
        cases other with
        | plain d hquote' hslash' =>
          obtain ⟨rfl, hrest⟩ := List.cons.inj h
          rw [ih hrest]
        | escape d stands hstands => exact absurd (List.cons.inj h).1 hslash
      | escape c stands hstands =>
        cases other with
        | plain d hquote' hslash' => exact absurd (List.cons.inj h).1.symm hslash'
        | escape d means hmeans =>
          obtain ⟨rfl, hrest⟩ := List.cons.inj (List.cons.inj h).2
          cases hstands.symm.trans hmeans
          rw [ih hrest]

/-- A literal is of the kind that is read; of one kind the characters tell literals apart. -/
theorem Value.chars_injective : Function.Injective Value.chars := by
  intro v w h
  have hv := outcome_literal_chars v EndsOperand.nil
  have hw := outcome_literal_chars w EndsOperand.nil
  have hjson : v.json = w.json := by
    rw [h, hw] at hv
    exact congrArg Prod.fst (Except.ok.inj hv).symm
  cases v with
  | bool b =>
    cases w with
    | bool c => cases hjson; rfl
    | _ => cases hjson
  | null =>
    cases w with
    | null => rfl
    | _ => cases hjson
  | text items =>
    cases w with
    | text others =>
      have hitems := List.append_cancel_right (List.cons.inj h).2
      rw [TextItem.flatMap_chars_injective hitems]
    | _ => cases hjson
  | number m =>
    cases w with
    | number n => rw [NumberLiteral.chars_injective h]
    | _ => cases hjson

/-! ### Atoms -/

theorem stops_of_startsOperand {text : List Char}
    (h : ∃ c more, text = c :: more ∧ startsOperand c) : Stops isBlank text := by
  obtain ⟨c, more, rfl, hc⟩ := h
  simp only [startsOperand, Bool.and_eq_true, Bool.not_eq_true'] at hc
  exact stops_cons.mpr hc.1

theorem Atom.comparisonChars_inj {field : FieldPath} {operator : Operator}
    {before blanks after others : Blanks} {text other : List Char}
    (h : comparisonChars field before operator after text =
      comparisonChars field blanks operator others other)
    (htext : Stops isBlank text) (hother : Stops isBlank other) :
    before = blanks ∧ after = others ∧ text = other := by
  obtain ⟨hbefore, hrest⟩ := Blanks.append_inj (List.append_cancel_left h)
    (stops_symbol (by decide) operator _) (stops_symbol (by decide) operator _)
  obtain ⟨hafter, htext⟩ := Blanks.append_inj (List.append_cancel_left hrest) htext hother
  exact ⟨hbefore, hafter, htext⟩

theorem Atom.chars_injective : Function.Injective Atom.chars := by
  intro a b h
  have ha := outcome_atom_chars a EndsOperand.nil
  have hb := outcome_atom_chars b EndsOperand.nil
  have hguard : a.guard = b.guard := by
    rw [h, hb] at ha
    exact congrArg Prod.fst (Except.ok.inj ha).symm
  cases a with
  | truthy field =>
    cases b with
    | truthy other => rw [FieldPath.name_injective (Guard.truthy.inj hguard)]
    | _ => cases hguard
  | equals field before after value =>
    cases b with
    | equals other blanks others literal =>
      cases FieldPath.name_injective (Guard.equals.inj hguard).1
      obtain ⟨rfl, rfl, hvalue⟩ := comparisonChars_inj h
        (stops_of_startsOperand value.exists_chars_eq_cons)
        (stops_of_startsOperand literal.exists_chars_eq_cons)
      rw [Value.chars_injective hvalue]
    | _ => cases hguard
  | differs field before after value =>
    cases b with
    | differs other blanks others literal =>
      cases FieldPath.name_injective (Guard.differs.inj hguard).1
      obtain ⟨rfl, rfl, hvalue⟩ := comparisonChars_inj h
        (stops_of_startsOperand value.exists_chars_eq_cons)
        (stops_of_startsOperand literal.exists_chars_eq_cons)
      rw [Value.chars_injective hvalue]
    | _ => cases hguard
  | compares field before comparison after bound =>
    cases b with
    | compares other blanks relation others number =>
      obtain ⟨hname, hcomparison, -⟩ := Guard.compares.inj hguard
      cases FieldPath.name_injective hname
      cases hcomparison
      obtain ⟨rfl, rfl, hbound⟩ := comparisonChars_inj h
        (stops_of_startsOperand (Value.number bound).exists_chars_eq_cons)
        (stops_of_startsOperand (Value.number number).exists_chars_eq_cons)
      rw [NumberLiteral.chars_injective hbound]
    | _ => cases hguard

/-! ### Trees -/

namespace Tree

theorem endsOperand_chars (t : Tree .conjunctionTail) : EndsOperand t.chars := by
  rw [← List.append_nil t.chars]
  exact t.endsOperand_conjuncts EndsOperand.nil

theorem ends_chars (t : Tree .disjunctionTail) : Level.conjunction.Ends t.chars := by
  rw [← List.append_nil t.chars]
  exact t.ends_disjuncts ⟨EndsOperand.nil, endsConjunction_nil⟩

/-- A conjunct ends at the same place in both texts. -/
theorem conjunct_inj {t u : Tree .unary} {more others : Tree .conjunctionTail}
    (h : t.chars ++ more.chars = u.chars ++ others.chars) :
    t.chars = u.chars ∧ more.chars = others.chars :=
  eq_of_reads (fun text ↦ outcome (Guard.unary text)) (t.reads _ more.endsOperand_chars)
    (u.reads _ others.endsOperand_chars) h

/-- A disjunct ends at the same place in both texts. -/
theorem disjunct_inj {t u : Tree .conjunction} {more others : Tree .disjunctionTail}
    (h : t.chars ++ more.chars = u.chars ++ others.chars) :
    t.chars = u.chars ∧ more.chars = others.chars :=
  eq_of_reads (fun text ↦ outcome (Guard.conjunction text)) (t.reads _ more.ends_chars)
    (u.reads _ others.ends_chars) h

/-- A group ends at the same place in both texts. -/
theorem group_inj {t u : Tree .disjunction} {close blanks : Blanks}
    (h : t.chars ++ (close.val ++ [')']) = u.chars ++ (blanks.val ++ [')'])) :
    t.chars = u.chars ∧ close = blanks := by
  obtain ⟨hchars, hclose⟩ := eq_of_reads (fun text ↦ outcome (Guard.disjunction text))
    (t.reads _ (ends_close close [])) (u.reads _ (ends_close blanks [])) h
  exact ⟨hchars, Subtype.ext (List.append_cancel_right hclose)⟩

theorem blanks_cons_inj {before blanks : Blanks} {c d : Char} {rest others : List Char}
    (h : before.val ++ c :: rest = blanks.val ++ d :: others) (hc : isBlank c = false)
    (hd : isBlank d = false) : before = blanks ∧ c = d ∧ rest = others := by
  obtain ⟨hbefore, hcons⟩ := Blanks.append_inj h (stops_cons.mpr hc) (stops_cons.mpr hd)
  exact ⟨hbefore, List.cons.inj hcons⟩

/-- By induction on the tree: two trees of a level with the same text are the same. -/
theorem eq_of_chars_eq {level : Level} {t u : Tree level} (h : t.chars = u.chars) : t = u := by
  induction t with
  | atom before content =>
    obtain ⟨more, hcons⟩ := content.exists_chars_eq_cons
    rw [chars, hcons] at h
    cases u with
    | atom blanks other =>
      obtain ⟨others, hother⟩ := other.exists_chars_eq_cons
      rw [chars, hother] at h
      obtain ⟨rfl, -, rfl⟩ := blanks_cons_inj h (by decide) (by decide)
      rw [Atom.chars_injective (hcons.trans hother.symm)]
    | negated => exact absurd (blanks_cons_inj h (by decide) (by decide)).2.1 (by decide)
    | group => exact absurd (blanks_cons_inj h (by decide) (by decide)).2.1 (by decide)
  | negated before inner ih =>
    cases u with
    | atom blanks other =>
      obtain ⟨others, hother⟩ := other.exists_chars_eq_cons
      rw [chars, chars, hother] at h
      exact absurd (blanks_cons_inj h (by decide) (by decide)).2.1 (by decide)
    | negated blanks other =>
      obtain ⟨rfl, -, hchars⟩ := blanks_cons_inj h (by decide) (by decide)
      rw [ih hchars]
    | group => exact absurd (blanks_cons_inj h (by decide) (by decide)).2.1 (by decide)
  | group before inner close ih =>
    cases u with
    | atom blanks other =>
      obtain ⟨others, hother⟩ := other.exists_chars_eq_cons
      rw [chars, chars, hother] at h
      exact absurd (blanks_cons_inj h (by decide) (by decide)).2.1 (by decide)
    | negated => exact absurd (blanks_cons_inj h (by decide) (by decide)).2.1 (by decide)
    | group blanks other shut =>
      obtain ⟨rfl, -, hrest⟩ := blanks_cons_inj h (by decide) (by decide)
      obtain ⟨hchars, rfl⟩ := group_inj hrest
      rw [ih hchars]
  | conjunction first more ihfirst ihmore =>
    cases u with
    | conjunction other others =>
      obtain ⟨hfirst, hmore⟩ := conjunct_inj h
      rw [ihfirst hfirst, ihmore hmore]
  | noConjunct =>
    cases u with
    | noConjunct => rfl
    | conjunct blanks => simp [chars] at h
  | conjunct before next more ihnext ihmore =>
    cases u with
    | noConjunct => simp [chars] at h
    | conjunct blanks other others =>
      obtain ⟨rfl, -, hrest⟩ := blanks_cons_inj h (by decide) (by decide)
      obtain ⟨hnext, hmore⟩ := conjunct_inj (List.cons.inj hrest).2
      rw [ihnext hnext, ihmore hmore]
  | disjunction first more ihfirst ihmore =>
    cases u with
    | disjunction other others =>
      obtain ⟨hfirst, hmore⟩ := disjunct_inj h
      rw [ihfirst hfirst, ihmore hmore]
  | noDisjunct =>
    cases u with
    | noDisjunct => rfl
    | disjunct blanks => simp [chars] at h
  | disjunct before next more ihnext ihmore =>
    cases u with
    | noDisjunct => simp [chars] at h
    | disjunct blanks other others =>
      obtain ⟨rfl, -, hrest⟩ := blanks_cons_inj h (by decide) (by decide)
      obtain ⟨hnext, hmore⟩ := disjunct_inj (List.cons.inj hrest).2
      rw [ihnext hnext, ihmore hmore]

end Tree

/-- A text has at most one derivation. -/
theorem Derivation.text_injective : Function.Injective Derivation.text := by
  intro d e h
  obtain ⟨hchars, hafter⟩ := eq_of_reads (fun text ↦ outcome (disjunction text))
    (d.tree.reads _ (ends_blanks d.after)) (e.tree.reads _ (ends_blanks e.after))
    (String.ofList_injective h)
  obtain ⟨t, after⟩ := d
  obtain ⟨u, others⟩ := e
  cases Tree.eq_of_chars_eq hchars
  cases Subtype.ext hafter
  rfl

/-- Reading a guard is the same as deriving it, and what is derived is derived in one way. -/
theorem parse_iff_derives :
    (∀ (s : String) (g : Guard), parse s = .ok g ↔ ∃ d : Derivation, d.text = s ∧ d.guard = g) ∧
      Function.Injective Derivation.text := by
  refine ⟨fun s g ↦ ⟨exists_derivation, ?_⟩, Derivation.text_injective⟩
  rintro ⟨d, rfl, rfl⟩
  exact parse_of_derivation d

end StateMachine.Guard
