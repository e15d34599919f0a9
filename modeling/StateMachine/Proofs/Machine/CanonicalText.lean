import Mathlib.Data.List.Basic
import StateMachine.Proofs.Except
import StateMachine.Proofs.Guard.Operand
import StateMachine.Proofs.Machine.RoundTrip

/-!
When two machines have the same canonical text. Machines that were read differ at most in their
locations if their texts are equal, since each text is read back; and a text determines the numbers
of the guards with their signs. Sameness compares numbers by value and so forgets the sign of zero,
which the text shows. Apart from it the two agree (`Machine.text_eq_iff`).
-/

set_option autoImplicit false

namespace StateMachine

open Numeric
open FiniteDouble

/-! ### Parts of machines -/

theorem Declaration.unlocated_eq_of_sameAs {d e : Declaration} (h : d.sameAs e) :
    d.unlocated = e.unlocated := by
  simp only [sameAs, Bool.and_eq_true, beq_iff_eq] at h
  simp only [unlocated, h]

theorem State.unlocated_eq_of_sameAs {s t : State} (h : s.sameAs t) :
    s.unlocated = t.unlocated := by
  simp only [sameAs, Bool.and_eq_true, beq_iff_eq] at h
  simp only [unlocated, h]

namespace Transition

def numbers (t : Transition) : List FiniteDouble :=
  t.guard.elim [] Guard.numbers

variable {t u : Transition}

theorem map_value_numbers (hsame : t.sameAs u) : t.numbers.map value = u.numbers.map value := by
  simp only [sameAs, Bool.and_eq_true] at hsame
  obtain ⟨⟨-, hguard⟩, -⟩ := hsame
  unfold numbers
  generalize t.guard = first at hguard ⊢
  generalize u.guard = second at hguard ⊢
  cases first <;> cases second <;> simp only [sameGuard, Bool.false_eq_true] at hguard
  case none.none => rfl
  case some.some g h => exact Guard.map_value_numbers hguard

theorem unlocated_eq_of_sameAs (hprintable : t.isPrintable) (hsame : t.sameAs u)
    (hnumbers : t.numbers = u.numbers) : t.unlocated = u.unlocated := by
  simp only [isPrintable, Bool.and_eq_true] at hprintable
  simp only [sameAs, Bool.and_eq_true, beq_iff_eq] at hsame
  obtain ⟨⟨⟨⟨hsource, htarget⟩, hevent⟩, hsameGuard⟩, haction⟩ := hsame
  have hguard : t.guard = u.guard := by
    unfold numbers at hnumbers
    generalize t.guard = first at hprintable hsameGuard hnumbers ⊢
    generalize u.guard = second at hsameGuard hnumbers ⊢
    cases first <;> cases second <;> simp only [sameGuard, Bool.false_eq_true] at hsameGuard
    case none.none => rfl
    case some.some g h => rw [Guard.eq_of_sameAs hprintable.1.2 hsameGuard hnumbers]
  simp only [unlocated, hsource, htarget, hevent, hguard, haction]

end Transition

/-! ### Machines -/

namespace Machine

variable {m n : Machine}

/-- The numbers in the guards, in the order of the transitions. -/
def numbers (m : Machine) : List FiniteDouble :=
  m.transitions.flatMap Transition.numbers

theorem numbers_unlocated (m : Machine) : m.unlocated.numbers = m.numbers := by
  rw [numbers, unlocated, List.flatMap_map]
  rfl

/-- What agrees element by element is mapped to the same. -/
theorem map_eq_of_listsAgree {α β : Type} {agree : α → α → Bool} {f : α → β}
    (h : ∀ x y, agree x y → f x = f y) {xs ys : List α} (hagree : listsAgree agree xs ys) :
    xs.map f = ys.map f := by
  induction xs generalizing ys with
  | nil =>
    cases ys with
    | nil => rfl
    | cons y ys => cases hagree
  | cons x xs ih =>
    cases ys with
    | nil => cases hagree
    | cons y ys =>
      obtain ⟨hhead, htail⟩ := Bool.and_eq_true_iff.mp hagree
      rw [List.map_cons, List.map_cons, h x y hhead, ih htail]

/-- Transitions that are the same and have the same numbers differ in their locations at most. -/
theorem map_unlocated_eq {ts us : List Transition} (hprintable : ∀ t ∈ ts, t.isPrintable)
    (hagree : listsAgree Transition.sameAs ts us)
    (hnumbers : ts.flatMap Transition.numbers = us.flatMap Transition.numbers) :
    ts.map Transition.unlocated = us.map Transition.unlocated := by
  induction ts generalizing us with
  | nil =>
    cases us with
    | nil => rfl
    | cons u us => cases hagree
  | cons t ts ih =>
    cases us with
    | nil => cases hagree
    | cons u us =>
      obtain ⟨hhead, htail⟩ := Bool.and_eq_true_iff.mp hagree
      obtain ⟨ht, hts⟩ := List.forall_mem_cons.mp hprintable
      have hlength : t.numbers.length = u.numbers.length := by
        rw [← List.length_map value, Transition.map_value_numbers hhead, List.length_map]
      rw [List.flatMap_cons, List.flatMap_cons] at hnumbers
      obtain ⟨hfirst, hrest⟩ := List.append_inj hnumbers hlength
      rw [List.map_cons, List.map_cons, Transition.unlocated_eq_of_sameAs ht hhead hfirst,
        ih hts htail hrest]

/-- Printable machines that are the same differ in their locations at most if their zeros have the
same signs. -/
theorem unlocated_eq_of_sameAs (hprintable : m.Printable) (hsame : m.sameAs n)
    (hsigns : zeroSigns m.numbers = zeroSigns n.numbers) : m.unlocated = n.unlocated := by
  simp only [sameAs, Bool.and_eq_true, beq_iff_eq] at hsame
  obtain ⟨⟨⟨⟨⟨hname, hevents⟩, hresets⟩, hcommands⟩, hstates⟩, htransitions⟩ := hsame
  have hdeclarations {ds es : List Declaration} (h : listsAgree Declaration.sameAs ds es) :
      ds.map Declaration.unlocated = es.map Declaration.unlocated :=
    map_eq_of_listsAgree (fun _ _ hsame ↦ Declaration.unlocated_eq_of_sameAs hsame) h
  have hvalues : m.numbers.map value = n.numbers.map value := by
    have hmapped := map_eq_of_listsAgree
      (f := fun t : Transition ↦ t.numbers.map value)
      (fun _ _ ↦ Transition.map_value_numbers) htransitions
    rw [numbers, numbers, List.map_flatMap, List.map_flatMap, List.flatMap_def, List.flatMap_def,
      hmapped]
  rw [unlocated, unlocated, hname, hdeclarations hevents, hdeclarations hresets,
    hdeclarations hcommands,
    map_eq_of_listsAgree (fun _ _ hsame ↦ State.unlocated_eq_of_sameAs hsame) hstates,
    map_unlocated_eq hprintable.transitions htransitions (eq_of_zeroSigns_eq hvalues hsigns)]

/-- A canonical text determines the machine up to its locations, since it can be read back. -/
theorem unlocated_eq_of_text_eq (hm : m.Printable) (hn : n.Printable) (h : m.text = n.text) :
    m.unlocated = n.unlocated := by
  obtain ⟨m', hparse, hm'⟩ := exists_parseNamed_text hm defaultName
  obtain ⟨n', hparse', hn'⟩ := exists_parseNamed_text hn defaultName
  rw [h, hparse'] at hparse
  cases hparse
  exact hm'.symm.trans hn'

/-- Machines that were read, under any default names, have one canonical text exactly if they are
the same and the zeros in their guards have the same signs; they then have one checksum. -/
theorem text_eq_iff {name other source text : String} (hm : parseNamed name source = .ok m)
    (hn : parseNamed other text = .ok n) :
    (m.text = n.text ↔ m.sameAs n ∧ zeroSigns m.numbers = zeroSigns n.numbers) ∧
      (m.sameAs n → zeroSigns m.numbers = zeroSigns n.numbers → m.checksum = n.checksum) := by
  have hmPrintable := printable_of_parseNamed hm
  have hnPrintable := printable_of_parseNamed hn
  have htext (hsame : m.sameAs n) (hsigns : zeroSigns m.numbers = zeroSigns n.numbers) :
      m.text = n.text := by
    rw [← text_unlocated m, unlocated_eq_of_sameAs hmPrintable hsame hsigns, text_unlocated]
  refine ⟨⟨fun heq ↦ ?_, fun ⟨hsame, hsigns⟩ ↦ htext hsame hsigns⟩, fun hsame hsigns ↦ ?_⟩
  · have hunlocated := unlocated_eq_of_text_eq hmPrintable hnPrintable heq
    refine ⟨sameAs_of_unlocated_eq hunlocated hnPrintable, ?_⟩
    rw [← numbers_unlocated m, hunlocated, numbers_unlocated]
  · rw [checksum, checksum, htext hsame hsigns]

/-- Two descriptions of one machine. -/
def nestedSource : String :=
  "initial state a\n  go=>a/act # here\nend"

def flatSource : String :=
  "machine Machine\n\n\ninitial  state a\n\nend\ntransition a -> a on go / act\n"

theorem text_eq_nestedSource : ∃ m n, parse nestedSource = .ok m ∧ parse flatSource = .ok n ∧
    m.text = n.text ∧ m.sameAs n ∧ m.checksum = n.checksum := by
  obtain ⟨m, hm⟩ := exists_eq_ok (x := parse nestedSource) (by decide +kernel)
  obtain ⟨n, hn⟩ := exists_eq_ok (x := parse flatSource) (by decide +kernel)
  have htexts : (parse nestedSource).toOption.map text = (parse flatSource).toOption.map text := by
    decide +kernel
  rw [hm, hn] at htexts
  have htext : m.text = n.text := Option.some.inj htexts
  obtain ⟨hiff, hchecksum⟩ := text_eq_iff hm hn
  obtain ⟨hsame, hsigns⟩ := hiff.mp htext
  exact ⟨m, n, hm, hn, htext, hsame, hchecksum hsame hsigns⟩

/-- A machine with a guard for a field to be zero. -/
def zeroed (negative : Bool) : Machine :=
  { empty "Machine" with
    states := [⟨"a", true, none, none, .unplaced⟩]
    transitions := [⟨"a", "a", "go", some (.equals "x" (.number (.double (.zero negative)))),
      none, .unplaced⟩] }

theorem printable_zeroed (negative : Bool) : (zeroed negative).Printable where
  name := by cases negative <;> decide
  events d hd := by cases hd
  resetEvents d hd := by cases hd
  commands d hd := by cases hd
  states := by cases negative <;> decide
  transitions := by cases negative <;> decide

/-- The two machines that are read from these descriptions are the same, with different canonical
texts. -/
theorem text_ne_zeroed :
    ∃ m n,
      parse "machine Machine\n\ninitial state a\nend\n\ntransition a -> a on go [ctx.x == 0.0]\n" =
        .ok m ∧
      parse "machine Machine\n\ninitial state a\nend\n\ntransition a -> a on go [ctx.x == -0.0]\n" =
        .ok n ∧
      m.sameAs n ∧ m.text ≠ n.text := by
  obtain ⟨m, hm, hmUnlocated⟩ := exists_parseNamed_text (printable_zeroed false) defaultName
  obtain ⟨n, hn, hnUnlocated⟩ := exists_parseNamed_text (printable_zeroed true) defaultName
  refine ⟨m, n, hm, hn, ?_, ?_⟩
  · rw [← sameAs_unlocated, hmUnlocated, hnUnlocated]
    decide +kernel
  · rw [← text_unlocated m, hmUnlocated, ← text_unlocated n, hnUnlocated]
    decide +kernel

end Machine

end StateMachine
