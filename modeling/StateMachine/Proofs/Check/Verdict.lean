import StateMachine.Proofs.Check.Report

/-!
The verdict on each transition. A transition is judged by the earlier ones that leave the same state
on the same event: it clashes with one of them, or overlaps with one, or there is nothing to report
(`Machine.competition_eq_iff`). The verdicts on all transitions, one after the other, are what the
rule on competing transitions reports (`Machine.competingTransitions_eq_flatMap`), and a check
reports nothing else by the two rules on them (`Machine.competitionReports_exact`).
-/

set_option autoImplicit false

namespace StateMachine

namespace Transition

variable {t u : Transition}

/-- The transitions leave one state on one event, and at least one of them has no guard. -/
def Clashes (t u : Transition) : Prop :=
  t.source = u.source ∧ t.event = u.event ∧ (t.guard = none ∨ u.guard = none)

/-- The transitions leave one state on one event, both have guards, and these do not exclude each
other. -/
def Overlaps (t u : Transition) : Prop :=
  t.source = u.source ∧ t.event = u.event ∧
    ∃ g h, t.guard = some g ∧ u.guard = some h ∧ g.excludes h = false

theorem clashes_iff : t.Clashes u ↔ t.competesWith u ∧ t.lacksGuard u := by
  simp only [Clashes, competesWith_iff, lacksGuard, Bool.or_eq_true, Option.isNone_iff_eq_none,
    and_assoc]

theorem overlaps_iff :
    t.Overlaps u ↔ t.competesWith u ∧ t.lacksGuard u = false ∧ t.excludes u = false := by
  rw [Overlaps, competesWith_iff, and_assoc, lacksGuard_eq_false_iff]
  unfold excludes
  cases t.guard <;> cases u.guard <;> simp

/-- Transitions are compatible exactly if they neither clash nor overlap. -/
theorem compatible_iff : t.Compatible u ↔ ¬t.Clashes u ∧ ¬t.Overlaps u := by
  rw [clashes_iff, overlaps_iff, Compatible]
  constructor
  · intro hcompatible
    constructor
    · rintro ⟨hcompetes, hlacks⟩
      rw [lacksGuard_of_excludes (hcompatible hcompetes)] at hlacks
      cases hlacks
    · rintro ⟨hcompetes, -, hexcludes⟩
      rw [hcompatible hcompetes] at hexcludes
      cases hexcludes
  · rintro ⟨hclashes, hoverlaps⟩ hcompetes
    have hguards : t.lacksGuard u = false :=
      Bool.eq_false_iff.mpr fun hlacks ↦ hclashes ⟨hcompetes, hlacks⟩
    exact Bool.of_not_eq_false fun hexcludes ↦ hoverlaps ⟨hcompetes, hguards, hexcludes⟩

/-- The report on a transition that clashes with an earlier one. -/
def duplicate (t : Transition) : Diagnostic :=
  ⟨.duplicateTransition t.source t.event, t.location⟩

/-- The report on a transition that overlaps with an earlier one. -/
def overlapping (t : Transition) : Diagnostic :=
  ⟨.overlappingGuards t.source t.event, t.location⟩

end Transition

namespace Machine

variable {m : Machine}

/-! ### One transition -/

/-- The report on a transition says which of the three holds: it clashes with an earlier one, or
with none but overlaps with one, or neither. -/
theorem competition_eq_iff (earlier : List Transition) (t : Transition) :
    (competition earlier t = [t.duplicate] ↔ ∃ u ∈ earlier, u.Clashes t) ∧
    (competition earlier t = [t.overlapping] ↔
      (∀ u ∈ earlier, ¬u.Clashes t) ∧ ∃ u ∈ earlier, u.Overlaps t) ∧
    (competition earlier t = [] ↔ ∀ u ∈ earlier, ¬u.Clashes t ∧ ¬u.Overlaps t) := by
  have hdistinct : [t.duplicate] ≠ [t.overlapping] := by
    simp [Transition.duplicate, Transition.overlapping]
  rcases competition_cases earlier t with
    ⟨⟨u, hu, hcompetes, hlacks⟩, hreport⟩ | ⟨hguards, ⟨u, hu, hcompetes, hexcludes⟩, hreport⟩ |
      ⟨hcompatible, hreport⟩
  · have hclashes : u.Clashes t := Transition.clashes_iff.mpr ⟨hcompetes, hlacks⟩
    rw [hreport]
    exact ⟨iff_of_true rfl ⟨u, hu, hclashes⟩,
      iff_of_false hdistinct fun hnone ↦ hnone.1 u hu hclashes,
      iff_of_false (List.cons_ne_nil _ _) fun hnone ↦ (hnone u hu).1 hclashes⟩
  · have hoverlaps : u.Overlaps t :=
      Transition.overlaps_iff.mpr ⟨hcompetes, hguards u hu hcompetes, hexcludes⟩
    have hnone : ∀ v ∈ earlier, ¬v.Clashes t := by
      intro v hv hclashes
      obtain ⟨hrival, hlacks⟩ := Transition.clashes_iff.mp hclashes
      rw [hguards v hv hrival] at hlacks
      cases hlacks
    rw [hreport]
    exact ⟨iff_of_false hdistinct.symm fun ⟨v, hv, hclashes⟩ ↦ hnone v hv hclashes,
      iff_of_true rfl ⟨hnone, u, hu, hoverlaps⟩,
      iff_of_false (List.cons_ne_nil _ _) fun hneither ↦ (hneither u hu).2 hoverlaps⟩
  · have hneither : ∀ u ∈ earlier, ¬u.Clashes t ∧ ¬u.Overlaps t :=
      fun u hu ↦ Transition.compatible_iff.mp (hcompatible u hu)
    rw [hreport]
    exact ⟨iff_of_false (List.cons_ne_nil _ _).symm
        fun ⟨u, hu, hclashes⟩ ↦ (hneither u hu).1 hclashes,
      iff_of_false (List.cons_ne_nil _ _).symm
        fun ⟨_, u, hu, hoverlaps⟩ ↦ (hneither u hu).2 hoverlaps,
      iff_of_true rfl hneither⟩

/-! ### All transitions -/

/-- Transitions are judged in their order, each by all that come before it. -/
theorem competitions_eq_flatMap (earlier later : List Transition) :
    competitions earlier later = (List.finRange later.length).flatMap fun j : Fin later.length ↦
      competition (earlier ++ later.take j) later[j] := by
  induction later generalizing earlier with
  | nil => rfl
  | cons t later ih =>
    have hsplit : List.finRange (t :: later).length =
        0 :: (List.finRange later.length).map Fin.succ := List.finRange_succ
    rw [competitions, ih, hsplit, List.flatMap_cons, List.flatMap_map]
    simp

theorem competingTransitions_eq_flatMap (m : Machine) :
    m.competingTransitions =
      (List.finRange m.transitions.length).flatMap fun j : Fin m.transitions.length ↦
        competition (m.transitions.take j) m.transitions[j] :=
  competitions_eq_flatMap [] m.transitions

/-- The transitions before one of them are those of smaller index. -/
theorem forall_mem_take_iff {α : Type} {xs : List α} {j : Fin xs.length} {property : α → Prop} :
    (∀ x ∈ xs.take j, property x) ↔ ∀ i < j, property xs[i] := by
  simp only [List.mem_take_iff_getElem, forall_exists_index]
  constructor
  · intro h i hi
    exact h _ i (Nat.lt_min.mpr ⟨hi, i.isLt⟩) rfl
  · rintro h _ i hi rfl
    obtain ⟨hbefore, hlength⟩ := Nat.lt_min.mp hi
    exact h ⟨i, hlength⟩ hbefore

theorem exists_mem_take_iff {α : Type} {xs : List α} {j : Fin xs.length} {property : α → Prop} :
    (∃ x ∈ xs.take j, property x) ↔ ∃ i < j, property xs[i] := by
  have hnot : (∀ x ∈ xs.take j, ¬property x) ↔ ∀ i < j, ¬property xs[i] := forall_mem_take_iff
  rw [← not_iff_not]
  simpa only [not_exists, not_and] using hnot

/-- What is reported on each transition, by its index. The three cases exclude each other and leave
out none, so there is one report at most. -/
structure Verdicts (m : Machine) (verdict : Fin m.transitions.length → List Diagnostic) :
    Prop where
  duplicate (j : Fin m.transitions.length) : verdict j = [m.transitions[j].duplicate] ↔
    ∃ i < j, m.transitions[i].Clashes m.transitions[j]
  overlapping (j : Fin m.transitions.length) : verdict j = [m.transitions[j].overlapping] ↔
    (∀ i < j, ¬m.transitions[i].Clashes m.transitions[j]) ∧
      ∃ i < j, m.transitions[i].Overlaps m.transitions[j]
  silent (j : Fin m.transitions.length) : verdict j = [] ↔
    ∀ i < j, ¬m.transitions[i].Clashes m.transitions[j] ∧
      ¬m.transitions[i].Overlaps m.transitions[j]

theorem verdicts_competition (m : Machine) :
    m.Verdicts fun j ↦ competition (m.transitions.take j) m.transitions[j] where
  duplicate j := by
    rw [(competition_eq_iff _ _).1, exists_mem_take_iff]
  overlapping j := by
    rw [(competition_eq_iff _ _).2.1, forall_mem_take_iff, exists_mem_take_iff]
  silent j := by
    rw [(competition_eq_iff _ _).2.2, forall_mem_take_iff]

/-! ### Transitions of one state on one event -/

/-- The transitions that leave a state on an event, in the order of their declaration. -/
def rivals (m : Machine) (source event : String) : List Transition :=
  m.transitions.filter fun t ↦ t.source == source && t.event == event

theorem subject_of_mem_competition {earlier : List Transition} {t : Transition} {d : Diagnostic}
    (h : d ∈ competition earlier t) : d.problem.subject = .transition t.source t.event := by
  rcases competition_cases earlier t with ⟨-, hreport⟩ | ⟨-, -, hreport⟩ | ⟨-, hreport⟩
  · rw [hreport, List.mem_singleton] at h
    rw [h, Problem.subject]
  · rw [hreport, List.mem_singleton] at h
    rw [h, Problem.subject]
  · rw [hreport] at h
    cases h

/-- Nothing is reported for the state and the event on a transition, unless it is one of theirs and
not compatible with all earlier ones. -/
theorem forall_mem_competition_subject_ne_iff (earlier : List Transition) (t : Transition)
    (source event : String) :
    (∀ d ∈ competition earlier t, d.problem.subject ≠ .transition source event) ↔
      ∀ u ∈ earlier, t.source = source ∧ t.event = event → u.Compatible t := by
  by_cases hleaves : t.source = source ∧ t.event = event
  · obtain ⟨rfl, rfl⟩ := hleaves
    have hsilent : (∀ d ∈ competition earlier t,
        d.problem.subject ≠ .transition t.source t.event) ↔ competition earlier t = [] := by
      rw [List.eq_nil_iff_forall_not_mem]
      exact forall₂_congr fun d hd ↦ iff_of_false
        (fun hne ↦ hne (subject_of_mem_competition hd)) id
    rw [hsilent, competition_eq_nil_iff]
    simp only [and_self, true_implies]
  · refine iff_of_true (fun d hd hsubject ↦ hleaves ?_) fun u _ h ↦ absurd h hleaves
    rw [subject_of_mem_competition hd] at hsubject
    exact Subject.transition.inj hsubject

/-- Any two of some transitions exclude each other if there is one at most, or if all of them have
guards of which any two do. -/
theorem pairwise_excludes_iff {transitions : List Transition} :
    transitions.Pairwise (fun t u ↦ t.excludes u) ↔
      transitions.length ≤ 1 ∨ (∀ t ∈ transitions, t.guard.isSome) ∧
        transitions.Pairwise fun t u ↦
          ∀ g h, t.guard = some g → u.guard = some h → g.excludes h := by
  have hexcludes {t u : Transition} (ht : t.guard.isSome) (hu : u.guard.isSome) :
      t.excludes u ↔ ∀ g h, t.guard = some g → u.guard = some h → g.excludes h := by
    obtain ⟨g, hg⟩ := Option.isSome_iff_exists.mp ht
    obtain ⟨k, hk⟩ := Option.isSome_iff_exists.mp hu
    simp [Transition.excludes, hg, hk]
  constructor
  · intro hpairs
    by_cases hlength : transitions.length ≤ 1
    · exact Or.inl hlength
    · have hguards : ∀ t ∈ transitions, t.guard.isSome := by
        have hlacks := hpairs.imp fun h ↦ Transition.lacksGuard_of_excludes h
        rw [pairwise_lacksGuard_iff] at hlacks
        intro t ht
        rw [Option.isSome_iff_ne_none]
        exact fun hnone ↦ hlacks ⟨Nat.lt_of_not_le hlength, t, ht, hnone⟩
      refine Or.inr ⟨hguards, hpairs.imp_of_mem fun ht hu h ↦ ?_⟩
      exact (hexcludes (hguards _ ht) (hguards _ hu)).mp h
  · rintro (hlength | ⟨hguards, hpairs⟩)
    · match transitions with
      | [] => exact .nil
      | [t] => exact List.pairwise_singleton _ t
    · exact hpairs.imp_of_mem fun ht hu h ↦ (hexcludes (hguards _ ht) (hguards _ hu)).mpr h

/-- No report is made for a state and an event exactly if any two of their transitions exclude each
other. -/
theorem forall_mem_competingTransitions_subject_ne_iff {source event : String} :
    (∀ d ∈ m.competingTransitions, d.problem.subject ≠ .transition source event) ↔
      (m.rivals source event).Pairwise fun t u ↦ t.excludes u := by
  have hreports := forall_mem_competitions_iff [] m.transitions
    fun earlier t ↦ forall_mem_competition_subject_ne_iff earlier t source event
  simp only [List.not_mem_nil, false_implies, implies_true, true_and] at hreports
  rw [competingTransitions, hreports, rivals, List.pairwise_filter]
  refine List.Pairwise.iff fun u t ↦ ?_
  simp only [Bool.and_eq_true, beq_iff_eq, Transition.Compatible, Transition.competesWith_iff]
  constructor
  · rintro h ⟨rfl, rfl⟩ ht
    exact h ht ⟨ht.1.symm, ht.2.symm⟩
  · rintro h ⟨rfl, rfl⟩ hcompetes
    exact h hcompetes ⟨rfl, rfl⟩

/-! ### Whole checks -/

/-- What a check reports by the two rules on competing transitions, in order. -/
def competitionReports (m : Machine) (options : CheckOptions) : List Diagnostic :=
  (m.check options).filter fun d ↦ d.rule = .duplicateTransition ∨ d.rule = .overlappingGuards

theorem AllBy.filter_competition {rule : Rule} {diagnostics : List Diagnostic}
    (h : AllBy rule diagnostics) (hduplicate : rule ≠ .duplicateTransition)
    (hoverlapping : rule ≠ .overlappingGuards) :
    diagnostics.filter
      (fun d ↦ d.rule = .duplicateTransition ∨ d.rule = .overlappingGuards) = [] :=
  List.filter_eq_nil_iff.mpr fun d hd ↦ by simp [h d hd, hduplicate, hoverlapping]

/-- Only the section on competing transitions reports by the two rules on them. -/
theorem competitionReports_eq (m : Machine) (options : CheckOptions) :
    m.competitionReports options = m.competingTransitions := by
  have hinitial : m.initialProblems.filter
      (fun d ↦ d.rule = .duplicateTransition ∨ d.rule = .overlappingGuards) = [] := by
    refine List.filter_eq_nil_iff.mpr fun d hd ↦ ?_
    rcases rule_of_mem_initialProblems hd with h | h
    · simp [h]
    · simp [h]
  have hself : m.competingTransitions.filter
      (fun d ↦ d.rule = .duplicateTransition ∨ d.rule = .overlappingGuards) =
        m.competingTransitions :=
    List.filter_eq_self.mpr fun d hd ↦ decide_eq_true (rule_of_mem_competitions hd)
  rw [competitionReports]
  simp only [check, List.filter_append, hinitial, hself,
    (allBy_duplicateStates m).filter_competition (by decide) (by decide),
    (allBy_duplicateDeclarations m).filter_competition (by decide) (by decide),
    (allBy_undeclaredStates m).filter_competition (by decide) (by decide),
    (allBy_undeclaredEvents m).filter_competition (by decide) (by decide),
    (allBy_undeclaredCommands m).filter_competition (by decide) (by decide),
    (allBy_idleTransitions m).filter_competition (by decide) (by decide),
    (allBy_optional m options).filter_competition (by decide) (by decide),
    List.nil_append, List.append_nil]

/-- By the two rules on competing transitions a check reports the verdicts on all transitions, in
their order. It reports nothing for a state and an event exactly if there is one transition at most,
or all have guards and any two of these exclude each other. -/
theorem competitionReports_exact (m : Machine) (options : CheckOptions) :
    (∃ verdict, m.Verdicts verdict ∧
      m.competitionReports options = (List.finRange m.transitions.length).flatMap verdict) ∧
    ∀ source event,
      (∀ d ∈ m.competitionReports options, d.problem.subject ≠ .transition source event) ↔
        (m.rivals source event).length ≤ 1 ∨
          (∀ t ∈ m.rivals source event, t.guard.isSome) ∧
            (m.rivals source event).Pairwise fun t u ↦
              ∀ g h, t.guard = some g → u.guard = some h → g.excludes h := by
  rw [competitionReports_eq]
  refine ⟨⟨_, m.verdicts_competition, m.competingTransitions_eq_flatMap⟩, fun source event ↦ ?_⟩
  rw [forall_mem_competingTransitions_subject_ne_iff, pairwise_excludes_iff]

end Machine

end StateMachine
