import Mathlib.Logic.Basic
import StateMachine.Check.Rules

/-!
Transitions that leave one state on one event. The rule on them is silent exactly if of any two of
them the guards exclude each other (`Machine.competingTransitions_eq_nil_iff`).
-/

set_option autoImplicit false

namespace StateMachine

namespace Transition

variable {t u : Transition}

theorem competesWith_iff : t.competesWith u ↔ t.source = u.source ∧ t.event = u.event := by
  simp only [competesWith, Bool.and_eq_true, beq_iff_eq]

/-- Transitions exclude each other by their guards. -/
theorem exists_guards_of_excludes (h : t.excludes u) :
    ∃ g k, t.guard = some g ∧ u.guard = some k ∧ g.excludes k := by
  unfold excludes at h
  split at h
  · next g k hg hk => exact ⟨g, k, hg, hk, h⟩
  · cases h

theorem lacksGuard_eq_false_iff : t.lacksGuard u = false ↔ t.guard.isSome ∧ u.guard.isSome := by
  simp [lacksGuard]

theorem lacksGuard_of_excludes (h : t.excludes u) : t.lacksGuard u = false := by
  obtain ⟨g, k, hg, hk, -⟩ := exists_guards_of_excludes h
  simp only [lacksGuard, hg, hk, Option.isNone_some, Bool.or_self]

/-- The transitions do not compete, or their guards exclude each other. -/
def Compatible (t u : Transition) : Prop :=
  t.competesWith u → t.excludes u

end Transition

namespace Machine

variable {earlier later : List Transition} {t : Transition} {d : Diagnostic}

/-- Compatible transitions have guards if they compete. -/
theorem lacksGuard_of_compatible (h : ∀ u ∈ earlier, u.Compatible t) :
    ∀ u ∈ earlier, u.competesWith t → u.lacksGuard t = false :=
  fun u hu hcompetes ↦ Transition.lacksGuard_of_excludes (h u hu hcompetes)

/-- What is reported on a transition depends on the earlier ones that it competes with: one of them,
or itself, lacks a guard, or some guards may hold together, or it is compatible with all of them. -/
theorem competition_cases (earlier : List Transition) (t : Transition) :
    ((∃ u ∈ earlier, u.competesWith t ∧ u.lacksGuard t) ∧
        competition earlier t = [⟨.duplicateTransition t.source t.event, t.location⟩]) ∨
      ((∀ u ∈ earlier, u.competesWith t → u.lacksGuard t = false) ∧
        (∃ u ∈ earlier, u.competesWith t ∧ u.excludes t = false) ∧
        competition earlier t = [⟨.overlappingGuards t.source t.event, t.location⟩]) ∨
      ((∀ u ∈ earlier, u.Compatible t) ∧ competition earlier t = []) := by
  have hrivals (property : Transition → Bool) :
      (earlier.filter (·.competesWith t)).any property ↔
        ∃ u ∈ earlier, u.competesWith t ∧ property u := by
    simp only [List.any_eq_true, List.mem_filter, and_assoc]
  unfold competition
  dsimp only
  split
  · next hlacks => exact Or.inl ⟨(hrivals _).mp hlacks, rfl⟩
  · next hguards =>
    simp only [hrivals, not_exists, not_and, Bool.not_eq_true] at hguards
    split
    · next hoverlap =>
      have hsome := (hrivals _).mp hoverlap
      simp only [Bool.not_eq_true'] at hsome
      exact Or.inr (Or.inl ⟨hguards, hsome, rfl⟩)
    · next hexclude =>
      simp only [hrivals, not_exists, not_and, Bool.not_eq_true, Bool.not_eq_false'] at hexclude
      exact Or.inr (Or.inr ⟨hexclude, rfl⟩)

/-- A transition is reported unless it is compatible with every earlier one. -/
theorem competition_eq_nil_iff : competition earlier t = [] ↔ ∀ u ∈ earlier, u.Compatible t := by
  rcases competition_cases earlier t with
    ⟨⟨u, hu, hcompetes, hlacks⟩, hreport⟩ | ⟨-, ⟨u, hu, hcompetes, hoverlap⟩, hreport⟩ |
      ⟨hcompatible, hreport⟩
  · refine iff_of_false (by simp [hreport]) fun hall ↦ ?_
    rw [lacksGuard_of_compatible hall u hu hcompetes] at hlacks
    cases hlacks
  · refine iff_of_false (by simp [hreport]) fun hall ↦ ?_
    rw [hall u hu hcompetes] at hoverlap
    cases hoverlap
  · exact iff_of_true hreport hcompatible

/-- What holds of the report on each transition exactly if the transition has some relation to
every earlier one, holds of all reports exactly if any two transitions have it. -/
theorem forall_mem_competitions_iff (earlier later : List Transition)
    {property : Diagnostic → Prop} {relation : Transition → Transition → Prop}
    (hreport : ∀ earlier t,
      (∀ d ∈ competition earlier t, property d) ↔ ∀ u ∈ earlier, relation u t) :
    (∀ d ∈ competitions earlier later, property d) ↔
      (∀ u ∈ earlier, ∀ t ∈ later, relation u t) ∧ later.Pairwise relation := by
  induction later generalizing earlier with
  | nil => simp [competitions]
  | cons t later ih =>
    rw [competitions, List.forall_mem_append, hreport, ih, List.pairwise_cons]
    simp only [List.mem_append, List.mem_cons, List.not_mem_nil, or_false, forall_eq_or_imp]
    constructor
    · rintro ⟨hfirst, hothers, hpairs⟩
      exact ⟨fun u hu ↦ ⟨hfirst u hu, hothers u (Or.inl hu)⟩, hothers t (Or.inr rfl), hpairs⟩
    · rintro ⟨hearlier, hfirst, hpairs⟩
      refine ⟨fun u hu ↦ (hearlier u hu).1, ?_, hpairs⟩
      rintro u (hu | rfl)
      · exact (hearlier u hu).2
      · exact hfirst

/-- The rule on competing transitions is silent exactly if any two transitions are compatible. -/
theorem competingTransitions_eq_nil_iff {m : Machine} :
    m.competingTransitions = [] ↔ m.transitions.Pairwise Transition.Compatible := by
  have hreport (earlier : List Transition) (t : Transition) :
      (∀ d ∈ competition earlier t, False) ↔ ∀ u ∈ earlier, u.Compatible t := by
    rw [← competition_eq_nil_iff, List.eq_nil_iff_forall_not_mem]
  rw [competingTransitions, List.eq_nil_iff_forall_not_mem]
  refine (forall_mem_competitions_iff [] m.transitions hreport).trans ?_
  simp

/-! ### Unguarded transitions -/

/-- A transition is reported as a duplicate unless it and every earlier one that it competes with
have guards. -/
theorem forall_mem_competition_ne_iff (earlier : List Transition) (t : Transition)
    (source event : String) :
    (∀ d ∈ competition earlier t, d.problem ≠ .duplicateTransition source event) ↔
      ∀ u ∈ earlier, t.source = source ∧ t.event = event → u.competesWith t →
        u.lacksGuard t = false := by
  rcases competition_cases earlier t with
    ⟨⟨u, hu, hcompetes, hlacks⟩, hreport⟩ | ⟨hguards, -, hreport⟩ | ⟨hcompatible, hreport⟩
  · rw [hreport, List.forall_mem_singleton]
    constructor
    · rintro hne v hv ⟨rfl, rfl⟩
      exact absurd rfl hne
    · intro hall hduplicate
      obtain ⟨hsource, hevent⟩ := Problem.duplicateTransition.inj hduplicate
      rw [hall u hu ⟨hsource, hevent⟩ hcompetes] at hlacks
      cases hlacks
  · rw [hreport, List.forall_mem_singleton]
    exact iff_of_true Problem.noConfusion fun u hu _ ↦ hguards u hu
  · rw [hreport]
    exact iff_of_true (List.forall_mem_nil _)
      fun u hu _ ↦ lacksGuard_of_compatible hcompatible u hu

/-- Any two of some transitions have guards unless there are several and one has none. -/
theorem pairwise_lacksGuard_iff {transitions : List Transition} :
    (transitions.Pairwise fun t u ↦ t.lacksGuard u = false) ↔
      ¬(1 < transitions.length ∧ ∃ t ∈ transitions, t.guard = none) := by
  simp only [Transition.lacksGuard_eq_false_iff, Option.isSome_iff_ne_none]
  match transitions with
  | [] => simp
  | [t] => simp
  | t :: u :: rest =>
    constructor
    · rintro hpairs ⟨-, v, hv, hnone⟩
      have hfirst := (List.pairwise_cons.mp hpairs).1
      rcases List.mem_cons.mp hv with rfl | hrest
      · exact (hfirst u List.mem_cons_self).1 hnone
      · exact (hfirst v hrest).2 hnone
    · intro hnone
      have hall : ∀ v ∈ t :: u :: rest, v.guard ≠ none :=
        fun v hv hv' ↦ hnone ⟨by simp, v, hv, hv'⟩
      exact List.pairwise_of_forall_mem_list fun v hv w hw ↦ ⟨hall v hv, hall w hw⟩

/-- A duplicate is reported for a state and an event exactly if several transitions leave the state
on the event and one of them has no guard. -/
theorem exists_duplicateTransition_iff {m : Machine} {source event : String} :
    (∃ d ∈ m.competingTransitions, d.problem = .duplicateTransition source event) ↔
      1 < ((m.outgoing source).filter (·.event == event)).length ∧
        ∃ t ∈ (m.outgoing source).filter (·.event == event), t.guard = none := by
  rw [← not_iff_not, ← pairwise_lacksGuard_iff]
  have hreports := forall_mem_competitions_iff [] m.transitions
    fun earlier t ↦ forall_mem_competition_ne_iff earlier t source event
  simp only [List.not_mem_nil, false_implies, implies_true, true_and] at hreports
  simp only [not_exists, not_and]
  rw [competingTransitions, hreports, outgoing, List.filter_filter, List.pairwise_filter]
  refine List.Pairwise.iff fun u t ↦ ?_
  simp only [Bool.and_eq_true, beq_iff_eq, Transition.competesWith_iff]
  constructor
  · rintro h ⟨huevent, husource⟩ ⟨htevent, htsource⟩
    exact h ⟨htsource, htevent⟩ ⟨husource.trans htsource.symm, huevent.trans htevent.symm⟩
  · rintro h ⟨htsource, htevent⟩ ⟨hsource, hevent⟩
    exact h ⟨hevent.trans htevent, hsource.trans htsource⟩ ⟨htevent, htsource⟩

/-! ### The two reports of the rule -/

theorem rule_of_mem_competition (h : d ∈ competition earlier t) :
    d.rule = .duplicateTransition ∨ d.rule = .overlappingGuards := by
  rcases competition_cases earlier t with ⟨-, hreport⟩ | ⟨-, -, hreport⟩ | ⟨-, hreport⟩
  · rw [hreport, List.mem_singleton] at h
    exact Or.inl (by rw [h]; rfl)
  · rw [hreport, List.mem_singleton] at h
    exact Or.inr (by rw [h]; rfl)
  · rw [hreport] at h
    cases h

theorem rule_of_mem_competitions (h : d ∈ competitions earlier later) :
    d.rule = .duplicateTransition ∨ d.rule = .overlappingGuards := by
  induction later generalizing earlier with
  | nil => cases h
  | cons t later ih =>
    rcases List.mem_append.mp h with hfirst | hrest
    · exact rule_of_mem_competition hfirst
    · exact ih hrest

/-- A check that reports neither duplicate transitions nor overlapping guards finds any two
transitions compatible. -/
theorem pairwise_compatible_of_check {m : Machine} {options : CheckOptions}
    (h : ∀ d ∈ m.check options, d.rule ≠ .duplicateTransition ∧ d.rule ≠ .overlappingGuards) :
    m.transitions.Pairwise Transition.Compatible := by
  rw [← competingTransitions_eq_nil_iff, List.eq_nil_iff_forall_not_mem]
  intro d hd
  have hmem : d ∈ m.check options := by simp only [check, List.mem_append, hd, true_or, or_true]
  rcases rule_of_mem_competitions hd with hduplicate | hoverlapping
  · exact (h d hmem).1 hduplicate
  · exact (h d hmem).2 hoverlapping

end Machine

end StateMachine
