import Mathlib.Logic.Relation
import StateMachine.Machine.Reachability

/-!
What the search for states finds. Names are connected if a path of transitions leads from one to the
other (`Connected`). The search adds the targets of the transitions that have become available, and
with them nothing new is connected to what has been reached; so it ends with exactly the names that
paths lead to (`mem_reachedBy_iff`, `Machine.mem_reachable_iff`).
-/

set_option autoImplicit false

namespace StateMachine

/-- One of the transitions leads from a name to another. -/
def Joined (transitions : List Transition) (source target : String) : Prop :=
  ∃ t ∈ transitions, t.source = source ∧ t.target = target

/-- A path of transitions, perhaps none, leads from a name to another. -/
def Connected (transitions : List Transition) : String → String → Prop :=
  Relation.ReflTransGen (Joined transitions)

variable {transitions left : List Transition} {reached : List String}
  {source target name : String}

theorem Connected.mono (hsub : left ⊆ transitions) (h : Connected left source target) :
    Connected transitions source target :=
  Relation.ReflTransGen.mono (fun _ _ ⟨t, ht, hends⟩ ↦ ⟨t, hsub ht, hends⟩) _ _ h

/-! ### The search -/

theorem mem_enabledBy_iff {t : Transition} :
    t ∈ enabledBy reached left ↔ t ∈ left ∧ t.source ∈ reached := by
  rw [enabledBy, List.mem_filter, List.contains_iff_mem]

theorem mem_blockedBy_iff {t : Transition} :
    t ∈ blockedBy reached left ↔ t ∈ left ∧ t.source ∉ reached := by
  rw [blockedBy, List.mem_filter, Bool.not_eq_true', ← Bool.not_eq_true, List.contains_iff_mem]

/-- A path leads to the name from one that has been reached. -/
def ReachedFrom (reached : List String) (left : List Transition) (name : String) : Prop :=
  ∃ start ∈ reached, Connected left start name

/-- Without an enabled transition no path leaves what has been reached. -/
theorem mem_of_reachedFrom (hnone : enabledBy reached left = [])
    (h : ReachedFrom reached left name) : name ∈ reached := by
  obtain ⟨start, hstart, hpath⟩ := h
  induction hpath with
  | refl => exact hstart
  | tail _ hjoined ih =>
    obtain ⟨t, ht, rfl, rfl⟩ := hjoined
    have henabled : t ∈ enabledBy reached left := mem_enabledBy_iff.mpr ⟨ht, ih⟩
    rw [hnone] at henabled
    cases henabled

/-- Once the targets of the enabled transitions are reached, these are needed no more. -/
theorem reachedFrom_round_iff :
    ReachedFrom ((enabledBy reached left).map (·.target) ++ reached) (blockedBy reached left) name ↔
      ReachedFrom reached left name := by
  constructor
  · rintro ⟨start, hstart, hpath⟩
    have hpath' : Connected left start name :=
      hpath.mono fun t ht ↦ (mem_blockedBy_iff.mp ht).1
    rcases List.mem_append.mp hstart with htarget | hreached
    · obtain ⟨t, ht, rfl⟩ := List.mem_map.mp htarget
      obtain ⟨hmem, hsource⟩ := mem_enabledBy_iff.mp ht
      exact ⟨t.source, hsource, .head ⟨t, hmem, rfl, rfl⟩ hpath'⟩
    · exact ⟨start, hreached, hpath'⟩
  · rintro ⟨start, hstart, hpath⟩
    induction hpath with
    | refl => exact ⟨start, List.mem_append_right _ hstart, .refl⟩
    | tail _ hjoined ih =>
      obtain ⟨t, ht, rfl, rfl⟩ := hjoined
      by_cases hsource : t.source ∈ reached
      · have henabled : t ∈ enabledBy reached left := mem_enabledBy_iff.mpr ⟨ht, hsource⟩
        exact ⟨t.target, List.mem_append_left _ (List.mem_map_of_mem henabled), .refl⟩
      · have hblocked : t ∈ blockedBy reached left := mem_blockedBy_iff.mpr ⟨ht, hsource⟩
        obtain ⟨first, hfirst, hbefore⟩ := ih
        exact ⟨first, hfirst, hbefore.tail ⟨t, hblocked, rfl, rfl⟩⟩

/-- The search finds exactly the names that paths lead to. -/
theorem mem_reachedBy_iff : name ∈ reachedBy reached left ↔ ReachedFrom reached left name := by
  induction reached, left using reachedBy.induct with
  | case1 reached left hnone =>
    rw [reachedBy, dif_pos hnone]
    exact ⟨fun h ↦ ⟨name, h, .refl⟩, mem_of_reachedFrom hnone⟩
  | case2 reached left hsome _ ih =>
    rw [reachedBy, dif_neg hsome, ih, reachedFrom_round_iff]

namespace Machine

variable {m : Machine}

/-- A path of the machine's transitions leads from a name to another. -/
def LeadsTo (m : Machine) : String → String → Prop :=
  Connected m.transitions

theorem mem_reachable_iff {start : String} : name ∈ m.reachable start ↔ m.LeadsTo start name := by
  rw [reachable, mem_reachedBy_iff]
  simp [ReachedFrom, LeadsTo]

end Machine

end StateMachine
