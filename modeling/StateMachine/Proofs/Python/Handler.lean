import StateMachine.Proofs.Machine.Query
import StateMachine.Python.Program

/-!
Handlers group the transitions of a state by event: the events are those of the transitions
(`Handler.events_group`), no event has two handlers, and the handler of an event has exactly the
transitions on it, in the order of their declaration (`Handler.mem_group_iff`). So the handlers of a
state are a partition of the transitions that leave it (`handlers_partition`).
-/

set_option autoImplicit false

namespace StateMachine.Python

/-- Where no two elements have the same key, an element is found by its key. -/
theorem find?_eq_some_of_distinct {α : Type} {key : α → String} {l : List α}
    (hdistinct : l.Pairwise fun a b ↦ key a ≠ key b) {a : α} (ha : a ∈ l) :
    l.find? (key · == key a) = some a := by
  induction l with
  | nil => cases ha
  | cons first rest ih =>
    obtain ⟨hfirst, hrest⟩ := List.pairwise_cons.mp hdistinct
    rcases List.mem_cons.mp ha with rfl | hmem
    · rw [List.find?_cons, beq_self_eq_true]
    · have hne : (key first == key a) = false := beq_eq_false_iff_ne.mpr (hfirst a hmem)
      rw [List.find?_cons, hne]
      exact ih hrest hmem

namespace Handler

open Machine

/-! ### One handler for each event -/

/-- The transitions that some handlers have for an event. -/
def transitionsOn (handlers : List Handler) (event : String) : List Transition :=
  ((handlers.find? (·.event == event)).map (·.transitions)).getD []

/-- No event has two handlers, and none of them is empty. -/
structure Grouped (handlers : List Handler) : Prop where
  distinct : handlers.Pairwise fun h k ↦ h.event ≠ k.event
  nonempty : ∀ h ∈ handlers, h.transitions ≠ []

variable {handlers : List Handler} {h : Handler} {t : Transition} {event : String}
  {transitions : List Transition}

theorem event_of_mem_insert (hmem : h ∈ insert t handlers) :
    h.event = t.event ∨ ∃ k ∈ handlers, k.event = h.event := by
  induction handlers with
  | nil =>
    rw [List.mem_singleton.mp hmem]
    exact Or.inl rfl
  | cons first rest ih =>
    unfold insert at hmem
    split at hmem
    · rcases List.mem_cons.mp hmem with rfl | hrest
      · exact Or.inr ⟨first, List.mem_cons_self, rfl⟩
      · exact Or.inr ⟨h, List.mem_cons_of_mem first hrest, rfl⟩
    · rcases List.mem_cons.mp hmem with rfl | hrest
      · exact Or.inr ⟨h, List.mem_cons_self, rfl⟩
      · rcases ih hrest with hevent | ⟨k, hk, hevent⟩
        · exact Or.inl hevent
        · exact Or.inr ⟨k, List.mem_cons_of_mem first hk, hevent⟩

theorem Grouped.insert (hgrouped : Grouped handlers) (t : Transition) :
    Grouped (insert t handlers) := by
  induction handlers with
  | nil => exact ⟨List.pairwise_singleton _ _, by simp [Handler.insert]⟩
  | cons first rest ih =>
    obtain ⟨hfirst, hdistinct⟩ := List.pairwise_cons.mp hgrouped.distinct
    obtain ⟨hne, hnonempty⟩ := List.forall_mem_cons.mp hgrouped.nonempty
    unfold Handler.insert
    split
    · exact ⟨List.pairwise_cons.mpr ⟨hfirst, hdistinct⟩,
        List.forall_mem_cons.mpr ⟨by simp, hnonempty⟩⟩
    · next hother =>
      have hrest := ih ⟨hdistinct, hnonempty⟩
      refine ⟨List.pairwise_cons.mpr ⟨fun k hk ↦ ?_, hrest.distinct⟩,
        List.forall_mem_cons.mpr ⟨hne, hrest.nonempty⟩⟩
      rcases event_of_mem_insert hk with hevent | ⟨other, hmem, hevent⟩
      · rw [hevent]
        exact fun heq ↦ hother (beq_iff_eq.mpr heq)
      · rw [← hevent]
        exact hfirst other hmem

theorem transitionsOn_insert (t : Transition) (handlers : List Handler) (event : String) :
    transitionsOn (insert t handlers) event =
      transitionsOn handlers event ++ if t.event = event then [t] else [] := by
  induction handlers with
  | nil =>
    by_cases hevent : t.event = event
    · simp [insert, transitionsOn, hevent]
    · simp [insert, transitionsOn, hevent]
  | cons first rest ih =>
    unfold insert
    by_cases hfirst : first.event = event
    · by_cases hevent : t.event = event
      · simp [transitionsOn, hfirst, hevent]
      · have hne : ¬ event = t.event := fun heq ↦ hevent heq.symm
        simp [transitionsOn, hfirst, hevent, hne]
    · by_cases hinsert : first.event = t.event
      · have hevent : ¬ t.event = event := fun heq ↦ hfirst (hinsert.trans heq)
        simp [transitionsOn, hinsert, hevent]
      · have hrest (more : List Handler) :
            transitionsOn (first :: more) event = transitionsOn more event := by
          simp [transitionsOn, hfirst]
        rw [if_neg (by simpa using hinsert), hrest, hrest, ih]

theorem grouped_group (transitions : List Transition) : Grouped (group transitions) := by
  have hfold (handlers : List Handler) (hgrouped : Grouped handlers) :
      Grouped (transitions.foldl (fun handlers t ↦ insert t handlers) handlers) := by
    induction transitions generalizing handlers with
    | nil => exact hgrouped
    | cons t rest ih => exact ih _ (hgrouped.insert t)
  exact hfold [] ⟨.nil, List.forall_mem_nil _⟩

theorem transitionsOn_group (transitions : List Transition) (event : String) :
    transitionsOn (group transitions) event = transitions.filter (·.event == event) := by
  have hfold (handlers : List Handler) :
      transitionsOn (transitions.foldl (fun handlers t ↦ insert t handlers) handlers) event =
        transitionsOn handlers event ++ transitions.filter (·.event == event) := by
    induction transitions generalizing handlers with
    | nil => simp
    | cons t rest ih =>
      rw [List.foldl_cons, ih, transitionsOn_insert, List.append_assoc]
      by_cases hevent : t.event = event
      · simp [hevent]
      · simp [hevent]
  exact hfold []

/-- The events of handlers are those of their transitions, in the order of first appearance. -/
theorem events_group (transitions : List Transition) :
    (group transitions).map (·.event) = distinctEvents transitions := by
  have hinsert (t : Transition) (handlers : List Handler) :
      (insert t handlers).map (·.event) =
        if (handlers.map (·.event)).contains t.event then handlers.map (·.event)
        else handlers.map (·.event) ++ [t.event] := by
    induction handlers with
    | nil => rfl
    | cons first rest ih =>
      unfold insert
      by_cases hevent : first.event = t.event
      · simp [hevent]
      · have hne : ¬t.event = first.event := fun heq ↦ hevent heq.symm
        simp only [beq_iff_eq, hevent, if_false, List.map_cons, ih, List.contains_cons,
          beq_eq_false_iff_ne.mpr hne, Bool.false_or]
        split <;> rfl
  have hfold (handlers : List Handler) :
      (transitions.foldl (fun handlers t ↦ insert t handlers) handlers).map (·.event) =
        transitions.foldl
          (fun events t ↦ if events.contains t.event then events else events ++ [t.event])
          (handlers.map (·.event)) := by
    induction transitions generalizing handlers with
    | nil => rfl
    | cons t rest ih => rw [List.foldl_cons, List.foldl_cons, ih, hinsert]
  exact hfold []

/-! ### Looking handlers up -/

/-- Where no event has two handlers, a handler is found by its event. -/
theorem Grouped.find?_eq_some (hgrouped : Grouped handlers) (hmem : h ∈ handlers) :
    handlers.find? (·.event == h.event) = some h :=
  find?_eq_some_of_distinct hgrouped.distinct hmem

/-- The handlers of some transitions are their events, each with the transitions on it. -/
theorem mem_group_iff : h ∈ group transitions ↔
    h.transitions = transitions.filter (·.event == h.event) ∧ h.transitions ≠ [] := by
  have hgrouped := grouped_group transitions
  have hgroup := transitionsOn_group transitions h.event
  constructor
  · intro hmem
    rw [transitionsOn, hgrouped.find?_eq_some hmem] at hgroup
    exact ⟨hgroup, hgrouped.nonempty h hmem⟩
  · rintro ⟨htransitions, hne⟩
    rw [← htransitions, transitionsOn] at hgroup
    cases hfound : (group transitions).find? (·.event == h.event) with
    | none =>
      rw [hfound] at hgroup
      exact absurd hgroup.symm hne
    | some k =>
      rw [hfound] at hgroup
      have hevent : k.event = h.event := by simpa using List.find?_some hfound
      have hk : k = h := by
        cases k
        cases h
        cases hevent
        cases hgroup
        rfl
      exact hk ▸ List.mem_of_find?_eq_some hfound

/-! ### The partition -/

/-- There is a handler for each event, and it has the transitions on the event. -/
theorem group_eq (transitions : List Transition) :
    group transitions = (distinctEvents transitions).map fun event ↦
      ⟨event, transitions.filter (·.event == event)⟩ := by
  rw [← events_group, List.map_map]
  conv_lhs => rw [← List.map_id (group transitions)]
  refine List.map_congr_left fun h hmem ↦ ?_
  exact congrArg (Handler.mk h.event) (mem_group_iff.mp hmem).1

/-- Together the handlers have every transition as often as it is there. -/
theorem perm_flatMap_group (transitions : List Transition) :
    ((group transitions).flatMap (·.transitions)).Perm transitions := by
  rw [group_eq, List.flatMap_map, distinctEvents_eq]
  exact perm_flatMap_filter (nodup_eraseDups _) fun t ht ↦
    List.mem_eraseDups.mpr (List.mem_map_of_mem ht)

theorem event_of_mem_transitions (hmem : h ∈ group transitions) (ht : t ∈ h.transitions) :
    h.event = t.event := by
  rw [(mem_group_iff.mp hmem).1, List.mem_filter, beq_iff_eq] at ht
  exact ht.2.symm

/-- A transition is in the handler of its event and in no other one. -/
theorem existsUnique_of_mem (ht : t ∈ transitions) :
    ∃! h, h ∈ group transitions ∧ t ∈ h.transitions := by
  have hown : t ∈ transitions.filter (·.event == t.event) :=
    List.mem_filter.mpr ⟨ht, beq_self_eq_true t.event⟩
  refine ⟨⟨t.event, transitions.filter (·.event == t.event)⟩,
    ⟨mem_group_iff.mpr ⟨rfl, List.ne_nil_of_mem hown⟩, hown⟩, ?_⟩
  rintro k ⟨hk, htk⟩
  have hevent := event_of_mem_transitions hk htk
  have htransitions := (mem_group_iff.mp hk).1
  rw [hevent] at htransitions
  cases k
  cases hevent
  cases htransitions
  rfl

open Classical in
theorem count_of_mem (hmem : h ∈ group transitions) (ht : t ∈ h.transitions) :
    h.transitions.count t = transitions.count t := by
  have hevent := event_of_mem_transitions hmem ht
  rw [(mem_group_iff.mp hmem).1]
  exact List.count_filter (beq_iff_eq.mpr hevent.symm)

end Handler

open Classical in
/-- The handlers of a state are for the events of the state, each of them once and in their order.
They are not empty, each has the transitions on its event in the order of their declaration, and
together they have the transitions that leave the state: each of these is in one handler only, as
often as it is declared. -/
theorem handlers_partition (m : Machine) (state : String) :
    (handlers m state).map (·.event) = m.eventsFrom state ∧ (m.eventsFrom state).Nodup ∧
      (∀ h ∈ handlers m state, h.transitions ≠ [] ∧
        h.transitions = (m.outgoing state).filter (·.event == h.event)) ∧
      ((handlers m state).flatMap (·.transitions)).Perm (m.outgoing state) ∧
      ∀ t ∈ m.transitions, t.source = state →
        (∃! h, h ∈ handlers m state ∧ t ∈ h.transitions) ∧
          ∀ h ∈ handlers m state, t ∈ h.transitions →
            h.transitions.count t = m.transitions.count t := by
  have hevents : (m.eventsFrom state).Nodup := by
    rw [Machine.eventsFrom, Machine.distinctEvents_eq]
    exact nodup_eraseDups _
  refine ⟨Handler.events_group _, hevents, fun h hmem ↦ (Handler.mem_group_iff.mp hmem).symm,
    Handler.perm_flatMap_group _, fun t ht hsource ↦ ?_⟩
  have hleaves : (t.source == state) = true := beq_iff_eq.mpr hsource
  refine ⟨Handler.existsUnique_of_mem (List.mem_filter.mpr ⟨ht, hleaves⟩), fun h hmem hth ↦ ?_⟩
  exact (Handler.count_of_mem hmem hth).trans (List.count_filter hleaves)

end StateMachine.Python
