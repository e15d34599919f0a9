import StateMachine.Proofs.Check.Unreachable
import StateMachine.Proofs.Check.Verdict
import StateMachine.Proofs.Machine.DeclarationPlace
import StateMachine.Proofs.Machine.ErrorPlace

/-!
Places of diagnostics. Every rule but that on a missing initial state reports on one element of the
machine: it shows the place of the element, and the name that it objects to is one that the element
has (`Machine.isAbout_of_mem_check`). So for a machine that was read from a text, a diagnostic shows
the place in the text where what it objects to is written (`Machine.places_of_parseNamed`).
-/

set_option autoImplicit false

namespace StateMachine

/-! ### Lines in a text -/

namespace Line

/-- Each token of the line starts in the text where it says. -/
def StandsIn (l : Line) (text : String) : Prop :=
  ∀ t ∈ l.tokens, ∃ offset ≤ text.toList.length, t.location = .atOffset text offset ∧
    TokenStream.StartsAt text offset t.lexeme

theorem standsIn_of_scan {text : String} {stream : TokenStream} {l : Line}
    (hscan : TokenStream.scan text = .ok stream) (hl : l ∈ stream.lines) : l.StandsIn text := by
  intro t ht
  have hmem : t ∈ stream.lines.flatMap Line.tokens := List.mem_flatMap.mpr ⟨l, hl, ht⟩
  rw [TokenStream.lines, TokenStream.flatMap_tokens_linesOf, List.mem_filter] at hmem
  exact SyntaxError.exists_startsAt hscan (List.mem_append_left _ hmem.1)

end Line

/-! ### Rule by rule -/

/-- The diagnostic is on an element of the machine: it shows its place, and what it objects to is a
name of it. -/
inductive Diagnostic.IsAbout (m : Machine) (d : Diagnostic) : Prop
  | declaration {kind : DeclarationKind} {e : Declaration} (h : e ∈ m.declarations kind)
      (hlocation : d.location = e.location) (hsubject : d.problem.subject = kind.subject e.name)
      (hidentifier : d.problem.identifier = e.name)
  | state {s : State} (h : s ∈ m.states) (hlocation : d.location = s.location)
      (hsubject : d.problem.subject = .state s.name)
      (hidentifier : d.problem.identifier ∈ s.name :: s.actions)
  | transition {t : Transition} (h : t ∈ m.transitions) (hlocation : d.location = t.location)
      (hsubject : d.problem.subject = .transition t.source t.event)
      (hidentifier : d.problem.identifier ∈ [t.source, t.target, t.event] ++ t.action.toList)

theorem mem_of_mem_repeatedBy {α : Type} {key : α → String} {seen : List String} {xs : List α}
    {x : α} (h : x ∈ repeatedBy key seen xs) : x ∈ xs := by
  induction xs generalizing seen with
  | nil => exact h
  | cons y rest ih =>
    rw [repeatedBy] at h
    split at h
    · rcases List.mem_cons.mp h with rfl | hrest
      · exact List.mem_cons_self
      · exact List.mem_cons_of_mem y (ih hrest)
    · exact List.mem_cons_of_mem y (ih h)

namespace Machine

variable {m : Machine} {d : Diagnostic}

/-- Reports that name the event of their transition. -/
theorem isAbout_of_event {t : Transition} (ht : t ∈ m.transitions)
    (hlocation : d.location = t.location)
    (hsubject : d.problem.subject = .transition t.source t.event)
    (hidentifier : d.problem.identifier = t.event) : d.IsAbout m :=
  .transition ht hlocation hsubject (by simp [hidentifier])

theorem isAbout_of_mem_duplicateStates (h : d ∈ m.duplicateStates) : d.IsAbout m := by
  obtain ⟨s, hs, rfl⟩ := List.mem_map.mp h
  exact .state (mem_of_mem_repeatedBy hs) rfl rfl List.mem_cons_self

theorem isAbout_of_mem_duplicatesAmong (kind : DeclarationKind)
    (h : d ∈ duplicatesAmong kind (m.declarations kind)) : d.IsAbout m := by
  obtain ⟨e, he, rfl⟩ := List.mem_map.mp h
  exact .declaration (mem_of_mem_repeatedBy he) rfl rfl rfl

theorem isAbout_of_mem_duplicateDeclarations (h : d ∈ m.duplicateDeclarations) : d.IsAbout m := by
  simp only [duplicateDeclarations, List.mem_append] at h
  rcases h with (h | h) | h
  · exact isAbout_of_mem_duplicatesAmong .event h
  · exact isAbout_of_mem_duplicatesAmong .resetEvent h
  · exact isAbout_of_mem_duplicatesAmong .command h

theorem isAbout_of_mem_initialProblems (h : d ∈ m.initialProblems)
    (hrule : d.rule ≠ .missingInitial) : d.IsAbout m := by
  unfold initialProblems at h
  split at h
  · rw [List.mem_singleton.mp h] at hrule
    exact absurd rfl hrule
  · next first extra hinitial =>
    obtain ⟨s, hs, rfl⟩ := List.mem_map.mp h
    have hstates : s ∈ m.initialStates := hinitial ▸ List.mem_cons_of_mem first hs
    exact .state (List.mem_filter.mp hstates).1 rfl rfl List.mem_cons_self

theorem isAbout_of_mem_endpointProblem {t : Transition} {endpoint : Endpoint} {name : String}
    (ht : t ∈ m.transitions) (hname : name = t.source ∨ name = t.target)
    (h : d ∈ m.endpointProblem t endpoint name) : d.IsAbout m := by
  unfold endpointProblem at h
  split at h
  · exact absurd h List.not_mem_nil
  · rw [List.mem_singleton.mp h]
    refine .transition ht rfl rfl ?_
    rcases hname with rfl | rfl
    · exact List.mem_cons_self
    · exact List.mem_cons_of_mem _ List.mem_cons_self

theorem isAbout_of_mem_undeclaredStates (h : d ∈ m.undeclaredStates) : d.IsAbout m := by
  obtain ⟨t, ht, hd⟩ := List.mem_flatMap.mp h
  rcases List.mem_append.mp hd with hsource | htarget
  · exact isAbout_of_mem_endpointProblem ht (Or.inl rfl) hsource
  · exact isAbout_of_mem_endpointProblem ht (Or.inr rfl) htarget

theorem isAbout_of_mem_undeclaredEvents (h : d ∈ m.undeclaredEvents) : d.IsAbout m := by
  unfold undeclaredEvents at h
  split at h
  · exact absurd h List.not_mem_nil
  · rcases List.mem_append.mp h with hused | hreset
    · obtain ⟨t, ht, rfl⟩ := List.mem_map.mp hused
      exact isAbout_of_event (List.mem_filter.mp ht).1 rfl rfl rfl
    · obtain ⟨e, he, rfl⟩ := List.mem_map.mp hreset
      have hmem : e ∈ m.declarations .resetEvent := (List.mem_filter.mp he).1
      exact .declaration hmem rfl rfl rfl

theorem isAbout_of_mem_undeclaredCommands (h : d ∈ m.undeclaredCommands) : d.IsAbout m := by
  unfold undeclaredCommands at h
  split at h
  · exact absurd h List.not_mem_nil
  · rcases List.mem_append.mp h with hstates | htransitions
    · obtain ⟨s, hs, hd⟩ := List.mem_flatMap.mp hstates
      obtain ⟨action, haction, rfl⟩ := List.mem_map.mp hd
      exact .state hs rfl rfl (List.mem_cons_of_mem _ (List.mem_filter.mp haction).1)
    · obtain ⟨t, ht, hd⟩ := List.mem_flatMap.mp htransitions
      obtain ⟨action, haction, rfl⟩ := List.mem_map.mp hd
      exact .transition ht rfl rfl (List.mem_append_right _ (List.mem_filter.mp haction).1)

theorem isAbout_of_mem_competingTransitions (h : d ∈ m.competingTransitions) : d.IsAbout m := by
  rw [competingTransitions_eq_flatMap] at h
  obtain ⟨j, -, hd⟩ := List.mem_flatMap.mp h
  have ht : m.transitions[j] ∈ m.transitions := List.getElem_mem j.isLt
  rcases competition_cases (m.transitions.take j) m.transitions[j] with
    ⟨-, hreport⟩ | ⟨-, -, hreport⟩ | ⟨-, hreport⟩
  · rw [hreport, List.mem_singleton] at hd
    exact isAbout_of_event ht (by rw [hd]) (by rw [hd]; rfl) (by rw [hd]; rfl)
  · rw [hreport, List.mem_singleton] at hd
    exact isAbout_of_event ht (by rw [hd]) (by rw [hd]; rfl) (by rw [hd]; rfl)
  · rw [hreport] at hd
    exact absurd hd List.not_mem_nil

theorem isAbout_of_mem_idleTransitions (h : d ∈ m.idleTransitions) : d.IsAbout m := by
  obtain ⟨t, ht, rfl⟩ := List.mem_map.mp h
  exact isAbout_of_event (List.mem_filter.mp ht).1 rfl rfl rfl

theorem isAbout_of_mem_unreachableStates (h : d ∈ m.unreachableStates) : d.IsAbout m := by
  unfold unreachableStates at h
  split at h
  · exact absurd h List.not_mem_nil
  · obtain ⟨s, hs, rfl⟩ := List.mem_map.mp h
    have hmem := List.mem_of_find?_eq_some (mem_firstBy_iff.mp hs).2
    exact .state (List.mem_filter.mp hmem).1 rfl rfl List.mem_cons_self

/-- A check reports on elements of the machine, but for a missing initial state. -/
theorem isAbout_of_mem_check {options : CheckOptions} (h : d ∈ m.check options)
    (hrule : d.rule ≠ .missingInitial) : d.IsAbout m := by
  simp only [check, List.mem_append, or_assoc] at h
  rcases h with h | h | h | h | h | h | h | h | h
  · exact isAbout_of_mem_duplicateStates h
  · exact isAbout_of_mem_duplicateDeclarations h
  · exact isAbout_of_mem_initialProblems h hrule
  · exact isAbout_of_mem_undeclaredStates h
  · exact isAbout_of_mem_undeclaredEvents h
  · exact isAbout_of_mem_undeclaredCommands h
  · exact isAbout_of_mem_competingTransitions h
  · exact isAbout_of_mem_idleTransitions h
  · split at h
    · exact isAbout_of_mem_unreachableStates h
    · exact absurd h List.not_mem_nil

/-! ### Machines of a text -/

/-- A machine that was read from a text has the places of its lines, whose tokens stand where they
say, and diagnostics show places of what they are about. -/
theorem places_of_parseNamed {name text : String} (h : parseNamed name text = .ok m) :
    ∃ stream, TokenStream.scan text = .ok stream ∧ (∀ l ∈ stream.lines, l.StandsIn text) ∧
      m.PlacedIn stream.lines ∧
        ∀ options, ∀ d ∈ m.check options, d.rule ≠ .missingInitial → d.IsAbout m := by
  obtain ⟨stream, b, hscan, hclosed, hsteps⟩ := parseNamed_eq_ok_iff.mp h
  obtain ⟨-, hlines⟩ := TokenStream.pairwise_lines hscan
  exact ⟨stream, hscan, fun l hl ↦ Line.standsIn_of_scan hscan hl,
    placedIn_of_steps hlines hsteps hclosed, fun _ _ hd hrule ↦ isAbout_of_mem_check hd hrule⟩

/-- The light on some stairs, with a flaw for most rules. -/
def stairsSource : String :=
  "machine Stairs\nevents\n  press BTN\n  press\nend\nresetEvents\n  cut\nend\n" ++
    "commands\n  ring\nend\ninitial state Dark\n  entry hum\n  press => Lit\nend\n" ++
    "state Lit\n  press => Dark / ring\n  press => Lit\nend\n" ++
    "state Attic\nend\ntransition Lit -> Hall on blink"

theorem places_of_parseNamed_stairs :
    ∃ m, parseNamed defaultName stairsSource = .ok m ∧
      m.places = [[⟨3, 3⟩, ⟨4, 3⟩], [⟨7, 3⟩], [⟨10, 3⟩], [⟨12, 1⟩, ⟨16, 1⟩, ⟨20, 1⟩],
        [⟨14, 3⟩, ⟨17, 3⟩, ⟨18, 3⟩, ⟨22, 1⟩]] ∧
      (m.check .standard).map (fun d ↦ (d.rule, d.problem.identifier, d.location)) =
        [(.duplicateDeclaration, "press", ⟨4, 3⟩), (.undeclaredState, "Hall", ⟨22, 1⟩),
          (.undeclaredEvent, "blink", ⟨22, 1⟩), (.undeclaredEvent, "cut", ⟨7, 3⟩),
          (.undeclaredCommand, "hum", ⟨12, 1⟩), (.duplicateTransition, "press", ⟨18, 3⟩),
          (.noEffect, "press", ⟨18, 3⟩), (.unreachableState, "Attic", ⟨20, 1⟩)] ∧
      ∃ stream, TokenStream.scan stairsSource = .ok stream ∧
        (∀ l ∈ stream.lines, l.StandsIn stairsSource) ∧ m.PlacedIn stream.lines ∧
          ∀ options, ∀ d ∈ m.check options, d.rule ≠ .missingInitial → d.IsAbout m := by
  have hresult : ((parseNamed defaultName stairsSource).toOption.map fun m ↦ (m.places,
      (m.check .standard).map fun d ↦ (d.rule, d.problem.identifier, d.location))) =
      some ([[⟨3, 3⟩, ⟨4, 3⟩], [⟨7, 3⟩], [⟨10, 3⟩], [⟨12, 1⟩, ⟨16, 1⟩, ⟨20, 1⟩],
        [⟨14, 3⟩, ⟨17, 3⟩, ⟨18, 3⟩, ⟨22, 1⟩]],
        [(.duplicateDeclaration, "press", ⟨4, 3⟩), (.undeclaredState, "Hall", ⟨22, 1⟩),
          (.undeclaredEvent, "blink", ⟨22, 1⟩), (.undeclaredEvent, "cut", ⟨7, 3⟩),
          (.undeclaredCommand, "hum", ⟨12, 1⟩), (.duplicateTransition, "press", ⟨18, 3⟩),
          (.noEffect, "press", ⟨18, 3⟩), (.unreachableState, "Attic", ⟨20, 1⟩)]) := by
    decide +kernel
  cases hparse : parseNamed defaultName stairsSource with
  | error e =>
    rw [hparse] at hresult
    cases hresult
  | ok m =>
    rw [hparse] at hresult
    obtain ⟨hplaces, hcheck⟩ := Prod.mk.inj (Option.some.inj hresult)
    exact ⟨m, rfl, hplaces, hcheck, places_of_parseNamed hparse⟩

end Machine

end StateMachine
