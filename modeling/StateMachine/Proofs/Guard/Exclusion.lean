import StateMachine.Guard.Exclusion
import StateMachine.Proofs.Guard.Accepted
import StateMachine.Proofs.Guard.Evaluation
import StateMachine.Proofs.Guard.RoundTrip

/-!
What mutual exclusion is worth. Guards reason about equality as if it were exact, but it has a
tolerance: a field may count as equal to a literal although its value is another number. Where that
does not happen, guards that exclude each other never hold together (`not_both_of_excludes`); where
it does, some of them do. `excludes_sound_iff` puts both together: exclusion can be trusted in a
context exactly if no literal that a guard demands of a field is blurred there. Only numbers of
magnitude at most one can be blurred (`exists_blurs_iff`).
-/

set_option autoImplicit false

namespace StateMachine

open Numeric

/-! ### Intervals -/

namespace Interval

/-- The number lies in the interval. -/
def Contains (i : Interval) (x : FiniteDouble) : Prop :=
  (i.low.below (.finite x) ∨ i.lowIncluded ∧ i.low.sameValue (.finite x)) ∧
    (Double.below (.finite x) i.high ∨ i.highIncluded ∧ Double.sameValue (.finite x) i.high)

variable {i j : Interval} {x : FiniteDouble}

theorem not_contains_of_endsBefore (h : i.endsBefore j) (hi : i.Contains x) : ¬ j.Contains x := by
  rintro ⟨hlow, -⟩
  obtain ⟨-, hhigh⟩ := hi
  rw [endsBefore] at h
  generalize i.high = high at h hhigh
  generalize j.low = low at h hlow
  cases high <;> cases low <;>
    simp only [Double.below, Double.sameValue, FiniteDouble.sameValue, Bool.or_eq_true,
      Bool.and_eq_true, Bool.not_eq_true', decide_eq_true_eq, beq_iff_eq] at h hlow hhigh
  case finite.finite high low =>
    have hlow' : low.value ≤ x.value := hlow.elim Int.le_of_lt fun hend ↦ Int.le_of_eq hend.2
    have hhigh' : x.value ≤ high.value := hhigh.elim Int.le_of_lt fun hend ↦ Int.le_of_eq hend.2
    rcases h with hbelow | ⟨hmeet, hopen⟩
    · omega
    -- The intervals meet in one number, which does not belong to both.
    · have hhighIncluded : i.highIncluded := by
        rcases hhigh with hbelow | hend
        · omega
        · exact hend.1
      have hlowIncluded : j.lowIncluded := by
        rcases hlow with hbelow | hend
        · omega
        · exact hend.1
      rw [hhighIncluded, hlowIncluded] at hopen
      cases hopen
  all_goals simp_all

/-- Intervals that do not meet share no number. -/
theorem not_contains_of_disjoint (h : i.disjoint j) (hi : i.Contains x) : ¬ j.Contains x := by
  rw [disjoint, Bool.or_eq_true] at h
  rcases h with hbefore | hafter
  · exact not_contains_of_endsBefore hbefore hi
  · exact fun hj ↦ not_contains_of_endsBefore hafter hj hi

theorem contains_single {y : FiniteDouble} (h : x.value = y.value) :
    (single (.finite y)).Contains x := by
  have hsame : FiniteDouble.sameValue y x := FiniteDouble.sameValue_iff.mpr h.symm
  have hsame' : FiniteDouble.sameValue x y := FiniteDouble.sameValue_iff.mpr h
  exact ⟨Or.inr ⟨rfl, hsame⟩, Or.inr ⟨rfl, hsame'⟩⟩

/-- The numbers that compare so with a bound lie in the interval of the comparison. -/
theorem contains_ofComparison {c : Comparison} {bound : Double}
    (h : c.holds (.finite x) bound) : (ofComparison c bound).Contains x := by
  have hlow : Double.below (.infinite true) (.finite x) := rfl
  have hhigh : Double.below (.finite x) (.infinite false) := rfl
  cases c with
  | greater => exact ⟨Or.inl h, Or.inl hhigh⟩
  | atLeast => exact ⟨(Bool.or_eq_true _ _ ▸ h).imp_right fun hsame ↦ ⟨rfl, hsame⟩, Or.inl hhigh⟩
  | less => exact ⟨Or.inl hlow, Or.inl h⟩
  | atMost => exact ⟨Or.inl hlow, (Bool.or_eq_true _ _ ▸ h).imp_right fun hsame ↦ ⟨rfl, hsame⟩⟩

end Interval

/-! ### Blurred literals -/

/-- The field counts as equal to the literal although its value is another number. -/
def Json.Blurs (context : Json) (f : String) (literal : Json) : Prop :=
  (context.field f).looselyEquals literal ∧ ¬ (context.field f).exactlyEquals literal

namespace Guard

/-- The fields and the literals that they must equal. What stands under a negation is demanded of
nothing. -/
def demands : Guard → List (String × Json)
  | .equals f literal => [(f, literal)]
  | .both a b | .either a b => a.demands ++ b.demands
  | _ => []

/-- No literal that the guard demands of a field is blurred in the context. -/
def Sharp (context : Json) (g : Guard) : Prop :=
  ∀ d ∈ g.demands, ¬ context.Blurs d.1 d.2

variable {context : Json} {f : String}

theorem Sharp.left {a b : Guard} (h : ∀ d ∈ a.demands ++ b.demands, ¬ context.Blurs d.1 d.2) :
    Sharp context a :=
  fun d hd ↦ h d (List.mem_append_left _ hd)

theorem Sharp.right {a b : Guard} (h : ∀ d ∈ a.demands ++ b.demands, ¬ context.Blurs d.1 d.2) :
    Sharp context b :=
  fun d hd ↦ h d (List.mem_append_right _ hd)

theorem exactlyEquals_of_sharp {literal : Json} (hsharp : Sharp context (.equals f literal))
    (h : evaluate context (.equals f literal)) :
    (context.field f).exactlyEquals literal := by
  have hblurs := hsharp (f, literal) List.mem_cons_self
  by_contra hother
  exact hblurs ⟨h, hother⟩

/-- A guard that confines a field to an interval only holds of numbers in it. -/
theorem exists_contains_of_interval? {g : Guard} {i : Interval}
    (hinterval : g.interval? = some (f, i)) (hsharp : Sharp context g)
    (h : g.evaluate context) :
    ∃ n x, context.field f = .number n ∧ n.toDouble = .finite x ∧ i.Contains x := by
  unfold interval? at hinterval
  split at hinterval
  · next m =>
    cases hinterval
    have hexact := exactlyEquals_of_sharp hsharp h
    obtain ⟨y, hy⟩ := m.exists_toDouble
    rcases Json.exactlyEquals_cases hexact with hfield | ⟨n, m', hfield, hm, hvalue⟩
    · exact ⟨m, y, hfield, hy, by rw [hy]; exact Interval.contains_single rfl⟩
    · cases hm
      obtain ⟨x, hx⟩ := n.exists_toDouble
      refine ⟨n, x, hfield, hx, ?_⟩
      rw [hy]
      exact Interval.contains_single ((JsonNumber.sameValue_iff hx hy).mp hvalue)
  · next c bound =>
    cases hinterval
    simp only [evaluate] at h
    split at h
    · next n hfield =>
      obtain ⟨x, hx⟩ := n.exists_toDouble
      rw [hx] at h
      exact ⟨n, x, hfield, hx, Interval.contains_ofComparison h⟩
    · cases h
  · cases hinterval

/-! ### Exclusion without blurred literals -/

theorem not_both_of_apart {a b : Guard} (h : a.apart b) (ha : Sharp context a)
    (hb : Sharp context b) : ¬(a.evaluate context ∧ b.evaluate context) := by
  rintro ⟨hholds, hholds'⟩
  unfold apart at h
  split at h
  · next f i g j hi hj =>
    obtain ⟨hfield, hdisjoint⟩ := Bool.and_eq_true_iff.mp h
    obtain rfl := eq_of_beq hfield
    obtain ⟨n, x, hn, hx, hcontains⟩ := exists_contains_of_interval? hi ha hholds
    obtain ⟨m, y, hm, hy, hcontains'⟩ := exists_contains_of_interval? hj hb hholds'
    -- Both guards look at one field, so it is one number that lies in both intervals.
    obtain rfl := Json.number.inj (hn.symm.trans hm)
    obtain rfl := Double.finite.inj (hx.symm.trans hy)
    exact Interval.not_contains_of_disjoint hdisjoint hcontains hcontains'
  · cases h

theorem not_both_of_clashes {a b : Guard} (h : a.clashes b) (ha : Sharp context a)
    (hb : Sharp context b) : ¬(a.evaluate context ∧ b.evaluate context) := by
  rintro ⟨hholds, hholds'⟩
  unfold clashes at h
  split at h
  · next inner =>
    rw [evaluate, evaluate_congr h, hholds'] at hholds
    cases hholds
  · next f v g w =>
    obtain ⟨hfield, hliterals⟩ := Bool.and_eq_true_iff.mp h
    obtain rfl := eq_of_beq hfield
    have hcongr := Json.looselyEquals_congr (exactlyEquals_of_sharp ha hholds) w
    rw [evaluate, hcongr] at hholds'
    rw [hholds'] at hliterals
    cases hliterals
  · next f v g w =>
    obtain ⟨hfield, hliterals⟩ := Bool.and_eq_true_iff.mp h
    obtain rfl := eq_of_beq hfield
    have hcongr := Json.looselyEquals_congr (exactlyEquals_of_sharp ha hholds) w
    rw [evaluate, hcongr, hliterals] at hholds'
    cases hholds'
  · next f g w =>
    obtain ⟨hfield, hliteral⟩ := Bool.and_eq_true_iff.mp h
    obtain rfl := eq_of_beq hfield
    have hcongr := Json.isTruthy_congr (exactlyEquals_of_sharp hb hholds')
    rw [evaluate, hcongr] at hholds
    rw [hholds] at hliteral
    cases hliteral
  · exact not_both_of_apart h ha hb ⟨hholds, hholds'⟩

mutual

/-- Guards that exclude each other do not both hold where no literal is blurred. -/
theorem not_both_of_excludes {a b : Guard} (h : a.excludes b) (ha : Sharp context a)
    (hb : Sharp context b) : ¬(a.evaluate context ∧ b.evaluate context) := by
  rw [excludes, Bool.or_eq_true] at h
  rcases h with hforth | hback
  · exact not_both_of_rulesOut hforth ha hb
  · exact fun hboth ↦ not_both_of_rulesOut hback hb ha hboth.symm
termination_by 2 * (sizeOf a + sizeOf b) + 1

theorem not_both_of_rulesOut {a b : Guard} (h : a.rulesOut b) (ha : Sharp context a)
    (hb : Sharp context b) : ¬(a.evaluate context ∧ b.evaluate context) := by
  unfold rulesOut at h
  split at h
  · next left right =>
    rw [Bool.or_eq_true] at h
    rw [evaluate, Bool.and_eq_true]
    rintro ⟨⟨hleft, hright⟩, hholds⟩
    rcases h with hexcludes | hexcludes
    · exact not_both_of_excludes hexcludes (Sharp.left ha) hb ⟨hleft, hholds⟩
    · exact not_both_of_excludes hexcludes (Sharp.right ha) hb ⟨hright, hholds⟩
  · next left right =>
    rw [Bool.and_eq_true] at h
    rw [evaluate, Bool.or_eq_true]
    rintro ⟨hleft | hright, hholds⟩
    · exact not_both_of_excludes h.1 (Sharp.left ha) hb ⟨hleft, hholds⟩
    · exact not_both_of_excludes h.2 (Sharp.right ha) hb ⟨hright, hholds⟩
  · exact not_both_of_clashes h ha hb
termination_by 2 * (sizeOf a + sizeOf b)

end

/-! ### Exclusion with blurred literals -/

/-- Only numbers blur. -/
theorem exists_number_of_blurs {literal : Json} (hliteral : isLiteral literal)
    (h : context.Blurs f literal) :
    ∃ n x y, context.field f = .number n ∧ n.toDouble = .finite x ∧
      literal = .number (.double y) ∧ x.value ≠ y.value := by
  obtain ⟨hloose, hexact⟩ := h
  rcases Json.exactlyEquals_of_looselyEquals hloose with hequal | ⟨n, m, hfield, rfl⟩
  · exact absurd hequal hexact
  · obtain ⟨x, hx⟩ := n.exists_toDouble
    cases m with
    | integer value inRange => cases hliteral
    | double y =>
      refine ⟨n, x, y, hfield, hx, rfl, fun hvalue ↦ hexact ?_⟩
      rw [hfield]
      exact (JsonNumber.sameValue_iff hx rfl).mpr hvalue

/-- A field can be blurred exactly if it holds a number of magnitude at most one: beyond one the
doubles are at least a tolerance apart. -/
theorem exists_blurs_iff : (∃ literal, isLiteral literal ∧ context.Blurs f literal) ↔
    ∃ n x, context.field f = .number n ∧ n.toDouble = .finite x ∧ x.units ≤ unitsPerOne := by
  constructor
  · rintro ⟨literal, hliteral, hblurs⟩
    obtain ⟨n, x, y, hfield, hx, rfl, hvalue⟩ := exists_number_of_blurs hliteral hblurs
    refine ⟨n, x, hfield, hx, ?_⟩
    by_contra hlarge
    have hloose : n.closeTo (.double y) := by
      have hequal := hblurs.1
      rwa [hfield] at hequal
    rw [JsonNumber.closeTo_eq hx rfl] at hloose
    exact hvalue (FiniteDouble.value_eq_of_closeTo (Nat.not_le.mp hlarge) hloose)
  · rintro ⟨n, x, hfield, hx, hsmall⟩
    obtain ⟨y, hclose, hvalue⟩ := FiniteDouble.exists_closeTo_ne hsmall
    refine ⟨.number (.double y), rfl, ?_, fun hexact ↦ hvalue ?_⟩
    · rw [hfield]
      exact (JsonNumber.closeTo_eq hx rfl).trans hclose
    · rw [hfield] at hexact
      exact (JsonNumber.sameValue_iff hx rfl).mp hexact

/-- Being equal to a number excludes being on one side of it. -/
theorem excludes_side (f : String) (y : FiniteDouble) {c : Comparison}
    (h : c = .less ∨ c = .greater) :
    (equals f (.number (.double y))).excludes (.compares f c (.finite y)) := by
  have hsame : Double.sameValue (.finite y) (.finite y) := FiniteDouble.sameValue_iff.mpr rfl
  have hdisjoint : (Interval.single (.finite y)).disjoint (.ofComparison c (.finite y)) := by
    rcases h with rfl | rfl <;>
      simp [Interval.disjoint, Interval.endsBefore, Interval.single, Interval.ofComparison, hsame]
  have hapart : (equals f (.number (.double y))).apart (.compares f c (.finite y)) := by
    simp only [apart, interval?, beq_self_eq_true, Bool.true_and]
    exact hdisjoint
  simp only [excludes, rulesOut, clashes, hapart, Bool.true_or]

/-- A field that is equal to a blurred literal is below or above it, so a guard that demands the
literal and a comparison with it hold together although they exclude each other. -/
theorem exists_both_of_blurs {literal : Json} (hliteral : isLiteral literal)
    (h : context.Blurs f literal) :
    ∃ c y, (equals f literal).excludes (.compares f c (.finite y)) ∧
      evaluate context (.equals f literal) ∧ evaluate context (.compares f c (.finite y)) := by
  obtain ⟨n, x, y, hfield, hx, rfl, hvalue⟩ := exists_number_of_blurs hliteral h
  rcases Int.lt_or_gt_of_ne hvalue with hbelow | habove
  · refine ⟨.less, y, excludes_side f y (Or.inl rfl), h.1, ?_⟩
    simp only [evaluate, hfield, Comparison.holds, hx, Double.below, hbelow, decide_true]
  · refine ⟨.greater, y, excludes_side f y (Or.inr rfl), h.1, ?_⟩
    have hbelow : y.value < x.value := habove
    simp only [evaluate, hfield, Comparison.holds, hx, Double.below, hbelow, decide_true]

/-! ### When exclusion is sound -/

/-- Literals that a guard demands are literals, of fields that are paths. -/
theorem isPrintable_of_mem_demands {g : Guard} (h : g.isPrintable) {d : String × Json}
    (hd : d ∈ g.demands) : isFieldPath d.1 ∧ isLiteral d.2 := by
  induction g with
  | equals f literal =>
    rw [List.mem_singleton.mp hd]
    exact Bool.and_eq_true_iff.mp h
  | both a b iha ihb | either a b iha ihb =>
    obtain ⟨ha, hb⟩ := Bool.and_eq_true_iff.mp h
    exact (List.mem_append.mp hd).elim (iha ha) (ihb hb)
  | truthy | differs | compares | negated => cases hd

/-- The exclusion of guards that were read is sound in a context, for guards that demand certain
literals only, exactly if none of these literals is blurred there. -/
theorem excludes_sound_iff (context : Json) (literals : String → Json → Prop) :
    (∀ s t a b, parse s = .ok a → parse t = .ok b →
      (∀ d ∈ a.demands ++ b.demands, literals d.1 d.2) → a.excludes b →
        ¬(a.evaluate context ∧ b.evaluate context)) ↔
      ∀ f literal, isFieldPath f → isLiteral literal → literals f literal →
        ¬ context.Blurs f literal := by
  constructor
  · intro hsound f literal hf hliteral hdemand hblurs
    obtain ⟨c, y, hexcludes, hequals, hcompares⟩ := exists_both_of_blurs hliteral hblurs
    have hfirst : (equals f literal).isPrintable := Bool.and_eq_true_iff.mpr ⟨hf, hliteral⟩
    have hsecond : (compares f c (.finite y)).isPrintable := Bool.and_eq_true_iff.mpr ⟨hf, rfl⟩
    have hdemands : ∀ d ∈ (equals f literal).demands ++ (compares f c (.finite y)).demands,
        literals d.1 d.2 := List.forall_mem_singleton.mpr hdemand
    exact hsound _ _ _ _ (parse_text hfirst) (parse_text hsecond) hdemands hexcludes
      ⟨hequals, hcompares⟩
  · intro hsharp s t a b ha hb hdemands hexcludes
    have hall : ∀ d ∈ a.demands ++ b.demands, ¬ context.Blurs d.1 d.2 := by
      intro d hd
      obtain ⟨hf, hliteral⟩ := (List.mem_append.mp hd).elim
        (isPrintable_of_mem_demands (isPrintable_of_parse ha))
        (isPrintable_of_mem_demands (isPrintable_of_parse hb))
      exact hsharp d.1 d.2 hf hliteral (hdemands d hd)
    exact not_both_of_excludes hexcludes (Sharp.left hall) (Sharp.right hall)

/-- The least positive double, set and yet equal to zero. -/
def leastPositive : FiniteDouble :=
  ⟨false, 1, by decide +kernel, significant_of_lt (by decide)⟩

/-- With the least positive number in its field, a guard for the field to be set and one for it to
be zero both hold. -/
theorem excludes_unsound_leastPositive : ∃ a b, parse "ctx.a" = .ok a ∧
    parse "ctx.a == 0.0" = .ok b ∧ a.excludes b ∧
      a.evaluate (.object [("a", .number (.double leastPositive))]) ∧
        b.evaluate (.object [("a", .number (.double leastPositive))]) := by
  have hset : (truthy "a").text = "ctx.a" := by decide +kernel
  have hzero : (equals "a" (.number (.double (.zero false)))).text = "ctx.a == 0.0" := by
    decide +kernel
  refine ⟨truthy "a", equals "a" (.number (.double (.zero false))), ?_, ?_, ?_, ?_, ?_⟩
  · rw [← hset]
    exact parse_text (by decide +kernel)
  · rw [← hzero]
    exact parse_text (by decide +kernel)
  · simp only [excludes, rulesOut, clashes, Bool.or_eq_true]
    decide +kernel
  · decide +kernel
  · decide +kernel

end Guard

end StateMachine
