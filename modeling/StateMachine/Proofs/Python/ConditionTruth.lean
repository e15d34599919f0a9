import StateMachine.Proofs.Guard.Accepted
import StateMachine.Proofs.Guard.RoundTrip
import StateMachine.Proofs.Python.HelperSemantics

/-!
The truth of conditions. A helper follows a path as a guard does (`Helper.call_field`), and compares
numbers by their exact values (`Helper.call_equals`, `Helper.call_compare`), so the condition of a
guard has the truth that the guard has by exact values (`run_ofGuard`). A guard itself rounds
numbers and takes close ones for equal. The two agree in a context exactly if no field there holds
a number that passes for another one which the field is compared with (`condition_agrees_iff`).
-/

set_option autoImplicit false

namespace StateMachine

open Numeric

/-! ### Paths -/

theorem Json.atPath_null (path : List String) : Json.null.atPath path = .null := by
  induction path with
  | nil => rfl
  | cons key rest ih => exact ih

theorem Json.atPath_cons (v : Json) (key : String) (rest : List String) :
    v.atPath (key :: rest) = ((v.get? key).getD .null).atPath rest :=
  rfl

namespace Python

/-! ### Numerals -/

/-- A numeral of a style with points has a point or an exponent. -/
theorem isSome_ofNumeral {style : NumeralStyle} (h : style.showsPoint) (x : FiniteDouble) :
    (Guard.NumberText.ofNumeral style x).fraction.isSome ||
      (Guard.NumberText.ofNumeral style x).exponent.isSome := by
  unfold Guard.NumberText.ofNumeral
  dsimp only
  split
  · simp only [Guard.NumberText.positionalParts, h, if_true, Bool.or_eq_true]
    left
    split
    · rfl
    · split <;> rfl
  · simp

theorem numeralValue?_ofNumeral {style : NumeralStyle} (h : style.showsPoint) (x : FiniteDouble) :
    numeralValue? (.ofNumeral style x) = some (.number (.double x)) := by
  rw [numeralValue?, if_pos (isSome_ofNumeral h x), Guard.NumberText.toDouble_ofNumeral]
  rfl

/-! ### Calls of helpers -/

namespace Helper

variable {depth : Nat}

theorem call_bool (v : Datum) :
    call all (depth + 1) "bool" [v] = some (.json (.bool v.isTrue)) := by
  rfl

section Field

variable (run : String → List Datum → Option Datum) {scope : Scope} {v : Json}
  (h : scope.lookup "value" = some (.json v))

include h

/-- A step along a path goes to the member of a dictionary. -/
theorem runAll_follow_object {members : List (String × Json)} (hv : v = .object members)
    {key : String} (hpart : scope.lookup "part" = some (.json (.string key))) :
    Instruction.runAll run scope follow =
      some (.next (("value", .json ((v.get? key).getD .null)) :: scope)) := by
  subst hv
  simp [follow, Instruction.runAll, Instruction.run, Term.eval, h, hpart, Datum.isInstance?,
    Kind.contains, Datum.isTrue, Datum.get?, Json.get?]

/-- A step along a path ends at any other value. -/
theorem runAll_follow_other (hv : Kind.dict.contains v = false) :
    Instruction.runAll run scope follow = some (.answered (.json .null)) := by
  simp [follow, Instruction.runAll, Instruction.run, Term.eval, h, Datum.isInstance?, hv,
    Datum.isTrue]

/-- The loop over the parts of a path ends at what the path leads to. -/
theorem runLoop_follow (parts : List String) :
    ∃ flow, HelperStatement.runLoop run "part" follow scope (parts.map .string) = some flow ∧
      (flow = .answered (.json (v.atPath parts)) ∨
        ∃ after : Scope, flow = .next after ∧
          after.lookup "value" = some (.json (v.atPath parts))) := by
  induction parts generalizing scope v with
  | nil => exact ⟨_, rfl, Or.inr ⟨scope, rfl, h⟩⟩
  | cons key rest ih =>
    let inner : Scope := ("part", .json (.string key)) :: scope
    have hvalue : inner.lookup "value" = some (.json v) := h
    by_cases hv : Kind.dict.contains v
    · obtain ⟨members, rfl⟩ : ∃ members, v = .object members := by
        cases v <;> first | exact ⟨_, rfl⟩ | cases hv
      let next : Json := ((Json.object members).get? key).getD .null
      let after : Scope := ("value", .json next) :: inner
      have hstep : Instruction.runAll run inner follow = some (.next after) :=
        runAll_follow_object run hvalue rfl rfl
      have hnext : after.lookup "value" = some (.json next) := rfl
      obtain ⟨flow, hflow, hend⟩ := ih hnext
      refine ⟨flow, ?_, hend⟩
      rw [List.map_cons, HelperStatement.runLoop, hstep]
      exact hflow
    · have hstep : Instruction.runAll run inner follow = some (.answered (.json .null)) :=
        runAll_follow_other run hvalue (Bool.eq_false_iff.mpr hv)
      refine ⟨.answered (.json .null), ?_, Or.inl ?_⟩
      · rw [List.map_cons, HelperStatement.runLoop, hstep]
        rfl
      · have hget : v.get? key = none := by
          cases v <;> first | rfl | exact absurd rfl hv
        rw [Json.atPath_cons, hget, Option.getD_none, Json.atPath_null]

end Field

/-- The helper for fields finds the value of a field. -/
theorem call_field (context : Json) (f : String) :
    call all (depth + 1) "_field" [.json context, .json (.string f)] =
      some (.json (context.field f)) := by
  let scope : Scope := [("value", .json context), ("ctx", .json context),
    ("path", .json (.string f))]
  have hvalue : scope.lookup "value" = some (.json context) := rfl
  obtain ⟨flow, hflow, hend⟩ := runLoop_follow (call all depth) hvalue
    (Text.splitString '.' f)
  have hloop : (HelperStatement.loop "part" (.split (.variable "path")) follow).run
      (call all depth) scope = some flow := hflow
  change HelperStatement.runAll (call all depth) scope (field.body.drop 1) = _
  rcases hend with rfl | ⟨after, rfl, hafter⟩
  · exact HelperStatement.runAll_answered hloop
  · have hanswer : (HelperStatement.simple (.answer (.variable "value"))).run (call all depth)
        after = some (.answered (.json (context.field f))) := by
      rw [HelperStatement.run, Instruction.run, Term.eval, hafter]
      rfl
    exact (HelperStatement.runAll_next hloop).trans (HelperStatement.runAll_answered hanswer)

/-- The helper for equality compares with a literal by value. -/
theorem call_equals {v literal : Json} (h : Guard.isLiteral literal) :
    call all (depth + 1) "_equals" [.json v, .json literal] =
      some (.json (.bool (v.equalsByValue literal))) := by
  cases literal with
  | array | object => cases h
  | null | bool | number | string => cases v <;> rfl

/-- The helper for comparisons compares numbers by value, and nothing else. -/
theorem call_compare (context : Json) (f : String) (c : Comparison) (x : FiniteDouble) :
    call all (depth + 2) "_compare"
        [.json context, .json (.string f), .operator c, .json (.number (.double x))] =
      some (.json (.bool ((Guard.compares f c (.finite x)).evaluateByValue context))) := by
  let parameters : Scope := [("ctx", .json context), ("path", .json (.string f)),
    ("op", .operator c), ("operand", .json (.number (.double x)))]
  let scope : Scope := ("value", .json (context.field f)) :: parameters
  have hvalue : (Term.call "_field" [.variable "ctx", .variable "path"]).eval
      (call all (depth + 1)) parameters = some (.json (context.field f)) :=
    call_field context f
  have hrest : HelperStatement.runAll (call all (depth + 1)) scope (compare.body.drop 1) =
      some (.json (.bool ((Guard.compares f c (.finite x)).evaluateByValue context))) := by
    unfold Guard.evaluateByValue
    simp only [scope]
    cases context.field f with
    | number n => cases n <;> rfl
    | null | bool | string | array | object => rfl
  have hassign : (HelperStatement.simple (.assign "value"
      (.call "_field" [.variable "ctx", .variable "path"]))).run (call all (depth + 1)) parameters =
        some (.next scope) := by
    rw [HelperStatement.run, Instruction.run, hvalue]
    rfl
  exact (HelperStatement.runAll_next hassign).trans hrest

end Helper

/-! ### Conditions -/

section Conditions

variable {depth : Nat} {context : Json}

theorem eval_fieldCall (f : String) :
    (Term.call "_field" [.variable "ctx", .text f]).eval (Helper.call Helper.all (depth + 1))
      [("ctx", .json context)] = some (.json (context.field f)) :=
  Helper.call_field context f

theorem eval_numeralTerm {style : NumeralStyle} (h : style.showsPoint) (x : FiniteDouble)
    (run : String → List Datum → Option Datum) (scope : Scope) :
    (numeralTerm style (.finite x)).eval run scope = some (.json (.number (.double x))) := by
  rw [numeralTerm, Term.eval, numeralValue?_ofNumeral h]
  rfl

theorem eval_literalTerm {value : Json} (h : Guard.isLiteral value)
    (run : String → List Datum → Option Datum) (scope : Scope) :
    (literalTerm value).eval run scope = some (.json value) := by
  cases value with
  | number n =>
    cases n with
    | integer value inRange => cases h
    | double x => exact eval_numeralTerm rfl x run scope
  | null | bool | string => rfl
  | array | object => cases h

theorem isTrue_json (v : Json) : (Datum.json v).isTrue = v.isTruthy := by
  cases v with
  | number n => exact (Json.isTruthy_number n).symm
  | null | bool | string | array | object => rfl

theorem run_truth (f : String) :
    (Condition.truth f).run context = some (.json (.bool (context.field f).isTruthy)) := by
  refine (Term.eval_call (Term.evalAll_cons (eval_fieldCall f) rfl)).trans ?_
  rw [Helper.call_bool, isTrue_json]

theorem run_equal (f : String) {literal : Json} (h : Guard.isLiteral literal) :
    (Condition.equal f literal).run context =
      some (.json (.bool ((context.field f).equalsByValue literal))) :=
  (Term.eval_call (Term.evalAll_cons (eval_fieldCall f)
    (Term.evalAll_cons (eval_literalTerm h _ _) rfl))).trans (Helper.call_equals h)

theorem run_compare (f : String) (c : Comparison) (x : FiniteDouble) :
    (Condition.compare f c (.finite x)).run context =
      some (.json (.bool ((Guard.compares f c (.finite x)).evaluateByValue context))) :=
  (Term.eval_call (Term.evalAll_cons rfl (Term.evalAll_cons rfl (Term.evalAll_cons rfl
    (Term.evalAll_cons (eval_numeralTerm rfl x _ _) rfl))))).trans
      (Helper.call_compare context f c x)

section Connectives

variable {a b : Condition} {p q : Bool} (ha : a.run context = some (.json (.bool p)))

include ha

theorem run_negation : (Condition.negation a).run context = some (.json (.bool !p)) := by
  rw [Condition.run] at ha
  rw [Condition.run, Condition.term, Term.eval, ha]
  rfl

theorem run_conjunction (hb : b.run context = some (.json (.bool q))) :
    (Condition.conjunction a b).run context = some (.json (.bool (p && q))) := by
  rw [Condition.run] at ha
  rw [Condition.run, Condition.term, Term.eval, ha]
  cases p with
  | false => rfl
  | true => exact hb

theorem run_disjunction (hb : b.run context = some (.json (.bool q))) :
    (Condition.disjunction a b).run context = some (.json (.bool (p || q))) := by
  rw [Condition.run] at ha
  rw [Condition.run, Condition.term, Term.eval, ha]
  cases p with
  | false => exact hb
  | true => rfl

end Connectives

/-- The condition of a printable guard is worked out to the truth of the guard by exact values. -/
theorem run_ofGuard {g : Guard} (h : g.isPrintable) (context : Json) :
    (Condition.ofGuard g).run context = some (.json (.bool (g.evaluateByValue context))) := by
  induction g with
  | truthy f => exact run_truth f
  | equals f literal => exact run_equal f (Bool.and_eq_true_iff.mp h).2
  | differs f literal => exact run_negation (run_equal f (Bool.and_eq_true_iff.mp h).2)
  | compares f c bound =>
    cases bound with
    | finite x => exact run_compare f c x
    | infinite negative => exact absurd h (by simp [Guard.isPrintable, Double.finite?])
    | notANumber => exact absurd h (by simp [Guard.isPrintable, Double.finite?])
  | both a b iha ihb =>
    obtain ⟨ha, hb⟩ := Bool.and_eq_true_iff.mp h
    exact run_conjunction (iha ha) (ihb hb)
  | either a b iha ihb =>
    obtain ⟨ha, hb⟩ := Bool.and_eq_true_iff.mp h
    exact run_disjunction (iha ha) (ihb hb)
  | negated a ih => exact run_negation (ih h)

/-- The helpers are those of every program. The condition of a guard that was read is read from its
text and comes out as the truth of the guard by exact values. For guards that compare fields with
certain numbers only, this is the truth of the guard exactly if no field of the context holds a
number that passes for one of these. -/
theorem condition_agrees_iff (context : Json) (operands : String → FiniteDouble → Prop) :
    Helper.all.map Helper.code = [fieldCode, equalsCode, compareCode] ∧
    (∀ source g, Guard.parse source = .ok g →
      Condition.Reads 1 (Condition.ofGuard g).text (Condition.ofGuard g).term ∧
      (Condition.ofGuard g).run context = some (.json (.bool (g.evaluateByValue context)))) ∧
    ((∀ source g, Guard.parse source = .ok g →
        (∀ operand ∈ g.operands, operands operand.1 operand.2) →
          (Condition.ofGuard g).run context = some (.json (.bool (g.evaluate context)))) ↔
      ∀ f x n, Guard.isFieldPath f → operands f x → context.field f = .number n →
        ¬n.PassesFor x) := by
  have hread (c : Condition) : Condition.Reads 1 c.text c.term :=
    c.reads_text.mono c.precedence_pos
  refine ⟨Helper.code_all, fun source g hg ↦
    ⟨hread _, run_ofGuard (Guard.isPrintable_of_parse hg) context⟩, ?_, ?_⟩
  · intro hagrees f x n hf hoperand hfield hpasses
    let g : Guard := .equals f (.number (.double x))
    have hprintable : g.isPrintable := Bool.and_eq_true_iff.mpr ⟨hf, rfl⟩
    have hagree : (Condition.ofGuard g).run context = some (.json (.bool (g.evaluate context))) :=
      hagrees _ g (Guard.parse_text hprintable) (List.forall_mem_singleton.mpr hoperand)
    obtain ⟨htrue, hfalse⟩ := Guard.evaluateByValue_ne hfield hpasses
    rw [run_ofGuard hprintable, htrue, hfalse] at hagree
    cases hagree
  · intro hexact source g hg hoperands
    have hprintable := Guard.isPrintable_of_parse hg
    rw [run_ofGuard hprintable, Guard.evaluateByValue_eq hprintable]
    intro operand hmem n hfield
    exact hexact operand.1 operand.2 n (Guard.isFieldPath_of_mem_operands hprintable hmem)
      (hoperands operand hmem) hfield

/-- The largest double below one. -/
def belowOne : FiniteDouble :=
  ⟨false, (2 ^ 53 - 1) * 2 ^ 1021, by decide +kernel, by decide +kernel⟩

/-- A guard for a field to be one holds if the field is the largest double below one, and its
condition does not. -/
theorem condition_disagrees_belowOne : ∃ g, Guard.parse "ctx.a == 1.0" = .ok g ∧
    (Condition.ofGuard g).text = "_equals(_field(ctx, \"a\"), 1.0)" ∧
    g.evaluate (.object [("a", .number (.double belowOne))]) = true ∧
    (Condition.ofGuard g).run (.object [("a", .number (.double belowOne))]) =
      some (.json (.bool false)) := by
  let one : FiniteDouble := ⟨false, unitsPerOne, by decide +kernel, by decide +kernel⟩
  let g : Guard := .equals "a" (.number (.double one))
  have hprintable : g.isPrintable := by decide +kernel
  have htext : g.text = "ctx.a == 1.0" := by decide +kernel
  refine ⟨g, ?_, by decide +kernel, by decide +kernel, ?_⟩
  · rw [← htext]
    exact Guard.parse_text hprintable
  · have hfalse : g.evaluateByValue (.object [("a", .number (.double belowOne))]) = false := by
      decide +kernel
    rw [run_ofGuard hprintable, hfalse]

end Conditions

end Python

end StateMachine
