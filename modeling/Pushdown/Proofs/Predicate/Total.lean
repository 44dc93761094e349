import Pushdown.Proofs.Predicate.Members

/-!
# Predicates that can be tested

Planning a predicate and testing it read operator names and operands apart from each other.
What planning accepts, testing accepts: a predicate with a filter has a truth value on every
value, and on a missing one.

## Results

* `Operator.test_total`: the operands that planning accepts;
* `Predicate.test_total`: the predicates that planning accepts.
-/

namespace Pushdown

namespace Operator

theorem plannedList_eq_ok {op : Operator} {operand : Value} {items : List Value}
    (h : plannedList op operand = .ok items) : operand = .list items := by
  cases operand <;> simp_all [plannedList]

theorem plannedText_eq_ok {op : Operator} {operand : Value} {text : String}
    (h : plannedText op operand = .ok text) : operand = .string text := by
  cases operand <;> simp_all [plannedText]

theorem plannedPattern_eq_ok {op : Operator} {operand : Value} {pattern : String}
    (h : plannedPattern op operand = .ok pattern) :
    operand = .string pattern ∧ ∃ r, Regex.ofPattern? pattern = some r := by
  obtain ⟨text, htext, h⟩ := Outcome.bind_eq_ok_iff.mp h
  cases hr : Regex.ofPattern? text with
  | none => simp [hr, throw, throwThe, MonadExceptOf.throw] at h
  | some r =>
      simp only [hr, Option.isSome_some, if_true, pure, Except.pure, Except.ok.injEq] at h
      subst h
      exact ⟨plannedText_eq_ok htext, r, hr⟩

theorem patternOperand_string {op : Operator} {pattern : String} {r : Regex}
    (hr : Regex.ofPattern? pattern = some r) :
    patternOperand op (.string pattern) = .ok r := by
  simp only [patternOperand, textOperand, bind, Except.bind, hr]
  rfl

/-- An operator with a filter has a truth value. -/
theorem test_total {op : Operator} {field : String} {operand : Value} {f : Filter}
    (h : op.filter field operand = .ok f) (value : Value) :
    ∃ b, op.test value operand = .ok b := by
  cases op with
  | eq | neq | lt | lte | gt | gte => exact ⟨_, rfl⟩
  | within | without =>
      obtain ⟨items, hitems, -⟩ := Outcome.map_eq_ok_iff.mp h
      rw [plannedList_eq_ok hitems]
      exact ⟨_, rfl⟩
  | containing | notContaining | startingWith | notStartingWith | endingWith | notEndingWith =>
      obtain ⟨text, htext, -⟩ := Outcome.map_eq_ok_iff.mp h
      rw [plannedText_eq_ok htext]
      exact ⟨_, rfl⟩
  | regex | notRegex =>
      obtain ⟨pattern, hpattern, -⟩ := Outcome.map_eq_ok_iff.mp h
      obtain ⟨rfl, r, hr⟩ := plannedPattern_eq_ok hpattern
      rw [test, patternOperand_string hr]
      exact ⟨_, rfl⟩

end Operator

namespace Predicate

theorem filterCompare_eq_ok {field op : String} {operand : Value} {f : Filter}
    (h : filterCompare field op operand = .ok f) :
    ∃ known, Operator.ofName? op = some known ∧ known.filter field operand = .ok f := by
  unfold filterCompare at h
  split at h
  · next known hop => exact ⟨known, hop, h⟩
  · cases h

/-- A predicate with a filter has a truth value on every value and on a missing one. -/
theorem test_total {field : String} {p : Predicate} {f : Filter}
    (h : p.filter field = .ok f) (value : Option Value) : ∃ b, p.test value = .ok b := by
  induction p using memberInduction generalizing f with
  | compare op operand =>
      rw [filter] at h
      obtain ⟨known, hop, hf⟩ := filterCompare_eq_ok h
      simp only [test, testCompare, hop]
      cases value with
      | none => exact ⟨false, rfl⟩
      | some value => exact Operator.test_total hf value
  | all members ih =>
      obtain ⟨fs, hfs, -⟩ := filter_all_eq_ok h
      rw [test]
      refine testAll_total fun p hp => ?_
      obtain ⟨g, -, hg⟩ := filter_of_mem hfs hp
      exact ih p hp hg
  | any members ih =>
      obtain ⟨fs, hfs, -⟩ := filter_any_eq_ok h
      rw [test]
      refine testAny_total fun p hp => ?_
      obtain ⟨g, -, hg⟩ := filter_of_mem hfs hp
      exact ih p hp hg

end Predicate
end Pushdown
