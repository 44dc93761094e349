import Pushdown.Language.Compile
import Pushdown.Predicate.Evaluate
import Pushdown.Proofs.Outcome

/-!
# What compiled predicates mean

A written predicate can be evaluated as it stands: its connectives from left to right, each side
only where the one before it does not decide, and each call as the comparison that it stands for.
Compiling joins the members of nested connectives into one list. That changes neither the result
nor the error that is met first.

## Results

* `Predicate.test_and`, `Predicate.test_or`: a joined predicate tests one side after the other;
* `Language.compileCall_meaning`: the test of a compiled call;
* `Language.compiled_means_written`: the test of a compiled predicate is the evaluation of the
  written one.
-/

namespace Pushdown

/-! ## Tests one after the other -/

/-- What two tests come to where the second is made only if the first holds; none where no test
could be made. -/
def whileTrue (first second : Option (Result Bool)) : Option (Result Bool) :=
  match first with
  | some (.ok true) => second
  | outcome => outcome

/-- What two tests come to where the second is made only if the first does not hold. -/
def whileFalse (first second : Option (Result Bool)) : Option (Result Bool) :=
  match first with
  | some (.ok false) => second
  | outcome => outcome

namespace Predicate

variable {value : Option Value}

theorem testAll_append : ∀ ps qs : List Predicate,
    some (testAll (ps ++ qs) value) = whileTrue (some (testAll ps value)) (some (testAll qs value))
  | [], _ => rfl
  | p :: ps, qs => by
      rw [List.cons_append, testAll, testAll]
      cases p.test value with
      | error e => rfl
      | ok keep =>
          cases keep with
          | false => rfl
          | true => exact testAll_append ps qs

theorem testAny_append : ∀ ps qs : List Predicate,
    some (testAny (ps ++ qs) value) = whileFalse (some (testAny ps value)) (some (testAny qs value))
  | [], _ => rfl
  | p :: ps, qs => by
      rw [List.cons_append, testAny, testAny]
      cases p.test value with
      | error e => rfl
      | ok keep =>
          cases keep with
          | true => rfl
          | false => exact testAny_append ps qs

theorem testAll_singleton (p : Predicate) : testAll [p] value = p.test value := by
  rw [testAll]
  cases p.test value with
  | error e => rfl
  | ok keep => cases keep <;> rfl

theorem testAny_singleton (p : Predicate) : testAny [p] value = p.test value := by
  rw [testAny]
  cases p.test value with
  | error e => rfl
  | ok keep => cases keep <;> rfl

theorem testAll_conjuncts (p : Predicate) : testAll p.conjuncts value = p.test value := by
  cases p with
  | all members => rfl
  | compare op operand => exact testAll_singleton _
  | any members => exact testAll_singleton _

theorem testAny_disjuncts (p : Predicate) : testAny p.disjuncts value = p.test value := by
  cases p with
  | any members => rfl
  | compare op operand => exact testAny_singleton _
  | all members => exact testAny_singleton _

/-- A conjunction that is joined tests its second side where the first holds. -/
theorem test_and (p q : Predicate) :
    some ((p.and q).test value) = whileTrue (some (p.test value)) (some (q.test value)) := by
  rw [and, test, testAll_append, testAll_conjuncts, testAll_conjuncts]

/-- A disjunction that is joined tests its second side where the first does not hold. -/
theorem test_or (p q : Predicate) :
    some ((p.or q).test value) = whileFalse (some (p.test value)) (some (q.test value)) := by
  rw [or, test, testAny_append, testAny_disjuncts, testAny_disjuncts]

theorem test_all_pair (p q : Predicate) :
    some ((all [p, q]).test value) = whileTrue (some (p.test value)) (some (q.test value)) := by
  rw [test, ← List.singleton_append, testAll_append, testAll_singleton, testAll_singleton]

theorem test_any_pair (p q : Predicate) :
    some ((any [p, q]).test value) = whileFalse (some (p.test value)) (some (q.test value)) := by
  rw [test, ← List.singleton_append, testAny_append, testAny_singleton, testAny_singleton]

end Predicate

namespace Language

/-! ## Evaluating what is written -/

/-- The values of arguments, if every one of them has a value. -/
def operands? (arguments : List (Spanned Literal)) : Option (List Value) :=
  (traverse literalValue arguments).toOption

/-- The test of a written call: that of its one comparison, or those of the two comparisons with
its bounds. -/
def testCall? (name : String) (arguments : List (Spanned Literal)) (value : Option Value) :
    Option (Result Bool) :=
  if name = Operator.within.name ∨ name = Operator.without.name then
    (operands? (memberLiterals arguments)).map fun items =>
      (Predicate.compare name (.list items)).test value
  else
    match RangeForm.ofName? name, operands? arguments with
    | some .between, some [low, high] =>
        whileTrue ((Predicate.of .gte low).test value) ((Predicate.of .lt high).test value)
    | some .inside, some [low, high] =>
        whileTrue ((Predicate.of .gt low).test value) ((Predicate.of .lt high).test value)
    | some .outside, some [low, high] =>
        whileFalse ((Predicate.of .lt low).test value) ((Predicate.of .gt high).test value)
    | none, some [operand] => some ((Predicate.compare name operand).test value)
    | _, _ => none

/-- The evaluation of a written predicate on a value or on the absence of one: from left to right,
up to the side that decides. -/
def PredicateExpr.evaluate? (value : Option Value) : PredicateExpr → Option (Result Bool)
  | .call name arguments _ => testCall? name.value arguments value
  | .and left right => whileTrue (left.evaluate? value) (right.evaluate? value)
  | .or left right => whileFalse (left.evaluate? value) (right.evaluate? value)

theorem operands?_of_traverse {arguments : List (Spanned Literal)} {values : List Value}
    (h : traverse literalValue arguments = .ok values) : operands? arguments = some values := by
  rw [operands?, h]
  rfl

theorem operands?_pair {first second : Spanned Literal} {a b : Value}
    (ha : literalValue first = .ok a) (hb : literalValue second = .ok b) :
    operands? [first, second] = some [a, b] :=
  operands?_of_traverse (by simp only [traverse, ha, hb])

theorem operands?_single {argument : Spanned Literal} {a : Value}
    (ha : literalValue argument = .ok a) : operands? [argument] = some [a] :=
  operands?_of_traverse (by simp only [traverse, ha])

/-- A compiled call is tested as the comparisons that it stands for. -/
theorem compileCall_meaning {name : String} {arguments : List (Spanned Literal)} {span : Span}
    {p : Predicate} (h : compileCall name arguments span = .ok p) (value : Option Value) :
    testCall? name arguments value = some (p.test value) := by
  unfold compileCall at h
  unfold testCall?
  split at h
  · next hname =>
    obtain ⟨values, hvalues, rfl⟩ := Outcome.map_eq_ok_iff.mp h
    rw [if_pos hname, operands?_of_traverse hvalues]
    rfl
  · next hname =>
    rw [if_neg hname]
    cases hform : RangeForm.ofName? name with
    | none =>
        rw [hform] at h
        match arguments, h with
        | [], h => cases h
        | _ :: _ :: _, h => cases h
        | [operand], h =>
            obtain ⟨a, ha, rfl⟩ := Outcome.map_eq_ok_iff.mp h
            rw [operands?_single ha]
    | some form =>
        rw [hform] at h
        match arguments, h with
        | [], h => cases h
        | [_], h => cases h
        | _ :: _ :: _ :: _, h => cases h
        | [low, high], h =>
            obtain ⟨a, ha, h⟩ := Outcome.bind_eq_ok_iff.mp h
            obtain ⟨b, hb, h⟩ := Outcome.bind_eq_ok_iff.mp h
            cases h
            rw [operands?_pair ha hb]
            cases form with
            | between => exact (Predicate.test_and _ _).symm
            | inside => exact (Predicate.test_and _ _).symm
            | outside => exact (Predicate.test_or _ _).symm

/-- The test of a compiled predicate is the evaluation of the written one. -/
theorem PredicateExpr.compile_meaning (value : Option Value) :
    ∀ {expr : PredicateExpr} {p : Predicate}, expr.compile = .ok p →
      expr.evaluate? value = some (p.test value)
  | .call _ _ _, _, h => compileCall_meaning h value
  | .and left right, _, h => by
      obtain ⟨p, hp, h⟩ := Outcome.bind_eq_ok_iff.mp h
      obtain ⟨q, hq, h⟩ := Outcome.bind_eq_ok_iff.mp h
      cases h
      rw [evaluate?, compile_meaning value hp, compile_meaning value hq, Predicate.test_and]
  | .or left right, _, h => by
      obtain ⟨p, hp, h⟩ := Outcome.bind_eq_ok_iff.mp h
      obtain ⟨q, hq, h⟩ := Outcome.bind_eq_ok_iff.mp h
      cases h
      rw [evaluate?, compile_meaning value hp, compile_meaning value hq, Predicate.test_or]

/-- A compiled predicate is tested, on every value and on the absence of one, as the written one
is evaluated, with the same result or the same error; and joining two predicates into one list of
members is tested as a connective with the two as its members. -/
theorem compiled_means_written :
    (∀ (expr : PredicateExpr) (p : Predicate), expr.compile = .ok p →
      ∀ value : Option Value, expr.evaluate? value = some (p.test value)) ∧
    ∀ (p q : Predicate) (value : Option Value),
      (p.and q).test value = (Predicate.all [p, q]).test value ∧
        (p.or q).test value = (Predicate.any [p, q]).test value := by
  refine ⟨fun expr p h value => PredicateExpr.compile_meaning value h, fun p q value => ⟨?_, ?_⟩⟩
  · exact Option.some.inj ((Predicate.test_and p q).trans (Predicate.test_all_pair p q).symm)
  · exact Option.some.inj ((Predicate.test_or p q).trans (Predicate.test_any_pair p q).symm)

/-- The tree of `outside(1, 5).and(near(3)).or(eq(9))`, with an operator that has no meaning. -/
def rangesTree : PredicateExpr :=
  let literal (n : Int64) : Spanned Literal := ⟨.int n, .at_ 0⟩
  let call (name : String) (arguments : List (Spanned Literal)) : PredicateExpr :=
    .call ⟨name, .at_ 0⟩ arguments (.at_ 0)
  .or (.and (call "outside" [literal 1, literal 5]) (call "near" [literal 3]))
    (call "eq" [literal 9])

theorem compiled_means_written_ranges :
    ∃ p, rangesTree.compile = .ok p ∧
      rangesTree.evaluate? (some (.int32 3)) = some (.ok false) ∧
      p.test (some (.int32 3)) = .ok false ∧
      rangesTree.evaluate? (some (.int32 7)) = some (.error (.unsupportedOperator "near")) ∧
      p.test (some (.int32 7)) = .error (.unsupportedOperator "near") := by
  refine ⟨_, rfl, rfl, ?_, rfl, ?_⟩
  · exact Option.some.inj (compiled_means_written.1 rangesTree _ rfl (some (.int32 3))).symm
  · exact Option.some.inj (compiled_means_written.1 rangesTree _ rfl (some (.int32 7))).symm

end Language
end Pushdown
