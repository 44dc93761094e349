import Pushdown.Predicate.Evaluate
import Pushdown.Proofs.Predicate.Members
import Pushdown.Proofs.Predicate.Operands
import Pushdown.Proofs.Value.Narrowing

/-!
# Predicates with narrow operands

Comparing values looks at the integers they hold and never at their width. So an operand whose
integers have 32 bits wherever they fit tests every value as the operand itself does, and so does
a predicate whose operands are such.

## Results

* `Value.equals_narrowed`, `Value.compare?_narrowed`: comparing with a narrowed operand;
* `Operator.test_narrowed`: the test of one comparison;
* `Predicate.test_narrowed`: the test of a predicate with narrowed operands.
-/

namespace Pushdown

namespace Value

/-- An integer is narrowed to an integer of the same value. -/
theorem narrowed_int64 (value : Int64) :
    (int64 value).narrowed = int64 value ∨
      ∃ narrow : Int32, (int64 value).narrowed = int32 narrow ∧ narrow.toInt = value.toInt := by
  rw [narrowed]
  split
  · next hfits =>
    obtain ⟨hlower, hupper⟩ := hfits
    exact .inr ⟨_, rfl, Int32.toInt_ofInt_of_le (by omega) (by omega)⟩
  · exact .inl rfl

/-- Values are ordered alike against integers of any width. -/
theorem compare?_int32 (a : Value) {narrow : Int32} {value : Int64}
    (h : narrow.toInt = value.toInt) : a.compare? (int32 narrow) = a.compare? (int64 value) := by
  cases a <;> simp [compare?, compareDoubles?, compareInts?, asDouble?, asInt?, h]

/-- Values are equal alike to integers of any width. -/
theorem equals_int32 (a : Value) {narrow : Int32} {value : Int64}
    (h : narrow.toInt = value.toInt) : a.equals (int32 narrow) = a.equals (int64 value) := by
  have hcompare := compare?_int32 a h
  cases a <;> simp [equals, equalNumbers, isNumber, hcompare]

theorem compare?_narrowed (a b : Value) : a.compare? b.narrowed = a.compare? b := by
  cases b with
  | int64 value =>
      rcases narrowed_int64 value with hsame | ⟨narrow, hnarrow, hvalue⟩
      · rw [hsame]
      · rw [hnarrow, compare?_int32 a hvalue]
  | list items => cases a <;> rfl
  | map entries => cases a <;> rfl
  | null | bool _ | int32 _ | double _ | string _ => rfl

mutual

/-- Values are equal alike to an operand and to the narrowed one. -/
theorem equals_narrowed : ∀ a b : Value, a.equals b.narrowed = a.equals b
  | a, int64 value => by
      rcases narrowed_int64 value with hsame | ⟨narrow, hnarrow, hvalue⟩
      · rw [hsame]
      · rw [hnarrow, equals_int32 a hvalue]
  | list as, list bs => by
      rw [narrowed, equals, equals, equalItems_narrowedItems]
  | map as, map bs => by
      rw [narrowed, equals, equals, equalEntries_narrowedEntries]
  | null, list _ | bool _, list _ | int32 _, list _ | int64 _, list _ | double _, list _
  | string _, list _ | map _, list _ => rfl
  | null, map _ | bool _, map _ | int32 _, map _ | int64 _, map _ | double _, map _
  | string _, map _ | list _, map _ => rfl
  | _, null | _, bool _ | _, int32 _ | _, double _ | _, string _ => rfl

theorem equalItems_narrowedItems : ∀ as bs : List Value,
    equalItems as (narrowedItems bs) = equalItems as bs
  | [], [] | [], _ :: _ | _ :: _, [] => rfl
  | a :: as, b :: bs => by
      rw [narrowedItems, equalItems, equalItems, equals_narrowed a b,
        equalItems_narrowedItems as bs]

theorem equalEntries_narrowedEntries : ∀ as bs : List (String × Value),
    equalEntries as (narrowedEntries bs) = equalEntries as bs
  | [], [] | [], _ :: _ | _ :: _, [] => rfl
  | (_, a) :: as, (_, b) :: bs => by
      rw [narrowedEntries, equalEntries, equalEntries, equals_narrowed a b,
        equalEntries_narrowedEntries as bs]

end

end Value

namespace Operator

open Value

theorem ordered_narrowed (accept : Ordering → Bool) (value operand : Value) :
    ordered accept value operand.narrowed = ordered accept value operand := by
  rw [ordered, ordered, compare?_narrowed]

theorem isMember_narrowedItems (value : Value) (items : List Value) :
    isMember value (narrowedItems items) = isMember value items := by
  induction items with
  | nil => rfl
  | cons item items ih =>
      rw [isMember, isMember] at ih ⊢
      rw [narrowedItems, List.any_cons, List.any_cons, ih, equals_narrowed]

/-- Narrowing keeps the items of a list operand, narrowed, and its failure. -/
theorem listOperand_narrowed (op : Operator) (operand : Value) :
    listOperand op operand.narrowed = (listOperand op operand).map narrowedItems := by
  cases operand with
  | int64 value =>
      rcases narrowed_int64 value with hsame | ⟨narrow, hnarrow, -⟩
      · rw [hsame]
        rfl
      · rw [hnarrow]
        rfl
  | null | bool _ | int32 _ | double _ | string _ | list _ | map _ => rfl

/-- Narrowing keeps a text operand, and its failure. -/
theorem textOperand_narrowed (op : Operator) (operand : Value) :
    textOperand op operand.narrowed = textOperand op operand := by
  cases operand with
  | int64 value =>
      rcases narrowed_int64 value with hsame | ⟨narrow, hnarrow, -⟩
      · rw [hsame]
      · rw [hnarrow]
        rfl
  | null | bool _ | int32 _ | double _ | string _ | list _ | map _ => rfl

theorem patternOperand_narrowed (op : Operator) (operand : Value) :
    patternOperand op operand.narrowed = patternOperand op operand := by
  rw [patternOperand, patternOperand, textOperand_narrowed]

/-- A comparison with a narrowed operand has the same outcome. -/
theorem test_narrowed (op : Operator) (value operand : Value) :
    op.test value operand.narrowed = op.test value operand := by
  cases op with
  | eq | neq => rw [test, test, equals_narrowed]
  | lt | lte | gt | gte => rw [test, test, ordered_narrowed]
  | within | without =>
      rw [test, test, listOperand_narrowed]
      cases listOperand _ operand with
      | error e => rfl
      | ok items => simp only [Except.map, isMember_narrowedItems]
  | containing | notContaining | startingWith | notStartingWith | endingWith | notEndingWith =>
      rw [test, test, textOperand_narrowed]
  | regex | notRegex => rw [test, test, patternOperand_narrowed]

end Operator

namespace Predicate

/-- A predicate whose operands are narrowed. -/
def narrowed (p : Predicate) : Predicate := p.mapOperands Value.narrowed

theorem testAll_mapOperandsMembers {f : Value → Value} {value : Option Value} :
    ∀ {ps : List Predicate}, (∀ p ∈ ps, (p.mapOperands f).test value = p.test value) →
      testAll (mapOperandsMembers f ps) value = testAll ps value
  | [], _ => rfl
  | p :: ps, h => by
      rw [mapOperandsMembers, testAll, testAll, h p List.mem_cons_self,
        testAll_mapOperandsMembers fun q hq => h q (List.mem_cons_of_mem p hq)]

theorem testAny_mapOperandsMembers {f : Value → Value} {value : Option Value} :
    ∀ {ps : List Predicate}, (∀ p ∈ ps, (p.mapOperands f).test value = p.test value) →
      testAny (mapOperandsMembers f ps) value = testAny ps value
  | [], _ => rfl
  | p :: ps, h => by
      rw [mapOperandsMembers, testAny, testAny, h p List.mem_cons_self,
        testAny_mapOperandsMembers fun q hq => h q (List.mem_cons_of_mem p hq)]

/-- A predicate with narrowed operands has the same outcome on every value and on a missing one. -/
theorem test_narrowed (p : Predicate) (value : Option Value) :
    p.narrowed.test value = p.test value := by
  rw [narrowed]
  induction p using memberInduction with
  | compare op operand =>
      rw [mapOperands, test, test, testCompare, testCompare]
      cases Operator.ofName? op with
      | none => rfl
      | some known =>
          cases value with
          | none => rfl
          | some value => exact Operator.test_narrowed known value operand
  | all members ih => rw [mapOperands, test, test, testAll_mapOperandsMembers ih]
  | any members ih => rw [mapOperands, test, test, testAny_mapOperandsMembers ih]

end Predicate
end Pushdown
