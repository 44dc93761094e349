import Pushdown.Error
import Pushdown.Regex.Reader
import Pushdown.Text.Search
import Pushdown.Value.Compare

/-!
# Evaluating predicates

The test of a predicate on a value, or on the absence of one. A missing value satisfies
no comparison, and text operators and their negations hold of texts only. Members of a
connective are tested from left to right until one decides.

## Operations

* `Predicate.test`: the test of a predicate;
* `Operator.test`: the test of one comparison.
-/

namespace Pushdown

namespace Operator

/-- Whether the ordering of two values is accepted. -/
def ordered (accept : Ordering → Bool) (value operand : Value) : Bool :=
  match value.compare? operand with
  | some ordering => accept ordering
  | none => false

/-- The items of a list operand. -/
def listOperand (op : Operator) : Value → Result (List Value)
  | .list items => .ok items
  | _ => .error (.invalidPredicate (.notAList op none))

/-- The text of a text operand. -/
def textOperand (op : Operator) : Value → Result String
  | .string text => .ok text
  | _ => .error (.invalidPredicate (.notAText op none))

/-- The expression of a pattern operand. -/
def patternOperand (op : Operator) (operand : Value) : Result Regex := do
  let pattern ← textOperand op operand
  match Regex.ofPattern? pattern with
  | some r => pure r
  | none => throw (.invalidPredicate (.badPattern op pattern))

/-- Whether a value is equal to a member of a list. -/
def isMember (value : Value) (items : List Value) : Bool := items.any value.equals

/-- A test of texts that a value must pass, or fail if `wanted` is false; a value that
is no text does neither. -/
def onText (wanted : Bool) (value : Value) (test : String → Bool) : Bool :=
  match value with
  | .string text => test text == wanted
  | _ => false

/-- The test of a comparison. -/
def test (op : Operator) (value operand : Value) : Result Bool :=
  match op with
  | eq => .ok (value.equals operand)
  | neq => .ok (!value.equals operand)
  | lt => .ok (ordered (· == .lt) value operand)
  | lte => .ok (ordered (· != .gt) value operand)
  | gt => .ok (ordered (· == .gt) value operand)
  | gte => .ok (ordered (· != .lt) value operand)
  | within => (listOperand op operand).map fun items => isMember value items
  | without => (listOperand op operand).map fun items => !isMember value items
  | containing => (textOperand op operand).map fun t => onText true value (Text.contains · t)
  | notContaining => (textOperand op operand).map fun t => onText false value (Text.contains · t)
  | startingWith => (textOperand op operand).map fun t => onText true value (Text.startsWith · t)
  | notStartingWith =>
      (textOperand op operand).map fun t => onText false value (Text.startsWith · t)
  | endingWith => (textOperand op operand).map fun t => onText true value (Text.endsWith · t)
  | notEndingWith => (textOperand op operand).map fun t => onText false value (Text.endsWith · t)
  | regex => (patternOperand op operand).map fun r => onText true value r.isMatch
  | notRegex => (patternOperand op operand).map fun r => onText false value r.isMatch

end Operator

namespace Predicate

/-- The test of a comparison by its name; nothing satisfies a missing value. -/
def testCompare (op : String) (operand : Value) (value : Option Value) : Result Bool :=
  match Operator.ofName? op with
  | none => .error (.unsupportedOperator op)
  | some op =>
      match value with
      | none => .ok false
      | some value => op.test value operand

mutual

/-- The test of a predicate on a value or on the absence of one. -/
def test : Predicate → Option Value → Result Bool
  | compare op operand, value => testCompare op operand value
  | all members, value => testAll members value
  | any members, value => testAny members value

/-- Whether every member holds, up to the first that does not. -/
def testAll : List Predicate → Option Value → Result Bool
  | [], _ => .ok true
  | p :: ps, value =>
      match test p value with
      | .error e => .error e
      | .ok false => .ok false
      | .ok true => testAll ps value

/-- Whether some member holds, up to the first that does. -/
def testAny : List Predicate → Option Value → Result Bool
  | [], _ => .ok false
  | p :: ps, value =>
      match test p value with
      | .error e => .error e
      | .ok true => .ok true
      | .ok false => testAny ps value

end

end Predicate
end Pushdown
