import Pushdown.Filter.Basic
import Pushdown.Predicate.Evaluate

/-!
# Filters of predicates

Every operator has a positive form; negated operators negate theirs, so that they are
pushed only where that form is exact. Weak orderings are a strict one or an equality.

## Operations

* `Operator.filter`: the filter of one comparison;
* `Predicate.filter`: the filter of a predicate on a field.
-/

namespace Pushdown

namespace Operator

/-- The items of a list operand, by the message of planning. -/
def plannedList (op : Operator) (operand : Value) : Result (List Value) :=
  match operand with
  | .list items => .ok items
  | value => .error (.invalidPredicate (.notAList op (some value.typeName)))

/-- The text of a text operand, by the message of planning. -/
def plannedText (op : Operator) (operand : Value) : Result String :=
  match operand with
  | .string text => .ok text
  | value => .error (.invalidPredicate (.notAText op (some value.typeName)))

/-- The text of a pattern operand that is a pattern. -/
def plannedPattern (op : Operator) (operand : Value) : Result String := do
  let pattern ← plannedText op operand
  if (Regex.ofPattern? pattern).isSome then pure pattern
  else throw (.invalidPredicate (.badPattern op pattern))

/-- The filter of a comparison on a field. -/
def filter (op : Operator) (field : String) (operand : Value) : Result Filter :=
  match op with
  | eq => .ok (.equals field operand)
  | lt => .ok (.lessThan field operand)
  | gt => .ok (.greaterThan field operand)
  | lte => .ok (.disjoin [.lessThan field operand, .equals field operand])
  | gte => .ok (.disjoin [.greaterThan field operand, .equals field operand])
  | neq => .ok (.negate (.equals field operand))
  | within => (plannedList op operand).map (.within field)
  | without => (plannedList op operand).map fun items => .negate (.within field items)
  | containing => (plannedText op operand).map (.contains field)
  | notContaining => (plannedText op operand).map fun t => .negate (.contains field t)
  | startingWith => (plannedText op operand).map (.startsWith field)
  | notStartingWith => (plannedText op operand).map fun t => .negate (.startsWith field t)
  | endingWith => (plannedText op operand).map (.endsWith field)
  | notEndingWith => (plannedText op operand).map fun t => .negate (.endsWith field t)
  | regex => (plannedPattern op operand).map (.regex field)
  | notRegex => (plannedPattern op operand).map fun p => .negate (.regex field p)

end Operator

namespace Predicate

/-- The filter of a comparison by its name. -/
def filterCompare (field op : String) (operand : Value) : Result Filter :=
  match Operator.ofName? op with
  | some op => op.filter field operand
  | none => .error (.unsupportedOperator op)

mutual

/-- The filter of a predicate on a field. -/
def filter (field : String) : Predicate → Result Filter
  | compare op operand => filterCompare field op operand
  | all members => (filters field members).map .conjoin
  | any members => (filters field members).map .disjoin

/-- The filters of several predicates, up to the first error. -/
def filters (field : String) : List Predicate → Result (List Filter)
  | [] => .ok []
  | p :: ps =>
      match filter field p with
      | .error e => .error e
      | .ok f =>
          match filters field ps with
          | .error e => .error e
          | .ok fs => .ok (f :: fs)

end

end Predicate
end Pushdown
