import Pushdown.Value.Raw

/-!
# Predicates

A predicate compares a value with an operand by a named operator, or joins predicates
on the same value. Names are kept as they were given, so that one without meaning is
carried along and refused with its name where it would have to be evaluated.

## Operations

* `Operator.ofName?`: the sixteen names that have a meaning;
* `Predicate.and`, `Predicate.or`: join two predicates, flattening;
* `Predicate.display`: the text of a predicate.
-/

namespace Pushdown

/-- The operators of predicates. -/
inductive Operator where
  | eq
  | neq
  | lt
  | lte
  | gt
  | gte
  | within
  | without
  | containing
  | notContaining
  | startingWith
  | notStartingWith
  | endingWith
  | notEndingWith
  | regex
  | notRegex
deriving DecidableEq

namespace Operator

/-- The name of an operator. -/
def name : Operator → String
  | eq => "eq"
  | neq => "neq"
  | lt => "lt"
  | lte => "lte"
  | gt => "gt"
  | gte => "gte"
  | within => "within"
  | without => "without"
  | containing => "containing"
  | notContaining => "notContaining"
  | startingWith => "startingWith"
  | notStartingWith => "notStartingWith"
  | endingWith => "endingWith"
  | notEndingWith => "notEndingWith"
  | regex => "regex"
  | notRegex => "notRegex"

/-- Every operator. -/
def all : List Operator :=
  [eq, neq, lt, lte, gt, gte, within, without, containing, notContaining, startingWith,
    notStartingWith, endingWith, notEndingWith, regex, notRegex]

/-- The operator of a name. -/
def ofName? (text : String) : Option Operator := all.find? fun op => op.name = text

end Operator

/-- A predicate on one value. -/
inductive Predicate where
  /-- A named operator with its operand. -/
  | compare (op : String) (operand : Value)
  /-- Every member holds. -/
  | all (members : List Predicate)
  /-- Some member holds. -/
  | any (members : List Predicate)

namespace Predicate

instance : Inhabited Predicate := ⟨all []⟩

/-- A comparison by an operator that has a meaning. -/
def of (op : Operator) (operand : Value) : Predicate := compare op.name operand

/-- A comparison with a host value. -/
def ofRaw? (op : String) (operand : RawValue) : Except ValueError Predicate :=
  (Value.of? operand).map (compare op)

/-- The members of a conjunction, or the predicate itself. -/
def conjuncts : Predicate → List Predicate
  | all members => members
  | p => [p]

/-- The members of a disjunction, or the predicate itself. -/
def disjuncts : Predicate → List Predicate
  | any members => members
  | p => [p]

/-- Both predicates hold. -/
def and (p q : Predicate) : Predicate := all (p.conjuncts ++ q.conjuncts)

/-- One of the predicates holds. -/
def or (p q : Predicate) : Predicate := any (p.disjuncts ++ q.disjuncts)

/-- The value is one of a list: equal to the only one, or within several. -/
def oneOf : List Value → Predicate
  | [value] => of .eq value
  | values => of .within (.list values)

/-- The name of the operator, or of the connective. -/
def operator : Predicate → String
  | compare op _ => op
  | all _ => "and"
  | any _ => "or"

/-- The operand of a comparison. -/
def operand? : Predicate → Option Value
  | compare _ operand => some operand
  | _ => none

/-- The text of the arguments of an operator; memberships list theirs. -/
def argumentText (op : String) (operand : Value) : String :=
  match operand with
  | .list items =>
      if op = Operator.within.name ∨ op = Operator.without.name then
        ", ".intercalate (Value.renderItems items)
      else operand.render
  | _ => operand.render

mutual

/-- The text of a predicate. -/
def display : Predicate → String
  | compare op operand => op ++ "(" ++ argumentText op operand ++ ")"
  | all members => "and(" ++ ", ".intercalate (displayMembers members) ++ ")"
  | any members => "or(" ++ ", ".intercalate (displayMembers members) ++ ")"

/-- The texts of the members of a connective. -/
def displayMembers : List Predicate → List String
  | [] => []
  | p :: ps => display p :: displayMembers ps

end

mutual

/-- Equality constructor by constructor. -/
def identical : Predicate → Predicate → Bool
  | compare op a, compare op' b => op == op' && a.identical b
  | all ps, all qs => identicalMembers ps qs
  | any ps, any qs => identicalMembers ps qs
  | _, _ => false

def identicalMembers : List Predicate → List Predicate → Bool
  | [], [] => true
  | p :: ps, q :: qs => identical p q && identicalMembers ps qs
  | _, _ => false

end

end Predicate
end Pushdown
