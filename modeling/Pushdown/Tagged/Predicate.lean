import Pushdown.Predicate.Basic
import Pushdown.Tagged.Value

/-!
# Tagged predicates

A comparison is tagged with its operator, a connective with its name. A tag that starts
with `join_` reads two predicates and joins them, `call` reads an operator that has a
meaning, and `op` one of any name, also of a name that is a tag.

## Operations

* `Predicate.toTagged`, `Predicate.ofTagged?`.
-/

namespace Pushdown
namespace Predicate

/-- The tags that are no operators. -/
def tags : List String := ["and", "or", "join_and", "join_or", "call", "op"]

/-- The tagged document of a comparison. -/
def taggedComparison (op : String) (operand : Json) : Json :=
  if tags.contains op then Tagged.tag "op" (.array [.string op, operand])
  else Tagged.tag op operand

mutual

/-- The tagged document of a predicate. -/
def toTagged : Predicate → Json
  | compare op operand => taggedComparison op operand.toTagged
  | all members => Tagged.tag "and" (.array (toTaggedMembers members))
  | any members => Tagged.tag "or" (.array (toTaggedMembers members))

def toTaggedMembers : List Predicate → List Json
  | [] => []
  | p :: ps => toTagged p :: toTaggedMembers ps

end

/-- The comparison of a name and an operand. -/
def comparison? (meaning : Bool) : List Json → Option Predicate
  | [.string name, json] => do
      let operand ← Value.ofTagged? json
      if meaning then (Operator.ofName? name).map fun op => of op operand
      else some (compare name operand)
  | _ => none

/-- A way to join two predicates. -/
def joined? (join : Predicate → Predicate → Predicate) : List Predicate → Option Predicate
  | [p, q] => some (join p q)
  | _ => none

/-- The comparison of an operator and an operand. -/
def tagged? (op : String) (operand : Json) : Option Predicate :=
  (Value.ofTagged? operand).map (compare op)

mutual

/-- The predicate of a tagged document. -/
def ofTagged? : Json → Option Predicate
  | .object [(tag, .array items)] =>
      if tag = "and" then (ofTaggedItems? items).map all
      else if tag = "or" then (ofTaggedItems? items).map any
      else if tag = "join_and" then (ofTaggedItems? items).bind (joined? Predicate.and)
      else if tag = "join_or" then (ofTaggedItems? items).bind (joined? Predicate.or)
      else if tag = "call" then comparison? true items
      else if tag = "op" then comparison? false items
      else tagged? tag (.array items)
  | .object [(tag, operand)] => tagged? tag operand
  | _ => none

def ofTaggedItems? : List Json → Option (List Predicate)
  | [] => some []
  | json :: rest =>
      match ofTagged? json, ofTaggedItems? rest with
      | some p, some ps => some (p :: ps)
      | _, _ => none

end

end Predicate
end Pushdown
