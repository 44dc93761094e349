import Pushdown.Filter.Basic
import Pushdown.Tagged.Value

/-!
# Tagged filters

A filter is tagged with its form. A capital tag reads a negation or connective as it is
written, a small one normalizes it.

## Operations

* `Filter.toTagged`, `Filter.ofTagged?`.
-/

namespace Pushdown
namespace Filter

/-- A test of a field as a tagged document. -/
def taggedTest (tag field : String) (operand : Json) : Json :=
  Tagged.tag tag (.array [.string field, operand])

mutual

/-- The tagged document of a filter. -/
def toTagged : Filter → Json
  | empty => .string "empty"
  | equals field value => taggedTest "equals" field value.toTagged
  | lessThan field value => taggedTest "less" field value.toTagged
  | greaterThan field value => taggedTest "greater" field value.toTagged
  | within field values => taggedTest "within" field (.array (Value.toTaggedItems values))
  | contains field text => taggedTest "contains" field (.string text)
  | startsWith field text => taggedTest "starts" field (.string text)
  | endsWith field text => taggedTest "ends" field (.string text)
  | regex field pattern => taggedTest "regex" field (.string pattern)
  | not inner => Tagged.tag "Not" (toTagged inner)
  | and members => Tagged.tag "And" (.array (toTaggedMembers members))
  | or members => Tagged.tag "Or" (.array (toTaggedMembers members))

def toTaggedMembers : List Filter → List Json
  | [] => []
  | f :: fs => toTagged f :: toTaggedMembers fs

end

/-- The test of a tag, a field and an operand. -/
def test? (tag field : String) (operand : Json) : Option Filter :=
  match tag with
  | "equals" => (Value.ofTagged? operand).map (equals field)
  | "less" => (Value.ofTagged? operand).map (lessThan field)
  | "greater" => (Value.ofTagged? operand).map (greaterThan field)
  | "within" => (operand.asArray?.bind Value.ofTaggedItems?).map (within field)
  | "contains" => operand.asString?.map (contains field)
  | "starts" => operand.asString?.map (startsWith field)
  | "ends" => operand.asString?.map (endsWith field)
  | "regex" => operand.asString?.map (regex field)
  | _ => none

/-- The connective of a tag. -/
def connective? (tag : String) : Option (List Filter → Filter) :=
  match tag with
  | "And" => some and
  | "Or" => some or
  | "and" => some conjoin
  | "or" => some disjoin
  | _ => none

/-- The test in an array. -/
def testOfItems? (tag : String) : List Json → Option Filter
  | [.string field, operand] => test? tag field operand
  | _ => none

mutual

/-- The filter of a tagged document; null is the neutral one. -/
def ofTagged? : Json → Option Filter
  | .null => some empty
  | .string text => if text = "empty" then some empty else none
  | .object [(tag, .array items)] =>
      match connective? tag with
      | some connective => (ofTaggedItems? items).map connective
      | none => testOfItems? tag items
  | .object [(tag, inner)] =>
      if tag = "Not" then (ofTagged? inner).map not
      else if tag = "not" then (ofTagged? inner).map negate
      else none
  | _ => none

def ofTaggedItems? : List Json → Option (List Filter)
  | [] => some []
  | json :: rest =>
      match ofTagged? json, ofTaggedItems? rest with
      | some f, some fs => some (f :: fs)
      | _, _ => none

end

end Filter
end Pushdown
