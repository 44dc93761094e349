import Pushdown.Json.Reader
import Pushdown.Serial.Step
import Pushdown.Traversal.Builder

/-!
# Texts of traversals

A traversal is an array of steps. In its text the fields of a step and of a predicate stand in the
order in which they are declared, the one that names the shape first. A text is read with the
fields in any order.

## Operations

* `Traversal.toJson`, `Traversal.ofJson?`: the document of a traversal;
* `Traversal.written`: the same, with fields in the order in which they are written;
* `Traversal.text`, `Traversal.ofText?`: the text of a traversal.
-/

namespace Pushdown

namespace Predicate

mutual

/-- The document of a predicate as it is written. -/
def written : Predicate → Json
  | compare op operand =>
      .object [("type", .string "compare"), ("op", .string op), ("value", operand.toJson)]
  | all members =>
      .object [("type", .string "and"), ("predicates", .array (writtenMembers members))]
  | any members =>
      .object [("type", .string "or"), ("predicates", .array (writtenMembers members))]

def writtenMembers : List Predicate → List Json
  | [] => []
  | p :: ps => written p :: writtenMembers ps

end

end Predicate

/-- The document of a container as it is written. -/
def HasContainer.written (container : HasContainer) : Json :=
  .object [("key", container.key.toJson), ("predicate", container.predicate.written)]

/-- The document of a step as it is written. -/
def Step.written : Step → Json
  | select kind ids labels =>
      .object [("step", .string "select"), ("kind", kind.toJson), ("ids", Json.strings ids),
        ("labels", Json.strings labels)]
  | has containers labels =>
      .object [("step", .string "has"),
        ("containers", .array (containers.map HasContainer.written)),
        ("labels", Json.strings labels)]
  | barrier => .object [("step", .string "barrier")]
  | other name arguments labels =>
      .object [("step", .string "other"), ("name", .string name),
        ("args", .array (arguments.map Value.toJson)), ("labels", Json.strings labels)]
  | scan s =>
      .object [("step", .string "scan"), ("kind", s.kind.toJson), ("ids", Json.strings s.ids),
        ("containers", .array (s.containers.map HasContainer.written)),
        ("collections", Json.strings s.collections), ("labels", Json.strings s.labels)]

namespace Traversal

/-- The document of a traversal. -/
def toJson (steps : Traversal) : Json := .array (steps.map Step.toJson)

/-- The traversal of a document. -/
def ofJson? (json : Json) : Option Traversal := json.asArray?.bind (Serial.readAll Step.ofJson?)

/-- The document of a traversal as it is written. -/
def written (steps : Traversal) : Json := .array (steps.map Step.written)

/-- The text of a traversal. -/
def text (steps : Traversal) : String := steps.written.compact

/-- The traversal of a text. -/
def ofText? (text : String) : Option Traversal := (Json.read? text).bind ofJson?

end Traversal
end Pushdown
