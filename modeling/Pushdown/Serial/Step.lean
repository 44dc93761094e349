import Pushdown.Serial.Element
import Pushdown.Traversal.Step

/-!
# Document forms of predicates and steps

A predicate carries its shape in the field `type`, a key in the field `kind` and a step
in the field `step`.

## Operations

* `Predicate.toJson`, `Predicate.ofJson?`;
* `HasKey.toJson`, `HasKey.ofJson?`, `HasContainer.toJson`, `HasContainer.ofJson?`;
* `Step.toJson`, `Step.ofJson?`.
-/

namespace Pushdown

namespace Predicate

mutual

/-- The document of a predicate. -/
def toJson : Predicate → Json
  | compare op operand =>
      .object [("op", .string op), ("type", .string "compare"), ("value", operand.toJson)]
  | all members =>
      .object [("predicates", .array (toJsonMembers members)), ("type", .string "and")]
  | any members =>
      .object [("predicates", .array (toJsonMembers members)), ("type", .string "or")]

def toJsonMembers : List Predicate → List Json
  | [] => []
  | p :: ps => toJson p :: toJsonMembers ps

end

/-- The comparison of an object's fields. -/
def readCompare? (fields : Entries Json) : Option Predicate := do
  let op ← Serial.text? "op" fields
  let operand ← Serial.valueField? "value" fields
  pure (compare op operand)

/-- The connective of a type name. -/
def connective? (type : String) : Option (List Predicate → Predicate) :=
  if type = "and" then some all else if type = "or" then some any else none

mutual

/-- The predicate of a document. -/
def ofJson? : Json → Option Predicate
  | .object fields =>
      match Serial.text? "type" fields with
      | none => none
      | some type =>
          if type = "compare" then readCompare? fields
          else
            match connective? type, membersField? fields with
            | some connective, some members => some (connective members)
            | _, _ => none
  | _ => none

/-- The members of a connective: the first field of that name. -/
def membersField? : List (String × Json) → Option (List Predicate)
  | [] => none
  | (key, .array items) :: fields =>
      if key = "predicates" then ofJsonItems? items else membersField? fields
  | (key, _) :: fields => if key = "predicates" then none else membersField? fields

def ofJsonItems? : List Json → Option (List Predicate)
  | [] => some []
  | item :: items =>
      match ofJson? item, ofJsonItems? items with
      | some p, some ps => some (p :: ps)
      | _, _ => none

end

end Predicate

namespace HasKey

/-- The document of a key. -/
def toJson : HasKey → Json
  | label => .object [("kind", .string "label")]
  | id => .object [("kind", .string "id")]
  | property name => .object [("kind", .string "property"), ("name", .string name)]
  | synthetic name => .object [("kind", .string "synthetic"), ("name", .string name)]

/-- The key of a document. A key that takes no name may have a null one. -/
def ofJson? (json : Json) : Option HasKey := do
  let fields ← json.asObject?
  let kind ← Serial.text? "kind" fields
  let unnamed := match Entries.find? "name" fields with
    | none => true
    | some .null => true
    | some _ => false
  if kind = "label" then
    if unnamed then some label else none
  else if kind = "id" then
    if unnamed then some id else none
  else if kind = "property" then (Serial.text? "name" fields).map property
  else if kind = "synthetic" then (Serial.text? "name" fields).map synthetic
  else none

end HasKey

namespace HasContainer

/-- The document of a container. -/
def toJson (container : HasContainer) : Json :=
  .object [("key", container.key.toJson), ("predicate", container.predicate.toJson)]

/-- The container of a document. -/
def ofJson? (json : Json) : Option HasContainer := do
  let fields ← json.asObject?
  let key ← (Serial.field? "key" fields).bind HasKey.ofJson?
  let predicate ← (Serial.field? "predicate" fields).bind Predicate.ofJson?
  pure ⟨key, predicate⟩

/-- The containers of a field. -/
def readField? (key : String) (fields : Entries Json) : Option (List HasContainer) := do
  let items ← (Serial.field? key fields).bind Json.asArray?
  Serial.readAll ofJson? items

end HasContainer

namespace Step

/-- The document of a step. -/
def toJson : Step → Json
  | select kind ids labels =>
      .object [("ids", Json.strings ids), ("kind", kind.toJson), ("labels", Json.strings labels),
        ("step", .string "select")]
  | has containers labels =>
      .object [("containers", .array (containers.map HasContainer.toJson)),
        ("labels", Json.strings labels), ("step", .string "has")]
  | barrier => .object [("step", .string "barrier")]
  | other name arguments labels =>
      .object [("args", .array (arguments.map Value.toJson)), ("labels", Json.strings labels),
        ("name", .string name), ("step", .string "other")]
  | scan s =>
      .object [("collections", Json.strings s.collections),
        ("containers", .array (s.containers.map HasContainer.toJson)),
        ("ids", Json.strings s.ids), ("kind", s.kind.toJson), ("labels", Json.strings s.labels),
        ("step", .string "scan")]

/-- The kind in a field. -/
def readKind? (fields : Entries Json) : Option ElementKind :=
  (Serial.field? "kind" fields).bind ElementKind.ofJson?

/-- The step of a document. -/
def ofJson? (json : Json) : Option Step := do
  let fields ← json.asObject?
  let step ← Serial.text? "step" fields
  if step = "select" then do
    let kind ← readKind? fields
    let ids ← Serial.texts? "ids" fields
    let labels ← Serial.texts? "labels" fields
    pure (select kind ids labels)
  else if step = "has" then do
    let containers ← HasContainer.readField? "containers" fields
    let labels ← Serial.texts? "labels" fields
    pure (has containers labels)
  else if step = "barrier" then some barrier
  else if step = "other" then do
    let name ← Serial.text? "name" fields
    let items ← (Serial.field? "args" fields).bind Json.asArray?
    let arguments ← Serial.readAll Serial.value? items
    let labels ← Serial.texts? "labels" fields
    pure (other name arguments labels)
  else if step = "scan" then do
    let kind ← readKind? fields
    let ids ← Serial.texts? "ids" fields
    let containers ← HasContainer.readField? "containers" fields
    let collections ← Serial.texts? "collections" fields
    let labels ← Serial.texts? "labels" fields
    pure (scan ⟨kind, ids, containers, Names.ofList collections, labels⟩)
  else none

end Step
end Pushdown
