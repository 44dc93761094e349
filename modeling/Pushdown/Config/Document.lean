import Pushdown.Config.Basic
import Pushdown.Json.Reader
import Pushdown.Serial.Fields

/-!
# Document form of configurations

Fields that are missing take their defaults and unknown ones are passed over. A known
field may be given once only.

## Operations

* `GraphConfig.toJson`, `GraphConfig.ofJson?`: the document of a configuration;
* `GraphConfig.ofText`: the configuration of a JSON text.
-/

namespace Pushdown

namespace GraphType

/-- The type of a document. -/
def ofJson? (json : Json) : Option GraphType := (Serial.variantName? json).bind ofName?

end GraphType

namespace EdgeDefinition

/-- The definition of a document, which is its text. -/
def ofJson? (json : Json) : Option EdgeDefinition := do
  let text ← json.asString?
  read? text.toList

end EdgeDefinition

namespace GraphConfig

/-- The document of a configuration. -/
def toJson (config : GraphConfig) : Json :=
  .object [("dbName", .string config.database),
    ("edgeDefinitions", Json.strings (config.edgeDefinitions.map EdgeDefinition.text)),
    ("edges", Json.strings config.edges),
    ("enableDataDefinition", .bool config.dataDefinition),
    ("graphName", .string config.graph),
    ("graphType", .string config.type.name),
    ("labelField", .string config.labelField),
    ("orphanCollections", Json.strings config.orphans),
    ("vertices", Json.strings config.vertices)]

/-- A set of names. -/
def readNames? (json : Json) : Option Names := (Serial.textList? json).map Names.ofList

/-- A truth value. -/
def readBool? : Json → Option Bool
  | .bool value => some value
  | _ => none

/-- Edge definitions. -/
def readDefinitions? (json : Json) : Option (List EdgeDefinition) :=
  json.asArray?.bind (Serial.readAll EdgeDefinition.ofJson?)

/-- The known fields, in the order of an array form. -/
def fieldNames : List String :=
  ["dbName", "graphName", "graphType", "labelField", "vertices", "edges", "edgeDefinitions",
    "orphanCollections", "enableDataDefinition"]

/-- Set a known field. -/
def setField? (config : GraphConfig) (name : String) (json : Json) : Option GraphConfig :=
  match name with
  | "dbName" => json.asString?.map fun v => { config with database := v }
  | "graphName" => json.asString?.map fun v => { config with graph := v }
  | "graphType" => (GraphType.ofJson? json).map fun v => { config with type := v }
  | "labelField" => json.asString?.map fun v => { config with labelField := v }
  | "vertices" => (readNames? json).map fun v => { config with vertices := v }
  | "edges" => (readNames? json).map fun v => { config with edges := v }
  | "edgeDefinitions" => (readDefinitions? json).map fun v => { config with edgeDefinitions := v }
  | "orphanCollections" => (readNames? json).map fun v => { config with orphans := v }
  | "enableDataDefinition" => (readBool? json).map fun v => { config with dataDefinition := v }
  | _ => some config

/-- Set fields one after the other; `given` holds the known ones met so far. -/
def setFields? (config : GraphConfig) (given : List String) :
    List (String × Json) → Option GraphConfig
  | [] => some config
  | (name, json) :: rest =>
      if given.contains name then none
      else
        match config.setField? name json with
        | some config =>
            setFields? config (if fieldNames.contains name then name :: given else given) rest
        | none => none

/-- The configuration of a document: an object, or an array of the first fields. -/
def ofJson? : Json → Option GraphConfig
  | .object fields => setFields? initial [] fields
  | .array items =>
      if fieldNames.length < items.length then none
      else setFields? initial [] (fieldNames.zip items)
  | _ => none

/-- The configuration of a JSON text. -/
def ofText (text : String) : Result GraphConfig :=
  match (Json.readAsWritten? text).bind ofJson? with
  | some config => .ok config
  | none => .error .serialization

end GraphConfig
end Pushdown
