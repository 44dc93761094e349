import Pushdown.Serial.Step
import Pushdown.Tagged.Predicate

/-!
# Tagged steps

A step is tagged with its name. A kind that is missing is that of vertices.

## Operations

* `toTagged` and `ofTagged?` of `HasKey`, `HasContainer` and `Step`;
* `Scan.ofTagged?`: a scan by itself.
-/

namespace Pushdown

namespace HasKey

/-- The tagged document of a key. -/
def toTagged : HasKey → Json
  | label => .string "label"
  | id => .string "id"
  | property name => Tagged.tag "property" (.string name)
  | synthetic name => Tagged.tag "synthetic" (.string name)

/-- The key of a tagged document; a text is an accessor or property name. -/
def ofTagged? : Json → Option HasKey
  | .string name => some (ofName name)
  | .object [("property", .string name)] => some (property name)
  | .object [("synthetic", .string name)] => some (synthetic name)
  | _ => none

end HasKey

namespace HasContainer

/-- The tagged document of a container. -/
def toTagged (container : HasContainer) : Json :=
  .array [container.key.toTagged, container.predicate.toTagged]

/-- The container of a tagged document. -/
def ofTagged? (json : Json) : Option HasContainer := do
  let (key, predicate) ← Tagged.pair? json
  pure ⟨← HasKey.ofTagged? key, ← Predicate.ofTagged? predicate⟩

/-- The containers of a tagged document with a field of them. -/
def allOfTagged? (json : Json) : Option (List HasContainer) :=
  (Tagged.items? "containers" json).bind (Serial.readAll ofTagged?)

end HasContainer

/-- The kind of a tagged document. -/
def ElementKind.ofTagged? : Json → Option ElementKind
  | .null => some .vertex
  | json => json.asString?.bind ofName?

namespace Scan

/-- The tagged document of a scan. -/
def toTagged (scan : Scan) : Json :=
  .object [("collections", Json.strings scan.collections),
    ("containers", Tagged.ofList HasContainer.toTagged scan.containers),
    ("ids", Json.strings scan.ids), ("kind", scan.kind.toJson),
    ("labels", Json.strings scan.labels)]

/-- The scan of a tagged document. -/
def ofTagged? (json : Json) : Option Scan := do
  let kind ← ElementKind.ofTagged? (Tagged.field "kind" json)
  let ids ← Tagged.texts? "ids" json
  let containers ← HasContainer.allOfTagged? json
  let collections ← Tagged.texts? "collections" json
  let labels ← Tagged.texts? "labels" json
  pure ⟨kind, ids, containers, Names.ofList collections, labels⟩

end Scan

namespace Step

/-- The tagged document of a step. -/
def toTagged : Step → Json
  | barrier => .string "barrier"
  | select kind ids labels =>
      Tagged.tag "select" (.object [("ids", Json.strings ids), ("kind", kind.toJson),
        ("labels", Json.strings labels)])
  | has containers labels =>
      Tagged.tag "has" (.object [("containers", Tagged.ofList HasContainer.toTagged containers),
        ("labels", Json.strings labels)])
  | other name arguments labels =>
      Tagged.tag "other" (.object [("args", Tagged.ofList Value.toTagged arguments),
        ("labels", Json.strings labels), ("name", .string name)])
  | scan s => Tagged.tag "scan" s.toTagged

/-- The step of a tagged document. -/
def ofTagged? : Json → Option Step
  | .string "barrier" => some barrier
  | .object [("select", json)] => do
      let kind ← ElementKind.ofTagged? (Tagged.field "kind" json)
      pure (select kind (← Tagged.texts? "ids" json) (← Tagged.texts? "labels" json))
  | .object [("has", json)] => do
      pure (has (← HasContainer.allOfTagged? json) (← Tagged.texts? "labels" json))
  | .object [("other", json)] => do
      let name ← json.stringField? "name"
      let arguments ← (Tagged.items? "args" json).bind (Serial.readAll Value.ofTagged?)
      pure (other name arguments (← Tagged.texts? "labels" json))
  | .object [("scan", json)] => (Scan.ofTagged? json).map scan
  | _ => none

end Step
end Pushdown
