import Pushdown.Element
import Pushdown.Tagged.Value

/-!
# Tagged elements and rows

An identity is an array of its parts. An element that starts somewhere is an edge. A row
is tagged with its shape.

## Operations

* `toTagged` and `ofTagged?` of `ElementId` and `Element`;
* `Row.toTagged`.
-/

namespace Pushdown

namespace ElementId

/-- The tagged document of an identity. -/
def toTagged (id : ElementId) : Json :=
  .array [.string id.graph, .string id.collection, Serial.ofOptionalText id.key]

/-- The identity of a tagged document. -/
def ofTagged? : Json → Option ElementId
  | .array [.string graph, .string collection, key] =>
      (Tagged.optional? key).map fun key => ⟨graph, collection, key⟩
  | _ => none

end ElementId

/-- The tagged document of a vertex. -/
def Vertex.toTagged (v : Vertex) : Json :=
  .object [("id", v.id.toTagged), ("label", .string v.label),
    ("meta", .object (v.metadata.map fun (name, data) => (name, Tagged.ofProperties data))),
    ("properties", Tagged.ofProperties v.properties),
    ("revision", Serial.ofOptionalText v.revision), ("type", .string "vertex")]

/-- The tagged document of an edge. -/
def Edge.toTagged (e : Edge) : Json :=
  .object [("from", e.source.toTagged), ("id", e.id.toTagged), ("label", .string e.label),
    ("properties", Tagged.ofProperties e.properties),
    ("revision", Serial.ofOptionalText e.revision), ("to", e.target.toTagged),
    ("type", .string "edge")]

namespace Element

/-- The tagged document of an element. -/
def toTagged : Element → Json
  | vertex v => v.toTagged
  | edge e => e.toTagged

/-- The data about properties of a tagged document. -/
def taggedMetadata? (json : Json) : Option (Entries (Entries Value)) := do
  let entries ← Tagged.entries? json
  Serial.readAll (fun (name, data) => (Tagged.properties? data).map (Prod.mk name)) entries

/-- The element of a tagged document. -/
def ofTagged? (json : Json) : Option Element := do
  let id ← ElementId.ofTagged? (Tagged.field "id" json)
  let label ← json.stringField? "label"
  let revision ← Tagged.optionalText? "revision" json
  let properties ← Tagged.properties? (Tagged.field "properties" json)
  match json.field? "from" with
  | some source => do
      let source ← ElementId.ofTagged? source
      let target ← ElementId.ofTagged? (Tagged.field "to" json)
      pure (edge ⟨id, label, revision, source, target, properties⟩)
  | none => do
      let metadata ← taggedMetadata? (Tagged.field "meta" json)
      pure (vertex ⟨id, label, revision, properties, metadata⟩)

end Element

namespace Row

mutual

/-- The tagged document of a row. -/
def toTagged : Row → Json
  | element e => Tagged.tag "element" e.toTagged
  | list rows => Tagged.tag "list" (.array (toTaggedRows rows))
  | map rows => Tagged.tag "map" (.object (toTaggedEntries rows))
  | value v => Tagged.tag "value" v.toTagged

def toTaggedRows : List Row → List Json
  | [] => []
  | row :: rows => toTagged row :: toTaggedRows rows

def toTaggedEntries : List (String × Row) → List (String × Json)
  | [] => []
  | (key, row) :: rows => (key, toTagged row) :: toTaggedEntries rows

end

end Row
end Pushdown
