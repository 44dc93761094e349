import Pushdown.Element
import Pushdown.Serial.Fields

/-!
# Document forms of elements and rows

An element carries its kind in the field `type`. A row has no such field: it is read as
an element if it can be, else by its shape.

## Operations

* `ElementId.toJson`, `ElementId.ofJson?`;
* `Element.toJson`, `Element.ofJson?`;
* `Row.toJson`, `Row.ofJson?`.
-/

namespace Pushdown

namespace ElementKind

/-- The document of a kind. -/
def toJson (kind : ElementKind) : Json := .string kind.name

/-- The kind of a document. -/
def ofJson? (json : Json) : Option ElementKind :=
  (Serial.variantName? json).bind ofName?

end ElementKind

namespace ElementId

/-- The document of an identity. -/
def toJson (id : ElementId) : Json :=
  .object [("collection", .string id.collection), ("graph", .string id.graph),
    ("key", Serial.ofOptionalText id.key)]

/-- The identity of a document. -/
def ofJson? (json : Json) : Option ElementId := do
  let fields ← json.asObject?
  let graph ← Serial.text? "graph" fields
  let collection ← Serial.text? "collection" fields
  let key ← Serial.optionalText? "key" fields
  pure ⟨graph, collection, key⟩

end ElementId

namespace Element

/-- Property metadata as a document. -/
def metadataJson (metadata : Entries (Entries Value)) : Json :=
  .object (metadata.map fun (name, values) => (name, Serial.ofProperties values))

/-- The document of an element. -/
def toJson : Element → Json
  | vertex v =>
      .object [("id", v.id.toJson), ("label", .string v.label), ("meta", metadataJson v.metadata),
        ("properties", Serial.ofProperties v.properties),
        ("revision", Serial.ofOptionalText v.revision), ("type", .string "vertex")]
  | edge e =>
      .object [("from", e.source.toJson), ("id", e.id.toJson), ("label", .string e.label),
        ("properties", Serial.ofProperties e.properties),
        ("revision", Serial.ofOptionalText e.revision), ("to", e.target.toJson),
        ("type", .string "edge")]

/-- Property metadata of a document. -/
def readMetadata? (json : Json) : Option (Entries (Entries Value)) := do
  let fields ← json.asObject?
  Serial.readAll (fun (name, values) => (Serial.properties? values).map (Prod.mk name)) fields

/-- The element of a document. -/
def ofJson? (json : Json) : Option Element := do
  let fields ← json.asObject?
  let type ← Serial.text? "type" fields
  let id ← (Serial.field? "id" fields).bind ElementId.ofJson?
  let label ← Serial.text? "label" fields
  let revision ← Serial.optionalText? "revision" fields
  let properties ← (Serial.field? "properties" fields).bind Serial.properties?
  if type = "vertex" then do
    let metadata ← (Serial.field? "meta" fields).bind readMetadata?
    pure (vertex ⟨id, label, revision, properties, metadata⟩)
  else if type = "edge" then do
    let source ← (Serial.field? "from" fields).bind ElementId.ofJson?
    let target ← (Serial.field? "to" fields).bind ElementId.ofJson?
    pure (edge ⟨id, label, revision, source, target, properties⟩)
  else none

end Element

namespace Row

mutual

/-- The document of a row. -/
def toJson : Row → Json
  | element e => e.toJson
  | list rows => .array (toJsonRows rows)
  | map rows => .object (toJsonEntries rows)
  | value v => v.toJson

def toJsonRows : List Row → List Json
  | [] => []
  | row :: rows => toJson row :: toJsonRows rows

def toJsonEntries : List (String × Row) → List (String × Json)
  | [] => []
  | (key, row) :: rows => (key, toJson row) :: toJsonEntries rows

end

mutual

/-- The row of a document. -/
def ofJson? : Json → Option Row
  | .array items => (ofJsonItems? items).map list
  | .object fields =>
      match Element.ofJson? (.object fields) with
      | some e => some (element e)
      | none => (ofJsonFields? fields).map map
  | json => (Serial.value? json).map value

def ofJsonItems? : List Json → Option (List Row)
  | [] => some []
  | item :: items =>
      match ofJson? item, ofJsonItems? items with
      | some row, some rows => some (row :: rows)
      | _, _ => none

def ofJsonFields? : List (String × Json) → Option (List (String × Row))
  | [] => some []
  | (key, item) :: fields =>
      match ofJson? item, ofJsonFields? fields with
      | some row, some rows => some ((key, row) :: rows)
      | _, _ => none

end

end Row
end Pushdown
