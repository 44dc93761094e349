import Pushdown.Config.Document
import Pushdown.Store.Client

/-!
# Document forms of queries and store data

Constants are read from and written as their names.

## Operations

* `Query.toJson`, `Query.ofJson?`;
* `DocumentMeta.toJson`, `DocumentMeta.ofJson?`;
* `toJson` and `ofJson?` of `Support`, `Direction`, `StoreErrorKind`, `GraphType` and
  `EdgeDefinition`.
-/

namespace Pushdown

namespace Query

/-- The document of a query. -/
def toJson (query : Query) : Json :=
  .object [("bind_vars", .object query.bindings), ("text", .string query.text)]

/-- The query of a document. -/
def ofJson? (json : Json) : Option Query := do
  let fields ← json.asObject?
  let text ← Serial.text? "text" fields
  let bindings ← (Serial.field? "bind_vars" fields).bind Json.asObject?
  pure ⟨text, bindings⟩

end Query

namespace DocumentMeta

/-- What the store assigned, as a document. -/
def toJson (assigned : DocumentMeta) : Json :=
  .object [("_id", .string assigned.id), ("_key", .string assigned.key),
    ("_rev", .string assigned.revision)]

/-- What the store assigned, from a document. -/
def ofJson? (json : Json) : Option DocumentMeta := do
  let fields ← json.asObject?
  let id ← Serial.text? "_id" fields
  let key ← Serial.text? "_key" fields
  let revision ← Serial.text? "_rev" fields
  pure ⟨id, key, revision⟩

end DocumentMeta

/-- The document of a support. -/
def Support.toJson (support : Support) : Json := .string support.name

/-- The support of a document. -/
def Support.ofJson? (json : Json) : Option Support := (Serial.variantName? json).bind ofName?

/-- The document of a direction. -/
def Direction.toJson (direction : Direction) : Json := .string direction.name

/-- The direction of a document. -/
def Direction.ofJson? (json : Json) : Option Direction :=
  (Serial.variantName? json).bind ofName?

/-- The document of a kind of failure. -/
def StoreErrorKind.toJson (kind : StoreErrorKind) : Json := .string kind.name

/-- The kind of failure of a document. -/
def StoreErrorKind.ofJson? (json : Json) : Option StoreErrorKind :=
  (Serial.variantName? json).bind ofName?

/-- The document of a graph type. -/
def GraphType.toJson (type : GraphType) : Json := .string type.name

/-- The document of an edge definition. -/
def EdgeDefinition.toJson (definition : EdgeDefinition) : Json := .string definition.text

end Pushdown
