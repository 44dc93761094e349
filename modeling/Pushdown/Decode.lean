import Pushdown.Identity

/-!
# Decoding rows

A document with a key, an id, a revision and a label is an element: an edge if it also
has both ends, else a vertex. Other arrays and objects are decoded member by member, and
anything else is a value.

## Operations

* `GraphConfig.decodeRow`: the row of a document;
* `GraphConfig.decodeElementRow`: the element of a document that must be one.
-/

namespace Pushdown

/-- The field of property metadata. -/
def metadataField : String := "_meta"

namespace GraphConfig

/-- Whether an object is an element. -/
def isElementDocument (config : GraphConfig) (fields : Entries Json) : Bool :=
  ["_key", "_id", "_rev", config.labelField].all fun field => Entries.contains field fields

/-- The identity in a field. -/
def decodeId (config : GraphConfig) (fields : Entries Json) (field : String) :
    Except DecodeFault ElementId :=
  match (Entries.find? field fields).bind Json.asString? with
  | none => .error (.notAText field)
  | some text =>
      match config.parseDocumentId text with
      | .ok id => .ok id
      | .error fault => .error (.badId field fault)

/-- The properties of an element: every field that is not reserved. -/
def decodeProperties (config : GraphConfig) : Entries Json → Except DecodeFault (Entries Value)
  | [] => .ok []
  | (key, json) :: fields =>
      if config.isReserved key then decodeProperties config fields
      else
        match Value.ofJson? json with
        | .error fault => .error (.badProperty key fault)
        | .ok value =>
            match decodeProperties config fields with
            | .error fault => .error fault
            | .ok rest => .ok ((key, value) :: rest)

/-- The metadata of the properties named in an object. -/
def decodeMetadataFields : Entries Json → Result (Entries (Entries Value))
  | [] => .ok []
  | (property, json) :: fields =>
      match Value.ofJson? json with
      | .error fault => .error (.unsupportedValue fault)
      | .ok (.map values) =>
          match decodeMetadataFields fields with
          | .error e => .error e
          | .ok rest => .ok ((property, values) :: rest)
      | .ok value => .error (.decode (.metadataOf property value.typeName))

/-- The property metadata of an element. -/
def decodeMetadata (fields : Entries Json) : Result (Entries (Entries Value)) :=
  match Entries.find? metadataField fields with
  | none => .ok []
  | some (.object entries) => decodeMetadataFields entries
  | some _ => .error (.decode .metadataNotAnObject)

/-- A decoding that may fail, as a result. -/
def decoded {α : Type} : Except DecodeFault α → Result α
  | .ok a => .ok a
  | .error fault => .error (.decode fault)

/-- The label of an element: the label field if it holds a text, else the collection. -/
def decodeLabel (config : GraphConfig) (fields : Entries Json) (id : ElementId) : String :=
  match Entries.find? config.labelField fields with
  | some (.string label) => label
  | _ => id.collection

/-- The element of an object. -/
def decodeElement (config : GraphConfig) (fields : Entries Json) : Result Element := do
  let id ← decoded (config.decodeId fields "_id")
  let label := config.decodeLabel fields id
  let revision := (Entries.find? "_rev" fields).bind Json.asString?
  let properties ← decoded (config.decodeProperties fields)
  if Entries.contains "_from" fields && Entries.contains "_to" fields then do
    let source ← decoded (config.decodeId fields "_from")
    let target ← decoded (config.decodeId fields "_to")
    pure (.edge ⟨id, label, revision, source, target, properties⟩)
  else do
    let metadata ← decodeMetadata fields
    pure (.vertex ⟨id, label, revision, properties, metadata⟩)

mutual

/-- The row of a document. -/
def decodeRow (config : GraphConfig) : Json → Result Row
  | .object fields =>
      if config.isElementDocument fields then (config.decodeElement fields).map .element
      else
        match decodeFields config fields with
        | .ok rows => .ok (.map rows)
        | .error e => .error e
  | .array items =>
      match decodeItems config items with
      | .ok rows => .ok (.list rows)
      | .error e => .error e
  | json =>
      match Value.ofJson? json with
      | .ok value => .ok (.value value)
      | .error fault => .error (.unsupportedValue fault)

/-- The rows of the items of an array. -/
def decodeItems (config : GraphConfig) : List Json → Result (List Row)
  | [] => .ok []
  | item :: items =>
      match decodeRow config item with
      | .error e => .error e
      | .ok row =>
          match decodeItems config items with
          | .error e => .error e
          | .ok rows => .ok (row :: rows)

/-- The rows of the fields of an object. -/
def decodeFields (config : GraphConfig) : List (String × Json) → Result (List (String × Row))
  | [] => .ok []
  | (key, item) :: fields =>
      match decodeRow config item with
      | .error e => .error e
      | .ok row =>
          match decodeFields config fields with
          | .error e => .error e
          | .ok rows => .ok ((key, row) :: rows)

end

/-- The element of a document that must be one. -/
def decodeElementRow (config : GraphConfig) : Json → Result Element
  | .object fields =>
      if config.isElementDocument fields then config.decodeElement fields
      else .error (.decode (.notAnElement (.object fields)))
  | json => .error (.decode (.notAnElement json))

end GraphConfig
end Pushdown
