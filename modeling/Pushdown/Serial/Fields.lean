import Pushdown.Value.Raw

/-!
# Reading fields of documents

Small readers that the document forms of the library's types are put together from. A
field that is not asked for is passed over.

## Operations

* `Serial.text?`, `Serial.texts?`, `Serial.optionalText?`: fields that hold text;
* `Serial.variantName?`: the name of one of several constants.
-/

namespace Pushdown
namespace Serial

/-- Read every member of a list. -/
def readAll {α β : Type} (read : α → Option β) : List α → Option (List β)
  | [] => some []
  | a :: as => do
      let b ← read a
      let bs ← readAll read as
      pure (b :: bs)

/-- A field that must be there. -/
def field? (key : String) (fields : Entries Json) : Option Json := Entries.find? key fields

/-- A field that holds a text. -/
def text? (key : String) (fields : Entries Json) : Option String :=
  (field? key fields).bind Json.asString?

/-- A list of texts. -/
def textList? (json : Json) : Option (List String) :=
  json.asArray?.bind (readAll Json.asString?)

/-- A field that holds a list of texts. -/
def texts? (key : String) (fields : Entries Json) : Option (List String) :=
  (field? key fields).bind textList?

/-- A field that may be null or missing and else holds a text. -/
def optionalText? (key : String) (fields : Entries Json) : Option (Option String) :=
  match Entries.find? key fields with
  | none => some none
  | some .null => some none
  | some (.string text) => some (some text)
  | some _ => none

/-- The name of a constant: a text, or an object with the name as its only field and
nothing in it. -/
def variantName? : Json → Option String
  | .string name => some name
  | .object [(name, .null)] => some name
  | _ => none

/-- The property value of a document. -/
def value? (json : Json) : Option Value := (Value.ofJson? json).toOption

/-- A field that holds a property value. -/
def valueField? (key : String) (fields : Entries Json) : Option Value :=
  (field? key fields).bind value?

/-- The property values of an object's fields. -/
def properties? (json : Json) : Option (Entries Value) :=
  (value? json).bind Value.asMap?

/-- A text that may be missing, as a document. -/
def ofOptionalText : Option String → Json
  | some text => .string text
  | none => .null

/-- Property values as a document. -/
def ofProperties (properties : Entries Value) : Json :=
  .object (Value.toJsonFields properties)

end Serial
end Pushdown
