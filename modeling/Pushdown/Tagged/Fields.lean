import Pushdown.Serial.Fields

/-!
# Fields of tagged documents

Tagged documents name the type of everything they hold. A field that is missing or null
is an empty list, an empty object, or no text.

## Operations

* `Tagged.items?`, `Tagged.texts?`, `Tagged.entries?`, `Tagged.optionalText?`: readers;
* `Tagged.pair?`: an array of two.
-/

namespace Pushdown
namespace Tagged

/-- A field, null if it is missing. -/
def field (key : String) (json : Json) : Json := (json.field? key).getD .null

/-- The items of an array; null has none. -/
def list? : Json → Option (List Json)
  | .null => some []
  | json => json.asArray?

/-- The fields of an object; null has none. -/
def entries? : Json → Option (Entries Json)
  | .null => some []
  | json => json.asObject?

/-- The items of a field. -/
def items? (key : String) (json : Json) : Option (List Json) := list? (field key json)

/-- A list of texts. -/
def textList? (json : Json) : Option (List String) :=
  (list? json).bind (Serial.readAll Json.asString?)

/-- The texts of a field. -/
def texts? (key : String) (json : Json) : Option (List String) := textList? (field key json)

/-- A text, or null for none. -/
def optional? : Json → Option (Option String)
  | .null => some none
  | json => json.asString?.map some

/-- A text in a field, if there is one. -/
def optionalText? (key : String) (json : Json) : Option (Option String) :=
  optional? (field key json)

/-- An array of two. -/
def pair? : Json → Option (Json × Json)
  | .array [a, b] => some (a, b)
  | _ => none

/-- A document with a tag. -/
def tag (name : String) (body : Json) : Json := .object [(name, body)]

/-- What may be missing, as a document. -/
def ofOption {α : Type} (encode : α → Json) : Option α → Json
  | some a => encode a
  | none => .null

/-- A list as a document. -/
def ofList {α : Type} (encode : α → Json) (as : List α) : Json := .array (as.map encode)

end Tagged
end Pushdown
