import Pushdown.Entries
import Pushdown.Number.Decimal
import Pushdown.Text.Quoted

/-!
# JSON documents

A number is an integer of at most 64 bits, with or without a sign, or a double; the two
are told apart by their text, where a double always has a point or an exponent. Object
fields are kept in key order.

## Operations

* `Json.compact`: text without blanks;
* `Json.pretty`: text indented by two spaces;
* `Json.ofDouble`: a double as a document, null when it is not finite;
* `Json.ofInt`: an integer as a document, a double when it needs more than 64 bits.
-/

namespace Pushdown

/-- A JSON document. -/
inductive Json where
  | null
  | bool (value : Bool)
  | int (value : Int)
  | double (value : Double)
  | string (value : String)
  | array (items : List Json)
  | object (fields : List (String × Json))

namespace Json

instance : Inhabited Json := ⟨null⟩

/-- A double as a document; JSON has no form for what is not finite. -/
def ofDouble (value : Double) : Json :=
  if value.isFinite then double value else null

/-- An integer as a document: a double when it does not fit in 64 bits. -/
def ofInt (value : Int) : Json :=
  if FitsDocument value then int value
  else double (Binary.ofInt value)

/-- An array of texts. -/
def strings (texts : List String) : Json := array (texts.map string)

/-- Text of a double; what is not finite reads as null. -/
def doubleText (value : Double) : String :=
  if value.isFinite then Layout.literal.render value else "null"

/-- The text of a truth value. -/
def boolText (value : Bool) : String := if value then "true" else "false"

mutual

/-- Text without blanks. -/
def compact : Json → String
  | null => "null"
  | bool value => boolText value
  | int value => toString value
  | double value => doubleText value
  | string value => Quoted.quote value
  | array items => "[" ++ ",".intercalate (compactItems items) ++ "]"
  | object fields => "\x7b" ++ ",".intercalate (compactFields fields) ++ "\x7d"

/-- Texts of the items of an array. -/
def compactItems : List Json → List String
  | [] => []
  | item :: items => compact item :: compactItems items

/-- Texts of the fields of an object. -/
def compactFields : List (String × Json) → List String
  | [] => []
  | (key, value) :: fields => (Quoted.quote key ++ ":" ++ compact value) :: compactFields fields

end

/-- Line break and indentation at a depth. -/
def lineBreak (depth : Nat) : String :=
  String.ofList ('\n' :: List.replicate (2 * depth) ' ')

/-- Bracketed lines; brackets with nothing between them stay together. -/
def bracketed (opening closing : String) (depth : Nat) (lines : List String) : String :=
  if lines.isEmpty then opening ++ closing
  else
    opening ++ lineBreak (depth + 1) ++ ("," ++ lineBreak (depth + 1)).intercalate lines ++
      lineBreak depth ++ closing

mutual

/-- Text with one item or field a line, at a depth. -/
def prettyAt : Nat → Json → String
  | depth, array items => bracketed "[" "]" depth (prettyItems (depth + 1) items)
  | depth, object fields => bracketed "\x7b" "\x7d" depth (prettyFields (depth + 1) fields)
  | _, null => "null"
  | _, bool value => boolText value
  | _, int value => toString value
  | _, double value => doubleText value
  | _, string value => Quoted.quote value

/-- Lines of the items of an array. -/
def prettyItems : Nat → List Json → List String
  | _, [] => []
  | depth, item :: items => prettyAt depth item :: prettyItems depth items

/-- Lines of the fields of an object. -/
def prettyFields : Nat → List (String × Json) → List String
  | _, [] => []
  | depth, (key, value) :: fields =>
      (Quoted.quote key ++ ": " ++ prettyAt depth value) :: prettyFields depth fields

end

/-- Text with one item or field a line, indented by two spaces. -/
def pretty (json : Json) : String := prettyAt 0 json

/-- The text of a string document. -/
def asString? : Json → Option String
  | string value => some value
  | _ => none

/-- The items of an array document. -/
def asArray? : Json → Option (List Json)
  | array items => some items
  | _ => none

/-- The fields of an object document. -/
def asObject? : Json → Option (Entries Json)
  | object fields => some fields
  | _ => none

/-- A field of an object document. -/
def field? (key : String) : Json → Option Json
  | object fields => Entries.find? key fields
  | _ => none

/-- The text of a string field. -/
def stringField? (key : String) (json : Json) : Option String :=
  (json.field? key).bind asString?

end Json

end Pushdown
