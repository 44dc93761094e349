import Pushdown.Tagged.Fields

/-!
# Tagged values

A plain document does not tell apart integers of two widths, and has no form for doubles
that are not finite. In a tagged one numbers and maps carry a tag, and those of more than
32 bits are texts.

## Operations

* `Value.toTagged`, `Value.ofTagged?`: property values;
* `RawValue.ofTagged?`: host values.
-/

namespace Pushdown

/-- The text of a number, also of one that is not finite. -/
def Binary.taggedText {f : Format} (x : Binary f) : String :=
  if x.isNaN then "NaN"
  else if x.isInfinite then (if x.negative then "-inf" else "inf")
  else Layout.literal.render x

namespace Value

mutual

/-- The tagged document of a value. -/
def toTagged : Value → Json
  | null => .null
  | bool b => .bool b
  | int32 n => Tagged.tag "i32" (.ofInt n.toInt)
  | int64 n => Tagged.tag "i64" (.string (toString n.toInt))
  | double x => Tagged.tag "f64" (.string x.taggedText)
  | string s => .string s
  | list items => .array (toTaggedItems items)
  | map entries => Tagged.tag "map" (.object (toTaggedEntries entries))

def toTaggedItems : List Value → List Json
  | [] => []
  | item :: items => toTagged item :: toTaggedItems items

def toTaggedEntries : List (String × Value) → List (String × Json)
  | [] => []
  | (key, item) :: entries => (key, toTagged item) :: toTaggedEntries entries

end

/-- The number of a tag and a text. -/
def ofTaggedText? (tag text : String) : Option Value :=
  if tag = "i64" then text.toInt?.map fun n => int64 (Int64.ofInt n)
  else if tag = "f64" then (Binary.ofText? text).map double
  else none

mutual

/-- The value of a tagged document. -/
def ofTagged? : Json → Option Value
  | .null => some null
  | .bool b => some (bool b)
  | .string s => some (string s)
  | .array items => (ofTaggedItems? items).map list
  | .object [(tag, .int n)] => if tag = "i32" then some (int32 (Int32.ofInt n)) else none
  | .object [(tag, .string text)] => ofTaggedText? tag text
  | .object [(tag, .object entries)] =>
      if tag = "map" then (ofTaggedEntries? entries).map map else none
  | _ => none

def ofTaggedItems? : List Json → Option (List Value)
  | [] => some []
  | json :: rest =>
      match ofTagged? json, ofTaggedItems? rest with
      | some item, some items => some (item :: items)
      | _, _ => none

def ofTaggedEntries? : List (String × Json) → Option (List (String × Value))
  | [] => some []
  | (key, json) :: rest =>
      match ofTagged? json, ofTaggedEntries? rest with
      | some item, some entries => some ((key, item) :: entries)
      | _, _ => none

end

end Value

namespace Tagged

/-- Property values as a document. -/
def ofProperties (properties : Entries Value) : Json :=
  .object (Value.toTaggedEntries properties)

/-- The property values of a document. -/
def properties? (json : Json) : Option (Entries Value) :=
  (entries? json).bind Value.ofTaggedEntries?

end Tagged

namespace RawValue

/-- The number of a tag and an integer. -/
def ofTaggedInt? (tag : String) (n : Int) : Option RawValue :=
  match tag with
  | "byte" => some (byte (Int8.ofInt n))
  | "short" => some (short (Int16.ofInt n))
  | "int" => some (int (Int32.ofInt n))
  | "date" => some (date (Int64.ofInt n))
  | _ => none

/-- The number of a tag and a text. -/
def ofTaggedText? (tag text : String) : Option RawValue :=
  match tag with
  | "long" => text.toInt?.map fun n => long (Int64.ofInt n)
  | "float" => (Binary.ofText? text).map float
  | "double" => (Binary.ofText? text).map double
  | "bigint" => some (bigInteger text)
  | "bigdec" => some (bigDecimal text)
  | _ => none

/-- A byte of a document. -/
def byteOf? : Json → Option UInt8
  | .int n => some (UInt8.ofNat n.toNat)
  | _ => none

mutual

/-- The host value of a tagged document. The entries of a map are arrays of two. -/
def ofTagged? : Json → Option RawValue
  | .null => some null
  | .bool b => some (bool b)
  | .string s => some (string s)
  | .array items => (ofTaggedItems? items).map list
  | .object [(tag, .int n)] => ofTaggedInt? tag n
  | .object [(tag, .string text)] => ofTaggedText? tag text
  | .object [(tag, .array items)] =>
      if tag = "map" then (ofTaggedPairs? items).map map
      else if tag = "uuid" then (Serial.readAll byteOf? items).map uuid
      else none
  | _ => none

def ofTaggedItems? : List Json → Option (List RawValue)
  | [] => some []
  | json :: rest =>
      match ofTagged? json, ofTaggedItems? rest with
      | some item, some items => some (item :: items)
      | _, _ => none

def ofTaggedPairs? : List Json → Option (List (RawValue × RawValue))
  | [] => some []
  | .array [key, json] :: rest =>
      match ofTagged? key, ofTagged? json, ofTaggedPairs? rest with
      | some key, some item, some entries => some ((key, item) :: entries)
      | _, _, _ => none
  | _ :: _ => none

end

end RawValue
end Pushdown
