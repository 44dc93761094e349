import Pushdown.Value.Basic
import Pushdown.Text.Inspected

/-!
# Classifying host values

A traversal host hands in values of more types than the store can compare. `Value.of?`
is the way from those to property values; it names the first member that has no
counterpart.

## Operations

* `Value.of?`: classify a host value;
* `RawValue.inspect`: the form in which messages show a host value;
* `ValueError.message`: the text of a failure.
-/

namespace Pushdown

/-- A value of a traversal host. -/
inductive RawValue where
  | null
  | bool (value : Bool)
  | byte (value : Int8)
  | short (value : Int16)
  | int (value : Int32)
  | long (value : Int64)
  | float (value : Single)
  | double (value : Double)
  /-- An integer of any size, by its digits. -/
  | bigInteger (digits : String)
  /-- A decimal of any size, by its digits. -/
  | bigDecimal (digits : String)
  /-- Milliseconds since the epoch. -/
  | date (milliseconds : Int64)
  | uuid (bytes : List UInt8)
  | string (value : String)
  | list (items : List RawValue)
  /-- Entries in the order given; keys may be of any type. -/
  | map (entries : List (RawValue × RawValue))

namespace RawValue

/-- Bytes as a bracketed list. -/
def bytesText (bytes : List UInt8) : String :=
  "[" ++ ", ".intercalate (bytes.map fun byte => toString byte.toNat) ++ "]"

/-- The shown form of a value without its type. -/
def payload : RawValue → String
  | null => "Null"
  | bool value => Json.boolText value
  | byte value => toString value.toInt
  | short value => toString value.toInt
  | int value => toString value.toInt
  | long value => toString value.toInt
  | float value => Layout.inspected.render value
  | double value => Layout.inspected.render value
  | bigInteger digits => Inspected.inspect digits
  | bigDecimal digits => Inspected.inspect digits
  | date milliseconds => toString milliseconds.toInt
  | uuid bytes => bytesText bytes
  | string value => Inspected.inspect value
  | list _ => ""
  | map _ => ""

mutual

/-- The shown form of a value with its type. -/
def inspect : RawValue → String
  | null => "Null"
  | bool value => "Bool(" ++ Json.boolText value ++ ")"
  | byte value => "Byte(" ++ toString value.toInt ++ ")"
  | short value => "Short(" ++ toString value.toInt ++ ")"
  | int value => "Int(" ++ toString value.toInt ++ ")"
  | long value => "Long(" ++ toString value.toInt ++ ")"
  | float value => "Float(" ++ Layout.inspected.render value ++ ")"
  | double value => "Double(" ++ Layout.inspected.render value ++ ")"
  | bigInteger digits => "BigInteger(" ++ Inspected.inspect digits ++ ")"
  | bigDecimal digits => "BigDecimal(" ++ Inspected.inspect digits ++ ")"
  | date milliseconds => "Date(" ++ toString milliseconds.toInt ++ ")"
  | uuid bytes => "Uuid(" ++ bytesText bytes ++ ")"
  | string value => "String(" ++ Inspected.inspect value ++ ")"
  | list items => "List([" ++ ", ".intercalate (inspectItems items) ++ "])"
  | map entries => "Map([" ++ ", ".intercalate (inspectEntries entries) ++ "])"

def inspectItems : List RawValue → List String
  | [] => []
  | item :: items => inspect item :: inspectItems items

def inspectEntries : List (RawValue × RawValue) → List String
  | [] => []
  | (key, value) :: entries =>
      ("(" ++ inspect key ++ ", " ++ inspect value ++ ")") :: inspectEntries entries

end

end RawValue

/-- Why a value has no property value. -/
inductive ValueError where
  /-- A host value of a type the store cannot compare. -/
  | unsupported (value : RawValue) (typeName : String)
  /-- A map key that is not a text. -/
  | mapKey (key : RawValue)
  /-- A number that is neither an integer nor finite. -/
  | unrepresentable (number : String)

namespace ValueError

/-- The text of a failure. -/
def message : ValueError → String
  | unsupported value typeName =>
      "Property value " ++ value.payload ++ " of type " ++ typeName ++ " is not supported"
  | mapKey key =>
      "Property value " ++ key.inspect ++ " of type map key is not supported"
  | unrepresentable number => "number " ++ number ++ " cannot be represented"

end ValueError

namespace Value

mutual

/-- The property value of a host value. -/
def of? : RawValue → Except ValueError Value
  | .null => .ok .null
  | .bool value => .ok (.bool value)
  | .int value => .ok (.int32 value)
  | .long value => .ok (.int64 value)
  | .double value =>
      if value.isFinite then .ok (.double value)
      else .error (.unsupported (.double value) "non-finite double")
  | .string value => .ok (.string value)
  | .list items =>
      match ofItems? items with
      | .ok values => .ok (.list values)
      | .error e => .error e
  | .map entries =>
      match ofEntries? entries [] with
      | .ok values => .ok (.map values)
      | .error e => .error e
  | .byte value => .error (.unsupported (.byte value) "byte")
  | .short value => .error (.unsupported (.short value) "short")
  | .float value => .error (.unsupported (.float value) "float")
  | .bigInteger digits => .error (.unsupported (.bigInteger digits) "big integer")
  | .bigDecimal digits => .error (.unsupported (.bigDecimal digits) "big decimal")
  | .date milliseconds => .error (.unsupported (.date milliseconds) "date")
  | .uuid bytes => .error (.unsupported (.uuid bytes) "uuid")

/-- The property values of the items of a list, up to the first failure. -/
def ofItems? : List RawValue → Except ValueError (List Value)
  | [] => .ok []
  | item :: items =>
      match of? item with
      | .error e => .error e
      | .ok value =>
          match ofItems? items with
          | .ok values => .ok (value :: values)
          | .error e => .error e

/-- Store the entries of a map one after the other, up to the first failure. -/
def ofEntries? : List (RawValue × RawValue) → Entries Value → Except ValueError (Entries Value)
  | [], values => .ok values
  | (.string key, item) :: entries, values =>
      match of? item with
      | .error e => .error e
      | .ok value => ofEntries? entries (Entries.insert key value values)
  | (key, _) :: _, _ => .error (.mapKey key)

end

mutual

/-- The property value of a document: integers in the narrowest width, and as doubles if
they need a 64th bit beside the sign. -/
def ofJson? : Json → Except ValueError Value
  | .null => .ok .null
  | .bool value => .ok (.bool value)
  | .int value => .ok (ofInt value)
  | .double value =>
      if value.isFinite then .ok (.double value)
      else .error (.unrepresentable (Layout.plain.render value))
  | .string value => .ok (.string value)
  | .array items =>
      match ofJsonItems? items with
      | .ok values => .ok (.list values)
      | .error e => .error e
  | .object fields =>
      match ofJsonFields? fields with
      | .ok values => .ok (.map values)
      | .error e => .error e

/-- The property values of the items of an array. -/
def ofJsonItems? : List Json → Except ValueError (List Value)
  | [] => .ok []
  | item :: items =>
      match ofJson? item with
      | .error e => .error e
      | .ok value =>
          match ofJsonItems? items with
          | .ok values => .ok (value :: values)
          | .error e => .error e

/-- The property values of the fields of an object. -/
def ofJsonFields? : List (String × Json) → Except ValueError (List (String × Value))
  | [] => .ok []
  | (key, item) :: fields =>
      match ofJson? item with
      | .error e => .error e
      | .ok value =>
          match ofJsonFields? fields with
          | .ok values => .ok ((key, value) :: values)
          | .error e => .error e

end

mutual

/-- The document of a property value; doubles that are not finite become null. -/
def toJson : Value → Json
  | null => .null
  | bool value => .bool value
  | int32 value => .int value.toInt
  | int64 value => .int value.toInt
  | double value => Json.ofDouble value
  | string value => .string value
  | list items => .array (toJsonItems items)
  | map entries => .object (toJsonFields entries)

def toJsonItems : List Value → List Json
  | [] => []
  | item :: items => toJson item :: toJsonItems items

def toJsonFields : List (String × Value) → List (String × Json)
  | [] => []
  | (key, value) :: entries => (key, toJson value) :: toJsonFields entries

end

end Value
end Pushdown
