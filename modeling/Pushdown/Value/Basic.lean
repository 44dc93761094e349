import Pushdown.Json.Basic
import Pushdown.Support

/-!
# Property values

The values that a query literal can denote. Maps keep their entries in key order.

## Operations

* `Value.render`: the query literal of a value;
* `Value.support`: how exact a comparison with the value is in the store;
* `Value.identical`: equality constructor by constructor.
-/

namespace Pushdown

/-- A property value. -/
inductive Value where
  | null
  | bool (value : Bool)
  | int32 (value : Int32)
  | int64 (value : Int64)
  | double (value : Double)
  | string (value : String)
  | list (items : List Value)
  | map (entries : List (String × Value))

namespace Value

instance : Inhabited Value := ⟨null⟩

/-- The largest integer below which doubles are exact. -/
def maxExactInteger : Int := 9007199254740991

mutual

/-- The query literal of a value. -/
def render : Value → String
  | null => "null"
  | bool value => Json.boolText value
  | int32 value => toString value.toInt
  | int64 value => toString value.toInt
  | double value => Json.doubleText value
  | string value => Quoted.quote value
  | list items => "[" ++ ", ".intercalate (renderItems items) ++ "]"
  | map entries => "\x7b" ++ ", ".intercalate (renderEntries entries) ++ "\x7d"

/-- The literals of the items of a list. -/
def renderItems : List Value → List String
  | [] => []
  | item :: items => render item :: renderItems items

/-- The literals of the entries of a map. -/
def renderEntries : List (String × Value) → List String
  | [] => []
  | (key, value) :: entries =>
      (Quoted.quote key ++ ": " ++ render value) :: renderEntries entries

end

mutual

/-- How exact a comparison with a value is. A null compares differently in the store,
and the store compares numbers as doubles. -/
def support : Value → Support
  | null => .part
  | int64 value =>
      if -maxExactInteger ≤ value.toInt ∧ value.toInt ≤ maxExactInteger then .full else .part
  | list items => Support.joinAll (supports items)
  | map entries => Support.joinAll (entrySupports entries)
  | _ => .full

/-- The classes of the items of a list. -/
def supports : List Value → List Support
  | [] => []
  | item :: items => support item :: supports items

/-- The classes of the values of a map. -/
def entrySupports : List (String × Value) → List Support
  | [] => []
  | (_, value) :: entries => support value :: entrySupports entries

end

mutual

/-- Equality constructor by constructor; doubles are equal when they are as numbers. -/
def identical : Value → Value → Bool
  | null, null => true
  | bool a, bool b => a == b
  | int32 a, int32 b => a == b
  | int64 a, int64 b => a == b
  | double a, double b => a.equals b
  | string a, string b => a == b
  | list a, list b => identicalItems a b
  | map a, map b => identicalEntries a b
  | _, _ => false

/-- Items equal one by one. -/
def identicalItems : List Value → List Value → Bool
  | [], [] => true
  | a :: as, b :: bs => identical a b && identicalItems as bs
  | _, _ => false

/-- Entries equal one by one. -/
def identicalEntries : List (String × Value) → List (String × Value) → Bool
  | [], [] => true
  | (ka, a) :: as, (kb, b) :: bs => ka == kb && identical a b && identicalEntries as bs
  | _, _ => false

end

/-- The name of a value's type. -/
def typeName : Value → String
  | null => "null"
  | bool _ => "bool"
  | int32 _ => "int32"
  | int64 _ => "int64"
  | double _ => "double"
  | string _ => "string"
  | list _ => "list"
  | map _ => "map"

def isNull : Value → Bool
  | null => true
  | _ => false

def isNumber : Value → Bool
  | int32 _ | int64 _ | double _ => true
  | _ => false

/-- The truth value. -/
def asBool? : Value → Option Bool
  | bool value => some value
  | _ => none

/-- The integer, of either width. -/
def asInt? : Value → Option Int
  | int32 value => some value.toInt
  | int64 value => some value.toInt
  | _ => none

/-- The number as a double, integers rounded to the nearest. -/
def asDouble? : Value → Option Double
  | int32 value => some (Binary.ofInt value.toInt)
  | int64 value => some (Binary.ofInt value.toInt)
  | double value => some value
  | _ => none

/-- The text. -/
def asString? : Value → Option String
  | string value => some value
  | _ => none

/-- The items. -/
def asList? : Value → Option (List Value)
  | list items => some items
  | _ => none

/-- The entries. -/
def asMap? : Value → Option (Entries Value)
  | map entries => some entries
  | _ => none

/-- An integer in the narrowest width, a double beyond 64 bits. -/
def ofInt (value : Int) : Value :=
  if Fits32 value then int32 (Int32.ofInt value)
  else if Fits64 value then int64 (Int64.ofInt value)
  else double (Binary.ofInt value)

end Value
end Pushdown
