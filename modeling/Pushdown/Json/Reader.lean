import Pushdown.Json.Basic
import Pushdown.Number.Stepwise

/-!
# Reading JSON text

One document, with blanks around it and nothing else. A number without point and
exponent is an integer when it fits in 64 bits and is not a negative zero; any other
number is a double, which must be finite.

There are two readings. One is of the text itself: a double is the one nearest to its
decimal, and arrays and objects are nested to any depth. The other one is what arrives
in the program: its reader rounds decimals step by step, so that a double may not come
back from its own text, and it refuses what is nested too deep.

## Operations

* `Json.readAsWritten?`: the document of a text, object fields as they were written;
* `Json.denoted?`: the same, object fields in key order, the last of equal keys;
* `Json.read?`: the document that arrives, object fields in key order.
-/

namespace Pushdown
namespace Json

/-- Blanks between tokens. -/
def isBlank (c : Char) : Bool := c = ' ' || c = '\n' || c = '\t' || c = '\r'

/-- Drop leading blanks. -/
def skipBlanks (text : List Char) : List Char := text.dropWhile isBlank

/-- The digits after a point, which must be there once the point is. -/
def readFraction? : List Char → Option (List Char × List Char)
  | '.' :: rest =>
      let (digits, rest) := spanDigits rest
      if digits.isEmpty then none else some (digits, rest)
  | rest => some ([], rest)

/-- The exponent, none when there is none, and what follows. -/
def readPower? : List Char → Option (Option Int × List Char)
  | c :: rest =>
      if c = 'e' ∨ c = 'E' then
        let (negative, rest) := readSign rest
        let (digits, rest) := spanDigits rest
        if digits.isEmpty then none
        else some (some (if negative then -(readNat digits : Int) else readNat digits), rest)
      else some (none, c :: rest)
  | [] => some (none, [])

/-- The number of a sign, whole digits, fraction digits and an exponent. -/
def numberOf (negative : Bool) (whole fraction : List Char) (power : Option Int) : Json :=
  if fraction.isEmpty ∧ power = none ∧ !(negative ∧ readNat whole = 0) then
    ofInt (if negative then -(readNat whole : Int) else readNat whole)
  else
    double (Binary.ofDecimal negative (readNat (whole ++ fraction))
      (power.getD 0 - fraction.length))

/-- The same, with a double that is rounded step by step. -/
def numberStepwise (negative : Bool) (whole fraction : List Char) (power : Option Int) : Json :=
  let value : Int := if negative then -(readNat whole : Int) else readNat whole
  if fraction.isEmpty ∧ power = none ∧ !(negative ∧ readNat whole = 0) ∧ FitsDocument value then
    int value
  else double (Double.ofDigits negative whole fraction (power.getD 0))

/-- A number that is not out of range. -/
def finite? : Json → Option Json
  | double value => if value.isFinite then some (double value) else none
  | json => some json

/-- What a reader makes of a number: of its sign, its whole digits, its fraction digits and its
exponent. -/
abbrev NumberReading := Bool → List Char → List Char → Option Int → Option Json

/-- Doubles are the nearest ones. -/
def exactly : NumberReading := fun negative whole fraction power =>
  finite? (numberOf negative whole fraction power)

/-- Doubles are rounded step by step. -/
def stepwise : NumberReading := fun negative whole fraction power =>
  finite? (numberStepwise negative whole fraction power)

/-- A string whose opening quote has been read. -/
def readString? (text : List Char) : Option (String × List Char) :=
  (Quoted.decode? (text.length + 1) text).map fun (chars, rest) => (String.ofList chars, rest)

section reading

variable (reading : NumberReading)

/-- A number and what follows it. -/
def readNumber? (text : List Char) : Option (Json × List Char) := do
  let (negative, text) := match text with
    | '-' :: rest => (true, rest)
    | rest => (false, rest)
  let (whole, rest) := spanDigits text
  if whole.isEmpty || (1 < whole.length && whole.head? = some '0') then none
  else do
    let (fraction, rest) ← readFraction? rest
    let (power, rest) ← readPower? rest
    let number ← reading negative whole fraction power
    pure (number, rest)

mutual

/-- A document and what follows it. -/
def readValue? : Nat → List Char → Option (Json × List Char)
  | 0, _ => none
  | fuel + 1, text =>
      match skipBlanks text with
      | 'n' :: 'u' :: 'l' :: 'l' :: rest => some (null, rest)
      | 't' :: 'r' :: 'u' :: 'e' :: rest => some (bool true, rest)
      | 'f' :: 'a' :: 'l' :: 's' :: 'e' :: rest => some (bool false, rest)
      | '"' :: rest => (readString? rest).map fun (s, rest) => (string s, rest)
      | '[' :: rest =>
          match skipBlanks rest with
          | ']' :: rest => some (array [], rest)
          | rest => (readItems? fuel rest).map fun (items, rest) => (array items, rest)
      | '\x7b' :: rest =>
          match skipBlanks rest with
          | '\x7d' :: rest => some (object [], rest)
          | rest => (readFields? fuel rest).map fun (fields, rest) => (object fields, rest)
      | rest => readNumber? reading rest

/-- The items of an array up to its closing bracket. -/
def readItems? : Nat → List Char → Option (List Json × List Char)
  | 0, _ => none
  | fuel + 1, text => do
      let (item, rest) ← readValue? fuel text
      match skipBlanks rest with
      | ']' :: rest => pure ([item], rest)
      | ',' :: rest => do
          let (items, rest) ← readItems? fuel rest
          pure (item :: items, rest)
      | _ => none

/-- The fields of an object up to its closing brace. -/
def readFields? : Nat → List Char → Option (List (String × Json) × List Char)
  | 0, _ => none
  | fuel + 1, text =>
      match skipBlanks text with
      | '"' :: rest => do
          let (key, rest) ← readString? rest
          match skipBlanks rest with
          | ':' :: rest => do
              let (value, rest) ← readValue? fuel rest
              match skipBlanks rest with
              | '\x7d' :: rest => pure ([(key, value)], rest)
              | ',' :: rest => do
                  let (fields, rest) ← readFields? fuel rest
                  pure ((key, value) :: fields, rest)
              | _ => none
          | _ => none
      | _ => none

end

/-- The document of a text, object fields as they were written. -/
def readWith? (text : String) : Option Json := do
  let chars := text.toList
  let (json, rest) ← readValue? reading (2 * chars.length + 2) chars
  if (skipBlanks rest).isEmpty then some json else none

end reading

/-- The document of a text with the nearest doubles, object fields as they were written. -/
def readAsWritten? (text : String) : Option Json := readWith? exactly text

mutual

/-- Object fields in key order, the last of equal keys. -/
def ordered : Json → Json
  | array items => array (orderedItems items)
  | object fields => object (Entries.ofList (orderedFields fields))
  | json => json

def orderedItems : List Json → List Json
  | [] => []
  | item :: items => ordered item :: orderedItems items

def orderedFields : List (String × Json) → List (String × Json)
  | [] => []
  | (key, value) :: fields => (key, ordered value) :: orderedFields fields

end

/-- The document that a text denotes. -/
def denoted? (text : String) : Option Json := (readAsWritten? text).map ordered

mutual

/-- How deep arrays and objects are nested. -/
def depth : Json → Nat
  | array items => depthItems items + 1
  | object fields => depthFields fields + 1
  | _ => 0

/-- How deep some items are nested. -/
def depthItems : List Json → Nat
  | [] => 0
  | item :: items => max (depth item) (depthItems items)

/-- How deep the values of some fields are nested. -/
def depthFields : List (String × Json) → Nat
  | [] => 0
  | (_, value) :: fields => max (depth value) (depthFields fields)

end

/-- The largest depth that is read. -/
def depthLimit : Nat := 127

/-- The document that arrives. -/
def read? (text : String) : Option Json :=
  (readWith? stepwise text).bind fun json =>
    if json.depth ≤ depthLimit then some json.ordered else none

end Json
end Pushdown
