import Pushdown.Value.Basic

/-!
# Comparing values

The comparison of a traversal host: numbers compare across widths, texts and truth
values among themselves, and nothing else is ordered. Equality also looks into lists
and maps.

## Operations

* `Value.compare?`: the ordering of two values that are comparable;
* `Value.equals`: equality.
-/

namespace Pushdown
namespace Value

/-- Ordering of two numbers as doubles. -/
def compareDoubles? (a b : Value) : Option Ordering := do
  let x ← a.asDouble?
  let y ← b.asDouble?
  Binary.compare? x y

/-- Ordering of two integers. -/
def compareInts? (a b : Value) : Option Ordering := do
  let x ← a.asInt?
  let y ← b.asInt?
  pure (Ord.compare x y)

/-- Ordering of two values, none when they are not comparable. -/
def compare? : Value → Value → Option Ordering
  | string a, string b => some (Ord.compare a b)
  | bool a, bool b => some (Ord.compare a b)
  | double a, b => compareDoubles? (double a) b
  | a, double b => compareDoubles? a (double b)
  | a, b => compareInts? a b

/-- Equality of two numbers. -/
def equalNumbers (a b : Value) : Bool :=
  a.isNumber && b.isNumber && compare? a b == some .eq

mutual

/-- Equality of values; numbers are equal across widths. -/
def equals : Value → Value → Bool
  | null, null => true
  | bool a, bool b => a == b
  | string a, string b => a == b
  | list a, list b => equalItems a b
  | map a, map b => equalEntries a b
  | a, b => equalNumbers a b

/-- Items equal one by one. -/
def equalItems : List Value → List Value → Bool
  | [], [] => true
  | a :: as, b :: bs => equals a b && equalItems as bs
  | _, _ => false

/-- Entries equal one by one. -/
def equalEntries : List (String × Value) → List (String × Value) → Bool
  | [], [] => true
  | (ka, a) :: as, (kb, b) :: bs => ka == kb && equals a b && equalEntries as bs
  | _, _ => false

end

end Value
end Pushdown
