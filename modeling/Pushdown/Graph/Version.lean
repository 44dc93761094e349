import Pushdown.Error
import Pushdown.Number.Decimal
import Pushdown.Unicode.Property

/-!
# Versions

A version starts with three numbers with points between them, none of which starts with
a zero unless it is one. A graph that a newer library has opened cannot be opened.

## Operations

* `Version.ofText?`: the numbers at the start of a text;
* `checkVersion`: the gate.
-/

namespace Pushdown

/-- The three numbers of a version. -/
structure Version where
  major : Nat
  minor : Nat
  patch : Nat
deriving DecidableEq

namespace Version

/-- Order by the first number that differs. -/
def compare (a b : Version) : Ordering :=
  (Ord.compare a.major b.major).then
    ((Ord.compare a.minor b.minor).then (Ord.compare a.patch b.patch))

/-- A number at the start of a text: a zero, or all the digits from one that is none. Only
ASCII digits below 64 bits make a number. -/
def readPart? : List Char → Option (Nat × List Char)
  | [] => none
  | c :: rest =>
      if c = '0' then some (0, rest)
      else if c.isDigit then
        let digits := c :: rest.takeWhile Unicode.isDecimalDigit
        if digits.all Char.isDigit ∧ readNat digits < 18446744073709551616 then
          some (readNat digits, rest.dropWhile Unicode.isDecimalDigit)
        else none
      else none

/-- What follows a point. -/
def afterPoint? : List Char → Option (List Char)
  | '.' :: rest => some rest
  | _ => none

/-- The version at the start of a text. -/
def ofText? (text : String) : Option Version := do
  let (major, rest) ← readPart? text.toList
  let rest ← afterPoint? rest
  let (minor, rest) ← readPart? rest
  let rest ← afterPoint? rest
  let (patch, _) ← readPart? rest
  pure ⟨major, minor, patch⟩

end Version

/-- The version written into the graphs that are opened. -/
def libraryVersion : String := "0.1.0"

/-- The numbers of that version. -/
def libraryVersionNumbers : Version := ⟨0, 1, 0⟩

/-- Fail on a version newer than the library's. -/
def checkVersion (stored : String) : Result Unit :=
  match Version.ofText? stored with
  | none => .error (.invalidVersion stored)
  | some version =>
      if version.compare libraryVersionNumbers = .gt then
        .error (.incompatibleVersion stored libraryVersion)
      else .ok ()

end Pushdown
