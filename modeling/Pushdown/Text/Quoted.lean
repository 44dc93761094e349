/-!
# Quoted text

A quoted text stands between double quotes. A quote, a backslash and the control
characters below a space are written by an escape; every other character is written
as it is.

## Operations

* `Quoted.encode`, `Quoted.quote`: write;
* `Quoted.decode?`: read back up to the closing quote.
-/

namespace Pushdown
namespace Quoted

/-- Digit of a number below sixteen, lower case. -/
def hexDigit (n : Nat) : Char := Nat.digitChar n

/-- The escape of a character, if it has one. -/
def escape? (c : Char) : Option (List Char) :=
  match c with
  | '"' => some ['\\', '"']
  | '\\' => some ['\\', '\\']
  | '\x08' => some ['\\', 'b']
  | '\t' => some ['\\', 't']
  | '\n' => some ['\\', 'n']
  | '\x0c' => some ['\\', 'f']
  | '\r' => some ['\\', 'r']
  | c =>
      if c.toNat < 0x20 then
        some ['\\', 'u', '0', '0', hexDigit (c.toNat / 16), hexDigit (c.toNat % 16)]
      else none

/-- The characters that stand for a text between the quotes. -/
def encode : List Char → List Char
  | [] => []
  | c :: rest =>
      match escape? c with
      | some escaped => escaped ++ encode rest
      | none => c :: encode rest

/-- A text between quotes. -/
def quote (text : String) : String :=
  String.ofList ('"' :: (encode text.toList ++ ['"']))

/-- Value of a hexadecimal digit in either case. -/
def hexValue? (c : Char) : Option Nat :=
  if '0' ≤ c ∧ c ≤ '9' then some (c.toNat - '0'.toNat)
  else if 'a' ≤ c ∧ c ≤ 'f' then some (c.toNat - 'a'.toNat + 10)
  else if 'A' ≤ c ∧ c ≤ 'F' then some (c.toNat - 'A'.toNat + 10)
  else none

/-- Four hexadecimal digits and what follows them. -/
def hexFour? : List Char → Option (Nat × List Char)
  | a :: b :: c :: d :: rest => do
      let a ← hexValue? a
      let b ← hexValue? b
      let c ← hexValue? c
      let d ← hexValue? d
      pure (((a * 16 + b) * 16 + c) * 16 + d, rest)
  | _ => none

/-- A scalar value as a character. -/
def scalar? (n : Nat) : Option Char :=
  if n < 0xD800 ∨ (0xE000 ≤ n ∧ n < 0x110000) then some (Char.ofNat n) else none

/-- The character of an escape whose letter has been read. -/
def escapeLetter? : Char → Option Char
  | '"' => some '"'
  | '\\' => some '\\'
  | '/' => some '/'
  | 'b' => some '\x08'
  | 'f' => some '\x0c'
  | 'n' => some '\n'
  | 'r' => some '\r'
  | 't' => some '\t'
  | _ => none

/-- A four-digit escape whose letter has been read, or a pair of surrogates. -/
def escapeCode? (text : List Char) : Option (Char × List Char) := do
  let (high, rest) ← hexFour? text
  if 0xD800 ≤ high ∧ high < 0xDC00 then
    match rest with
    | '\\' :: 'u' :: rest => do
        let (low, rest) ← hexFour? rest
        if 0xDC00 ≤ low ∧ low < 0xE000 then
          let c ← scalar? (0x10000 + (high - 0xD800) * 0x400 + (low - 0xDC00))
          pure (c, rest)
        else none
    | _ => none
  else do
    let c ← scalar? high
    pure (c, rest)

/-- One character of a quoted text and what follows it; none at a quote, at the end
and where no character can be read. -/
def decodeOne? : List Char → Option (Char × List Char)
  | [] => none
  | '"' :: _ => none
  | '\\' :: 'u' :: rest => escapeCode? rest
  | '\\' :: c :: rest => (escapeLetter? c).map fun d => (d, rest)
  | c :: rest => if c.toNat < 0x20 ∨ c = '\\' then none else some (c, rest)

/-- Characters up to the closing quote, and what follows it. The fuel bounds the
number of characters read. -/
def decode? : Nat → List Char → Option (List Char × List Char)
  | 0, _ => none
  | _ + 1, '"' :: rest => some ([], rest)
  | fuel + 1, text => do
      let (c, rest) ← decodeOne? text
      let (cs, rest) ← decode? fuel rest
      pure (c :: cs, rest)

end Quoted
end Pushdown
