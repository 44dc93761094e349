import Pushdown.Unicode.Property

/-!
# Inspected text

The form in which error messages show a text: between double quotes, with escapes for
the quote, the backslash and everything that would not be seen.
-/

namespace Pushdown
namespace Inspected

/-- Hexadecimal digits of a number, lower case. -/
def hexDigits (n : Nat) : List Char := Nat.toDigits 16 n

/-- The shown form of one character. -/
def escape (c : Char) : List Char :=
  if c = '\x00' then ['\\', '0']
  else if c = '\t' then ['\\', 't']
  else if c = '\n' then ['\\', 'n']
  else if c = '\r' then ['\\', 'r']
  else if c = '"' then ['\\', '"']
  else if c = '\\' then ['\\', '\\']
  else if 0x20 ≤ c.toNat ∧ c.toNat < 0x7f then [c]
  else if Unicode.isGraphemeExtend c || !Unicode.isPrintable c then
    '\\' :: 'u' :: '\x7b' :: (hexDigits c.toNat ++ ['\x7d'])
  else [c]

/-- The shown form of a text. -/
def inspect (text : String) : String :=
  String.ofList ('"' :: (text.toList.flatMap escape ++ ['"']))

end Inspected
end Pushdown
