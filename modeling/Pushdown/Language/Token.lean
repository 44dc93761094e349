import Pushdown.Language.Span
import Pushdown.Number.Decimal
import Pushdown.Json.Basic

/-!
# Tokens

The tokens of the traversal language. Blanks and comments stand between tokens; at every
other place the longest token is taken, and a word that is a constant is that constant.

## Operations

* `Lexeme.readFrom`: the token at the start of a text, with the characters it takes;
* `Scanned.ofSource`: the tokens of a source up to the first place without one;
* `Token.describe`: the name of a token in messages.
-/

namespace Pushdown
namespace Language

/-- The quote around a string. -/
inductive Quote where
  | double
  | single
deriving DecidableEq

/-- The character of a quote. -/
def Quote.char : Quote → Char
  | double => '"'
  | single => '\''

/-- A token. -/
inductive Token where
  | trueWord
  | falseWord
  | nullWord
  | ident (name : String)
  | string (quote : Quote) (value : String)
  | int (value : Int64)
  | float (value : Double)
  | dot
  | comma
  | colon
  | leftParen
  | rightParen
  | leftBrace
  | rightBrace
  | leftBracket
  | rightBracket
deriving DecidableEq

namespace Token

/-- The name of a token in messages. -/
def describe : Token → String
  | trueWord => "'true'"
  | falseWord => "'false'"
  | nullWord => "'null'"
  | ident name => "identifier '" ++ name ++ "'"
  | string _ _ => "string literal"
  | int value => "integer " ++ toString value.toInt
  | float value => "number " ++ Layout.plain.render value
  | dot => "'.'"
  | comma => "','"
  | colon => "':'"
  | leftParen => "'('"
  | rightParen => "')'"
  | leftBrace => "'\x7b'"
  | rightBrace => "'\x7d'"
  | leftBracket => "'['"
  | rightBracket => "']'"

/-- The token of a character that is one by itself. -/
def punctuation? : Char → Option Token
  | '.' => some dot
  | ',' => some comma
  | ':' => some colon
  | '(' => some leftParen
  | ')' => some rightParen
  | '\x7b' => some leftBrace
  | '\x7d' => some rightBrace
  | '[' => some leftBracket
  | ']' => some rightBracket
  | _ => none

/-- The token of a word. -/
def ofWord (word : List Char) : Token :=
  let name := String.ofList word
  if name = "true" then trueWord
  else if name = "false" then falseWord
  else if name = "null" then nullWord
  else ident name

end Token

/-- Characters that start a word. -/
def isWordStart (c : Char) : Bool := c.isAlpha || c = '_'

/-- Characters that go on with a word. -/
def isWordPart (c : Char) : Bool := c.isAlphanum || c = '_'

/-- Blanks between tokens. -/
def isBlank (c : Char) : Bool := c = ' ' || c = '\t' || c = '\r' || c = '\n'

/-- The text that a string stands for: a backslash before a quote, a backslash, or one of
the letters n, r and t is an escape, any other stays. -/
def unescape : List Char → List Char
  | [] => []
  | '\\' :: 'n' :: rest => '\n' :: unescape rest
  | '\\' :: 'r' :: rest => '\r' :: unescape rest
  | '\\' :: 't' :: rest => '\t' :: unescape rest
  | '\\' :: '\\' :: rest => '\\' :: unescape rest
  | '\\' :: '"' :: rest => '"' :: unescape rest
  | '\\' :: '\'' :: rest => '\'' :: unescape rest
  | '\\' :: c :: rest => '\\' :: c :: unescape rest
  | c :: rest => c :: unescape rest

/-- The items of a string up to its quote or to a place where there is none. -/
def stringItems (quote : Char) : List Char → List Char
  | [] => []
  | '\\' :: c :: rest => if c = '\n' then [] else '\\' :: c :: stringItems quote rest
  | c :: rest => if c = quote ∨ c = '\\' then [] else c :: stringItems quote rest

/-- What stands at the start of a text that is not blank. -/
inductive Lexeme where
  /-- A token and the characters it takes. -/
  | token (token : Token) (taken : List Char)
  /-- Characters that are no token. -/
  | invalid (taken : List Char)

namespace Lexeme

/-- The characters a lexeme takes. -/
def taken : Lexeme → List Char
  | token _ taken => taken
  | invalid taken => taken

/-- The string after an opening quote. -/
def readString (quote : Quote) (rest : List Char) : Lexeme :=
  let items := stringItems quote.char rest
  if (rest.drop items.length).head? = some quote.char then
    token (.string quote (String.ofList (unescape items)))
      (quote.char :: (items ++ [quote.char]))
  else invalid (quote.char :: items)

/-- The integer of some digits, if it fits in 64 bits. -/
def ofDigits (negative : Bool) (digits taken : List Char) : Lexeme :=
  let n : Int := if negative then -(readNat digits : Int) else readNat digits
  if Fits64 n then token (.int (Int64.ofInt n)) taken else invalid taken

/-- The number after a sign, if there are digits. -/
def readNumber? (negative : Bool) (text : List Char) : Option Lexeme :=
  let sign := if negative then ['-'] else []
  let (whole, rest) := spanDigits text
  if whole.isEmpty then none
  else
    let fraction := match rest with
      | '.' :: rest => rest.takeWhile Char.isDigit
      | _ => []
    if fraction.isEmpty then some (ofDigits negative whole (sign ++ whole))
    else
      let value := Binary.ofDecimal negative (readNat (whole ++ fraction)) (-fraction.length)
      some (token (.float value) (sign ++ whole ++ '.' :: fraction))

/-- The lexeme of a text by its first character. -/
def readFrom (c : Char) (rest : List Char) : Lexeme :=
  if isWordStart c then
    let word := c :: rest.takeWhile isWordPart
    token (Token.ofWord word) word
  else if c = '"' then readString .double rest
  else if c = '\'' then readString .single rest
  else if c = '-' then (readNumber? true rest).getD (invalid [c])
  else if c.isDigit then (readNumber? false (c :: rest)).getD (invalid [c])
  else
    match Token.punctuation? c with
    | some t => token t [c]
    | none => invalid [c]

end Lexeme

/-- A token and where it stands. -/
structure SpannedToken where
  token : Token
  span : Span

/-- Input that is no token. -/
structure InvalidInput where
  text : String
  span : Span

/-- The tokens of a source, up to the first invalid input. -/
structure Scanned where
  tokens : List SpannedToken
  failure : Option InvalidInput
  /-- Bytes of the source. -/
  size : Nat

/-- The number of characters of the blanks and comments at the start of a text. -/
def blankLength : Nat → List Char → Nat
  | 0, _ => 0
  | _ + 1, [] => 0
  | fuel + 1, c :: rest =>
      if isBlank c then blankLength fuel rest + 1
      else if c = '/' ∧ rest.head? = some '/' then
        let comment := (c :: rest).takeWhile (· != '\n')
        blankLength fuel (rest.drop (comment.length - 1)) + comment.length
      else 0

/-- Tokens of a text that starts at an offset, and the invalid input after them. -/
def scanFrom : Nat → Nat → List Char → List SpannedToken × Option InvalidInput
  | 0, _, _ => ([], none)
  | fuel + 1, offset, text =>
      let blanks := blankLength (text.length + 1) text
      let start := offset + byteLength (text.take blanks)
      match text.drop blanks with
      | [] => ([], none)
      | c :: rest =>
          let lexeme := Lexeme.readFrom c rest
          let stop := start + byteLength lexeme.taken
          match lexeme with
          | .invalid taken => ([], some ⟨String.ofList taken, ⟨start, stop⟩⟩)
          | .token t taken =>
              let (tokens, failure) := scanFrom fuel stop ((c :: rest).drop taken.length)
              (⟨t, ⟨start, stop⟩⟩ :: tokens, failure)

/-- The tokens of a source. -/
def Scanned.ofSource (source : String) : Scanned :=
  let text := source.toList
  let (tokens, failure) := scanFrom (text.length + 1) 0 text
  ⟨tokens, failure, byteLength text⟩

end Language
end Pushdown
