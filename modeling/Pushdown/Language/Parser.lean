import Pushdown.Language.Diagnostic
import Pushdown.Language.Expr

/-!
# Parsing traversals

The grammar, in which a comma stands between arguments and never after the last:

* a traversal is a word, a point and calls with points between them;
* a call is a word and arguments in parentheses;
* an argument is a literal, or a predicate, which starts with a word;
* a predicate is a call, optionally qualified by `P` or `TextP` and a point, followed by
  any number of points with `and` or `or` and a predicate in parentheses;
* a literal is a constant, a number, a string, a list in brackets, or a map in braces
  with words or strings as keys.

## Operations

* `parse`: the syntax tree of a source, or the first error.

Functions that can nest take a fuel, which the number of tokens bounds.
-/

namespace Pushdown
namespace Language

/-- What went wrong when a source was read. -/
inductive ParseFault where
  | invalidInput (text : String)
  | unexpectedEnd
  /-- A token where something else should stand. -/
  | expected (wanted : String) (found : Token)
  /-- A word after a predicate that joins nothing. -/
  | notConnective (word : String)

/-- The text of a fault. -/
def ParseFault.message : ParseFault → String
  | invalidInput text => "unexpected input '" ++ text ++ "'"
  | unexpectedEnd => "unexpected end of input"
  | expected wanted found => "expected " ++ wanted ++ ", found " ++ found.describe
  | notConnective word => "expected 'and' or 'or' after a predicate, found '" ++ word ++ "'"

/-- Suggestions shown with an error. -/
inductive Hint where
  | unterminatedString
  | integerRange
  | callWithParentheses (name : String)
  | quoteStrings
  | separateArguments

/-- The text of a suggestion. -/
def Hint.message : Hint → String
  | unterminatedString => "string literal is not terminated"
  | integerRange => "integers must fit in 64 bits"
  | callWithParentheses name => "steps are called with parentheses: " ++ name ++ "()"
  | quoteStrings => "bare identifiers are not values; quote strings with ' or \""
  | separateArguments => "separate arguments with ','"

/-- An error of the parser. -/
structure ParseError where
  fault : ParseFault
  span : Span
  hint : Option Hint

namespace ParseError

/-- The error as a message about the source. -/
def diagnostic (e : ParseError) : Diagnostic :=
  ⟨none, e.fault.message, e.span, e.hint.map Hint.message⟩

/-- The suggestion for invalid input. -/
def hintFor (text : List Char) : Option Hint :=
  match text with
  | '"' :: _ => some .unterminatedString
  | '\'' :: _ => some .unterminatedString
  | text =>
      match text.dropWhile (· = '-') with
      | c :: _ => if c.isDigit then some .integerRange else none
      | [] => none

/-- The error of invalid input. -/
def ofInvalid (input : InvalidInput) : ParseError :=
  ⟨.invalidInput input.text, input.span, hintFor input.text.toList⟩

end ParseError

/-- A result that may be an error of the parser. -/
abbrev Parsed (α : Type) := Except ParseError α

namespace Scanned

/-- The next token without taking it, none at the end of the source. -/
def peek? (s : Scanned) : Parsed (Option SpannedToken) :=
  match s.tokens, s.failure with
  | tok :: _, _ => .ok (some tok)
  | [], some input => .error (.ofInvalid input)
  | [], none => .ok none

/-- Take the next token, which must be there. -/
def next (s : Scanned) : Parsed (SpannedToken × Scanned) :=
  match s.tokens, s.failure with
  | tok :: rest, _ => .ok (tok, { s with tokens := rest })
  | [], some input => .error (.ofInvalid input)
  | [], none => .error ⟨.unexpectedEnd, .at_ s.size, none⟩

/-- Take the next token if it is the given one. -/
def eat (s : Scanned) (token : Token) : Parsed (Option SpannedToken × Scanned) :=
  match s.peek? with
  | .error e => .error e
  | .ok (some tok) =>
      if tok.token = token then .ok (some tok, { s with tokens := s.tokens.drop 1 })
      else .ok (none, s)
  | .ok none => .ok (none, s)

/-- Take a token, which must be the given one. -/
def expect (s : Scanned) (token : Token) : Parsed (SpannedToken × Scanned) :=
  match s.next with
  | .error e => .error e
  | .ok (tok, s) =>
      if tok.token = token then .ok (tok, s)
      else .error ⟨.expected token.describe tok.token, tok.span, none⟩

/-- Take a token, which must be the given one, with a suggestion for when it is not. -/
def expectWith (s : Scanned) (token : Token) (hint : Hint) : Parsed (SpannedToken × Scanned) :=
  match s.expect token with
  | .error e => .error { e with hint := some hint }
  | .ok r => .ok r

/-- Take a word. -/
def word (s : Scanned) : Parsed (Spanned String × Scanned) :=
  match s.next with
  | .error e => .error e
  | .ok (⟨.ident name, span⟩, s) => .ok (⟨name, span⟩, s)
  | .ok (tok, _) => .error ⟨.expected "identifier" tok.token, tok.span, none⟩

/-- Take the closing token of a list and give its span, or the comma that must stand
before every item but the first. -/
def close (s : Scanned) (closing : Token) (first : Bool) : Parsed (Option Span × Scanned) :=
  match s.eat closing with
  | .error e => .error e
  | .ok (some tok, s) => .ok (some tok.span, s)
  | .ok (none, s) =>
      if first then .ok (none, s)
      else
        match s.next with
        | .error e => .error e
        | .ok (tok, s) =>
            if tok.token = .comma then .ok (none, s)
            else
              .error ⟨.expected ("',' or " ++ closing.describe) tok.token, tok.span,
                some .separateArguments⟩

/-- The key of a map entry. -/
def mapKey (s : Scanned) : Parsed (Spanned String × Scanned) :=
  match s.next with
  | .error e => .error e
  | .ok (⟨.ident name, span⟩, s) => .ok (⟨name, span⟩, s)
  | .ok (⟨.string _ text, span⟩, s) => .ok (⟨text, span⟩, s)
  | .ok (tok, _) => .error ⟨.expected "map key" tok.token, tok.span, none⟩

end Scanned

namespace Parser

/-- The error of a fuel that does not suffice. -/
def outOfFuel {α : Type} (s : Scanned) : Parsed α := .error ⟨.unexpectedEnd, .at_ s.size, none⟩

mutual

/-- A literal. -/
def literal : Nat → Scanned → Parsed (Spanned Literal × Scanned)
  | 0, s => outOfFuel s
  | fuel + 1, s => do
      let (tok, s) ← s.next
      match tok.token with
      | .nullWord => pure (⟨.null, tok.span⟩, s)
      | .trueWord => pure (⟨.bool true, tok.span⟩, s)
      | .falseWord => pure (⟨.bool false, tok.span⟩, s)
      | .int value => pure (⟨.int value, tok.span⟩, s)
      | .float value => pure (⟨.float value, tok.span⟩, s)
      | .string _ value => pure (⟨.string value, tok.span⟩, s)
      | .leftBracket => do
          let (items, stop, s) ← literals fuel .rightBracket true s
          pure (⟨.list items, tok.span.merge stop⟩, s)
      | .leftBrace => do
          let (entries, stop, s) ← mapEntries fuel true s
          pure (⟨.map entries, tok.span.merge stop⟩, s)
      | found => throw ⟨.expected "literal value" found, tok.span, none⟩

/-- Literals up to a closing token, and the span of that. -/
def literals : Nat → Token → Bool → Scanned → Parsed (List (Spanned Literal) × Span × Scanned)
  | 0, _, _, s => outOfFuel s
  | fuel + 1, closing, first, s => do
      match ← s.close closing first with
      | (some stop, s) => pure ([], stop, s)
      | (none, s) => do
          let (item, s) ← literal fuel s
          let (items, stop, s) ← literals fuel closing false s
          pure (item :: items, stop, s)

/-- Map entries up to the closing brace, and the span of that. -/
def mapEntries : Nat → Bool → Scanned →
    Parsed (List (Spanned String × Spanned Literal) × Span × Scanned)
  | 0, _, s => outOfFuel s
  | fuel + 1, first, s => do
      match ← s.close .rightBrace first with
      | (some stop, s) => pure ([], stop, s)
      | (none, s) => do
          let (key, s) ← s.mapKey
          let (_, s) ← s.expect .colon
          let (value, s) ← literal fuel s
          let (entries, stop, s) ← mapEntries fuel false s
          pure ((key, value) :: entries, stop, s)

end

/-- Words that may qualify a predicate. -/
def qualifiers : List String := ["P", "TextP"]

/-- The name of a predicate, with its qualifier if it has one. -/
def predicateName (s : Scanned) : Parsed (Spanned String × Scanned) := do
  let (name, s) ← s.word
  if qualifiers.contains name.value then
    match ← s.eat .dot with
    | (some _, s) => do
        let (qualified, s) ← s.word
        pure (⟨qualified.value, name.span.merge qualified.span⟩, s)
    | (none, s) => pure (name, s)
  else pure (name, s)

/-- A predicate without what is joined to it. -/
def predicateCall (fuel : Nat) (s : Scanned) : Parsed (PredicateExpr × Scanned) := do
  let (name, s) ← predicateName s
  let (_, s) ← s.expectWith .leftParen .quoteStrings
  let (arguments, stop, s) ← literals fuel .rightParen true s
  pure (.call name arguments (name.span.merge stop), s)

/-- Two predicates joined by a word. -/
def joined (left : PredicateExpr) (word : Spanned String) (right : PredicateExpr) :
    Parsed PredicateExpr :=
  if word.value = "and" then .ok (.and left right)
  else if word.value = "or" then .ok (.or left right)
  else .error ⟨.notConnective word.value, word.span, none⟩

mutual

/-- A predicate. -/
def predicate : Nat → Scanned → Parsed (PredicateExpr × Scanned)
  | 0, s => outOfFuel s
  | fuel + 1, s => do
      let (left, s) ← predicateCall fuel s
      connected fuel left s

/-- What is joined to a predicate. -/
def connected : Nat → PredicateExpr → Scanned → Parsed (PredicateExpr × Scanned)
  | 0, _, s => outOfFuel s
  | fuel + 1, left, s => do
      match ← s.eat .dot with
      | (none, s) => pure (left, s)
      | (some _, s) => do
          let (word, s) ← s.word
          let (_, s) ← s.expect .leftParen
          let (right, s) ← predicate fuel s
          let (_, s) ← s.expect .rightParen
          let left ← joined left word right
          connected fuel left s

end

/-- An argument of a call: a predicate where a word stands, else a literal. -/
def argument (fuel : Nat) (s : Scanned) : Parsed (Argument × Scanned) := do
  match ← s.peek? with
  | some ⟨.ident _, _⟩ => do
      let (p, s) ← predicate fuel s
      pure (.predicate p, s)
  | _ => do
      let (l, s) ← literal fuel s
      pure (.literal l, s)

/-- Arguments up to the closing parenthesis, and the span of that. -/
def arguments : Nat → Bool → Scanned → Parsed (List Argument × Span × Scanned)
  | 0, _, s => outOfFuel s
  | fuel + 1, first, s => do
      match ← s.close .rightParen first with
      | (some stop, s) => pure ([], stop, s)
      | (none, s) => do
          let (a, s) ← argument fuel s
          let (rest, stop, s) ← arguments fuel false s
          pure (a :: rest, stop, s)

/-- A call of a step. -/
def call (fuel : Nat) (s : Scanned) : Parsed (StepCall × Scanned) := do
  let (name, s) ← s.word
  let (_, s) ← s.expectWith .leftParen (.callWithParentheses name.value)
  let (arguments, stop, s) ← arguments fuel true s
  pure (⟨name, arguments, name.span.merge stop⟩, s)

/-- Calls with points before them. -/
def calls : Nat → Scanned → Parsed (List StepCall × Scanned)
  | 0, s => outOfFuel s
  | fuel + 1, s => do
      match ← s.eat .dot with
      | (none, s) => pure ([], s)
      | (some _, s) => do
          let (step, s) ← call fuel s
          let (steps, s) ← calls fuel s
          pure (step :: steps, s)

/-- A fuel that suffices for the tokens of a source. -/
def fuelFor (s : Scanned) : Nat := 3 * s.tokens.length + 4

/-- A traversal, which must be all there is. -/
def traversal (s : Scanned) : Parsed TraversalExpr := do
  let fuel := fuelFor s
  let (source, s) ← s.word
  let (_, s) ← s.expect .dot
  let (start, s) ← call fuel s
  let (steps, s) ← calls fuel s
  match ← s.peek? with
  | some tok => throw ⟨.expected "'.' or end of input" tok.token, tok.span, none⟩
  | none =>
      let last := (steps.getLast?.map StepCall.span).getD start.span
      pure ⟨source, start, steps, source.span.merge last⟩

end Parser

/-- The syntax tree of a source. -/
def parse (source : String) : Parsed TraversalExpr :=
  Parser.traversal (Scanned.ofSource source)

end Language
end Pushdown
