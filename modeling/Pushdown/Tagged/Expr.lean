import Pushdown.Language.Parser
import Pushdown.Tagged.Value

/-!
# Tagged tokens and syntax trees

A token that is always the same is written as its name alone; every node of a syntax tree
carries its span.

## Operations

* `Language.Token.toTagged`;
* `Language.TraversalExpr.toTagged`.
-/

namespace Pushdown
namespace Language

/-- A span as an array of its ends. -/
def Span.toTagged (span : Span) : Json := .array [.ofInt span.start, .ofInt span.stop]

/-- The tagged document of a token. -/
def Token.toTagged : Token → Json
  | trueWord => Json.strings ["True"]
  | falseWord => Json.strings ["False"]
  | nullWord => Json.strings ["Null"]
  | ident name => Json.strings ["ident", name]
  | string .double value => Json.strings ["string", value]
  | string .single value => Json.strings ["string1", value]
  | int value => Json.strings ["int", toString value.toInt]
  | float value => Json.strings ["float", value.taggedText]
  | dot => Json.strings ["Dot"]
  | comma => Json.strings ["Comma"]
  | colon => Json.strings ["Colon"]
  | leftParen => Json.strings ["LParen"]
  | rightParen => Json.strings ["RParen"]
  | leftBrace => Json.strings ["LBrace"]
  | rightBrace => Json.strings ["RBrace"]
  | leftBracket => Json.strings ["LBracket"]
  | rightBracket => Json.strings ["RBracket"]

namespace Literal

mutual

/-- The tagged document of a literal. -/
def toTagged : Literal → Json
  | null => .string "null"
  | bool b => .bool b
  | int n => Tagged.tag "int" (.string (toString n.toInt))
  | float x => Tagged.tag "float" (.string x.taggedText)
  | string s => Tagged.tag "str" (.string s)
  | list items => Tagged.tag "list" (.array (toTaggedItems items))
  | map entries => Tagged.tag "map" (.array (toTaggedEntries entries))

def toTaggedItems : List (Spanned Literal) → List Json
  | [] => []
  | ⟨literal, span⟩ :: items =>
      .array [toTagged literal, span.toTagged] :: toTaggedItems items

def toTaggedEntries : List (Spanned String × Spanned Literal) → List Json
  | [] => []
  | (key, ⟨literal, span⟩) :: entries =>
      .array [.string key.value, key.span.toTagged,
        .array [toTagged literal, span.toTagged]] :: toTaggedEntries entries

end

end Literal

/-- The tagged document of a literal with its span. -/
def taggedLiteral (literal : Spanned Literal) : Json :=
  .array [literal.value.toTagged, literal.span.toTagged]

/-- The tagged document of a predicate. -/
def PredicateExpr.toTagged : PredicateExpr → Json
  | call name arguments span =>
      .object [("args", Tagged.ofList taggedLiteral arguments), ("call", .string name.value),
        ("name_span", name.span.toTagged), ("span", span.toTagged)]
  | and left right =>
      .object [("and", .array [left.toTagged, right.toTagged]),
        ("span", (and left right).span.toTagged)]
  | or left right =>
      .object [("or", .array [left.toTagged, right.toTagged]),
        ("span", (or left right).span.toTagged)]

/-- The tagged document of an argument. -/
def Argument.toTagged : Argument → Json
  | literal l => Tagged.tag "literal" (taggedLiteral l)
  | predicate p => Tagged.tag "predicate" p.toTagged

/-- The tagged document of a call. -/
def StepCall.toTagged (call : StepCall) : Json :=
  .object [("args", Tagged.ofList Argument.toTagged call.arguments),
    ("name", .string call.name.value), ("name_span", call.name.span.toTagged),
    ("span", call.span.toTagged)]

/-- The tagged document of a written traversal. -/
def TraversalExpr.toTagged (expr : TraversalExpr) : Json :=
  .object [("source", .string expr.source.value), ("source_span", expr.source.span.toTagged),
    ("span", expr.span.toTagged), ("start", expr.start.toTagged),
    ("steps", Tagged.ofList StepCall.toTagged expr.steps)]

end Language
end Pushdown
