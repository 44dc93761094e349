import Pushdown.Language.Token

/-!
# Syntax trees

A written traversal: a source, a start call, and calls after it. Arguments are literals
or predicates, and predicates are calls joined by `and` and `or`.

## Operations

* `PredicateExpr.span`, `Argument.span`: where a node stands.
-/

namespace Pushdown
namespace Language

/-- A written literal. -/
inductive Literal where
  | null
  | bool (value : Bool)
  | int (value : Int64)
  | float (value : Double)
  | string (value : String)
  | list (items : List (Spanned Literal))
  | map (entries : List (Spanned String × Spanned Literal))

/-- A written predicate. -/
inductive PredicateExpr where
  | call (name : Spanned String) (arguments : List (Spanned Literal)) (span : Span)
  | and (left right : PredicateExpr)
  | or (left right : PredicateExpr)

namespace PredicateExpr

/-- Where a predicate stands. -/
def span : PredicateExpr → Span
  | call _ _ span => span
  | and left right => left.span.merge right.span
  | or left right => left.span.merge right.span

end PredicateExpr

/-- An argument of a call. -/
inductive Argument where
  | literal (literal : Spanned Literal)
  | predicate (predicate : PredicateExpr)

namespace Argument

/-- Where an argument stands. -/
def span : Argument → Span
  | literal l => l.span
  | predicate p => p.span

end Argument

/-- A call of a step. -/
structure StepCall where
  name : Spanned String
  arguments : List Argument
  span : Span

/-- A written traversal. -/
structure TraversalExpr where
  source : Spanned String
  start : StepCall
  steps : List StepCall
  span : Span

end Language
end Pushdown
