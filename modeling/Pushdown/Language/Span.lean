/-!
# Spans

Half-open byte ranges of a source text, and the line and column of a byte offset.

## Operations

* `Span.merge`: the smallest span over two;
* `position`: the line and column of an offset, both from one; an offset inside a
  character counts as the one at its start, and one beyond the end as the end.
-/

namespace Pushdown
namespace Language

/-- A half-open byte range. -/
structure Span where
  start : Nat
  stop : Nat
deriving DecidableEq

namespace Span

/-- The empty span at an offset. -/
def at_ (offset : Nat) : Span := ⟨offset, offset⟩

/-- The smallest span over two. -/
def merge (a b : Span) : Span := ⟨min a.start b.start, max a.stop b.stop⟩

/-- The number of bytes of a span. -/
def length (span : Span) : Nat := span.stop - span.start

/-- Whether a span has no bytes. -/
def isEmpty (span : Span) : Bool := span.length == 0

/-- The smallest span over several. -/
def mergeAll? : List Span → Option Span
  | [] => none
  | span :: spans => some (spans.foldl merge span)

end Span

/-- A node and the span it was read from. -/
structure Spanned (α : Type) where
  value : α
  span : Span

/-- The line and column reached by walking some bytes on from a place. -/
def walk : List Char → Nat → Nat → Nat → Nat × Nat
  | [], _, line, column => (line, column)
  | c :: rest, bytes, line, column =>
      if bytes < c.utf8Size then (line, column)
      else if c = '\n' then walk rest (bytes - c.utf8Size) (line + 1) 1
      else walk rest (bytes - c.utf8Size) line (column + 1)

/-- The line and column of a byte offset, both from one. -/
def position (source : String) (offset : Nat) : Nat × Nat :=
  walk source.toList offset 1 1

/-- The number of bytes of some characters. -/
def byteLength : List Char → Nat
  | [] => 0
  | c :: rest => c.utf8Size + byteLength rest

end Language
end Pushdown
