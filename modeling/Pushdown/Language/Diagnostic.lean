import Pushdown.Language.Span

/-!
# Diagnostics

A message about a part of a source, shown with the line it is on and a mark below the
part.

## Operations

* `Diagnostic.format`: the message, the marked line, and the hint.
-/

namespace Pushdown
namespace Language

/-- What went wrong when a parsed traversal was compiled. -/
inductive CompileErrorKind where
  | unknownSource
  | invalidArguments
  | invalidLiteral
deriving DecidableEq

namespace CompileErrorKind

/-- The name of a kind. -/
def name : CompileErrorKind → String
  | unknownSource => "UnknownSource"
  | invalidArguments => "InvalidArguments"
  | invalidLiteral => "InvalidLiteral"

/-- The kind of a name. -/
def ofName? (text : String) : Option CompileErrorKind :=
  [unknownSource, invalidArguments, invalidLiteral].find? fun kind => kind.name = text

end CompileErrorKind

/-- A message about a span of a source. -/
structure Diagnostic where
  /-- The kind, for messages of the compiler. -/
  kind : Option CompileErrorKind
  message : String
  span : Span
  hint : Option String

/-- A line without the carriage return before its line feed. -/
def dropReturn (line : List Char) : List Char :=
  if line.getLast? = some '\r' then line.dropLast else line

/-- The lines of a text. A line feed ends a line, with the carriage return before it;
what follows the last one is a line if it is not empty. -/
def linesFrom (current : List Char) : List Char → List (List Char)
  | [] => if current.isEmpty then [] else [current]
  | c :: rest =>
      if c = '\n' then dropReturn current :: linesFrom [] rest
      else linesFrom (current ++ [c]) rest

/-- The lines of a text. -/
def lines (text : String) : List (List Char) := linesFrom [] text.toList

/-- A number at the right end of three columns. -/
def lineNumber (n : Nat) : List Char :=
  let digits := Nat.toDigits 10 n
  List.replicate (3 - digits.length) ' ' ++ digits

/-- The mark below a span that starts in a column of a line. -/
def marker (column : Nat) (span : Span) (line : List Char) : List Char :=
  List.replicate column ' ' ++
    '^' :: List.replicate (min (span.length - 1) (line.length - column)) '~'

/-- The place of a span and the line it starts on, with the span marked. -/
def snippet (source : String) (span : Span) : String :=
  let (line, column) := position source span.start
  let place := "  --> line " ++ toString line ++ ":" ++ toString column ++ "\n"
  match (lines source)[line - 1]? with
  | none => place
  | some text =>
      place ++ "   |\n" ++ String.ofList (lineNumber line) ++ "| " ++ String.ofList text ++
        "\n   |" ++ String.ofList (marker column span text) ++ "\n"

namespace Diagnostic

/-- The word a message starts with. -/
def heading (d : Diagnostic) : String :=
  match d.kind with
  | some kind => "error[" ++ kind.name ++ "]"
  | none => "error"

/-- The message with the marked line and the hint. -/
def format (d : Diagnostic) (source : String) : String :=
  d.heading ++ ": " ++ d.message ++ "\n" ++ snippet source d.span ++
    match d.hint with
    | some hint => "   = hint: " ++ hint ++ "\n"
    | none => ""

/-- The message with the stage it comes from. -/
def display (d : Diagnostic) : String :=
  match d.kind with
  | some _ => "compile error: " ++ d.message
  | none => "parse error: " ++ d.message

end Diagnostic

end Language
end Pushdown
