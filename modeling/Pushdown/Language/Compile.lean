import Pushdown.Language.Parser
import Pushdown.Traversal.Builder

/-!
# Compiling traversals

A syntax tree becomes a list of steps: the start selects, filter steps become containers,
`as` labels the step before it, and any other call becomes a step of its name.

## Operations

* `compile`: the steps of a syntax tree;
* `PredicateExpr.compile`: the predicate of a written one;
* `parseAndCompile`: the steps of a source.
-/

namespace Pushdown
namespace Language

/-- What went wrong when a syntax tree was compiled. -/
inductive CompileFault where
  | unknownSource (name : String)
  | unknownStart (name : String)
  | arity (name wanted : String) (count : Nat)
  | wantsString (name : String)
  | wantsStrings (name : String)
  | wantsIds (name : String)
  | idsNotPredicates (name : String)
  | onePredicateOrValues (name : String)
  | noPredicates (name : String)
  | duplicateKey (key : String)
  | unsupported (fault : ValueError)

namespace CompileFault

/-- The text of a fault. -/
def message : CompileFault → String
  | unknownSource name => "unknown traversal source '" ++ name ++ "', expected 'g'"
  | unknownStart name => "unknown start step '" ++ name ++ "', expected V or E"
  | arity name wanted count => name ++ " takes " ++ wanted ++ ", got " ++ toString count
  | wantsString name => name ++ " expects a string here"
  | wantsStrings name => name ++ " expects strings"
  | wantsIds name => name ++ " expects string or integer ids"
  | idsNotPredicates name => name ++ " takes ids, not predicates"
  | onePredicateOrValues name => name ++ " takes a single predicate or values"
  | noPredicates name => "step " ++ name ++ " does not take predicate arguments"
  | duplicateKey key => "duplicate map key '" ++ key ++ "'"
  | unsupported fault => fault.message

/-- The kind of a fault. -/
def kind : CompileFault → CompileErrorKind
  | unknownSource _ | unknownStart _ => .unknownSource
  | duplicateKey _ | unsupported _ => .invalidLiteral
  | _ => .invalidArguments

end CompileFault

/-- An error of the compiler. -/
structure CompileError where
  fault : CompileFault
  span : Span

/-- The error as a message about the source. -/
def CompileError.diagnostic (e : CompileError) : Diagnostic :=
  ⟨some e.fault.kind, e.fault.message, e.span, none⟩

/-- A result that may be an error of the compiler. -/
abbrev Compiled (α : Type) := Except CompileError α

/-- The first name that an earlier one equals. -/
def firstDuplicate? (seen : List String) : List (Spanned String) → Option (Spanned String)
  | [] => none
  | name :: names =>
      if seen.contains name.value then some name
      else firstDuplicate? (name.value :: seen) names

/-- An integer in the narrowest width of a host. -/
def rawInt (value : Int64) : RawValue :=
  if Fits32 value.toInt then .int (Int32.ofInt value.toInt) else .long value

mutual

/-- The host value of a literal. The keys of a map must differ. -/
def Literal.raw : Literal → Compiled RawValue
  | .null => .ok .null
  | .bool value => .ok (.bool value)
  | .int value => .ok (rawInt value)
  | .float value => .ok (.double value)
  | .string value => .ok (.string value)
  | .list items =>
      match Literal.rawItems items with
      | .ok items => .ok (.list items)
      | .error e => .error e
  | .map entries =>
      match firstDuplicate? [] (entries.map Prod.fst) with
      | some key => .error ⟨.duplicateKey key.value, key.span⟩
      | none =>
          match Literal.rawEntries entries with
          | .ok entries => .ok (.map entries)
          | .error e => .error e

/-- The host values of several literals. -/
def Literal.rawItems : List (Spanned Literal) → Compiled (List RawValue)
  | [] => .ok []
  | ⟨item, _⟩ :: items =>
      match Literal.raw item with
      | .error e => .error e
      | .ok value =>
          match Literal.rawItems items with
          | .ok values => .ok (value :: values)
          | .error e => .error e

/-- The host values of map entries. -/
def Literal.rawEntries :
    List (Spanned String × Spanned Literal) → Compiled (List (RawValue × RawValue))
  | [] => .ok []
  | (key, ⟨item, _⟩) :: entries =>
      match Literal.raw item with
      | .error e => .error e
      | .ok value =>
          match Literal.rawEntries entries with
          | .ok values => .ok ((.string key.value, value) :: values)
          | .error e => .error e

end

/-- The property value of a literal. -/
def literalValue (literal : Spanned Literal) : Compiled Value :=
  match literal.value.raw with
  | .error e => .error e
  | .ok raw =>
      match Value.of? raw with
      | .ok value => .ok value
      | .error fault => .error ⟨.unsupported fault, literal.span⟩

/-- Apply a function to every member, up to the first error. -/
def traverse {α β : Type} (f : α → Compiled β) : List α → Compiled (List β)
  | [] => .ok []
  | a :: as =>
      match f a with
      | .error e => .error e
      | .ok b =>
          match traverse f as with
          | .ok bs => .ok (b :: bs)
          | .error e => .error e

/-- The arguments of a membership: several literals, or one list. -/
def memberLiterals : List (Spanned Literal) → List (Spanned Literal)
  | [⟨.list items, _⟩] => items
  | arguments => arguments

/-- Predicates that stand for two comparisons. -/
inductive RangeForm where
  | between
  | inside
  | outside

namespace RangeForm

/-- The form of a name. -/
def ofName? (name : String) : Option RangeForm :=
  match name with
  | "between" => some between
  | "inside" => some inside
  | "outside" => some outside
  | _ => none

/-- The predicate of two bounds. -/
def predicate (low high : Value) : RangeForm → Predicate
  | between => (Predicate.of .gte low).and (.of .lt high)
  | inside => (Predicate.of .gt low).and (.of .lt high)
  | outside => (Predicate.of .lt low).or (.of .gt high)

end RangeForm

/-- The predicate of a call. -/
def compileCall (name : String) (arguments : List (Spanned Literal)) (span : Span) :
    Compiled Predicate :=
  if name = Operator.within.name ∨ name = Operator.without.name then
    (traverse literalValue (memberLiterals arguments)).map fun values =>
      .compare name (.list values)
  else
    match RangeForm.ofName? name with
    | some form =>
        match arguments with
        | [low, high] => do
            let low ← literalValue low
            let high ← literalValue high
            pure (form.predicate low high)
        | arguments => .error ⟨.arity name "two arguments" arguments.length, span⟩
    | none =>
        match arguments with
        | [operand] => (literalValue operand).map (.compare name)
        | arguments => .error ⟨.arity name "one argument" arguments.length, span⟩

/-- The predicate of a written one. -/
def PredicateExpr.compile : PredicateExpr → Compiled Predicate
  | .call name arguments span => compileCall name.value arguments span
  | .and left right => do
      let p ← left.compile
      let q ← right.compile
      pure (p.and q)
  | .or left right => do
      let p ← left.compile
      let q ← right.compile
      pure (p.or q)

namespace StepCall

/-- The error of a wrong number of arguments. -/
def arityError {α : Type} (step : StepCall) (wanted : String) : Compiled α :=
  .error ⟨.arity step.name.value wanted step.arguments.length, step.span⟩

/-- An argument that must be a string. -/
def stringArgument (step : StepCall) : Argument → Compiled String
  | .literal ⟨.string text, _⟩ => .ok text
  | argument => .error ⟨.wantsString step.name.value, argument.span⟩

/-- A literal that must be a string. -/
def stringValue (step : StepCall) : Spanned Literal → Compiled Value
  | ⟨.string text, _⟩ => .ok (.string text)
  | literal => .error ⟨.wantsStrings step.name.value, literal.span⟩

/-- A literal that must be a string or an integer. -/
def idOf (step : StepCall) : Spanned Literal → Compiled String
  | ⟨.string text, _⟩ => .ok text
  | ⟨.int value, _⟩ => .ok (toString value.toInt)
  | literal => .error ⟨.wantsIds step.name.value, literal.span⟩

/-- An argument that must be a literal, converted. -/
def literalArgument (step : StepCall) (convert : Spanned Literal → Compiled Value) :
    Argument → Compiled Value
  | .literal literal => convert literal
  | .predicate p => .error ⟨.onePredicateOrValues step.name.value, p.span⟩

/-- A single predicate, or values of which one must be met. -/
def oneOf (step : StepCall) (convert : Spanned Literal → Compiled Value) : Compiled Predicate :=
  match step.arguments with
  | [] => step.arityError "at least one argument"
  | [.predicate p] => p.compile
  | arguments => (traverse (step.literalArgument convert) arguments).map Predicate.oneOf

/-- The ids of one argument of a start. -/
def idsOf (step : StepCall) : Argument → Compiled (List String)
  | .literal ⟨.list items, _⟩ => traverse step.idOf items
  | .literal literal => (step.idOf literal).map fun id => [id]
  | .predicate p => .error ⟨.idsNotPredicates step.name.value, p.span⟩

/-- The predicate of a value or a predicate. -/
def testOf : Argument → Compiled Predicate
  | .literal literal => (literalValue literal).map (.of .eq)
  | .predicate p => p.compile

/-- A filter step. With a key alone it tests for existence, which no container does. -/
def compileHas (step : StepCall) : Compiled Step :=
  match step.arguments with
  | [key] => do
      let key ← step.stringArgument key
      pure (.other step.name.value [.string key] [])
  | [key, test] => do
      let key ← step.stringArgument key
      let predicate ← testOf test
      pure (.has [⟨HasKey.ofName key, predicate⟩] [])
  | [label, key, test] => do
      let label ← step.stringArgument label
      let key ← step.stringArgument key
      let predicate ← testOf test
      pure (.has [⟨.label, .of .eq (.string label)⟩, ⟨HasKey.ofName key, predicate⟩] [])
  | _ => step.arityError "one to three arguments"

/-- An argument of a step of any other name. -/
def plainArgument (step : StepCall) : Argument → Compiled Value
  | .literal literal => literalValue literal
  | .predicate p => .error ⟨.noPredicates step.name.value, p.span⟩

/-- A step with one container. -/
def containerStep (key : HasKey) (predicate : Predicate) : Step := .has [⟨key, predicate⟩] []

/-- Attach the labels of several arguments. -/
def labelAll (step : StepCall) (steps : Traversal) : List Argument → Compiled Traversal
  | [] => .ok steps
  | argument :: arguments =>
      match step.stringArgument argument with
      | .error e => .error e
      | .ok label => labelAll step (steps.label label) arguments

/-- The traversal with a call added. -/
def compile (step : StepCall) (steps : Traversal) : Compiled Traversal :=
  match step.name.value with
  | "has" => step.compileHas.map steps.push
  | "hasLabel" => (step.oneOf step.stringValue).map fun p => steps.push (containerStep .label p)
  | "hasId" =>
      (step.oneOf fun literal => (step.idOf literal).map .string).map fun p =>
        steps.push (containerStep .id p)
  | "hasKey" =>
      (step.oneOf step.stringValue).map fun p =>
        steps.push (containerStep (.synthetic keyAccessor) p)
  | "hasValue" =>
      (step.oneOf literalValue).map fun p =>
        steps.push (containerStep (.synthetic valueAccessor) p)
  | "barrier" =>
      if 1 < step.arguments.length then step.arityError "at most one argument"
      else .ok steps.barrier
  | "as" =>
      if step.arguments.isEmpty then step.arityError "at least one step label"
      else step.labelAll steps step.arguments
  | name =>
      (traverse step.plainArgument step.arguments).map fun arguments =>
        steps.push (.other name arguments [])

/-- The start of a traversal. -/
def compileStart (step : StepCall) : Compiled Traversal := do
  let ids ← traverse step.idsOf step.arguments
  match step.name.value with
  | "V" => pure (Traversal.select .vertex ids.flatten)
  | "E" => pure (Traversal.select .edge ids.flatten)
  | name => throw ⟨.unknownStart name, step.name.span⟩

end StepCall

/-- Add calls one after the other. -/
def compileCalls (steps : Traversal) : List StepCall → Compiled Traversal
  | [] => .ok steps
  | step :: rest =>
      match step.compile steps with
      | .error e => .error e
      | .ok steps => compileCalls steps rest

/-- The source every traversal starts from. -/
def traversalSource : String := "g"

/-- The steps of a syntax tree. -/
def compile (expr : TraversalExpr) : Compiled Traversal :=
  if expr.source.value ≠ traversalSource then
    .error ⟨.unknownSource expr.source.value, expr.source.span⟩
  else
    match expr.start.compileStart with
    | .error e => .error e
    | .ok steps => compileCalls steps expr.steps

/-- An error of the language. -/
inductive LanguageError where
  | parse (error : ParseError)
  | compile (error : CompileError)

/-- The error as a message about the source. -/
def LanguageError.diagnostic : LanguageError → Diagnostic
  | .parse e => e.diagnostic
  | .compile e => e.diagnostic

/-- The steps of a source. -/
def parseAndCompile (source : String) : Except LanguageError Traversal :=
  match parse source with
  | .error e => .error (.parse e)
  | .ok expr =>
      match compile expr with
      | .error e => .error (.compile e)
      | .ok steps => .ok steps

end Language
end Pushdown
