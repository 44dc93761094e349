import Pushdown.Regex.Basic
import Pushdown.Value.Basic

/-!
# Filters

A filter is a boolean fragment over one row variable. Its exactness follows from its
structure; the normalizing constructors drop what cannot be pushed.

## Operations

* `Filter.support`: exactness, bottom up;
* `Filter.negate`, `Filter.conjoin`, `Filter.disjoin`: the normalizing constructors;
* `Filter.render`: query text over a row variable.
-/

namespace Pushdown

/-- A fragment that the store can evaluate. -/
inductive Filter where
  /-- The neutral filter, which is never rendered. -/
  | empty
  | equals (field : String) (value : Value)
  | lessThan (field : String) (value : Value)
  | greaterThan (field : String) (value : Value)
  | within (field : String) (values : List Value)
  | contains (field : String) (text : String)
  | startsWith (field : String) (text : String)
  | endsWith (field : String) (text : String)
  | regex (field : String) (pattern : String)
  | not (inner : Filter)
  | and (members : List Filter)
  | or (members : List Filter)

/-- The class of a conjunction: what cannot be pushed is left out. -/
def Support.conjunction (supports : List Support) : Support :=
  let pushable := supports.filter Support.isPushable
  if pushable.isEmpty then .none
  else if pushable.length < supports.length then (Support.joinAll pushable).join .part
  else Support.joinAll pushable

/-- The class of a disjunction: nothing can be left out. -/
def Support.disjunction (supports : List Support) : Support :=
  if supports.isEmpty then .none else Support.joinAll supports

namespace Filter

instance : Inhabited Filter := ⟨empty⟩

mutual

/-- How exact a filter is. -/
def support : Filter → Support
  | empty => .none
  | equals _ value => value.support
  | lessThan _ value => value.support
  | greaterThan _ value => value.support
  | within _ values => Support.joinAll (Value.supports values)
  | contains _ _ => .full
  | startsWith _ _ => .full
  | endsWith _ _ => .full
  | regex _ _ => .full
  | not inner => if inner.support.isFull then .full else .none
  | and members => Support.conjunction (supports members)
  | or members => Support.disjunction (supports members)

/-- The classes of several filters. -/
def supports : List Filter → List Support
  | [] => []
  | f :: fs => support f :: supports fs

end

/-- Whether a filter can be rendered. -/
def isPushable (f : Filter) : Bool := f.support.isPushable

/-- The negation of a filter that is exact, else the neutral filter. -/
def negate (f : Filter) : Filter := if f.support.isFull then not f else empty

/-- The conjunction of the filters that can be rendered. -/
def conjoin (members : List Filter) : Filter :=
  match members.filter isPushable with
  | [] => empty
  | [f] => f
  | fs => and fs

/-- The disjunction of filters that can all be rendered, else the neutral filter. -/
def disjoin (members : List Filter) : Filter :=
  if members.all isPushable then
    match members with
    | [] => empty
    | [f] => f
    | fs => or fs
  else empty

/-- The quote around names. -/
def nameQuote : Char := '\x60'

/-- The characters of a name between its quotes. -/
def escapeName : List Char → List Char
  | [] => []
  | c :: rest =>
      if c = '\\' ∨ c = nameQuote then '\\' :: c :: escapeName rest else c :: escapeName rest

/-- A collection, variable or field name between quotes. -/
def quoteName (name : String) : String :=
  String.ofList (nameQuote :: (escapeName name.toList ++ [nameQuote]))

/-- A field of the row variable. -/
def fieldRef (var field : String) : String := quoteName var ++ "." ++ quoteName field

/-- The pattern of a text at the end. -/
def suffixPattern (text : String) : String := Regex.escape text ++ "$"

/-- The test of a field by a function of the store. -/
def call (function var field argument : String) : String :=
  function ++ "(" ++ fieldRef var field ++ ", " ++ Quoted.quote argument ++ ")"

/-- Texts joined in parentheses; one alone stays as it is. -/
def joinRendered (separator : String) : List String → Option String
  | [] => none
  | [text] => some text
  | texts => some ("(" ++ separator.intercalate texts ++ ")")

mutual

/-- The text of a filter over a row variable; none when it cannot be pushed. -/
def render (var : String) : Filter → Option String
  | empty => none
  | equals field value => some (fieldRef var field ++ " == " ++ value.render)
  | lessThan field value => some (fieldRef var field ++ " < " ++ value.render)
  | greaterThan field value => some (fieldRef var field ++ " > " ++ value.render)
  | within field values =>
      some (fieldRef var field ++ " IN [" ++ ", ".intercalate (Value.renderItems values) ++ "]")
  | contains field text => some (call "CONTAINS" var field text)
  | startsWith field text => some (call "STARTS_WITH" var field text)
  | endsWith field text => some (call "REGEX_TEST" var field (suffixPattern text))
  | regex field pattern => some (call "REGEX_TEST" var field pattern)
  | not inner =>
      if inner.support.isFull then
        match render var inner with
        | some text => some ("NOT(" ++ text ++ ")")
        | none => none
      else none
  | and members =>
      if (Support.conjunction (supports members)).isPushable then
        joinRendered " AND " (renderAll var members)
      else none
  | or members =>
      if (Support.disjunction (supports members)).isPushable then
        joinRendered " OR " (renderAll var members)
      else none

/-- The texts of the filters that can be pushed. -/
def renderAll (var : String) : List Filter → List String
  | [] => []
  | f :: fs =>
      match render var f with
      | some text => text :: renderAll var fs
      | none => renderAll var fs

end

/-- The row variable of shown filters. -/
def shownVariable : String := "x"

/-- The shown form of a filter. -/
def display (f : Filter) : String := (f.render shownVariable).getD "<empty>"

/-- The filter as a clause of a query, if it can be pushed. -/
def clause (f : Filter) (var : String) : String :=
  match f.render var with
  | some text => " FILTER " ++ text
  | none => ""

end Filter
end Pushdown
