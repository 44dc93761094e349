import Pushdown.Element
import Pushdown.Predicate.Basic

/-!
# Traversal steps

A traversal is a list of steps. It starts with a selection of vertices or edges; filter
steps hold containers, each a predicate on one key; a scan is a selection together with
the filters it took in.

## Operations

* `HasKey.ofName`, `HasKey.name`: what a container tests;
* `Step.display`: the text of a step;
* `Step.identical`: equality of steps.
-/

namespace Pushdown

/-- The accessor of the label. -/
def labelAccessor : String := "~label"

/-- The accessor of the id. -/
def idAccessor : String := "~id"

/-- The accessor of the property keys. -/
def keyAccessor : String := "~key"

/-- The accessor of the property values. -/
def valueAccessor : String := "~value"

/-- What a container tests. -/
inductive HasKey where
  | label
  | id
  | property (name : String)
  /-- An accessor that no stored field answers to. -/
  | synthetic (name : String)
deriving DecidableEq

namespace HasKey

/-- The key of an accessor or property name. -/
def ofName (name : String) : HasKey :=
  if name = labelAccessor then label
  else if name = idAccessor then id
  else if name = keyAccessor ∨ name = valueAccessor then synthetic name
  else property name

/-- The accessor or property name of a key. -/
def name : HasKey → String
  | label => labelAccessor
  | id => idAccessor
  | property name => name
  | synthetic name => name

end HasKey

/-- A predicate on one key. -/
structure HasContainer where
  key : HasKey
  predicate : Predicate

namespace HasContainer

/-- The text of a container. -/
def display (container : HasContainer) : String :=
  container.key.name ++ "." ++ container.predicate.display

/-- Equality of containers. -/
def identical (a b : HasContainer) : Bool :=
  a.key == b.key && a.predicate.identical b.predicate

end HasContainer

/-- A selection with the filters it took in. -/
structure Scan where
  kind : ElementKind
  /-- Candidate ids; none given means all elements. -/
  ids : List String
  containers : List HasContainer
  /-- Logical collections to look in. -/
  collections : Names
  labels : List String

/-- One step of a traversal. -/
inductive Step where
  | select (kind : ElementKind) (ids : List String) (labels : List String)
  | has (containers : List HasContainer) (labels : List String)
  | barrier
  /-- A step of any other name. -/
  | other (name : String) (arguments : List Value) (labels : List String)
  | scan (scan : Scan)

namespace Step

/-- The labels of a step. -/
def labels : Step → List String
  | select _ _ labels => labels
  | has _ labels => labels
  | barrier => []
  | other _ _ labels => labels
  | scan s => s.labels

/-- The step with one more label; a barrier takes none. -/
def addLabel? (label : String) : Step → Option Step
  | select kind ids labels => some (select kind ids (labels ++ [label]))
  | has containers labels => some (has containers (labels ++ [label]))
  | barrier => none
  | other name arguments labels => some (other name arguments (labels ++ [label]))
  | scan s => some (scan { s with labels := s.labels ++ [label] })

/-- The name of the step that selects a kind. -/
def selectName : ElementKind → String
  | .vertex => "V"
  | .edge => "E"

/-- The text of a step without its labels. -/
def body : Step → String
  | select kind ids _ => selectName kind ++ "(" ++ ", ".intercalate ids ++ ")"
  | has containers _ =>
      "has(" ++ ", ".intercalate (containers.map HasContainer.display) ++ ")"
  | barrier => "barrier()"
  | other name arguments _ =>
      name ++ "(" ++ ", ".intercalate (arguments.map Value.render) ++ ")"
  | scan s =>
      "Scan[" ++ s.kind.name ++ "](" ++ ", ".intercalate s.ids ++ "; " ++
        ", ".intercalate s.collections ++ "; " ++
        ", ".intercalate (s.containers.map HasContainer.display) ++ ")"

/-- The text of a step. -/
def display (step : Step) : String :=
  step.body ++ String.join (step.labels.map fun label => "@" ++ label)

/-- Two lists equal member by member. -/
def identicalLists {α : Type} (same : α → α → Bool) : List α → List α → Bool
  | [], [] => true
  | a :: as, b :: bs => same a b && identicalLists same as bs
  | _, _ => false

/-- Equality of steps. -/
def identical : Step → Step → Bool
  | select kind ids labels, select kind' ids' labels' =>
      kind == kind' && ids == ids' && labels == labels'
  | has containers labels, has containers' labels' =>
      identicalLists HasContainer.identical containers containers' && labels == labels'
  | barrier, barrier => true
  | other name arguments labels, other name' arguments' labels' =>
      name == name' && identicalLists Value.identical arguments arguments' && labels == labels'
  | scan s, scan t =>
      s.kind == t.kind && s.ids == t.ids &&
        identicalLists HasContainer.identical s.containers t.containers &&
        s.collections == t.collections && s.labels == t.labels
  | _, _ => false

end Step
end Pushdown
