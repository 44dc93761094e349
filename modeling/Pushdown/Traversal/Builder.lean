import Pushdown.Traversal.Step

/-!
# Building traversals

Step lists grow at their end. A step label goes to the last step that takes labels.

## Operations

* `Traversal.select`, `Traversal.has`, `Traversal.hasLabel`, `Traversal.hasId`;
* `Traversal.label`: attach a step label.
-/

namespace Pushdown

/-- A list of steps. -/
abbrev Traversal := List Step

namespace Traversal

/-- Start with a selection. -/
def select (kind : ElementKind) (ids : List String) : Traversal := [.select kind ids []]

/-- Append a step. -/
def push (steps : Traversal) (step : Step) : Traversal := steps ++ [step]

/-- Filter with one container. -/
def hasContainer (steps : Traversal) (container : HasContainer) : Traversal :=
  push steps (.has [container] [])

/-- Filter on an accessor or property. -/
def has (steps : Traversal) (key : String) (predicate : Predicate) : Traversal :=
  hasContainer steps ⟨HasKey.ofName key, predicate⟩

/-- Filter on labels. -/
def hasLabel (steps : Traversal) (labels : List String) : Traversal :=
  hasContainer steps ⟨.label, Predicate.oneOf (labels.map .string)⟩

/-- Filter on ids. -/
def hasId (steps : Traversal) (ids : List String) : Traversal :=
  hasContainer steps ⟨.id, Predicate.oneOf (ids.map .string)⟩

/-- Append a barrier. -/
def barrier (steps : Traversal) : Traversal := push steps .barrier

/-- Append a step of any other name. -/
def step (steps : Traversal) (name : String) : Traversal := push steps (.other name [] [])

/-- Attach a label to the first step of a list that takes labels. -/
def labelFirst (label : String) : List Step → List Step
  | [] => []
  | step :: rest =>
      match step.addLabel? label with
      | some labelled => labelled :: rest
      | none => step :: labelFirst label rest

/-- Attach a label to the last step that takes labels. -/
def label (steps : Traversal) (label : String) : Traversal :=
  (labelFirst label steps.reverse).reverse

end Traversal
end Pushdown
