import Pushdown.Graph.Iteration
import Pushdown.Language.Compile

/-!
# Running traversals

A traversal is run by pushing its filters down, executing the scan at its start, and
testing what that finds against the containers left in filter steps. Beside that stands
the plain way: all elements of the kind, tested against every container.

## Operations

* `Graph.runPushed`: the elements found with filters pushed down;
* `Graph.runPlain`: the elements found by testing all of them.
-/

namespace Pushdown

/-- The containers of the filter steps of a traversal, in their order. -/
def hasContainers (steps : List Step) : List HasContainer :=
  steps.flatMap fun step =>
    match step with
    | .has containers _ => containers
    | _ => []

/-- The steps that are no filter steps. -/
def otherSteps (steps : List Step) : List Step :=
  steps.filter fun step =>
    match step with
    | .has _ _ => false
    | _ => true

/-- The kind that a traversal selects or scans. -/
def startKind? : List Step → Option ElementKind
  | .select kind _ _ :: _ => some kind
  | .scan scan :: _ => some scan.kind
  | _ => none

namespace Graph

/-- All items of an iteration as elements, or the first error. -/
def collected : List (Result Element) → Result (List Element)
  | [] => .ok []
  | .error e :: _ => .error e
  | .ok element :: items =>
      match collected items with
      | .ok elements => .ok (element :: elements)
      | .error e => .error e

/-- The elements that pass every container, or the first error. -/
def passing (config : GraphConfig) (containers : List HasContainer) :
    List Element → Result (List Element)
  | [] => .ok []
  | element :: elements =>
      match config.testContainers element containers with
      | .error e => .error e
      | .ok keep =>
          match passing config containers elements with
          | .error e => .error e
          | .ok rest => .ok (if keep then element :: rest else rest)

variable {σ : Type} [Client σ]

/-- The elements of a scan that pass further containers. -/
def filtered (graph : Graph) (scan : Scan) (containers : List HasContainer) :
    GraphAction σ (List Element) := do
  let it ← result (graph.scan scan)
  let items ← fun s => let (items, s) := it.drain s; (.ok items, s)
  let elements ← result (collected items)
  result (passing graph.config containers elements)

/-- What a traversal finds. -/
structure Found where
  elements : List Element
  /-- The number of containers that were left in filter steps. -/
  left : Nat
  /-- The steps that were not run. -/
  others : List Step

/-- Run the scan at the start of a traversal and the filter steps after it. -/
def runScan (graph : Graph) : List Step → GraphAction σ Found
  | .scan scan :: steps => do
      let containers := hasContainers steps
      let elements ← graph.filtered scan containers
      pure ⟨elements, containers.length, otherSteps steps⟩
  | steps => pure ⟨[], (hasContainers steps).length, otherSteps steps⟩

/-- Run a traversal with what can be pushed into the store pushed there. -/
def runPushed (graph : Graph) (steps : List Step) : GraphAction σ Found := do
  let steps ← result (graph.config.pushDown steps)
  graph.runScan steps

/-- Test all elements of the kind a traversal selects against its containers. -/
def runPlain (graph : Graph) (steps : List Step) : GraphAction σ (List Element) :=
  match startKind? steps with
  | some kind => graph.filtered (graph.config.startScan kind [] []) (hasContainers steps)
  | none => pure []

/-- The ids of elements in traversals. -/
def encodedIds (config : GraphConfig) (elements : List Element) : List String :=
  elements.filterMap fun element => config.encodeId element.id

end Graph
end Pushdown
