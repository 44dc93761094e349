import Pushdown.Decode
import Pushdown.Graph.Basic
import Pushdown.Plan.Absorption

/-!
# Iterating over results

An iteration over elements sends its query when it is first pulled, passes over the
elements that fail the re-check, and ends with the first error. An iteration over rows
has its rows from the start.

## Operations

* `ElementIteration.next`, `RowIteration.next`: the next item;
* `Graph.scan`, `Graph.elements`, `Graph.neighbors`, `Graph.query`: iterations.
-/

namespace Pushdown

/-- Where an iteration over elements stands. -/
inductive IterationState where
  /-- The query is not sent yet. -/
  | pending (query : Query)
  | running (rows : List StoreRow)
  | done

/-- An iteration over elements. -/
structure ElementIteration where
  config : GraphConfig
  /-- The containers that elements are tested against. -/
  residual : List HasContainer
  state : IterationState

namespace ElementIteration

/-- The element of a row, if it passes the re-check. -/
def accept (it : ElementIteration) (row : Json) : Result (Option Element) := do
  let element ← it.config.decodeElementRow row
  let keep ← it.config.testContainers element it.residual
  pure (if keep then some element else none)

/-- The next item of some rows, and where the iteration stands after it. -/
def advance (it : ElementIteration) : List StoreRow → Option (Result Element) × IterationState
  | [] => (none, .running [])
  | .error e :: _ => (some (.error (.execution e)), .done)
  | .ok row :: rows =>
      match it.accept row with
      | .error e => (some (.error e), .done)
      | .ok (some element) => (some (.ok element), .running rows)
      | .ok none => advance it rows

/-- The iteration after an item, with the item. -/
def after (it : ElementIteration) (step : Option (Result Element) × IterationState) :
    Option (Result Element) × ElementIteration :=
  (step.1, { it with state := step.2 })

variable {σ : Type} [Client σ]

/-- The next item; none at the end. -/
def next (it : ElementIteration) (s : σ) : (Option (Result Element) × ElementIteration) × σ :=
  match it.state with
  | .done => ((none, it), s)
  | .running rows => (it.after (it.advance rows), s)
  | .pending query =>
      match Client.query query s with
      | (.ok rows, s) => (it.after (it.advance rows), s)
      | (.error e, s) => ((some (.error (.execution e)), { it with state := .done }), s)

/-- The number of rows that are still to come. -/
def remaining (it : ElementIteration) : Nat :=
  match it.state with
  | .running rows => rows.length
  | _ => 0

/-- Pull at most some items. The answer says whether the end was met. -/
def take : Nat → ElementIteration → σ → (List (Result Element) × Bool) × σ
  | 0, _, s => (([], false), s)
  | count + 1, it, s =>
      match it.next s with
      | ((none, _), s) => (([], true), s)
      | ((some item, it), s) =>
          let ((items, ended), s) := take count it s
          ((item :: items, ended), s)

/-- Pull all items. -/
def drain (it : ElementIteration) (s : σ) : List (Result Element) × σ :=
  match it.next s with
  | ((none, _), s) => ([], s)
  | ((some item, it), s) =>
      let ((items, _), s) := take (it.remaining + 1) it s
      (item :: items, s)

end ElementIteration

/-- An iteration over rows; none once an error was met. -/
structure RowIteration where
  config : GraphConfig
  rows : List StoreRow

namespace RowIteration

/-- The next item; none at the end. -/
def next (it : RowIteration) : Option (Result Row) × RowIteration :=
  match it.rows with
  | [] => (none, it)
  | .error e :: _ => (some (.error (.execution e)), { it with rows := [] })
  | .ok json :: rows =>
      match it.config.decodeRow json with
      | .ok row => (some (.ok row), { it with rows := rows })
      | .error e => (some (.error e), { it with rows := [] })

/-- Pull at most some items. The answer says whether the end was met. -/
def take : Nat → RowIteration → List (Result Row) × Bool
  | 0, _ => ([], false)
  | count + 1, it =>
      match it.next with
      | (none, _) => ([], true)
      | (some item, it) =>
          let (items, ended) := take count it
          (item :: items, ended)

/-- Pull all items. -/
def drain (it : RowIteration) : List (Result Row) := (take (it.rows.length + 1) it).1

end RowIteration

namespace Graph

/-- The iteration of a query. -/
def iteration (graph : Graph) (residual : List HasContainer) (query : Query) :
    ElementIteration :=
  ⟨graph.config, residual, .pending query⟩

/-- The elements of a scan. One whose collections were all narrowed away sends no query. -/
def scan (graph : Graph) (scan : Scan) : Result ElementIteration :=
  if scan.collections.isEmpty then .ok ⟨graph.config, [], .done⟩
  else (graph.config.planScan scan).map fun plan => graph.iteration plan.residual plan.query

/-- The elements of a kind, all of them or those of some ids. -/
def elements (graph : Graph) (kind : ElementKind) (ids : List String) : Result ElementIteration :=
  graph.scan (graph.config.startScan kind ids [])

/-- The vertices or edges one edge away from a vertex. -/
def neighbors (graph : Graph) (vertex : ElementId) (direction : Direction)
    (labels : List String) (target : ElementKind) : Result ElementIteration :=
  (graph.config.neighborQuery vertex direction labels target).map (graph.iteration [])

/-- The rows of a query of any text. -/
def query {σ : Type} [Client σ] (graph : Graph) (query : Query) : GraphAction σ RowIteration := do
  let rows ← onStore (Client.query query)
  pure ⟨graph.config, rows⟩

end Graph
end Pushdown
