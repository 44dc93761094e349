import Pushdown.Plan.Query
import Pushdown.Plan.Residual

/-!
# Scan plans

A plan maps every container to a filter, pushes what can be pushed into one query, and
keeps all containers for the re-check.

## Operations

* `GraphConfig.plan`: the plan of a scan.
-/

namespace Pushdown

/-- A container with its pushed form. -/
structure PlannedPredicate where
  container : HasContainer
  filter : Filter

/-- How exact the pushed form is. -/
def PlannedPredicate.support (planned : PlannedPredicate) : Support := planned.filter.support

/-- The plan of one scan. -/
structure ScanPlan where
  query : Query
  /-- How exact the combined filter is. -/
  support : Support
  predicates : List PlannedPredicate
  /-- The containers that every fetched row is tested against. -/
  residual : List HasContainer

namespace GraphConfig

/-- Map containers to filters, up to the first error. -/
def planPredicates (config : GraphConfig) (kind : ElementKind) :
    List HasContainer → Result (List PlannedPredicate)
  | [] => .ok []
  | container :: containers =>
      match config.containerFilter kind container with
      | .error e => .error e
      | .ok filter =>
          match planPredicates config kind containers with
          | .error e => .error e
          | .ok planned => .ok (⟨container, filter⟩ :: planned)

/-- The plan of a scan. -/
def plan (config : GraphConfig) (kind : ElementKind) (ids : List String)
    (containers : List HasContainer) (collections : List String) : Result ScanPlan := do
  let planned ← config.planPredicates kind containers
  let combined := Filter.conjoin (planned.map PlannedPredicate.filter)
  let query ← config.scanQuery kind ids combined collections
  pure ⟨query, combined.support, planned, containers⟩

/-- The plan of a scan step. -/
def planScan (config : GraphConfig) (scan : Scan) : Result ScanPlan :=
  config.plan scan.kind scan.ids scan.containers scan.collections

end GraphConfig
end Pushdown
