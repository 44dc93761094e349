import Pushdown.Plan.Scan

/-!
# Pushing filters into scans

A selection at the start of a traversal becomes a scan that takes in the containers of
the filter steps after it. Barriers are passed over; the first other step ends this.

## Algorithm

* an id container with `eq` or `within` names the candidate ids, if there are none yet;
* in a complex graph a label container narrows the collections;
* accessors without a stored field stay where they are;
* any other container is taken in if its filter can be pushed, and else stays.

A filter step without containers left is removed and hands its labels to the scan.
-/

namespace Pushdown

namespace Predicate

/-- The values that an id predicate names outright. -/
def namedValues? : Predicate → Option (List Value)
  | compare op operand =>
      if op = Operator.eq.name then some [operand]
      else if op = Operator.within.name then
        match operand with
        | .list items => some items
        | value => some [value]
      else none
  | _ => none

end Predicate

namespace GraphConfig

/-- The ids of several values, each of which must be an id of the kind. -/
def namedIds (config : GraphConfig) (kind : ElementKind) : List Value → Result (List String)
  | [] => .ok []
  | value :: values => do
      let id ← idText value
      let _ ← config.parseId kind id
      let ids ← namedIds config kind values
      pure (id :: ids)

/-- Check that every id of a list is one of the kind. -/
def checkIds (config : GraphConfig) (kind : ElementKind) : List String → Result Unit
  | [] => .ok ()
  | id :: ids => do
      let _ ← config.parseId kind id
      checkIds config kind ids

/-- The collections whose names satisfy a label predicate. -/
def narrow (predicate : Predicate) : List String → Result (List String)
  | [] => .ok []
  | collection :: collections =>
      match predicate.test (some (.string collection)) with
      | .error e => .error e
      | .ok keep =>
          match narrow predicate collections with
          | .error e => .error e
          | .ok rest => .ok (if keep then collection :: rest else rest)

/-- Take a container in if its filter can be pushed. -/
def absorbFilter (config : GraphConfig) (scan : Scan) (container : HasContainer) :
    Result (Option Scan) :=
  match config.containerFilter scan.kind container with
  | .error e => .error e
  | .ok filter =>
      .ok (if filter.isPushable then
        some { scan with containers := scan.containers ++ [container] } else none)

/-- Take a container into a scan; none leaves it in its step. -/
def absorb (config : GraphConfig) (scan : Scan) (container : HasContainer) :
    Result (Option Scan) :=
  match container.key with
  | .id =>
      match (if scan.ids.isEmpty then container.predicate.namedValues? else none) with
      | some values => (config.namedIds scan.kind values).map fun ids =>
          some { scan with ids := ids }
      | none => config.absorbFilter scan container
  | .label =>
      match config.type with
      | .complex => (narrow container.predicate scan.collections).map fun collections =>
          some { scan with collections := Names.ofList collections }
      | .simple => config.absorbFilter scan container
  | .property _ => config.absorbFilter scan container
  | .synthetic _ => .ok none

/-- Take in the containers of a step; those left stay in their order. -/
def absorbAll (config : GraphConfig) (scan : Scan) :
    List HasContainer → Result (Scan × List HasContainer)
  | [] => .ok (scan, [])
  | container :: containers =>
      match config.absorb scan container with
      | .error e => .error e
      | .ok (some scan) => absorbAll config scan containers
      | .ok none =>
          match absorbAll config scan containers with
          | .error e => .error e
          | .ok (scan, kept) => .ok (scan, container :: kept)

/-- Take in the filter steps at the start of a list of steps. -/
def absorbSteps (config : GraphConfig) (scan : Scan) :
    List Step → Result (Scan × List Step)
  | [] => .ok (scan, [])
  | .barrier :: steps =>
      match absorbSteps config scan steps with
      | .error e => .error e
      | .ok (scan, rest) => .ok (scan, .barrier :: rest)
  | .has containers labels :: steps =>
      match config.absorbAll scan containers with
      | .error e => .error e
      | .ok (scan, []) =>
          absorbSteps config { scan with labels := scan.labels ++ labels } steps
      | .ok (scan, kept) =>
          match absorbSteps config scan steps with
          | .error e => .error e
          | .ok (scan, rest) => .ok (scan, .has kept labels :: rest)
  | steps => .ok (scan, steps)

/-- The scan of a selection before it takes anything in. -/
def startScan (config : GraphConfig) (kind : ElementKind) (ids labels : List String) : Scan :=
  ⟨kind, ids, [], config.collections kind, labels⟩

/-- Push the filters of a traversal down. One that does not start with a selection stays
as it is. -/
def pushDown (config : GraphConfig) : List Step → Result (List Step)
  | .select kind ids labels :: steps =>
      match config.checkIds kind ids with
      | .error e => .error e
      | .ok () =>
          match config.absorbSteps (config.startScan kind ids labels) steps with
          | .error e => .error e
          | .ok (scan, rest) => .ok (.scan scan :: rest)
  | steps => .ok steps

end GraphConfig
end Pushdown
