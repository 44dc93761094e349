import Pushdown.Filter.Mapping
import Pushdown.Identity
import Pushdown.Traversal.Step

/-!
# Queries

The query text of a scan, of a fetch by ids, and of a neighborhood, with the values bound
to its variables.

## Operations

* `GraphConfig.fieldFor?`: the document field of a key;
* `GraphConfig.containerFilter`: the filter of a container;
* `GraphConfig.scanQuery`: a scan, or a fetch when ids are given;
* `GraphConfig.neighborQuery`: the elements one edge away.
-/

namespace Pushdown

/-- Query text with the values of its bind variables. -/
structure Query where
  text : String
  bindings : Entries Json

/-- The stored id of an id operand. -/
def storedIdValue (config : GraphConfig) (kind : ElementKind) (value : Value) : Result Value := do
  let id ← idText value
  let stored ← config.storedId kind id
  pure (.string stored)

/-- The stored ids of several values, up to the first error. -/
def storedIdValues (config : GraphConfig) (kind : ElementKind) :
    List Value → Result (List Value)
  | [] => .ok []
  | value :: values =>
      match storedIdValue config kind value with
      | .error e => .error e
      | .ok stored =>
          match storedIdValues config kind values with
          | .error e => .error e
          | .ok rest => .ok (stored :: rest)

namespace Predicate

/-- The operand of a comparison as stored ids; none for text operators. -/
def storedOperand (config : GraphConfig) (kind : ElementKind) (op : String) (operand : Value) :
    Result (Option Value) :=
  match Operator.ofName? op with
  | some .eq | some .neq | some .lt | some .lte | some .gt | some .gte =>
      (storedIdValue config kind operand).map some
  | some .within | some .without =>
      match operand with
      | .list items => (storedIdValues config kind items).map fun items => some (.list items)
      | value => (storedIdValue config kind value).map some
  | _ => .ok none

mutual

/-- The predicate on stored ids, none if some part of it has no such form. -/
def onStoredIds (config : GraphConfig) (kind : ElementKind) :
    Predicate → Result (Option Predicate)
  | compare op operand =>
      (storedOperand config kind op operand).map fun stored => stored.map (compare op)
  | all members => (onStoredIdsMembers config kind members).map fun ps => ps.map all
  | any members => (onStoredIdsMembers config kind members).map fun ps => ps.map any

/-- The members on stored ids, up to the first error or part without such a form. -/
def onStoredIdsMembers (config : GraphConfig) (kind : ElementKind) :
    List Predicate → Result (Option (List Predicate))
  | [] => .ok (some [])
  | p :: ps =>
      match onStoredIds config kind p with
      | .error e => .error e
      | .ok none => .ok none
      | .ok (some q) =>
          match onStoredIdsMembers config kind ps with
          | .error e => .error e
          | .ok none => .ok none
          | .ok (some qs) => .ok (some (q :: qs))

end

end Predicate

namespace GraphConfig

/-- The document field that a key is compared with. -/
def fieldFor? (config : GraphConfig) : HasKey → Option String
  | .label => some config.labelField
  | .id => some config.type.idField
  | .property name => some name
  | .synthetic _ => none

/-- The filter of a container; accessors without a field, and id predicates without a
stored form, have the neutral one. -/
def containerFilter (config : GraphConfig) (kind : ElementKind) (container : HasContainer) :
    Result Filter :=
  match config.fieldFor? container.key with
  | none => .ok .empty
  | some field =>
      if container.key = .id then
        match container.predicate.onStoredIds config kind with
        | .error e => .error e
        | .ok none => .ok .empty
        | .ok (some predicate) => predicate.filter field
      else container.predicate.filter field

/-- The scan of one collection. -/
def collectionScan (config : GraphConfig) (filter : Filter) (collection : String) : String :=
  "FOR x IN " ++ Filter.quoteName (config.physicalCollection collection) ++
    filter.clause "x" ++ " RETURN x"

/-- The document ids of the given ids that lie in the given collections. -/
def documentIds (config : GraphConfig) (kind : ElementKind) (collections : List String) :
    List String → Result (List String)
  | [] => .ok []
  | id :: ids => do
      let element ← config.parseId kind id
      let rest ← documentIds config kind collections ids
      match element.documentId? with
      | some documentId =>
          pure (if collections.contains element.collection then documentId :: rest else rest)
      | none => pure rest

/-- The scan of several collections, or the fetch of the given ids. -/
def scanQuery (config : GraphConfig) (kind : ElementKind) (ids : List String) (filter : Filter)
    (collections : List String) : Result Query :=
  if collections.isEmpty then .error .noCollections
  else if ids.isEmpty then
    match collections with
    | [collection] => .ok ⟨config.collectionScan filter collection, []⟩
    | collections =>
        let arms := collections.map fun c => "(" ++ config.collectionScan filter c ++ ")"
        .ok ⟨"FOR d IN UNION(" ++ ",".intercalate arms ++ ") RETURN d", []⟩
  else
    match config.documentIds kind collections ids with
    | .error e => .error e
    | .ok documentIds =>
        .ok ⟨"FOR d IN DOCUMENT(@ids)" ++ filter.clause "d" ++ " RETURN d",
          [("ids", Json.strings documentIds)]⟩

/-- The first name that is not in a set. -/
def firstUnknown? (known : List String) (names : List String) : Option String :=
  names.find? fun name => !known.contains name

/-- The edge collections to traverse, and the filter for the labels that are no
collections. -/
def neighborCollections (config : GraphConfig) (labels : List String) :
    Result (List String × Filter) :=
  if labels.isEmpty then .ok (config.edges, .empty)
  else
    match config.type with
    | .complex =>
        match firstUnknown? config.edges labels with
        | some label => .error (.unknownCollection label)
        | none => .ok (labels, .empty)
    | .simple => .ok (config.edges, .within config.labelField (labels.map .string))

/-- The variable that a neighborhood returns. -/
def neighborVariable : ElementKind → String
  | .vertex => "v"
  | .edge => "e"

/-- The vertices or edges one edge away from an element. -/
def neighborQuery (config : GraphConfig) (start : ElementId) (direction : Direction)
    (labels : List String) (target : ElementKind) : Result Query :=
  match start.documentId? with
  | none => .error (.invalidId (.keylessElement start))
  | some startId =>
      match config.neighborCollections labels with
      | .error e => .error e
      | .ok (collections, filter) =>
          .ok ⟨"FOR v, e IN 1..1 " ++ direction.keyword ++ " @startId GRAPH " ++
              Quoted.quote config.graph ++ " OPTIONS \x7bedgeCollections: @edgeCollections\x7d" ++
              filter.clause "e" ++ " RETURN " ++ neighborVariable target,
            [("edgeCollections", Json.strings (collections.map config.physicalCollection)),
              ("startId", .string startId)]⟩

end GraphConfig
end Pushdown
