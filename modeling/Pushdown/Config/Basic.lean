import Pushdown.Error
import Pushdown.Text.Search

/-!
# Graph configuration

A configuration names a database and a graph, picks how elements are identified, and
lists the collections that hold vertices and edges. Validation adds the collections
that edge definitions and orphan lists name, and fills in the defaults of simple graphs.

## Operations

* `EdgeDefinition.ofText?`, `EdgeDefinition.text`: `knows:[person,dog]->[person]`;
* `GraphConfig.validate`: check and complete a configuration;
* `GraphConfig.defaultCollection`, `GraphConfig.physicalCollection`.
-/

namespace Pushdown

/-- How elements are identified. -/
inductive GraphType where
  /-- One collection of vertices and one of edges; an id is a key. -/
  | simple
  /-- A collection for each label; an id is a collection and a key. -/
  | complex
deriving DecidableEq

namespace GraphType

/-- The name of a type in documents. -/
def name : GraphType → String
  | simple => "simple"
  | complex => "complex"

/-- The name of a type in reports. -/
def title : GraphType → String
  | simple => "Simple"
  | complex => "Complex"

/-- The type of a name. -/
def ofName? (text : String) : Option GraphType :=
  [simple, complex].find? fun type => type.name = text

end GraphType

/-- A collection of edges and the collections of the vertices they connect. -/
structure EdgeDefinition where
  collection : String
  sources : Names
  targets : Names
deriving DecidableEq

namespace EdgeDefinition

/-- The names between brackets. -/
def readNames? (text : List Char) : Option Names := do
  let opened ← match Text.trim text with
    | '[' :: rest => some rest
    | _ => none
  let inner ← Text.dropLast? ']' opened
  let names := (Text.splitOn ',' inner).map Text.trim
  pure (Names.ofList ((names.filter fun name => !name.isEmpty).map String.ofList))

/-- The definition of a text, if it is one. -/
def read? (text : List Char) : Option EdgeDefinition := do
  let (collection, rest) ← Text.splitAt? ':' text
  let (sources, targets) ← Text.splitAtText? ['-', '>'] rest
  let collection := Text.trim collection
  if collection.isEmpty then none
  else do
    let sources ← readNames? sources
    let targets ← readNames? targets
    if sources.isEmpty || targets.isEmpty then none
    else pure ⟨String.ofList collection, sources, targets⟩

/-- The definition of a text. -/
def ofText? (text : String) : Result EdgeDefinition :=
  match read? text.toList with
  | some definition => .ok definition
  | none => .error (.invalidConfig (.edgeDefinition text))

/-- The text of a definition. -/
def text (definition : EdgeDefinition) : String :=
  definition.collection ++ ":[" ++ ",".intercalate definition.sources ++ "]->[" ++
    ",".intercalate definition.targets ++ "]"

end EdgeDefinition

/-- Fields of documents that the store or the element mapping owns. -/
def reservedFields : List String :=
  ["_id", "_key", "_rev", "_from", "_to", "_meta", "_version"]

/-- The collection and label of vertices without a label. -/
def defaultVertexCollection : String := "vertex"

/-- The collection and label of edges without a label. -/
def defaultEdgeCollection : String := "edge"

/-- The label of elements of a kind without a label. -/
def defaultLabel : ElementKind → String
  | .vertex => defaultVertexCollection
  | .edge => defaultEdgeCollection

/-- The configuration of a graph. -/
structure GraphConfig where
  database : String
  graph : String
  type : GraphType
  /-- The document field of the label. -/
  labelField : String
  vertices : Names
  edges : Names
  edgeDefinitions : List EdgeDefinition
  /-- Vertex collections that no edge definition names. -/
  orphans : Names
  /-- Whether collections that are not listed may be written to. -/
  dataDefinition : Bool
deriving DecidableEq

namespace GraphConfig

/-- The configuration with nothing set. -/
def initial : GraphConfig where
  database := "_system"
  graph := "tinkerpop"
  type := .simple
  labelField := "_label"
  vertices := .empty
  edges := .empty
  edgeDefinitions := []
  orphans := .empty
  dataDefinition := false

/-- Add a vertex collection. -/
def addVertices (config : GraphConfig) (name : String) : GraphConfig :=
  { config with vertices := Names.insert name config.vertices }

/-- Add an edge collection. -/
def addEdges (config : GraphConfig) (name : String) : GraphConfig :=
  { config with edges := Names.insert name config.edges }

/-- Add an edge definition. -/
def addDefinition (config : GraphConfig) (definition : EdgeDefinition) : GraphConfig :=
  { config with edgeDefinitions := config.edgeDefinitions ++ [definition] }

/-- Add orphan collections. -/
def addOrphans (config : GraphConfig) (names : List String) : GraphConfig :=
  { config with orphans := Names.union config.orphans names }

/-- The collections that may hold elements of a kind. -/
def collections (config : GraphConfig) : ElementKind → Names
  | .vertex => config.vertices
  | .edge => config.edges

/-- The collection of elements of a kind given without collection and label. -/
def defaultCollection (config : GraphConfig) (kind : ElementKind) : String :=
  match config.type with
  | .simple => (config.collections kind).members.head?.getD (defaultLabel kind)
  | .complex => defaultLabel kind

/-- The name of a collection in the store. -/
def physicalCollection (config : GraphConfig) (name : String) : String :=
  physicalName config.graph name

/-- The reserved fields and the label field. -/
def reserved (config : GraphConfig) : List String :=
  if reservedFields.contains config.labelField then reservedFields
  else reservedFields ++ [config.labelField]

/-- Whether a property may not have a name. -/
def isReserved (config : GraphConfig) (key : String) : Bool :=
  key == config.labelField || reservedFields.contains key

/-- Add the collections that edge definitions and orphan lists name. -/
def withNamedCollections (config : GraphConfig) : GraphConfig :=
  let named := config.edgeDefinitions.foldl
    (fun (config : GraphConfig) definition =>
      { config with
        edges := Names.insert definition.collection config.edges
        vertices := Names.union (Names.union config.vertices definition.sources)
          definition.targets })
    config
  { named with vertices := Names.union named.vertices config.orphans }

/-- Fill in the collections and the edge definition of a simple graph. -/
def withDefaults (config : GraphConfig) : GraphConfig :=
  let vertices :=
    if config.vertices.isEmpty then .single defaultVertexCollection else config.vertices
  let edges := if config.edges.isEmpty then .single defaultEdgeCollection else config.edges
  let config := { config with vertices := vertices, edges := edges }
  if config.edgeDefinitions.isEmpty then
    let vertex := config.defaultCollection .vertex
    config.addDefinition ⟨config.defaultCollection .edge, .single vertex, .single vertex⟩
  else config

/-- Check that a name is not empty and free of the separators. -/
def checkName (what name : String) : Result Unit :=
  if name.isEmpty then .error (.invalidConfig (.emptyName what))
  else if name.toList.contains graphSeparator then
    .error (.invalidConfig (.nameCharacter what name graphSeparator))
  else if name.toList.contains keySeparator then
    .error (.invalidConfig (.nameCharacter what name keySeparator))
  else .ok ()

/-- Check several names, up to the first fault. -/
def checkNames (what : String) : List String → Result Unit
  | [] => .ok ()
  | name :: names =>
      match checkName what name with
      | .ok () => checkNames what names
      | .error e => .error e

/-- Whether a text is empty or blank. -/
def isBlankText (text : String) : Bool := (Text.trim text.toList).isEmpty

/-- Check the settings that hold one text. -/
def checkSettings (config : GraphConfig) : Result Unit :=
  if isBlankText config.database then .error (.invalidConfig .blankDatabase)
  else if isBlankText config.graph then .error (.invalidConfig .blankGraph)
  else if config.labelField.isEmpty then .error (.invalidConfig .emptyLabelField)
  else .ok ()

/-- Check and fill in the collections of a simple graph. -/
def completeSimple (config : GraphConfig) : Result GraphConfig :=
  if 1 < config.vertices.members.length then .error (.invalidConfig .manyVertexCollections)
  else if 1 < config.edges.members.length then .error (.invalidConfig .manyEdgeCollections)
  else .ok config.withDefaults

/-- Check a configuration and add what follows from it. -/
def validate (config : GraphConfig) : Result GraphConfig := do
  config.checkSettings
  let config := config.withNamedCollections
  let config ← match config.type with
    | .simple => config.completeSimple
    | .complex => pure config
  checkName "graph name" config.graph
  checkNames "collection name" (config.vertices.members ++ config.edges.members)
  pure config

end GraphConfig
end Pushdown
