import Pushdown.Graph.Variables
import Pushdown.Graph.Version
import Pushdown.Store.Client

/-!
# Graphs

A graph is a validated configuration over a store. Opening one creates its document of
variables and writes the library's version into it.

## Operations

* `Graph.opened`: open a graph;
* `Graph.storedVariables`, `Graph.setVariable`, `Graph.removeVariable`;
* `Graph.addVertex`, `Graph.addEdge`, `Graph.updateVertex`, `Graph.updateEdge`,
  `Graph.remove`.
-/

namespace Pushdown

/-- A graph. -/
structure Graph where
  config : GraphConfig

/-- An operation of a graph over a store with states `σ`. -/
abbrev GraphAction (σ α : Type) := ExceptT GraphError (StateM σ) α

/-- An operation of the store. -/
def onStore {σ α : Type} (action : StoreAction σ α) : GraphAction σ α := fun s =>
  match action s with
  | (.ok a, s) => (.ok a, s)
  | (.error e, s) => (.error (.execution e), s)

/-- A result as an operation that leaves the store alone. -/
def result {σ α : Type} (r : Result α) : GraphAction σ α := fun s => (r, s)

namespace Graph

variable {σ : Type} [Client σ]

/-- The stored variables, if there are any. -/
def loadVariables (config : GraphConfig) : GraphAction σ (Option GraphVariables) := do
  match ← onStore (Client.get variablesCollection config.graph) with
  | some document => do
      let vars ← result (GraphVariables.ofDocument config document)
      pure (some vars)
  | none => pure none

/-- Write the variables back. -/
def storeVariables (vars : GraphVariables) : GraphAction σ Unit := do
  let _ ← onStore (Client.replace variablesCollection vars.key vars.toDocument)
  pure ()

/-- The variables of a graph that has none yet. -/
def createVariables (config : GraphConfig) : GraphAction σ GraphVariables := do
  let fresh : GraphVariables := ⟨config.graph, libraryVersion, []⟩
  let _ ← onStore (Client.insert variablesCollection fresh.toDocument)
  pure fresh

/-- Create the variables if there are none, and write the library's version. -/
def initVariables (config : GraphConfig) : GraphAction σ Unit := do
  onStore (Client.ensureCollection variablesCollection)
  let vars ← match ← loadVariables config with
    | some vars => pure vars
    | none => createVariables config
  result (checkVersion vars.version)
  storeVariables { vars with version := libraryVersion }

/-- Open a graph. -/
def opened (config : GraphConfig) : GraphAction σ Graph := do
  let config ← result config.validate
  initVariables config
  pure ⟨config⟩

/-- The failure of a graph without variables. -/
def noVariables (config : GraphConfig) : GraphError :=
  .execution ⟨.notFound, variablesCollection ++ "/" ++ config.graph⟩

/-- The variables of a graph. -/
def storedVariables (graph : Graph) : GraphAction σ GraphVariables := do
  match ← loadVariables graph.config with
  | some vars => pure vars
  | none => throw (noVariables graph.config)

/-- The property value of a host value. -/
def classified (raw : RawValue) : Result Value :=
  match Value.of? raw with
  | .ok value => .ok value
  | .error fault => .error (.unsupportedValue fault)

/-- Set a variable. -/
def setVariable (graph : Graph) (key : String) (raw : RawValue) : GraphAction σ GraphVariables := do
  let value ← result (classified raw)
  result (checkVariable graph.config key value)
  let vars ← graph.storedVariables
  let vars := vars.set key value
  storeVariables vars
  pure vars

/-- Remove a variable; one that is not there is no error. -/
def removeVariable (graph : Graph) (key : String) : GraphAction σ GraphVariables := do
  let vars ← graph.storedVariables
  if Entries.contains key vars.values then do
    let vars := vars.remove key
    storeVariables vars
    pure vars
  else pure vars

/-- The identity and label of a new element. -/
def newElement (graph : Graph) (kind : ElementKind) (label id : Option String) :
    Result (ElementId × String) := do
  let element ← graph.config.createId kind label id
  if (graph.config.collections kind).contains element.collection || graph.config.dataDefinition
  then pure (element, label.getD (defaultLabel kind))
  else throw (.unknownCollection element.collection)

/-- Store the properties of a new element one after the other, up to the first fault. -/
def classifyProperties (config : GraphConfig) (properties : Entries Value) :
    List (String × RawValue) → Result (Entries Value)
  | [] => .ok properties
  | (key, raw) :: rest =>
      if config.isReserved key then .error (.reservedField key)
      else
        match classified raw with
        | .error e => .error e
        | .ok value => classifyProperties config (Entries.insert key value properties) rest

/-- Check that no property has a reserved name. -/
def checkProperties (config : GraphConfig) (properties : Entries Value) : Result Unit :=
  match (Entries.keys properties).find? config.isReserved with
  | some key => .error (.reservedField key)
  | none => .ok ()

/-- The document id of an end of an edge. -/
def endpointId (id : ElementId) : Result String :=
  match id.documentId? with
  | some text => .ok text
  | none => .error (.invalidId (.keylessEndpoint id))

/-- The fields of the ends of an edge. -/
def endpointFields : Option (ElementId × ElementId) → Result (List (String × Json))
  | none => .ok []
  | some (source, target) => do
      let source ← endpointId source
      let target ← endpointId target
      pure [("_from", .string source), ("_to", .string target)]

/-- The key field of an element that has a key. -/
def keyFields (id : ElementId) : List (String × Json) :=
  match id.key with
  | some key => [("_key", .string key)]
  | none => []

/-- The document of an element. -/
def document (config : GraphConfig) (id : ElementId) (label : String)
    (properties : Entries Value) (ends : Option (ElementId × ElementId)) : Result Json := do
  let endpoints ← endpointFields ends
  pure (.object (Entries.ofList
    (keyFields id ++ (config.labelField, .string label) :: endpoints ++
      Value.toJsonFields properties)))

/-- The form in which an error shows an identity. -/
def shownId (config : GraphConfig) (id : ElementId) : String :=
  (config.encodeId id).getD id.display

/-- Insert the document of an element. -/
def insertElement (config : GraphConfig) (id : ElementId) (document : Json) :
    GraphAction σ DocumentMeta := fun s =>
  match Client.insert id.physicalCollection document s with
  | (.ok assigned, s) => (.ok assigned, s)
  | (.error e, s) =>
      if e.kind = .uniqueConstraint then (.error (.elementExists (shownId config id)), s)
      else (.error (.execution e), s)

/-- The key of an element that must have one. -/
def keyOf (id : ElementId) : Result String :=
  match id.key with
  | some key => .ok key
  | none => .error (.invalidId (.keylessElement id))

/-- Replace the document of an element. -/
def replaceElement (id : ElementId) (document : Json) : GraphAction σ DocumentMeta := do
  let key ← result (keyOf id)
  onStore (Client.replace id.physicalCollection key document)

/-- Insert a vertex. -/
def addVertex (graph : Graph) (label id : Option String) (properties : List (String × RawValue)) :
    GraphAction σ Vertex := do
  let (element, label) ← result (graph.newElement .vertex label id)
  let properties ← result (classifyProperties graph.config [] properties)
  let document ← result (document graph.config element label properties none)
  let assigned ← insertElement graph.config element document
  pure ⟨element.withKey assigned.key, label, some assigned.revision, properties, []⟩

/-- Insert an edge. -/
def addEdge (graph : Graph) (label id : Option String) (source target : ElementId)
    (properties : List (String × RawValue)) : GraphAction σ Edge := do
  let (element, label) ← result (graph.newElement .edge label id)
  let properties ← result (classifyProperties graph.config [] properties)
  let document ← result (document graph.config element label properties (some (source, target)))
  let assigned ← insertElement graph.config element document
  pure ⟨element.withKey assigned.key, label, some assigned.revision, source, target, properties⟩

/-- Write back the label and the properties of a vertex. -/
def updateVertex (graph : Graph) (vertex : Vertex) : GraphAction σ Vertex := do
  result (checkProperties graph.config vertex.properties)
  let document ← result (document graph.config vertex.id vertex.label vertex.properties none)
  let assigned ← replaceElement vertex.id document
  pure { vertex with revision := some assigned.revision }

/-- Write back the label, the ends and the properties of an edge. -/
def updateEdge (graph : Graph) (edge : Edge) : GraphAction σ Edge := do
  result (checkProperties graph.config edge.properties)
  let document ← result (document graph.config edge.id edge.label edge.properties
    (some (edge.source, edge.target)))
  let assigned ← replaceElement edge.id document
  pure { edge with revision := some assigned.revision }

/-- Remove an element; one that is not there is no error. -/
def remove (id : ElementId) : GraphAction σ Unit := do
  let key ← result (keyOf id)
  fun s =>
    match Client.delete id.physicalCollection key s with
    | (.ok (), s) => (.ok (), s)
    | (.error e, s) => if e.kind = .notFound then (.ok (), s) else (.error (.execution e), s)

end Graph
end Pushdown
