import Pushdown.Value.Basic

/-!
# Graph elements

Vertices and edges with their identities, and the rows that a query returns.

## Operations

* `ElementId.physicalCollection`, `ElementId.documentId?`: names in the store;
* `ElementId.compare`: graph, then collection, then key, unassigned keys first.
-/

namespace Pushdown

/-- The kind of an element. -/
inductive ElementKind where
  | vertex
  | edge
deriving DecidableEq

/-- The name of a kind. -/
def ElementKind.name : ElementKind → String
  | .vertex => "vertex"
  | .edge => "edge"

/-- The kind of a name. -/
def ElementKind.ofName? (text : String) : Option ElementKind :=
  [vertex, edge].find? fun kind => kind.name = text

/-- The direction of edges as seen from a vertex. -/
inductive Direction where
  | outgoing
  | incoming
  | both
deriving DecidableEq

namespace Direction

/-- The query keyword of a direction. -/
def keyword : Direction → String
  | outgoing => "OUTBOUND"
  | incoming => "INBOUND"
  | both => "ANY"

/-- The name of a direction. -/
def name : Direction → String
  | outgoing => "out"
  | incoming => "in"
  | both => "both"

/-- The direction of a name. -/
def ofName? (text : String) : Option Direction :=
  [outgoing, incoming, both].find? fun direction => direction.name = text

end Direction

/-- The separator of graph and collection in a physical name. -/
def graphSeparator : Char := '_'

/-- The separator of collection and key in a document id. -/
def keySeparator : Char := '/'

/-- The identity of an element. The collection is the logical name; the key is missing
while the store has not assigned one. -/
structure ElementId where
  graph : String
  collection : String
  key : Option String
deriving DecidableEq

/-- Name of a collection in the store. -/
def physicalName (graph collection : String) : String :=
  graph ++ graphSeparator.toString ++ collection

namespace ElementId

/-- The same identity with a key. -/
def withKey (id : ElementId) (key : String) : ElementId := { id with key := some key }

/-- Name of the collection in the store. -/
def physicalCollection (id : ElementId) : String := physicalName id.graph id.collection

/-- Name of the document in the store, once it has a key. -/
def documentId? (id : ElementId) : Option String :=
  id.key.map fun key => id.physicalCollection ++ keySeparator.toString ++ key

/-- The form shown in messages. -/
def display (id : ElementId) : String :=
  match id.documentId? with
  | some text => text
  | none => id.physicalCollection ++ "/<unassigned>"

/-- Order of keys: an unassigned one comes first. -/
def compareKeys : Option String → Option String → Ordering
  | none, none => .eq
  | none, some _ => .lt
  | some _, none => .gt
  | some a, some b => Ord.compare a b

/-- Order by graph, then collection, then key. -/
def compare (a b : ElementId) : Ordering :=
  (Ord.compare a.graph b.graph).then
    ((Ord.compare a.collection b.collection).then (compareKeys a.key b.key))

end ElementId

/-- A vertex. -/
structure Vertex where
  id : ElementId
  label : String
  /-- The store's revision, if the row carried one. -/
  revision : Option String
  properties : Entries Value
  /-- Data about properties, by property name. -/
  metadata : Entries (Entries Value)

/-- An edge. -/
structure Edge where
  id : ElementId
  label : String
  revision : Option String
  source : ElementId
  target : ElementId
  properties : Entries Value

/-- A graph element. -/
inductive Element where
  | vertex (vertex : Vertex)
  | edge (edge : Edge)

namespace Element

def kind : Element → ElementKind
  | vertex _ => .vertex
  | edge _ => .edge

def id : Element → ElementId
  | vertex v => v.id
  | edge e => e.id

def label : Element → String
  | vertex v => v.label
  | edge e => e.label

def properties : Element → Entries Value
  | vertex v => v.properties
  | edge e => e.properties

/-- The value of a property, if the element has it. -/
def property? (key : String) (element : Element) : Option Value :=
  Entries.find? key element.properties

end Element

/-- A row of a query result. -/
inductive Row where
  | element (element : Element)
  | list (rows : List Row)
  | map (rows : List (String × Row))
  | value (value : Value)

namespace Row

/-- The value of a scalar row. -/
def asValue? : Row → Option Value
  | value v => some v
  | _ => none

/-- The element of an element row. -/
def asElement? : Row → Option Element
  | element e => some e
  | _ => none

end Row

end Pushdown
